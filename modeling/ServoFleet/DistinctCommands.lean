import ServoFleet.CommandKinds

/-!
Commands told apart by their frames. Two commands with the same sent layout agree
but for the two brakes and the patterns that the encoder changes. Of two floats with
one pattern one is a signalling NaN, and a release build never makes one of two.

Commands of different builds are not compared.
-/

namespace ServoFleet.CanCodec

open BitCodec

/-- Equal frames of one build for one address mean one kind of command and the same rounded
fields. -/
def Distinguished (build : FloatBuild) (command other : MotorCommand) : Prop :=
  ∀ address start start' frame, encodeWith build address command start = some (.ok (), frame) →
    encodeWith build address other start' = some (.ok (), frame) →
      kind command = kind other ∧ quantised command = quantised other

/-- An energy brake and a regenerative one with the same rounded threshold and reply. -/
def SameBrake (energy regen : BrakeCommand) : Prop :=
  ∃ threshold threshold', energy.control = .energy threshold ∧
    regen.control = .regen threshold' ∧
    nearest (scaledBy threshold 100) = nearest (scaledBy threshold' 100) ∧
    energy.reply = regen.reply

/-- Different floats of which a build that runs the conversions makes one pattern. -/
structure SamePattern (build : FloatBuild) (x y : F32) : Prop where
  runs : build.folds = false
  signalling : x.isSignalling = true ∨ y.isSignalling = true
  differ : x ≠ y
  same : f32ToBits build x = f32ToBits build y

/-- Patterns that a build makes equal are equal but for signalling NaNs. -/
theorem samePattern_of_ne {build : FloatBuild} {x y : F32} (hdiffer : x ≠ y)
    (hsame : f32ToBits build x = f32ToBits build y) : SamePattern build x y := by
  have hchanged : build.folds = false ∧ (x.isSignalling = true ∨ y.isSignalling = true) := by
    by_contra hkept
    have hx : f32ToBits build x = x.bits :=
      (f32ToBits_kept_iff build x).mpr fun h => hkept ⟨h.1, .inl h.2⟩
    have hy : f32ToBits build y = y.bits :=
      (f32ToBits_kept_iff build y).mpr fun h => hkept ⟨h.1, .inr h.2⟩
    rw [hx, hy] at hsame
    exact hdiffer (F32.mk.injEq _ _ ▸ hsame)
  exact ⟨hchanged.1, hchanged.2, hdiffer, hsame⟩

/-- Two accepted commands that the frame does not tell apart. -/
def Confused (build : FloatBuild) : MotorCommand → MotorCommand → Prop
  | .brake command, .brake other => Accepted (.brake command) ∧ Accepted (.brake other) ∧
      (SameBrake command other ∨ SameBrake other command)
  | .position command, .position other =>
      Accepted (.position command) ∧ Accepted (.position other) ∧
        SamePattern build command.positionDeg other.positionDeg ∧
        nearest (scaledBy command.velocityLimitRpm 10) =
          nearest (scaledBy other.velocityLimitRpm 10) ∧
        nearest (scaledBy command.currentLimit 10) = nearest (scaledBy other.currentLimit 10) ∧
        command.reply = other.reply
  | .velocity command, .velocity other =>
      Accepted (.velocity command) ∧ Accepted (.velocity other) ∧
        SamePattern build command.velocityRpm other.velocityRpm ∧
        nearest (scaledBy command.currentLimit 10) = nearest (scaledBy other.currentLimit 10) ∧
        command.reply = other.reply
  | _, _ => False

/-! ## Layouts as numbers -/

private theorem wide_inj {w : Nat} (h : w ≤ 32) {x y : BitVec w} :
    x.setWidth 32 = y.setWidth 32 ↔ x = y := by
  constructor
  · intro heq
    apply BitVec.eq_of_toNat_eq
    have hnat := congrArg BitVec.toNat heq
    rwa [BitVec.toNat_setWidth_of_le h, BitVec.toNat_setWidth_of_le h] at hnat
  · rintro rfl
    rfl

theorem nearestValue_inj (field : Bits) (quantity quantity' : Option ℚ) :
    nearestValue field quantity = nearestValue field quantity' ↔
      nearest quantity = nearest quantity' := by
  rw [nearestValue, nearestValue, FieldValue.mk.injEq, wide_inj (by decide)]
  exact and_iff_right rfl

theorem replyValue_inj (field : Bits) (reply reply' : ReplyMode) :
    replyValue field reply = replyValue field reply' ↔ reply = reply' := by
  rw [replyValue, replyValue, FieldValue.mk.injEq, wide_inj (by decide), ReplyMode.mk.injEq]
  exact and_iff_right rfl

theorem torqueControlLayout_inj {state state' : TorqueControlMode} {value value' : F32}
    {reply reply' : ReplyMode} :
    torqueControlLayout state value reply = torqueControlLayout state' value' reply' ↔
      state.raw = state'.raw ∧ reply = reply' ∧
        nearest (scaledBy value 100) = nearest (scaledBy value' 100) := by
  simp [torqueControlLayout, nearestValue_inj, replyValue_inj]

theorem positionLayout_inj {command other : PositionCommand} {position position' : BitVec 32} :
    positionLayout command position = positionLayout other position' ↔
      position = position' ∧
        nearest (scaledBy command.velocityLimitRpm 10) =
          nearest (scaledBy other.velocityLimitRpm 10) ∧
        nearest (scaledBy command.currentLimit 10) = nearest (scaledBy other.currentLimit 10) ∧
        command.reply = other.reply := by
  simp [positionLayout, nearestValue_inj, replyValue_inj]

theorem velocityLayout_inj {command other : VelocityCommand} {rpm rpm' : BitVec 32} :
    velocityLayout command rpm = velocityLayout other rpm' ↔
      command.reply = other.reply ∧ rpm = rpm' ∧
        nearest (scaledBy command.currentLimit 10) = nearest (scaledBy other.currentLimit 10) := by
  simp [velocityLayout, nearestValue_inj, replyValue_inj]

/-! ## Confused commands -/

theorem confused_of_sent_eq {build : FloatBuild} {command other : MotorCommand}
    (h : Accepted command) (hother : Accepted other) (hsent : sent build command = sent build other)
    (hdiffer : ¬ (kind command = kind other ∧ quantised command = quantised other)) :
    Confused build command other := by
  have hkind : sentKind command = sentKind other := by
    have hkind := congrArg kindOf hsent
    rw [kindOf_sent build h, kindOf_sent build hother] at hkind
    exact Option.some.inj hkind
  by_cases hposition : sentKind command = .position
  · obtain ⟨position, rfl⟩ := eq_position hposition
    obtain ⟨position', rfl⟩ := eq_position (hkind.symm.trans hposition)
    obtain ⟨hpattern, hrest⟩ := positionLayout_inj.mp hsent
    refine ⟨h, hother, samePattern_of_ne ?_ hpattern, hrest⟩
    intro heq
    exact hdiffer ⟨rfl, positionLayout_inj.mpr ⟨congrArg F32.bits heq, hrest⟩⟩
  by_cases hvelocity : sentKind command = .velocity
  · obtain ⟨velocity, rfl⟩ := eq_velocity hvelocity
    obtain ⟨velocity', rfl⟩ := eq_velocity (hkind.symm.trans hvelocity)
    obtain ⟨hreply, hpattern, hlimit⟩ := velocityLayout_inj.mp hsent
    refine ⟨h, hother, samePattern_of_ne ?_ hpattern, hlimit, hreply⟩
    intro heq
    exact hdiffer ⟨rfl, velocityLayout_inj.mpr ⟨hreply, congrArg F32.bits heq, hlimit⟩⟩
  by_cases hbrake : sentKind command = .regenBrake
  · obtain ⟨⟨_, _, reply⟩, threshold, rfl, hcontrol⟩ := eq_brake hbrake
    obtain ⟨⟨_, _, reply'⟩, threshold', rfl, hcontrol'⟩ := eq_brake (hkind.symm.trans hbrake)
    rcases hcontrol with rfl | rfl <;> rcases hcontrol' with rfl | rfl
    · obtain ⟨_, hrest⟩ := torqueControlLayout_inj.mp hsent
      exact absurd ⟨rfl, torqueControlLayout_inj.mpr ⟨rfl, hrest⟩⟩ hdiffer
    · obtain ⟨_, hreply, hthreshold⟩ := torqueControlLayout_inj.mp hsent
      exact ⟨h, hother, .inl ⟨_, _, rfl, rfl, hthreshold, hreply⟩⟩
    · obtain ⟨_, hreply, hthreshold⟩ := torqueControlLayout_inj.mp hsent
      exact ⟨h, hother, .inr ⟨_, _, rfl, rfl, hthreshold.symm, hreply.symm⟩⟩
    · exact absurd ⟨rfl, hsent⟩ hdiffer
  obtain ⟨hquantised, hkind'⟩ := sent_exact build hposition hvelocity hbrake
  rw [hkind] at hposition hvelocity hbrake
  obtain ⟨hquantised', hkind''⟩ := sent_exact build hposition hvelocity hbrake
  exact absurd ⟨hkind'.trans (hkind.trans hkind''.symm),
    hquantised.trans (hsent.trans hquantised'.symm)⟩ hdiffer

theorem sent_eq_of_sameBrake (build : FloatBuild) {energy regen : BrakeCommand}
    (h : SameBrake energy regen) :
    sent build (.brake energy) = sent build (.brake regen) ∧
      kind (.brake energy) ≠ kind (.brake regen) := by
  obtain ⟨deviceId, control, reply⟩ := energy
  obtain ⟨deviceId', control', reply'⟩ := regen
  obtain ⟨threshold, threshold', rfl, rfl, hthreshold, hreply⟩ := h
  exact ⟨torqueControlLayout_inj.mpr ⟨rfl, hreply, hthreshold⟩, nofun⟩

theorem sent_eq_of_confused {build : FloatBuild} {command other : MotorCommand}
    (h : Confused build command other) :
    Accepted command ∧ Accepted other ∧ sent build command = sent build other ∧
      ¬ (kind command = kind other ∧ quantised command = quantised other) := by
  cases command with
  | position command =>
      cases other with
      | position other =>
          obtain ⟨haccepted, hother, hpattern, hrest⟩ := h
          refine ⟨haccepted, hother, positionLayout_inj.mpr ⟨hpattern.same, hrest⟩, ?_⟩
          rintro ⟨_, hquantised⟩
          obtain ⟨hbits, _⟩ := positionLayout_inj.mp hquantised
          exact hpattern.differ (F32.mk.injEq _ _ ▸ hbits)
      | _ => exact h.elim
  | velocity command =>
      cases other with
      | velocity other =>
          obtain ⟨haccepted, hother, hpattern, hlimit, hreply⟩ := h
          refine ⟨haccepted, hother, velocityLayout_inj.mpr ⟨hreply, hpattern.same, hlimit⟩, ?_⟩
          rintro ⟨_, hquantised⟩
          obtain ⟨_, hbits, _⟩ := velocityLayout_inj.mp hquantised
          exact hpattern.differ (F32.mk.injEq _ _ ▸ hbits)
      | _ => exact h.elim
  | brake command =>
      cases other with
      | brake other =>
          obtain ⟨haccepted, hother, hsame | hsame⟩ := h
          · obtain ⟨hsent, hkind⟩ := sent_eq_of_sameBrake build hsame
            exact ⟨haccepted, hother, hsent, fun heq => hkind heq.1⟩
          · obtain ⟨hsent, hkind⟩ := sent_eq_of_sameBrake build hsame
            exact ⟨haccepted, hother, hsent.symm, fun heq => hkind heq.1.symm⟩
      | _ => exact h.elim
  | _ => exact h.elim

theorem not_distinguished_of_confused {build : FloatBuild} {command other : MotorCommand}
    (h : Confused build command other) : ¬ Distinguished build command other := by
  intro hdistinguished
  obtain ⟨haccepted, hother, hsent, hdiffer⟩ := sent_eq_of_confused h
  have hrun := (encodeWith_does {} {} build command).ok haccepted
  have hrun' := (encodeWith_does {} {} build other).ok hother
  rw [← hsent] at hrun'
  exact hdiffer (hdistinguished {} {} {} _ hrun hrun')

/-- Equal frames come from commands of one kind with the same rounded fields, for every
two commands and every build, unless the two are confused: an energy brake with a
regenerative one, or two positions or velocities of which the build makes one pattern. -/
theorem distinguished_iff (build : FloatBuild) (command other : MotorCommand) :
    Distinguished build command other ↔ ¬ Confused build command other := by
  constructor
  · intro hdistinguished hconfused
    exact not_distinguished_of_confused hconfused hdistinguished
  · intro hclear address start start' frame hrun hrun'
    obtain ⟨haccepted, hframe⟩ := accepted_of_encodeWith hrun
    obtain ⟨hother, hframe'⟩ := accepted_of_encodeWith hrun'
    have hsent := sent_eq_of_frame build haccepted hother address (hframe.symm.trans hframe')
    by_contra hdiffer
    exact hclear (confused_of_sent_eq haccepted hother hsent hdiffer)

/-- In a release build only the two brakes are confused. -/
theorem brakes_of_confused_folded {command other : MotorCommand}
    (h : Confused .folded command other) :
    ∃ brake brake', command = .brake brake ∧ other = .brake brake' ∧
      (SameBrake brake brake' ∨ SameBrake brake' brake) := by
  cases command with
  | position command =>
      cases other with
      | position other => exact Bool.noConfusion h.2.2.1.runs
      | _ => exact h.elim
  | velocity command =>
      cases other with
      | velocity other => exact Bool.noConfusion h.2.2.1.runs
      | _ => exact h.elim
  | brake command =>
      cases other with
      | brake other => exact ⟨command, other, rfl, rfl, h.2.2⟩
      | _ => exact h.elim
  | _ => exact h.elim

/-- A regenerative brake with a threshold of 1 A. -/
def regenBrake : MotorCommand :=
  .brake { deviceId := 0, control := .regen { bits := 0x3F800000 }, reply := .none }

theorem brakes_confused (build : FloatBuild) : Confused build energyBrake regenBrake := by
  have hround : RoundsInto (scaledBy { bits := 0x3F800000 } 100) (-32768) 32767 :=
    ⟨100, by decide +kernel, by decide +kernel, by decide +kernel⟩
  exact ⟨⟨hround, by decide⟩, ⟨hround, by decide⟩, .inl ⟨_, _, rfl, rfl, rfl, rfl⟩⟩

/-- Both brakes go out as the frame `70 00 64`. -/
theorem energy_regen_confused :
    ¬ Distinguished .folded energyBrake regenBrake ∧
      ¬ Distinguished .quieting energyBrake regenBrake ∧ kind energyBrake ≠ kind regenBrake ∧
      encode { canId := 1 } energyBrake {} =
        some (.ok (), { id := 1, data := #v[0x70, 0, 0x64, 0, 0, 0, 0, 0], len := 3 }) ∧
      encode { canId := 1 } regenBrake {} =
        some (.ok (), { id := 1, data := #v[0x70, 0, 0x64, 0, 0, 0, 0, 0], len := 3 }) := by
  refine ⟨?_, ?_, by decide, by decide +kernel, by decide +kernel⟩
  · exact not_distinguished_of_confused (brakes_confused .folded)
  · exact not_distinguished_of_confused (brakes_confused .quieting)

end ServoFleet.CanCodec
