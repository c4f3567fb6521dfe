import ServoFleet.CommandEncode

/-!
The physical quantities of a command and what happens to those that are not finite. The
scaled ones are checked; the two floats that travel as patterns are not.
-/

namespace ServoFleet.CanCodec

/-- The quantities that the encoder puts into the frame, without a value where they are
not finite. -/
def quantities : MotorCommand → List (Option ℚ)
  | .pvt command => [command.gains.kp.value, command.gains.kd.value, command.positionR.value,
      command.velocityRadps.value, command.torqueFfNm.value]
  | .position command => [command.positionDeg.value, command.velocityLimitRpm.value,
      command.currentLimit.value]
  | .velocity command => [command.velocityRpm.value, command.currentLimit.value]
  | .torque command => [command.torqueNm.value]
  | .current command => [command.current.value]
  | .brake command =>
      match command.control with
      | .energy threshold | .regen threshold => [threshold.value]
      | .damping | .engage _ => []
  | .configSet command =>
      match command.value with
      | .float value => [value.value]
      | .double value => [value.value]
      | .rangeFloat range => [range.min.value, range.max.value]
      | .gains gains =>
          match gainsScale command.code gains with
          | some (_, second) => [gains.kp.value, second.value]
          | none => []
      | .mode _ | .rangeU16 _ | .milliseconds _ => []
  | .configQuery _ => []

def AllFinite (command : MotorCommand) : Prop := none ∉ quantities command

/-- For every address and every caller's frame the encoder reports an invalid argument. -/
def Rejected (build : FloatBuild) (command : MotorCommand) : Prop :=
  ∀ address start, ∃ after,
    encodeWith build address command start = some (.error .invalidArgument, after)

def NonFiniteRejected (build : FloatBuild) (command : MotorCommand) : Prop :=
  ¬ AllFinite command → Rejected build command

/-- The float that is sent as a pattern is not finite, and the rest of the command is in
order. -/
def UncheckedPattern : MotorCommand → Prop
  | .position command => command.positionDeg.value = none ∧
      RoundsInto (scaledBy command.velocityLimitRpm 10) 0 0x7FFF ∧
      RoundsInto (scaledBy command.currentLimit 10) 0 0x0FFF ∧ command.reply.Declared
  | .velocity command => command.velocityRpm.value = none ∧
      RoundsInto (scaledBy command.currentLimit 10) 0 uint16Max ∧ command.reply.Declared
  | _ => False

/-! ## Checked quantities -/

theorem rejected_iff (build : FloatBuild) (command : MotorCommand) :
    Rejected build command ↔ ¬ Accepted command := by
  constructor
  · intro hrejected haccepted
    obtain ⟨after, hrun⟩ := hrejected {} {}
    rw [(encodeWith_does {} {} build command).ok haccepted] at hrun
    cases hrun
  · intro hrefused address start
    exact (encodeWith_does address start build command).refuses hrefused

theorem finite_of_rounds {value : Option ℚ} {scale : ℚ → ℚ} {low high : Int}
    (h : RoundsInto (value.map scale) low high) : none ≠ value := by
  obtain ⟨q, hq, _⟩ := h
  rintro rfl
  cases hq

private theorem only_finite {value : Option ℚ} (h : none ≠ value) : none ∉ [value] :=
  List.not_mem_cons_of_ne_of_not_mem h List.not_mem_nil

theorem double_finite_of_rounds {value : F64} {low high : Int}
    (h : RoundsInto (scaledBy value.toF32 100) low high) : none ≠ value.value := by
  intro hnone
  exact finite_of_rounds h (toF32_value_none value hnone.symm).symm

theorem config_finite {code : ConfigSetCode} {value : ConfigSetValue} {deviceId : DeviceId}
    (h : ConfigAccepted code value) : AllFinite (.configSet { deviceId, code, value }) := by
  unfold AllFinite quantities
  cases value with
  | float value => exact only_finite (finite_of_rounds h.2)
  | mode value => exact List.not_mem_nil
  | double value => exact only_finite (double_finite_of_rounds h.2)
  | rangeU16 range => exact List.not_mem_nil
  | rangeFloat range =>
      obtain ⟨scale, _, hmin, hmax⟩ := h
      exact List.not_mem_cons_of_ne_of_not_mem (finite_of_rounds hmin)
        (only_finite (finite_of_rounds hmax))
  | milliseconds count => exact List.not_mem_nil
  | gains gains =>
      obtain ⟨scale, second, hscale, hkp, hsecond⟩ := h
      simp only [hscale]
      exact List.not_mem_cons_of_ne_of_not_mem (finite_of_rounds hkp)
        (only_finite (finite_of_rounds hsecond))

/-- Of the quantities of an accepted command only the unchecked patterns need not be
finite. -/
theorem accepted_finite_iff {command : MotorCommand} (h : Accepted command) :
    AllFinite command ↔ ¬ UncheckedPattern command := by
  cases command with
  | pvt command =>
      obtain ⟨hkp, hkd, hposition, hvelocity, htorque⟩ := h
      apply iff_of_true _ id
      simp only [AllFinite, quantities, List.mem_cons, List.not_mem_nil, or_false, not_or]
      exact ⟨finite_of_rounds hkp, finite_of_rounds hkd, finite_of_rounds hposition,
        finite_of_rounds hvelocity, finite_of_rounds htorque⟩
  | position command =>
      simp only [AllFinite, quantities, List.mem_cons, List.not_mem_nil, or_false, not_or,
        UncheckedPattern]
      constructor
      · rintro ⟨hposition, _⟩ ⟨hnone, _⟩
        exact hposition hnone.symm
      · intro hchecked
        exact ⟨fun hnone => hchecked ⟨hnone.symm, h⟩, finite_of_rounds h.1,
          finite_of_rounds h.2.1⟩
  | velocity command =>
      simp only [AllFinite, quantities, List.mem_cons, List.not_mem_nil, or_false, not_or,
        UncheckedPattern]
      constructor
      · rintro ⟨hvelocity, _⟩ ⟨hnone, _⟩
        exact hvelocity hnone.symm
      · intro hchecked
        exact ⟨fun hnone => hchecked ⟨hnone.symm, h⟩, finite_of_rounds h.1⟩
  | torque command => exact iff_of_true (only_finite (finite_of_rounds h.1)) id
  | current command => exact iff_of_true (only_finite (finite_of_rounds h.1)) id
  | brake command =>
      apply iff_of_true _ id
      obtain ⟨deviceId, control, reply⟩ := command
      cases control with
      | damping => exact List.not_mem_nil
      | energy threshold => exact only_finite (finite_of_rounds h.1)
      | regen threshold => exact only_finite (finite_of_rounds h.1)
      | engage isOpen => exact List.not_mem_nil
  | configSet command => exact iff_of_true (config_finite h) id
  | configQuery command => exact iff_of_true List.not_mem_nil id

/-! ## Unchecked patterns -/

theorem UncheckedPattern.accepted {command : MotorCommand} (h : UncheckedPattern command) :
    Accepted command := by
  cases command with
  | position command => exact h.2
  | velocity command => exact h.2
  | pvt command => exact h.elim
  | torque command => exact h.elim
  | current command => exact h.elim
  | brake command => exact h.elim
  | configSet command => exact h.elim
  | configQuery command => exact h.elim

/-- What is not finite is rejected in every place but two, in every build. The position of
a position command and the velocity of a velocity command are written without a look at
them, so they go out when the rest of their command is in order. -/
theorem nonFinite_rejected_iff (build : FloatBuild) (command : MotorCommand) :
    NonFiniteRejected build command ↔ ¬ UncheckedPattern command := by
  rw [NonFiniteRejected, rejected_iff]
  constructor
  · intro hrejects hpattern
    have haccepted := hpattern.accepted
    have hnot : ¬ AllFinite command := fun h => (accepted_finite_iff haccepted).mp h hpattern
    exact hrejects hnot haccepted
  · intro hchecked hnot haccepted
    exact hnot ((accepted_finite_iff haccepted).mpr hchecked)

def nanPosition : MotorCommand :=
  .position
    { deviceId := 0
      positionDeg := { bits := 0x7FC00000 }
      velocityLimitRpm := {}
      currentLimit := {} }

/-- A position that is not a number goes out to the motor. -/
theorem nan_position_sent :
    ¬ NonFiniteRejected .folded nanPosition ∧
      encode { canId := 1 } nanPosition {} =
        some (.ok (), { id := 1, data := #v[0x2F, 0xF8, 0, 0, 0, 0, 0, 1], len := 8 }) := by
  have hrun : encodeWith .folded { canId := 1 } nanPosition {} =
      some (.ok (), { id := 1, data := #v[0x2F, 0xF8, 0, 0, 0, 0, 0, 1], len := 8 }) := by
    decide +kernel
  refine ⟨?_, hrun⟩
  intro hrejects
  obtain ⟨after, herror⟩ := hrejects (fun h => h (by decide +kernel)) { canId := 1 } {}
  rw [hrun] at herror
  cases herror

end ServoFleet.CanCodec
