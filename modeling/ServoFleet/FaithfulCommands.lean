import ServoFleet.CommandQuantities

/-!
The frame of a command against the command: what the encoder writes is what the
layout of the rounded command says, but for the state of an energy brake and, in a
build that runs the conversions of `f32_to_bits`, for patterns of signalling NaNs. A
release build folds these conversions and sends every pattern as it is.

The reading back is that of the layout. What a drive makes of the fields is left
out.
-/

namespace ServoFleet

open BitCodec

/-- A frame for the address with exactly the fields of the layout. -/
structure Layout.ReadsBack (layout : Layout) (address : CanAddr) (frame : CanFrame) : Prop where
  valid : frame.valid = true
  standard : frame.extended = false
  id : frame.id = address.canId
  port : frame.port = address.canPort
  len : frame.len = layout.len
  fields : ∀ value ∈ layout.values, frame.read value.field = some (.ok value.raw)
  rest : ∀ i < 64, (∀ value ∈ layout.values, ¬ value.Covers i) →
    BitField.bit frame.data.toList i = false

namespace CanCodec

/-- On every frame it is given the encoder of the build writes the rounded command and
nothing else, and it does not fail on a command in order. -/
def Faithful (build : FloatBuild) (command : MotorCommand) : Prop :=
  ∀ address : CanAddr, address.canId ≤ 0x7FF →
    (∀ start frame, encodeWith build address command start = some (.ok (), frame) →
      (quantised command).ReadsBack address frame ∧
        ∀ other, encodeWith build address command other = some (.ok (), frame)) ∧
    (AllFinite command → Accepted command →
      ∀ start, ∃ frame, encodeWith build address command start = some (.ok (), frame))

/-- A signalling NaN in a build that runs the conversions. -/
def ChangedBy (build : FloatBuild) (x : F32) : Prop :=
  build.folds = false ∧ x.isSignalling = true

/-- An accepted energy brake or, in a build that runs the conversions, an accepted position
or velocity that is a signalling NaN. -/
def Altered (build : FloatBuild) : MotorCommand → Prop
  | .position command => Accepted (.position command) ∧ ChangedBy build command.positionDeg
  | .velocity command => Accepted (.velocity command) ∧ ChangedBy build command.velocityRpm
  | .brake command => Accepted (.brake command) ∧
      ∃ threshold, command.control = .energy threshold
  | _ => False

/-! ## Frames of layouts -/

/-- The frame of a layout reads back as the layout. -/
theorem frame_readsBack (pattern : F32 → BitVec 32) (energyState : TorqueControlMode)
    {command : MotorCommand} (h : Accepted command) (address : CanAddr)
    (hid : address.canId ≤ 0x7FF) :
    (layoutWith pattern energyState command).ReadsBack address
      ((layoutWith pattern energyState command).frame address) := by
  have hlaid := layoutWith_laidOut pattern energyState h address
  have hmax := (layoutWith_fits pattern energyState command).1
  obtain ⟨hport, hid', hextended, hlen⟩ := CanFrame.fill_address
    { port := address.canPort, id := address.canId,
      len := (layoutWith pattern energyState command).len }
    (layoutWith pattern energyState command).values
  constructor
  · rw [CanFrame.valid, Layout.frame, hextended, hid', hlen]
    exact Bool.and_eq_true_iff.mpr ⟨decide_eq_true hid, decide_eq_true hmax⟩
  · exact hextended
  · exact hid'
  · exact hport
  · exact hlen
  · intro value member
    have hfits := CanFrame.fits_of_len _ hlen (hlaid.fits value member)
    rw [← CanFrame.get_fill hlaid member]
    exact CanFrame.read_eq _ _ hfits
  · intro i hi houtside
    exact (CanFrame.bit_fill hlaid houtside).trans (BitField.bit_zeros 8 i)

/-! ## What is sent -/

theorem sent_eq_quantised {build : FloatBuild} {command : MotorCommand} (h : Accepted command)
    (hplain : ¬ Altered build command) : sent build command = quantised command := by
  cases command with
  | position command =>
      have hkept : ¬ ChangedBy build command.positionDeg := fun hchanged => hplain ⟨h, hchanged⟩
      exact congrArg (positionLayout command) ((f32ToBits_kept_iff build _).mpr hkept)
  | velocity command =>
      have hkept : ¬ ChangedBy build command.velocityRpm := fun hchanged => hplain ⟨h, hchanged⟩
      exact congrArg (velocityLayout command) ((f32ToBits_kept_iff build _).mpr hkept)
  | brake command =>
      obtain ⟨deviceId, control, reply⟩ := command
      cases control with
      | energy threshold => exact absurd ⟨h, threshold, rfl⟩ hplain
      | damping => rfl
      | regen threshold => rfl
      | engage isOpen => rfl
  | pvt command => rfl
  | torque command => rfl
  | current command => rfl
  | configSet command => rfl
  | configQuery command => rfl

/-- In a field of an altered command another number is sent. -/
theorem altered_field {build : FloatBuild} {command : MotorCommand} (h : Altered build command) :
    Accepted command ∧ ∃ field raw raw', FieldValue.mk field raw ∈ (sent build command).values ∧
      FieldValue.mk field raw' ∈ (quantised command).values ∧ raw ≠ raw' := by
  cases command with
  | position command =>
      obtain ⟨haccepted, hchanged⟩ := h
      exact ⟨haccepted, CanField.PositionControl.positionDeg, _, command.positionDeg.bits,
        .tail _ (.head _), .tail _ (.head _), fun hkept =>
          (f32ToBits_kept_iff build command.positionDeg).mp hkept hchanged⟩
  | velocity command =>
      obtain ⟨haccepted, hchanged⟩ := h
      exact ⟨haccepted, CanField.VelocityControl.rpm, _, command.velocityRpm.bits,
        .tail _ (.tail _ (.tail _ (.head _))), .tail _ (.tail _ (.tail _ (.head _))), fun hkept =>
          (f32ToBits_kept_iff build command.velocityRpm).mp hkept hchanged⟩
  | brake command =>
      obtain ⟨deviceId, control, reply⟩ := command
      obtain ⟨haccepted, threshold, rfl⟩ := h
      exact ⟨haccepted, CanField.TorqueControl.state, TorqueControlMode.regenerativeBrake.raw,
        TorqueControlMode.rheostaticBrake.raw, .tail _ (.head _), .tail _ (.head _), by decide⟩
  | pvt command => exact h.elim
  | torque command => exact h.elim
  | current command => exact h.elim
  | configSet command => exact h.elim
  | configQuery command => exact h.elim

theorem not_faithful_of_altered {build : FloatBuild} {command : MotorCommand}
    (h : Altered build command) : ¬ Faithful build command := by
  intro hfaithful
  obtain ⟨haccepted, field, raw, raw', hsent, hquantised, hne⟩ := altered_field h
  have hrun := (encodeWith_does {} {} build command).ok haccepted
  have hsound := ((hfaithful {} (by decide)).1 {} _ hrun).1
  have hread := (frame_readsBack (f32ToBits build) .regenerativeBrake haccepted {}
    (by decide)).fields _ hsent
  have hread' := hsound.fields _ hquantised
  exact hne (Except.ok.inj (Option.some.inj (hread.symm.trans hread')))

/-- The frame carries the command unless it is altered, for every build and every command:
reading back every field gives the rounded command, and the bits outside its fields are
zero. Left out are accepted energy brakes, and positions or velocities whose signalling
NaN the build changes. -/
theorem encode_faithful_iff (build : FloatBuild) (command : MotorCommand) :
    Faithful build command ↔ ¬ Altered build command := by
  constructor
  · intro hfaithful haltered
    exact not_faithful_of_altered haltered hfaithful
  · intro hplain address hid
    constructor
    · intro start frame hrun
      obtain ⟨haccepted, rfl⟩ := accepted_of_encodeWith hrun
      constructor
      · rw [sent_eq_quantised haccepted hplain]
        exact frame_readsBack F32.bits .rheostaticBrake haccepted address hid
      · intro other
        exact (encodeWith_does address other build command).ok haccepted
    · intro _ haccepted start
      exact ⟨_, (encodeWith_does address start build command).ok haccepted⟩

/-- A release build changes nothing but the state of an energy brake. -/
theorem altered_folded_iff (command : MotorCommand) :
    Altered .folded command ↔ Accepted command ∧
      ∃ brake threshold, command = .brake brake ∧ brake.control = .energy threshold := by
  constructor
  · intro haltered
    cases command with
    | position command => exact Bool.noConfusion haltered.2.1
    | velocity command => exact Bool.noConfusion haltered.2.1
    | brake command =>
        obtain ⟨haccepted, threshold, hcontrol⟩ := haltered
        exact ⟨haccepted, command, threshold, rfl, hcontrol⟩
    | _ => exact haltered.elim
  · rintro ⟨haccepted, brake, threshold, rfl, hcontrol⟩
    exact ⟨haccepted, threshold, hcontrol⟩

/-- An energy brake with a threshold of 1 A. -/
def energyBrake : MotorCommand :=
  .brake { deviceId := 0, control := .energy { bits := 0x3F800000 }, reply := .none }

theorem energyBrake_altered (build : FloatBuild) : Altered build energyBrake :=
  ⟨⟨⟨100, by decide +kernel, by decide +kernel, by decide +kernel⟩, by decide⟩, _, rfl⟩

/-- The energy brake goes out in state 4, which is the regenerative one, in a release build
and in one that runs the conversions. -/
theorem energy_brake_altered :
    ¬ Faithful .folded energyBrake ∧ ¬ Faithful .quieting energyBrake ∧
      encode { canId := 1 } energyBrake {} =
        some (.ok (), { id := 1, data := #v[0x70, 0, 0x64, 0, 0, 0, 0, 0], len := 3 }) ∧
      encodeWith .quieting { canId := 1 } energyBrake {} =
        some (.ok (), { id := 1, data := #v[0x70, 0, 0x64, 0, 0, 0, 0, 0], len := 3 }) := by
  refine ⟨?_, ?_, by decide +kernel, by decide +kernel⟩
  · exact not_faithful_of_altered (energyBrake_altered .folded)
  · exact not_faithful_of_altered (energyBrake_altered .quieting)

end CanCodec

end ServoFleet
