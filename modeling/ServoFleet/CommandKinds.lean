import ServoFleet.FaithfulCommands

/-!
What a frame says about its command. The mode code and the length give the fields it is
read with, so equal frames carry the same sent layout; and the mode code with the number
after it gives the kind of the command.
-/

namespace ServoFleet.CanCodec

open BitCodec CanField

inductive CommandKind where
  | pvt
  | position
  | velocity
  | torque
  | current
  | dampingBrake
  | energyBrake
  | regenBrake
  | engageBrake
  | configSet
  | configQuery
  deriving DecidableEq, Repr

def kind : MotorCommand → CommandKind
  | .pvt _ => .pvt
  | .position _ => .position
  | .velocity _ => .velocity
  | .torque _ => .torque
  | .current _ => .current
  | .brake command =>
      match command.control with
      | .damping => .dampingBrake
      | .energy _ => .energyBrake
      | .regen _ => .regenBrake
      | .engage _ => .engageBrake
  | .configSet _ => .configSet
  | .configQuery _ => .configQuery

/-! ## From the frame to the layout -/

/-- The fields of a frame, by its mode code and its length. -/
def fieldsOf (mode : BitVec 32) (len : Byte) : List Bits :=
  if mode = CommandCode.pvtControl.raw then
    [Pvt.mode, Pvt.kp, Pvt.kd, Pvt.position, Pvt.velocity, Pvt.torque]
  else if mode = CommandCode.positionControl.raw then
    [PositionControl.mode, PositionControl.positionDeg, PositionControl.velocityRpmX10,
      PositionControl.currentAmpX10, PositionControl.reply]
  else if mode = CommandCode.velocityControl.raw then
    [VelocityControl.mode, VelocityControl.reserved, VelocityControl.reply, VelocityControl.rpm,
      VelocityControl.currentAmpX10]
  else if mode = CommandCode.torqueControl.raw then
    [TorqueControl.mode, TorqueControl.state, TorqueControl.reply, TorqueControl.value]
  else if mode = CommandCode.brakeControl.raw then
    [CanField.BrakeControl.mode, CanField.BrakeControl.reserved, CanField.BrakeControl.engaged]
  else if mode = CommandCode.motorConfig.raw then
    if len = 3 then [Config.mode, Config.key, .u8 16]
    else if len = 4 then [Config.mode, Config.key, Config.value]
    else [Config.mode, Config.key, Config.min, Config.max]
  else [ConfigQuery.mode, ConfigQuery.key]

/-- The layout starts with the mode code, and the code gives its fields. -/
structure Layout.Headed (layout : Layout) (mode : BitVec 32) : Prop where
  head : FieldValue.mk { offset := 0, len := 3 } mode ∈ layout.values
  fields : layout.fields = fieldsOf mode layout.len

theorem configLayout_headed {code : ConfigSetCode} {value : ConfigSetValue}
    (h : ConfigAccepted code value) :
    Layout.Headed (configLayout code value) CommandCode.motorConfig.raw := by
  cases value with
  | float value => exact ⟨.head _, rfl⟩
  | mode value => exact ⟨.head _, rfl⟩
  | double value => exact ⟨.head _, rfl⟩
  | rangeU16 range => exact ⟨.head _, rfl⟩
  | rangeFloat range =>
      obtain ⟨scale, hscale, _⟩ := h
      simp only [configLayout, hscale]
      exact ⟨.head _, rfl⟩
  | milliseconds count => exact ⟨.head _, rfl⟩
  | gains gains =>
      obtain ⟨scale, second, hscale, _⟩ := h
      simp only [configLayout, hscale]
      exact ⟨.head _, rfl⟩

/-- The mode code that a command goes out under. -/
def modeCode : MotorCommand → CommandCode
  | .pvt _ => .pvtControl
  | .position _ => .positionControl
  | .velocity _ => .velocityControl
  | .torque _ | .current _ => .torqueControl
  | .brake command =>
      match command.control with
      | .engage _ => .brakeControl
      | .damping | .energy _ | .regen _ => .torqueControl
  | .configSet _ => .motorConfig
  | .configQuery _ => .motorConfigQuery

theorem sent_headed (build : FloatBuild) {command : MotorCommand} (h : Accepted command) :
    Layout.Headed (sent build command) (modeCode command).raw := by
  cases command with
  | pvt command => exact ⟨.head _, rfl⟩
  | position command => exact ⟨.head _, rfl⟩
  | velocity command => exact ⟨.head _, rfl⟩
  | torque command => exact ⟨.head _, rfl⟩
  | current command => exact ⟨.head _, rfl⟩
  | brake command =>
      obtain ⟨deviceId, control, reply⟩ := command
      cases control with
      | damping => exact ⟨.head _, rfl⟩
      | energy threshold => exact ⟨.head _, rfl⟩
      | regen threshold => exact ⟨.head _, rfl⟩
      | engage isOpen => exact ⟨.head _, rfl⟩
  | configSet command => exact configLayout_headed h
  | configQuery command => exact ⟨.head _, rfl⟩

theorem sent_laidOut (build : FloatBuild) {command : MotorCommand} (h : Accepted command)
    (address : CanAddr) :
    CanFrame.LaidOut
      { port := address.canPort, id := address.canId, len := (sent build command).len }
      (sent build command).values :=
  layoutWith_laidOut (f32ToBits build) .regenerativeBrake h address

/-- The values of a layout are those of its fields in the frame. -/
theorem values_eq_get {frame start : CanFrame} {layout : Layout}
    (hlaid : start.LaidOut layout.values) (hframe : frame = start.fill layout.values) :
    layout.values = layout.fields.map fun field => FieldValue.mk field (frame.get field) := by
  rw [Layout.fields, List.map_map]
  apply (List.map_id _).symm.trans
  apply List.map_congr_left
  intro value member
  rw [Function.comp_apply, hframe, CanFrame.get_fill hlaid member]
  rfl

/-- A sent frame starts with the mode code of its command. -/
theorem get_mode (build : FloatBuild) {command : MotorCommand} (h : Accepted command)
    (address : CanAddr) :
    ((sent build command).frame address).get { offset := 0, len := 3 } = (modeCode command).raw :=
  CanFrame.get_fill (sent_laidOut build h address) (sent_headed build h).head

/-- Equal frames of one build carry equal layouts. -/
theorem sent_eq_of_frame (build : FloatBuild) {command other : MotorCommand} (h : Accepted command)
    (hother : Accepted other) (address : CanAddr)
    (hframe : (sent build command).frame address = (sent build other).frame address) :
    sent build command = sent build other := by
  have hlen : (sent build command).len = (sent build other).len := by
    have hlen := congrArg CanFrame.len hframe
    rwa [Layout.frame, Layout.frame, (CanFrame.fill_address _ _).2.2.2,
      (CanFrame.fill_address _ _).2.2.2] at hlen
  have hmode : (modeCode command).raw = (modeCode other).raw := by
    rw [← get_mode build h address, hframe, get_mode build hother address]
  have hsame : (sent build command).fields = (sent build other).fields := by
    rw [(sent_headed build h).fields, (sent_headed build hother).fields, hmode, hlen]
  apply Layout.ext hlen
  rw [values_eq_get (sent_laidOut build h address) rfl,
    values_eq_get (sent_laidOut build hother address) hframe, hsame]
  rfl

/-! ## From the layout to the command -/

/-- The kind that the receiver sees. -/
def sentKind (command : MotorCommand) : CommandKind :=
  match kind command with
  | .energyBrake => .regenBrake
  | kind => kind

/-- The kind of a layout, by its mode code and the number after it. -/
def kindOf (layout : Layout) : Option CommandKind :=
  match layout.values with
  | mode :: next :: _ =>
      if mode.raw = CommandCode.pvtControl.raw then some .pvt
      else if mode.raw = CommandCode.positionControl.raw then some .position
      else if mode.raw = CommandCode.velocityControl.raw then some .velocity
      else if mode.raw = CommandCode.torqueControl.raw then
        if next.raw = TorqueControlMode.current.raw then some .current
        else if next.raw = TorqueControlMode.torque.raw then some .torque
        else if next.raw = TorqueControlMode.variableDampingBrake.raw then some .dampingBrake
        else some .regenBrake
      else if mode.raw = CommandCode.brakeControl.raw then some .engageBrake
      else if mode.raw = CommandCode.motorConfig.raw then some .configSet
      else some .configQuery
  | _ => none

theorem kindOf_config {code : ConfigSetCode} {value : ConfigSetValue}
    (h : ConfigAccepted code value) : kindOf (configLayout code value) = some .configSet := by
  cases value with
  | float value => rfl
  | mode value => rfl
  | double value => rfl
  | rangeU16 range => rfl
  | rangeFloat range =>
      obtain ⟨scale, hscale, _⟩ := h
      simp only [configLayout, hscale]
      rfl
  | milliseconds count => rfl
  | gains gains =>
      obtain ⟨scale, second, hscale, _⟩ := h
      simp only [configLayout, hscale]
      rfl

theorem kindOf_sent (build : FloatBuild) {command : MotorCommand} (h : Accepted command) :
    kindOf (sent build command) = some (sentKind command) := by
  cases command with
  | pvt command => rfl
  | position command => rfl
  | velocity command => rfl
  | torque command => rfl
  | current command => rfl
  | brake command =>
      obtain ⟨deviceId, control, reply⟩ := command
      cases control with
      | damping => rfl
      | energy threshold => rfl
      | regen threshold => rfl
      | engage isOpen => rfl
  | configSet command => exact kindOf_config h
  | configQuery command => rfl

theorem eq_position {command : MotorCommand} (h : sentKind command = .position) :
    ∃ position, command = .position position := by
  cases command with
  | position position => exact ⟨position, rfl⟩
  | brake command =>
      obtain ⟨deviceId, control, reply⟩ := command
      cases control <;> cases h
  | _ => cases h

theorem eq_velocity {command : MotorCommand} (h : sentKind command = .velocity) :
    ∃ velocity, command = .velocity velocity := by
  cases command with
  | velocity velocity => exact ⟨velocity, rfl⟩
  | brake command =>
      obtain ⟨deviceId, control, reply⟩ := command
      cases control <;> cases h
  | _ => cases h

theorem eq_brake {command : MotorCommand} (h : sentKind command = .regenBrake) :
    ∃ brake threshold, command = .brake brake ∧
      (brake.control = .energy threshold ∨ brake.control = .regen threshold) := by
  cases command with
  | brake command =>
      obtain ⟨deviceId, control, reply⟩ := command
      cases control with
      | energy threshold => exact ⟨_, threshold, rfl, .inl rfl⟩
      | regen threshold => exact ⟨_, threshold, rfl, .inr rfl⟩
      | damping => cases h
      | engage isOpen => cases h
  | _ => cases h

/-- Every other kind of command is sent as it is. -/
theorem sent_exact (build : FloatBuild) {command : MotorCommand}
    (hposition : sentKind command ≠ .position) (hvelocity : sentKind command ≠ .velocity)
    (hbrake : sentKind command ≠ .regenBrake) :
    quantised command = sent build command ∧ kind command = sentKind command := by
  cases command with
  | position command => exact absurd rfl hposition
  | velocity command => exact absurd rfl hvelocity
  | brake command =>
      obtain ⟨deviceId, control, reply⟩ := command
      cases control with
      | damping => exact ⟨rfl, rfl⟩
      | energy threshold => exact absurd rfl hbrake
      | regen threshold => exact absurd rfl hbrake
      | engage isOpen => exact ⟨rfl, rfl⟩
  | _ => exact ⟨rfl, rfl⟩

end ServoFleet.CanCodec
