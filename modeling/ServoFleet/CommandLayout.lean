import ServoFleet.EncoderRuns

/-!
The layout of every motor command: the length of its frame, its fields with the
numbers they hold, and when the command is accepted.
-/

namespace ServoFleet

open BitCodec

/-- The active bytes of a frame and its fields. -/
@[ext]
structure Layout where
  len : Byte
  values : List FieldValue

/-- A cleared frame for the address with the fields filled in. -/
def Layout.frame (layout : Layout) (address : CanAddr) : CanFrame :=
  ({ port := address.canPort, id := address.canId, len := layout.len } : CanFrame).fill
    layout.values

/-- The declared reply codes are 0 to 3. -/
def ReplyMode.Declared (reply : ReplyMode) : Prop := reply.raw.toNat ≤ 3

instance (reply : ReplyMode) : Decidable reply.Declared := inferInstanceAs (Decidable (_ ≤ _))

namespace CanCodec

open CanField

/-! ## Layouts -/

def replyValue (field : Bits) (reply : ReplyMode) : FieldValue :=
  { field, raw := reply.raw.setWidth 32 }

def nearestValue (field : Bits) (quantity : Option ℚ) : FieldValue :=
  { field, raw := (nearest quantity).setWidth 32 }

def pvtLayout (command : PvtCommand) : Layout where
  len := 8
  values :=
    [{ field := Pvt.mode, raw := CommandCode.pvtControl.raw },
      nearestValue Pvt.kp (ofMaximum command.gains.kp 500 4095),
      nearestValue Pvt.kd (ofMaximum command.gains.kd 5 511),
      nearestValue Pvt.position (aroundCenter command.positionR (25 / 2) 32767),
      nearestValue Pvt.velocity (aroundCenter command.velocityRadps 18 2047),
      nearestValue Pvt.torque (aroundCenter command.torqueFfNm 30 2047)]

/-- `position` is the pattern of the position as it is sent. -/
def positionLayout (command : PositionCommand) (position : BitVec 32) : Layout where
  len := 8
  values :=
    [{ field := PositionControl.mode, raw := CommandCode.positionControl.raw },
      { field := PositionControl.positionDeg, raw := position },
      nearestValue PositionControl.velocityRpmX10 (scaledBy command.velocityLimitRpm 10),
      nearestValue PositionControl.currentAmpX10 (scaledBy command.currentLimit 10),
      replyValue PositionControl.reply command.reply]

def velocityLayout (command : VelocityCommand) (rpm : BitVec 32) : Layout where
  len := 7
  values :=
    [{ field := VelocityControl.mode, raw := CommandCode.velocityControl.raw },
      { field := VelocityControl.reserved, raw := 0 },
      replyValue VelocityControl.reply command.reply,
      { field := VelocityControl.rpm, raw := rpm },
      nearestValue VelocityControl.currentAmpX10 (scaledBy command.currentLimit 10)]

def torqueControlLayout (state : TorqueControlMode) (value : F32) (reply : ReplyMode) : Layout where
  len := 3
  values :=
    [{ field := TorqueControl.mode, raw := CommandCode.torqueControl.raw },
      { field := TorqueControl.state, raw := state.raw },
      replyValue TorqueControl.reply reply,
      nearestValue TorqueControl.value (scaledBy value 100)]

def engageLayout (isOpen : Bool) : Layout where
  len := 2
  values :=
    [{ field := CanField.BrakeControl.mode, raw := CommandCode.brakeControl.raw },
      { field := CanField.BrakeControl.reserved, raw := 0 },
      { field := CanField.BrakeControl.engaged, raw := if isOpen then 1 else 0 }]

def configHead (code : ConfigSetCode) : List FieldValue :=
  [{ field := Config.mode, raw := CommandCode.motorConfig.raw },
    { field := Config.key, raw := code.raw.setWidth 32 }]

/-- The mode is the byte `data[2]`. -/
def configModeLayout (code : ConfigSetCode) (mode : Byte) : Layout where
  len := 3
  values := configHead code ++ [{ field := .u8 16, raw := mode.setWidth 32 }]

def configValueLayout (code : ConfigSetCode) (value : BitVec 16) : Layout where
  len := 4
  values := configHead code ++ [{ field := Config.value, raw := value.setWidth 32 }]

def configRangeLayout (code : ConfigSetCode) (min max : BitVec 16) : Layout where
  len := 6
  values := configHead code ++
    [{ field := Config.min, raw := min.setWidth 32 },
      { field := Config.max, raw := max.setWidth 32 }]

def configQueryLayout (code : ConfigQueryCode) : Layout where
  len := 2
  values :=
    [{ field := ConfigQuery.mode, raw := CommandCode.motorConfigQuery.raw },
      { field := ConfigQuery.key, raw := code.raw.setWidth 32 }]

/-! ## Ranges and gains -/

/-- How the two ends of a range are scaled and bounded, for the codes with one. -/
structure PairScale where
  first : ℚ
  second : ℚ
  low : Int
  high : Int

def rangeScale (code : ConfigSetCode) : Option PairScale :=
  if code = .pvtKp ∨ code = .pvtKd then
    some { first := 1, second := 1, low := 0, high := uint16Max }
  else if code = .pvtPositionLimitR ∨ code = .pvtVelocityLimitRadps then
    some { first := 100, second := 100, low := -32768, high := 32767 }
  else if code = .pvtTorqueLimitNm ∨ code = .pvtCurrentLimit then
    some { first := 10, second := 10, low := -32768, high := 32767 }
  else none

/-- The second gain of a loop: the integral one, or the derivative one of the
position loop. -/
def gainsScale (code : ConfigSetCode) (gains : PidGains F32) : Option (PairScale × F32) :=
  if code = .currentLoopPi then
    some ({ first := 10000, second := 10, low := 0, high := uint16Max }, gains.ki)
  else if code = .velocityLoopPi then
    some ({ first := 100000, second := 100000, low := 0, high := uint16Max }, gains.ki)
  else if code = .positionLoopPd then
    some ({ first := 100000, second := 100000, low := 0, high := uint16Max }, gains.kd)
  else none

def pairLayout (code : ConfigSetCode) (scale : PairScale) (first second : F32) : Layout :=
  configRangeLayout code (nearest (scaledBy first scale.first))
    (nearest (scaledBy second scale.second))

def PairAccepted (scale : PairScale) (first second : F32) : Prop :=
  RoundsInto (scaledBy first scale.first) scale.low scale.high ∧
    RoundsInto (scaledBy second scale.second) scale.low scale.high

/-- The layout of a pair of code and value that has an overload. -/
def configLayout (code : ConfigSetCode) : ConfigSetValue → Layout
  | .float value => configValueLayout code (nearest (scaledBy value 100))
  | .mode value => configModeLayout code value
  | .double value => configValueLayout code (nearest (scaledBy value.toF32 100))
  | .rangeU16 range => configRangeLayout code range.min range.max
  | .rangeFloat range =>
      match rangeScale code with
      | some scale => pairLayout code scale range.min range.max
      | none => { len := 0, values := [] }
  | .milliseconds count => configValueLayout code (BitVec.ofInt 16 count)
  | .gains gains =>
      match gainsScale code gains with
      | some (scale, second) => pairLayout code scale gains.kp second
      | none => { len := 0, values := [] }

/-- An overload handles the pair, and what it rounds is in bounds. -/
def ConfigAccepted (code : ConfigSetCode) : ConfigSetValue → Prop
  | .float value => code = .accel ∧ RoundsInto (scaledBy value 100) 0 uint16Max
  | .mode _ => code = .commMode
  | .double value => code = .torqueRatio ∧ RoundsInto (scaledBy value.toF32 100) 0 uint16Max
  | .rangeU16 _ => code = .pvtKp ∨ code = .pvtKd
  | .rangeFloat range => ∃ scale, rangeScale code = some scale ∧
      PairAccepted scale range.min range.max
  | .milliseconds count => code = .canTimeout ∧ 0 ≤ count ∧ count ≤ uint16Max
  | .gains gains => ∃ scale second, gainsScale code gains = some (scale, second) ∧
      PairAccepted scale gains.kp second

/-! ## Commands -/

/-- The layout of a command. What the code may get wrong stands open: how it takes the
pattern of a float, and the state it sends for an energy brake. -/
def layoutWith (pattern : F32 → BitVec 32) (energyState : TorqueControlMode) :
    MotorCommand → Layout
  | .pvt command => pvtLayout command
  | .position command => positionLayout command (pattern command.positionDeg)
  | .velocity command => velocityLayout command (pattern command.velocityRpm)
  | .torque command => torqueControlLayout .torque command.torqueNm command.reply
  | .current command => torqueControlLayout .current command.current command.reply
  | .brake command =>
      match command.control with
      | .damping => torqueControlLayout .variableDampingBrake {} command.reply
      | .energy threshold => torqueControlLayout energyState threshold command.reply
      | .regen threshold => torqueControlLayout .regenerativeBrake threshold command.reply
      | .engage isOpen => engageLayout isOpen
  | .configSet command => configLayout command.code command.value
  | .configQuery command => configQueryLayout command.code

/-- The command with its quantities rounded: floats as they are, and each brake in
its own mode. -/
def quantised : MotorCommand → Layout := layoutWith F32.bits .rheostaticBrake

/-- What the encoders of a build write. -/
def sent (build : FloatBuild) : MotorCommand → Layout :=
  layoutWith (f32ToBits build) .regenerativeBrake

/-- Every scaled quantity rounds into its field, the reply code is declared and an
overload handles the configured value. -/
def Accepted : MotorCommand → Prop
  | .pvt command =>
      RoundsInto (ofMaximum command.gains.kp 500 4095) 0 4095 ∧
        RoundsInto (ofMaximum command.gains.kd 5 511) 0 511 ∧
        RoundsInto (aroundCenter command.positionR (25 / 2) 32767) 0 0xFFFF ∧
        RoundsInto (aroundCenter command.velocityRadps 18 2047) 0 0x0FFF ∧
        RoundsInto (aroundCenter command.torqueFfNm 30 2047) 0 0x0FFF
  | .position command =>
      RoundsInto (scaledBy command.velocityLimitRpm 10) 0 0x7FFF ∧
        RoundsInto (scaledBy command.currentLimit 10) 0 0x0FFF ∧ command.reply.Declared
  | .velocity command =>
      RoundsInto (scaledBy command.currentLimit 10) 0 uint16Max ∧ command.reply.Declared
  | .torque command =>
      RoundsInto (scaledBy command.torqueNm 100) (-32768) 32767 ∧ command.reply.Declared
  | .current command =>
      RoundsInto (scaledBy command.current 100) (-32768) 32767 ∧ command.reply.Declared
  | .brake command =>
      match command.control with
      | .damping => command.reply.Declared
      | .energy threshold | .regen threshold =>
          RoundsInto (scaledBy threshold 100) (-32768) 32767 ∧ command.reply.Declared
      | .engage _ => True
  | .configSet command => ConfigAccepted command.code command.value
  | .configQuery _ => True

end CanCodec

end ServoFleet
