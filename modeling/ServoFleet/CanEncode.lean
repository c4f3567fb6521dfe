import ServoFleet.Theory.Rounding
import ServoFleet.Command
import ServoFleet.FrameFields

/-!
The encoders of `can_codec`. Scaling is exact rational arithmetic on the value
of the float; an infinity or what is not a number is rejected before.
-/

namespace ServoFleet.CanCodec

inductive CommandCode where
  | pvtControl
  | positionControl
  | velocityControl
  | torqueControl
  | brakeControl
  | motorConfig
  | motorConfigQuery
  deriving DecidableEq, Repr

def CommandCode.raw : CommandCode → BitVec 32
  | .pvtControl => 0x00
  | .positionControl => 0x01
  | .velocityControl => 0x02
  | .torqueControl => 0x03
  | .brakeControl => 0x04
  | .motorConfig => 0x06
  | .motorConfigQuery => 0x07

inductive TorqueControlMode where
  | current
  | torque
  | variableDampingBrake
  | rheostaticBrake
  | regenerativeBrake
  | electromagneticBrake
  deriving DecidableEq, Repr

def TorqueControlMode.raw : TorqueControlMode → BitVec 32
  | .current => 0
  | .torque => 1
  | .variableDampingBrake => 2
  | .rheostaticBrake => 3
  | .regenerativeBrake => 4
  | .electromagneticBrake => 5

/-! ## Scaling -/

/-- `std::round` of a scaled value, inside the bounds of a raw field. -/
def checkedScaled (value : F32) (scale : ℚ) (low high : Int) : Result (BitVec 16) :=
  match value.value with
  | none => .error .invalidArgument
  | some v =>
      let rounded := Rounding.halfAway (v * scale)
      if rounded < low ∨ rounded > high then .error .invalidArgument
      else .ok (BitVec.ofInt 16 rounded)

def checkedU16Scaled (value : F32) (scale : ℚ) (max : Int) : Result (BitVec 16) :=
  checkedScaled value scale 0 max

/-- The signed value as it is written, in two's complement. -/
def checkedI16Scaled (value : F32) (scale : ℚ) : Result (BitVec 16) :=
  checkedScaled value scale (-32768) 32767

def uint16Max : Int := 0xFFFF

/-- `llround` of a scaled value. The bounds of `long long` are tested before. -/
def checkedLlround (scaled : ℚ) (max : Int) : Result (BitVec 16) :=
  if scaled < -(2 : ℚ) ^ 63 ∨ scaled > (2 : ℚ) ^ 63 then .error .invalidArgument
  else
    let rounded := Rounding.halfAway scaled
    if rounded < 0 ∨ rounded > max then .error .invalidArgument
    else .ok (BitVec.ofInt 16 rounded)

def checkedSymmetric (value : F32) (range : ℚ) (center max : Int) : Result (BitVec 16) :=
  match value.value with
  | none => .error .invalidArgument
  | some v =>
      if range ≤ 0 then .error .invalidArgument
      else checkedLlround (v / range * center + center) max

def checkedPvtGain (value : F32) (maxValue : ℚ) (maxRaw : Int) : Result (BitVec 16) :=
  match value.value with
  | none => .error .invalidArgument
  | some v =>
      if maxValue ≤ 0 then .error .invalidArgument
      else checkedLlround (v / maxValue * maxRaw) maxRaw

/-! ## Commands -/

def makePvt (address : CanAddr) (command : PvtCommand) : FrameM Unit := do
  initFrame address.canId address.canPort 8
  let kp ← FrameM.check (checkedPvtGain command.gains.kp 500 4095)
  let kd ← FrameM.check (checkedPvtGain command.gains.kd 5 511)
  let position ← FrameM.check (checkedSymmetric command.positionR (25 / 2) 32767 0xFFFF)
  let velocity ← FrameM.check (checkedSymmetric command.velocityRadps 18 2047 0x0FFF)
  let torque ← FrameM.check (checkedSymmetric command.torqueFfNm 30 2047 0x0FFF)
  write CanField.Pvt.mode CommandCode.pvtControl.raw
  write CanField.Pvt.kp (kp.setWidth 32)
  write CanField.Pvt.kd (kd.setWidth 32)
  write CanField.Pvt.position (position.setWidth 32)
  write CanField.Pvt.velocity (velocity.setWidth 32)
  write CanField.Pvt.torque (torque.setWidth 32)

def makePosition (build : FloatBuild) (address : CanAddr) (command : PositionCommand) :
    FrameM Unit := do
  initFrame address.canId address.canPort 8
  let velocityLimit ← FrameM.check (checkedU16Scaled command.velocityLimitRpm 10 0x7FFF)
  let currentLimit ← FrameM.check (checkedU16Scaled command.currentLimit 10 0x0FFF)
  write CanField.PositionControl.mode CommandCode.positionControl.raw
  write CanField.PositionControl.positionDeg (f32ToBits build command.positionDeg)
  write CanField.PositionControl.velocityRpmX10 (velocityLimit.setWidth 32)
  write CanField.PositionControl.currentAmpX10 (currentLimit.setWidth 32)
  write CanField.PositionControl.reply (command.reply.raw.setWidth 32)

def makeVelocity (build : FloatBuild) (address : CanAddr) (command : VelocityCommand) :
    FrameM Unit := do
  initFrame address.canId address.canPort 7
  let currentLimit ← FrameM.check (checkedU16Scaled command.currentLimit 10 uint16Max)
  write CanField.VelocityControl.mode CommandCode.velocityControl.raw
  write CanField.VelocityControl.reserved 0
  write CanField.VelocityControl.reply (command.reply.raw.setWidth 32)
  write CanField.VelocityControl.rpm (f32ToBits build command.velocityRpm)
  write CanField.VelocityControl.currentAmpX10 (currentLimit.setWidth 32)

def encodeTorqueControl (address : CanAddr) (code : TorqueControlMode) (value : F32)
    (reply : ReplyMode) : FrameM Unit := do
  initFrame address.canId address.canPort 3
  let raw ← FrameM.check (checkedI16Scaled value 100)
  write CanField.TorqueControl.mode CommandCode.torqueControl.raw
  write CanField.TorqueControl.state code.raw
  write CanField.TorqueControl.reply (reply.raw.setWidth 32)
  write CanField.TorqueControl.value (raw.setWidth 32)

def makeTorque (address : CanAddr) (command : TorqueCommand) : FrameM Unit :=
  encodeTorqueControl address .torque command.torqueNm command.reply

def makeCurrent (address : CanAddr) (command : CurrentCommand) : FrameM Unit :=
  encodeTorqueControl address .current command.current command.reply

/-- The energy brake goes out in the mode of the regenerative brake. -/
def makeBrake (address : CanAddr) (command : BrakeCommand) : FrameM Unit := do
  initFrame address.canId address.canPort 2
  match command.control with
  | .damping => encodeTorqueControl address .variableDampingBrake {} command.reply
  | .energy currentThreshold =>
      encodeTorqueControl address .regenerativeBrake currentThreshold command.reply
  | .regen currentThreshold =>
      encodeTorqueControl address .regenerativeBrake currentThreshold command.reply
  | .engage isOpen => do
      write CanField.BrakeControl.mode CommandCode.brakeControl.raw
      write CanField.BrakeControl.reserved 0
      write CanField.BrakeControl.engaged (if isOpen then 1 else 0)

/-! ## Configuration -/

def makeConfigValue (address : CanAddr) (code : ConfigSetCode) (len : Byte)
    (value : BitVec 16) : FrameM Unit := do
  initFrame address.canId address.canPort len
  write CanField.Config.mode CommandCode.motorConfig.raw
  write CanField.Config.key (code.raw.setWidth 32)
  write CanField.Config.value (value.setWidth 32)

def makeConfigRange (address : CanAddr) (code : ConfigSetCode) (min max : BitVec 16) :
    FrameM Unit := do
  initFrame address.canId address.canPort 6
  write CanField.Config.mode CommandCode.motorConfig.raw
  write CanField.Config.key (code.raw.setWidth 32)
  write CanField.Config.min (min.setWidth 32)
  write CanField.Config.max (max.setWidth 32)

/-- Two floats, each checked and scaled on its own. -/
def makeConfigPair (address : CanAddr) (code : ConfigSetCode) (min max : Result (BitVec 16)) :
    FrameM Unit := do
  let min ← FrameM.check min
  let max ← FrameM.check max
  makeConfigRange address code min max

def encodeConfigMode (address : CanAddr) (code : ConfigSetCode) (mode : Byte) : FrameM Unit :=
  if code ≠ .commMode then FrameM.fail .invalidArgument
  else do
    initFrame address.canId address.canPort 3
    write CanField.Config.mode CommandCode.motorConfig.raw
    write CanField.Config.key (code.raw.setWidth 32)
    writeData 2 mode

def encodeConfigRatio (address : CanAddr) (code : ConfigSetCode) (ratio : F64) : FrameM Unit :=
  if code ≠ .torqueRatio then FrameM.fail .invalidArgument
  else do
    let raw ← FrameM.check (checkedU16Scaled ratio.toF32 100 uint16Max)
    makeConfigValue address code 4 raw

def encodeConfigAccel (address : CanAddr) (code : ConfigSetCode) (acceleration : F32) :
    FrameM Unit :=
  if code ≠ .accel then FrameM.fail .invalidArgument
  else do
    let raw ← FrameM.check (checkedU16Scaled acceleration 100 uint16Max)
    makeConfigValue address code 4 raw

def encodeConfigRangeU16 (address : CanAddr) (code : ConfigSetCode)
    (range : Range (BitVec 16)) : FrameM Unit :=
  if code = .pvtKp ∨ code = .pvtKd then makeConfigRange address code range.min range.max
  else FrameM.fail .invalidArgument

def encodeConfigRange (address : CanAddr) (code : ConfigSetCode) (range : Range F32) :
    FrameM Unit :=
  if code = .pvtKp ∨ code = .pvtKd then
    makeConfigPair address code (checkedU16Scaled range.min 1 uint16Max)
      (checkedU16Scaled range.max 1 uint16Max)
  else if code = .pvtPositionLimitR ∨ code = .pvtVelocityLimitRadps then
    makeConfigPair address code (checkedI16Scaled range.min 100) (checkedI16Scaled range.max 100)
  else if code = .pvtTorqueLimitNm ∨ code = .pvtCurrentLimit then
    makeConfigPair address code (checkedI16Scaled range.min 10) (checkedI16Scaled range.max 10)
  else FrameM.fail .invalidArgument

def encodeConfigTimeout (address : CanAddr) (code : ConfigSetCode) (timeout : Int) :
    FrameM Unit :=
  if code ≠ .canTimeout then FrameM.fail .invalidArgument
  else if timeout < 0 ∨ timeout > uint16Max then FrameM.fail .invalidArgument
  else makeConfigValue address code 4 (BitVec.ofInt 16 timeout)

def encodeConfigGains (address : CanAddr) (code : ConfigSetCode) (gains : PidGains F32) :
    FrameM Unit :=
  if code = .currentLoopPi then
    makeConfigPair address code (checkedU16Scaled gains.kp 10000 uint16Max)
      (checkedU16Scaled gains.ki 10 uint16Max)
  else if code = .velocityLoopPi then
    makeConfigPair address code (checkedU16Scaled gains.kp 100000 uint16Max)
      (checkedU16Scaled gains.ki 100000 uint16Max)
  else if code = .positionLoopPd then
    makeConfigPair address code (checkedU16Scaled gains.kp 100000 uint16Max)
      (checkedU16Scaled gains.kd 100000 uint16Max)
  else FrameM.fail .invalidArgument

/-- The visit of the variant picks the overload of `encode_config_payload`. -/
def makeConfig (address : CanAddr) (command : ConfigSetCommand) : FrameM Unit :=
  match command.value with
  | .float value => encodeConfigAccel address command.code value
  | .mode value => encodeConfigMode address command.code value
  | .double value => encodeConfigRatio address command.code value
  | .rangeU16 range => encodeConfigRangeU16 address command.code range
  | .rangeFloat range => encodeConfigRange address command.code range
  | .milliseconds count => encodeConfigTimeout address command.code count
  | .gains gains => encodeConfigGains address command.code gains

def makeConfigQuery (address : CanAddr) (command : ConfigQueryCommand) : FrameM Unit := do
  initFrame address.canId address.canPort 2
  write CanField.ConfigQuery.mode CommandCode.motorConfigQuery.raw
  write CanField.ConfigQuery.key (command.code.raw.setWidth 32)

/-- `encode` into a caller's frame, in any build. -/
def encodeWith (build : FloatBuild) (address : CanAddr) : MotorCommand → FrameM Unit
  | .pvt command => makePvt address command
  | .position command => makePosition build address command
  | .velocity command => makeVelocity build address command
  | .torque command => makeTorque address command
  | .current command => makeCurrent address command
  | .brake command => makeBrake address command
  | .configSet command => makeConfig address command
  | .configQuery command => makeConfigQuery address command

/-- `encode` as the release presets build it. -/
def encode (address : CanAddr) (command : MotorCommand) : FrameM Unit :=
  encodeWith .folded address command

/-- `encode` that returns the frame. -/
def encodeFrame (address : CanAddr) (command : MotorCommand) : Option (Result CanFrame) := do
  let (err, frame) ← encode address command {}
  return err.map fun _ => frame

end ServoFleet.CanCodec
