import ServoFleet.Feedback
import ServoFleet.MotorTable

/-!
The state of a motor: the last sample of every quantity it has reported.
-/

namespace ServoFleet

/-- A reading of the steady clock, in its ticks since the epoch. -/
abbrev TimePoint := Int

/-- `sample_t`; the sequence number of a field never received is zero. -/
structure Sample (α : Type) where
  time : TimePoint := 0
  seq : BitVec 64 := 0
  value : α

structure McuUuid where
  bytes : Vector Byte 12 := Vector.replicate 12 0
  receivedMask : Byte := 0
  deriving DecidableEq, Repr

section State

variable (F : Type)

structure MotionState where
  positionDeg : Sample F
  velocityRpm : Sample F
  accelerationRadps2 : Sample F

structure ElectricalState where
  current : Sample F
  power : Sample F

structure ThermalState where
  motorTempC : Sample F
  mosfetTempC : Sample F

structure ConfigState where
  fluxObserverGain : Sample F
  disturbanceCompensationCoeff : Sample F
  feedbackCompensationCoeff : Sample F
  dampingCoeff : Sample F
  torqueRatio : Sample F
  pvtKpRange : Sample (Range F)
  pvtKdRange : Sample (Range F)
  pvtPositionLimitR : Sample (Range F)
  pvtVelocityLimitRadps : Sample (Range F)
  pvtTorqueLimitNm : Sample (Range F)
  pvtCurrentLimit : Sample (Range F)
  mcuUuid : Sample McuUuid
  version : Sample VersionInfo
  canTimeout : Sample Int
  currentLoopPi : Sample (PidGains F)
  velocityLoopPi : Sample (PidGains F)
  positionLoopPd : Sample (PidGains F)

structure BrakeState where
  status : Sample Bool

structure ErrorState where
  motorError : Sample MotorErr

/-- `motor_device` with what it inherits from `device_interface`. -/
structure MotorDevice where
  id : DeviceId
  name : String
  updatedAt : TimePoint := 0
  sampleSeq : BitVec 64 := 0
  addr : CanAddr
  ecSpec : Option MotorEcSpec
  motion : MotionState F
  electrical : ElectricalState F
  thermal : ThermalState F
  config : ConfigState F
  brake : BrakeState
  error : ErrorState

end State

section Init

variable {F : Type} [FloatArith F]

open FloatArith

private def zeroSample : Sample F := { value := ofRat 0 }

private def zeroRange : Sample (Range F) := { value := { min := ofRat 0, max := ofRat 0 } }

private def zeroGains : Sample (PidGains F) :=
  { value := { kp := ofRat 0, kd := ofRat 0, ki := ofRat 0 } }

/-- The constructor: no sample has been received. -/
def MotorDevice.init (id : DeviceId) (name : String) (addr : CanAddr)
    (ecSpec : Option MotorEcSpec) : MotorDevice F where
  id
  name
  addr
  ecSpec
  motion := {
    positionDeg := zeroSample
    velocityRpm := zeroSample
    accelerationRadps2 := zeroSample }
  electrical := { current := zeroSample, power := zeroSample }
  thermal := { motorTempC := zeroSample, mosfetTempC := zeroSample }
  config := {
    fluxObserverGain := zeroSample
    disturbanceCompensationCoeff := zeroSample
    feedbackCompensationCoeff := zeroSample
    dampingCoeff := zeroSample
    torqueRatio := zeroSample
    pvtKpRange := zeroRange
    pvtKdRange := zeroRange
    pvtPositionLimitR := zeroRange
    pvtVelocityLimitRadps := zeroRange
    pvtTorqueLimitNm := zeroRange
    pvtCurrentLimit := zeroRange
    mcuUuid := { value := {} }
    version := { value := {} }
    canTimeout := { value := 0 }
    currentLoopPi := zeroGains
    velocityLoopPi := zeroGains
    positionLoopPd := zeroGains }
  brake := { status := { value := false } }
  error := { motorError := { value := .none } }

end Init

namespace MotorDevice

variable {F : Type}

section Units

variable [FloatArith F]

open FloatArith

/-- The float nearest to pi. -/
def pi : F := ofBits 0x40490FDB

def radToDeg : F := ofRat 180 / pi

def radpsToRpm : F := ofRat 60 / (ofRat 2 * pi)

end Units

/-- `set_mcu_uuid_fragment`: one of three windows of four bytes. -/
def setMcuUuidFragment (sample : Sample McuUuid) (fragment : McuUuidFragment) (time : TimePoint)
    (seq : BitVec 64) : Sample McuUuid :=
  if fragment.index < 1 ∨ fragment.index > 3 then sample
  else
    let offset := (fragment.index.toNat - 1) * 4
    let bytes := Vector.ofFn fun i : Fin 12 =>
      if h : offset ≤ i.val ∧ i.val - offset < 4 then fragment.bytes[i.val - offset]
      else sample.value.bytes[i.val]
    let receivedMask := sample.value.receivedMask ||| 1 <<< (fragment.index.toNat - 1)
    { time, seq, value := { bytes, receivedMask } }

def applyPosition (device : MotorDevice F) (value : PositionFeedback F) (time : TimePoint)
    (seq : BitVec 64) : MotorDevice F :=
  { device with
    error.motorError := { time, seq, value := value.error }
    motion.positionDeg := { time, seq, value := value.position }
    electrical.current := { time, seq, value := value.current }
    thermal.motorTempC := { time, seq, value := value.motorTempC }
    updatedAt := time }

def applyVelocity (device : MotorDevice F) (value : VelocityFeedback F) (time : TimePoint)
    (seq : BitVec 64) : MotorDevice F :=
  { device with
    error.motorError := { time, seq, value := value.error }
    motion.velocityRpm := { time, seq, value := value.velocity }
    electrical.current := { time, seq, value := value.current }
    thermal.motorTempC := { time, seq, value := value.motorTempC }
    updatedAt := time }

def applyBrakeStatus (device : MotorDevice F) (value : BrakeStatusFeedback) (time : TimePoint)
    (seq : BitVec 64) : MotorDevice F :=
  { device with
    error.motorError := { time, seq, value := value.error }
    brake.status := { time, seq, value := value.engaged }
    updatedAt := time }

/-- The switch over the code of a query feedback. -/
def setQueryValue (device : MotorDevice F) (value : QueryValue F) (time : TimePoint)
    (seq : BitVec 64) : MotorDevice F :=
  match value with
  | .positionDeg value => { device with motion.positionDeg := { time, seq, value } }
  | .velocityRpm value => { device with motion.velocityRpm := { time, seq, value } }
  | .current value => { device with electrical.current := { time, seq, value } }
  | .power value => { device with electrical.power := { time, seq, value } }
  | .accelerationRadps2 value => { device with motion.accelerationRadps2 := { time, seq, value } }
  | .fluxObserverGain value => { device with config.fluxObserverGain := { time, seq, value } }
  | .disturbanceCompensationCoeff value =>
      { device with config.disturbanceCompensationCoeff := { time, seq, value } }
  | .feedbackCompensationCoeff value =>
      { device with config.feedbackCompensationCoeff := { time, seq, value } }
  | .dampingCoeff value => { device with config.dampingCoeff := { time, seq, value } }
  | .torqueRatio value => { device with config.torqueRatio := { time, seq, value } }
  | .pvtKpRange value => { device with config.pvtKpRange := { time, seq, value } }
  | .pvtKdRange value => { device with config.pvtKdRange := { time, seq, value } }
  | .pvtPositionLimitR value => { device with config.pvtPositionLimitR := { time, seq, value } }
  | .pvtVelocityLimitRadps value =>
      { device with config.pvtVelocityLimitRadps := { time, seq, value } }
  | .pvtTorqueLimitNm value => { device with config.pvtTorqueLimitNm := { time, seq, value } }
  | .pvtCurrentLimit value => { device with config.pvtCurrentLimit := { time, seq, value } }
  | .mcuUuidFragment fragment =>
      { device with config.mcuUuid := setMcuUuidFragment device.config.mcuUuid fragment time seq }
  | .version value => { device with config.version := { time, seq, value } }
  | .canTimeout count => { device with config.canTimeout := { time, seq, value := count } }
  | .currentLoopPi value => { device with config.currentLoopPi := { time, seq, value } }
  | .velocityLoopPi value => { device with config.velocityLoopPi := { time, seq, value } }
  | .positionLoopPd value => { device with config.positionLoopPd := { time, seq, value } }
  | .brakeStatus value => { device with brake.status := { time, seq, value } }

def applyQuery (device : MotorDevice F) (value : QueryFeedback F) (time : TimePoint)
    (seq : BitVec 64) : MotorDevice F :=
  let device := { device with error.motorError := { time, seq, value := value.error } }
  { device.setQueryValue value.value time seq with updatedAt := time }

section Apply

variable [FloatArith F]

def applyStatus (device : MotorDevice F) (value : StatusFeedback F) (time : TimePoint)
    (seq : BitVec 64) : MotorDevice F :=
  { device with
    error.motorError := { time, seq, value := value.error }
    motion.positionDeg := { time, seq, value := value.positionR * radToDeg }
    motion.velocityRpm := { time, seq, value := value.velocityRadps * radpsToRpm }
    electrical.current := { time, seq, value := value.current }
    thermal.motorTempC := { time, seq, value := value.motorTempC }
    thermal.mosfetTempC := { time, seq, value := value.mosfetTempC }
    updatedAt := time }

/-- `apply_feedback_value`; an acknowledgement is ignored. -/
def applyFeedbackValue (device : MotorDevice F) (response : Feedback F) (now : TimePoint)
    (seq : BitVec 64) : MotorDevice F :=
  match response with
  | .status value => device.applyStatus value now seq
  | .position value => device.applyPosition value now seq
  | .velocity value => device.applyVelocity value now seq
  | .configAck _ => device
  | .query value => device.applyQuery value now seq
  | .brakeStatus value => device.applyBrakeStatus value now seq

/-- `apply`: the sequence number advances before the value is stored. -/
def apply (device : MotorDevice F) (response : Feedback F) (now : TimePoint) :
    MotorDevice F × Bool :=
  let seq := device.sampleSeq + 1
  ({ device with sampleSeq := seq }.applyFeedbackValue response now seq, !response.isAck)

/-- Whatever the feedback, it counts once and leaves the identity alone. -/
theorem apply_identity (device : MotorDevice F) (response : Feedback F) (now : TimePoint) :
    (device.apply response now).1.sampleSeq = device.sampleSeq + 1 ∧
      (device.apply response now).1.addr = device.addr ∧
      (device.apply response now).1.ecSpec = device.ecSpec ∧
      (device.apply response now).1.id = device.id := by
  cases response with
  | query value =>
      obtain ⟨error, value⟩ := value
      cases value <;> exact ⟨rfl, rfl, rfl, rfl⟩
  | _ => exact ⟨rfl, rfl, rfl, rfl⟩

end Apply

end MotorDevice

end ServoFleet
