import ServoFleet.CanFrame
import ServoFleet.Number

/-!
Motor commands. The code enumerations have a byte underneath and are converted
from received bytes, so any byte is a value of them; their enumerators name
some of the bytes.
-/

namespace ServoFleet

abbrev DeviceId := BitVec 32

structure Range (α : Type) where
  min : α
  max : α
  deriving DecidableEq, Repr

structure PidGains (F : Type) where
  kp : F
  kd : F
  ki : F
  deriving DecidableEq, Repr

structure ReplyMode where
  raw : Byte
  deriving DecidableEq, Repr

namespace ReplyMode

def none : ReplyMode := { raw := 0 }
def status1 : ReplyMode := { raw := 1 }
def position : ReplyMode := { raw := 2 }
def velocity : ReplyMode := { raw := 3 }

end ReplyMode

structure ConfigSetCode where
  raw : Byte
  deriving DecidableEq, Repr

namespace ConfigSetCode

def accel : ConfigSetCode := { raw := 0x01 }
def commMode : ConfigSetCode := { raw := 0x02 }
def torqueRatio : ConfigSetCode := { raw := 0x04 }
def pvtKp : ConfigSetCode := { raw := 0x05 }
def pvtKd : ConfigSetCode := { raw := 0x06 }
def pvtPositionLimitR : ConfigSetCode := { raw := 0x07 }
def pvtVelocityLimitRadps : ConfigSetCode := { raw := 0x08 }
def pvtTorqueLimitNm : ConfigSetCode := { raw := 0x09 }
def pvtCurrentLimit : ConfigSetCode := { raw := 0x0A }
def canTimeout : ConfigSetCode := { raw := 0x0B }
def currentLoopPi : ConfigSetCode := { raw := 0x0C }
def velocityLoopPi : ConfigSetCode := { raw := 0x0D }
def positionLoopPd : ConfigSetCode := { raw := 0x0E }

end ConfigSetCode

structure ConfigQueryCode where
  raw : Byte
  deriving DecidableEq, Repr

namespace ConfigQueryCode

def position : ConfigQueryCode := { raw := 1 }
def velocity : ConfigQueryCode := { raw := 2 }
def current : ConfigQueryCode := { raw := 3 }
def power : ConfigQueryCode := { raw := 4 }
def acceleration : ConfigQueryCode := { raw := 5 }
def fluxObserverGain : ConfigQueryCode := { raw := 6 }
def disturbanceCompensationCoeff : ConfigQueryCode := { raw := 7 }
def feedbackCompensationCoeff : ConfigQueryCode := { raw := 8 }
def dampingCoeff : ConfigQueryCode := { raw := 9 }
def torqueRatio : ConfigQueryCode := { raw := 22 }
def pvtKpRange : ConfigQueryCode := { raw := 23 }
def pvtKdRange : ConfigQueryCode := { raw := 24 }
def pvtPositionLimitR : ConfigQueryCode := { raw := 25 }
def pvtVelocityLimitRadps : ConfigQueryCode := { raw := 26 }
def pvtTorqueLimitNm : ConfigQueryCode := { raw := 27 }
def pvtCurrentLimit : ConfigQueryCode := { raw := 28 }
def mcuUuid : ConfigQueryCode := { raw := 29 }
def version : ConfigQueryCode := { raw := 30 }
def canTimeout : ConfigQueryCode := { raw := 31 }
def currentLoopPi : ConfigQueryCode := { raw := 32 }
def velocityLoopPi : ConfigQueryCode := { raw := 33 }
def positionLoopPd : ConfigQueryCode := { raw := 34 }
def brakeStatus : ConfigQueryCode := { raw := 37 }

end ConfigQueryCode

structure PvtCommand where
  deviceId : DeviceId
  gains : PidGains F32
  positionR : F32
  velocityRadps : F32
  torqueFfNm : F32

structure PositionCommand where
  deviceId : DeviceId
  positionDeg : F32
  velocityLimitRpm : F32
  currentLimit : F32
  reply : ReplyMode := .status1

structure VelocityCommand where
  deviceId : DeviceId
  velocityRpm : F32
  currentLimit : F32
  reply : ReplyMode := .status1

structure TorqueCommand where
  deviceId : DeviceId
  torqueNm : F32
  reply : ReplyMode := .status1

structure CurrentCommand where
  deviceId : DeviceId
  current : F32
  reply : ReplyMode := .status1

inductive BrakeControl where
  | damping
  | energy (currentThreshold : F32)
  | regen (currentThreshold : F32)
  | engage (isOpen : Bool)

structure BrakeCommand where
  deviceId : DeviceId
  control : BrakeControl := .engage false
  reply : ReplyMode

/-- `config_set_value`, one constructor for each alternative of the variant. -/
inductive ConfigSetValue where
  | float (value : F32)
  | mode (value : Byte)
  | double (value : F64)
  | rangeU16 (range : Range (BitVec 16))
  | rangeFloat (range : Range F32)
  | milliseconds (count : Int)
  | gains (gains : PidGains F32)

structure ConfigSetCommand where
  deviceId : DeviceId
  code : ConfigSetCode := .accel
  value : ConfigSetValue := .float {}

structure ConfigQueryCommand where
  deviceId : DeviceId
  code : ConfigQueryCode := .position

/-- The command types that are sent to motors. -/
inductive MotorCommand where
  | pvt (command : PvtCommand)
  | position (command : PositionCommand)
  | velocity (command : VelocityCommand)
  | torque (command : TorqueCommand)
  | current (command : CurrentCommand)
  | brake (command : BrakeCommand)
  | configSet (command : ConfigSetCommand)
  | configQuery (command : ConfigQueryCommand)

def MotorCommand.deviceId : MotorCommand → DeviceId
  | .pvt command => command.deviceId
  | .position command => command.deviceId
  | .velocity command => command.deviceId
  | .torque command => command.deviceId
  | .current command => command.deviceId
  | .brake command => command.deviceId
  | .configSet command => command.deviceId
  | .configQuery command => command.deviceId

end ServoFleet
