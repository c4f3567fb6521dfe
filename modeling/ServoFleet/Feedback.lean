import ServoFleet.Command

/-!
What a motor reports. `F` is the arithmetic of the decoded quantities.
-/

namespace ServoFleet

inductive MotorErr where
  | none
  | overTemp
  | overCurrent
  | overVoltage
  | underVoltage
  | encoderFail
  | brakeOverVoltage
  | driver
  | comm
  | unknown
  deriving DecidableEq, Repr

structure VersionInfo where
  hwMajor : Byte := 0
  hwMinor : Byte := 0
  hwPatch : Byte := 0
  fwMajor : Byte := 0
  fwMinor : Byte := 0
  fwPatch : Byte := 0
  deriving DecidableEq, Repr

structure McuUuidFragment where
  index : Byte := 0
  bytes : Vector Byte 4 := Vector.replicate 4 0
  deriving DecidableEq, Repr

structure StatusFeedback (F : Type) where
  error : MotorErr := .none
  positionR : F
  velocityRadps : F
  current : F
  motorTempC : F
  mosfetTempC : F

structure PositionFeedback (F : Type) where
  error : MotorErr := .none
  position : F
  current : F
  motorTempC : F

structure VelocityFeedback (F : Type) where
  error : MotorErr := .none
  velocity : F
  current : F
  motorTempC : F

/-- The one member of `query_feedback` that its code selects. The others are
left uninitialised and are never read. -/
inductive QueryValue (F : Type) where
  | positionDeg (value : F)
  | velocityRpm (value : F)
  | current (value : F)
  | power (value : F)
  | accelerationRadps2 (value : F)
  | fluxObserverGain (value : F)
  | disturbanceCompensationCoeff (value : F)
  | feedbackCompensationCoeff (value : F)
  | dampingCoeff (value : F)
  | torqueRatio (value : F)
  | pvtKpRange (value : Range F)
  | pvtKdRange (value : Range F)
  | pvtPositionLimitR (value : Range F)
  | pvtVelocityLimitRadps (value : Range F)
  | pvtTorqueLimitNm (value : Range F)
  | pvtCurrentLimit (value : Range F)
  | mcuUuidFragment (value : McuUuidFragment)
  | version (value : VersionInfo)
  | canTimeout (count : Int)
  | currentLoopPi (value : PidGains F)
  | velocityLoopPi (value : PidGains F)
  | positionLoopPd (value : PidGains F)
  | brakeStatus (value : Bool)

/-- `query_feedback::code` -/
def QueryValue.code {F : Type} : QueryValue F → ConfigQueryCode
  | .positionDeg _ => .position
  | .velocityRpm _ => .velocity
  | .current _ => .current
  | .power _ => .power
  | .accelerationRadps2 _ => .acceleration
  | .fluxObserverGain _ => .fluxObserverGain
  | .disturbanceCompensationCoeff _ => .disturbanceCompensationCoeff
  | .feedbackCompensationCoeff _ => .feedbackCompensationCoeff
  | .dampingCoeff _ => .dampingCoeff
  | .torqueRatio _ => .torqueRatio
  | .pvtKpRange _ => .pvtKpRange
  | .pvtKdRange _ => .pvtKdRange
  | .pvtPositionLimitR _ => .pvtPositionLimitR
  | .pvtVelocityLimitRadps _ => .pvtVelocityLimitRadps
  | .pvtTorqueLimitNm _ => .pvtTorqueLimitNm
  | .pvtCurrentLimit _ => .pvtCurrentLimit
  | .mcuUuidFragment _ => .mcuUuid
  | .version _ => .version
  | .canTimeout _ => .canTimeout
  | .currentLoopPi _ => .currentLoopPi
  | .velocityLoopPi _ => .velocityLoopPi
  | .positionLoopPd _ => .positionLoopPd
  | .brakeStatus _ => .brakeStatus

structure QueryFeedback (F : Type) where
  error : MotorErr := .none
  value : QueryValue F

structure ConfigAckFeedback where
  error : MotorErr := .none
  code : ConfigSetCode := .accel
  accepted : Bool := false
  deriving DecidableEq, Repr

structure BrakeStatusFeedback where
  error : MotorErr := .none
  engaged : Bool := false
  deriving DecidableEq, Repr

inductive Feedback (F : Type) where
  | status (value : StatusFeedback F)
  | position (value : PositionFeedback F)
  | velocity (value : VelocityFeedback F)
  | configAck (value : ConfigAckFeedback)
  | query (value : QueryFeedback F)
  | brakeStatus (value : BrakeStatusFeedback)

/-- Acknowledgements carry nothing a motor keeps. -/
def Feedback.isAck {F : Type} : Feedback F → Bool
  | .configAck _ => true
  | _ => false

end ServoFleet
