import ServoFleet.PvtControl
import ServoFleet.RuntimeInit

/-!
`motor_pvt_control` as a whole: for one motor after the other it lowers the PVT
current limit, opens the brake, drives the motor around where it stands, stops it
and puts the limit back. Clock, feedback and the outcome of every command come
from the surroundings and may depend on all the commands so far; what the program
prints is left out. Times are nanoseconds.
-/

namespace ServoFleet.PvtControl

def settleDuration : Int := 1500000000
def tuneDuration : Int := 12000000000

def pvtCurrentLimit : Range F32 := { min := { bits := 0xBF4CCCCD }, max := { bits := 0x3F4CCCCD } }
def maxVelocityRadps : Range F32 := { min := { bits := 0xBEB33333 }, max := { bits := 0x3EB33333 } }

def pvtConfig : FleetConfig where
  channels := [{ name := "pvt_201" }, { name := "pvt_202" }]
  motors := [
    { name := "pvt_201_can0", channel := "pvt_201",
      model := "EC-A2806-P2-36", canPort := 0, canId := 1 },
    { name := "pvt_201_can1", channel := "pvt_201",
      model := "EC-A2806-P2-36", canPort := 1, canId := 1 },
    { name := "pvt_202_can0", channel := "pvt_202",
      model := "EC-A2806-P2-36", canPort := 0, canId := 1 },
    { name := "pvt_202_can1", channel := "pvt_202",
      model := "EC-A2806-P2-36", canPort := 1, canId := 1 }]

/-- A call of `command`, and what it returned. -/
structure Call where
  command : MotorCommand
  result : ErrCode

/-- What is outside of the program, after the calls so far: the outcome of the next
call, the clock, the samples of a motor, and the turns of a loop that starts here. -/
structure Surroundings where
  commandErr : List Call → MotorCommand → ErrCode
  now : List Call → Int
  positionDeg : List Call → DeviceId → Sample F32
  currentLimit : List Call → DeviceId → Sample (Range F32)
  start : List Call → Int
  cycle : List Call → Nat → Cycle

/-- The floating-point expressions of the trajectory: a product with `deg_to_rad`, the
position for an origin at a time, and the velocity at a time before it is clamped. -/
structure Trajectory where
  radians : F32 → F32
  positionR : F32 → Int → F32
  velocityRadps : Int → F32

section Session

variable (world : Surroundings) (path : Trajectory) (motor : DeviceId) (calls : List Call)

def command (request : MotorCommand) : ErrCode × List Call :=
  let result := world.commandErr calls request
  (result, calls ++ [{ command := request, result }])

def sendQuery (code : ConfigQueryCode) : Bool × List Call :=
  let (err, calls) := command world calls (.configQuery { deviceId := motor, code })
  (err = .ok (), calls)

/-- Queries whose answers are only printed. -/
def queryAll (codes : List ConfigQueryCode) : List Call :=
  codes.foldl (fun calls code => (sendQuery world motor calls code).2) calls

def checkedPvtPosition (positionR : F32) : Option F32 :=
  if validPvtPosition positionR then some positionR else none

def freshPvtPositionR : Option F32 :=
  let position := world.positionDeg calls motor
  if !fresh position (world.now calls) feedbackMaxAge then none
  else checkedPvtPosition (path.radians position.value)

def currentPositionR : Option F32 × List Call :=
  let (ok, calls) := sendQuery world motor calls .position
  (if ok then freshPvtPositionR world path motor calls else none, calls)

def printFeedback : List Call := queryAll world motor calls [.position, .velocity, .current]

def printPvtLimits : List Call :=
  queryAll world motor calls [.pvtKpRange, .pvtKdRange, .pvtPositionLimitR,
    .pvtVelocityLimitRadps, .pvtTorqueLimitNm]

def limitCommand (limit : Range F32) : MotorCommand :=
  .configSet { deviceId := motor, code := .pvtCurrentLimit, value := .rangeFloat limit }

def setPvtCurrentLimit : Option (Range F32) × List Call :=
  let (_, calls) := sendQuery world motor calls .pvtCurrentLimit
  let original := world.currentLimit calls motor
  if !fresh original (world.now calls) feedbackMaxAge then (none, calls)
  else
    let (err, calls) := command world calls (limitCommand motor pvtCurrentLimit)
    if err ≠ .ok () then (none, calls) else (some original.value, calls)

def restorePvtCurrentLimit : Option (Range F32) → List Call
  | none => calls
  | some limit => (command world calls (limitCommand motor limit)).2

def brakeCommand : MotorCommand :=
  .brake { deviceId := motor, control := .engage true, reply := .status1 }

def releaseBrake : Bool × List Call :=
  let (err, calls) := command world calls (brakeCommand motor)
  (err = .ok (), calls)

/-- The surroundings of a loop that starts here. -/
def loopWorld (targetAt : Int → PvtTarget) : World where
  motor := motor
  start := world.start calls
  targetAt := targetAt
  seedErr := world.commandErr calls (.pvt (pvtCommand motor (targetAt 0)))
  cycle := world.cycle calls

def Sent.call (loop : World) (sent : Sent) : Call where
  command := .pvt sent.command
  result := match sent.cycle with
    | none => loop.seedErr
    | some k => (loop.cycle k).commandErr

/-- `run_stable_pvt_loop`, among the calls before it. -/
def runLoop (runDuration : Int) (targetAt : Int → PvtTarget) (totalStats : PvtLoopStats) :
    Bool × PvtLoopStats × List Call :=
  let loop := loopWorld world motor calls targetAt
  let outcome := runStablePvtLoop loop runDuration totalStats
  (outcome.ok, outcome.totalStats, calls ++ outcome.sent.map (Sent.call loop))

def holdPosition (positionR : F32) (holdDuration : Int) (stats : PvtLoopStats) :
    Bool × PvtLoopStats × List Call :=
  runLoop world motor calls holdDuration (fun _ => { positionR }) stats

def tuneTarget (originR : F32) (elapsed : Int) : PvtTarget where
  positionR := path.positionR originR elapsed
  velocityRadps := (path.velocityRadps elapsed).clamp maxVelocityRadps.min maxVelocityRadps.max

def runPvtTuning : Bool × List Call :=
  match currentPositionR world path motor calls with
  | (none, calls) => (false, calls)
  | (some originR, calls) =>
      let (ok, stats, calls) := holdPosition world motor calls originR settleDuration {}
      if !ok then (false, calls)
      else
        let (ok, stats, calls) :=
          runLoop world motor calls tuneDuration (tuneTarget path originR) stats
        if !ok then (false, calls)
        else
          let (ok, _, calls) := holdPosition world motor calls originR settleDuration stats
          (ok, calls)

def stopCommand : MotorCommand := .torque { deviceId := motor, torqueNm := {} }

def stopMotor : List Call := (command world calls (stopCommand motor)).2

/-- The body of the loop over the motors. -/
def tuneMotor : Bool × List Call :=
  let calls := printPvtLimits world motor calls
  let (originalCurrentLimit, calls) := setPvtCurrentLimit world motor calls
  let calls := printFeedback world motor calls
  let (released, calls) := releaseBrake world motor calls
  let motorOk := originalCurrentLimit.isSome && released
  let (motorOk, calls) :=
    if motorOk then runPvtTuning world path motor calls else (false, calls)
  let calls := stopMotor world motor calls
  let calls := restorePvtCurrentLimit world motor calls originalCurrentLimit
  (motorOk, printFeedback world motor calls)

end Session

/-- The loop over the motors. -/
def tuneMotors (world : Surroundings) (path : Trajectory) (motors : List DeviceId) :
    Bool × List Call :=
  motors.foldl (fun (ok, calls) motor =>
    let (motorOk, calls) := tuneMotor world path motor calls
    (ok && motorOk, calls)) (true, [])

/-- `run`: its exit code and its calls of `command`. What the channels' sockets and the
start of the runtime do comes from outside too. -/
def run (F : Type) [FloatArith F] (opens : ChannelConfig → Bool) (startErr : ErrCode)
    (world : Surroundings) (path : Trajectory) : Int × List Call :=
  match (Runtime.init pvtConfig opens : Result (Runtime F)) with
  | .error _ => (1, [])
  | .ok runtime =>
      if startErr ≠ .ok () ∨ runtime.motors.length ≠ pvtConfig.motors.length then (1, [])
      else
        let (ok, calls) := tuneMotors world path (runtime.motors.map MotorDevice.id)
        (if ok then 0 else 1, calls)

end ServoFleet.PvtControl
