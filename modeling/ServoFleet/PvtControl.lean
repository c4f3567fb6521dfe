import ServoFleet.Command
import ServoFleet.PvtFeedback

/-!
The loop of `motor_pvt_control` that sends PVT commands at a fixed period. Clock,
feedback and the outcome of every send come from the surroundings; times and
durations are nanoseconds. What the loop prints is left out.
-/

namespace ServoFleet.PvtControl

def commandPeriod : Int := 2500000
def feedbackMaxAge : Int := 2000000
def maxConsecutiveStaleFeedback : Nat := 3

structure PvtTarget where
  positionR : F32 := {}
  velocityRadps : F32 := {}

structure PvtLoopStats where
  cycles : Nat := 0
  commandsSent : Nat := 0
  staleFeedback : Nat := 0
  rejectedFeedback : Nat := 0
  commandErrors : Nat := 0
  deadlineMisses : Nat := 0
  maxWakeupLateness : Int := 0
  deriving DecidableEq, Repr

/-- `operator+=` -/
def PvtLoopStats.add (stats other : PvtLoopStats) : PvtLoopStats where
  cycles := stats.cycles + other.cycles
  commandsSent := stats.commandsSent + other.commandsSent
  staleFeedback := stats.staleFeedback + other.staleFeedback
  rejectedFeedback := stats.rejectedFeedback + other.rejectedFeedback
  commandErrors := stats.commandErrors + other.commandErrors
  deadlineMisses := stats.deadlineMisses + other.deadlineMisses
  maxWakeupLateness := max stats.maxWakeupLateness other.maxWakeupLateness

/-- `sample_t::fresh` -/
def fresh {α : Type} (sample : Sample α) (now maxAge : Int) : Bool :=
  sample.received && now - sample.time ≤ maxAge

/-- `pvt_feedback_snapshot::fresh` -/
def snapshotFresh (snapshot : PvtFeedbackSnapshot F32) (now maxAge : Int) :
    Bool :=
  snapshot.coherent && fresh snapshot.error now maxAge

/-- What the surroundings do in one turn of the loop. -/
structure Cycle where
  wokeAt : Int
  snapshot : PvtFeedbackSnapshot F32
  commandErr : ErrCode
  finishedAt : Int

structure World where
  motor : DeviceId
  start : Int
  targetAt : Int → PvtTarget
  seedErr : ErrCode
  cycle : Nat → Cycle

def validPvtPosition (positionR : F32) : Bool :=
  match positionR.value with
  | none => false
  | some q => -(25 / 2) ≤ q ∧ q ≤ 25 / 2

def pvtCommand (motor : DeviceId) (target : PvtTarget) : PvtCommand where
  deviceId := motor
  gains := { kp := { bits := 0x41900000 }, kd := { bits := 0x3ECCCCCD }, ki := {} }
  positionR := target.positionR
  velocityRadps := target.velocityRadps
  torqueFfNm := {}

/-- A call of `command` from a cycle of the loop, or from before it. -/
structure Sent where
  cycle : Option Nat
  command : PvtCommand

/-- `send_pvt`, with the call of `command` it makes. -/
def sendPvt (motor : DeviceId) (cycle : Option Nat) (target : PvtTarget) (err : ErrCode) :
    Bool × List Sent :=
  if !validPvtPosition target.positionR then (false, [])
  else (err = .ok (), [{ cycle, command := pvtCommand motor target }])

/-- The variables of the loop, with the commands so far. -/
structure LoopState where
  nextTime : Int
  consecutiveStale : Nat := 0
  stats : PvtLoopStats := {}
  sent : List Sent := []

/-- `if (deadline_missed) ++stats.deadline_misses` -/
def PvtLoopStats.miss (stats : PvtLoopStats) (deadlineMissed : Bool) : PvtLoopStats :=
  if deadlineMissed then { stats with deadlineMisses := stats.deadlineMisses + 1 } else stats

/-- The start of a turn: the counters at wake-up. -/
def wakeUp (state : LoopState) (wokeAt : Int) : PvtLoopStats :=
  let nextTime := state.nextTime + commandPeriod
  let stats := { state.stats with cycles := state.stats.cycles + 1 }
  if wokeAt > nextTime then
    { stats with maxWakeupLateness := max stats.maxWakeupLateness (wokeAt - nextTime) }
  else stats

/-- One turn of the loop. With a value the function returns it. -/
def runCycle (world : World) (state : LoopState) : LoopState × Option Bool :=
  let cycle := world.cycle state.stats.cycles
  let nextTime := state.nextTime + commandPeriod
  let stats := wakeUp state cycle.wokeAt
  let deadlineMissed := cycle.wokeAt ≥ nextTime + commandPeriod
  if !snapshotFresh cycle.snapshot cycle.wokeAt feedbackMaxAge then
    let consecutiveStale := state.consecutiveStale + 1
    let stats := { stats with staleFeedback := stats.staleFeedback + 1 }.miss deadlineMissed
    let state := { state with nextTime, consecutiveStale, stats }
    if consecutiveStale ≥ maxConsecutiveStaleFeedback then (state, some false) else (state, none)
  else if cycle.snapshot.error.value ≠ .none then
    let stats := { stats with rejectedFeedback := stats.rejectedFeedback + 1 }.miss deadlineMissed
    ({ state with nextTime, consecutiveStale := 0, stats }, none)
  else
    let target := world.targetAt (cycle.wokeAt - world.start)
    let (ok, calls) := sendPvt world.motor (some state.stats.cycles) target cycle.commandErr
    let sent := state.sent ++ calls
    if !ok then
      let stats := { stats with commandErrors := stats.commandErrors + 1 }
      ({ nextTime, consecutiveStale := 0, stats, sent }, some false)
    else
      let stats := { stats with commandsSent := stats.commandsSent + 1 }.miss
        (deadlineMissed || cycle.finishedAt ≥ nextTime + commandPeriod)
      ({ nextTime, consecutiveStale := 0, stats, sent }, none)

/-- Every turn moves the next deadline by one period. -/
theorem runCycle_nextTime (world : World) (state : LoopState) :
    (runCycle world state).1.nextTime = state.nextTime + commandPeriod := by
  simp only [runCycle]
  split_ifs <;> rfl

/-- The loop up to `deadline`, and what the function returns. -/
def loop (world : World) (deadline : Int) (state : LoopState) : LoopState × Bool :=
  if state.nextTime + commandPeriod ≤ deadline then
    match _h : runCycle world state with
    | (next, some result) => (next, result)
    | (next, none) => loop world deadline next
  else (state, true)
termination_by (deadline - state.nextTime).toNat
decreasing_by
  have hnext := runCycle_nextTime world state
  rw [_h] at hnext
  simp only [commandPeriod] at *
  omega

structure Outcome where
  ok : Bool
  totalStats : PvtLoopStats
  stats : PvtLoopStats
  sent : List Sent

def runStablePvtLoop (world : World) (runDuration : Int) (totalStats : PvtLoopStats) :
    Outcome :=
  let (ok, sent) := sendPvt world.motor none (world.targetAt 0) world.seedErr
  if !ok then
    let stats := { commandErrors := 1 }
    { ok := false, totalStats := totalStats.add stats, stats, sent }
  else
    let (state, ok) := loop world (world.start + runDuration)
      { nextTime := world.start, stats := { commandsSent := 1 }, sent }
    { ok, totalStats := totalStats.add state.stats, stats := state.stats, sent := state.sent }

end ServoFleet.PvtControl
