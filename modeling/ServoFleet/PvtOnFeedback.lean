import ServoFleet.PvtControlSafety
import ServoFleet.ReceivedFeedback

/-!
The control loop over a runtime. Its snapshots are those of a motor of which the
receive threads are somewhere in what has arrived, so the loop follows what the
motor itself has reported, and not any other sender. Young is what is at most
`feedbackMaxAge` old when the loop looks at it.
-/

namespace ServoFleet

open ServoFleet.Runtime (deviceOf)

/-- A snapshot with its quantities in another arithmetic. -/
def PvtFeedbackSnapshot.map {F G : Type} (f : F → G) (snapshot : PvtFeedbackSnapshot F) :
    PvtFeedbackSnapshot G where
  error := snapshot.error
  positionDeg := { snapshot.positionDeg with value := f snapshot.positionDeg.value }
  velocityRpm := { snapshot.velocityRpm with value := f snapshot.velocityRpm.value }
  current := { snapshot.current with value := f snapshot.current.value }

namespace PvtControl

variable {F : Type} [FloatArith F]

/-- What a motor has said by a cycle of the loop: its last feedback with data is a status
without error, not too old. -/
def RecentStatus (history : List (Feedback F × TimePoint)) (wokeAt : TimePoint) : Prop :=
  ∃ before value time after, history = before ++ (.status value, time) :: after ∧
    (∀ later ∈ after, later.1.isAck = true) ∧ value.error = .none ∧
    wokeAt - time ≤ feedbackMaxAge

/-- What the remote of a motor has sent it in the turns of some actions. -/
def heardIn (remote : String → Endpoint) (runtime : Runtime F) (config : MotorConfig)
    (actions : List RxAction) : List (Feedback F × TimePoint) :=
  (actions.filterMap RxAction.turn?).flatMap (runtime.heard remote config)

/-- In cycle `n` the loop reads a motor after the actions `actions n` of the receive threads,
which have come to `state n`. -/
structure Watches (remote : String → Endpoint) (runtime : Runtime F) (k : DeviceRef)
    (config : MotorConfig) (float : F → F32) (world : World) (actions : Nat → List RxAction)
    (state : Nat → Reception F) : Prop where
  run : ∀ n, Steps.run (Reception.step remote) { runtime } (actions n) = some (state n)
  read : ∀ n, ∃ device, (state n).runtime.motors[k]? = some device ∧
    (world.cycle n).snapshot = device.pvtFeedback.map float
  short : ∀ n, (heardIn remote runtime config (actions n)).length < 2 ^ 64

section Watches

variable {options : FleetConfig} {runtime : Runtime F} {remote : String → Endpoint}
variable {k : DeviceRef} {config : MotorConfig} {float : F → F32} {world : World}
variable {actions : Nat → List RxAction} {state : Nat → Reception F}

/-- The snapshot of a cycle shows the motor's own history, up to where its thread is. -/
theorem Watches.snapshot (watches : Watches remote runtime k config float world actions state)
    (hvalid : options.Valid)
    (hbinds : Runtime.Binds (Runtime.usedChannels options) options.motors runtime)
    (hk : options.motors[k]? = some config) (n : Nat) :
    ∃ slot history, runtime.motorDrivers[slot]?.map (·.channelName) = some config.channel ∧
      history ++ (state n).unheard config slot = heardIn remote runtime config (actions n) ∧
      history.length < 2 ^ 64 ∧
      (world.cycle n).snapshot = ((deviceOf k config).applyAll history).pvtFeedback.map float := by
  have hears := Reception.run_hears hvalid hbinds (actions n) (Reception.hears_nothing hbinds)
    (watches.run n)
  rw [List.nil_append] at hears
  obtain ⟨slot, history, hslot, hdevice, hheard⟩ := hears.device hvalid hbinds hk
  obtain ⟨device, hread, hsnapshot⟩ := watches.read n
  obtain rfl := Option.some.inj (hread.symm.trans hdevice)
  have hshort := watches.short n
  rw [heardIn, ← hheard, List.length_append] at hshort
  exact ⟨slot, history, hslot, hheard, by omega, hsnapshot⟩

/-- A coherent snapshot of a history shows its last status. -/
theorem status_of_snapshot {history : List (Feedback F × TimePoint)}
    (hlength : history.length < 2 ^ 64) {snapshot : PvtFeedbackSnapshot F32}
    (hsnapshot : snapshot =
      ((deviceOf k config : MotorDevice F).applyAll history).pvtFeedback.map float)
    (hcoherent : snapshot.coherent = true) :
    ∃ before value time after, history = before ++ (.status value, time) :: after ∧
      (∀ later ∈ after, later.1.isAck = true) ∧ snapshot.error.value = value.error ∧
      snapshot.error.time = time := by
  subst hsnapshot
  obtain ⟨before, value, time, after, rfl, hacks⟩ :=
    MotorDevice.status_of_coherent _ _ _ _ history hlength hcoherent
  have hstatus := MotorDevice.pvtFeedback_status (BitVec.ofNat 32 k) config.name config.address
    (findMotorEcSpec config.model) before after time value hacks
  refine ⟨before, value, time, after, rfl, hacks, ?_, ?_⟩
  · rw [PvtFeedbackSnapshot.map, deviceOf, hstatus]
  · rw [PvtFeedbackSnapshot.map, deviceOf, hstatus]

/-- A cycle that may send a command has a motor that has just reported itself well. -/
theorem Watches.recent (watches : Watches remote runtime k config float world actions state)
    (hvalid : options.Valid)
    (hbinds : Runtime.Binds (Runtime.usedChannels options) options.motors runtime)
    (hk : options.motors[k]? = some config) {n : Nat} (good : Good world n) :
    ∃ slot history, runtime.motorDrivers[slot]?.map (·.channelName) = some config.channel ∧
      history ++ (state n).unheard config slot = heardIn remote runtime config (actions n) ∧
      RecentStatus history (world.cycle n).wokeAt := by
  obtain ⟨slot, history, hslot, hheard, hlength, hsnapshot⟩ := watches.snapshot hvalid hbinds hk n
  obtain ⟨before, value, time, after, hstatus, hacks, herror, htime⟩ :=
    status_of_snapshot hlength hsnapshot good.coherent
  exact ⟨slot, history, hslot, hheard, before, value, time, after, hstatus, hacks,
    herror ▸ good.healthy, htime ▸ good.young⟩

/-- A cycle without a young status is stale. -/
theorem Watches.stale (watches : Watches remote runtime k config float world actions state)
    (hvalid : options.Valid)
    (hbinds : Runtime.Binds (Runtime.usedChannels options) options.motors runtime)
    (hk : options.motors[k]? = some config) {n : Nat}
    (hold : ∀ value time, (.status value, time) ∈ heardIn remote runtime config (actions n) →
      feedbackMaxAge < (world.cycle n).wokeAt - time) : Stale world n := by
  obtain ⟨slot, history, _, hheard, hlength, hsnapshot⟩ := watches.snapshot hvalid hbinds hk n
  by_contra hfresh
  obtain ⟨hcoherent, hyoung⟩ := (not_stale_iff world n).mp hfresh
  obtain ⟨before, value, time, after, rfl, _, _, htime⟩ :=
    status_of_snapshot hlength hsnapshot hcoherent
  have hlate := hold value time (by rw [← hheard]; simp)
  rw [htime] at hyoung
  exact absurd hyoung (not_le.mpr hlate)

end Watches

/-- Over a runtime that came up, a cycle sends a command only if the last thing but
acknowledgements that the motor's own remote had sent it, as far as its thread had got,
was a young status without error; and three cycles in a row in which the motor had no
young status end the loop, with no command from the first of them on. -/
theorem loop_follows_motor (options : FleetConfig) (opens : ChannelConfig → Bool)
    (runtime : Runtime F) (hinit : Runtime.init options opens = .ok runtime)
    (remote : String → Endpoint) (k : DeviceRef) (config : MotorConfig)
    (hk : options.motors[k]? = some config) (float : F → F32) (world : World)
    (actions : Nat → List RxAction) (state : Nat → Reception F)
    (watches : Watches remote runtime k config float world actions state) (runDuration : Int)
    (totalStats : PvtLoopStats) :
    let outcome := runStablePvtLoop world runDuration totalStats
    (∀ i call, outcome.sent[i]? = some call → (i = 0 ∧ call.cycle = none) ∨
      ∃ n slot history, call.cycle = some n ∧
        runtime.motorDrivers[slot]?.map (·.channelName) = some config.channel ∧
        history ++ (state n).unheard config slot = heardIn remote runtime config (actions n) ∧
        RecentStatus history (world.cycle n).wokeAt) ∧
    ∀ m, m + 3 ≤ outcome.stats.cycles →
      (∀ n, m ≤ n → n < m + 3 → ∀ value time,
        (.status value, time) ∈ heardIn remote runtime config (actions n) →
        feedbackMaxAge < (world.cycle n).wokeAt - time) →
      outcome.ok = false ∧ outcome.stats.cycles = m + 3 ∧
        ∀ call ∈ outcome.sent, ∀ n, call.cycle = some n → n < m := by
  obtain ⟨hvalid, hbinds, _⟩ := Runtime.init_ok hinit
  intro outcome
  obtain ⟨_, ⟨_, _, hstats, hsent⟩ | ⟨_, loopState, hstats, hsent, finished⟩⟩ :=
    runStablePvtLoop_cases world runDuration totalStats
  · refine ⟨fun i call hcall => .inl (hsent i call hcall), fun m hm _ => ?_⟩
    have hcycles : outcome.stats.cycles = 0 := congrArg PvtLoopStats.cycles hstats
    omega
  · have hcycles : outcome.stats.cycles = loopState.stats.cycles :=
      congrArg PvtLoopStats.cycles hstats
    refine ⟨fun i call hcall => ?_, fun m hm hold => ?_⟩
    · rw [hsent] at hcall
      rcases finished.sent.at_index hcall with hseed | ⟨_, n, _, hcycle, good⟩
      · exact .inl hseed
      · obtain ⟨slot, history, hreported⟩ := watches.recent hvalid hbinds hk good
        exact .inr ⟨n, slot, history, hcycle, hreported⟩
    · have hstale : ∀ n, m ≤ n → n < m + 3 → Stale world n := fun n hmn hn =>
        watches.stale hvalid hbinds hk (hold n hmn hn)
      have hthree : ThreeStale world m :=
        ⟨hstale m (by omega) (by omega), hstale (m + 1) (by omega) (by omega),
          hstale (m + 2) (by omega) (by omega)⟩
      obtain ⟨hok, hlast⟩ := finished.three m (hcycles ▸ hm) hthree
      refine ⟨hok, hcycles.trans hlast, fun call member n hn => ?_⟩
      exact finished.sent_before hthree hlast (hsent ▸ member) hn

/-! ## A motor that reports once -/

def onceFrame : CanFrame where
  port := 0
  id := 1
  data := #v[0x20, 0, 0, 0, 0, 0, 0, 0]
  len := 8

def onceTurn : RxTurn where
  driverSlot := 0
  now := 1000000
  receipt := .datagram { address := 2, port := 9 }
    (MotorCodec.packetBytes MotorCodec.typeCan2udp [onceFrame])

/-- The loop reads the one status in every cycle. -/
def onceWorld : World where
  motor := 0
  start := 0
  targetAt _ := {}
  seedErr := .ok ()
  cycle n :=
    { wokeAt := commandPeriod * (n + 1)
      snapshot :=
        { error := { time := 1000000, seq := 1, value := .none }
          positionDeg := { time := 1000000, seq := 1, value := {} }
          velocityRpm := { time := 1000000, seq := 1, value := {} }
          current := { time := 1000000, seq := 1, value := {} } }
      commandErr := .ok ()
      finishedAt := commandPeriod * (n + 1) }

/-- The first cycle follows the status, the next three find it too old and end the loop. -/
theorem silent_motor_is_left :
    ∃ (runtime : Runtime (Option ℚ)) (actions : List RxAction)
      (state : Reception (Option ℚ)) (history : List (Feedback (Option ℚ) × TimePoint)),
      Runtime.init Runtime.firstIdConfig (fun _ => true) = .ok runtime ∧
      Watches (fun _ => { address := 2, port := 0 }) runtime 0 Runtime.firstIdMotor (fun _ => {})
        onceWorld (fun _ => actions) (fun _ => state) ∧
      let outcome := runStablePvtLoop onceWorld (4 * commandPeriod) {}
      outcome.sent.map (·.cycle) = [none, some 0] ∧ RecentStatus history commandPeriod ∧
        outcome.ok = false ∧ outcome.stats.cycles = 4 := by
  let remote : String → Endpoint := fun _ => { address := 2, port := 0 }
  obtain ⟨runtime, hinit⟩ := Runtime.init_succeeds (F := Option ℚ) Runtime.firstIdConfig
    (fun _ => true) rfl (by decide) (by decide)
  obtain ⟨hvalid, hbinds, _⟩ := Runtime.init_ok hinit
  have hdrivers : runtime.motorDrivers =
      [Runtime.driverOf (Option ℚ) Runtime.firstIdConfig.motors "can"] := hbinds.drivers
  obtain ⟨actions, state, hrun, hturns, _, hidle⟩ := Reception.rxSteps_run remote hvalid
    hbinds [onceTurn] (Reception.hears_nothing hbinds) (fun _ => rfl)
    (by rw [hdrivers]; simp [onceTurn])
  obtain ⟨value, hanswer, herror⟩ : ∃ value,
      Runtime.firstIdMotor.answer (Option ℚ) onceFrame = some (.status value) ∧
        value.error = .none := ⟨_, rfl, rfl⟩
  have hcarries : MotorCodec.Carries (MotorCodec.packetBytes MotorCodec.typeCan2udp [onceFrame])
      [onceFrame] := (MotorCodec.carries_iff _ _).mpr ⟨_, rfl, by decide, by decide, rfl⟩
  have hheard : heardIn remote runtime Runtime.firstIdMotor actions =
      [(.status value, 1000000)] := by
    simp only [heardIn, hturns, onceTurn, List.flatMap_cons, List.flatMap_nil, Runtime.heard,
      hdrivers, List.getElem?_cons_zero, Runtime.driverOf_channelName]
    rw [MotorCodec.framesOf_carries hcarries, if_pos ⟨rfl, rfl⟩]
    simp [hanswer]
  have hears := Reception.run_hears hvalid hbinds actions (Reception.hears_nothing hbinds) hrun
  rw [List.nil_append] at hears
  have hmotor : Runtime.firstIdConfig.motors[0]? = some Runtime.firstIdMotor := rfl
  obtain ⟨slot, history, _, hdevice, hhistory⟩ := hears.device hvalid hbinds hmotor
  have hunheard : state.unheard Runtime.firstIdMotor slot = [] := by
    rw [Reception.unheard, hidle, List.filterMap_nil]
  rw [hunheard, List.append_nil] at hhistory
  rw [hhistory.trans hheard] at hdevice
  have watches : Watches remote runtime 0 Runtime.firstIdMotor (fun _ => {}) onceWorld
      (fun _ => actions) (fun _ => state) := by
    refine ⟨fun _ => hrun, fun n => ⟨_, hdevice, ?_⟩, fun _ => by rw [hheard]; simp⟩
    have hstatus := MotorDevice.pvtFeedback_status (BitVec.ofNat 32 0)
      Runtime.firstIdMotor.name Runtime.firstIdMotor.address
      (findMotorEcSpec Runtime.firstIdMotor.model) [] [] 1000000 value
      (fun later member => absurd member List.not_mem_nil)
    rw [List.nil_append] at hstatus
    rw [deviceOf, hstatus, herror]
    rfl
  obtain ⟨hsent, hsilent⟩ := loop_follows_motor Runtime.firstIdConfig (fun _ => true) runtime hinit
    remote 0 Runtime.firstIdMotor rfl (fun _ => {}) onceWorld (fun _ => actions) (fun _ => state)
    watches (4 * commandPeriod) {}
  have hcalls : (runStablePvtLoop onceWorld (4 * commandPeriod) {}).sent.map (·.cycle) =
      [none, some 0] := by decide +kernel
  obtain ⟨call, hcall, hcycle⟩ : ∃ call,
      (runStablePvtLoop onceWorld (4 * commandPeriod) {}).sent[1]? = some call ∧
        call.cycle = some 0 := by
    rw [← Option.map_eq_some_iff, ← List.getElem?_map, hcalls]
    rfl
  rcases hsent 1 call hcall with ⟨hzero, _⟩ | ⟨n, _, reported, hn, _, _, hreported⟩
  · cases hzero
  obtain rfl : n = 0 := Option.some.inj (hn.symm.trans hcycle)
  obtain ⟨hok, hcycles, _⟩ := hsilent 1 (by decide +kernel) (by
    intro n hn _ later time member
    rw [hheard, List.mem_singleton] at member
    rw [(Prod.mk.inj member).2]
    simp only [feedbackMaxAge, onceWorld, commandPeriod]
    omega)
  exact ⟨runtime, actions, state, reported, hinit, watches, hcalls, hreported, hok, hcycles⟩

end PvtControl

end ServoFleet
