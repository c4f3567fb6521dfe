import ServoFleet.PvtControl

/-!
The control loop moves a motor only on fresh feedback. One turn ends in one of five
ways; from them follows what holds at the head of the loop and on every return.

Snapshots, the clock and the outcomes of the sends are whatever the surroundings
make of them. How the loop ends, and when it succeeds, is left out here.
-/

namespace ServoFleet.PvtControl

section World

variable (world : World)

/-- A turn whose snapshot is not fresh at wake-up. -/
def Stale (k : Nat) : Prop :=
  snapshotFresh (world.cycle k).snapshot (world.cycle k).wokeAt feedbackMaxAge = false

/-- A turn whose snapshot allows a command. -/
structure Good (k : Nat) : Prop where
  coherent : (world.cycle k).snapshot.coherent = true
  young : (world.cycle k).wokeAt - (world.cycle k).snapshot.error.time ≤ feedbackMaxAge
  healthy : (world.cycle k).snapshot.error.value = .none

/-- The target of the seed command, or of a turn. -/
def target : Option Nat → PvtTarget
  | none => world.targetAt 0
  | some k => world.targetAt ((world.cycle k).wokeAt - world.start)

def commandErr : Option Nat → ErrCode
  | none => world.seedErr
  | some k => (world.cycle k).commandErr

/-- `send_pvt` returns false: the target is refused, or the command fails. -/
def SendFails (cycle : Option Nat) : Prop :=
  validPvtPosition (target world cycle).positionR = false ∨ commandErr world cycle ≠ .ok ()

theorem sendPvt_cases (cycle : Option Nat) :
    ∃ ok calls, sendPvt world.motor cycle (target world cycle) (commandErr world cycle) =
        (ok, calls) ∧
      (ok = false ↔ SendFails world cycle) ∧ (∀ call ∈ calls, call.cycle = cycle) ∧
      calls.length ≤ 1 ∧ (ok = true → calls ≠ []) := by
  unfold sendPvt SendFails
  cases validPvtPosition (target world cycle).positionR with
  | false => exact ⟨_, _, rfl, by simp, by simp, by simp, by simp⟩
  | true => exact ⟨_, _, rfl, by simp, by simp, le_rfl, by simp⟩

theorem not_stale_iff (k : Nat) :
    ¬ Stale world k ↔ (world.cycle k).snapshot.coherent = true ∧
      (world.cycle k).wokeAt - (world.cycle k).snapshot.error.time ≤ feedbackMaxAge := by
  rw [Stale, Bool.not_eq_false, snapshotFresh, fresh, Bool.and_eq_true, Bool.and_eq_true,
    decide_eq_true_eq]
  constructor
  · rintro ⟨hcoherent, _, hyoung⟩
    exact ⟨hcoherent, hyoung⟩
  · rintro ⟨hcoherent, hyoung⟩
    exact ⟨hcoherent, (PvtFeedbackSnapshot.coherent_seq hcoherent).1, hyoung⟩

theorem Good.fresh {k : Nat} (good : Good world k) : ¬ Stale world k :=
  (not_stale_iff world k).mpr ⟨good.coherent, good.young⟩

/-- A turn whose snapshot passes both checks of the loop. -/
theorem good_of_fresh {k : Nat} (hfresh : ¬ Stale world k)
    (hnone : (world.cycle k).snapshot.error.value = .none) : Good world k := by
  obtain ⟨hcoherent, hyoung⟩ := (not_stale_iff world k).mp hfresh
  exact ⟨hcoherent, hyoung, hnone⟩

end World

/-! ## One turn -/

/-- The turns that have been counted, by how they ended, with the seed. -/
def PvtLoopStats.settled (stats : PvtLoopStats) : Nat :=
  stats.commandsSent + stats.staleFeedback + stats.rejectedFeedback + stats.commandErrors

@[simp]
theorem miss_settled (stats : PvtLoopStats) (missed : Bool) :
    (stats.miss missed).settled = stats.settled := by
  cases missed <;> rfl

@[simp]
theorem miss_cycles (stats : PvtLoopStats) (missed : Bool) :
    (stats.miss missed).cycles = stats.cycles := by
  cases missed <;> rfl

/-- The five ways a turn ends. -/
inductive Turn (world : World) (state next : LoopState) : Option Bool → Prop where
  | stale (stale : Stale world state.stats.cycles) (sent : next.sent = state.sent)
      (count : next.consecutiveStale = state.consecutiveStale + 1)
      (few : next.consecutiveStale < maxConsecutiveStaleFeedback) : Turn world state next none
  | aborted (stale : Stale world state.stats.cycles) (sent : next.sent = state.sent) :
      Turn world state next (some false)
  | rejected (fresh : ¬ Stale world state.stats.cycles)
      (bad : (world.cycle state.stats.cycles).snapshot.error.value ≠ .none)
      (sent : next.sent = state.sent) (count : next.consecutiveStale = 0) :
      Turn world state next none
  | failed (good : Good world state.stats.cycles)
      (calls : List Sent) (sent : next.sent = state.sent ++ calls)
      (turn : ∀ call ∈ calls, call.cycle = some state.stats.cycles) :
      Turn world state next (some false)
  | commanded (good : Good world state.stats.cycles)
      (accepted : ¬ SendFails world (some state.stats.cycles))
      (calls : List Sent) (sent : next.sent = state.sent ++ calls)
      (turn : ∀ call ∈ calls, call.cycle = some state.stats.cycles)
      (count : next.consecutiveStale = 0) : Turn world state next none

theorem wakeUp_cycles (state : LoopState) (wokeAt : Int) :
    (wakeUp state wokeAt).cycles = state.stats.cycles + 1 := by
  simp only [wakeUp]
  split_ifs <;> rfl

theorem wakeUp_settled (state : LoopState) (wokeAt : Int) :
    (wakeUp state wokeAt).settled = state.stats.settled := by
  simp only [wakeUp]
  split_ifs <;> rfl

/-- Every turn is counted once, whichever way it ends. -/
theorem runCycle_counts (world : World) (state : LoopState) :
    (runCycle world state).1.stats.cycles = state.stats.cycles + 1 ∧
      (runCycle world state).1.stats.settled = state.stats.settled + 1 := by
  have hcycles := wakeUp_cycles state (world.cycle state.stats.cycles).wokeAt
  have hsettled := wakeUp_settled state (world.cycle state.stats.cycles).wokeAt
  simp only [runCycle]
  split_ifs <;> simp only [miss_cycles, miss_settled] <;> refine ⟨hcycles, ?_⟩ <;>
    rw [← hsettled] <;> simp only [PvtLoopStats.settled] <;> omega

theorem runCycle_turn (world : World) (state : LoopState) :
    Turn world state (runCycle world state).1 (runCycle world state).2 := by
  obtain ⟨ok, calls, hsend, hok, hcycle, _, _⟩ :=
    sendPvt_cases world (some state.stats.cycles)
  simp only [target, commandErr] at hsend
  simp only [runCycle]
  rw [hsend]
  split_ifs with hfresh hcount hbad hfailed
  · exact .aborted (by simpa [Stale] using hfresh) rfl
  · exact .stale (by simpa [Stale] using hfresh) rfl rfl (not_le.mp hcount)
  · exact .rejected (by simpa [Stale] using hfresh) hbad rfl rfl
  · have hstale : ¬ Stale world state.stats.cycles := by simpa [Stale] using hfresh
    exact .failed (good_of_fresh world hstale (not_not.mp hbad)) calls rfl hcycle
  · have hstale : ¬ Stale world state.stats.cycles := by simpa [Stale] using hfresh
    refine .commanded (good_of_fresh world hstale (not_not.mp hbad)) ?_ calls rfl hcycle rfl
    intro hfails
    exact hfailed (by rw [hok.mpr hfails]; rfl)

/-! ## The head of the loop -/

/-- After the seed, every command belongs to a turn whose snapshot allows it. -/
def SentSafely (world : World) (cycles : Nat) (sent : List Sent) : Prop :=
  ∃ seed rest, sent = seed :: rest ∧ seed.cycle = none ∧
    ∀ call ∈ rest, ∃ k < cycles, call.cycle = some k ∧ Good world k

theorem SentSafely.later {world : World} {cycles : Nat} {sent : List Sent}
    (safe : SentSafely world cycles sent) : SentSafely world (cycles + 1) sent := by
  obtain ⟨seed, rest, hsent, hseed, hrest⟩ := safe
  refine ⟨seed, rest, hsent, hseed, fun call member => ?_⟩
  obtain ⟨k, hlt, hk⟩ := hrest call member
  exact ⟨k, Nat.lt_succ_of_lt hlt, hk⟩

theorem SentSafely.append {world : World} {cycles : Nat} {sent calls : List Sent}
    (safe : SentSafely world cycles sent) (good : Good world cycles)
    (turn : ∀ call ∈ calls, call.cycle = some cycles) :
    SentSafely world (cycles + 1) (sent ++ calls) := by
  obtain ⟨seed, rest, rfl, hseed, hrest⟩ := safe.later
  refine ⟨seed, rest ++ calls, rfl, hseed, fun call member => ?_⟩
  rcases List.mem_append.mp member with member | member
  · exact hrest call member
  · exact ⟨cycles, Nat.lt_succ_self cycles, turn call member, good⟩

/-- Three turns in a row, the first of them `k`, have no fresh snapshot. -/
def ThreeStale (world : World) (k : Nat) : Prop :=
  Stale world k ∧ Stale world (k + 1) ∧ Stale world (k + 2)

theorem ThreeStale.stale {world : World} {k j : Nat} (hthree : ThreeStale world k) (hkj : k ≤ j)
    (hj : j < k + 3) : Stale world j := by
  obtain ⟨hfirst, hsecond, hthird⟩ := hthree
  obtain rfl | rfl | rfl : j = k ∨ j = k + 1 ∨ j = k + 2 := by omega
  · exact hfirst
  · exact hsecond
  · exact hthird

/-- The counter is at least as long as the row of stale turns that ends here. -/
def Streak (world : World) (cycles count : Nat) : Prop :=
  ∀ m ≤ cycles, (∀ k, m ≤ k → k < cycles → Stale world k) → cycles ≤ m + count

theorem Streak.next {world : World} {cycles count count' : Nat} (streak : Streak world cycles count)
    (hturn : Stale world cycles → count' = count + 1) : Streak world (cycles + 1) count' := by
  intro m hm hall
  rcases Nat.lt_or_ge cycles m with hlast | hearlier
  · omega
  · have hcount := hturn (hall cycles hearlier (Nat.lt_succ_self cycles))
    have hle := streak m hearlier fun k hmk hk => hall k hmk (Nat.lt_succ_of_lt hk)
    omega

/-- A counter below three has not just seen three stale turns. -/
theorem Streak.not_three {world : World} {k count : Nat} (streak : Streak world (k + 3) count)
    (few : count < maxConsecutiveStaleFeedback) : ¬ ThreeStale world k := by
  intro hthree
  have hle := streak k (by omega) fun j => hthree.stale
  simp only [maxConsecutiveStaleFeedback] at few
  omega

/-- What holds at the head of the loop. -/
structure Running (world : World) (deadline : Int) (state : LoopState) : Prop where
  settled : state.stats.settled = state.stats.cycles + 1
  nextTime : state.nextTime = world.start + state.stats.cycles * commandPeriod
  onTime : state.stats.cycles = 0 ∨ state.nextTime ≤ deadline
  sent : SentSafely world state.stats.cycles state.sent
  streak : Streak world state.stats.cycles state.consecutiveStale
  few : state.consecutiveStale < maxConsecutiveStaleFeedback
  noThree : ∀ k, k + 3 ≤ state.stats.cycles → ¬ ThreeStale world k
  noFailure : ∀ k < state.stats.cycles, Good world k → ¬ SendFails world (some k)

/-- What holds when the function returns `ok`. -/
structure Finished (world : World) (deadline : Int) (state : LoopState) (ok : Bool) : Prop where
  settled : state.stats.settled = state.stats.cycles + 1
  onTime : state.stats.cycles = 0 ∨ world.start + state.stats.cycles * commandPeriod ≤ deadline
  sent : SentSafely world state.stats.cycles state.sent
  three : ∀ k, k + 3 ≤ state.stats.cycles → ThreeStale world k →
    ok = false ∧ state.stats.cycles = k + 3
  failure : ∀ k < state.stats.cycles, Good world k → SendFails world (some k) →
    ok = false ∧ state.stats.cycles = k + 1

section Turn

variable {world : World} {state next : LoopState} {result : Option Bool}

theorem Turn.sent_safely (turn : Turn world state next result)
    (safe : SentSafely world state.stats.cycles state.sent) :
    SentSafely world (state.stats.cycles + 1) next.sent := by
  cases turn with
  | stale _ sent _ _ => exact sent ▸ safe.later
  | aborted _ sent => exact sent ▸ safe.later
  | rejected _ _ sent _ => exact sent ▸ safe.later
  | failed good calls sent turn => exact sent ▸ safe.append good turn
  | commanded good _ calls sent turn _ => exact sent ▸ safe.append good turn

/-- At a stale turn the counter goes on. -/
theorem Turn.count_stale (turn : Turn world state next none)
    (stale : Stale world state.stats.cycles) :
    next.consecutiveStale = state.consecutiveStale + 1 := by
  cases turn with
  | stale _ _ count _ => exact count
  | rejected fresh _ _ _ => exact absurd stale fresh
  | commanded good _ _ _ _ _ => exact absurd stale (good.fresh world)

theorem Turn.few (turn : Turn world state next none) :
    next.consecutiveStale < maxConsecutiveStaleFeedback := by
  have hzero : 0 < maxConsecutiveStaleFeedback := Nat.succ_pos 2
  cases turn with
  | stale _ _ _ few => exact few
  | rejected _ _ _ count => exact count ▸ hzero
  | commanded _ _ _ _ _ count => exact count ▸ hzero

/-- A loop that goes on has not failed to send. -/
theorem Turn.accepted (turn : Turn world state next none)
    (good : Good world state.stats.cycles) : ¬ SendFails world (some state.stats.cycles) := by
  cases turn with
  | stale stale _ _ _ => exact absurd stale (good.fresh world)
  | rejected _ bad _ _ => exact absurd good.healthy bad
  | commanded _ accepted _ _ _ _ => exact accepted

theorem Turn.result_false {ok : Bool} (turn : Turn world state next (some ok)) :
    ok = false := by
  cases turn <;> rfl

end Turn

section Loop

variable {world : World} {deadline : Int} {state : LoopState}

/-- One turn that lets the loop go on leads from its head to its head. -/
theorem Running.step (running : Running world deadline state)
    (hguard : state.nextTime + commandPeriod ≤ deadline) {next : LoopState}
    (hrun : runCycle world state = (next, none)) : Running world deadline next := by
  have hturn := runCycle_turn world state
  obtain ⟨hcycles, hsettled⟩ := runCycle_counts world state
  have hnext := runCycle_nextTime world state
  simp only [hrun] at hturn hcycles hsettled hnext
  have hsettledHead := running.settled
  have hstreak : Streak world next.stats.cycles next.consecutiveStale := by
    rw [hcycles]
    exact running.streak.next fun hstale => hturn.count_stale hstale
  refine ⟨by omega, ?_, .inr (by omega), hcycles ▸ hturn.sent_safely running.sent, hstreak,
    hturn.few, ?_, ?_⟩
  · rw [hnext, hcycles, running.nextTime, Nat.cast_succ, add_mul, one_mul, add_assoc]
  · intro k hk
    rcases Nat.lt_or_ge state.stats.cycles (k + 3) with hlast | hearlier
    · have hk' : next.stats.cycles = k + 3 := by omega
      exact (hk' ▸ hstreak).not_three hturn.few
    · exact running.noThree k hearlier
  · intro k hk good
    rcases Nat.lt_succ_iff_lt_or_eq.mp (hcycles ▸ hk) with hlt | rfl
    · exact running.noFailure k hlt good
    · exact hturn.accepted good

/-- One turn that returns. -/
theorem Running.stop (running : Running world deadline state)
    (hguard : state.nextTime + commandPeriod ≤ deadline) {next : LoopState} {ok : Bool}
    (hrun : runCycle world state = (next, some ok)) : Finished world deadline next ok := by
  have hturn := runCycle_turn world state
  obtain ⟨hcycles, hsettled⟩ := runCycle_counts world state
  simp only [hrun] at hturn hcycles hsettled
  have hsettledHead := running.settled
  refine ⟨by omega, .inr ?_, hcycles ▸ hturn.sent_safely running.sent, ?_, ?_⟩
  · rw [running.nextTime] at hguard
    rw [hcycles, Nat.cast_succ, add_mul, one_mul, ← add_assoc]
    exact hguard
  · intro k hk hthree
    refine ⟨hturn.result_false, ?_⟩
    by_contra hne
    exact running.noThree k (by omega) hthree
  · intro k hk good hfails
    refine ⟨hturn.result_false, ?_⟩
    by_contra hne
    exact running.noFailure k (by omega) good hfails

/-- The loop that runs out of time. -/
theorem Running.finished (running : Running world deadline state) :
    Finished world deadline state true where
  settled := running.settled
  onTime := running.nextTime ▸ running.onTime
  sent := running.sent
  three := fun k hk hthree => absurd hthree (running.noThree k hk)
  failure := fun k hk good hfails => absurd hfails (running.noFailure k hk good)

/-- Whenever the loop returns, all that it promises holds. -/
theorem loop_finished (running : Running world deadline state) :
    Finished world deadline (loop world deadline state).1 (loop world deadline state).2 := by
  fun_induction loop world deadline state with
  | case1 state hguard next ok hrun => exact running.stop hguard hrun
  | case2 state hguard next hrun ih => exact ih (running.step hguard hrun)
  | case3 state hguard => exact running.finished

end Loop

/-! ## The whole function -/

/-- Either the seed fails and nothing more happens, or the loop runs to its end. -/
theorem runStablePvtLoop_cases (world : World) (runDuration : Int) (totalStats : PvtLoopStats) :
    let outcome := runStablePvtLoop world runDuration totalStats
    outcome.totalStats = totalStats.add outcome.stats ∧
      ((SendFails world none ∧ outcome.ok = false ∧ outcome.stats = { commandErrors := 1 } ∧
          ∀ i call, outcome.sent[i]? = some call → i = 0 ∧ call.cycle = none) ∨
        ¬ SendFails world none ∧ ∃ state, outcome.stats = state.stats ∧
          outcome.sent = state.sent ∧
          Finished world (world.start + runDuration) state outcome.ok) := by
  obtain ⟨ok, calls, hsend, hok, hcycle, hlength, hsent⟩ := sendPvt_cases world none
  simp only [target, commandErr] at hsend
  simp only [runStablePvtLoop]
  rw [hsend]
  cases ok with
  | false =>
      refine ⟨rfl, .inl ⟨hok.mp rfl, rfl, rfl, fun i call hcall => ?_⟩⟩
      obtain ⟨hi, rfl⟩ := List.getElem?_eq_some_iff.mp hcall
      have hlt : i < calls.length := hi
      exact ⟨by omega, hcycle _ (List.getElem_mem hi)⟩
  | true =>
      obtain ⟨seed, rest, rfl⟩ := List.exists_cons_of_ne_nil (hsent rfl)
      obtain rfl : rest = [] := by simpa using hlength
      refine ⟨rfl, .inr ⟨fun hfails => absurd (hok.mpr hfails) (by decide), _, rfl, rfl, ?_⟩⟩
      apply loop_finished
      exact {
        settled := rfl
        nextTime := by simp
        onTime := .inl rfl
        sent := ⟨seed, [], rfl, hcycle seed (List.mem_singleton_self seed), by simp⟩
        streak := fun m hm _ => Nat.zero_le _
        few := Nat.zero_lt_succ 2
        noThree := fun k hk => by simp at hk
        noFailure := fun k hk => by simp at hk
      }

theorem SentSafely.at_index {world : World} {cycles : Nat} {sent : List Sent}
    (safe : SentSafely world cycles sent) {i : Nat} {call : Sent}
    (hcall : sent[i]? = some call) :
    (i = 0 ∧ call.cycle = none) ∨
      (0 < i ∧ ∃ k < cycles, call.cycle = some k ∧ Good world k) := by
  obtain ⟨seed, rest, rfl, hseed, hrest⟩ := safe
  cases i with
  | zero =>
      obtain rfl : seed = call := by simpa using hcall
      exact .inl ⟨rfl, hseed⟩
  | succ i =>
      rw [List.getElem?_cons_succ] at hcall
      exact .inr ⟨Nat.succ_pos i, hrest call (List.mem_of_getElem? hcall)⟩

/-- No command comes from a stale turn, so none comes from the last three. -/
theorem Finished.sent_before {world : World} {deadline : Int} {state : LoopState} {ok : Bool}
    (finished : Finished world deadline state ok) {k : Nat} (hthree : ThreeStale world k)
    (hlast : state.stats.cycles = k + 3) {call : Sent} (member : call ∈ state.sent) {turn : Nat}
    (hturn : call.cycle = some turn) : turn < k := by
  obtain ⟨i, hi⟩ := List.mem_iff_getElem?.mp member
  rcases finished.sent.at_index hi with ⟨_, hnone⟩ | ⟨_, j, hj, hcycle, good⟩
  · rw [hturn] at hnone
    cases hnone
  · obtain rfl : turn = j := Option.some.inj (hturn.symm.trans hcycle)
    by_contra hlt
    exact good.fresh world (hthree.stale (by omega) (by omega))

theorem Finished.cycles_le {world : World} {runDuration : Int} {state : LoopState} {ok : Bool}
    (finished : Finished world (world.start + runDuration) state ok) :
    state.stats.cycles ≤ (runDuration / commandPeriod).toNat := by
  rcases finished.onTime with hzero | honTime
  · omega
  · simp only [commandPeriod] at honTime ⊢
    omega

/-- A motor gets a command of the loop only in a turn whose snapshot is coherent, young
and without error; three stale turns or a failed send end the loop. Of the number of turns
only the upper bound is given. -/
theorem pvt_loop_is_safe (world : World) (runDuration : Int) (totalStats : PvtLoopStats) :
    let outcome := runStablePvtLoop world runDuration totalStats
    let stats := outcome.stats
    (∀ i call, outcome.sent[i]? = some call →
      (i = 0 ∧ call.cycle = none) ∨
        (0 < i ∧ ∃ k < stats.cycles, call.cycle = some k ∧ Good world k)) ∧
    (∀ k, k + 3 ≤ stats.cycles → ThreeStale world k →
      outcome.ok = false ∧ stats.cycles = k + 3 ∧
        ∀ call ∈ outcome.sent, ∀ turn, call.cycle = some turn → turn < k) ∧
    (SendFails world none → outcome.ok = false ∧ stats.cycles = 0) ∧
    (∀ k < stats.cycles, Good world k → SendFails world (some k) →
      outcome.ok = false ∧ stats.cycles = k + 1) ∧
    stats.cycles ≤ (runDuration / commandPeriod).toNat ∧
    stats.commandsSent + stats.staleFeedback + stats.rejectedFeedback + stats.commandErrors =
      stats.cycles + 1 ∧
    outcome.totalStats = totalStats.add stats := by
  intro outcome stats
  obtain ⟨htotal, ⟨hfails, hok, hstats, hsent⟩ | ⟨hsends, state, hstats, hsent, finished⟩⟩ :=
    runStablePvtLoop_cases world runDuration totalStats
  · have hcycles : stats.cycles = 0 := congrArg PvtLoopStats.cycles hstats
    have hsettled : stats.settled = 1 := congrArg PvtLoopStats.settled hstats
    refine ⟨fun i call hcall => .inl (hsent i call hcall), fun k hk => ?_, fun _ => ⟨hok, hcycles⟩,
      fun k hk => ?_, by omega, by rw [hcycles]; exact hsettled, htotal⟩
    · omega
    · omega
  · have hcycles : stats.cycles = state.stats.cycles := congrArg PvtLoopStats.cycles hstats
    simp only [outcome, stats, hstats, hsent] at *
    refine ⟨fun i call hcall => finished.sent.at_index hcall, fun k hk hthree => ?_,
      fun hfails => absurd hfails hsends, finished.failure, finished.cycles_le,
      finished.settled, htotal⟩
    obtain ⟨hok, hlast⟩ := finished.three k hk hthree
    exact ⟨hok, hlast, fun call member turn hturn => finished.sent_before hthree hlast member hturn⟩

end ServoFleet.PvtControl
