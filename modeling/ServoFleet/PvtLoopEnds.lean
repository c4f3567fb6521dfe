import ServoFleet.PvtControlSafety

/-!
How the control loop ends. A turn ends it early exactly when it is the third stale
one in a row or when its snapshot is good and its command fails; a loop without
such a turn runs for all of its periods and answers every good snapshot with one
command.
-/

namespace ServoFleet.PvtControl

/-- A turn that ends the loop. -/
def Aborts (world : World) (k : Nat) : Prop :=
  (2 ≤ k ∧ ThreeStale world (k - 2)) ∨ (Good world k ∧ SendFails world (some k))

/-- The check of the loop that a turn may send. -/
def goodTurn (world : World) (k : Nat) : Bool :=
  snapshotFresh (world.cycle k).snapshot (world.cycle k).wokeAt feedbackMaxAge &&
    (world.cycle k).snapshot.error.value = .none

section Turn

variable {world : World}

theorem goodTurn_iff (k : Nat) : goodTurn world k = true ↔ Good world k := by
  rw [goodTurn, Bool.and_eq_true, decide_eq_true_eq]
  constructor
  · rintro ⟨hfresh, hnone⟩
    exact good_of_fresh world (by simpa [Stale] using hfresh) hnone
  · intro good
    exact ⟨by simpa [Stale] using good.fresh world, good.healthy⟩

/-- The cycles the loop has commands of: the seed, then the good turns. -/
def answered (world : World) (cycles : Nat) : List (Option Nat) :=
  none :: ((List.range cycles).filter (goodTurn world)).map some

variable (world) in
theorem answered_succ (cycles : Nat) :
    answered world (cycles + 1) =
      answered world cycles ++ if goodTurn world cycles then [some cycles] else [] := by
  unfold answered
  rw [List.range_succ, List.filter_append, List.map_append, List.cons_append]
  split_ifs with hgood
  · rw [List.filter_cons_of_pos hgood, List.filter_nil, List.map_singleton]
  · rw [List.filter_cons_of_neg hgood, List.filter_nil, List.map_nil]

/-- What a turn does to the loop that goes on, and why it ends the loop otherwise. -/
inductive Step (world : World) (state next : LoopState) : Option Bool → Prop where
  | waits (stale : Stale world state.stats.cycles)
      (count : next.consecutiveStale = state.consecutiveStale + 1)
      (few : state.consecutiveStale + 1 < maxConsecutiveStaleFeedback)
      (sent : next.sent = state.sent) : Step world state next none
  | skips (fresh : ¬ Stale world state.stats.cycles) (bad : ¬ Good world state.stats.cycles)
      (count : next.consecutiveStale = 0) (sent : next.sent = state.sent) :
      Step world state next none
  | answers (good : Good world state.stats.cycles)
      (accepted : ¬ SendFails world (some state.stats.cycles)) (count : next.consecutiveStale = 0)
      (sent : next.sent.map Sent.cycle = state.sent.map Sent.cycle ++ [some state.stats.cycles]) :
      Step world state next none
  | starves (stale : Stale world state.stats.cycles)
      (many : maxConsecutiveStaleFeedback ≤ state.consecutiveStale + 1) :
      Step world state next (some false)
  | fails (good : Good world state.stats.cycles)
      (failed : SendFails world (some state.stats.cycles)) : Step world state next (some false)

variable (world) in
theorem runCycle_step (state : LoopState) :
    Step world state (runCycle world state).1 (runCycle world state).2 := by
  obtain ⟨ok, calls, hsend, hok, hcycle, hlength, hsome⟩ :=
    sendPvt_cases world (some state.stats.cycles)
  simp only [target, commandErr] at hsend
  simp only [runCycle]
  rw [hsend]
  split_ifs with hfresh hcount hbad hfailed
  · exact .starves (by simpa [Stale] using hfresh) hcount
  · exact .waits (by simpa [Stale] using hfresh) rfl (not_le.mp hcount) rfl
  · exact .skips (by simpa [Stale] using hfresh) (fun good => hbad good.healthy) rfl rfl
  · have hstale : ¬ Stale world state.stats.cycles := by simpa [Stale] using hfresh
    exact .fails (good_of_fresh world hstale (not_not.mp hbad)) (hok.mp (by simpa using hfailed))
  · have hstale : ¬ Stale world state.stats.cycles := by simpa [Stale] using hfresh
    have htrue : ok = true := by simpa using hfailed
    refine .answers (good_of_fresh world hstale (not_not.mp hbad)) ?_ rfl ?_
    · intro hfails
      rw [hok.mpr hfails] at htrue
      cases htrue
    · obtain ⟨call, rest, rfl⟩ := List.exists_cons_of_ne_nil (hsome htrue)
      obtain rfl : rest = [] := by simpa using hlength
      simp only [List.map_append, List.map_singleton, hcycle call List.mem_cons_self]

end Turn

/-! ## The head of the loop -/

/-- No turn so far ended the loop. -/
structure Unbroken (world : World) (state : LoopState) : Prop where
  nextTime : state.nextTime = world.start + state.stats.cycles * commandPeriod
  turns : ∀ k < state.stats.cycles, ¬ Aborts world k
  long : state.consecutiveStale ≤ state.stats.cycles
  row : ∀ k < state.stats.cycles, state.stats.cycles ≤ k + state.consecutiveStale → Stale world k
  sent : state.sent.map Sent.cycle = answered world state.stats.cycles

section Loop

variable {world : World} {deadline : Int} {state : LoopState}

theorem not_aborts_of_not_good {k : Nat} (hbad : ¬ Good world k)
    (hrow : ∀ j, k = j + 2 → ¬ ThreeStale world j) : ¬ Aborts world k := by
  rintro (⟨hk, hthree⟩ | ⟨good, _⟩)
  · exact hrow (k - 2) (by omega) hthree
  · exact hbad good

theorem Unbroken.step (h : Unbroken world state) {next : LoopState}
    (streak : Streak world state.stats.cycles state.consecutiveStale)
    (hrun : runCycle world state = (next, none)) : Unbroken world next := by
  have hlong := h.long
  have hstep := runCycle_step world state
  have hcycles := (runCycle_counts world state).1
  have hnext := runCycle_nextTime world state
  simp only [hrun] at hstep hcycles hnext
  have htime : next.nextTime = world.start + next.stats.cycles * commandPeriod := by
    rw [hnext, hcycles, h.nextTime, Nat.cast_succ, add_mul, one_mul, add_assoc]
  have hturns : ¬ Aborts world state.stats.cycles →
      ∀ k < next.stats.cycles, ¬ Aborts world k := by
    intro hlast k hk
    rcases Nat.lt_succ_iff_lt_or_eq.mp (hcycles ▸ hk) with hlt | rfl
    · exact h.turns k hlt
    · exact hlast
  have hanswered := answered_succ world state.stats.cycles
  cases hstep with
  | waits stale count few' sent =>
      have hbad : goodTurn world state.stats.cycles = false := by
        rw [Bool.eq_false_iff, ne_eq, goodTurn_iff]
        exact fun good => good.fresh world stale
      refine ⟨htime, hturns ?_, by omega, fun k hk hrow => ?_, ?_⟩
      · refine not_aborts_of_not_good (fun good => good.fresh world stale) fun j hj hthree => ?_
        have hle := streak j (by omega) fun i hji hi => hthree.stale hji (by omega)
        simp only [maxConsecutiveStaleFeedback] at few'
        omega
      · rcases Nat.lt_succ_iff_lt_or_eq.mp (hcycles ▸ hk) with hlt | rfl
        · exact h.row k hlt (by omega)
        · exact stale
      · rw [sent, h.sent, hcycles, hanswered, hbad]
        exact (List.append_nil _).symm
  | skips fresh bad count sent =>
      have hbad : goodTurn world state.stats.cycles = false := by
        rw [Bool.eq_false_iff, ne_eq, goodTurn_iff]
        exact bad
      refine ⟨htime, hturns ?_, by omega, fun k hk hrow => by omega, ?_⟩
      · exact not_aborts_of_not_good bad fun j hj hthree => fresh (hj ▸ hthree.2.2)
      · rw [sent, h.sent, hcycles, hanswered, hbad]
        exact (List.append_nil _).symm
  | answers good accepted count sent =>
      have hgood : goodTurn world state.stats.cycles = true := (goodTurn_iff _).mpr good
      refine ⟨htime, hturns ?_, by omega, fun k hk hrow => by omega, ?_⟩
      · rintro (⟨hk, hthree⟩ | ⟨_, hfails⟩)
        · refine good.fresh world ?_
          have hstale := hthree.2.2
          rwa [Nat.sub_add_cancel hk] at hstale
        · exact accepted hfails
      · rw [sent, h.sent, hcycles, hanswered, hgood]
        rfl

/-- The turn that returns is the first that ends the loop. -/
theorem Unbroken.stop (h : Unbroken world state) {next : LoopState} {ok : Bool}
    (hrun : runCycle world state = (next, some ok)) :
    ok = false ∧ next.stats.cycles = state.stats.cycles + 1 ∧
      Aborts world state.stats.cycles := by
  have hstep := runCycle_step world state
  have hcycles := (runCycle_counts world state).1
  have hlong := h.long
  simp only [hrun] at hstep hcycles
  cases hstep with
  | starves stale many =>
      simp only [maxConsecutiveStaleFeedback] at many
      have hfirst := h.row (state.stats.cycles - 2) (by omega) (by omega)
      have hsecond := h.row (state.stats.cycles - 2 + 1) (by omega) (by omega)
      refine ⟨rfl, hcycles, .inl ⟨by omega, hfirst, hsecond, ?_⟩⟩
      rwa [Nat.sub_add_cancel (by omega)]
  | fails good failed => exact ⟨rfl, hcycles, .inr ⟨good, failed⟩⟩

/-- Either the time is over, or a turn ended the loop and none did before it. -/
theorem loop_ends (running : Running world deadline state) (h : Unbroken world state) :
    let result := loop world deadline state
    (result.2 = true ∧ Unbroken world result.1 ∧ Running world deadline result.1 ∧
        deadline < result.1.nextTime + commandPeriod) ∨
      (result.2 = false ∧ ∃ k, Aborts world k ∧ (∀ j < k, ¬ Aborts world j) ∧
        result.1.stats.cycles = k + 1 ∧
        world.start + (k + 1 : Nat) * commandPeriod ≤ deadline) := by
  fun_induction loop world deadline state with
  | case1 state hguard next ok hrun =>
      obtain ⟨rfl, hcycles, haborts⟩ := h.stop hrun
      refine .inr ⟨rfl, _, haborts, h.turns, hcycles, ?_⟩
      rw [h.nextTime] at hguard
      rw [Nat.cast_succ, add_mul, one_mul, ← add_assoc]
      exact hguard
  | case2 state hguard next hrun ih =>
      exact ih (running.step hguard hrun) (h.step running.streak hrun)
  | case3 state hguard => exact .inl ⟨rfl, h, running, not_le.mp hguard⟩

end Loop

/-! ## The whole function -/

/-- The loop returns true exactly when the seed is sent and no turn in its time ends it;
then it has run for all of its periods and sent the seed and one command for every good
turn, and no other. Otherwise it has stopped at the first turn that ends it. -/
theorem pvt_loop_ok_iff (world : World) (runDuration : Int) (totalStats : PvtLoopStats) :
    let outcome := runStablePvtLoop world runDuration totalStats
    let turns := (runDuration / commandPeriod).toNat
    (outcome.ok = true ↔ ¬ SendFails world none ∧ ∀ k < turns, ¬ Aborts world k) ∧
      (outcome.ok = true →
        outcome.stats.cycles = turns ∧ outcome.sent.map Sent.cycle = answered world turns) ∧
      (¬ SendFails world none → outcome.ok = false → ∃ k < turns, Aborts world k ∧
        (∀ j < k, ¬ Aborts world j) ∧ outcome.stats.cycles = k + 1) := by
  intro outcome turns
  obtain ⟨ok, calls, hsend, hok, hcycle, hlength, hsome⟩ := sendPvt_cases world none
  simp only [target, commandErr] at hsend
  cases ok with
  | false =>
      have hfails := hok.mp rfl
      have hfalse : outcome.ok = false := by
        simp only [outcome, runStablePvtLoop]
        rw [hsend]
        rfl
      rw [hfalse]
      exact ⟨⟨by simp, fun h => absurd hfails h.1⟩, by simp, fun h => absurd hfails h⟩
  | true =>
      have hseed : ¬ SendFails world none := fun hfails => absurd (hok.mpr hfails) (by decide)
      obtain ⟨seed, rest, rfl⟩ := List.exists_cons_of_ne_nil (hsome rfl)
      obtain rfl : rest = [] := by simpa using hlength
      let start : LoopState :=
        { nextTime := world.start, stats := { commandsSent := 1 }, sent := [seed] }
      have houtcome : outcome.ok = (loop world (world.start + runDuration) start).2 ∧
          outcome.stats = (loop world (world.start + runDuration) start).1.stats ∧
          outcome.sent = (loop world (world.start + runDuration) start).1.sent := by
        simp only [outcome, runStablePvtLoop]
        rw [hsend]
        exact ⟨rfl, rfl, rfl⟩
      have running : Running world (world.start + runDuration) start := {
        settled := rfl
        nextTime := by simp [start]
        onTime := .inl rfl
        sent := ⟨seed, [], rfl, hcycle seed (List.mem_singleton_self seed), by simp⟩
        streak := fun m hm _ => Nat.zero_le _
        few := Nat.zero_lt_succ 2
        noThree := fun k hk => by simp [start] at hk
        noFailure := fun k hk => by simp [start] at hk }
      have unbroken : Unbroken world start := {
        nextTime := by simp [start]
        turns := fun k hk => by simp [start] at hk
        long := Nat.zero_le _
        row := fun k hk => by simp [start] at hk
        sent := by simp [start, answered, hcycle seed (List.mem_singleton_self seed)] }
      rcases loop_ends running unbroken with
        ⟨htrue, hunbroken, hrunning, hlate⟩ | ⟨hfalse, k, haborts, hfirst, hcycles, hintime⟩
      · have hturns : (loop world (world.start + runDuration) start).1.stats.cycles = turns := by
          have hlate := hunbroken.nextTime ▸ hlate
          have hearly := hrunning.onTime
          rw [hunbroken.nextTime] at hearly
          simp only [commandPeriod] at hlate hearly
          simp only [turns, commandPeriod]
          omega
        refine ⟨⟨fun _ => ⟨hseed, hturns ▸ hunbroken.turns⟩, fun _ => houtcome.1.trans htrue⟩,
          fun _ => ⟨?_, ?_⟩, fun _ hfalse => ?_⟩
        · rw [houtcome.2.1, hturns]
        · rw [houtcome.2.2, hunbroken.sent, hturns]
        · rw [houtcome.1, htrue] at hfalse
          cases hfalse
      · have hturns : k < turns := by
          simp only [turns, commandPeriod] at hintime ⊢
          omega
        rw [houtcome.1, hfalse]
        refine ⟨⟨by simp, fun h => absurd haborts (h.2 k hturns)⟩, by simp, fun _ _ => ?_⟩
        exact ⟨k, hturns, haborts, hfirst, houtcome.2.1 ▸ hcycles⟩

end ServoFleet.PvtControl
