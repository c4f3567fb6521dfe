import ServoFleet.RingQueue
import ServoFleet.Theory.BoundedFifo

/-!
The ring queue is a bounded first-in first-out queue. Under any requests from its
construction on it answers as the list it stands for, and its indices stay inside
the storage, also where the storage has no cell or a single one.

The calls are taken one after the other, as the lock of the queue makes them.
-/

namespace ServoFleet.FixedRingQueue

open BoundedFifo

variable {α : Type} {capacity : Nat}

/-- One call of the queue. -/
def serve (queue : FixedRingQueue α capacity) :
    Request α → FixedRingQueue α capacity × Answer α
  | .push value =>
      let (accepted, next) := queue.tryPush value
      (next, .pushed accepted)
  | .pop out =>
      let (found, out, next) := queue.tryPop out
      (next, .popped found out)
  | .size => (queue, .size queue.size)

/-- Head, tail and count of a queue that indexes its storage; a queue without
storage has no use for the first two. -/
structure Inside (queue : FixedRingQueue α capacity) : Prop where
  count : queue.count ≤ capacity
  head : 0 < capacity → queue.head < capacity
  tail : 0 < capacity → queue.tail < capacity
  empty : capacity = 0 → queue.head = 0 ∧ queue.tail = 0

/-! ## One call -/

section Calls

variable (queue : FixedRingQueue α capacity)

theorem tryPush_fails_iff (value : α) :
    (queue.tryPush value).1 = false ↔ queue.toList.length = capacity := by
  rcases queue.tryPush_cases value with ⟨hfull, hpush⟩ | ⟨hroom, pushed, hpush, _⟩
  · rw [hpush]
    exact iff_of_true rfl hfull
  · rw [hpush]
    exact iff_of_false Bool.noConfusion (Nat.ne_of_lt hroom)

theorem tryPush_failed (value : α) (h : (queue.tryPush value).1 = false) :
    queue.tryPush value = (false, queue) := by
  rcases queue.tryPush_cases value with ⟨_, hpush⟩ | ⟨_, pushed, hpush, _⟩
  · exact hpush
  · rw [hpush] at h
    cases h

theorem tryPop_fails_iff (out : α) : (queue.tryPop out).1 = false ↔ queue.toList = [] := by
  rcases queue.tryPop_cases out with ⟨hempty, hpop⟩ | ⟨first, rest, popped, hlist, hpop, _⟩
  · rw [hpop]
    exact iff_of_true rfl hempty
  · rw [hpop, hlist]
    exact iff_of_false Bool.noConfusion (List.cons_ne_nil first rest)

theorem tryPop_failed (out : α) (h : (queue.tryPop out).1 = false) :
    queue.tryPop out = (false, out, queue) := by
  rcases queue.tryPop_cases out with ⟨_, hpop⟩ | ⟨_, _, popped, _, hpop, _⟩
  · exact hpop
  · rw [hpop] at h
    cases h

/-- A call answers as the list does and leaves the queue of the list behind it. -/
theorem serve_refines (request : Request α) :
    (queue.serve request).2 = (step capacity queue.toList request).2 ∧
      (queue.serve request).1.toList = (step capacity queue.toList request).1 := by
  cases request with
  | push value =>
      rcases queue.tryPush_cases value with ⟨hfull, hpush⟩ | ⟨hroom, pushed, hpush, hlist⟩
      · rw [serve, hpush, step, if_pos hfull]
        exact ⟨rfl, rfl⟩
      · rw [serve, hpush, step, if_neg (Nat.ne_of_lt hroom)]
        exact ⟨rfl, hlist⟩
  | pop out =>
      rcases queue.tryPop_cases out with ⟨hempty, hpop⟩ | ⟨first, rest, popped, hlist, hpop, hrest⟩
      · rw [serve, hpop, hempty]
        exact ⟨rfl, rfl⟩
      · rw [serve, hpop, hlist]
        exact ⟨rfl, hrest⟩
  | size => exact ⟨congrArg Answer.size queue.length_toList.symm, rfl⟩

/-- Without storage no call succeeds. -/
theorem serve_noStorage (request : Request α) (hcapacity : capacity = 0) :
    (queue.serve request).1 = queue := by
  have hcount : queue.count = 0 := Nat.le_zero.mp (hcapacity ▸ queue.count_le)
  cases request with
  | push value =>
      have hfull : queue.count = capacity := hcount.trans hcapacity.symm
      rw [serve, tryPush, dif_pos hfull]
  | pop out => rw [serve, tryPop, dif_pos hcount]
  | size => rfl

end Calls

/-! ## Runs -/

/-- The queue after some calls on a new one, and what they returned. -/
def served (capacity : Nat) (value : α) (requests : List (Request α)) :
    FixedRingQueue α capacity × List (Answer α) :=
  Machine.run serve (init capacity value) requests

theorem init_toList (value : α) : (init capacity value).toList = [] := List.take_zero

theorem served_refines (capacity : Nat) (value : α) (requests : List (Request α)) :
    (served capacity value requests).2 = (Machine.run (step capacity) [] requests).2 ∧
      (served capacity value requests).1.toList = (Machine.run (step capacity) [] requests).1 := by
  have hstep : ∀ (queue : FixedRingQueue α capacity) (contents : List α) (request : Request α),
      queue.toList = contents →
        (queue.serve request).2 = (step capacity contents request).2 ∧
          (queue.serve request).1.toList = (step capacity contents request).1 := by
    rintro queue _ request rfl
    exact queue.serve_refines request
  exact Machine.run_simulates hstep (init_toList value) requests

theorem served_inside (capacity : Nat) (value : α) (requests : List (Request α)) :
    (served capacity value requests).1.Inside where
  count := (served capacity value requests).1.count_le
  head := (served capacity value requests).1.head_lt
  tail h := by
    rw [(served capacity value requests).1.tail_eq h]
    exact Nat.mod_lt _ h
  empty hcapacity := by
    have hsame : (served capacity value requests).1 = init capacity value := by
      refine Machine.run_invariant (P := fun queue => queue = init capacity value) ?_ rfl requests
      rintro queue request rfl
      exact serve_noStorage _ request hcapacity
    rw [hsame]
    exact ⟨rfl, rfl⟩

/-- The queue refines the bounded list over every sequence of calls: the same answers,
which fail exactly at the bounds and then change nothing, every value out once and in the
order in which it went in, and no index outside the storage. -/
theorem refines_boundedFifo (capacity : Nat) (value : α) (requests : List (Request α)) :
    let (queue, answers) := served capacity value requests
    let (contents, results) := Machine.run (step capacity) [] requests
    answers = results ∧ queue.toList = contents ∧ contents.length ≤ capacity ∧
      (∀ pushing, ((queue.tryPush pushing).1 = false ↔ contents.length = capacity) ∧
        ((queue.tryPush pushing).1 = false → (queue.tryPush pushing).2 = queue)) ∧
      (∀ out, ((queue.tryPop out).1 = false ↔ contents = []) ∧
        ((queue.tryPop out).1 = false → (queue.tryPop out).2 = (out, queue))) ∧
      queue.size = contents.length ∧
      (requests.zip answers).filterMap entered = answers.filterMap left ++ contents ∧
      queue.Inside := by
  obtain ⟨hanswers, hlist⟩ := served_refines capacity value requests
  have hinside := served_inside capacity value requests
  have hconserves := run_conserves capacity [] requests
  have hbound := run_length capacity [] requests (Nat.zero_le capacity)
  generalize served capacity value requests = outcome at hanswers hlist hinside
  generalize Machine.run (step capacity) [] requests = expected at hanswers hlist hconserves hbound
  obtain ⟨queue, answers⟩ := outcome
  obtain ⟨contents, results⟩ := expected
  obtain rfl : answers = results := hanswers
  obtain rfl : queue.toList = contents := hlist
  refine ⟨rfl, rfl, hbound, fun pushing => ⟨queue.tryPush_fails_iff pushing, fun h => ?_⟩,
    fun out => ⟨queue.tryPop_fails_iff out, fun h => ?_⟩, queue.length_toList.symm, hconserves,
    hinside⟩
  · rw [queue.tryPush_failed pushing h]
  · rw [queue.tryPop_failed out h]

end ServoFleet.FixedRingQueue
