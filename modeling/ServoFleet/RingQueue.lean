import Mathlib.Data.List.Rotate
import Mathlib.Data.Nat.ModEq

/-!
The ring queue of the send path and the list it stands for. Its mutex makes each
operation one step, so an operation is a function of the queue.
-/

namespace ServoFleet

/-- `fixed_ring_queue`. Head and tail index the storage, and the count tells how
far the tail is ahead. -/
structure FixedRingQueue (α : Type) (capacity : Nat) where
  storage : Vector α capacity
  head : Nat
  tail : Nat
  count : Nat
  count_le : count ≤ capacity
  head_lt : 0 < capacity → head < capacity
  tail_eq : 0 < capacity → tail = (head + count) % capacity

namespace FixedRingQueue

variable {α : Type} {capacity : Nat}

/-- The constructor. -/
def init (capacity : Nat) (value : α) : FixedRingQueue α capacity where
  storage := Vector.replicate capacity value
  head := 0
  tail := 0
  count := 0
  count_le := Nat.zero_le capacity
  head_lt := id
  tail_eq := fun h => (Nat.mod_eq_of_lt h).symm

/-- `next`; an index past the last one is zero. -/
def next (capacity index : Nat) : Nat := if index + 1 = capacity then 0 else index + 1

theorem next_eq {index : Nat} (h : index < capacity) :
    next capacity index = (index + 1) % capacity := by
  rw [next]
  split_ifs with hlast
  · rw [hlast, Nat.mod_self]
  · exact (Nat.mod_eq_of_lt (by omega)).symm

theorem tail_lt (queue : FixedRingQueue α capacity) (h : queue.count ≠ capacity) :
    queue.tail < capacity := by
  have hpos : 0 < capacity := by
    have := queue.count_le
    omega
  rw [queue.tail_eq hpos]
  exact Nat.mod_lt _ hpos

theorem head_lt_of_count (queue : FixedRingQueue α capacity) (h : queue.count ≠ 0) :
    queue.head < capacity := by
  have := queue.count_le
  exact queue.head_lt (by omega)

def tryPush (value : α) (queue : FixedRingQueue α capacity) : Bool × FixedRingQueue α capacity :=
  if hfull : queue.count = capacity then (false, queue)
  else (true, {
    storage := queue.storage.set queue.tail value (queue.tail_lt hfull)
    head := queue.head
    tail := next capacity queue.tail
    count := queue.count + 1
    count_le := Nat.lt_of_le_of_ne queue.count_le hfull
    head_lt := queue.head_lt
    tail_eq := fun h => by
      rw [next_eq (queue.tail_lt hfull), queue.tail_eq h, Nat.mod_add_mod, Nat.add_assoc] })

/-- `try_pop`, given what its output argument holds. -/
def tryPop (value : α) (queue : FixedRingQueue α capacity) :
    Bool × α × FixedRingQueue α capacity :=
  if hempty : queue.count = 0 then (false, value, queue)
  else
    have hhead : queue.head < capacity := queue.head_lt_of_count hempty
    (true, queue.storage[queue.head], {
      storage := queue.storage
      head := next capacity queue.head
      tail := queue.tail
      count := queue.count - 1
      count_le := Nat.le_trans (Nat.sub_le _ _) queue.count_le
      head_lt := fun h => by
        rw [next_eq hhead]
        exact Nat.mod_lt _ h
      tail_eq := fun h => by
        rw [next_eq hhead, Nat.mod_add_mod, queue.tail_eq h]
        congr 1
        omega })

def size (queue : FixedRingQueue α capacity) : Nat := queue.count

/-! ## The list -/

/-- The values in the queue, in the order in which they went in. -/
def toList (queue : FixedRingQueue α capacity) : List α :=
  (queue.storage.toList.rotate queue.head).take queue.count

variable (queue : FixedRingQueue α capacity)

theorem length_toList : queue.toList.length = queue.count := by
  rw [toList, List.length_take, List.length_rotate, Vector.length_toList]
  exact Nat.min_eq_left queue.count_le

theorem toList_eq_nil : queue.toList = [] ↔ queue.count = 0 := by
  rw [← List.length_eq_zero_iff, length_toList]

/-- The value at a place of the list is the one that many cells after the head. -/
theorem getElem?_toList (i : Nat) (h : i < queue.count) :
    queue.toList[i]? = queue.storage.toList[(queue.head + i) % capacity]? := by
  have hcap := queue.count_le
  rw [toList, List.getElem?_take_of_lt h,
    List.getElem?_rotate (by simp only [Vector.length_toList]; omega), Vector.length_toList,
    Nat.add_comm]

/-- A free cell is not one of those in use. -/
private theorem cell_ne_tail {i : Nat} (h : i < queue.count) (hfull : queue.count ≠ capacity) :
    queue.tail ≠ (queue.head + i) % capacity := by
  have hcap := queue.count_le
  rw [queue.tail_eq (by omega)]
  intro hsame
  have hmod : Nat.ModEq capacity queue.count i := Nat.ModEq.add_left_cancel' queue.head hsame
  exact Nat.ne_of_gt h (hmod.eq_of_lt_of_lt (by omega) (by omega))

/-- A push fails on a full queue and else puts the value last. -/
theorem tryPush_cases (value : α) :
    (queue.toList.length = capacity ∧ queue.tryPush value = (false, queue)) ∨
    (queue.toList.length < capacity ∧ ∃ pushed, queue.tryPush value = (true, pushed) ∧
      pushed.toList = queue.toList ++ [value]) := by
  have hcap := queue.count_le
  rw [length_toList]
  by_cases hfull : queue.count = capacity
  · exact .inl ⟨hfull, dif_pos hfull⟩
  · refine .inr ⟨by omega, _, dif_neg hfull, ?_⟩
    apply List.ext_getElem?
    intro i
    rcases Nat.lt_trichotomy i queue.count with hlt | rfl | hgt
    · rw [getElem?_toList _ i (Nat.lt_succ_of_lt hlt),
        List.getElem?_append_left (by rwa [length_toList]), getElem?_toList _ i hlt]
      rw [Vector.toList_set, List.getElem?_set_ne (queue.cell_ne_tail hlt hfull)]
    · have hlast : (queue.toList ++ [value])[queue.count]? = some value := by
        rw [← length_toList]
        exact List.getElem?_concat_length
      rw [getElem?_toList _ _ (Nat.lt_succ_self _), hlast]
      simp only [← queue.tail_eq (by omega : 0 < capacity)]
      rw [Vector.toList_set,
        List.getElem?_set_self (by rw [Vector.length_toList]; exact queue.tail_lt hfull)]
    · rw [List.getElem?_eq_none (by rw [length_toList]; exact hgt),
        List.getElem?_eq_none (by rw [List.length_append, length_toList]; exact hgt)]

/-- A pop fails on an empty queue, leaving its output alone, and else takes the first value. -/
theorem tryPop_cases (value : α) :
    (queue.toList = [] ∧ queue.tryPop value = (false, value, queue)) ∨
    ∃ first rest popped, queue.toList = first :: rest ∧
      queue.tryPop value = (true, first, popped) ∧ popped.toList = rest := by
  by_cases hempty : queue.count = 0
  · exact .inl ⟨queue.toList_eq_nil.mpr hempty, dif_pos hempty⟩
  · refine .inr ⟨_, _, _, ?_, dif_neg hempty, rfl⟩
    have hhead := queue.head_lt_of_count hempty
    apply List.ext_getElem?
    intro i
    cases i with
    | zero =>
        rw [getElem?_toList _ 0 (by omega), Nat.add_zero, Nat.mod_eq_of_lt hhead,
          List.getElem?_cons_zero, ← Vector.getElem_toList,
          List.getElem?_eq_getElem (by rwa [Vector.length_toList])]
    | succ i =>
        rw [List.getElem?_cons_succ]
        by_cases hlt : i + 1 < queue.count
        · rw [getElem?_toList _ _ hlt, getElem?_toList _ i (Nat.lt_sub_of_add_lt hlt)]
          simp only
          rw [next_eq hhead, Nat.mod_add_mod, Nat.add_assoc, Nat.add_comm 1 i]
        · rw [List.getElem?_eq_none (by rw [length_toList]; omega),
            List.getElem?_eq_none (by rw [length_toList]; simp only; omega)]

end FixedRingQueue

end ServoFleet
