import ServoFleet.Theory.Machine

/-!
A bounded first-in first-out queue as a machine over a list. It conserves its
values: what it held and what was accepted since is what was given out since and
what it holds, in one order.
-/

namespace BoundedFifo

variable {α : Type}

/-- A request to take something out brings what its output argument holds. -/
inductive Request (α : Type) where
  | push (value : α)
  | pop (out : α)
  | size

inductive Answer (α : Type) where
  | pushed (accepted : Bool)
  | popped (found : Bool) (out : α)
  | size (count : Nat)
  deriving DecidableEq, Repr

def step (capacity : Nat) (contents : List α) : Request α → List α × Answer α
  | .push value =>
      if contents.length = capacity then (contents, .pushed false)
      else (contents ++ [value], .pushed true)
  | .pop out =>
      match contents with
      | [] => ([], .popped false out)
      | first :: rest => (rest, .popped true first)
  | .size => (contents, .size contents.length)

/-- The value that an answered request brought in. -/
def entered : Request α × Answer α → Option α
  | (.push value, .pushed true) => some value
  | _ => none

/-- The value that an answer gave out. -/
def left : Answer α → Option α
  | .popped true value => some value
  | _ => none

variable (capacity : Nat)

theorem step_length {contents : List α} (request : Request α) (h : contents.length ≤ capacity) :
    (step capacity contents request).1.length ≤ capacity := by
  cases request with
  | push value =>
      rw [step]
      split_ifs with hfull
      · exact h
      · rw [List.length_append, List.length_singleton]
        omega
  | pop out =>
      cases contents with
      | nil => exact h
      | cons first rest => exact Nat.le_of_succ_le h
  | size => exact h

theorem run_length (contents : List α) (requests : List (Request α))
    (h : contents.length ≤ capacity) :
    (Machine.run (step capacity) contents requests).1.length ≤ capacity :=
  Machine.run_invariant (P := fun contents : List α => contents.length ≤ capacity)
    (fun _ request => step_length capacity request) h requests

theorem step_conserves (contents : List α) (request : Request α) :
    let (next, answer) := step capacity contents request
    contents ++ (entered (request, answer)).toList = (left answer).toList ++ next := by
  cases request with
  | push value =>
      simp only [step]
      split_ifs with hfull
      · exact List.append_nil contents
      · rfl
  | pop out =>
      cases contents with
      | nil => rfl
      | cons first rest => exact List.append_nil (first :: rest)
  | size => exact List.append_nil contents

private theorem filterMap_head {β γ : Type} (f : β → Option γ) (b : β) (bs : List β) :
    (b :: bs).filterMap f = (f b).toList ++ bs.filterMap f := by
  rw [List.filterMap_cons]
  cases f b <;> rfl

/-- Nothing is lost, duplicated or put in another order over a run. -/
theorem run_conserves (contents : List α) (requests : List (Request α)) :
    let (final, answers) := Machine.run (step capacity) contents requests
    contents ++ (requests.zip answers).filterMap entered = answers.filterMap left ++ final := by
  induction requests generalizing contents with
  | nil => exact List.append_nil contents
  | cons request rest ih =>
      have hrest := ih (step capacity contents request).1
      have hstep := step_conserves capacity contents request
      simp only at hrest hstep
      simp only [Machine.run_cons, List.zip_cons_cons]
      rw [filterMap_head, filterMap_head, ← List.append_assoc, hstep, List.append_assoc, hrest,
        List.append_assoc]

end BoundedFifo
