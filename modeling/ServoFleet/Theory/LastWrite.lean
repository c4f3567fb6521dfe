import Mathlib.Data.List.Basic

/-!
Registers of a fold: an event writes a register or leaves it alone, so that the
register shows what the latest writer wrote, whatever else happened since.
-/

namespace LastWrite

variable {σ ε β : Type*}

/-- `view` is a register of the states that `step` goes through. `Counts n s` says
that `s` has taken `n` events, and `written n event` is what the event writes as
the `n`-th one. -/
structure Register (step : σ → ε → σ) (Counts : Nat → σ → Prop) (view : σ → β)
    (written : Nat → ε → Option β) : Prop where
  counts : ∀ {n : Nat} {s : σ} (event : ε), Counts n s → Counts (n + 1) (step s event)
  view_step : ∀ {n : Nat} {s : σ} (event : ε), Counts n s →
    view (step s event) = (written (n + 1) event).getD (view s)

/-- A list has no member with a property, or a last one. -/
theorem last_cases (p : ε → Prop) (events : List ε) :
    (∀ event ∈ events, ¬ p event) ∨
      ∃ before event after, events = before ++ event :: after ∧ p event ∧
        ∀ later ∈ after, ¬ p later := by
  induction events with
  | nil => exact .inl fun _ member => absurd member List.not_mem_nil
  | cons first rest ih =>
      rcases ih with hnone | ⟨before, event, after, rfl, hevent, hafter⟩
      · by_cases hfirst : p first
        · exact .inr ⟨[], first, rest, rfl, hfirst, hnone⟩
        · exact .inl (List.forall_mem_cons.mpr ⟨hfirst, hnone⟩)
      · exact .inr ⟨first :: before, event, after, rfl, hevent, hafter⟩

namespace Register

variable {step : σ → ε → σ} {Counts : Nat → σ → Prop} {view : σ → β}
  {written : Nat → ε → Option β} {n : Nat} {s : σ}

theorem counts_foldl (register : Register step Counts view written) (events : List ε)
    (hs : Counts n s) : Counts (n + events.length) (events.foldl step s) := by
  induction events generalizing n s with
  | nil => exact hs
  | cons first rest ih =>
      have hrest := ih (register.counts first hs)
      rwa [Nat.add_right_comm, Nat.add_assoc] at hrest

/-- Events that write nothing leave the register as it was. -/
theorem view_silent (register : Register step Counts view written) (events : List ε)
    (hs : Counts n s) (hsilent : ∀ event ∈ events, ∀ k, written k event = none) :
    view (events.foldl step s) = view s := by
  induction events generalizing n s with
  | nil => rfl
  | cons first rest ih =>
      obtain ⟨hfirst, hrest⟩ := List.forall_mem_cons.mp hsilent
      rw [List.foldl_cons, ih (register.counts first hs) hrest, register.view_step first hs,
        hfirst, Option.getD_none]

/-- The latest writer decides. -/
theorem view_last (register : Register step Counts view written) (before after : List ε)
    (event : ε) (value : β) (hs : Counts n s)
    (hwrites : written (n + before.length + 1) event = some value)
    (hsilent : ∀ later ∈ after, ∀ k, written k later = none) :
    view ((before ++ event :: after).foldl step s) = value := by
  have hbefore := register.counts_foldl before hs
  rw [List.foldl_append, List.foldl_cons,
    register.view_silent after (register.counts event hbefore) hsilent,
    register.view_step event hbefore, hwrites, Option.getD_some]

end Register

end LastWrite
