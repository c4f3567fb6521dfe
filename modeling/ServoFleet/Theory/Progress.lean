import Mathlib.Data.List.Basic
import ServoFleet.Theory.Steps

/-!
Progress of one part of a system whose other parts step in between. A rank that
no step raises and that each step of the part lowers bounds the steps the part
still takes; if besides the part can step until it is done, it gets done.
-/

namespace Steps

variable {σ α : Type}

/-- A rank for the actions that `counts` selects, on the states of an invariant. -/
structure Ranking (step : σ → α → Option σ) (P : σ → Prop) (counts : α → Bool)
    (rank : σ → Nat) : Prop where
  keeps : ∀ s action next, P s → step s action = some next → P next
  holds : ∀ s action next, P s → step s action = some next → rank next ≤ rank s
  lowers : ∀ s action next, P s → counts action = true → step s action = some next →
    rank next < rank s

namespace Ranking

variable {step : σ → α → Option σ} {P : σ → Prop} {counts : α → Bool} {rank : σ → Nat}

theorem run_keeps (ranking : Ranking step P counts rank) {s final : σ} {actions : List α}
    (hrun : run step s actions = some final) (hs : P s) : P final :=
  run_invariant ranking.keeps hrun hs

/-- The steps that count are paid by the rank. -/
theorem run_count (ranking : Ranking step P counts rank) {s final : σ} {actions : List α}
    (hrun : run step s actions = some final) (hs : P s) :
    actions.countP counts + rank final ≤ rank s := by
  induction actions generalizing s with
  | nil =>
      obtain rfl := Option.some.inj hrun
      simp
  | cons action rest ih =>
      rw [run_cons, Option.bind_eq_some_iff] at hrun
      obtain ⟨next, htaken, hrest⟩ := hrun
      have hcount := ih hrest (ranking.keeps s action next hs htaken)
      rw [List.countP_cons]
      cases hcounts : counts action with
      | false =>
          have hholds := ranking.holds s action next hs htaken
          rw [if_neg Bool.false_ne_true]
          omega
      | true =>
          have hlowers := ranking.lowers s action next hs hcounts htaken
          rw [if_pos rfl]
          omega

/-- A part that can step until it is done gets done by steps of its own. -/
theorem drains (ranking : Ranking step P counts rank) {done : σ → Prop}
    (goesOn : ∀ s, P s → ¬ done s → ∃ action, counts action = true ∧ (step s action).isSome)
    {s : σ} (hs : P s) :
    ∃ actions final, run step s actions = some final ∧ (∀ action ∈ actions, counts action = true) ∧
      actions.length ≤ rank s ∧ done final := by
  induction hrank : rank s using Nat.strongRecOn generalizing s with
  | ind bound ih =>
      by_cases hdone : done s
      · exact ⟨[], s, rfl, nofun, Nat.zero_le _, hdone⟩
      · obtain ⟨action, hcounts, htaken⟩ := goesOn s hs hdone
        obtain ⟨next, htaken⟩ := Option.isSome_iff_exists.mp htaken
        have hlowers := ranking.lowers s action next hs hcounts htaken
        obtain ⟨actions, final, hrun, hall, hlength, hfinal⟩ :=
          ih (rank next) (hrank ▸ hlowers) (ranking.keeps s action next hs htaken) rfl
        refine ⟨action :: actions, final, ?_, ?_, ?_, hfinal⟩
        · rw [run_cons, htaken]
          exact hrun
        · exact List.forall_mem_cons.mpr ⟨hcounts, hall⟩
        · rw [List.length_cons]
          omega

end Ranking

end Steps
