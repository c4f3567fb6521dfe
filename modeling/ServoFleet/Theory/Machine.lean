import Mathlib.Data.List.Basic

/-!
Machines that answer every request. A run collects the answers; what each step
keeps holds at its end, and two machines whose steps agree answer alike.
-/

namespace Machine

variable {σ τ ι ο : Type} (step : σ → ι → σ × ο)

/-- The state after some requests, one after the other, and the answers to them. -/
def run (s : σ) : List ι → σ × List ο
  | [] => (s, [])
  | request :: rest =>
      let (next, answer) := step s request
      let (final, answers) := run next rest
      (final, answer :: answers)

variable {step}

theorem run_cons (s : σ) (request : ι) (rest : List ι) :
    run step s (request :: rest) = ((run step (step s request).1 rest).1,
      (step s request).2 :: (run step (step s request).1 rest).2) := rfl

/-- What every step preserves holds at the end of a run. -/
theorem run_invariant {P : σ → Prop} (hstep : ∀ s request, P s → P (step s request).1)
    {s : σ} (hs : P s) (requests : List ι) : P (run step s requests).1 := by
  induction requests generalizing s with
  | nil => exact hs
  | cons request rest ih => exact ih (hstep s request hs)

/-- A relation that the steps of two machines keep while they answer alike makes
the answers of their runs the same. -/
theorem run_simulates {step' : τ → ι → τ × ο} {R : σ → τ → Prop}
    (hstep : ∀ s t request, R s t →
      (step s request).2 = (step' t request).2 ∧ R (step s request).1 (step' t request).1)
    {s : σ} {t : τ} (h : R s t) (requests : List ι) :
    (run step s requests).2 = (run step' t requests).2 ∧
      R (run step s requests).1 (run step' t requests).1 := by
  induction requests generalizing s t with
  | nil => exact ⟨rfl, h⟩
  | cons request rest ih =>
      obtain ⟨hanswer, hnext⟩ := hstep s t request h
      obtain ⟨hanswers, hfinal⟩ := ih hnext
      exact ⟨congrArg₂ List.cons hanswer hanswers, hfinal⟩

end Machine
