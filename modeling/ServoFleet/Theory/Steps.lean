import Mathlib.Logic.Basic

/-!
Systems given by a partial step function: an action that is not possible in a
state has no next state. Runs, and the invariant rule for them.
-/

namespace Steps

variable {σ α : Type} (step : σ → α → Option σ)

/-- The state after some actions, one after the other. -/
def run (s : σ) (actions : List α) : Option σ := actions.foldlM step s

/-- A run each of whose steps is allowed in the state it is taken in. -/
inductive Along (ok : σ → α → Prop) : σ → List α → σ → Prop where
  | nil (s : σ) : Along ok s [] s
  | cons {s next final : σ} {action : α} {rest : List α} (allowed : ok s action)
      (taken : step s action = some next) (run : Along ok next rest final) :
      Along ok s (action :: rest) final

variable {step}

theorem run_cons (s : σ) (action : α) (rest : List α) :
    run step s (action :: rest) = (step s action).bind fun next => run step next rest := rfl

theorem run_append (s : σ) (actions rest : List α) :
    run step s (actions ++ rest) = (run step s actions).bind fun mid => run step mid rest :=
  List.foldlM_append

/-- A run whose actions are allowed in every state. -/
theorem along_of_run_ok {ok : α → Prop} {s final : σ} {actions : List α}
    (hok : ∀ action ∈ actions, ok action) (h : run step s actions = some final) :
    Along step (fun _ action => ok action) s actions final := by
  induction actions generalizing s with
  | nil =>
      obtain rfl := Option.some.inj h
      exact .nil s
  | cons action rest ih =>
      rw [run_cons, Option.bind_eq_some_iff] at h
      obtain ⟨next, hstep, hrest⟩ := h
      exact .cons (hok action List.mem_cons_self) hstep
        (ih (fun later hlater => hok later (List.mem_cons_of_mem _ hlater)) hrest)

theorem along_of_run {s final : σ} {actions : List α} (h : run step s actions = some final) :
    Along step (fun _ _ => True) s actions final :=
  along_of_run_ok (fun _ _ => trivial) h

/-- A run goes on where another ended. -/
theorem Along.append {ok : σ → α → Prop} {s mid final : σ} {actions rest : List α}
    (h : Along step ok s actions mid) (hrest : Along step ok mid rest final) :
    Along step ok s (actions ++ rest) final := by
  induction h with
  | nil s => exact hrest
  | cons allowed taken _ ih => exact .cons allowed taken (ih hrest)

theorem Along.single {ok : σ → α → Prop} {s next : σ} {action : α} (allowed : ok s action)
    (taken : step s action = some next) : Along step ok s [action] next :=
  .cons allowed taken (.nil next)

/-- What every allowed step preserves holds at the end of an allowed run. -/
theorem Along.invariant {ok : σ → α → Prop} {P : σ → Prop}
    (hstep : ∀ s action next, P s → ok s action → step s action = some next → P next)
    {s final : σ} {actions : List α} (h : Along step ok s actions final) (hs : P s) : P final := by
  induction h with
  | nil s => exact hs
  | cons allowed taken _ ih => exact ih (hstep _ _ _ hs allowed taken)

/-- What every step preserves holds at the end of a run. -/
theorem run_invariant {P : σ → Prop}
    (hstep : ∀ s action next, P s → step s action = some next → P next)
    {s final : σ} {actions : List α} (h : run step s actions = some final) (hs : P s) : P final :=
  (along_of_run h).invariant (fun s action next hP _ => hstep s action next hP) hs

end Steps
