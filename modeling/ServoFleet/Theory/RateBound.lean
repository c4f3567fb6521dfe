import Mathlib.Algebra.Order.Field.Basic
import Mathlib.Algebra.BigOperators.Group.List.Basic
import Mathlib.Tactic.Linarith

/-!
Bounds on what a meter hands out. A meter has a balance and a clock; an event moves the
clock on and may grant an amount. If the balance grows no faster than the rate and
never lets more than the cap through at once, then every window of grants is bounded
by the cap and what accrues while the window lasts.
-/

namespace RateBound

variable {K σ ε : Type*} [Field K]

/-- An amount, and the clock when it was granted. -/
structure Grant (K : Type*) where
  amount : K
  time : K
  deriving DecidableEq

def total (grants : List (Grant K)) : K := (grants.map Grant.amount).sum

theorem total_nil : total ([] : List (Grant K)) = 0 := rfl

theorem total_cons (grant : Grant K) (rest : List (Grant K)) :
    total (grant :: rest) = grant.amount + total rest := List.sum_cons

/-- The grants of some events, one after the other. -/
def grants (step : σ → ε → σ) (granted : σ → ε → Option K) (clock : σ → K) :
    σ → List ε → List (Grant K)
  | _, [] => []
  | s, event :: rest =>
      match granted s event with
      | some amount =>
          { amount, time := clock (step s event) } ::
            grants step granted clock (step s event) rest
      | none => grants step granted clock (step s event) rest

variable [LinearOrder K]

/-- The laws of a meter, for the states that `Good` keeps to. -/
structure Meter (step : σ → ε → σ) (granted : σ → ε → Option K) (balance clock : σ → K)
    (cap rate : K) (Good : σ → Prop) : Prop where
  good : ∀ {s : σ} (event : ε), Good s → Good (step s event)
  nonneg : ∀ {s : σ}, Good s → 0 ≤ balance s
  accrues : ∀ {s : σ} (event : ε), Good s → balance (step s event) + (granted s event).getD 0 ≤
    balance s + rate * (clock (step s event) - clock s)
  capped : ∀ {s : σ} (event : ε) (amount : K), Good s → granted s event = some amount →
    balance (step s event) + amount ≤ cap

namespace Meter

variable {step : σ → ε → σ} {granted : σ → ε → Option K} {balance clock : σ → K} {cap rate : K}
  {Good : σ → Prop} {s : σ}

theorem foldl_good (meter : Meter step granted balance clock cap rate Good) (events : List ε)
    (hs : Good s) : Good (events.foldl step s) := by
  induction events generalizing s with
  | nil => exact hs
  | cons event rest ih => exact ih (meter.good event hs)

variable [IsStrictOrderedRing K]

/-- The first grants are paid by the balance and what accrues until the last of them. -/
theorem total_le_balance (meter : Meter step granted balance clock cap rate Good)
    (events : List ε) (hs : Good s) (window after : List (Grant K)) (last : Grant K)
    (hgrants : grants step granted clock s events = window ++ after)
    (hlast : window.getLast? = some last) :
    total window ≤ balance s + rate * (last.time - clock s) := by
  induction events generalizing s window with
  | nil =>
      obtain ⟨rfl, _⟩ := List.nil_eq_append_iff.mp hgrants
      cases hlast
  | cons event rest ih =>
      have haccrues := meter.accrues event hs
      cases hgranted : granted s event with
      | none =>
          simp only [grants, hgranted] at hgrants
          rw [hgranted, Option.getD_none] at haccrues
          have hrest := ih (meter.good event hs) window hgrants hlast
          linarith
      | some amount =>
          simp only [grants, hgranted] at hgrants
          rw [hgranted, Option.getD_some] at haccrues
          cases window with
          | nil => cases hlast
          | cons grant window =>
              obtain ⟨rfl, hrest⟩ := List.cons.inj hgrants
              rw [total_cons]
              cases window with
              | nil =>
                  rw [List.getLast?_singleton] at hlast
                  obtain rfl := Option.some.inj hlast
                  have hnonneg := meter.nonneg (meter.good event hs)
                  dsimp only
                  rw [total_nil]
                  linarith
              | cons next window =>
                  have htail := ih (meter.good event hs) (next :: window) hrest hlast
                  linarith

/-- From a grant to a later one no more goes out than the cap and what accrues. -/
theorem total_window (meter : Meter step granted balance clock cap rate Good)
    (events : List ε) (hs : Good s) (before window after : List (Grant K)) (first last : Grant K)
    (hgrants : grants step granted clock s events = before ++ (first :: window) ++ after)
    (hlast : (first :: window).getLast? = some last) :
    total (first :: window) ≤ cap + rate * (last.time - first.time) := by
  induction events generalizing s before with
  | nil => simp [grants] at hgrants
  | cons event rest ih =>
      cases hgranted : granted s event with
      | none =>
          simp only [grants, hgranted] at hgrants
          exact ih (meter.good event hs) before hgrants
      | some amount =>
          simp only [grants, hgranted] at hgrants
          cases before with
          | cons earlier before =>
              exact ih (meter.good event hs) before (List.cons.inj hgrants).2
          | nil =>
              obtain ⟨rfl, hrest⟩ := List.cons.inj hgrants
              have hcapped := meter.capped event amount hs hgranted
              rw [total_cons]
              cases window with
              | nil =>
                  rw [List.getLast?_singleton] at hlast
                  obtain rfl := Option.some.inj hlast
                  have hnonneg := meter.nonneg (meter.good event hs)
                  dsimp only
                  rw [total_nil]
                  linarith
              | cons next window =>
                  have htail := meter.total_le_balance rest (meter.good event hs)
                    (next :: window) after last hrest hlast
                  linarith

/-- The members from `i` to `j` as a window of the list. -/
private theorem window_between {α : Type*} (list : List α) {i j : Nat} (hij : i ≤ j)
    (hj : j < list.length) :
    ∃ window, (list.drop i).take (j + 1 - i) = list[i] :: window ∧
      list = list.take i ++ (list[i] :: window) ++ list.drop (j + 1) ∧
      (list[i] :: window).getLast? = some list[j] := by
  have hwindow : (list.drop i).take (j + 1 - i) =
      list[i] :: (list.drop (i + 1)).take (j - i) := by
    rw [List.drop_eq_getElem_cons (by omega), Nat.sub_add_comm hij, List.take_succ_cons]
  have hlength : ((list.drop i).take (j + 1 - i)).length = j + 1 - i := by
    rw [List.length_take, List.length_drop]
    omega
  refine ⟨_, hwindow, ?_, ?_⟩
  · have hdrop : list.drop (j + 1) = (list.drop i).drop (j + 1 - i) := by
      rw [List.drop_drop, Nat.add_sub_cancel' (by omega)]
    rw [← hwindow, List.append_assoc, hdrop, List.take_append_drop, List.take_append_drop]
  · rw [← hwindow, List.getLast?_eq_getElem?, hlength, List.getElem?_take_of_lt (by omega),
      List.getElem?_drop, List.getElem?_eq_getElem (by omega)]
    congr 2
    omega

/-- The same by positions in the list of grants. -/
theorem total_le (meter : Meter step granted balance clock cap rate Good) (events : List ε)
    (hs : Good s) (i j : Nat) (hij : i ≤ j)
    (hj : j < (grants step granted clock s events).length) :
    total (((grants step granted clock s events).drop i).take (j + 1 - i)) ≤
      cap + rate * ((grants step granted clock s events)[j].time -
        (grants step granted clock s events)[i].time) := by
  obtain ⟨window, hwindow, hsplit, hlast⟩ := window_between _ hij hj
  rw [hwindow]
  exact meter.total_window events hs _ _ _ _ _ hsplit hlast

end Meter

end RateBound
