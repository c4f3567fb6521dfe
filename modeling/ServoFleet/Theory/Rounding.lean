import Mathlib.Algebra.Order.Floor.Ring
import Mathlib.Data.Rat.Floor
import Mathlib.Tactic.Linarith
import Mathlib.Tactic.Push

/-!
Rounding of exact rationals to integers, with ties away from zero and with ties
to even.
-/

namespace Rounding

/-- Nearest integer, ties away from zero. -/
def halfAway (q : ℚ) : ℤ := if 0 ≤ q then ⌊q + 1 / 2⌋ else ⌈q - 1 / 2⌉

/-- Nearest integer, ties to even. -/
def halfEven (q : ℚ) : ℤ :=
  if q - ⌊q⌋ < 1 / 2 then ⌊q⌋
  else if 1 / 2 < q - ⌊q⌋ then ⌊q⌋ + 1
  else ⌊q⌋ + ⌊q⌋ % 2

theorem halfAway_of_nonneg {q : ℚ} (h : 0 ≤ q) : halfAway q = ⌊q + 1 / 2⌋ := if_pos h

theorem halfAway_of_neg {q : ℚ} (h : q < 0) : halfAway q = ⌈q - 1 / 2⌉ := if_neg (not_le.mpr h)

theorem halfAway_neg (q : ℚ) : halfAway (-q) = -halfAway q := by
  rcases lt_trichotomy q 0 with h | rfl | h
  · rw [halfAway_of_neg h, halfAway_of_nonneg (by linarith), ← Int.floor_neg]
    congr 1
    ring
  · simp only [neg_zero, halfAway, le_refl, if_true, zero_add]
    norm_num
  · rw [halfAway_of_nonneg h.le, halfAway_of_neg (by linarith), ← Int.ceil_neg]
    congr 1
    ring

@[simp]
theorem halfAway_intCast (n : ℤ) : halfAway (n : ℚ) = n := by
  have hhalf : ⌊(n : ℚ) + 1 / 2⌋ = n := by
    rw [Int.floor_eq_iff]
    constructor <;> linarith
  have hhalf' : ⌈(n : ℚ) - 1 / 2⌉ = n := by
    rw [Int.ceil_eq_iff]
    constructor <;> linarith
  unfold halfAway
  split_ifs
  · exact hhalf
  · exact hhalf'

@[simp]
theorem halfAway_natCast (n : ℕ) : halfAway (n : ℚ) = n := halfAway_intCast n

@[simp]
theorem halfAway_zero : halfAway 0 = 0 := halfAway_natCast 0

/-- The cell of a non-negative integer. -/
theorem halfAway_eq_iff {q : ℚ} (h : 0 ≤ q) (n : ℤ) :
    halfAway q = n ↔ (n : ℚ) - 1 / 2 ≤ q ∧ q < n + 1 / 2 := by
  rw [halfAway_of_nonneg h, Int.floor_eq_iff]
  constructor <;> rintro ⟨hlow, hhigh⟩ <;> constructor <;> linarith

theorem abs_halfAway_sub_le (q : ℚ) : |(halfAway q : ℚ) - q| ≤ 1 / 2 := by
  rw [abs_le]
  rcases le_or_gt 0 q with h | h
  · obtain ⟨hlow, hhigh⟩ := (halfAway_eq_iff h _).mp rfl
    constructor <;> linarith
  · obtain ⟨hlow, hhigh⟩ := (halfAway_eq_iff (q := -q) (by linarith) _).mp rfl
    rw [halfAway_neg, Int.cast_neg] at hlow hhigh
    constructor <;> linarith

theorem halfAway_mono {p q : ℚ} (h : p ≤ q) : halfAway p ≤ halfAway q := by
  rcases le_or_gt 0 p with hp | hp
  · rw [halfAway_of_nonneg hp, halfAway_of_nonneg (hp.trans h)]
    exact Int.floor_mono (by linarith)
  rcases le_or_gt 0 q with hq | hq
  · have hlow : halfAway p ≤ 0 := by
      rw [halfAway_of_neg hp, Int.ceil_le, Int.cast_zero]
      linarith
    have hhigh : 0 ≤ halfAway q := by
      rw [halfAway_of_nonneg hq, Int.le_floor, Int.cast_zero]
      linarith
    exact hlow.trans hhigh
  · rw [halfAway_of_neg hp, halfAway_of_neg hq]
    exact Int.ceil_mono (by linarith)

theorem halfAway_nonneg {q : ℚ} (h : 0 ≤ q) : 0 ≤ halfAway q := by
  have := halfAway_mono h
  rwa [halfAway_zero] at this

theorem halfAway_eq_zero_iff (q : ℚ) : halfAway q = 0 ↔ |q| < 1 / 2 := by
  rcases le_or_gt 0 q with h | h
  · rw [halfAway_eq_iff h, abs_of_nonneg h, Int.cast_zero]
    constructor
    · rintro ⟨_, hhigh⟩
      linarith
    · intro hlt
      constructor <;> linarith
  · have hneg := halfAway_eq_iff (q := -q) (by linarith) 0
    rw [halfAway_neg, neg_eq_zero, Int.cast_zero] at hneg
    rw [hneg, abs_of_neg h]
    constructor
    · rintro ⟨_, hhigh⟩
      linarith
    · intro hlt
      constructor <;> linarith

theorem halfEven_intCast (n : ℤ) : halfEven (n : ℚ) = n := by
  simp [halfEven]

end Rounding
