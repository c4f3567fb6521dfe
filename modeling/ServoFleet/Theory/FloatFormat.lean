import Mathlib.Algebra.Order.Field.Power
import Mathlib.Data.Int.Log
import Mathlib.Tactic.Positivity
import ServoFleet.Theory.Rounding

/-!
Binary floating-point formats. A number is encoded as a natural number: the
sign, the biased exponent and the fraction side by side. Finite encodings have
an exact rational value, and rounding a rational goes to the nearest encoding.
-/

structure FloatFormat where
  expBits : Nat
  fracBits : Nat

namespace FloatFormat

variable (fmt : FloatFormat)

def signBit : Nat := 2 ^ (fmt.expBits + fmt.fracBits)

/-- The magnitude of infinity; larger magnitudes are not numbers. -/
def infinity : Nat := (2 ^ fmt.expBits - 1) * 2 ^ fmt.fracBits

/-- The binary exponent of the last place of subnormal numbers. -/
def emin : Int := 2 - 2 ^ (fmt.expBits - 1) - fmt.fracBits

/-- The binary exponent of the last place of a magnitude. -/
def lastPlace (m : Nat) : Int := ((m / 2 ^ fmt.fracBits - 1 : Nat) : Int) + fmt.emin

def significand (m : Nat) : Nat :=
  if m / 2 ^ fmt.fracBits = 0 then m % 2 ^ fmt.fracBits
  else 2 ^ fmt.fracBits + m % 2 ^ fmt.fracBits

def magnitude (m : Nat) : ℚ := fmt.significand m * (2 : ℚ) ^ fmt.lastPlace m

/-- The value of an encoding, unless it is an infinity or not a number. -/
def value (bits : Nat) : Option ℚ :=
  let m := bits % fmt.signBit
  if m < fmt.infinity then
    some (if bits / fmt.signBit % 2 = 0 then fmt.magnitude m else -fmt.magnitude m)
  else none

/-- The nearest magnitude, ties to even, overflowing to infinity. The formula
is the same for both kinds of numbers: a significand that carries moves on to
the next exponent by itself. -/
def roundMagnitude (q : ℚ) : Nat :=
  if q = 0 then 0
  else
    let place := max (Int.log 2 q - fmt.fracBits) fmt.emin
    min fmt.infinity
      ((place - fmt.emin).toNat * 2 ^ fmt.fracBits + (Rounding.halfEven (q / 2 ^ place)).toNat)

def round (q : ℚ) : Nat := fmt.roundMagnitude |q| + if q < 0 then fmt.signBit else 0

theorem significand_lt (m : Nat) : fmt.significand m < 2 ^ (fmt.fracBits + 1) := by
  have hmod := Nat.mod_lt m (Nat.two_pow_pos fmt.fracBits)
  unfold significand
  rw [Nat.pow_succ]
  split_ifs <;> omega

theorem magnitude_nonneg (m : Nat) : 0 ≤ fmt.magnitude m := by
  unfold magnitude
  positivity

/-- The encoding is the last place counted in steps of the significand. -/
theorem encode_magnitude (m : Nat) :
    (fmt.lastPlace m - fmt.emin).toNat * 2 ^ fmt.fracBits + fmt.significand m = m := by
  have hdiv := Nat.div_add_mod m (2 ^ fmt.fracBits)
  have hplace : (fmt.lastPlace m - fmt.emin).toNat = m / 2 ^ fmt.fracBits - 1 := by
    simp [lastPlace]
  rw [hplace, significand]
  split_ifs with h
  · rw [h, Nat.mul_zero, Nat.zero_add] at hdiv
    rw [h, Nat.zero_sub, Nat.zero_mul, Nat.zero_add, hdiv]
  · obtain ⟨k, hk⟩ := Nat.exists_eq_succ_of_ne_zero h
    rw [hk, Nat.succ_eq_add_one, Nat.mul_add, Nat.mul_one] at hdiv
    rw [hk, Nat.succ_eq_add_one, Nat.add_sub_cancel, Nat.mul_comm]
    omega

theorem roundMagnitude_magnitude (m : Nat) (h : m < fmt.infinity) :
    fmt.roundMagnitude (fmt.magnitude m) = m := by
  have hencode := fmt.encode_magnitude m
  by_cases hzero : fmt.significand m = 0
  · have hq : fmt.magnitude m = 0 := by
      simp [magnitude, hzero]
    have hm : m / 2 ^ fmt.fracBits = 0 := by
      by_contra hne
      have := Nat.two_pow_pos fmt.fracBits
      rw [significand, if_neg hne] at hzero
      omega
    rw [significand, if_pos hm] at hzero
    have hdiv := Nat.div_add_mod m (2 ^ fmt.fracBits)
    rw [hm, hzero] at hdiv
    rw [roundMagnitude, if_pos hq]
    omega
  have hpos : 0 < fmt.magnitude m := by
    have : 0 < fmt.significand m := Nat.pos_of_ne_zero hzero
    unfold magnitude
    positivity
  have hplace : max (Int.log 2 (fmt.magnitude m) - fmt.fracBits) fmt.emin = fmt.lastPlace m := by
    have hupper : Int.log 2 (fmt.magnitude m) < fmt.fracBits + 1 + fmt.lastPlace m := by
      rw [← Int.lt_zpow_iff_log_lt (by decide) hpos]
      have hsig : (fmt.significand m : ℚ) < 2 ^ (fmt.fracBits + 1) := by
        exact_mod_cast fmt.significand_lt m
      rw [Nat.cast_ofNat, zpow_add₀ (by norm_num), magnitude]
      apply mul_lt_mul_of_pos_right _ (by positivity)
      exact_mod_cast hsig
    by_cases hm : m / 2 ^ fmt.fracBits = 0
    · have hlast : fmt.lastPlace m = fmt.emin := by
        simp [lastPlace, hm]
      have hsmall : Int.log 2 (fmt.magnitude m) < fmt.fracBits + fmt.lastPlace m := by
        rw [← Int.lt_zpow_iff_log_lt (by decide) hpos]
        have hsig : (fmt.significand m : ℚ) < 2 ^ fmt.fracBits := by
          rw [significand, if_pos hm]
          exact_mod_cast Nat.mod_lt m (Nat.two_pow_pos fmt.fracBits)
        rw [Nat.cast_ofNat, zpow_add₀ (by norm_num), magnitude]
        apply mul_lt_mul_of_pos_right _ (by positivity)
        exact_mod_cast hsig
      omega
    · have hlower : (fmt.fracBits : ℤ) + fmt.lastPlace m ≤ Int.log 2 (fmt.magnitude m) := by
        rw [← Int.zpow_le_iff_le_log (by decide) hpos]
        have hsig : (2 : ℚ) ^ fmt.fracBits ≤ fmt.significand m := by
          rw [significand, if_neg hm]
          push_cast
          have : (0 : ℚ) ≤ ((m % 2 ^ fmt.fracBits : ℕ) : ℚ) := Nat.cast_nonneg _
          linarith
        rw [Nat.cast_ofNat, zpow_add₀ (by norm_num), magnitude]
        apply mul_le_mul_of_nonneg_right _ (by positivity)
        exact_mod_cast hsig
      have hlast : fmt.emin ≤ fmt.lastPlace m := by
        simp [lastPlace]
      omega
  have hquot : fmt.magnitude m / 2 ^ fmt.lastPlace m = (fmt.significand m : ℤ) := by
    rw [magnitude, Int.cast_natCast]
    exact mul_div_cancel_right₀ _ (by positivity)
  simp only [roundMagnitude, if_neg hpos.ne', hplace, hquot, Rounding.halfEven_intCast,
    Int.toNat_natCast, hencode]
  exact Nat.min_eq_right h.le

theorem infinity_le_signBit : fmt.infinity ≤ fmt.signBit := by
  rw [infinity, signBit, Nat.pow_add]
  exact Nat.mul_le_mul_right _ (Nat.sub_le _ _)

/-- Rounding is exact on every value of the format. -/
theorem value_round (bits : Nat) (q : ℚ) (h : fmt.value bits = some q) :
    fmt.value (fmt.round q) = some q := by
  have hsign := fmt.infinity_le_signBit
  simp only [value, Option.ite_none_right_eq_some, Option.some.injEq] at h
  obtain ⟨hm, hq⟩ := h
  have habs : |q| = fmt.magnitude (bits % fmt.signBit) := by
    have hnonneg := fmt.magnitude_nonneg (bits % fmt.signBit)
    rw [← hq]
    split_ifs
    · exact abs_of_nonneg hnonneg
    · rw [abs_neg, abs_of_nonneg hnonneg]
  have hround : fmt.roundMagnitude |q| = bits % fmt.signBit := by
    rw [habs, fmt.roundMagnitude_magnitude _ hm]
  have hlt : bits % fmt.signBit < fmt.signBit := by omega
  have hpos : 0 < fmt.signBit := Nat.two_pow_pos _
  by_cases hneg : q < 0
  · have hval : -fmt.magnitude (bits % fmt.signBit) = q := by
      rw [← habs, abs_of_neg hneg, neg_neg]
    have hmod : (bits % fmt.signBit + fmt.signBit) % fmt.signBit = bits % fmt.signBit := by
      rw [Nat.add_mod_right, Nat.mod_mod]
    have hdiv : (bits % fmt.signBit + fmt.signBit) / fmt.signBit = 1 := by
      rw [Nat.add_div_right _ hpos, Nat.div_eq_of_lt hlt]
    simp [value, round, hround, hneg, hmod, hdiv, hm, hval]
  · have hval : fmt.magnitude (bits % fmt.signBit) = q := by
      rw [← habs, abs_of_nonneg (not_lt.mp hneg)]
    simp [value, round, hround, hneg, Nat.mod_eq_of_lt hlt, Nat.div_eq_of_lt hlt, hm, hval]

/-! ## The order of encodings -/

/-- An encoding as a signed magnitude; both zeros are zero. -/
def order (bits : Nat) : Int :=
  if bits / fmt.signBit % 2 = 0 then (bits % fmt.signBit : Nat) else -(bits % fmt.signBit : Nat)

theorem magnitude_succ (m : Nat) : fmt.magnitude m ≤ fmt.magnitude (m + 1) := by
  have hfrac := Nat.two_pow_pos fmt.fracBits
  have hpow : (0 : ℚ) < 2 ^ fmt.lastPlace m := by positivity
  rcases Nat.lt_or_ge (m % 2 ^ fmt.fracBits + 1) (2 ^ fmt.fracBits) with hlt | hcarry
  · have hdiv : (m + 1) / 2 ^ fmt.fracBits = m / 2 ^ fmt.fracBits := by
      rw [Nat.succ_div, if_neg, Nat.add_zero]
      intro hdvd
      have := Nat.mod_lt m hfrac
      have := Nat.mod_eq_zero_of_dvd hdvd
      rw [Nat.add_mod, Nat.mod_eq_of_lt (by omega : 1 < 2 ^ fmt.fracBits),
        Nat.mod_eq_of_lt hlt] at this
      omega
    have hmod : (m + 1) % 2 ^ fmt.fracBits = m % 2 ^ fmt.fracBits + 1 := by
      have := Nat.div_add_mod m (2 ^ fmt.fracBits)
      have := Nat.div_add_mod (m + 1) (2 ^ fmt.fracBits)
      rw [hdiv] at this
      omega
    have hplace : fmt.lastPlace (m + 1) = fmt.lastPlace m := by
      rw [lastPlace, lastPlace, hdiv]
    have hsig : fmt.significand m ≤ fmt.significand (m + 1) := by
      rw [significand, significand, hdiv, hmod]
      split_ifs <;> omega
    rw [magnitude, magnitude, hplace]
    exact mul_le_mul_of_nonneg_right (by exact_mod_cast hsig) hpow.le
  · have hlast : m % 2 ^ fmt.fracBits + 1 = 2 ^ fmt.fracBits := by
      have := Nat.mod_lt m hfrac
      omega
    have hnext : m + 1 = (m / 2 ^ fmt.fracBits + 1) * 2 ^ fmt.fracBits := by
      have := Nat.div_add_mod m (2 ^ fmt.fracBits)
      rw [Nat.add_mul, Nat.one_mul, Nat.mul_comm]
      omega
    have hdiv : (m + 1) / 2 ^ fmt.fracBits = m / 2 ^ fmt.fracBits + 1 := by
      rw [hnext, Nat.mul_div_cancel _ hfrac]
    have hsig : fmt.significand (m + 1) = 2 ^ fmt.fracBits := by
      rw [significand, hdiv, if_neg (Nat.succ_ne_zero _), hnext, Nat.mul_mod_left, Nat.add_zero]
    rw [magnitude, magnitude, hsig]
    by_cases hzero : m / 2 ^ fmt.fracBits = 0
    · have hplace : fmt.lastPlace (m + 1) = fmt.lastPlace m := by
        rw [lastPlace, lastPlace, hdiv, hzero]
      have hle : fmt.significand m ≤ 2 ^ fmt.fracBits := by
        rw [significand, if_pos hzero]
        omega
      rw [hplace]
      exact mul_le_mul_of_nonneg_right (by exact_mod_cast hle) hpow.le
    · have hplace : fmt.lastPlace (m + 1) = 1 + fmt.lastPlace m := by
        obtain ⟨k, hk⟩ := Nat.exists_eq_succ_of_ne_zero hzero
        rw [lastPlace, lastPlace, hdiv, hk]
        omega
      have hle := (fmt.significand_lt m).le
      rw [Nat.pow_succ] at hle
      rw [hplace, zpow_add₀ (by norm_num), zpow_one, ← mul_assoc]
      exact mul_le_mul_of_nonneg_right (by exact_mod_cast hle) hpow.le

theorem magnitude_mono : Monotone fmt.magnitude :=
  monotone_nat_of_le_succ fmt.magnitude_succ

/-- Finite encodings in order have values in order. -/
theorem value_le_of_order {a b : Nat} {x y : ℚ} (ha : fmt.value a = some x)
    (hb : fmt.value b = some y) (h : fmt.order a ≤ fmt.order b) : x ≤ y := by
  simp only [value, Option.ite_none_right_eq_some, Option.some.injEq] at ha hb
  obtain ⟨_, rfl⟩ := ha
  obtain ⟨_, rfl⟩ := hb
  unfold order at h
  have hx := fmt.magnitude_nonneg (a % fmt.signBit)
  have hy := fmt.magnitude_nonneg (b % fmt.signBit)
  split_ifs at h ⊢
  · exact fmt.magnitude_mono (by omega)
  · have hle := fmt.magnitude_mono (show a % fmt.signBit ≤ 0 by omega)
    have hle' := fmt.magnitude_mono (show b % fmt.signBit ≤ 0 by omega)
    have hzero : fmt.magnitude 0 = 0 := by simp [magnitude, significand]
    linarith
  · linarith
  · exact neg_le_neg (fmt.magnitude_mono (by omega))

end FloatFormat
