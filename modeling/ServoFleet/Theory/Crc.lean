import Mathlib.Algebra.BigOperators.Fin
import Mathlib.Algebra.Field.ZMod
import Mathlib.Logic.Function.Iterate

/-!
Cyclic redundancy checks of any width, one message bit at a time. The register
is a residue of the message polynomial modulo the generator; `poly` holds the
generator without its leading term. Every step is linear over exclusive or, so
a corrupted message is judged by the error pattern alone.
-/

namespace Crc

variable {w : Nat}

/-- The leading coefficient of the register. -/
def top (w : Nat) : BitVec w := BitVec.twoPow w (w - 1)

/-- Multiplication of the register by `x` modulo the generator. -/
def shift (poly r : BitVec w) : BitVec w :=
  if r.msb then (r <<< 1) ^^^ poly else r <<< 1

/-- One message bit, most significant first. -/
def feed (poly r : BitVec w) (bit : Bool) : BitVec w :=
  shift poly (if bit then r ^^^ top w else r)

def feedAll (poly r : BitVec w) (bits : List Bool) : BitVec w :=
  bits.foldl (feed poly) r

/-- The check value of a message, from a cleared register. -/
def remainder (poly : BitVec w) (bits : List Bool) : BitVec w :=
  feedAll poly 0 bits

/-! ## Linearity -/

theorem shift_zero (poly : BitVec w) : shift poly 0 = 0 := by
  simp [shift]

private theorem cancel_common (a b common : BitVec w) :
    (a ^^^ common) ^^^ (b ^^^ common) = a ^^^ b := by
  ext i hi
  simp only [BitVec.getElem_xor]
  cases a[i] <;> cases b[i] <;> cases common[i] <;> rfl

theorem shift_xor (poly a b : BitVec w) :
    shift poly (a ^^^ b) = shift poly a ^^^ shift poly b := by
  unfold shift
  rw [BitVec.msb_xor, BitVec.shiftLeft_xor_distrib]
  cases a.msb <;> cases b.msb <;>
    simp only [Bool.xor_false, Bool.xor_true, Bool.not_false, Bool.not_true,
      Bool.false_eq_true, if_true, if_false]
  · ac_rfl
  · ac_rfl
  · exact (cancel_common _ _ poly).symm

theorem iterate_shift_zero (poly : BitVec w) (n : Nat) : (shift poly)^[n] 0 = 0 :=
  Function.iterate_fixed (shift_zero poly) n

theorem iterate_shift_xor (poly : BitVec w) (n : Nat) (a b : BitVec w) :
    (shift poly)^[n] (a ^^^ b) = (shift poly)^[n] a ^^^ (shift poly)^[n] b := by
  induction n generalizing a b with
  | zero => rfl
  | succ n ih => simp only [Function.iterate_succ_apply, shift_xor, ih]

theorem feed_xor (poly a b : BitVec w) (x y : Bool) :
    feed poly (a ^^^ b) (x ^^ y) = feed poly a x ^^^ feed poly b y := by
  unfold feed
  rw [← shift_xor]
  congr 1
  cases x <;> cases y <;>
    simp only [Bool.xor_false, Bool.xor_true, Bool.not_false, Bool.not_true,
      Bool.false_eq_true, if_true, if_false]
  · ac_rfl
  · ac_rfl
  · exact (cancel_common _ _ _).symm

theorem feedAll_append (poly r : BitVec w) (xs ys : List Bool) :
    feedAll poly r (xs ++ ys) = feedAll poly (feedAll poly r xs) ys := by
  simp only [feedAll, List.foldl_append]

/-- Messages of one length are fed independently. -/
theorem feedAll_xor (poly a b : BitVec w) (xs ys : List Bool) (h : xs.length = ys.length) :
    feedAll poly (a ^^^ b) (List.zipWith (· ^^ ·) xs ys) =
      feedAll poly a xs ^^^ feedAll poly b ys := by
  induction xs generalizing a b ys with
  | nil =>
      have hys : ys = [] := List.length_eq_zero_iff.mp h.symm
      subst hys
      rfl
  | cons x xs ih =>
      cases ys with
      | nil => simp at h
      | cons y ys =>
          have htail : xs.length = ys.length := by simpa using h
          simp only [feedAll, List.zipWith_cons_cons, List.foldl_cons, feed_xor]
          exact ih _ _ ys htail

theorem remainder_xor (poly : BitVec w) (xs ys : List Bool) (h : xs.length = ys.length) :
    remainder poly (List.zipWith (· ^^ ·) xs ys) =
      remainder poly xs ^^^ remainder poly ys := by
  have hzero : (0 : BitVec w) = 0 ^^^ 0 := BitVec.xor_self.symm
  unfold remainder
  conv_lhs => rw [hzero]
  exact feedAll_xor poly 0 0 xs ys h

theorem feedAll_replicate_false (poly r : BitVec w) (n : Nat) :
    feedAll poly r (List.replicate n false) = (shift poly)^[n] r := by
  induction n generalizing r with
  | zero => rfl
  | succ n ih =>
      rw [Function.iterate_succ_apply, ← ih]
      simp [feedAll, List.replicate_succ, feed]

theorem remainder_leading_zeros (poly : BitVec w) (n : Nat) (bits : List Bool) :
    remainder poly (List.replicate n false ++ bits) = remainder poly bits := by
  rw [remainder, feedAll_append, feedAll_replicate_false, iterate_shift_zero, remainder]

theorem remainder_trailing_zeros (poly : BitVec w) (n : Nat) (bits : List Bool) :
    remainder poly (bits ++ List.replicate n false) = (shift poly)^[n] (remainder poly bits) := by
  rw [remainder, feedAll_append, feedAll_replicate_false, remainder]

/-- Coefficients that stay inside the register only move up. -/
theorem iterate_shift_low (poly r : BitVec w) (n : Nat)
    (h : ∀ i, w ≤ i + n → r.getLsbD i = false) : (shift poly)^[n] r = r <<< n := by
  induction n generalizing r with
  | zero => simp
  | succ n ih =>
      have hmsb : r.msb = false := by
        rw [BitVec.msb_eq_getLsbD_last]
        exact h _ (by omega)
      have hstep : shift poly r = r <<< 1 := by
        simp [shift, hmsb]
      have hlow : ∀ i, w ≤ i + n → (r <<< 1).getLsbD i = false := by
        intro i hi
        cases i with
        | zero => simp
        | succ i =>
            rw [BitVec.getLsbD_shiftLeft, Nat.add_sub_cancel, h i (by omega), Bool.and_false]
      rw [Function.iterate_succ_apply, hstep, ih _ hlow, ← BitVec.shiftLeft_add, Nat.add_comm]

/-! ## Words: at most `w` bits at once -/

/-- Message bits aligned with the leading coefficient. -/
def align : List Bool → BitVec w
  | [] => 0
  | bit :: bits => (if bit then top w else 0) ^^^ (align bits >>> 1)

theorem align_low (bits : List Bool) (i : Nat) (h : i + bits.length < w) :
    (align bits : BitVec w).getLsbD i = false := by
  induction bits generalizing i with
  | nil => simp [align]
  | cons bit bits ih =>
      have hlen : i + 1 + bits.length < w := by simp only [List.length_cons] at h; omega
      have htail := ih (i + 1) hlen
      have htop : (if bit then top w else 0).getLsbD i = false := by
        cases bit
        · simp
        · simp only [if_true, top, BitVec.getLsbD_twoPow]
          have : w - 1 ≠ i := by omega
          simp [this]
      simp only [align, BitVec.getLsbD_xor, BitVec.getLsbD_ushiftRight, htop, Bool.false_xor]
      rw [Nat.add_comm 1 i]
      exact htail

/-- A word whose last coefficient is clear is `x` times its half. -/
private theorem shift_half (poly r : BitVec w) (h : r.getLsbD 0 = false) :
    shift poly (r >>> 1) = r := by
  have hmsb : (r >>> 1).msb = false := by
    rw [BitVec.msb_eq_getLsbD_last, BitVec.getLsbD_ushiftRight]
    exact BitVec.getLsbD_of_ge r _ (by omega)
  simp only [shift, hmsb, Bool.false_eq_true, if_false]
  apply BitVec.eq_of_getLsbD_eq
  intro i hi
  simp only [BitVec.getLsbD_shiftLeft, BitVec.getLsbD_ushiftRight, hi, decide_true, Bool.true_and]
  cases i with
  | zero => simp [h]
  | succ i => simp [Nat.add_comm]

theorem feedAll_align (poly r : BitVec w) (bits : List Bool) (h : bits.length ≤ w) :
    feedAll poly r bits = (shift poly)^[bits.length] (r ^^^ align bits) := by
  induction bits generalizing r with
  | nil => simp [feedAll, align]
  | cons bit bits ih =>
      have hlen : bits.length < w := h
      have hlow : (align bits : BitVec w).getLsbD 0 = false := align_low bits 0 (by omega)
      have hstep : feedAll poly r (bit :: bits) = feedAll poly (feed poly r bit) bits := rfl
      rw [hstep, ih _ (by omega), List.length_cons, Function.iterate_succ_apply]
      congr 1
      conv_lhs => rw [← shift_half poly (align bits) hlow]
      rw [feed, ← shift_xor, align]
      congr 1
      cases bit
      · simp
      · simp [BitVec.xor_assoc]

theorem align_eq_zero (bits : List Bool) (h : bits.length ≤ w)
    (hzero : (align bits : BitVec w) = 0) : ∀ bit ∈ bits, bit = false := by
  induction bits with
  | nil => simp
  | cons bit bits ih =>
      have hlen : bits.length < w := h
      have hhalf : (align bits >>> 1 : BitVec w).getLsbD (w - 1) = false := by
        rw [BitVec.getLsbD_ushiftRight]
        exact BitVec.getLsbD_of_ge _ _ (by omega)
      have hbit : bit = false := by
        have hmsb := congrArg (fun r : BitVec w => r.getLsbD (w - 1)) hzero
        cases bit
        · rfl
        · simp only [align, if_true, BitVec.getLsbD_xor, hhalf, top, BitVec.getLsbD_twoPow] at hmsb
          have hpos : w - 1 < w := by omega
          simp [hpos] at hmsb
      have hrest : (align bits : BitVec w) = 0 := by
        apply BitVec.eq_of_getLsbD_eq
        intro i hi
        cases i with
        | zero => simpa using align_low bits 0 (by omega)
        | succ i =>
            have hcoeff := congrArg (fun r : BitVec w => r.getLsbD i) hzero
            simpa [align, hbit, Nat.add_comm] using hcoeff
      intro b member
      rcases List.mem_cons.mp member with rfl | htail
      · exact hbit
      · exact ih (by omega) hrest b htail

/-! ## Injectivity and bursts -/

/-- With a constant term in the generator, `x` is invertible modulo it. -/
theorem shift_eq_zero (poly r : BitVec w) (hpoly : poly.getLsbD 0 = true)
    (h : shift poly r = 0) : r = 0 := by
  have hmsb : r.msb = false := by
    cases hr : r.msb
    · rfl
    · have hlow := congrArg (fun s : BitVec w => s.getLsbD 0) h
      simp [shift, hr, hpoly] at hlow
  apply BitVec.eq_of_getLsbD_eq
  intro i hi
  by_cases hlast : i = w - 1
  · rw [hlast, ← BitVec.msb_eq_getLsbD_last, hmsb]
    simp
  · have hcoeff := congrArg (fun s : BitVec w => s.getLsbD (i + 1)) h
    have hnext : i + 1 < w := by omega
    simpa only [shift, hmsb, Bool.false_eq_true, if_false, BitVec.getLsbD_shiftLeft, hnext,
      decide_true, Bool.true_and, Nat.not_lt_zero, decide_false, Nat.lt_irrefl,
      Nat.add_sub_cancel, BitVec.ofNat_eq_ofNat, BitVec.getLsbD_zero,
      show ¬ i + 1 < 1 by omega, Bool.not_false] using hcoeff

theorem iterate_shift_eq_zero (poly r : BitVec w) (hpoly : poly.getLsbD 0 = true) (n : Nat)
    (h : (shift poly)^[n] r = 0) : r = 0 := by
  induction n generalizing r with
  | zero => exact h
  | succ n ih =>
      rw [Function.iterate_succ_apply] at h
      exact shift_eq_zero poly r hpoly (ih _ h)

theorem iterate_shift_injective (poly : BitVec w) (hpoly : poly.getLsbD 0 = true) (n : Nat) :
    Function.Injective (shift poly)^[n] := by
  intro a b h
  have hdiff : (shift poly)^[n] (a ^^^ b) = 0 := by
    rw [iterate_shift_xor, h, BitVec.xor_self]
    rfl
  have hzero := iterate_shift_eq_zero poly _ hpoly n hdiff
  exact BitVec.xor_eq_zero_iff.mp hzero

/-- A burst no longer than the register always leaves a remainder. -/
theorem remainder_burst (poly : BitVec w) (hpoly : poly.getLsbD 0 = true)
    (before after : Nat) (burst : List Bool) (hlen : burst.length ≤ w) (hset : true ∈ burst) :
    remainder poly (List.replicate before false ++ burst ++ List.replicate after false) ≠ 0 := by
  intro h
  rw [remainder_trailing_zeros, remainder_leading_zeros, remainder,
    feedAll_align poly 0 burst hlen] at h
  have hword := iterate_shift_eq_zero poly _ hpoly _ (iterate_shift_eq_zero poly _ hpoly _ h)
  have halign : (align burst : BitVec w) = 0 := by
    rw [← hword]
    exact (BitVec.zero_xor).symm
  have := align_eq_zero burst hlen halign true hset
  exact Bool.noConfusion this

/-- The same for set bits known to lie in a window of the register's width. -/
theorem remainder_window (poly : BitVec w) (hpoly : poly.getLsbD 0 = true) (bits : List Bool)
    (start : Nat) (hset : true ∈ bits)
    (h : ∀ i, bits[i]? = some true → start ≤ i ∧ i < start + w) : remainder poly bits ≠ 0 := by
  have hbefore : bits.take start = List.replicate (bits.take start).length false := by
    apply List.eq_replicate_of_mem
    intro bit member
    obtain ⟨i, hi, rfl⟩ := List.getElem_of_mem member
    rw [List.length_take] at hi
    rw [List.getElem_take]
    cases hbit : bits[i]
    · rfl
    · have := h i (by rw [List.getElem?_eq_getElem (by omega), hbit])
      omega
  have hafter : bits.drop (start + w) = List.replicate (bits.drop (start + w)).length false := by
    apply List.eq_replicate_of_mem
    intro bit member
    obtain ⟨i, hi, rfl⟩ := List.getElem_of_mem member
    rw [List.length_drop] at hi
    rw [List.getElem_drop]
    cases hbit : bits[start + w + i]
    · rfl
    · have := h (start + w + i) (by rw [List.getElem?_eq_getElem (by omega), hbit])
      omega
  have hsplit : bits = bits.take start ++ (bits.drop start).take w ++ bits.drop (start + w) := by
    rw [List.append_assoc, ← List.drop_drop, List.take_append_drop, List.take_append_drop]
  have hmiddle : true ∈ (bits.drop start).take w := by
    rw [hsplit, hbefore, hafter] at hset
    simpa using hset
  rw [hsplit, hbefore, hafter]
  exact remainder_burst poly hpoly _ _ _ (by rw [List.length_take]; omega) hmiddle

/-! ## Parity -/

/-- The value of a residue at `x = 1`. -/
def parity (r : BitVec w) : ZMod 2 := ∑ i : Fin w, if r.getLsbD i then 1 else 0

def weight (bits : List Bool) : Nat := bits.count true

theorem parity_zero : parity (0 : BitVec w) = 0 := by
  simp [parity]

theorem parity_xor (a b : BitVec w) : parity (a ^^^ b) = parity a + parity b := by
  unfold parity
  rw [← Finset.sum_add_distrib]
  apply Finset.sum_congr rfl
  intro i _
  rw [BitVec.getLsbD_xor]
  cases a.getLsbD i <;> cases b.getLsbD i <;> decide

theorem parity_split {a b : Nat} (r : BitVec (a + b)) :
    parity r = (∑ i : Fin a, if r.getLsbD i then 1 else 0) +
      ∑ i : Fin b, if r.getLsbD (a + i) then 1 else 0 := by
  rw [parity, Fin.sum_univ_add]
  rfl

theorem parity_twoPow (i : Nat) (h : i < w) : parity (BitVec.twoPow w i) = 1 := by
  have hone : ∀ j : Fin w, (if (BitVec.twoPow w i).getLsbD j then (1 : ZMod 2) else 0) =
      if j = ⟨i, h⟩ then 1 else 0 := by
    intro j
    simp only [BitVec.getLsbD_twoPow, h, decide_true, Bool.true_and, decide_eq_true_eq, Fin.ext_iff]
    by_cases hj : i = j.val
    · simp [hj]
    · simp [hj, Ne.symm hj]
  simp only [parity, hone, Finset.sum_ite_eq', Finset.mem_univ, if_true]

private theorem parity_shiftLeft (r : BitVec w) :
    parity (r <<< 1) = parity r + if r.msb then 1 else 0 := by
  cases w with
  | zero => simp [parity, BitVec.msb_eq_getLsbD_last]
  | succ n =>
      have hmsb : r.msb = r.getLsbD n := BitVec.msb_eq_getLsbD_last r
      unfold parity
      rw [Fin.sum_univ_succ, Fin.sum_univ_castSucc (n := n), hmsb]
      simp only [BitVec.getLsbD_shiftLeft, Fin.val_zero, Fin.val_succ, Fin.val_castSucc,
        Fin.val_last]
      have hdouble : (if r.getLsbD n then (1 : ZMod 2) else 0) +
          (if r.getLsbD n then 1 else 0) = 0 := by
        cases r.getLsbD n <;> decide
      rw [add_assoc, hdouble, add_zero]
      simp only [Nat.zero_lt_succ, decide_true, Bool.not_true,
        Bool.and_false, Bool.false_and, Bool.false_eq_true, if_false, zero_add]
      apply Finset.sum_congr rfl
      intro i _
      have hi : i.val + 1 < n + 1 := by omega
      simp [hi]

/-- A generator of even weight is divisible by `x + 1`, so stepping the
register keeps its parity. -/
theorem parity_shift (poly r : BitVec w) (hpoly : parity poly = 1) :
    parity (shift poly r) = parity r := by
  have htwo : (1 : ZMod 2) + 1 = 0 := by decide
  unfold shift
  cases h : r.msb
  · simp [parity_shiftLeft, h]
  · simp only [if_true, parity_xor, parity_shiftLeft, h, hpoly]
    rw [add_assoc, htwo, add_zero]

theorem parity_feedAll (poly r : BitVec w) (hw : 0 < w) (hpoly : parity poly = 1)
    (bits : List Bool) : parity (feedAll poly r bits) = parity r + (weight bits : ZMod 2) := by
  induction bits generalizing r with
  | nil => simp [feedAll, weight]
  | cons bit bits ih =>
      have hstep : feedAll poly r (bit :: bits) = feedAll poly (feed poly r bit) bits := rfl
      rw [hstep, ih, feed, parity_shift poly _ hpoly]
      cases bit
      · simp [weight]
      · have htop : parity (top w) = 1 := parity_twoPow (w - 1) (by omega)
        simp only [if_true, parity_xor, htop, weight, List.count_cons_self, Nat.cast_add,
          Nat.cast_one]
        rw [add_assoc, add_comm 1]

theorem parity_remainder (poly : BitVec w) (hw : 0 < w) (hpoly : parity poly = 1)
    (bits : List Bool) : parity (remainder poly bits) = (weight bits : ZMod 2) := by
  rw [remainder, parity_feedAll poly 0 hw hpoly, parity_zero, zero_add]

/-! ## Error patterns of two bits -/

theorem feedAll_split (poly r : BitVec w) (bits : List Bool) :
    feedAll poly r bits = (shift poly)^[bits.length] r ^^^ remainder poly bits := by
  have hzip : List.zipWith (· ^^ ·) (List.replicate bits.length false) bits = bits := by
    induction bits with
    | nil => rfl
    | cons bit bits ih =>
        simp only [List.length_cons, List.replicate_succ, List.zipWith_cons_cons, ih,
          Bool.false_xor]
  have h := feedAll_xor poly r 0 (List.replicate bits.length false) bits (by simp)
  have hzero : r ^^^ 0 = r := BitVec.xor_zero
  rw [hzip, hzero, feedAll_replicate_false] at h
  exact h

theorem weight_eq_zero (bits : List Bool) (h : weight bits = 0) :
    bits = List.replicate bits.length false := by
  apply List.eq_replicate_of_mem
  intro bit member
  cases bit
  · rfl
  · exact absurd member (List.count_eq_zero.mp h)

theorem weight_eq_succ (bits : List Bool) (n : Nat) (h : weight bits = n + 1) :
    ∃ before rest, bits = List.replicate before false ++ true :: rest ∧ weight rest = n := by
  induction bits with
  | nil => simp [weight] at h
  | cons bit bits ih =>
      cases bit
      · have htail : weight bits = n + 1 := by simpa [weight] using h
        obtain ⟨before, rest, hbits, hrest⟩ := ih htail
        exact ⟨before + 1, rest, by simp [hbits, List.replicate_succ], hrest⟩
      · exact ⟨0, bits, rfl, by simpa [weight] using h⟩

/-- The first set bit contributes its own power of `x`. -/
theorem remainder_first_set (poly : BitVec w) (before : Nat) (rest : List Bool) :
    remainder poly (List.replicate before false ++ true :: rest) =
      (shift poly)^[rest.length + 1] (top w) ^^^ remainder poly rest := by
  have hstep : remainder poly (true :: rest) = feedAll poly (feed poly 0 true) rest := rfl
  have hfirst : feed poly 0 true = shift poly (top w) := by
    simp [feed]
  rw [remainder_leading_zeros, hstep, hfirst, feedAll_split, Function.iterate_succ_apply]

theorem remainder_weight_zero (poly : BitVec w) (bits : List Bool) (h : weight bits = 0) :
    remainder poly bits = 0 := by
  rw [weight_eq_zero bits h, remainder, feedAll_replicate_false, iterate_shift_zero]

theorem remainder_weight_one (poly : BitVec w) (bits : List Bool) (h : weight bits = 1) :
    ∃ k, 0 < k ∧ k ≤ bits.length ∧ remainder poly bits = (shift poly)^[k] (top w) := by
  obtain ⟨before, rest, rfl, hrest⟩ := weight_eq_succ bits 0 h
  refine ⟨rest.length + 1, by omega, by simp, ?_⟩
  rw [remainder_first_set, remainder_weight_zero poly rest hrest]
  exact BitVec.xor_zero

theorem iterate_shift_twoPow (poly : BitVec w) (k : Nat) (h : k < w) :
    (shift poly)^[w - 1 - k] (BitVec.twoPow w k) = top w := by
  obtain ⟨n, hn⟩ : ∃ n, n = w - 1 - k := ⟨_, rfl⟩
  rw [← hn]
  induction n generalizing k with
  | zero =>
      have hk : k = w - 1 := by omega
      rw [hk]
      rfl
  | succ n ih =>
      have hmsb : (BitVec.twoPow w k).msb = false := by
        rw [BitVec.msb_eq_getLsbD_last, BitVec.getLsbD_twoPow]
        simp [show k ≠ w - 1 by omega]
      have hnext : shift poly (BitVec.twoPow w k) = BitVec.twoPow w (k + 1) := by
        simp only [shift, hmsb, Bool.false_eq_true, if_false]
        apply BitVec.eq_of_getLsbD_eq
        intro i hi
        simp only [BitVec.getLsbD_shiftLeft, BitVec.getLsbD_twoPow, hi, decide_true, Bool.true_and]
        cases i with
        | zero => simp
        | succ i => simp [h]; omega
      rw [Function.iterate_succ_apply, hnext]
      exact ih (k + 1) (by omega) (by omega)

/-- Within `n` steps the powers of `x` do not come back to the leading one. -/
def Aperiodic (poly : BitVec w) (n : Nat) : Prop :=
  ∀ d, 0 < d → d ≤ n → (shift poly)^[d] (top w) ≠ top w

/-- Whether `n` further steps stay away from the leading power. -/
def apart (poly r : BitVec w) : Nat → Bool
  | 0 => true
  | n + 1 => shift poly r != top w && apart poly (shift poly r) n

theorem apart_spec (poly r : BitVec w) (n : Nat) (h : apart poly r n = true) :
    ∀ d, 0 < d → d ≤ n → (shift poly)^[d] r ≠ top w := by
  induction n generalizing r with
  | zero =>
      intro d hpos hd
      omega
  | succ n ih =>
      simp only [apart, Bool.and_eq_true, bne_iff_ne] at h
      intro d hpos hd
      obtain ⟨d, rfl⟩ := Nat.exists_eq_succ_of_ne_zero (by omega : d ≠ 0)
      rw [Function.iterate_succ_apply]
      cases d with
      | zero => exact h.1
      | succ d => exact ih _ h.2 (d + 1) (by omega) (by omega)

theorem aperiodic_of_apart (poly : BitVec w) (n : Nat) (h : apart poly (top w) n = true) :
    Aperiodic poly n :=
  apart_spec poly (top w) n h

/-- Two message bits cannot cancel inside one period. -/
theorem remainder_weight_two (poly : BitVec w) (hpoly : poly.getLsbD 0 = true) {n : Nat}
    (hperiod : Aperiodic poly n) (bits : List Bool) (hlen : bits.length ≤ n)
    (h : weight bits = 2) : remainder poly bits ≠ 0 := by
  obtain ⟨before, rest, rfl, hrest⟩ := weight_eq_succ bits 1 h
  obtain ⟨k, hkpos, hk, hrem⟩ := remainder_weight_one poly rest hrest
  intro hzero
  rw [remainder_first_set, hrem] at hzero
  have heq := BitVec.xor_eq_zero_iff.mp hzero
  have hsplit : rest.length + 1 = k + (rest.length + 1 - k) := by omega
  rw [hsplit, Function.iterate_add_apply] at heq
  have hreturn := iterate_shift_injective poly hpoly k heq
  have hbound : before + (rest.length + 1) ≤ n := by simpa using hlen
  exact hperiod (rest.length + 1 - k) (by omega) (by omega) hreturn

/-- One message bit and one bit of the check value cannot cancel. -/
theorem remainder_weight_one_ne_twoPow (poly : BitVec w) {n : Nat}
    (hperiod : Aperiodic poly n) (bits : List Bool) (hlen : bits.length + (w - 1) ≤ n)
    (h : weight bits = 1) (i : Nat) (hi : i < w) :
    remainder poly bits ≠ BitVec.twoPow w i := by
  obtain ⟨k, hkpos, hk, hrem⟩ := remainder_weight_one poly bits h
  intro heq
  rw [hrem] at heq
  have hreturn : (shift poly)^[w - 1 - i + k] (top w) = top w := by
    rw [Function.iterate_add_apply, heq, iterate_shift_twoPow poly i hi]
  exact hperiod _ (by omega) (by omega) hreturn

end Crc
