import Mathlib.Algebra.Group.Nat.Defs
import Mathlib.Data.List.Basic

/-!
Bit fields of a byte string, most significant bit first. A field is an offset
and a length in bits; reading and overwriting it obey the laws of a lens.
-/

namespace BitField

variable {w : Nat}

/-- Bit `i` of a byte string; it is clear beyond the end. -/
def bit (bytes : List (BitVec 8)) (i : Nat) : Bool := (bytes[i / 8]?.getD 0).getMsbD (i % 8)

def setBit (bytes : List (BitVec 8)) (i : Nat) (value : Bool) : List (BitVec 8) :=
  bytes.modify (i / 8) fun byte =>
    if value then byte ||| BitVec.twoPow 8 (7 - i % 8) else byte &&& ~~~BitVec.twoPow 8 (7 - i % 8)

/-- The number in the `len` bits from `offset` on. -/
def get (bytes : List (BitVec 8)) (offset : Nat) : (len : Nat) → BitVec w
  | 0 => 0
  | n + 1 => (get bytes offset n <<< 1) ||| (if bit bytes (offset + n) then 1 else 0)

/-- The first `n` of the `len` bits from `offset` on, overwritten. -/
def putPrefix (bytes : List (BitVec 8)) (offset len : Nat) (value : BitVec w) :
    (n : Nat) → List (BitVec 8)
  | 0 => bytes
  | n + 1 => setBit (putPrefix bytes offset len value n) (offset + n) (value.getLsbD (len - 1 - n))

def put (bytes : List (BitVec 8)) (offset len : Nat) (value : BitVec w) : List (BitVec 8) :=
  putPrefix bytes offset len value len

/-! ## Single bits -/

@[simp]
theorem setBit_length (bytes : List (BitVec 8)) (i : Nat) (value : Bool) :
    (setBit bytes i value).length = bytes.length := by
  simp [setBit]

private theorem getMsbD_mask (byte : BitVec 8) (value : Bool) (k j : Nat) (hk : k < 8)
    (hj : j < 8) :
    (if value then byte ||| BitVec.twoPow 8 (7 - k)
      else byte &&& ~~~BitVec.twoPow 8 (7 - k)).getMsbD j =
      if j = k then value else byte.getMsbD j := by
  have hsame : 7 - k = 7 - j ↔ j = k := by omega
  have hin : 7 - j < 8 := by omega
  have hmask : (BitVec.twoPow 8 (7 - k)).getLsbD (7 - j) = decide (j = k) := by
    simp [BitVec.getLsbD_twoPow, hsame, (by omega : 7 - k < 8)]
  have hmsb : ∀ r : BitVec 8, r.getMsbD j = r.getLsbD (7 - j) := by
    intro r
    simp [BitVec.getMsbD_eq_getLsbD, hj]
  rw [hmsb, hmsb]
  cases value
  · rw [if_neg (by decide), BitVec.getLsbD_and, BitVec.getLsbD_not, hmask]
    by_cases h : j = k <;> simp [h, hin]
  · rw [if_pos rfl, BitVec.getLsbD_or, hmask]
    by_cases h : j = k <;> simp [h]

theorem bit_setBit (bytes : List (BitVec 8)) (i j : Nat) (value : Bool)
    (h : i < 8 * bytes.length) :
    bit (setBit bytes i value) j = if j = i then value else bit bytes j := by
  have hi : i / 8 < bytes.length := by omega
  by_cases hbyte : j / 8 = i / 8
  · have hindex : j = i ↔ j % 8 = i % 8 := by omega
    simp only [bit, setBit, hbyte, List.getElem?_modify, if_true, List.getElem?_eq_getElem hi,
      Option.getD_some, hindex]
    exact getMsbD_mask _ value _ _ (Nat.mod_lt _ (by decide)) (Nat.mod_lt _ (by decide))
  · have hne : j ≠ i := by
      rintro rfl
      exact hbyte rfl
    simp [bit, setBit, Ne.symm hbyte, hne]

theorem bit_set (bytes : List (BitVec 8)) (k : Nat) (byte : BitVec 8) (j : Nat)
    (h : k < bytes.length) :
    bit (bytes.set k byte) j = if j / 8 = k then byte.getMsbD (j % 8) else bit bytes j := by
  unfold bit
  rw [List.getElem?_set]
  by_cases hk : j / 8 = k
  · simp [hk, h]
  · simp [hk, Ne.symm hk]

/-- A byte string is its length and its bits. -/
theorem ext_bit (xs ys : List (BitVec 8)) (hlen : xs.length = ys.length)
    (h : ∀ i, i < 8 * xs.length → bit xs i = bit ys i) : xs = ys := by
  apply List.ext_getElem hlen
  intro k hx hy
  apply BitVec.eq_of_getMsbD_eq
  intro j hj
  have hbit := h (8 * k + j) (by omega)
  have hdiv : (8 * k + j) / 8 = k := by omega
  have hmod : (8 * k + j) % 8 = j := by omega
  simpa only [bit, hdiv, hmod, List.getElem?_eq_getElem hx, List.getElem?_eq_getElem hy,
    Option.getD_some] using hbit

/-! ## Reading -/

theorem getLsbD_get (bytes : List (BitVec 8)) (offset len j : Nat) :
    (get bytes offset len : BitVec w).getLsbD j =
      (decide (j < w) && decide (j < len) && bit bytes (offset + (len - 1 - j))) := by
  induction len generalizing j with
  | zero => simp [get]
  | succ n ih =>
      have hone : ∀ b : Bool, (if b then 1 else 0 : BitVec w).getLsbD j =
          (decide (j < w) && decide (j = 0) && b) := by
        intro b
        cases b
        · simp
        · cases j with
          | zero => simp [BitVec.getLsbD_one]
          | succ j => simp [BitVec.getLsbD_one]
      rw [get, BitVec.getLsbD_or, BitVec.getLsbD_shiftLeft, ih, hone]
      cases j with
      | zero => simp
      | succ j =>
          have hoff : offset + (n - 1 - j) = offset + (n + 1 - 1 - (j + 1)) := by omega
          simp only [Nat.add_sub_cancel, hoff, show ¬ j + 1 < 1 by omega, decide_false,
            Bool.not_false, show ¬ j + 1 = 0 by omega, Bool.and_false,
            Bool.false_and, Bool.or_false, Nat.add_lt_add_iff_right]
          by_cases hw : j + 1 < w
          · simp [hw, (by omega : j < w)]
          · simp [hw]

/-- A field depends on its own bits only. -/
theorem get_congr (xs ys : List (BitVec 8)) (offset len : Nat)
    (h : ∀ i, offset ≤ i → i < offset + len → bit xs i = bit ys i) :
    (get xs offset len : BitVec w) = get ys offset len := by
  apply BitVec.eq_of_getLsbD_eq
  intro j hj
  rw [getLsbD_get, getLsbD_get]
  by_cases hlt : j < len
  · rw [h _ (by omega) (by omega)]
  · simp [hlt]

theorem bit_zeros (n i : Nat) : bit (List.replicate n 0) i = false := by
  unfold bit
  rw [List.getElem?_replicate]
  split_ifs <;> simp

/-! ## Overwriting -/

@[simp]
theorem putPrefix_length (bytes : List (BitVec 8)) (offset len : Nat) (value : BitVec w)
    (n : Nat) : (putPrefix bytes offset len value n).length = bytes.length := by
  induction n with
  | zero => rfl
  | succ n ih => rw [putPrefix, setBit_length, ih]

theorem bit_putPrefix (bytes : List (BitVec 8)) (offset len : Nat) (value : BitVec w)
    (n j : Nat) (h : offset + n ≤ 8 * bytes.length) :
    bit (putPrefix bytes offset len value n) j =
      if offset ≤ j ∧ j < offset + n then value.getLsbD (len - 1 - (j - offset))
      else bit bytes j := by
  induction n with
  | zero =>
      have hempty : ¬ (offset ≤ j ∧ j < offset + 0) := by omega
      rw [putPrefix, if_neg hempty]
  | succ n ih =>
      rw [putPrefix, bit_setBit _ _ _ _ (by rw [putPrefix_length]; omega), ih (by omega)]
      by_cases hlast : j = offset + n
      · subst hlast
        rw [if_pos rfl, if_pos (by omega), Nat.add_sub_cancel_left]
      · rw [if_neg hlast]
        by_cases hin : offset ≤ j ∧ j < offset + n
        · rw [if_pos hin, if_pos (by omega)]
        · rw [if_neg hin, if_neg (by omega)]

@[simp]
theorem put_length (bytes : List (BitVec 8)) (offset len : Nat) (value : BitVec w) :
    (put bytes offset len value).length = bytes.length :=
  putPrefix_length bytes offset len value len

theorem bit_put (bytes : List (BitVec 8)) (offset len : Nat) (value : BitVec w) (j : Nat)
    (h : offset + len ≤ 8 * bytes.length) :
    bit (put bytes offset len value) j =
      if offset ≤ j ∧ j < offset + len then value.getLsbD (len - 1 - (j - offset))
      else bit bytes j :=
  bit_putPrefix bytes offset len value len j h

theorem put_append (xs ys : List (BitVec 8)) (offset len : Nat) (value : BitVec w)
    (h : offset + len ≤ 8 * xs.length) :
    put (xs ++ ys) offset len value = put xs offset len value ++ ys := by
  have hset : ∀ (zs : List (BitVec 8)) (i : Nat) (b : Bool), i < 8 * zs.length →
      setBit (zs ++ ys) i b = setBit zs i b ++ ys := by
    intro zs i b hi
    have hlt : i / 8 < zs.length := by omega
    rw [setBit, setBit, List.modify_eq_set_get _ (by simp; omega), List.modify_eq_set_get _ hlt,
      List.set_append_left _ _ hlt]
    simp [hlt]
  have hprefix : ∀ n, offset + n ≤ 8 * xs.length →
      putPrefix (xs ++ ys) offset len value n = putPrefix xs offset len value n ++ ys := by
    intro n
    induction n with
    | zero => intro _; rfl
    | succ n ih =>
        intro hn
        rw [putPrefix, putPrefix, ih (by omega), hset _ _ _ (by rw [putPrefix_length]; omega)]
  exact hprefix len h

/-! ## Whole bytes -/

theorem get_byte (bytes : List (BitVec 8)) (k i : Nat) (h : k + i < bytes.length) :
    (get bytes (8 * k) (8 * (i + 1)) : BitVec w) =
      (get bytes (8 * k) (8 * i) <<< 8) ||| bytes[k + i].setWidth w := by
  apply BitVec.eq_of_getLsbD_eq
  intro j hj
  rw [BitVec.getLsbD_or, BitVec.getLsbD_shiftLeft, BitVec.getLsbD_setWidth, getLsbD_get,
    getLsbD_get]
  by_cases hlow : j < 8
  · have hdiv : (8 * k + (8 * (i + 1) - 1 - j)) / 8 = k + i := by omega
    have hmod : (8 * k + (8 * (i + 1) - 1 - j)) % 8 = 7 - j := by omega
    simp [bit, hdiv, hmod, h, hlow, hj, BitVec.getMsbD_eq_getLsbD, (by omega : 7 - j < 8),
      (by omega : 7 - (7 - j) = j), (by omega : j < 8 * (i + 1))]
  · have hclear : bytes[k + i].getLsbD j = false := BitVec.getLsbD_of_ge _ _ (by omega)
    have hsame : 8 * (i + 1) - 1 - j = 8 * i - 1 - (j - 8) := by omega
    have hlen : j < 8 * (i + 1) ↔ j - 8 < 8 * i := by omega
    simp [hclear, hsame, hlen, hlow, hj, (by omega : j - 8 < w)]

/-- A field at the start of the first byte. -/
theorem get_top (bytes : List (BitVec 8)) (len : Nat) (h : 0 < bytes.length) (hlen : len ≤ 8) :
    (get bytes 0 len : BitVec w) = (bytes[0] >>> (8 - len)).setWidth w := by
  apply BitVec.eq_of_getLsbD_eq
  intro j hj
  rw [getLsbD_get, BitVec.getLsbD_setWidth, BitVec.getLsbD_ushiftRight]
  by_cases hin : j < len
  · have hdiv : (len - 1 - j) / 8 = 0 := by omega
    have hmod : (len - 1 - j) % 8 = len - 1 - j := by omega
    simp [bit, hdiv, hmod, h, hin, hj, BitVec.getMsbD_eq_getLsbD, (by omega : len - 1 - j < 8),
      (by omega : 7 - (len - 1 - j) = 8 - len + j)]
  · have hclear : bytes[0].getLsbD (8 - len + j) = false := BitVec.getLsbD_of_ge _ _ (by omega)
    simp [hclear, hin]

theorem set_putPrefix (bytes : List (BitVec 8)) (k i len : Nat) (value : BitVec w)
    (byte : BitVec 8) (h : k + i < bytes.length)
    (hbyte : ∀ j, j < 8 → byte.getMsbD j = value.getLsbD (len - 1 - (8 * i + j))) :
    (putPrefix bytes (8 * k) len value (8 * i)).set (k + i) byte =
      putPrefix bytes (8 * k) len value (8 * (i + 1)) := by
  apply ext_bit
  · simp
  intro j _
  rw [bit_set _ _ _ _ (by simpa using h), bit_putPrefix _ _ _ _ _ _ (by omega),
    bit_putPrefix _ _ _ _ _ _ (by omega)]
  by_cases hin : j / 8 = k + i
  · rw [if_pos hin, if_pos (by omega), hbyte _ (Nat.mod_lt _ (by decide))]
    congr 1
    omega
  · rw [if_neg hin]
    by_cases hbefore : 8 * k ≤ j ∧ j < 8 * k + 8 * i
    · rw [if_pos hbefore, if_pos (by omega)]
    · rw [if_neg hbefore, if_neg (by omega)]

/-! ## Lens laws -/

theorem get_put_same (bytes : List (BitVec 8)) (offset len : Nat) (value : BitVec w)
    (hfit : offset + len ≤ 8 * bytes.length) (hvalue : value.toNat < 2 ^ len) :
    get (put bytes offset len value) offset len = value := by
  apply BitVec.eq_of_getLsbD_eq
  intro j hj
  rw [getLsbD_get]
  by_cases hlt : j < len
  · rw [bit_put _ _ _ _ _ hfit, if_pos (by omega), Nat.add_sub_cancel_left,
      (by omega : len - 1 - (len - 1 - j) = j)]
    simp [hj, hlt]
  · have hclear : value.getLsbD j = false := by
      apply Nat.testBit_lt_two_pow
      exact Nat.lt_of_lt_of_le hvalue (Nat.pow_le_pow_right (by decide) (by omega))
    simp [hlt, hclear]

theorem get_put_disjoint (bytes : List (BitVec 8)) (offset len offset' len' : Nat)
    (value : BitVec w) (hfit : offset + len ≤ 8 * bytes.length)
    (hdisjoint : offset + len ≤ offset' ∨ offset' + len' ≤ offset) :
    (get (put bytes offset len value) offset' len' : BitVec w) = get bytes offset' len' := by
  apply get_congr
  intro i hlow hhigh
  rw [bit_put _ _ _ _ _ hfit, if_neg (by omega)]

theorem put_get (bytes : List (BitVec 8)) (offset len : Nat) (hw : len ≤ w)
    (hfit : offset + len ≤ 8 * bytes.length) :
    put bytes offset len (get bytes offset len : BitVec w) = bytes := by
  apply ext_bit
  · rw [put_length]
  intro i _
  rw [bit_put _ _ _ _ _ hfit]
  by_cases hin : offset ≤ i ∧ i < offset + len
  · have hindex : offset + (len - 1 - (len - 1 - (i - offset))) = i := by omega
    have hlow : len - 1 - (i - offset) < len := by omega
    rw [if_pos hin, getLsbD_get, hindex, decide_eq_true hlow,
      decide_eq_true (Nat.lt_of_lt_of_le hlow hw), Bool.true_and, Bool.true_and]
  · rw [if_neg hin]

/-- A field holds a number of its own length. -/
theorem get_lt (bytes : List (BitVec 8)) (offset len : Nat) :
    (get bytes offset len : BitVec w).toNat < 2 ^ len := by
  apply Nat.lt_pow_two_of_testBit
  intro j hj
  rw [BitVec.testBit_toNat, getLsbD_get, decide_eq_false (by omega : ¬ j < len), Bool.and_false,
    Bool.false_and]

end BitField
