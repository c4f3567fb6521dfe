import Mathlib.Data.Nat.Notation

/-!
Sixteen- and thirty-two-bit words as bytes, most significant first.
-/

namespace BigEndian

def join16 (b0 b1 : BitVec 8) : BitVec 16 :=
  (b0.setWidth 16 <<< 8) ||| b1.setWidth 16

def join32 (b0 b1 b2 b3 : BitVec 8) : BitVec 32 :=
  (b0.setWidth 32 <<< 24) ||| (b1.setWidth 32 <<< 16) ||| (b2.setWidth 32 <<< 8) |||
    b3.setWidth 32

def split16 (value : BitVec 16) : List (BitVec 8) :=
  [(value >>> 8).setWidth 8, value.setWidth 8]

def split32 (value : BitVec 32) : List (BitVec 8) :=
  [(value >>> 24).setWidth 8, (value >>> 16).setWidth 8, (value >>> 8).setWidth 8,
    value.setWidth 8]

@[simp]
theorem split16_length (value : BitVec 16) : (split16 value).length = 2 := rfl

@[simp]
theorem split32_length (value : BitVec 32) : (split32 value).length = 4 := rfl

theorem join16_append (b0 b1 : BitVec 8) : join16 b0 b1 = b0 ++ b1 := by
  rw [join16, ← BitVec.setWidth_append_eq_shiftLeft_setWidth_or, BitVec.setWidth_eq]

theorem join32_append (b0 b1 b2 b3 : BitVec 8) : join32 b0 b1 b2 b3 = b0 ++ b1 ++ b2 ++ b3 := by
  have h := @BitVec.setWidth_append_append_append_eq_shiftLeft_setWidth_or 8 8 8 8 32 b0 b1 b2 b3
  rw [BitVec.setWidth_eq] at h
  exact h.symm

theorem join16_xor (b0 b1 c0 c1 : BitVec 8) :
    join16 b0 b1 ^^^ join16 c0 c1 = join16 (b0 ^^^ c0) (b1 ^^^ c1) := by
  rw [join16_append, join16_append, join16_append]
  exact BitVec.xor_append

theorem join16_split (value : BitVec 16) :
    join16 ((value >>> 8).setWidth 8) (value.setWidth 8) = value := by
  rw [join16_append, BitVec.setWidth_ushiftRight_eq_extractLsb,
    BitVec.setWidth_eq_extractLsb' (by decide)]
  exact BitVec.extractLsb'_append_extractLsb'

theorem split16_join (b0 b1 : BitVec 8) : split16 (join16 b0 b1) = [b0, b1] := by
  rw [split16, join16_append, BitVec.setWidth_ushiftRight_eq_extractLsb,
    BitVec.extractLsb'_append_eq_left, BitVec.setWidth_append_eq_right]

theorem join32_split (value : BitVec 32) :
    join32 ((value >>> 24).setWidth 8) ((value >>> 16).setWidth 8) ((value >>> 8).setWidth 8)
      (value.setWidth 8) = value := by
  have hupper : value.extractLsb' 24 8 ++ value.extractLsb' 16 8 = value.extractLsb' 16 16 :=
    BitVec.extractLsb'_append_extractLsb'_eq_extractLsb' rfl
  have hmiddle : value.extractLsb' 16 16 ++ value.extractLsb' 8 8 = value.extractLsb' 8 24 :=
    BitVec.extractLsb'_append_extractLsb'_eq_extractLsb' rfl
  simp only [join32_append, BitVec.setWidth_ushiftRight_eq_extractLsb]
  rw [BitVec.setWidth_eq_extractLsb' (by decide), hupper, hmiddle]
  exact BitVec.extractLsb'_append_extractLsb'

theorem split32_join (b0 b1 b2 b3 : BitVec 8) :
    split32 (join32 b0 b1 b2 b3) = [b0, b1, b2, b3] := by
  have h0 : (b0 ++ b1 ++ b2 ++ b3).extractLsb' 24 8 = b0 := by
    rw [BitVec.extractLsb'_append_eq_of_le (by decide),
      BitVec.extractLsb'_append_eq_of_le (by decide)]
    exact BitVec.extractLsb'_append_eq_left
  have h1 : (b0 ++ b1 ++ b2 ++ b3).extractLsb' 16 8 = b1 := by
    rw [BitVec.extractLsb'_append_eq_of_le (by decide),
      BitVec.extractLsb'_append_eq_of_le (by decide)]
    exact BitVec.extractLsb'_append_eq_right
  have h2 : (b0 ++ b1 ++ b2 ++ b3).extractLsb' 8 8 = b2 := by
    rw [BitVec.extractLsb'_append_eq_of_le (by decide)]
    exact BitVec.extractLsb'_append_eq_right
  simp only [split32, join32_append, BitVec.setWidth_ushiftRight_eq_extractLsb, h0, h1, h2,
    BitVec.setWidth_append_eq_right]

end BigEndian
