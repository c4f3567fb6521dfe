import ServoFleet.Theory.BitField

/-!
Byte strings that are filled field by field. Where the fields keep apart, each of
them holds its own value in the end, and the bits of no field are as before.
-/

namespace FieldLayout

variable {w : Nat}

/-- A number that goes into the `len` bits from `offset` on. -/
structure Entry (w : Nat) where
  offset : Nat
  len : Nat
  value : BitVec w

/-- The bits of the entry. -/
def Entry.Covers (entry : Entry w) (i : Nat) : Prop :=
  entry.offset ≤ i ∧ i < entry.offset + entry.len

def Entry.Apart (entry other : Entry w) : Prop :=
  entry.offset + entry.len ≤ other.offset ∨ other.offset + other.len ≤ entry.offset

/-- The entry lies in the first `count` bytes and its number in its bits. -/
structure Entry.Fits (entry : Entry w) (count : Nat) : Prop where
  inside : entry.offset + entry.len ≤ 8 * count
  value : entry.value.toNat < 2 ^ entry.len

def fill (bytes : List (BitVec 8)) (entries : List (Entry w)) : List (BitVec 8) :=
  entries.foldl (fun bytes entry => BitField.put bytes entry.offset entry.len entry.value) bytes

variable (bytes : List (BitVec 8)) (entries : List (Entry w))

/-- Bits of no entry keep their value. -/
theorem bit_fill (i : Nat) (hfits : ∀ entry ∈ entries, entry.Fits bytes.length)
    (houtside : ∀ entry ∈ entries, ¬ entry.Covers i) :
    BitField.bit (fill bytes entries) i = BitField.bit bytes i := by
  induction entries generalizing bytes with
  | nil => rfl
  | cons entry rest ih =>
      obtain ⟨hentry, hrest⟩ := List.forall_mem_cons.mp hfits
      obtain ⟨hskip, hskips⟩ := List.forall_mem_cons.mp houtside
      have hlength := BitField.put_length bytes entry.offset entry.len entry.value
      have hput := (BitField.bit_put bytes entry.offset entry.len entry.value i
        hentry.inside).trans (if_neg hskip)
      exact (ih _ (by rwa [hlength]) hskips).trans hput

/-- Every entry is found where it was put. -/
theorem get_fill (hfits : ∀ entry ∈ entries, entry.Fits bytes.length)
    (hapart : entries.Pairwise Entry.Apart) {entry : Entry w} (member : entry ∈ entries) :
    BitField.get (fill bytes entries) entry.offset entry.len = entry.value := by
  induction entries generalizing bytes with
  | nil => exact absurd member List.not_mem_nil
  | cons first rest ih =>
      obtain ⟨hfirst, hrest⟩ := List.forall_mem_cons.mp hfits
      obtain ⟨hhead, htail⟩ := List.pairwise_cons.mp hapart
      have hlength := BitField.put_length bytes first.offset first.len first.value
      rw [← hlength] at hrest
      rcases List.mem_cons.mp member with rfl | member
      · have hkept : (BitField.get (fill bytes (entry :: rest)) entry.offset entry.len : BitVec w) =
            BitField.get (BitField.put bytes entry.offset entry.len entry.value) entry.offset
              entry.len := by
          apply BitField.get_congr
          intro i hlow hhigh
          apply bit_fill _ rest i hrest
          rintro other hother ⟨hlow', hhigh'⟩
          rcases hhead other hother with h | h <;> omega
        rw [hkept, BitField.get_put_same _ _ _ _ hfirst.inside hfirst.value]
      · exact ih _ hrest htail member

end FieldLayout
