import ServoFleet.Theory.FieldLayout
import ServoFleet.FrameFields

/-!
Frames as lists of fields. Fields that keep apart inside the active bytes, with numbers
that fit, all read back, and no other bit changes.
-/

namespace ServoFleet

open BitCodec

/-- A number for a field of a frame. -/
structure FieldValue where
  field : Bits
  raw : BitVec 32

namespace FieldValue

def entry (value : FieldValue) : FieldLayout.Entry 32 :=
  { offset := value.field.offset, len := value.field.len, value := value.raw }

/-- The number fits in the bits of its field. -/
def Small (value : FieldValue) : Prop := value.raw.toNat < 2 ^ value.field.len

instance (value : FieldValue) : Decidable value.Small := inferInstanceAs (Decidable (_ < _))

/-- The bits of the field. -/
def Covers (value : FieldValue) (i : Nat) : Prop :=
  value.field.offset ≤ i ∧ i < value.field.offset + value.field.len

def Apart (value other : FieldValue) : Prop :=
  value.field.offset + value.field.len ≤ other.field.offset ∨
    other.field.offset + other.field.len ≤ value.field.offset

instance (value other : FieldValue) : Decidable (value.Apart other) :=
  inferInstanceAs (Decidable (_ ∨ _))

end FieldValue

namespace CanFrame

/-- The frame with some fields written one after the other. -/
def fill (frame : CanFrame) (values : List FieldValue) : CanFrame :=
  values.foldl (fun frame value => frame.put value.field value.raw) frame

variable (frame : CanFrame) (values : List FieldValue)

theorem fill_address : (frame.fill values).port = frame.port ∧ (frame.fill values).id = frame.id ∧
    (frame.fill values).extended = frame.extended ∧ (frame.fill values).len = frame.len := by
  induction values generalizing frame with
  | nil => exact ⟨rfl, rfl, rfl, rfl⟩
  | cons value rest ih => exact ih (frame.put value.field value.raw)

theorem fill_toList : (frame.fill values).data.toList =
    FieldLayout.fill frame.data.toList (values.map FieldValue.entry) := by
  induction values generalizing frame with
  | nil => rfl
  | cons value rest ih =>
      rw [fill, List.foldl_cons]
      exact ih (frame.put value.field value.raw)

/-- A list of fields that keep apart inside the active bytes, with numbers that fit. -/
structure LaidOut : Prop where
  fits : ∀ value ∈ values, frame.Fits value.field
  small : ∀ value ∈ values, value.Small
  apart : values.Pairwise FieldValue.Apart

variable {frame values}

private theorem entries_fit (h : frame.LaidOut values) :
    ∀ entry ∈ values.map FieldValue.entry, entry.Fits frame.data.toList.length := by
  intro entry member
  obtain ⟨value, hvalue, rfl⟩ := List.mem_map.mp member
  obtain ⟨hlen, hfit⟩ := h.fits value hvalue
  simp only [maxCanDataLen] at hlen
  refine ⟨?_, h.small value hvalue⟩
  change value.field.offset + value.field.len ≤ _
  rw [Vector.length_toList]
  omega

/-- Every field of the list reads back as its number. -/
theorem get_fill (h : frame.LaidOut values) {value : FieldValue} (member : value ∈ values) :
    (frame.fill values).get value.field = value.raw := by
  rw [get, fill_toList]
  exact FieldLayout.get_fill _ _ (entries_fit h)
    (List.pairwise_map.mpr h.apart) (List.mem_map_of_mem member)

/-- The bits of no field are those of the frame before. -/
theorem bit_fill (h : frame.LaidOut values) {i : Nat}
    (houtside : ∀ value ∈ values, ¬ value.Covers i) :
    BitField.bit (frame.fill values).data.toList i = BitField.bit frame.data.toList i := by
  rw [fill_toList]
  apply FieldLayout.bit_fill _ _ _ (entries_fit h)
  intro entry member
  obtain ⟨value, hvalue, rfl⟩ := List.mem_map.mp member
  exact houtside value hvalue

end CanFrame

end ServoFleet
