import ServoFleet.BitCodecFields

/-!
What an accessor of bit fields is for, and that every accessor of the codec is
it: the unrolled ones, the byte loops and the bit loops give one result, one
error and one buffer, also for a field that does not fit or a value that is too
wide.
-/

namespace ServoFleet.BitCodec

/-- A byte buffer of the program: `size_t` counts its bits. -/
structure Buffer where
  bytes : List Byte
  size : 8 * bytes.length < 2 ^ 64

/-- A field of 1 to 32 bits at a 32-bit offset. -/
structure Field extends Bits where
  small : offset < 2 ^ 32

namespace Field

def Fits (field : Field) (bytes : List Byte) : Prop := field.offset + field.len ≤ 8 * bytes.length

instance (field : Field) (bytes : List Byte) : Decidable (field.Fits bytes) :=
  inferInstanceAs (Decidable (_ ≤ _))

def Disjoint (field other : Field) : Prop :=
  field.offset + field.len ≤ other.offset ∨ other.offset + other.len ≤ field.offset

def ByteAligned (field : Field) : Prop := field.offset % 8 = 0 ∧ field.len % 8 = 0

theorem sum_lt (field : Field) : field.offset + field.len < 2 ^ 64 := by
  have hsmall := field.small
  have hmax := field.le
  omega

end Field

/-! ## The accessors -/

abbrev Reader := Field → List Byte → Option (Result (BitVec 32))
abbrev Writer := Field → List Byte → BitVec 32 → Option (ErrCode × List Byte)

/-- The value of a field, as a number in its bits. -/
def fieldRead (field : Field) (bytes : List Byte) : Result (BitVec 32) :=
  if field.Fits bytes then .ok (BitField.get bytes field.offset field.len)
  else .error .invalidArgument

def fieldWrite (field : Field) (bytes : List Byte) (value : BitVec 32) : ErrCode × List Byte :=
  if field.Fits bytes ∧ value.toNat < 2 ^ field.len then
    (.ok (), BitField.put bytes field.offset field.len value)
  else (.error .invalidArgument, bytes)

/-- `read<Field>` -/
def templateRead : Reader := fun field bytes => read field.toBits bytes

/-- `write<Field>` -/
def templateWrite : Writer := fun field bytes value => write field.toBits bytes value

def rawRead : Reader := fun field bytes =>
  readU32Be bytes (BitVec.ofNat 64 field.offset) (BitVec.ofNat 64 field.len)

def rawWrite : Writer := fun field bytes value =>
  writeU32Be bytes (BitVec.ofNat 64 field.offset) (BitVec.ofNat 64 field.len) value

/-- `read_u32_be` with its byte loop alone. -/
def byteRead : Reader := fun field bytes =>
  let bitOffset := BitVec.ofNat 64 field.offset
  let bitLen := BitVec.ofNat 64 field.len
  if badField (BitVec.ofNat 64 bytes.length) bitOffset bitLen then
    some (.error .invalidArgument)
  else (readByteLoop bytes (bitOffset / 8) 0 (bitLen / 8).toNat 0).map .ok

/-- `read_u32_be` with its bit loop alone. -/
def bitRead : Reader := fun field bytes =>
  let bitOffset := BitVec.ofNat 64 field.offset
  let bitLen := BitVec.ofNat 64 field.len
  if badField (BitVec.ofNat 64 bytes.length) bitOffset bitLen then
    some (.error .invalidArgument)
  else (readBitLoop bytes bitOffset 0 bitLen.toNat 0).map .ok

/-- `write_u32_be` with its byte loop alone. -/
def byteWrite : Writer := fun field bytes value =>
  let bitOffset := BitVec.ofNat 64 field.offset
  let bitLen := BitVec.ofNat 64 field.len
  if badField (BitVec.ofNat 64 bytes.length) bitOffset bitLen then
    some (.error .invalidArgument, bytes)
  else if bitLen < 32 ∧ value >>> bitLen.toNat ≠ 0 then some (.error .invalidArgument, bytes)
  else (writeByteLoop (bitOffset / 8) bitLen value 0 (bitLen / 8).toNat bytes).map (.ok (), ·)

/-- `write_u32_be` with its bit loop alone. -/
def bitWrite : Writer := fun field bytes value =>
  let bitOffset := BitVec.ofNat 64 field.offset
  let bitLen := BitVec.ofNat 64 field.len
  if badField (BitVec.ofNat 64 bytes.length) bitOffset bitLen then
    some (.error .invalidArgument, bytes)
  else if bitLen < 32 ∧ value >>> bitLen.toNat ≠ 0 then some (.error .invalidArgument, bytes)
  else (writeBitLoop bitOffset bitLen value 0 bitLen.toNat bytes).map (.ok (), ·)

/-! ## One meaning -/

/-- The test for a value that is too wide. -/
theorem tooWide_iff (bitLen : Size) (value : BitVec 32) (hmax : bitLen.toNat ≤ 32) :
    (bitLen < 32 ∧ value >>> bitLen.toNat ≠ 0) ↔ ¬ value.toNat < 2 ^ bitLen.toNat := by
  have hvalue := value.isLt
  have hshift : value >>> bitLen.toNat = 0 ↔ value.toNat < 2 ^ bitLen.toNat := by
    rw [← BitVec.toNat_inj, BitVec.toNat_ushiftRight, Nat.shiftRight_eq_div_pow]
    exact Nat.div_eq_zero_iff_lt (Nat.two_pow_pos _)
  have hlt : bitLen < 32 ↔ bitLen.toNat < 32 := BitVec.lt_def
  rw [hlt, ne_eq, hshift]
  constructor
  · exact And.right
  · intro h
    refine ⟨?_, h⟩
    by_contra hlen
    have hword : bitLen.toNat = 32 := by omega
    rw [hword] at h
    exact h hvalue

section Meaning

variable (field : Field) (buffer : Buffer) (value : BitVec 32)

theorem badField_fits (h : field.Fits buffer.bytes) :
    badField (BitVec.ofNat 64 buffer.bytes.length) (BitVec.ofNat 64 field.offset)
      (BitVec.ofNat 64 field.len) = false :=
  badField_of_fits buffer.bytes field.offset field.len field.pos field.le h buffer.size

theorem badField_misfit (h : ¬ field.Fits buffer.bytes) :
    badField (BitVec.ofNat 64 buffer.bytes.length) (BitVec.ofNat 64 field.offset)
      (BitVec.ofNat 64 field.len) = true :=
  (badField_iff buffer.bytes field.offset field.len field.pos field.le field.sum_lt
    buffer.size).mpr h

theorem byteAligned_iff :
    (BitVec.ofNat 64 field.offset % 8 = 0 ∧ BitVec.ofNat 64 field.len % 8 = 0) ↔
      field.ByteAligned := by
  have hsum := field.sum_lt
  have hzero : ∀ a < 2 ^ 64, BitVec.ofNat 64 a % 8 = 0 ↔ a % 8 = 0 := by
    intro a ha
    rw [← BitVec.toNat_inj, size_mod a ha]
    rfl
  rw [hzero _ (by omega), hzero _ (by omega), Field.ByteAligned]

theorem wide_iff :
    (BitVec.ofNat 64 field.len < 32 ∧ value >>> (BitVec.ofNat 64 field.len).toNat ≠ 0) ↔
      ¬ value.toNat < 2 ^ field.len := by
  have hlen : (BitVec.ofNat 64 field.len).toNat = field.len := by
    have hmax := field.le
    exact size_ofNat _ (by omega)
  have hwide := tooWide_iff (BitVec.ofNat 64 field.len) value (by rw [hlen]; exact field.le)
  rwa [hlen] at hwide ⊢

theorem rawRead_eq : rawRead field buffer.bytes = some (fieldRead field buffer.bytes) := by
  by_cases h : field.Fits buffer.bytes
  · rw [fieldRead, if_pos h]
    exact readU32Be_eq buffer.bytes field.offset field.len field.pos field.le h buffer.size
  · rw [fieldRead, if_neg h]
    exact if_pos (badField_misfit field buffer h)

theorem bitRead_eq : bitRead field buffer.bytes = some (fieldRead field buffer.bytes) := by
  have hmax := field.le
  by_cases h : field.Fits buffer.bytes
  · have hloop := readBitLoop_eq buffer.bytes field.offset 0 field.len h buffer.size
    rw [Nat.zero_add] at hloop
    rw [fieldRead, if_pos h]
    simp only [bitRead, badField_fits field buffer h,
      size_ofNat _ (by omega : field.len < 2 ^ 64)]
    exact congrArg (Option.map Except.ok) hloop
  · rw [fieldRead, if_neg h]
    exact if_pos (badField_misfit field buffer h)

/-- On an aligned field the raw accessor runs its byte loop. -/
theorem byteRead_eq (haligned : field.ByteAligned) :
    byteRead field buffer.bytes = some (fieldRead field buffer.bytes) := by
  rw [← rawRead_eq, byteRead, rawRead, readU32Be, if_pos ((byteAligned_iff field).mpr haligned)]

/-- An unrolled accessor looks at whole bytes; the field fits by the same test. -/
theorem fits_unrolled (haligned : field.aligned = true) :
    buffer.bytes.length < field.offset / 8 + field.len / 8 ↔ ¬ field.Fits buffer.bytes := by
  simp only [Bits.aligned, Bool.and_eq_true, Bool.or_eq_true, decide_eq_true_eq] at haligned
  rw [Field.Fits]
  omega

theorem readAligned_meaning (haligned : field.aligned = true) :
    readAligned field.toBits buffer.bytes = some (fieldRead field buffer.bytes) := by
  by_cases h : field.Fits buffer.bytes
  · rw [fieldRead, if_pos h]
    exact readAligned_eq buffer.bytes field.toBits haligned h
  · rw [fieldRead, if_neg h]
    exact if_pos ((fits_unrolled field buffer haligned).mpr h)

theorem templateRead_eq :
    templateRead field buffer.bytes = some (fieldRead field buffer.bytes) := by
  rw [templateRead, read]
  split_ifs with haligned
  · exact readAligned_meaning field buffer haligned
  · exact rawRead_eq field buffer

/-! ### Writing -/

theorem rawWrite_eq :
    rawWrite field buffer.bytes value = some (fieldWrite field buffer.bytes value) := by
  by_cases hfit : field.Fits buffer.bytes
  · by_cases hvalue : value.toNat < 2 ^ field.len
    · rw [fieldWrite, if_pos ⟨hfit, hvalue⟩]
      exact writeU32Be_eq buffer.bytes field.offset field.len value field.pos field.le hfit
        buffer.size hvalue
    · rw [fieldWrite, if_neg (fun h => hvalue h.2), rawWrite, writeU32Be,
        badField_fits field buffer hfit, if_neg (by decide),
        if_pos ((wide_iff field value).mpr hvalue)]
  · rw [fieldWrite, if_neg (fun h => hfit h.1)]
    exact if_pos (badField_misfit field buffer hfit)

theorem bitWrite_eq :
    bitWrite field buffer.bytes value = some (fieldWrite field buffer.bytes value) := by
  have hmax := field.le
  by_cases hfit : field.Fits buffer.bytes
  · by_cases hvalue : value.toNat < 2 ^ field.len
    · have hloop := writeBitLoop_eq buffer.bytes field.offset field.len 0 field.len value
        (by omega) hmax hfit buffer.size
      rw [Nat.zero_add] at hloop
      rw [fieldWrite, if_pos ⟨hfit, hvalue⟩]
      simp only [bitWrite, badField_fits field buffer hfit]
      rw [if_neg (by decide), if_neg (mt (wide_iff field value).mp (not_not.mpr hvalue)),
        size_ofNat _ (by omega)]
      exact congrArg (Option.map fun after => ((.ok () : ErrCode), after)) hloop
    · rw [fieldWrite, if_neg (fun h => hvalue h.2)]
      simp only [bitWrite, badField_fits field buffer hfit]
      rw [if_neg (by decide), if_pos ((wide_iff field value).mpr hvalue)]
  · rw [fieldWrite, if_neg (fun h => hfit h.1)]
    exact if_pos (badField_misfit field buffer hfit)

theorem byteWrite_eq (haligned : field.ByteAligned) :
    byteWrite field buffer.bytes value = some (fieldWrite field buffer.bytes value) := by
  rw [← rawWrite_eq, byteWrite, rawWrite, writeU32Be]
  simp only [(byteAligned_iff field).mpr haligned, and_self, if_true]

/-- The unrolled store does not look at the width of the value: its caller does. -/
theorem writeAligned_meaning (haligned : field.aligned = true)
    (hvalue : value.toNat < 2 ^ field.len) :
    writeAligned field.toBits buffer.bytes value =
      some (fieldWrite field buffer.bytes value) := by
  by_cases h : field.Fits buffer.bytes
  · rw [fieldWrite, if_pos ⟨h, hvalue⟩]
    exact writeAligned_eq buffer.bytes field.toBits value haligned h
  · rw [fieldWrite, if_neg (fun hok => h hok.1)]
    exact if_pos ((fits_unrolled field buffer haligned).mpr h)

theorem templateWrite_eq :
    templateWrite field buffer.bytes value = some (fieldWrite field buffer.bytes value) := by
  by_cases hvalue : value.toNat < 2 ^ field.len
  · rw [templateWrite, write, if_neg (by rw [fieldMask_iff]; exact not_not.mpr hvalue)]
    split_ifs with haligned
    · exact writeAligned_meaning field buffer value haligned hvalue
    · exact rawWrite_eq field buffer value
  · rw [fieldWrite, if_neg (fun h => hvalue h.2)]
    exact write_error field.toBits buffer.bytes value hvalue

end Meaning

end ServoFleet.BitCodec
