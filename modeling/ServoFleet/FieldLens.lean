import ServoFleet.FieldAccess

/-!
The accessors obey the laws of a lens on fields at any position, and the fast paths
agree with the bit loops.

Fields have 1 to 32 bits at an offset of 32 bits, for which the sum in the guard of
the raw accessors is exact; what that guard does beyond is a question of its own.
-/

namespace ServoFleet.BitCodec

/-- The laws of a reader and a writer on one buffer. -/
structure LensLaws (read : Reader) (write : Writer) (buffer : Buffer) : Prop where
  accepts : ∀ (field : Field) (value : BitVec 32), field.Fits buffer.bytes →
    ((∃ after, write field buffer.bytes value = some (.ok (), after)) ↔
      value.toNat < 2 ^ field.len)
  readBack : ∀ (field : Field) (value : BitVec 32) (after : List Byte),
    write field buffer.bytes value = some (.ok (), after) → read field after = some (.ok value)
  disjoint : ∀ (field other : Field) (value : BitVec 32) (after : List Byte),
    write field buffer.bytes value = some (.ok (), after) → field.Disjoint other →
      read other after = read other buffer.bytes
  restores : ∀ (field : Field) (value : BitVec 32),
    read field buffer.bytes = some (.ok value) →
      write field buffer.bytes value = some (.ok (), buffer.bytes)
  refuses : ∀ (field : Field) (value : BitVec 32),
    (¬ field.Fits buffer.bytes ∨ ¬ value.toNat < 2 ^ field.len) →
      write field buffer.bytes value = some (.error .invalidArgument, buffer.bytes)

section Abstract

variable (field other : Field) (bytes : List Byte) (value : BitVec 32)

theorem fieldWrite_ok_iff (after : List Byte) :
    fieldWrite field bytes value = (.ok (), after) ↔
      field.Fits bytes ∧ value.toNat < 2 ^ field.len ∧
        after = BitField.put bytes field.offset field.len value := by
  unfold fieldWrite
  split_ifs with h
  · rw [Prod.mk.injEq, and_iff_right rfl, and_iff_right h.1, and_iff_right h.2, eq_comm]
  · simp only [Prod.mk.injEq, reduceCtorEq, false_and, false_iff]
    exact fun hok => h ⟨hok.1, hok.2.1⟩

theorem fits_put : field.Fits (BitField.put bytes other.offset other.len value) ↔
    field.Fits bytes := by
  rw [Field.Fits, Field.Fits, BitField.put_length]

theorem fieldRead_put_same (hfit : field.Fits bytes) (hvalue : value.toNat < 2 ^ field.len) :
    fieldRead field (BitField.put bytes field.offset field.len value) = .ok value := by
  rw [fieldRead, if_pos ((fits_put field field bytes value).mpr hfit),
    BitField.get_put_same bytes field.offset field.len value hfit hvalue]

theorem fieldRead_put_disjoint (hfit : field.Fits bytes) (hdisjoint : field.Disjoint other) :
    fieldRead other (BitField.put bytes field.offset field.len value) = fieldRead other bytes := by
  simp only [fieldRead, fits_put,
    BitField.get_put_disjoint bytes field.offset field.len other.offset other.len value hfit
      hdisjoint]

theorem fieldWrite_read (h : fieldRead field bytes = .ok value) :
    fieldWrite field bytes value = (.ok (), bytes) := by
  unfold fieldRead at h
  split_ifs at h with hfit
  obtain rfl := Except.ok.inj h
  rw [fieldWrite_ok_iff]
  exact ⟨hfit, BitField.get_lt bytes field.offset field.len,
    (BitField.put_get bytes field.offset field.len field.le hfit).symm⟩

end Abstract

/-- A pair of accessors that means `fieldRead` and `fieldWrite` is a lens. -/
theorem LensLaws.of_meaning {read : Reader} {write : Writer}
    (hread : ∀ (field : Field) (buffer : Buffer),
      read field buffer.bytes = some (fieldRead field buffer.bytes))
    (hwrite : ∀ (field : Field) (buffer : Buffer) (value : BitVec 32),
      write field buffer.bytes value = some (fieldWrite field buffer.bytes value))
    (buffer : Buffer) : LensLaws read write buffer := by
  have hafter : ∀ (field : Field) (value : BitVec 32) (after : List Byte),
      write field buffer.bytes value = some (.ok (), after) →
        field.Fits buffer.bytes ∧ value.toNat < 2 ^ field.len ∧
          after = BitField.put buffer.bytes field.offset field.len value := by
    intro field value after h
    rw [hwrite] at h
    exact (fieldWrite_ok_iff field buffer.bytes value after).mp (Option.some.inj h)
  have hput : ∀ (field reading : Field) (value : BitVec 32),
      read reading (BitField.put buffer.bytes field.offset field.len value) =
        some (fieldRead reading (BitField.put buffer.bytes field.offset field.len value)) := by
    intro field reading value
    exact hread reading ⟨BitField.put buffer.bytes field.offset field.len value, by
      rw [BitField.put_length]
      exact buffer.size⟩
  constructor
  · intro field value hfit
    constructor
    · rintro ⟨after, h⟩
      exact (hafter field value after h).2.1
    · intro hvalue
      exact ⟨_, (hwrite field buffer value).trans
        (congrArg some ((fieldWrite_ok_iff field buffer.bytes value _).mpr ⟨hfit, hvalue, rfl⟩))⟩
  · intro field value after h
    obtain ⟨hfit, hvalue, rfl⟩ := hafter field value after h
    rw [hput, fieldRead_put_same field buffer.bytes value hfit hvalue]
  · intro field other value after h hdisjoint
    obtain ⟨hfit, _, rfl⟩ := hafter field value after h
    rw [hput, fieldRead_put_disjoint field other buffer.bytes value hfit hdisjoint, hread]
  · intro field value h
    rw [hread] at h
    rw [hwrite, fieldWrite_read field buffer.bytes value (Option.some.inj h)]
  · intro field value h
    rw [hwrite, fieldWrite, if_neg]
    rintro ⟨hfit, hvalue⟩
    exact h.elim (fun hmisfit => hmisfit hfit) fun hwide => hwide hvalue

/-- Both pairs of accessors, the templates and the raw ones, are lenses on every buffer:
an accepted write is read back and leaves every disjoint field as it was, and what does
not fit is refused with nothing written. -/
theorem accessors_are_lenses (buffer : Buffer) :
    LensLaws templateRead templateWrite buffer ∧ LensLaws rawRead rawWrite buffer :=
  ⟨LensLaws.of_meaning templateRead_eq templateWrite_eq buffer,
    LensLaws.of_meaning rawRead_eq rawWrite_eq buffer⟩

/-- On a byte-aligned field the loops agree, and on fields of 8, 16 and 32 bits the
unrolled accessors agree with them. Fields outside the buffer are included. Only the
unrolled writer has no guard against a value that is too wide. -/
theorem fast_paths_agree (field : Field) (buffer : Buffer) (value : BitVec 32)
    (haligned : field.ByteAligned) :
    ∃ result outcome,
      (bitRead field buffer.bytes = some result ∧ byteRead field buffer.bytes = some result ∧
        rawRead field buffer.bytes = some result) ∧
      (bitWrite field buffer.bytes value = some outcome ∧
        byteWrite field buffer.bytes value = some outcome ∧
        rawWrite field buffer.bytes value = some outcome) ∧
      (field.len = 8 ∨ field.len = 16 ∨ field.len = 32 →
        readAligned field.toBits buffer.bytes = some result ∧
        templateRead field buffer.bytes = some result ∧
        templateWrite field buffer.bytes value = some outcome ∧
        (value.toNat < 2 ^ field.len →
          writeAligned field.toBits buffer.bytes value = some outcome)) := by
  refine ⟨fieldRead field buffer.bytes, fieldWrite field buffer.bytes value, ?_, ?_, ?_⟩
  · exact ⟨bitRead_eq field buffer, byteRead_eq field buffer haligned, rawRead_eq field buffer⟩
  · exact ⟨bitWrite_eq field buffer value, byteWrite_eq field buffer value haligned,
      rawWrite_eq field buffer value⟩
  · intro hlen
    have hunrolled : field.aligned = true := by
      simp only [Bits.aligned, Bool.and_eq_true, Bool.or_eq_true, decide_eq_true_eq, or_assoc]
      exact ⟨haligned.1, hlen⟩
    exact ⟨readAligned_meaning field buffer hunrolled, templateRead_eq field buffer,
      templateWrite_eq field buffer value, writeAligned_meaning field buffer value hunrolled⟩

/-- A field that ends with the buffer, and a value that is too wide for it. -/
theorem fast_paths_agree_at_the_end :
    ∃ result outcome,
      (bitRead ⟨Bits.u16 8, by decide⟩ [1, 2, 3] = some result ∧
        byteRead ⟨Bits.u16 8, by decide⟩ [1, 2, 3] = some result ∧
        rawRead ⟨Bits.u16 8, by decide⟩ [1, 2, 3] = some result) ∧
      (bitWrite ⟨Bits.u16 8, by decide⟩ [1, 2, 3] 0x10000 = some outcome ∧
        byteWrite ⟨Bits.u16 8, by decide⟩ [1, 2, 3] 0x10000 = some outcome ∧
        rawWrite ⟨Bits.u16 8, by decide⟩ [1, 2, 3] 0x10000 = some outcome) := by
  obtain ⟨result, outcome, hread, hwrite, _⟩ := fast_paths_agree ⟨Bits.u16 8, by decide⟩
    ⟨[1, 2, 3], by decide⟩ 0x10000 ⟨by decide, by decide⟩
  exact ⟨result, outcome, hread, hwrite⟩

end ServoFleet.BitCodec
