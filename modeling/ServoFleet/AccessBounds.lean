import ServoFleet.FieldAccess

/-!
The bounds check of the raw accessors, for any two `size_t` arguments. The sum it
compares wraps, so a field that reaches past the end of the 64-bit range can pass
it, and is then accessed outside the buffer.

Buffers of 2 ^ 61 bytes or more, whose bits a `size_t` cannot count, are left out.
-/

namespace ServoFleet.BitCodec

/-- A field of 1 to 32 bits inside the buffer, by its true end. -/
def InBounds (bytes : List Byte) (bitOffset bitLen : Size) : Prop :=
  (1 ≤ bitLen.toNat ∧ bitLen.toNat ≤ 32) ∧ bitOffset.toNat + bitLen.toNat ≤ 8 * bytes.length

/-- A field of 1 to 32 bits whose end wraps to a place in the buffer. -/
def WrapsInto (bytes : List Byte) (bitOffset bitLen : Size) : Prop :=
  (1 ≤ bitLen.toNat ∧ bitLen.toNat ≤ 32) ∧ 2 ^ 64 ≤ bitOffset.toNat + bitLen.toNat ∧
    bitOffset.toNat + bitLen.toNat - 2 ^ 64 ≤ 8 * bytes.length

section Guard

variable {bytes : List Byte} {bitOffset bitLen : Size}

/-- The guard lets through what is inside the buffer and what wraps into it. -/
theorem badField_false_iff (hsize : bytes.length < 2 ^ 61) :
    badField (BitVec.ofNat 64 bytes.length) bitOffset bitLen = false ↔
      InBounds bytes bitOffset bitLen ∨ WrapsInto bytes bitOffset bitLen := by
  have hbits : (BitVec.ofNat 64 bytes.length * 8).toNat = 8 * bytes.length := by
    rw [BitVec.toNat_mul, size_ofNat _ (by omega)]
    change bytes.length * 8 % 2 ^ 64 = _
    omega
  have hzero : bitLen = 0 ↔ bitLen.toNat = 0 := BitVec.toNat_eq
  have hmax : bitLen > 32 ↔ 32 < bitLen.toNat := BitVec.lt_def
  have hend : bitOffset + bitLen > BitVec.ofNat 64 bytes.length * 8 ↔
      8 * bytes.length < (bitOffset.toNat + bitLen.toNat) % 2 ^ 64 := by
    rw [gt_iff_lt, BitVec.lt_def, hbits, BitVec.toNat_add]
  have hoffset := bitOffset.isLt
  simp only [badField, Bool.or_eq_false_iff, decide_eq_false_iff_not, hzero, hmax, hend, InBounds,
    WrapsInto]
  omega

theorem badField_refuses (hsize : bytes.length < 2 ^ 61) (hout : ¬ InBounds bytes bitOffset bitLen)
    (hwraps : ¬ WrapsInto bytes bitOffset bitLen) :
    badField (BitVec.ofNat 64 bytes.length) bitOffset bitLen = true := by
  rw [← Bool.not_eq_false, badField_false_iff hsize]
  exact fun h => h.elim hout hwraps

end Guard

/-! ## The loops -/

/-- A loop that accesses one byte in each turn ends only when all of them were inside. -/
private theorem indices_inside {β γ : Type} {loop : Nat → Nat → β → Option γ} {size : Nat}
    (index : Nat → Nat) (Sized : β → Prop)
    (hturn : ∀ i count b r, Sized b → loop i (count + 1) b = some r →
      index i < size ∧ ∃ next, Sized next ∧ loop (i + 1) count next = some r)
    {i count : Nat} {b : β} {r : γ} (hb : Sized b) (h : loop i count b = some r) :
    ∀ j, i ≤ j → j < i + count → index j < size := by
  induction count generalizing i b with
  | zero =>
      intro j hlow hhigh
      omega
  | succ count ih =>
      intro j hlow hhigh
      obtain ⟨hinside, next, hnext, hrest⟩ := hturn i count b r hb h
      rcases Nat.eq_or_lt_of_le hlow with rfl | hlater
      · exact hinside
      · exact ih hnext hrest j hlater (by omega)

section Loops

variable (bytes : List Byte) (offset bitLen : Size) (value : BitVec 32)

theorem readByteLoop_inside {count : Nat} {start result : BitVec 32}
    (h : readByteLoop bytes offset 0 count start = some result) (j : Nat) (hj : j < count) :
    (offset + BitVec.ofNat 64 j).toNat < bytes.length := by
  refine indices_inside (fun j => (offset + BitVec.ofNat 64 j).toNat) (fun _ => True) ?_ trivial h j
    (Nat.zero_le j) (by omega)
  intro i count b r _ hloop
  rw [readByteLoop, Option.bind_eq_bind, Option.bind_eq_some_iff] at hloop
  obtain ⟨byte, hbyte, hrest⟩ := hloop
  exact ⟨(List.getElem?_eq_some_iff.mp hbyte).1, _, trivial, hrest⟩

theorem readBitLoop_inside {count : Nat} {start result : BitVec 32}
    (h : readBitLoop bytes offset 0 count start = some result) (j : Nat) (hj : j < count) :
    ((offset + BitVec.ofNat 64 j) / 8).toNat < bytes.length := by
  refine indices_inside (fun j => ((offset + BitVec.ofNat 64 j) / 8).toNat) (fun _ => True) ?_
    trivial h j (Nat.zero_le j) (by omega)
  intro i count b r _ hloop
  simp only [readBitLoop, Option.bind_eq_bind, Option.bind_eq_some_iff] at hloop
  obtain ⟨byte, hbyte, hrest⟩ := hloop
  exact ⟨(List.getElem?_eq_some_iff.mp hbyte).1, _, trivial, hrest⟩

theorem writeByteLoop_inside {count : Nat} {result : List Byte}
    (h : writeByteLoop offset bitLen value 0 count bytes = some result) (j : Nat) (hj : j < count) :
    (offset + BitVec.ofNat 64 j).toNat < bytes.length := by
  refine indices_inside (fun j => (offset + BitVec.ofNat 64 j).toNat)
    (fun now : List Byte => now.length = bytes.length) ?_ rfl h j (Nat.zero_le j) (by omega)
  intro i count now r hnow hloop
  simp only [writeByteLoop, Option.bind_eq_bind, Option.bind_eq_some_iff] at hloop
  obtain ⟨byte, hbyte, hrest⟩ := hloop
  exact ⟨hnow ▸ (List.getElem?_eq_some_iff.mp hbyte).1, _, List.length_set.trans hnow, hrest⟩

theorem writeBitLoop_inside {count : Nat} {result : List Byte}
    (h : writeBitLoop offset bitLen value 0 count bytes = some result) (j : Nat) (hj : j < count) :
    ((offset + BitVec.ofNat 64 j) / 8).toNat < bytes.length := by
  refine indices_inside (fun j => ((offset + BitVec.ofNat 64 j) / 8).toNat)
    (fun now : List Byte => now.length = bytes.length) ?_ rfl h j (Nat.zero_le j) (by omega)
  intro i count now r hnow hloop
  simp only [writeBitLoop, Option.bind_eq_bind, Option.bind_eq_some_iff] at hloop
  obtain ⟨byte, hbyte, hrest⟩ := hloop
  exact ⟨hnow ▸ (List.getElem?_eq_some_iff.mp hbyte).1, _, List.length_set.trans hnow, hrest⟩

end Loops

/-! ## What a call does -/

section Outcomes

variable {bytes : List Byte} {bitOffset bitLen : Size} {value : BitVec 32}

/-- A field that wraps has the last bit of the 64-bit range, in a byte that no
buffer reaches. -/
theorem WrapsInto.last_bit (h : WrapsInto bytes bitOffset bitLen) :
    2 ^ 64 - 1 - bitOffset.toNat < bitLen.toNat ∧
      ((bitOffset + BitVec.ofNat 64 (2 ^ 64 - 1 - bitOffset.toNat)) / 8).toNat = 2 ^ 61 - 1 := by
  have hoffset := bitOffset.isLt
  have hend := h.2.1
  refine ⟨by omega, ?_⟩
  rw [BitVec.toNat_udiv, BitVec.toNat_add, size_ofNat _ (by omega)]
  change (_ % 2 ^ 64) / 8 = _
  omega

/-- A byte-aligned one has all of that byte. -/
theorem WrapsInto.last_byte (h : WrapsInto bytes bitOffset bitLen) (hoffset : bitOffset % 8 = 0)
    (hlen : bitLen % 8 = 0) :
    2 ^ 61 - 1 - bitOffset.toNat / 8 < (bitLen / 8).toNat ∧
      (bitOffset / 8 + BitVec.ofNat 64 (2 ^ 61 - 1 - bitOffset.toNat / 8)).toNat = 2 ^ 61 - 1 := by
  have hlt := bitOffset.isLt
  have hend := h.2.1
  have hoffset' : bitOffset.toNat % 8 = 0 := congrArg BitVec.toNat hoffset
  have hlen' : bitLen.toNat % 8 = 0 := congrArg BitVec.toNat hlen
  have hdiv : ∀ size : Size, (size / 8).toNat = size.toNat / 8 := fun size => BitVec.toNat_udiv
  rw [hdiv, BitVec.toNat_add, hdiv, size_ofNat _ (by omega)]
  omega

theorem readU32Be_inBounds (hsize : bytes.length < 2 ^ 61)
    (h : InBounds bytes bitOffset bitLen) :
    readU32Be bytes bitOffset bitLen =
      some (.ok (BitField.get bytes bitOffset.toNat bitLen.toNat)) := by
  have hread := readU32Be_eq bytes bitOffset.toNat bitLen.toNat h.1.1 h.1.2 h.2 (by omega)
  rwa [BitVec.ofNat_toNat, BitVec.ofNat_toNat, BitVec.setWidth_eq, BitVec.setWidth_eq] at hread

/-- A field that wraps into the buffer is read outside it. -/
theorem readU32Be_outside (hsize : bytes.length < 2 ^ 61)
    (h : WrapsInto bytes bitOffset bitLen) : readU32Be bytes bitOffset bitLen = none := by
  rw [readU32Be, (badField_false_iff hsize).mpr (.inr h), if_neg Bool.false_ne_true]
  split_ifs with haligned
  · obtain ⟨hturn, hindex⟩ := h.last_byte haligned.1 haligned.2
    rw [Option.map_eq_none_iff, Option.eq_none_iff_forall_ne_some]
    intro result hloop
    have hinside := readByteLoop_inside bytes _ hloop _ hturn
    omega
  · obtain ⟨hturn, hindex⟩ := h.last_bit
    rw [Option.map_eq_none_iff, Option.eq_none_iff_forall_ne_some]
    intro result hloop
    have hinside := readBitLoop_inside bytes _ hloop _ hturn
    omega

theorem readU32Be_refuses (hsize : bytes.length < 2 ^ 61)
    (hout : ¬ InBounds bytes bitOffset bitLen) (hwraps : ¬ WrapsInto bytes bitOffset bitLen) :
    readU32Be bytes bitOffset bitLen = some (.error .invalidArgument) :=
  if_pos (badField_refuses hsize hout hwraps)

theorem writeU32Be_inBounds (hsize : bytes.length < 2 ^ 61)
    (h : InBounds bytes bitOffset bitLen) (hvalue : value.toNat < 2 ^ bitLen.toNat) :
    writeU32Be bytes bitOffset bitLen value =
      some (.ok (), BitField.put bytes bitOffset.toNat bitLen.toNat value) := by
  have hwrite := writeU32Be_eq bytes bitOffset.toNat bitLen.toNat value h.1.1 h.1.2 h.2 (by omega)
    hvalue
  rwa [BitVec.ofNat_toNat, BitVec.ofNat_toNat, BitVec.setWidth_eq, BitVec.setWidth_eq] at hwrite

theorem writeU32Be_outside (hsize : bytes.length < 2 ^ 61)
    (h : WrapsInto bytes bitOffset bitLen) (hvalue : value.toNat < 2 ^ bitLen.toNat) :
    writeU32Be bytes bitOffset bitLen value = none := by
  have hnarrow : ¬ (bitLen < 32 ∧ value >>> bitLen.toNat ≠ 0) := by
    rw [tooWide_iff bitLen value h.1.2, not_not]
    exact hvalue
  rw [writeU32Be, (badField_false_iff hsize).mpr (.inr h), if_neg Bool.false_ne_true,
    if_neg hnarrow]
  split_ifs with haligned
  · obtain ⟨hturn, hindex⟩ := h.last_byte haligned.1 haligned.2
    rw [Option.map_eq_none_iff, Option.eq_none_iff_forall_ne_some]
    intro result hloop
    have hinside := writeByteLoop_inside bytes _ _ _ hloop _ hturn
    omega
  · obtain ⟨hturn, hindex⟩ := h.last_bit
    rw [Option.map_eq_none_iff, Option.eq_none_iff_forall_ne_some]
    intro result hloop
    have hinside := writeBitLoop_inside bytes _ _ _ hloop _ hturn
    omega

theorem writeU32Be_refuses (hsize : bytes.length < 2 ^ 61)
    (hout : ¬ InBounds bytes bitOffset bitLen) (hwraps : ¬ WrapsInto bytes bitOffset bitLen) :
    writeU32Be bytes bitOffset bitLen value = some (.error .invalidArgument, bytes) :=
  if_pos (badField_refuses hsize hout hwraps)

/-- A value that is too wide is refused wherever the field is. -/
theorem writeU32Be_tooWide (hsize : bytes.length < 2 ^ 61)
    (hvalue : ¬ value.toNat < 2 ^ bitLen.toNat) :
    writeU32Be bytes bitOffset bitLen value = some (.error .invalidArgument, bytes) := by
  rw [writeU32Be]
  split_ifs with hbad hwide
  · rfl
  · rfl
  all_goals
    have hlen : bitLen.toNat ≤ 32 := by
      rcases (badField_false_iff hsize).mp (Bool.not_eq_true _ ▸ hbad) with h | h <;> exact h.1.2
    exact absurd ((tooWide_iff bitLen value hlen).mpr hvalue) hwide

end Outcomes

/-! ## The check -/

/-- A call that refuses or ends well, and ends well exactly on the arguments that fit. -/
structure Checked {ρ γ : Type} (outcome : Option ρ) (refusal : ρ) (done : γ → ρ) (fits : Prop) :
    Prop where
  inside : outcome = some refusal ∨ ∃ result, outcome = some (done result)
  performed : (∃ result, outcome = some (done result)) ↔ fits

/-- A read refuses its arguments or stays inside the buffer, and reads exactly
the fields that are in bounds. -/
def ReadChecked (bytes : List Byte) (bitOffset bitLen : Size) : Prop :=
  Checked (readU32Be bytes bitOffset bitLen) (.error .invalidArgument) .ok
    (InBounds bytes bitOffset bitLen)

/-- So does a write, which leaves the buffer as it was when it refuses and also
refuses what is too wide. -/
def WriteChecked (bytes : List Byte) (bitOffset bitLen : Size) (value : BitVec 32) : Prop :=
  Checked (writeU32Be bytes bitOffset bitLen value) (.error .invalidArgument, bytes)
    (fun after => (.ok (), after))
    (InBounds bytes bitOffset bitLen ∧ value.toNat < 2 ^ bitLen.toNat)

section Checked

variable {ρ γ : Type} {outcome : Option ρ} {refusal : ρ} {done : γ → ρ} {fits : Prop}

theorem Checked.of_done {result : γ} (h : outcome = some (done result)) (hfits : fits) :
    Checked outcome refusal done fits :=
  ⟨.inr ⟨result, h⟩, iff_of_true ⟨result, h⟩ hfits⟩

theorem Checked.of_refused (h : outcome = some refusal) (hfits : ¬ fits)
    (hne : ∀ result, done result ≠ refusal) : Checked outcome refusal done fits := by
  refine ⟨.inl h, iff_of_false ?_ hfits⟩
  rintro ⟨result, hdone⟩
  exact hne result (Option.some.inj (hdone.symm.trans h))

/-- An access outside the buffer is neither. -/
theorem Checked.ne_none (h : Checked outcome refusal done fits) : outcome ≠ none := by
  rintro rfl
  rcases h.inside with hrun | ⟨result, hrun⟩
  · cases hrun
  · cases hrun

end Checked

section Refused

variable {bytes : List Byte} {bitOffset bitLen : Size} {value : BitVec 32}

theorem ReadChecked.of_refused
    (h : readU32Be bytes bitOffset bitLen = some (.error .invalidArgument))
    (hout : ¬ InBounds bytes bitOffset bitLen) : ReadChecked bytes bitOffset bitLen :=
  Checked.of_refused h hout fun _ hsame => by cases hsame

theorem WriteChecked.of_refused
    (h : writeU32Be bytes bitOffset bitLen value = some (.error .invalidArgument, bytes))
    (hout : ¬ (InBounds bytes bitOffset bitLen ∧ value.toNat < 2 ^ bitLen.toNat)) :
    WriteChecked bytes bitOffset bitLen value :=
  Checked.of_refused h hout fun _ hsame => by cases hsame

end Refused

/-- The accessors check their bounds on all arguments except where the sum of the guard
wraps to a place in the buffer. There a read leaves the buffer, and so does a write of a
value that fits. -/
theorem bounds_checked_iff (bytes : List Byte) (hsize : bytes.length < 2 ^ 61)
    (bitOffset bitLen : Size) :
    (ReadChecked bytes bitOffset bitLen ↔ ¬ WrapsInto bytes bitOffset bitLen) ∧
      ∀ value, WriteChecked bytes bitOffset bitLen value ↔
        ¬ (WrapsInto bytes bitOffset bitLen ∧ value.toNat < 2 ^ bitLen.toNat) := by
  by_cases hwraps : WrapsInto bytes bitOffset bitLen
  · constructor
    · refine iff_of_false (fun hchecked => ?_) (not_not.mpr hwraps)
      exact Checked.ne_none hchecked (readU32Be_outside hsize hwraps)
    intro value
    by_cases hvalue : value.toNat < 2 ^ bitLen.toNat
    · refine iff_of_false (fun hchecked => ?_) (not_not.mpr ⟨hwraps, hvalue⟩)
      exact Checked.ne_none hchecked (writeU32Be_outside hsize hwraps hvalue)
    · refine iff_of_true ?_ fun h => hvalue h.2
      exact .of_refused (writeU32Be_tooWide hsize hvalue) fun h => hvalue h.2
  · refine ⟨iff_of_true ?_ hwraps, fun value => iff_of_true ?_ fun h => hwraps h.1⟩
    · by_cases hbounds : InBounds bytes bitOffset bitLen
      · exact Checked.of_done (readU32Be_inBounds hsize hbounds) hbounds
      · exact .of_refused (readU32Be_refuses hsize hbounds hwraps) hbounds
    · by_cases hbounds : InBounds bytes bitOffset bitLen
      · by_cases hvalue : value.toNat < 2 ^ bitLen.toNat
        · exact Checked.of_done (writeU32Be_inBounds hsize hbounds hvalue) ⟨hbounds, hvalue⟩
        · exact .of_refused (writeU32Be_tooWide hsize hvalue) fun h => hvalue h.2
      · exact .of_refused (writeU32Be_refuses hsize hbounds hwraps) fun h => hbounds h.1

/-- The last byte of the 64-bit range, asked for in a buffer of four bytes. -/
theorem last_byte_accessed :
    readU32Be [1, 2, 3, 4] 0xFFFFFFFFFFFFFFF8 8 = none ∧
      writeU32Be [1, 2, 3, 4] 0xFFFFFFFFFFFFFFF8 8 0 = none ∧
      ¬ ReadChecked [1, 2, 3, 4] 0xFFFFFFFFFFFFFFF8 8 ∧
      ¬ WriteChecked [1, 2, 3, 4] 0xFFFFFFFFFFFFFFF8 8 0 :=
  ⟨rfl, rfl, fun h => Checked.ne_none h rfl, fun h => Checked.ne_none h rfl⟩

theorem middle_field_checked :
    ReadChecked [1, 2, 3, 4] 4 11 ∧ WriteChecked [1, 2, 3, 4] 4 11 0x7FF := by
  obtain ⟨hread, hwrite⟩ := bounds_checked_iff [1, 2, 3, 4] (by decide) 4 11
  have hstays : ¬ WrapsInto [1, 2, 3, 4] 4 11 := by
    rintro ⟨_, hend, _⟩
    exact absurd hend (by decide)
  exact ⟨hread.mpr hstays, (hwrite 0x7FF).mpr fun h => hstays h.1⟩

end ServoFleet.BitCodec
