import ServoFleet.Theory.BitField
import ServoFleet.BitCodec

/-!
The accessors on fields that fit: whichever loop or unrolled form runs, they
are the reads and writes of `BitField`.
-/

namespace ServoFleet.BitCodec

/-! ## Loops -/

section Fits

variable (bytes : List Byte) (offset : Nat)

private theorem size_add (a b : Nat) (h : a + b < 2 ^ 64) :
    (BitVec.ofNat 64 a + BitVec.ofNat 64 b).toNat = a + b := by
  rw [← BitVec.ofNat_add, BitVec.toNat_ofNat, Nat.mod_eq_of_lt h]

private theorem size_div (a : Nat) (h : a < 2 ^ 64) : (BitVec.ofNat 64 a / 8).toNat = a / 8 := by
  rw [BitVec.toNat_udiv, BitVec.toNat_ofNat, Nat.mod_eq_of_lt h]
  rfl

theorem size_mod (a : Nat) (h : a < 2 ^ 64) : (BitVec.ofNat 64 a % 8).toNat = a % 8 := by
  rw [BitVec.toNat_umod, BitVec.toNat_ofNat, Nat.mod_eq_of_lt h]
  rfl

/-- The guard stops a field of 1 to 32 bits when it does not fit. -/
theorem badField_iff (len : Nat) (hpos : 0 < len) (hlen : len ≤ 32)
    (hoffset : offset + len < 2 ^ 64) (hsize : 8 * bytes.length < 2 ^ 64) :
    badField (BitVec.ofNat 64 bytes.length) (BitVec.ofNat 64 offset) (BitVec.ofNat 64 len) =
      true ↔ ¬ offset + len ≤ 8 * bytes.length := by
  have hlenNat : (BitVec.ofNat 64 len).toNat = len := by
    rw [BitVec.toNat_ofNat, Nat.mod_eq_of_lt (by omega)]
  have hbytes : (BitVec.ofNat 64 bytes.length * 8).toNat = 8 * bytes.length := by
    have height : (8 : Size).toNat = 8 := rfl
    rw [BitVec.toNat_mul, BitVec.toNat_ofNat, height, Nat.mod_mul_mod,
      Nat.mod_eq_of_lt (by omega), Nat.mul_comm]
  have hzero : ¬ BitVec.ofNat 64 len = 0 := by
    intro h
    have := congrArg BitVec.toNat h
    rw [hlenNat] at this
    change len = 0 at this
    omega
  have hmax : ¬ (32 : Size).toNat < len := by
    change ¬ 32 < len
    omega
  simp only [badField, Bool.or_eq_true, decide_eq_true_eq, gt_iff_lt, BitVec.lt_def,
    size_add offset len hoffset, hbytes, hlenNat, hzero, hmax, false_or, Nat.not_le]

theorem badField_of_fits (len : Nat) (hpos : 0 < len) (hlen : len ≤ 32)
    (hfit : offset + len ≤ 8 * bytes.length) (hsize : 8 * bytes.length < 2 ^ 64) :
    badField (BitVec.ofNat 64 bytes.length) (BitVec.ofNat 64 offset) (BitVec.ofNat 64 len) =
      false := by
  rw [Bool.eq_false_iff, ne_eq, badField_iff bytes offset len hpos hlen (by omega) hsize, not_not]
  exact hfit

private theorem bit_of_byte (k : Nat) (byte : Byte) (j : Nat) (hbyte : bytes[k]? = some byte)
    (hj : j < 8) : BitField.bit bytes (8 * k + j) = byte.getLsbD (7 - j) := by
  have hdiv : (8 * k + j) / 8 = k := by omega
  have hmod : (8 * k + j) % 8 = j := by omega
  simp [BitField.bit, hdiv, hmod, hbyte, BitVec.getMsbD_eq_getLsbD, hj]

theorem readBitLoop_eq (i count : Nat) (hfit : offset + i + count ≤ 8 * bytes.length)
    (hsize : 8 * bytes.length < 2 ^ 64) :
    readBitLoop bytes (BitVec.ofNat 64 offset) i count (BitField.get bytes offset i) =
      some (BitField.get bytes offset (i + count)) := by
  induction count generalizing i with
  | zero => rfl
  | succ count ih =>
      have hbit : BitVec.ofNat 64 offset + BitVec.ofNat 64 i = BitVec.ofNat 64 (offset + i) :=
        (BitVec.ofNat_add offset i).symm
      have hlt : (offset + i) / 8 < bytes.length := by omega
      have hstep : (BitField.get bytes offset i <<< 1 ||| ((bytes[(offset + i) / 8] >>>
          (7 - (offset + i) % 8)).setWidth 32 &&& 1) : BitVec 32) =
          BitField.get bytes offset (i + 1) := by
        have hvalue : BitField.bit bytes (offset + i) =
            bytes[(offset + i) / 8].getLsbD (7 - (offset + i) % 8) := by
          have := bit_of_byte bytes ((offset + i) / 8) _ ((offset + i) % 8)
            (List.getElem?_eq_getElem hlt) (Nat.mod_lt _ (by decide))
          rwa [Nat.div_add_mod] at this
        rw [BitField.get, hvalue]
        congr 1
        apply BitVec.eq_of_getLsbD_eq
        intro j hj
        rw [BitVec.getLsbD_and, BitVec.getLsbD_setWidth, BitVec.getLsbD_ushiftRight]
        cases j with
        | zero =>
            cases bytes[(offset + i) / 8].getLsbD (7 - (offset + i) % 8) <;> simp
        | succ j =>
            cases bytes[(offset + i) / 8].getLsbD (7 - (offset + i) % 8) <;>
              simp [BitVec.getLsbD_one]
      rw [readBitLoop, hbit, size_div _ (by omega), size_mod _ (by omega),
        List.getElem?_eq_getElem hlt]
      change readBitLoop bytes _ (i + 1) count _ = _
      rw [hstep, ih (i + 1) (by omega), Nat.add_assoc, Nat.add_comm 1]

theorem readByteLoop_eq (k i count : Nat) (hfit : k + i + count ≤ bytes.length)
    (hsize : 8 * bytes.length < 2 ^ 64) :
    readByteLoop bytes (BitVec.ofNat 64 k) i count (BitField.get bytes (8 * k) (8 * i)) =
      some (BitField.get bytes (8 * k) (8 * (i + count))) := by
  induction count generalizing i with
  | zero => rfl
  | succ count ih =>
      have hlt : k + i < bytes.length := by omega
      rw [readByteLoop, size_add _ _ (by omega), List.getElem?_eq_getElem hlt]
      change readByteLoop bytes _ (i + 1) count _ = _
      rw [← BitField.get_byte bytes k i hlt, ih (i + 1) (by omega), Nat.add_assoc, Nat.add_comm 1]

/-- A field that the byte loops take consists of whole bytes. -/
private theorem whole_bytes {offset len : Nat} (hoffset : offset < 2 ^ 64) (hlen : len < 2 ^ 64)
    (haligned : BitVec.ofNat 64 offset % 8 = 0 ∧ BitVec.ofNat 64 len % 8 = 0) :
    8 * (offset / 8) = offset ∧ 8 * (len / 8) = len ∧
      BitVec.ofNat 64 offset / 8 = BitVec.ofNat 64 (offset / 8) := by
  have hmod : ∀ {a : Nat}, a < 2 ^ 64 → BitVec.ofNat 64 a % 8 = 0 → 8 * (a / 8) = a := by
    intro a ha h
    have hzero := congrArg BitVec.toNat h
    rw [size_mod a ha] at hzero
    exact Nat.mul_div_cancel' (Nat.dvd_of_mod_eq_zero hzero)
  refine ⟨hmod hoffset haligned.1, hmod hlen haligned.2, BitVec.eq_of_toNat_eq ?_⟩
  rw [size_div _ hoffset, BitVec.toNat_ofNat, Nat.mod_eq_of_lt (by omega)]

theorem readU32Be_eq (len : Nat) (hpos : 0 < len) (hlen : len ≤ 32)
    (hfit : offset + len ≤ 8 * bytes.length) (hsize : 8 * bytes.length < 2 ^ 64) :
    readU32Be bytes (BitVec.ofNat 64 offset) (BitVec.ofNat 64 len) =
      some (.ok (BitField.get bytes offset len)) := by
  have hlenNat : (BitVec.ofNat 64 len).toNat = len := by
    rw [BitVec.toNat_ofNat, Nat.mod_eq_of_lt (by omega)]
  rw [readU32Be, badField_of_fits bytes offset len hpos hlen hfit hsize, if_neg (by decide)]
  split_ifs with haligned
  · obtain ⟨hoffset, hbytes, hdiv⟩ := whole_bytes (by omega) (by omega) haligned
    have hloop := readByteLoop_eq bytes (offset / 8) 0 (len / 8) (by omega) hsize
    rw [Nat.zero_add, hoffset, hbytes] at hloop
    rw [hdiv, size_div _ (by omega)]
    exact congrArg (Option.map Except.ok) hloop
  · have hloop := readBitLoop_eq bytes offset 0 len (by omega) hsize
    rw [Nat.zero_add] at hloop
    rw [hlenNat]
    exact congrArg (Option.map Except.ok) hloop

/-! ### Writing -/

theorem size_ofNat (a : Nat) (h : a < 2 ^ 64) : (BitVec.ofNat 64 a).toNat = a := by
  rw [BitVec.toNat_ofNat, Nat.mod_eq_of_lt h]

private theorem size_sub (a b : Nat) (h : b ≤ a) (ha : a < 2 ^ 64) :
    BitVec.ofNat 64 a - BitVec.ofNat 64 b = BitVec.ofNat 64 (a - b) := by
  apply BitVec.eq_of_toNat_eq
  have hle : BitVec.ofNat 64 b ≤ BitVec.ofNat 64 a := by
    rw [BitVec.le_def, size_ofNat a ha, size_ofNat b (by omega)]
    exact h
  rw [BitVec.toNat_sub_of_le hle, size_ofNat a ha, size_ofNat b (by omega),
    size_ofNat _ (by omega)]

private theorem test_bit (value : BitVec 32) (n : Nat) :
    (value >>> n) &&& 1 ≠ 0 ↔ value.getLsbD n = true := by
  have hbit : ((value >>> n) &&& 1).getLsbD 0 = value.getLsbD n := by
    simp
  constructor
  · intro h
    by_contra hclear
    apply h
    apply BitVec.eq_of_getLsbD_eq
    intro j hj
    cases j with
    | zero => rw [hbit]; simpa using hclear
    | succ j => simp [BitVec.getLsbD_one]
  · intro h hzero
    rw [hzero, h] at hbit
    exact absurd hbit (by simp)

private theorem mask_eq (k : Nat) (h : k < 8) :
    (((1 : BitVec 32) <<< (7 - k)).setWidth 8 : Byte) = BitVec.twoPow 8 (7 - k) := by
  revert k
  decide

theorem writeBitLoop_eq (len i count : Nat) (value : BitVec 32) (hlen : i + count ≤ len)
    (hmax : len ≤ 32) (hfit : offset + len ≤ 8 * bytes.length)
    (hsize : 8 * bytes.length < 2 ^ 64) :
    writeBitLoop (BitVec.ofNat 64 offset) (BitVec.ofNat 64 len) value i count
        (BitField.putPrefix bytes offset len value i) =
      some (BitField.putPrefix bytes offset len value (i + count)) := by
  induction count generalizing i with
  | zero => rfl
  | succ count ih =>
      have hbit : BitVec.ofNat 64 offset + BitVec.ofNat 64 i = BitVec.ofNat 64 (offset + i) :=
        (BitVec.ofNat_add offset i).symm
      have hshift : (BitVec.ofNat 64 len - 1 - BitVec.ofNat 64 i).toNat = len - 1 - i := by
        change (BitVec.ofNat 64 len - BitVec.ofNat 64 1 - BitVec.ofNat 64 i).toNat = _
        rw [size_sub _ _ (by omega) (by omega), size_sub _ _ (by omega) (by omega),
          size_ofNat _ (by omega)]
      have hlt : (offset + i) / 8 < (BitField.putPrefix bytes offset len value i).length := by
        rw [BitField.putPrefix_length]
        omega
      have hset : (BitField.putPrefix bytes offset len value i).set ((offset + i) / 8)
          (if value.getLsbD (len - 1 - i) = true then
            (BitField.putPrefix bytes offset len value i)[(offset + i) / 8] |||
              BitVec.twoPow 8 (7 - (offset + i) % 8)
          else (BitField.putPrefix bytes offset len value i)[(offset + i) / 8] &&&
            ~~~BitVec.twoPow 8 (7 - (offset + i) % 8)) =
          BitField.putPrefix bytes offset len value (i + 1) := by
        rw [BitField.putPrefix, BitField.setBit, List.modify_eq_set_get _ hlt]
        rfl
      simp only [writeBitLoop, hbit, hshift, size_div _ (by omega : offset + i < 2 ^ 64),
        size_mod _ (by omega : offset + i < 2 ^ 64), test_bit,
        mask_eq _ (Nat.mod_lt (offset + i) (by decide : 0 < 8)), List.getElem?_eq_getElem hlt,
        Option.bind_eq_bind, Option.bind_some, hset]
      rw [ih (i + 1) (by omega), Nat.add_assoc, Nat.add_comm 1]

theorem writeByteLoop_eq (k len i count : Nat) (value : BitVec 32)
    (hlen : 8 * (i + count) ≤ len) (hmax : len ≤ 32) (hfit : 8 * k + len ≤ 8 * bytes.length)
    (hsize : 8 * bytes.length < 2 ^ 64) :
    writeByteLoop (BitVec.ofNat 64 k) (BitVec.ofNat 64 len) value i count
        (BitField.putPrefix bytes (8 * k) len value (8 * i)) =
      some (BitField.putPrefix bytes (8 * k) len value (8 * (i + count))) := by
  induction count generalizing i with
  | zero => rfl
  | succ count ih =>
      have hmul : BitVec.ofNat 64 i * 8 = BitVec.ofNat 64 (i * 8) :=
        (BitVec.ofNat_mul i 8).symm
      have hshift : ((BitVec.ofNat 64 len - 8 - BitVec.ofNat 64 i * 8).setWidth 32).toNat =
          len - 8 - 8 * i := by
        rw [hmul]
        change ((BitVec.ofNat 64 len - BitVec.ofNat 64 8 - BitVec.ofNat 64 (i * 8)).setWidth
          32).toNat = _
        rw [size_sub _ _ (by omega) (by omega), size_sub _ _ (by omega) (by omega),
          BitVec.toNat_setWidth, size_ofNat _ (by omega), Nat.mod_eq_of_lt (by omega)]
        omega
      have hlt : k + i < (BitField.putPrefix bytes (8 * k) len value (8 * i)).length := by
        rw [BitField.putPrefix_length]
        omega
      have hset := BitField.set_putPrefix bytes k i len value
        ((value >>> (len - 8 - 8 * i)).setWidth 8) (by omega) (by
          intro j hj
          rw [BitVec.getMsbD_eq_getLsbD, BitVec.getLsbD_setWidth, BitVec.getLsbD_ushiftRight]
          simp only [hj, decide_true, Bool.true_and, (by omega : 8 - 1 - j < 8)]
          congr 1
          omega)
      simp only [writeByteLoop, hshift, size_add k i (by omega), List.getElem?_eq_getElem hlt,
        Option.bind_eq_bind, Option.bind_some, hset]
      rw [ih (i + 1) (by omega), Nat.add_assoc, Nat.add_comm 1]

theorem writeU32Be_eq (len : Nat) (value : BitVec 32) (hpos : 0 < len) (hmax : len ≤ 32)
    (hfit : offset + len ≤ 8 * bytes.length) (hsize : 8 * bytes.length < 2 ^ 64)
    (hvalue : value.toNat < 2 ^ len) :
    writeU32Be bytes (BitVec.ofNat 64 offset) (BitVec.ofNat 64 len) value =
      some (.ok (), BitField.put bytes offset len value) := by
  have hshift : value >>> (BitVec.ofNat 64 len).toNat = 0 := by
    apply BitVec.eq_of_toNat_eq
    rw [size_ofNat _ (by omega), BitVec.toNat_ushiftRight, Nat.shiftRight_eq_div_pow,
      Nat.div_eq_of_lt hvalue]
    rfl
  rw [writeU32Be, badField_of_fits bytes offset len hpos hmax hfit hsize, if_neg (by decide),
    hshift, if_neg (by simp)]
  split_ifs with haligned
  · obtain ⟨hoffset, hbytes, hdiv⟩ := whole_bytes (by omega) (by omega) haligned
    have hloop := writeByteLoop_eq bytes (offset / 8) len 0 (len / 8) value (by omega) hmax
      (by omega) hsize
    rw [Nat.zero_add, hoffset, hbytes] at hloop
    rw [hdiv, size_div _ (by omega)]
    exact congrArg (Option.map fun after => ((.ok () : ErrCode), after)) hloop
  · have hloop := writeBitLoop_eq bytes offset len 0 len value (by omega) hmax hfit hsize
    rw [Nat.zero_add] at hloop
    rw [size_ofNat _ (by omega)]
    exact congrArg (Option.map fun after => ((.ok () : ErrCode), after)) hloop

/-! ## Unrolled accessors -/

theorem readAligned_eq (field : Bits) (haligned : field.aligned = true)
    (hfit : field.offset + field.len ≤ 8 * bytes.length) :
    readAligned field bytes = some (.ok (BitField.get bytes field.offset field.len)) := by
  obtain ⟨offset, len, hpos, hmax⟩ := field
  simp only [Bits.aligned, Bool.and_eq_true, decide_eq_true_eq, Bool.or_eq_true] at haligned
  dsimp only at hfit ⊢
  obtain ⟨k, rfl⟩ := Nat.dvd_of_mod_eq_zero haligned.1
  have hdiv : 8 * k / 8 = k := by omega
  have hzero : (BitField.get bytes (8 * k) (8 * 0) : BitVec 32) = 0 := rfl
  rcases haligned.2 with (rfl | rfl) | rfl
  · have h0 := BitField.get_byte (w := 32) bytes k 0 (by omega)
    simp only [readAligned, hdiv, List.getElem?_eq_getElem (by omega : k < bytes.length),
      show ¬ bytes.length < k + 8 / 8 by omega, if_true, if_false, Option.bind_eq_bind,
      Option.bind_some, Option.pure_def]
    rw [show 8 * (0 + 1) = 8 from rfl, hzero] at h0
    rw [h0]
    simp
  · have h0 := BitField.get_byte (w := 32) bytes k 0 (by omega)
    have h1 := BitField.get_byte (w := 32) bytes k 1 (by omega)
    simp only [readAligned, hdiv, List.getElem?_eq_getElem (by omega : k < bytes.length),
      List.getElem?_eq_getElem (by omega : k + 1 < bytes.length),
      show ¬ bytes.length < k + 16 / 8 by omega, if_true, if_false, Option.bind_eq_bind,
      Option.bind_some, Option.pure_def, Nat.reduceEqDiff]
    rw [show 8 * (1 + 1) = 16 from rfl, show 8 * 1 = 8 * (0 + 1) from rfl, h0, hzero] at h1
    rw [h1]
    simp
  · have h0 := BitField.get_byte (w := 32) bytes k 0 (by omega)
    have h1 := BitField.get_byte (w := 32) bytes k 1 (by omega)
    have h2 := BitField.get_byte (w := 32) bytes k 2 (by omega)
    have h3 := BitField.get_byte (w := 32) bytes k 3 (by omega)
    simp only [readAligned, hdiv, List.getElem?_eq_getElem (by omega : k < bytes.length),
      List.getElem?_eq_getElem (by omega : k + 1 < bytes.length),
      List.getElem?_eq_getElem (by omega : k + 2 < bytes.length),
      List.getElem?_eq_getElem (by omega : k + 3 < bytes.length),
      show ¬ bytes.length < k + 32 / 8 by omega, if_false, Option.bind_eq_bind,
      Option.bind_some, Option.pure_def, Nat.reduceEqDiff]
    rw [show 8 * (3 + 1) = 32 from rfl, show 8 * 3 = 8 * (2 + 1) from rfl, h2,
      show 8 * 2 = 8 * (1 + 1) from rfl, h1, show 8 * 1 = 8 * (0 + 1) from rfl, h0, hzero] at h3
    rw [h3]
    simp [BitVec.shiftLeft_or_distrib, ← BitVec.shiftLeft_add]

theorem store_byte (k i len : Nat) (value : BitVec 32) (hlen : 8 * (i + 1) ≤ len)
    (hfit : 8 * k + len ≤ 8 * bytes.length) :
    store (BitField.putPrefix bytes (8 * k) len value (8 * i)) (k + i)
        ((value >>> (len - 8 - 8 * i)).setWidth 8) =
      some (BitField.putPrefix bytes (8 * k) len value (8 * (i + 1))) := by
  rw [store, if_pos (by rw [BitField.putPrefix_length]; omega),
    BitField.set_putPrefix bytes k i len value _ (by omega)]
  intro j hj
  rw [BitVec.getMsbD_eq_getLsbD, BitVec.getLsbD_setWidth, BitVec.getLsbD_ushiftRight]
  simp only [hj, decide_true, Bool.true_and, (by omega : 8 - 1 - j < 8)]
  congr 1
  omega

theorem writeAligned_eq (field : Bits) (value : BitVec 32) (haligned : field.aligned = true)
    (hfit : field.offset + field.len ≤ 8 * bytes.length) :
    writeAligned field bytes value =
      some (.ok (), BitField.put bytes field.offset field.len value) := by
  obtain ⟨offset, len, hpos, hmax⟩ := field
  simp only [Bits.aligned, Bool.and_eq_true, decide_eq_true_eq, Bool.or_eq_true] at haligned
  dsimp only at hfit ⊢
  obtain ⟨k, rfl⟩ := Nat.dvd_of_mod_eq_zero haligned.1
  have hdiv : 8 * k / 8 = k := by omega
  have hkeep : value >>> 0 = value := BitVec.ushiftRight_zero value
  rcases haligned.2 with (rfl | rfl) | rfl
  · have h0 := store_byte bytes k 0 8 value (by omega) hfit
    simp only [Nat.reduceSub, Nat.reduceMul, hkeep, Nat.add_zero] at h0
    rw [show BitField.putPrefix bytes (8 * k) 8 value 0 = bytes from rfl] at h0
    simp only [writeAligned, hdiv, show ¬ bytes.length < k + 8 / 8 by omega, if_true, if_false, h0,
      Option.bind_eq_bind, Option.bind_some, Option.pure_def]
    rfl
  · have h0 := store_byte bytes k 0 16 value (by omega) hfit
    have h1 := store_byte bytes k 1 16 value (by omega) hfit
    simp only [Nat.reduceSub, Nat.reduceMul, Nat.reduceAdd, hkeep, Nat.add_zero] at h0 h1
    rw [show BitField.putPrefix bytes (8 * k) 16 value 0 = bytes from rfl] at h0
    simp only [writeAligned, hdiv, show ¬ bytes.length < k + 16 / 8 by omega, if_true, if_false, h0,
      h1, Option.bind_eq_bind, Option.bind_some, Option.pure_def, Nat.reduceEqDiff]
    rfl
  · have h0 := store_byte bytes k 0 32 value (by omega) hfit
    have h1 := store_byte bytes k 1 32 value (by omega) hfit
    have h2 := store_byte bytes k 2 32 value (by omega) hfit
    have h3 := store_byte bytes k 3 32 value (by omega) hfit
    simp only [Nat.reduceSub, Nat.reduceMul, Nat.reduceAdd, hkeep, Nat.add_zero] at h0 h1 h2 h3
    rw [show BitField.putPrefix bytes (8 * k) 32 value 0 = bytes from rfl] at h0
    simp only [writeAligned, hdiv, show ¬ bytes.length < k + 32 / 8 by omega, if_false, h0, h1, h2,
      h3, Option.bind_eq_bind, Option.bind_some, Option.pure_def, Nat.reduceEqDiff]
    rfl

end Fits

/-! ## Fields -/

private theorem mask32_bit :
    ∀ len : Fin 33, ∀ i : Fin 32, (mask32 len).getLsbD i = decide (i.val < len.val) := by
  decide +kernel

theorem fieldMask_iff (field : Bits) (raw : BitVec 32) :
    raw &&& ~~~fieldMask field ≠ 0 ↔ ¬ raw.toNat < 2 ^ field.len := by
  have hmask : ∀ i, i < 32 → (fieldMask field).getLsbD i = decide (i < field.len) := by
    intro i hi
    exact mask32_bit ⟨field.len, Nat.lt_succ_of_le field.le⟩ ⟨i, hi⟩
  rw [ne_eq, not_iff_not]
  constructor
  · intro h
    apply Nat.lt_pow_two_of_testBit
    intro i hi
    by_cases hlt : i < 32
    · have hbit : (raw &&& ~~~fieldMask field).getLsbD i = false := by
        rw [h]
        simp
      rw [BitVec.getLsbD_and, BitVec.getLsbD_not, hmask i hlt] at hbit
      change raw.getLsbD i = false
      simpa [hlt, Nat.not_lt.mpr hi] using hbit
    · exact BitVec.getLsbD_of_ge raw i (by omega)
  · intro h
    apply BitVec.eq_of_getLsbD_eq
    intro i hi
    rw [BitVec.getLsbD_and, BitVec.getLsbD_not, hmask i hi]
    by_cases hlt : i < field.len
    · simp [hlt]
    · have hclear : raw.getLsbD i = false :=
        Nat.testBit_lt_two_pow (Nat.lt_of_lt_of_le h (Nat.pow_le_pow_right (by decide) (by omega)))
      simp [hclear]

section Field

variable (field : Bits) (bytes : List Byte)

theorem read_eq (hfit : field.offset + field.len ≤ 8 * bytes.length)
    (hsize : 8 * bytes.length < 2 ^ 64) :
    read field bytes = some (.ok (BitField.get bytes field.offset field.len)) := by
  unfold read
  split_ifs with haligned
  · exact readAligned_eq bytes field haligned hfit
  · exact readU32Be_eq bytes field.offset field.len field.pos field.le hfit hsize

theorem write_eq (value : BitVec 32) (hfit : field.offset + field.len ≤ 8 * bytes.length)
    (hsize : 8 * bytes.length < 2 ^ 64) (hvalue : value.toNat < 2 ^ field.len) :
    write field bytes value =
      some (.ok (), BitField.put bytes field.offset field.len value) := by
  unfold write
  rw [if_neg (by rw [fieldMask_iff]; exact not_not.mpr hvalue)]
  split_ifs with haligned
  · exact writeAligned_eq bytes field value haligned hfit
  · exact writeU32Be_eq bytes field.offset field.len value field.pos field.le hfit hsize hvalue

theorem write_error (value : BitVec 32) (hvalue : ¬ value.toNat < 2 ^ field.len) :
    write field bytes value = some (.error .invalidArgument, bytes) :=
  if_pos ((fieldMask_iff field value).mpr hvalue)

end Field

end ServoFleet.BitCodec
