import ServoFleet.Theory.Crc
import ServoFleet.Device

/-!
CRC16-CCITT by slices of eight bytes. The tables are built as in the source and
the loops index the buffer, so a read outside it would show as `none`.
-/

namespace ServoFleet.Checksum

def crc16CcittPoly : BitVec 16 := 0x1021

/-- One turn of the loop in `crc16_ccitt_table_entry`. -/
def crc16CcittTableBit (crc : BitVec 16) : BitVec 16 :=
  if crc &&& 0x8000 ≠ 0 then (crc <<< 1) ^^^ crc16CcittPoly else crc <<< 1

def crc16CcittTableEntry (index : Byte) : BitVec 16 :=
  crc16CcittTableBit^[8] (index.setWidth 16 <<< 8)

abbrev Table := Vector (BitVec 16) 256

def makeCrc16CcittTable : Table :=
  Vector.ofFn fun index => crc16CcittTableEntry (BitVec.ofNat 8 index)

def crc16CcittTable : Table := makeCrc16CcittTable

def lookup (table : Table) (index : Byte) : BitVec 16 := table.get index.toFin

def crc16CcittUpdate (crc : BitVec 16) (byte : Byte) : BitVec 16 :=
  let index := ((crc >>> 8) ^^^ byte.setWidth 16).setWidth 8
  (crc <<< 8) ^^^ lookup crc16CcittTable index

def makeCrc16CcittSliceTable (previous : Table) : Table :=
  Vector.ofFn fun index => crc16CcittUpdate (previous.get index) 0

def crc16CcittTable1 : Table := makeCrc16CcittSliceTable crc16CcittTable
def crc16CcittTable2 : Table := makeCrc16CcittSliceTable crc16CcittTable1
def crc16CcittTable3 : Table := makeCrc16CcittSliceTable crc16CcittTable2
def crc16CcittTable4 : Table := makeCrc16CcittSliceTable crc16CcittTable3
def crc16CcittTable5 : Table := makeCrc16CcittSliceTable crc16CcittTable4
def crc16CcittTable6 : Table := makeCrc16CcittSliceTable crc16CcittTable5
def crc16CcittTable7 : Table := makeCrc16CcittSliceTable crc16CcittTable6

/-- Eight bytes at once: the old register meets the first two only. -/
def sliceStep (crc : BitVec 16) (b0 b1 b2 b3 b4 b5 b6 b7 : Byte) : BitVec 16 :=
  lookup crc16CcittTable7 (((crc >>> 8) ^^^ b0.setWidth 16).setWidth 8) ^^^
    lookup crc16CcittTable6 (((crc &&& 0xFF) ^^^ b1.setWidth 16).setWidth 8) ^^^
    lookup crc16CcittTable5 b2 ^^^ lookup crc16CcittTable4 b3 ^^^
    lookup crc16CcittTable3 b4 ^^^ lookup crc16CcittTable2 b5 ^^^
    lookup crc16CcittTable1 b6 ^^^ lookup crc16CcittTable b7

/-- The loop over whole slices. `fuel` bounds its iterations; running out of it
is `none`, like a read outside the buffer. -/
def crc16CcittSlices (bytes : List Byte) :
    (fuel offset : Nat) → BitVec 16 → Option (Nat × BitVec 16)
  | 0, _, _ => none
  | fuel + 1, offset, crc =>
      if offset + 8 ≤ bytes.length then do
        let b0 ← bytes[offset]?
        let b1 ← bytes[offset + 1]?
        let b2 ← bytes[offset + 2]?
        let b3 ← bytes[offset + 3]?
        let b4 ← bytes[offset + 4]?
        let b5 ← bytes[offset + 5]?
        let b6 ← bytes[offset + 6]?
        let b7 ← bytes[offset + 7]?
        crc16CcittSlices bytes fuel (offset + 8) (sliceStep crc b0 b1 b2 b3 b4 b5 b6 b7)
      else some (offset, crc)

/-- The byte loop over what the slices left. -/
def crc16CcittTail (bytes : List Byte) : (fuel offset : Nat) → BitVec 16 → Option (BitVec 16)
  | 0, _, _ => none
  | fuel + 1, offset, crc =>
      if offset < bytes.length then do
        let byte ← bytes[offset]?
        crc16CcittTail bytes fuel (offset + 1) (crc16CcittUpdate crc byte)
      else some crc

def crc16Ccitt (bytes : List Byte) : Option (BitVec 16) := do
  let (offset, crc) ← crc16CcittSlices bytes (bytes.length + 1) 0 0
  crc16CcittTail bytes (bytes.length + 1) offset crc

/-! ## The bit-serial register behind the tables -/

/-- A byte as the register takes it, most significant bit first. -/
def byteBits (byte : Byte) : List Bool := List.ofFn fun i : Fin 8 => byte.getMsbD i

def bits (bytes : List Byte) : List Bool := bytes.flatMap byteBits

theorem crc16CcittTableBit_eq (crc : BitVec 16) :
    crc16CcittTableBit crc = Crc.shift crc16CcittPoly crc := by
  have hbit : (crc &&& 0x8000 ≠ 0) ↔ crc.msb = true := by
    have hmask : (0x8000 : BitVec 16) = BitVec.twoPow 16 15 := by decide
    rw [hmask, BitVec.and_twoPow, BitVec.msb_eq_getLsbD_last]
    cases crc.getLsbD (16 - 1)
    · simp
    · decide
  unfold crc16CcittTableBit Crc.shift
  simp only [hbit]

theorem crc16CcittTableEntry_eq (index : Byte) :
    crc16CcittTableEntry index =
      (Crc.shift crc16CcittPoly)^[8] (index.setWidth 16 <<< 8) := by
  have hstep : crc16CcittTableBit = Crc.shift crc16CcittPoly := funext crc16CcittTableBit_eq
  rw [crc16CcittTableEntry, hstep]

private theorem lookup_ofFn (f : Fin 256 → BitVec 16) (index : Byte) :
    lookup (Vector.ofFn f) index = f index.toFin := Vector.getElem_ofFn _

/-- Eight turns of the register. -/
def turn (crc : BitVec 16) : BitVec 16 := (Crc.shift crc16CcittPoly)^[8] crc

theorem turn_xor (a b : BitVec 16) : turn (a ^^^ b) = turn a ^^^ turn b :=
  Crc.iterate_shift_xor crc16CcittPoly 8 a b

/-- A byte in the leading half of the register. -/
def high (byte : Byte) : BitVec 16 := byte.setWidth 16 <<< 8

theorem lookup_table (index : Byte) : lookup crc16CcittTable index = turn (high index) := by
  have hindex : BitVec.ofNat 8 index.toFin = index := BitVec.ofNat_toNat 8 index
  rw [crc16CcittTable, makeCrc16CcittTable, lookup_ofFn, hindex, crc16CcittTableEntry_eq]
  rfl

private theorem getLsbD_lowMask (i : Nat) (h : i < 16) :
    (0xFF : BitVec 16).getLsbD i = decide (i < 8) := by
  revert i
  decide

/-- The index of the first table of a slice, in the leading half. -/
private theorem high_index (crc : BitVec 16) (byte : Byte) :
    high (((crc >>> 8) ^^^ byte.setWidth 16).setWidth 8) ^^^ (crc &&& 0xFF) =
      crc ^^^ high byte := by
  apply BitVec.eq_of_getLsbD_eq
  intro i hi
  simp only [high, BitVec.getLsbD_xor, BitVec.getLsbD_and, BitVec.getLsbD_shiftLeft,
    BitVec.getLsbD_setWidth, BitVec.getLsbD_ushiftRight, getLsbD_lowMask i hi, hi]
  by_cases hlow : i < 8
  · simp [hlow]
  · have hback : 8 + (i - 8) = i := by omega
    have h8 : i - 8 < 8 := by omega
    have h16 : i - 8 < 16 := by omega
    simp [hlow, hback, h8, h16, Bool.xor_comm]

/-- The index of the second table of a slice, in the leading half. -/
private theorem high_low_index (crc : BitVec 16) (byte : Byte) :
    high (((crc &&& 0xFF) ^^^ byte.setWidth 16).setWidth 8) = (crc <<< 8) ^^^ high byte := by
  apply BitVec.eq_of_getLsbD_eq
  intro i hi
  simp only [high, BitVec.getLsbD_xor, BitVec.getLsbD_and, BitVec.getLsbD_shiftLeft,
    BitVec.getLsbD_setWidth, hi]
  by_cases hlow : i < 8
  · simp [hlow]
  · have h8 : i - 8 < 8 := by omega
    have h16 : i - 8 < 16 := by omega
    rw [getLsbD_lowMask (i - 8) h16]
    simp [hlow, h8, h16]

/-- The trailing half of the register meets no generator term in eight turns. -/
private theorem turn_low (crc : BitVec 16) : turn (crc &&& 0xFF) = crc <<< 8 := by
  have hclear : ∀ i, 16 ≤ i + 8 → (crc &&& 0xFF).getLsbD i = false := by
    intro i hi
    by_cases h : i < 16
    · rw [BitVec.getLsbD_and, getLsbD_lowMask i h]
      simp [show ¬ i < 8 by omega]
    · exact BitVec.getLsbD_of_ge _ _ (by omega)
  rw [turn, Crc.iterate_shift_low crc16CcittPoly _ 8 hclear]
  apply BitVec.eq_of_getLsbD_eq
  intro i hi
  simp only [BitVec.getLsbD_shiftLeft, BitVec.getLsbD_and]
  by_cases h : i < 8
  · simp [h]
  · rw [getLsbD_lowMask (i - 8) (by omega)]
    simp [(by omega : i - 8 < 8)]

theorem crc16CcittUpdate_eq (crc : BitVec 16) (byte : Byte) :
    crc16CcittUpdate crc byte = turn (crc ^^^ high byte) := by
  rw [← high_index, turn_xor, turn_low, crc16CcittUpdate, lookup_table, BitVec.xor_comm]

theorem crc16CcittUpdate_zero (crc : BitVec 16) : crc16CcittUpdate crc 0 = turn crc := by
  have hzero : crc ^^^ high 0 = crc := by
    simp [high]
  rw [crc16CcittUpdate_eq, hzero]

theorem lookup_sliceTable (previous : Table) (index : Byte) :
    lookup (makeCrc16CcittSliceTable previous) index = turn (lookup previous index) := by
  rw [makeCrc16CcittSliceTable, lookup_ofFn, crc16CcittUpdate_zero]
  rfl

/-- A slice is eight single updates. -/
theorem sliceStep_eq (crc : BitVec 16) (b0 b1 b2 b3 b4 b5 b6 b7 : Byte) :
    sliceStep crc b0 b1 b2 b3 b4 b5 b6 b7 =
      [b0, b1, b2, b3, b4, b5, b6, b7].foldl crc16CcittUpdate crc := by
  have hfirst : turn (high (((crc >>> 8) ^^^ b0.setWidth 16).setWidth 8)) ^^^
      high (((crc &&& 0xFF) ^^^ b1.setWidth 16).setWidth 8) =
        turn (crc ^^^ high b0) ^^^ high b1 := by
    rw [high_low_index, ← turn_low, ← BitVec.xor_assoc, ← turn_xor, high_index]
  simp only [List.foldl_cons, List.foldl_nil, crc16CcittUpdate_eq]
  rw [← hfirst]
  simp only [sliceStep, crc16CcittTable7, crc16CcittTable6, crc16CcittTable5, crc16CcittTable4,
    crc16CcittTable3, crc16CcittTable2, crc16CcittTable1, lookup_sliceTable, lookup_table, turn_xor]

/-! ## The loops -/

theorem crc16CcittTail_eq (bytes : List Byte) (fuel offset : Nat) (crc : BitVec 16)
    (hfuel : bytes.length - offset < fuel) :
    crc16CcittTail bytes fuel offset crc =
      some ((bytes.drop offset).foldl crc16CcittUpdate crc) := by
  induction fuel generalizing offset crc with
  | zero => omega
  | succ fuel ih =>
      unfold crc16CcittTail
      by_cases h : offset < bytes.length
      · rw [if_pos h, List.getElem?_eq_getElem h, List.drop_eq_getElem_cons h]
        exact ih (offset + 1) _ (by omega)
      · rw [if_neg h, List.drop_of_length_le (by omega)]
        rfl

private theorem drop_slice (bytes : List Byte) (offset : Nat) (h : offset + 8 ≤ bytes.length) :
    bytes.drop offset =
      [bytes[offset], bytes[offset + 1], bytes[offset + 2], bytes[offset + 3], bytes[offset + 4],
        bytes[offset + 5], bytes[offset + 6], bytes[offset + 7]] ++ bytes.drop (offset + 8) := by
  rw [List.drop_eq_getElem_cons (i := offset) (by omega),
    List.drop_eq_getElem_cons (i := offset + 1) (by omega),
    List.drop_eq_getElem_cons (i := offset + 1 + 1) (by omega),
    List.drop_eq_getElem_cons (i := offset + 1 + 1 + 1) (by omega),
    List.drop_eq_getElem_cons (i := offset + 1 + 1 + 1 + 1) (by omega),
    List.drop_eq_getElem_cons (i := offset + 1 + 1 + 1 + 1 + 1) (by omega),
    List.drop_eq_getElem_cons (i := offset + 1 + 1 + 1 + 1 + 1 + 1) (by omega),
    List.drop_eq_getElem_cons (i := offset + 1 + 1 + 1 + 1 + 1 + 1 + 1) (by omega)]
  rfl

/-- The slices stop inside the buffer with the register of the bytes read. -/
theorem crc16CcittSlices_eq (bytes : List Byte) (fuel offset : Nat) (crc : BitVec 16)
    (hfuel : bytes.length - offset < fuel) :
    ∃ next value, crc16CcittSlices bytes fuel offset crc = some (next, value) ∧
      (bytes.drop next).foldl crc16CcittUpdate value =
        (bytes.drop offset).foldl crc16CcittUpdate crc := by
  induction fuel generalizing offset crc with
  | zero => omega
  | succ fuel ih =>
      unfold crc16CcittSlices
      by_cases h : offset + 8 ≤ bytes.length
      · obtain ⟨next, value, hrun, hvalue⟩ := ih (offset + 8)
          (sliceStep crc bytes[offset] bytes[offset + 1] bytes[offset + 2] bytes[offset + 3]
            bytes[offset + 4] bytes[offset + 5] bytes[offset + 6] bytes[offset + 7]) (by omega)
        refine ⟨next, value, ?_, ?_⟩
        · rw [if_pos h]
          simp only [List.getElem?_eq_getElem (by omega : offset < bytes.length),
            List.getElem?_eq_getElem (by omega : offset + 1 < bytes.length),
            List.getElem?_eq_getElem (by omega : offset + 2 < bytes.length),
            List.getElem?_eq_getElem (by omega : offset + 3 < bytes.length),
            List.getElem?_eq_getElem (by omega : offset + 4 < bytes.length),
            List.getElem?_eq_getElem (by omega : offset + 5 < bytes.length),
            List.getElem?_eq_getElem (by omega : offset + 6 < bytes.length),
            List.getElem?_eq_getElem (by omega : offset + 7 < bytes.length)]
          exact hrun
        · rw [hvalue, sliceStep_eq]
          rw [drop_slice bytes offset h, List.foldl_append]
      · exact ⟨offset, crc, if_neg h, rfl⟩

/-- No read leaves the buffer, and the slices compute the byte-wise update. -/
theorem crc16Ccitt_foldl (bytes : List Byte) :
    crc16Ccitt bytes = some (bytes.foldl crc16CcittUpdate 0) := by
  obtain ⟨next, value, hrun, hvalue⟩ := crc16CcittSlices_eq bytes (bytes.length + 1) 0 0 (by omega)
  rw [crc16Ccitt, hrun]
  change crc16CcittTail bytes (bytes.length + 1) next value = _
  rw [crc16CcittTail_eq _ _ _ _ (by omega), hvalue, List.drop_zero]

@[simp]
theorem byteBits_length (byte : Byte) : (byteBits byte).length = 8 := List.length_ofFn

@[simp]
theorem bits_nil : bits [] = [] := rfl

@[simp]
theorem bits_cons (byte : Byte) (rest : List Byte) :
    bits (byte :: rest) = byteBits byte ++ bits rest := List.flatMap_cons

@[simp]
theorem bits_append (xs ys : List Byte) : bits (xs ++ ys) = bits xs ++ bits ys :=
  List.flatMap_append

@[simp]
theorem bits_length (bytes : List Byte) : (bits bytes).length = 8 * bytes.length := by
  induction bytes with
  | nil => rfl
  | cons byte rest ih =>
      rw [bits_cons, List.length_append, byteBits_length, ih, List.length_cons]
      omega

private theorem align_byteBits (byte : Byte) : Crc.align (byteBits byte) = high byte := by
  revert byte
  decide +kernel

theorem crc16CcittUpdate_feedAll (crc : BitVec 16) (byte : Byte) :
    crc16CcittUpdate crc byte = Crc.feedAll crc16CcittPoly crc (byteBits byte) := by
  rw [Crc.feedAll_align crc16CcittPoly crc _ (by rw [byteBits_length]; omega), byteBits_length,
    align_byteBits, crc16CcittUpdate_eq, turn]

/-- The checksum of the protocol is the remainder of the message bits. -/
theorem crc16Ccitt_eq (bytes : List Byte) :
    crc16Ccitt bytes = some (Crc.remainder crc16CcittPoly (bits bytes)) := by
  have hfold : ∀ crc : BitVec 16,
      bytes.foldl crc16CcittUpdate crc = Crc.feedAll crc16CcittPoly crc (bits bytes) := by
    induction bytes with
    | nil => intro crc; rfl
    | cons byte rest ih =>
        intro crc
        rw [List.foldl_cons, ih, crc16CcittUpdate_feedAll, bits_cons, Crc.feedAll_append]
  rw [crc16Ccitt_foldl, hfold, Crc.remainder]

end ServoFleet.Checksum
