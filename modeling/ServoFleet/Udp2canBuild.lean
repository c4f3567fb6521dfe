import ServoFleet.DocumentedCrc
import ServoFleet.MotorRoundTrip
import ServoFleet.Udp2canTool

/-!
What `build_frame` of the tool returns, in the terms of the C++ codec: the
checksum is the documented one, the integers are the codec's words and every
entry is that of the zero-padded frame of its message.
-/

namespace ServoFleet.Udp2canTool

/-! ## The checksum -/

theorem crcBit_eq (crc : BitVec 16) : crcBit crc.toNat = (Checksum.shiftOut crc).toNat := by
  have hbit : crc.toNat &&& 0x8000 ≠ 0 ↔ crc.getLsbD 15 = true := by
    have hmask : (0x8000 : Nat) = 2 ^ 15 := by decide
    rw [hmask, Nat.and_two_pow, BitVec.getLsbD]
    cases crc.toNat.testBit 15 <;> simp
  have hshift : (crc.toNat <<< 1) &&& 0xFFFF = (crc <<< 1).toNat := by
    rw [BitVec.toNat_shiftLeft]
    exact Nat.and_two_pow_sub_one_eq_mod _ 16
  rw [crcBit, Checksum.shiftOut, hshift]
  simp only [hbit]
  split
  · rw [BitVec.toNat_xor]
    rfl
  · rfl

theorem crcBit_iterate (n : Nat) (crc : BitVec 16) :
    crcBit^[n] crc.toNat = (Checksum.shiftOut^[n] crc).toNat := by
  induction n generalizing crc with
  | zero => rfl
  | succ n ih => rw [Function.iterate_succ_apply, crcBit_eq, ih, Function.iterate_succ_apply]

theorem crcByte_eq (crc : BitVec 16) (byte : Byte) :
    crcByte crc.toNat byte = (Checksum.shiftByte crc byte).toNat := by
  have hhigh : byte.toNat <<< 8 = (byte.setWidth 16 <<< 8 : BitVec 16).toNat := by
    have hbyte := byte.isLt
    rw [BitVec.toNat_shiftLeft, BitVec.toNat_setWidth, Nat.shiftLeft_eq, Nat.shiftLeft_eq]
    omega
  rw [crcByte, Checksum.shiftByte, hhigh, ← BitVec.toNat_xor, crcBit_iterate]

theorem crc16Ccitt_eq (data : List Byte) :
    crc16Ccitt data = (Checksum.documentedCrc data).toNat := by
  have hfold : ∀ crc : BitVec 16,
      data.foldl crcByte crc.toNat = (data.foldl Checksum.shiftByte crc).toNat := by
    induction data with
    | nil => intro crc; rfl
    | cons byte rest ih =>
        intro crc
        rw [List.foldl_cons, crcByte_eq, ih, List.foldl_cons]
  have hcut : ∀ crc : BitVec 16, crc.toNat &&& 0xFFFF = crc.toNat := by
    intro crc
    rw [Nat.and_two_pow_sub_one_eq_mod crc.toNat 16, Nat.mod_eq_of_lt crc.isLt]
  rw [crc16Ccitt, Checksum.documentedCrc, ← hcut]
  exact congrArg (· &&& 0xFFFF) (hfold 0)

/-- The tool's checksum is the one the codec puts into a packet. -/
theorem crc16Ccitt_bodyCrc (data : List Byte) :
    crc16Ccitt data = (MotorCodec.bodyCrc data).toNat := by
  have hsame := (Checksum.crc16Ccitt_foldl data).symm.trans (Checksum.crc16Ccitt_eq data)
  rw [crc16Ccitt_eq, MotorCodec.bodyCrc, Checksum.documentedCrc,
    ← Checksum.crc16CcittUpdate_shiftByte, Option.some.inj hsame]

/-! ## Integers and bytes -/

theorem digits_split16 (value : Nat) :
    digits 2 value = BigEndian.split16 (BitVec.ofNat 16 value) := by
  have h0 : BitVec.ofNat 8 (value >>> 8) = (BitVec.ofNat 16 value >>> 8).setWidth 8 := by
    apply BitVec.eq_of_toNat_eq
    simp only [BitVec.toNat_ofNat, BitVec.toNat_setWidth, BitVec.toNat_ushiftRight,
      Nat.shiftRight_eq_div_pow]
    omega
  have h1 : BitVec.ofNat 8 value = (BitVec.ofNat 16 value).setWidth 8 := by
    rw [BitVec.setWidth_ofNat_of_le (by decide)]
  rw [BigEndian.split16, ← h0, ← h1]
  rfl

theorem digits_split32 (value : Nat) :
    digits 4 value = BigEndian.split32 (BitVec.ofNat 32 value) := by
  have hdigit : ∀ n ≤ 24, BitVec.ofNat 8 (value >>> n) =
      (BitVec.ofNat 32 value >>> n).setWidth 8 := by
    intro n hn
    apply BitVec.eq_of_getLsbD_eq
    intro i hi
    have hword : n + i < 32 := by omega
    simp only [BitVec.getLsbD_ofNat, BitVec.getLsbD_setWidth, BitVec.getLsbD_ushiftRight,
      Nat.testBit_shiftRight, hi, hword, decide_true, Bool.true_and]
  have h3 : BitVec.ofNat 8 value = (BitVec.ofNat 32 value).setWidth 8 := by
    rw [BitVec.setWidth_ofNat_of_le (by decide)]
  rw [BigEndian.split32, ← hdigit 24 (by decide), ← hdigit 16 (by decide), ← hdigit 8 (by decide),
    ← h3]
  rfl

theorem fromBytes_two (b0 b1 : Byte) : fromBytes [b0, b1] = (BigEndian.join16 b0 b1).toNat := by
  rw [BigEndian.join16_append, BitVec.toNat_append]
  simp [fromBytes]

theorem fromBytes_four (b0 b1 b2 b3 : Byte) :
    fromBytes [b0, b1, b2, b3] = (BigEndian.join32 b0 b1 b2 b3).toNat := by
  rw [BigEndian.join32_append, BitVec.toNat_append, BitVec.toNat_append, BitVec.toNat_append]
  simp [fromBytes]

/-! ## Messages and frames -/

/-- The ports, identifiers and lengths a CAN frame can have. -/
structure Message.Sendable (item : Message) : Prop where
  port : 0 ≤ item.port ∧ item.port ≤ 255
  id : 0 ≤ item.id ∧ item.id ≤ if item.ext then 0x1FFFFFFF else 0x7FF
  data : item.data.length ≤ 8

/-- The zero-padded frame of a message. -/
def frameOf (item : Message) : CanFrame where
  port := BitVec.ofInt 8 item.port
  id := BitVec.ofInt 32 item.id
  extended := item.ext
  data := Vector.ofFn fun i => item.data.getD i 0
  len := BitVec.ofNat 8 item.data.length

theorem frameOf_data (item : Message) (h : item.data.length ≤ 8) :
    (frameOf item).data.toList = item.data ++ List.replicate (8 - item.data.length) 0 := by
  apply List.ext_getElem
  · rw [Vector.length_toList, List.length_append, List.length_replicate]
    omega
  · intro i hi _
    rw [Vector.length_toList] at hi
    simp only [frameOf, Vector.getElem_toList, Vector.getElem_ofFn]
    by_cases hin : i < item.data.length
    · rw [List.getElem_append_left hin, List.getD_eq_getElem _ _ hin]
    · rw [List.getElem_append_right (by omega), List.getElem_replicate,
        List.getD_eq_default _ _ (by omega)]

theorem frameOf_len (item : Message) (h : item.data.length ≤ 8) :
    (frameOf item).len.toNat = item.data.length := by
  rw [frameOf, BitVec.toNat_ofNat, Nat.mod_eq_of_lt (by omega)]

theorem Message.Sendable.exists_id {item : Message} (h : item.Sendable) :
    ∃ n : Nat, item.id = n ∧ n ≤ if item.ext then 0x1FFFFFFF else 0x7FF := by
  obtain ⟨n, hn⟩ := Int.eq_ofNat_of_zero_le h.id.1
  refine ⟨n, hn, ?_⟩
  have hbound := h.id.2
  rw [hn] at hbound
  split at hbound <;> simp_all

theorem frameOf_valid {item : Message} (h : item.Sendable) : (frameOf item).valid = true := by
  obtain ⟨n, hn, hbound⟩ := h.exists_id
  have hlen := h.data
  have hid : (frameOf item).id = BitVec.ofNat 32 n := by
    rw [frameOf, hn, BitVec.ofInt_natCast]
  have hext : (frameOf item).extended = item.ext := rfl
  simp only [CanFrame.valid, hid, hext, frameOf_len item hlen, maxCanDataLen, Bool.and_eq_true,
    decide_eq_true_eq, BitVec.le_def, BitVec.toNat_ofNat]
  cases hcase : item.ext <;> simp only [hcase] at hbound ⊢ <;> simp at hbound ⊢ <;> omega

/-- The identifier of a message goes out as the wire identifier of its frame. -/
theorem toBytes_id {item : Message} (h : item.Sendable) :
    toBytes 4 (item.id.lor (if item.ext then canIdExtdFlag else 0)) =
      .ok (BigEndian.split32 (MotorCodec.wireIdFrom (frameOf item))) := by
  obtain ⟨n, hn, hbound⟩ := h.exists_id
  have hlt : n < 2 ^ 31 := by split at hbound <;> omega
  have hflag : ∀ flag < 2 ^ 32, n ||| flag < 2 ^ (8 * 4) := fun flag hflag =>
    Nat.or_lt_two_pow (by omega) hflag
  have hwire : ∀ flag : Nat, BitVec.ofNat 32 (n ||| flag) =
      BitVec.ofNat 32 n ||| BitVec.ofNat 32 flag := fun _ => BitVec.ofNat_or
  have hid : (frameOf item).id = BitVec.ofNat 32 n := by
    rw [frameOf, hn, BitVec.ofInt_natCast]
  have hext : (frameOf item).extended = item.ext := rfl
  rw [MotorCodec.wireIdFrom, hid, hext, hn]
  cases item.ext
  · change (if n ||| 0 < _ then _ else _) = _
    rw [if_pos (hflag 0 (by decide)), digits_split32, Nat.or_zero]
    rfl
  · change (if n ||| canIdExtdFlag < _ then _ else _) = _
    rw [if_pos (hflag canIdExtdFlag (by decide)), digits_split32, hwire]
    rfl

theorem buildEntry_eq {item : Message} (h : item.Sendable) :
    buildEntry item = .ok (MotorCodec.entryBytes (frameOf item)) := by
  have hlen := h.data
  have hmax : max 6 (6 + item.data.length) = 6 + item.data.length := by omega
  have hpad : ∀ fields : List Byte, fields.length = 6 →
      setSlice (fields ++ List.replicate 8 0) 6 (6 + item.data.length) item.data =
        fields ++ (frameOf item).data.toList := by
    intro fields hfields
    rw [setSlice, hmax, ← hfields, List.take_left, List.drop_length_add_append, List.drop_replicate,
      frameOf_data item hlen, List.append_assoc]
  unfold buildEntry
  rw [raiseIf_of_not (by omega)]
  simp only [toBytes_id h, MotorCodec.entryBytes]
  exact congrArg Except.ok (hpad ((frameOf item).port ::
    (BigEndian.split32 (MotorCodec.wireIdFrom (frameOf item)) ++ [(frameOf item).len])) rfl)

theorem extendPayload_eq (payload : List Byte) (items : List Message)
    (h : ∀ item ∈ items, item.Sendable) :
    extendPayload payload items =
      .ok (payload ++ (items.map frameOf).flatMap MotorCodec.entryBytes) := by
  induction items generalizing payload with
  | nil => simp [extendPayload]
  | cons item rest ih =>
      have hrest : ∀ next ∈ rest, next.Sendable := fun next member =>
        h next (List.mem_cons_of_mem _ member)
      simp only [extendPayload, buildEntry_eq (h item List.mem_cons_self)]
      change extendPayload (payload ++ MotorCodec.entryBytes (frameOf item)) rest = _
      rw [ih _ hrest, List.map_cons, List.flatMap_cons, List.append_assoc]

/-- The tool's frame is the codec's packet. -/
theorem buildFrame_eq (frameType : Int) (items : List Message)
    (hcount : items.length ≤ maxFramesPerPacket) (h : ∀ item ∈ items, item.Sendable) :
    buildFrame frameType items =
      .ok (MotorCodec.packetBytes (BitVec.ofInt 8 frameType) (items.map frameOf)) := by
  let entries := (items.map frameOf).flatMap MotorCodec.entryBytes
  let payload := BitVec.ofNat 8 items.length :: entries
  let length := BigEndian.split16 (BitVec.ofNat 16 payload.length)
  let body := BitVec.ofInt 8 frameType :: (length ++ payload)
  have hsize : payload.length = MotorCodec.payloadLenFor (items.map frameOf).length := by
    rw [MotorCodec.payloadLenFor_eq, List.length_cons, MotorCodec.entries_length]
  have hlt : payload.length < 2 ^ (8 * 2) := by
    rw [hsize, List.length_map]
    exact MotorCodec.payloadLenFor_lt items.length hcount
  have hpayload : extendPayload [BitVec.ofNat 8 items.length] items = .ok payload :=
    extendPayload_eq _ items h
  have hlength : toBytes 2 payload.length = .ok length := by
    change (if payload.length < _ then _ else _) = _
    rw [if_pos hlt, digits_split16]
  have hbody : MotorCodec.bodyBytes (BitVec.ofInt 8 frameType) (items.map frameOf) = body := by
    rw [MotorCodec.bodyBytes, ← hsize, List.length_map]
  have hrun : buildFrame frameType items = .ok (forwardProtoFrameStx :: (body ++
      [BitVec.ofNat 8 (crc16Ccitt body), BitVec.ofNat 8 (crc16Ccitt body >>> 8),
        forwardProtoFrameEtx])) := by
    rw [buildFrame, hpayload]
    change (toBytes 2 payload.length >>= _) = _
    rw [hlength]
    rfl
  have hhigh : (MotorCodec.bodyCrc body).toNat >>> 8 = (MotorCodec.bodyCrc body >>> 8).toNat :=
    (BitVec.toNat_ushiftRight _ _).symm
  rw [hrun, MotorCodec.packetBytes, hbody, crc16Ccitt_bodyCrc, hhigh, BitVec.ofNat_toNat,
    BitVec.ofNat_toNat]
  rfl

end ServoFleet.Udp2canTool
