import Mathlib.Tactic.SplitIfs
import ServoFleet.MotorEntries

/-!
What `decode_each` checks before it looks at the entries. A byte string is cut at
the fixed fields of the layout; it is refused as a whole, with the handler never
called, or its entries are scanned.
-/

namespace ServoFleet.MotorCodec

open Checksum

/-- A byte string cut at the fixed fields of the packet layout. -/
def layout (first type len0 len1 : Byte) (payload : List Byte) (crc0 crc1 last : Byte) :
    List Byte :=
  first :: type :: len0 :: len1 :: (payload ++ [crc0, crc1, last])

theorem exists_layout (bytes : List Byte) (n : Nat) (h : bytes.length = packetSize n) :
    ∃ first type len0 len1 payload crc0 crc1 last, payload.length = n ∧
      bytes = layout first type len0 len1 payload crc0 crc1 last := by
  simp only [packetSize, headerSz, crcSz, trailerSz] at h
  rcases bytes with _ | ⟨first, _ | ⟨type, _ | ⟨len0, _ | ⟨len1, tail⟩⟩⟩⟩
  case cons.cons.cons.cons =>
    have htail : tail.length = n + 3 := by simp only [List.length_cons] at h; omega
    obtain ⟨crc0, crc1, last, hdrop⟩ : ∃ a b c, tail.drop n = [a, b, c] := by
      apply List.length_eq_three.mp
      rw [List.length_drop]
      omega
    refine ⟨first, type, len0, len1, tail.take n, crc0, crc1, last, ?_, ?_⟩
    · rw [List.length_take]
      omega
    · rw [layout, ← hdrop, List.take_append_drop]
  all_goals
    simp only [List.length_cons, List.length_nil] at h
    omega

section Layout

variable (first type len0 len1 : Byte) (payload : List Byte) (crc0 crc1 last : Byte)

theorem layout_length :
    (layout first type len0 len1 payload crc0 crc1 last).length = packetSize payload.length := by
  simp only [layout, packetSize, headerSz, crcSz, trailerSz, List.length_cons, List.length_append,
    List.length_nil]
  omega

theorem readHeader_layout (h : 0 < payload.length) :
    readHeader (layout first type len0 len1 payload crc0 crc1 last) =
      some (if first ≠ stx ∨ last ≠ etx then .error .protocolError
        else if !supportedType type then .error .unsupported
        else if payload.length ≠ (BigEndian.join16 len0 len1).toNat then .error .protocolError
        else .ok { type, payloadLen := BigEndian.join16 len0 len1 }) := by
  have hlen := layout_length first type len0 len1 payload crc0 crc1 last
  have hmin : ¬ packetSize payload.length < minPacketSz := by
    simp only [packetSize, headerSz, crcSz, trailerSz, minPacketSz]
    omega
  have hlast : (layout first type len0 len1 payload crc0 crc1 last).getLast? = some last := by
    have happ : layout first type len0 len1 payload crc0 crc1 last =
        (first :: type :: len0 :: len1 :: (payload ++ [crc0, crc1])) ++ [last] := by
      simp [layout]
    rw [happ, List.getLast?_concat]
  have hfirst : (layout first type len0 len1 payload crc0 crc1 last)[Wire.stxOffset]? =
      some first := rfl
  have htype : (layout first type len0 len1 payload crc0 crc1 last)[Wire.typeOffset]? =
      some type := rfl
  have hpayload : readU16Be (layout first type len0 len1 payload crc0 crc1 last)
      Wire.payloadLenOffset = some (BigEndian.join16 len0 len1) := rfl
  have hsize : ((packetSize payload.length ≠ packetSize (BigEndian.join16 len0 len1).toNat) ∨
      (BigEndian.join16 len0 len1).toNat < msgCntSz) ↔
        payload.length ≠ (BigEndian.join16 len0 len1).toNat := by
    simp only [packetSize, headerSz, crcSz, trailerSz, msgCntSz]
    omega
  simp only [readHeader, hlen, if_neg hmin, hfirst, hlast, htype, hpayload, hsize,
    Option.bind_eq_bind, Option.bind_some, Option.pure_def]
  split_ifs <;> rfl

theorem verifyCrc_layout (payloadLen : BitVec 16) (h : payload.length = payloadLen.toNat) :
    verifyCrc (layout first type len0 len1 payload crc0 crc1 last) payloadLen =
      some (if bodyCrc (type :: len0 :: len1 :: payload) ≠ BigEndian.join16 crc1 crc0 then
        .error .protocolError else .ok ()) := by
  have hspan : subspan (layout first type len0 len1 payload crc0 crc1 last) 1
      (3 + payloadLen.toNat) = some (type :: len0 :: len1 :: payload) := by
    have hlen : 3 + payloadLen.toNat = (type :: len0 :: len1 :: payload).length := by
      simp only [List.length_cons, h]
      omega
    have happ : layout first type len0 len1 payload crc0 crc1 last =
        [first] ++ ((type :: len0 :: len1 :: payload) ++ [crc0, crc1, last]) := by
      simp [layout]
    rw [hlen, happ, subspan_of_le (by simp; omega)]
    simp
  have hcrc : readU16Le (layout first type len0 len1 payload crc0 crc1 last)
      (headerSz + payloadLen.toNat) = some (BigEndian.join16 crc1 crc0) := by
    have happ : layout first type len0 len1 payload crc0 crc1 last =
        (first :: type :: len0 :: len1 :: payload) ++ [crc0, crc1, last] := by
      simp [layout]
    have hoffset : headerSz + payloadLen.toNat =
        (first :: type :: len0 :: len1 :: payload).length := by
      simp only [List.length_cons, h, headerSz]
      omega
    simp only [readU16Le, hoffset, happ, List.getElem?_append_right (Nat.le_refl _),
      List.getElem?_append_right (Nat.le_add_right _ _), Nat.sub_self, Nat.add_sub_cancel_left]
    rfl
  have hcalc : crc16Ccitt (type :: len0 :: len1 :: payload) =
      some (bodyCrc (type :: len0 :: len1 :: payload)) := crc16Ccitt_eq _
  simp only [verifyCrc, hspan, hcalc, hcrc, Option.bind_eq_bind, Option.bind_some,
    Option.pure_def]
  split_ifs <;> rfl

end Layout

/-- A packet that passes every check but those of its entries. -/
structure Framed (type len0 len1 count : Byte) (entries : List Byte) (crc0 crc1 : Byte) :
    Prop where
  supported : supportedType type = true
  payloadLen : (BigEndian.join16 len0 len1).toNat = payloadLenFor count.toNat
  countLe : count.toNat ≤ maxFramesPerPacket
  entriesLen : entries.length = count.toNat * canEntrySz
  crc : bodyCrc (type :: len0 :: len1 :: count :: entries) = BigEndian.join16 crc1 crc0

theorem payloadLenFor_eq (count : Nat) : payloadLenFor count = count * canEntrySz + 1 := by
  rw [payloadLenFor, msgCntSz, Nat.add_comm]

theorem decodeEach_framed {σ : Type} (handler : σ → CanFrame → σ) (context : σ)
    {type len0 len1 count : Byte} {entries : List Byte} {crc0 crc1 : Byte}
    (h : Framed type len0 len1 count entries crc0 crc1) :
    decodeEach (layout stx type len0 len1 (count :: entries) crc0 crc1 etx) context
        (some handler) =
      decodeEntries (layout stx type len0 len1 (count :: entries) crc0 crc1 etx) handler
        count.toNat (headerSz + msgCntSz) context := by
  have hsize : (count :: entries).length = (BigEndian.join16 len0 len1).toNat := by
    rw [List.length_cons, h.entriesLen, h.payloadLen, payloadLenFor_eq]
  have hheader := readHeader_layout stx type len0 len1 (count :: entries) crc0 crc1 etx
    (Nat.succ_pos _)
  rw [if_neg (by simp), if_neg (by simp [h.supported]), if_neg (not_not.mpr hsize)] at hheader
  have hcrc := verifyCrc_layout stx type len0 len1 (count :: entries) crc0 crc1 etx _ hsize
  rw [if_neg (not_not.mpr h.crc)] at hcrc
  have hmsg : (layout stx type len0 len1 (count :: entries) crc0 crc1 etx)[Wire.msgCntOffset]? =
      some count := rfl
  have hguard : ¬ ((BigEndian.join16 len0 len1).toNat ≠ payloadLenFor count.toNat ∨
      count.toNat > maxFramesPerPacket) := by
    rintro (hne | hgt)
    · exact hne h.payloadLen
    · exact absurd h.countLe (Nat.not_le.mpr hgt)
  simp only [decodeEach, hheader, hcrc, hmsg, if_neg hguard, Option.bind_eq_bind,
    Option.bind_some]

/-- A byte string is refused without a call of the handler, or its entries are scanned. -/
theorem decodeEach_cases (bytes : List Byte) :
    (∃ err, ∀ (σ : Type) (handler : σ → CanFrame → σ) (context : σ),
        decodeEach bytes context (some handler) = some (.error err, context)) ∨
      ∃ type len0 len1 count entries crc0 crc1,
        Framed type len0 len1 count entries crc0 crc1 ∧
          bytes = layout stx type len0 len1 (count :: entries) crc0 crc1 etx := by
  have hrefused : ∀ err, readHeader bytes = some (.error err) →
      ∃ err, ∀ (σ : Type) (handler : σ → CanFrame → σ) (context : σ),
        decodeEach bytes context (some handler) = some (.error err, context) := by
    intro err herr
    refine ⟨err, fun σ handler context => ?_⟩
    rw [decodeEach, herr]
    rfl
  by_cases hmin : bytes.length < minPacketSz
  · exact .inl (hrefused .protocolError (if_pos hmin))
  obtain ⟨n, hn, hpos⟩ : ∃ n, bytes.length = packetSize n ∧ 0 < n := by
    simp only [minPacketSz] at hmin
    refine ⟨bytes.length - 7, ?_, by omega⟩
    simp only [packetSize, headerSz, crcSz, trailerSz]
    omega
  obtain ⟨first, type, len0, len1, payload, crc0, crc1, last, hlen, rfl⟩ :=
    exists_layout bytes n hn
  have hheader := readHeader_layout first type len0 len1 payload crc0 crc1 last (by omega)
  split_ifs at hheader with hmarks htype hsize
  · exact .inl (hrefused _ hheader)
  · exact .inl (hrefused _ hheader)
  · exact .inl (hrefused _ hheader)
  have hcrc := verifyCrc_layout first type len0 len1 payload crc0 crc1 last _ (not_not.mp hsize)
  split_ifs at hcrc with hcheck
  · refine .inl ⟨.protocolError, fun σ handler context => ?_⟩
    simp only [decodeEach, hheader, hcrc, Option.bind_eq_bind, Option.bind_some, Option.pure_def]
  obtain ⟨count, entries, rfl⟩ :=
    List.exists_cons_of_length_pos (by omega : 0 < payload.length)
  have hmsg : (layout first type len0 len1 (count :: entries) crc0 crc1 last)[Wire.msgCntOffset]? =
      some count := rfl
  by_cases hguard : (BigEndian.join16 len0 len1).toNat ≠ payloadLenFor count.toNat ∨
      count.toNat > maxFramesPerPacket
  · refine .inl ⟨.protocolError, fun σ handler context => ?_⟩
    simp only [decodeEach, hheader, hcrc, hmsg, if_pos hguard, Option.bind_eq_bind,
      Option.bind_some, Option.pure_def]
  · rw [not_or, not_not, not_lt] at hguard
    rw [not_or, not_not, not_not] at hmarks
    obtain ⟨rfl, rfl⟩ := hmarks
    rw [not_not, hguard.1, List.length_cons, payloadLenFor_eq] at hsize
    exact .inr ⟨type, len0, len1, count, entries, crc0, crc1,
      ⟨by simpa using htype, hguard.1, hguard.2, by omega, not_not.mp hcheck⟩, rfl⟩

end ServoFleet.MotorCodec
