import Mathlib.Tactic.SplitIfs
import ServoFleet.MotorCodec

/-!
The packet layout behind the codec: what the writes of `encode_into` amount to, and
which byte strings `decode_each` takes apart again. The encoder looks at the number
of frames, at every frame and at the room in the buffer before its first write.
-/

namespace ServoFleet.MotorCodec

open Checksum

/-! ## Writing a packet -/

theorem copyTo_append (bytes xs ys : List Byte) (offset : Nat) :
    copyTo bytes offset (xs ++ ys) =
      (copyTo bytes offset xs).bind fun next => copyTo next (offset + xs.length) ys := by
  induction xs generalizing bytes offset with
  | nil => simp [copyTo]
  | cons x xs ih =>
      simp only [List.cons_append, copyTo, Option.bind_eq_bind, Option.bind_assoc, ih,
        List.length_cons, Nat.add_assoc, Nat.add_comm 1]

theorem copyTo_eq (bytes values : List Byte) (offset : Nat)
    (h : offset + values.length ≤ bytes.length) :
    copyTo bytes offset values =
      some (bytes.take offset ++ values ++ bytes.drop (offset + values.length)) := by
  induction values generalizing bytes offset with
  | nil => simp [copyTo]
  | cons value rest ih =>
      have hlt : offset < bytes.length := by simp only [List.length_cons] at h; omega
      have hset : bytes.set offset value =
          (bytes.take offset ++ [value]) ++ bytes.drop (offset + 1) := by
        rw [List.set_eq_take_append_cons_drop, if_pos hlt, List.append_assoc]
        rfl
      have hpre : (bytes.take offset ++ [value]).length = offset + 1 := by
        simp [Nat.min_eq_left (Nat.le_of_lt hlt)]
      rw [copyTo, writeAt, if_pos hlt, Option.bind_eq_bind, Option.bind_some,
        ih _ _ (by simp only [List.length_cons, List.length_set] at h ⊢; omega), hset,
        List.take_left' hpre, ← hpre, List.drop_append, hpre, List.drop_drop]
      simp [Nat.add_assoc, Nat.add_comm 1]

theorem copyTo_window (before old after values : List Byte) (h : old.length = values.length) :
    copyTo (before ++ old ++ after) before.length values = some (before ++ values ++ after) := by
  have hfit : before.length + values.length ≤ (before ++ old ++ after).length := by
    simp only [List.length_append]
    omega
  have hold : before.length + values.length = (before ++ old).length := by
    rw [List.length_append, h]
  rw [copyTo_eq _ _ _ hfit, hold, List.drop_left, List.append_assoc before old after,
    List.take_left]

/-- An entry on the wire. -/
def entryBytes (frame : CanFrame) : List Byte :=
  frame.port :: (BigEndian.split32 (wireIdFrom frame) ++ frame.len :: frame.data.toList)

@[simp]
theorem entryBytes_length (frame : CanFrame) : (entryBytes frame).length = canEntrySz := by
  simp [entryBytes, canEntrySz]

theorem entries_length (frames : List CanFrame) :
    (frames.flatMap entryBytes).length = frames.length * canEntrySz := by
  induction frames with
  | nil => simp
  | cons frame rest ih =>
      rw [List.flatMap_cons, List.length_append, ih, entryBytes_length, List.length_cons]
      simp only [canEntrySz]
      omega

theorem writeCanEntry_eq (packet : List Byte) (base : Nat) (frame : CanFrame) :
    writeCanEntry packet base frame = copyTo packet base (entryBytes frame) := by
  simp only [writeCanEntry, writeU32Be, entryBytes, BigEndian.split32, copyTo, List.cons_append,
    List.nil_append, Option.bind_eq_bind, Option.bind_assoc, Wire.entryPortOffset,
    Wire.entryWireIdOffset, Wire.entryLenOffset, Wire.entryDataOffset, Nat.add_zero, Nat.add_assoc,
    Nat.reduceAdd]

theorem writeEntries_eq (packet : List Byte) (offset : Nat) (frames : List CanFrame)
    (h : offset + frames.length * canEntrySz ≤ packet.length) :
    writeEntries packet offset frames =
      (copyTo packet offset (frames.flatMap entryBytes)).map
        fun next => (next, offset + frames.length * canEntrySz) := by
  induction frames generalizing packet offset with
  | nil => simp [writeEntries, copyTo]
  | cons frame rest ih =>
      simp only [List.length_cons, canEntrySz] at h ih ⊢
      have hfit : offset + (entryBytes frame).length ≤ packet.length := by
        rw [entryBytes_length, canEntrySz]
        omega
      have hcopy := copyTo_eq packet (entryBytes frame) offset hfit
      have hlen : (packet.take offset ++ entryBytes frame ++
          packet.drop (offset + (entryBytes frame).length)).length = packet.length := by
        simp only [List.length_append, List.length_take, List.length_drop]
        omega
      rw [writeEntries, canEntrySz, if_pos (by omega), writeCanEntry_eq, List.flatMap_cons,
        copyTo_append, hcopy, Option.bind_eq_bind, Option.bind_some, Option.bind_some,
        ih _ _ (by rw [hlen]; omega), entryBytes_length, canEntrySz]
      congr 1
      funext next
      congr 1
      omega

/-- The checksummed bytes: type, payload length and payload. -/
def bodyBytes (type : Byte) (frames : List CanFrame) : List Byte :=
  type :: (BigEndian.split16 (BitVec.ofNat 16 (payloadLenFor frames.length)) ++
    BitVec.ofNat 8 frames.length :: frames.flatMap entryBytes)

def bodyCrc (body : List Byte) : BitVec 16 := Crc.remainder crc16CcittPoly (bits body)

def packetBytes (type : Byte) (frames : List CanFrame) : List Byte :=
  let crc := bodyCrc (bodyBytes type frames)
  stx :: (bodyBytes type frames ++ [crc.setWidth 8, (crc >>> 8).setWidth 8, etx])

theorem bodyBytes_length (type : Byte) (frames : List CanFrame) :
    (bodyBytes type frames).length = 3 + payloadLenFor frames.length := by
  simp only [bodyBytes, List.length_cons, List.length_append, BigEndian.split16_length,
    entries_length, payloadLenFor, msgCntSz]
  omega

theorem packetBytes_length (type : Byte) (frames : List CanFrame) :
    (packetBytes type frames).length = packetSize (payloadLenFor frames.length) := by
  simp only [packetBytes, List.length_cons, List.length_append, bodyBytes_length, packetSize,
    headerSz, crcSz, trailerSz, List.length_nil]
  omega

/-- The writes of a packet, run by run: header, entries, trailer. -/
private theorem writePacket_runs (packet : List Byte) (type : Byte) (frames : List CanFrame) :
    writePacket packet type frames =
      (copyTo packet 0 (stx :: type ::
        (BigEndian.split16 (BitVec.ofNat 16 (payloadLenFor frames.length)) ++
          [BitVec.ofNat 8 frames.length]))).bind fun packet =>
      (writeEntries packet 5 frames).bind fun written =>
      (subspan written.1 1 (3 + payloadLenFor frames.length)).bind fun checked =>
      (crc16Ccitt checked).bind fun crc =>
        copyTo written.1 written.2 [crc.setWidth 8, (crc >>> 8).setWidth 8, etx] := by
  simp only [writePacket, copyTo, writeU16Be, BigEndian.split16, Wire.stxOffset, Wire.typeOffset,
    Wire.payloadLenOffset, Wire.msgCntOffset, headerSz, msgCntSz, crcSz, Option.bind_eq_bind,
    Option.bind_assoc, List.cons_append, List.nil_append, Nat.reduceAdd, Nat.add_assoc,
    Option.bind_fun_some]

theorem writePacket_eq (packet : List Byte) (type : Byte) (frames : List CanFrame)
    (h : packet.length = packetSize (payloadLenFor frames.length)) :
    writePacket packet type frames = some (packetBytes type frames) := by
  let entries := frames.flatMap entryBytes
  let header := stx :: type ::
    (BigEndian.split16 (BitVec.ofNat 16 (payloadLenFor frames.length)) ++
      [BitVec.ofNat 8 frames.length])
  have hheader : header.length = 5 := rfl
  have hentries : entries.length = frames.length * canEntrySz := entries_length frames
  have hbody : stx :: bodyBytes type frames = header ++ entries := by
    simp [header, entries, bodyBytes]
  have hsize : packet.length = 5 + entries.length + 3 := by
    rw [h, hentries]
    simp only [packetSize, payloadLenFor, headerSz, crcSz, trailerSz, msgCntSz]
    omega
  obtain ⟨old, after, hpacket, hold, hafter⟩ : ∃ old after, packet.drop 5 = old ++ after ∧
      old.length = entries.length ∧ after.length = 3 := by
    refine ⟨(packet.drop 5).take entries.length, (packet.drop 5).drop entries.length,
      (List.take_append_drop _ _).symm, ?_, ?_⟩ <;>
      simp only [List.length_take, List.length_drop] <;> omega
  have hwhole : packet = [] ++ packet.take 5 ++ (old ++ after) := by
    rw [List.nil_append, ← hpacket, List.take_append_drop]
  have hfirst : copyTo packet 0 header = some (header ++ old ++ after) := by
    have htake : (packet.take 5).length = header.length := by
      rw [List.length_take, hheader]
      omega
    rw [hwhole]
    simpa using copyTo_window [] (packet.take 5) (old ++ after) header htake
  have hsecond : copyTo (header ++ old ++ after) 5 entries =
      some (header ++ entries ++ after) :=
    copyTo_window header old after entries hold
  have hspan : subspan (header ++ entries ++ after) 1 (3 + payloadLenFor frames.length) =
      some (bodyBytes type frames) := by
    rw [← bodyBytes_length type frames, ← hbody, subspan_of_le (by simp; omega)]
    simp
  have hlast : copyTo (header ++ entries ++ after) (5 + frames.length * canEntrySz)
      [(bodyCrc (bodyBytes type frames)).setWidth 8,
        (bodyCrc (bodyBytes type frames) >>> 8).setWidth 8, etx] =
      some (packetBytes type frames) := by
    have hlen : 5 + frames.length * canEntrySz = (header ++ entries).length := by
      rw [List.length_append, hheader, hentries]
    have hcopy := copyTo_window (header ++ entries) after []
      [(bodyCrc (bodyBytes type frames)).setWidth 8,
        (bodyCrc (bodyBytes type frames) >>> 8).setWidth 8, etx] hafter
    rw [hlen]
    simpa only [List.append_nil, ← hbody, packetBytes, List.cons_append] using hcopy
  have hfit : 5 + frames.length * canEntrySz ≤ (header ++ old ++ after).length := by
    simp only [List.length_append, hheader, hold, hentries]
    omega
  rw [writePacket_runs, hfirst, Option.bind_some, writeEntries_eq _ _ _ hfit, hsecond,
    Option.map_some, Option.bind_some, hspan, Option.bind_some, crc16Ccitt_eq, Option.bind_some]
  exact hlast

/-- `encode_into` on a buffer that is large enough. -/
theorem encodeInto_ok (out : List Byte) (type : Byte) (frames : List CanFrame)
    (hcount : frames.length ≤ maxFramesPerPacket) (hvalid : ∀ frame ∈ frames, frame.valid = true)
    (hout : packetSize (payloadLenFor frames.length) ≤ out.length) :
    encodeInto out type frames =
      some (.ok (packetSize (payloadLenFor frames.length)),
        packetBytes type frames ++ out.drop (packetSize (payloadLenFor frames.length))) := by
  have hlen : ¬ payloadLenFor frames.length > 0xFFFF := by
    simp only [payloadLenFor, msgCntSz, canEntrySz, maxFramesPerPacket] at hcount ⊢
    omega
  have hall : frames.all CanFrame.valid = true := List.all_eq_true.mpr hvalid
  have htake : (out.take (packetSize (payloadLenFor frames.length))).length =
      packetSize (payloadLenFor frames.length) := by
    rw [List.length_take]
    omega
  simp only [encodeInto, if_neg (by omega : ¬ frames.length > maxFramesPerPacket), if_neg hlen,
    if_neg (by omega : ¬ out.length < packetSize (payloadLenFor frames.length)), hall,
    writePacket_eq _ type frames htake, Bool.not_true, Bool.false_eq_true, if_false,
    Option.bind_eq_bind, Option.bind_some, Option.pure_def]

theorem packetSize_payloadLenFor (count : Nat) :
    packetSize (payloadLenFor count) = 8 + 14 * count := by
  simp only [packetSize, payloadLenFor, headerSz, crcSz, trailerSz, msgCntSz, canEntrySz]
  omega

/-- What the checks of `encode_into` ask for. -/
structure Encodable (out : List Byte) (frames : List CanFrame) : Prop where
  count : frames.length ≤ maxFramesPerPacket
  valid : ∀ frame ∈ frames, frame.valid = true
  room : 8 + 14 * frames.length ≤ out.length

theorem Encodable.run {out : List Byte} {frames : List CanFrame}
    (h : Encodable out frames) (type : Byte) :
    encodeInto out type frames = some (.ok (8 + 14 * frames.length),
      packetBytes type frames ++ out.drop (8 + 14 * frames.length)) := by
  rw [← packetSize_payloadLenFor]
  exact encodeInto_ok out type frames h.count h.valid (by
    rw [packetSize_payloadLenFor]
    exact h.room)

/-- A check that fails leaves the buffer as it was. -/
theorem encodeInto_refuses (out : List Byte) (type : Byte) (frames : List CanFrame)
    (h : ¬ Encodable out frames) :
    ∃ err, encodeInto out type frames = some (.error err, out) := by
  simp only [encodeInto]
  split_ifs with hcount hlen hroom hvalid
  · exact ⟨_, rfl⟩
  · exact ⟨_, rfl⟩
  · exact ⟨_, rfl⟩
  · exact ⟨_, rfl⟩
  · refine absurd ⟨by omega, ?_, ?_⟩ h
    · intro frame member
      have hall : frames.all CanFrame.valid = true := by simpa using hvalid
      exact List.all_eq_true.mp hall frame member
    · rw [← packetSize_payloadLenFor]
      omega

/-- A result of `encode_into` means that every check passed. -/
theorem encodeInto_checks (out : List Byte) (type : Byte) (frames : List CanFrame)
    (size : Nat) (after : List Byte)
    (h : encodeInto out type frames = some (.ok size, after)) :
    frames.length ≤ maxFramesPerPacket ∧ (∀ frame ∈ frames, frame.valid = true) ∧
      packetSize (payloadLenFor frames.length) ≤ out.length := by
  by_cases hchecks : Encodable out frames
  · rw [packetSize_payloadLenFor]
    exact ⟨hchecks.count, hchecks.valid, hchecks.room⟩
  · obtain ⟨err, hrun⟩ := encodeInto_refuses out type frames hchecks
    rw [hrun] at h
    cases h

/-- The bytes `encode_into` writes for a type and a list of frames. -/
def Writes (type : Byte) (frames : List CanFrame) (bytes : List Byte) : Prop :=
  ∃ out size after, encodeInto out type frames = some (.ok size, after) ∧
    bytes = after.take size

theorem writes_iff (type : Byte) (frames : List CanFrame) (bytes : List Byte) :
    Writes type frames bytes ↔
      frames.length ≤ maxFramesPerPacket ∧ (∀ frame ∈ frames, frame.valid = true) ∧
        bytes = packetBytes type frames := by
  have htake : ∀ rest, (packetBytes type frames ++ rest).take
      (packetSize (payloadLenFor frames.length)) = packetBytes type frames := by
    intro rest
    rw [← packetBytes_length type frames, List.take_left]
  constructor
  · rintro ⟨out, size, after, hrun, rfl⟩
    obtain ⟨hcount, hvalid, hout⟩ := encodeInto_checks out type frames size after hrun
    rw [encodeInto_ok out type frames hcount hvalid hout] at hrun
    simp only [Option.some.injEq, Prod.mk.injEq, Except.ok.injEq] at hrun
    obtain ⟨rfl, rfl⟩ := hrun
    exact ⟨hcount, hvalid, htake _⟩
  · rintro ⟨hcount, hvalid, rfl⟩
    refine ⟨packetBytes type frames, packetSize (payloadLenFor frames.length), _,
      encodeInto_ok _ type frames hcount hvalid ?_, (htake _).symm⟩
    rw [packetBytes_length]

/-- `encode_into` is all or nothing. On success it has written every byte of the packet,
whatever the buffer held, and none behind it; on an error it has written nothing. The type
byte may be any. -/
theorem encodeInto_all_or_nothing (type : Byte) (frames : List CanFrame) :
    ∃ packet : List Byte, packet.length = 8 + 14 * frames.length ∧ ∀ out : List Byte,
      ∃ result after, encodeInto out type frames = some (result, after) ∧
        ((∃ size, result = .ok size) ↔ frames.length ≤ 32 ∧
          (∀ frame ∈ frames, frame.valid = true) ∧ 8 + 14 * frames.length ≤ out.length) ∧
        (∀ size, result = .ok size →
          size = 8 + 14 * frames.length ∧ after = packet ++ out.drop size) ∧
        (∀ err, result = .error err → after = out) := by
  refine ⟨packetBytes type frames, ?_, ?_⟩
  · rw [packetBytes_length, packetSize_payloadLenFor]
  intro out
  by_cases h : Encodable out frames
  · refine ⟨_, _, h.run type, ⟨fun _ => ⟨h.count, h.valid, h.room⟩, fun _ => ⟨_, rfl⟩⟩,
      ?_, ?_⟩
    · intro size hsize
      obtain rfl := Except.ok.inj hsize
      exact ⟨rfl, rfl⟩
    · intro err herr
      cases herr
  · obtain ⟨err, hrun⟩ := encodeInto_refuses out type frames h
    refine ⟨_, _, hrun, ⟨?_, ?_⟩, ?_, fun _ _ => rfl⟩
    · rintro ⟨size, hsize⟩
      cases hsize
    · rintro ⟨hcount, hvalid, hroom⟩
      exact absurd ⟨hcount, hvalid, hroom⟩ h
    · intro size hsize
      cases hsize

end ServoFleet.MotorCodec
