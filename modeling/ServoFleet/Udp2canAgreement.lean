import ServoFleet.Udp2canBuild

/-!
What `parse_frame` of the tool makes of a packet, and that the tool and the C++
codec speak one protocol: the tool builds the codec's packets and reads every byte
string that `decode_each` accepts.

The tool is the laxer of the two, as it takes packets of any type. What its command
line does with the packets is left out.
-/

namespace ServoFleet.Udp2canTool

/-! ## Windows -/

theorem index_window (before window after : List Byte) (i : Nat) (h : i < window.length) :
    index (before ++ window ++ after) (before.length + i) = .ok window[i].toNat := by
  have hget : (before ++ window ++ after)[before.length + i]? = some window[i] := by
    rw [List.append_assoc, List.getElem?_append_right (Nat.le_add_right _ _),
      Nat.add_sub_cancel_left, List.getElem?_append_left h, List.getElem?_eq_getElem h]
  rw [index, hget]

theorem slice_window (before window after : List Byte) (start stop : Nat)
    (h : stop ≤ window.length) :
    slice (before ++ window ++ after) (before.length + start) (before.length + stop) =
      slice window start stop := by
  rw [slice, slice, List.append_assoc, List.take_length_add_append, List.drop_length_add_append,
    List.take_append_of_le_length h]

/-! ## Entries -/

/-- What `parse_frame` returns for a frame of the packet. -/
def messageOf (frame : CanFrame) : ParsedMessage where
  port := frame.port.toNat
  id := frame.id.toNat
  ext := frame.extended
  len := frame.len.toNat
  data := frame.asBytesView

theorem canIdExtdFlag_eq : canIdExtdFlag = extendedIdFlag.toNat := rfl

theorem ldiff_flag (wireId : BitVec 32) :
    wireId.toNat.ldiff canIdExtdFlag = (wireId &&& ~~~extendedIdFlag).toNat := by
  apply Nat.eq_of_testBit_eq
  intro i
  rw [canIdExtdFlag_eq, Nat.testBit_ldiff, BitVec.testBit_toNat, BitVec.testBit_toNat,
    BitVec.testBit_toNat, BitVec.getLsbD_and, BitVec.getLsbD_not]
  by_cases hi : i < 32
  · rw [decide_eq_true hi, Bool.true_and]
  · rw [BitVec.getLsbD_of_ge wireId i (by omega), Bool.false_and, Bool.false_and]

/-- The wire identifier of a valid frame, read back. -/
theorem parse_wireId {frame : CanFrame} (h : frame.valid = true) :
    decide ((MotorCodec.wireIdFrom frame).toNat &&& canIdExtdFlag ≠ 0) = frame.extended ∧
      (if frame.extended then (MotorCodec.wireIdFrom frame).toNat.ldiff canIdExtdFlag
        else (MotorCodec.wireIdFrom frame).toNat) = frame.id.toNat := by
  have happly := MotorCodec.applyWireId_wireIdFrom frame frame h
  simp only [MotorCodec.applyWireId, CanFrame.mk.injEq, true_and, and_true] at happly
  obtain ⟨hid, hext⟩ := happly
  constructor
  · have hnat : (MotorCodec.wireIdFrom frame).toNat &&& canIdExtdFlag =
        (MotorCodec.wireIdFrom frame &&& extendedIdFlag).toNat := by
      rw [canIdExtdFlag_eq, BitVec.toNat_and]
    rw [hnat, ← hext]
    congr 1
    rw [ne_eq, ne_eq, BitVec.toNat_eq]
    rfl
  · cases hcase : frame.extended
    · rw [MotorCodec.wireIdFrom, hcase]
      rfl
    · rw [if_pos rfl, ldiff_flag, hid]

theorem fromBytes_split32 (value : BitVec 32) :
    fromBytes (BigEndian.split32 value) = value.toNat := by
  rw [BigEndian.split32, fromBytes_four, BigEndian.join32_split]

theorem parseEntry_eq (before after : List Byte) {frame : CanFrame} (h : frame.valid = true) :
    parseEntry (before ++ MotorCodec.entryBytes frame ++ after) before.length =
      .ok (messageOf frame) := by
  have hlen : frame.len.toNat ≤ 8 := by
    simp only [CanFrame.valid, Bool.and_eq_true] at h
    exact of_decide_eq_true h.2
  obtain ⟨hext, hid⟩ := parse_wireId h
  have hsize : (MotorCodec.entryBytes frame).length = 14 := MotorCodec.entryBytes_length frame
  have hport : index (before ++ MotorCodec.entryBytes frame ++ after) before.length =
      .ok frame.port.toNat :=
    index_window before (MotorCodec.entryBytes frame) after 0 (by omega)
  have hwire : slice (before ++ MotorCodec.entryBytes frame ++ after) (before.length + 1)
      (before.length + 5) = BigEndian.split32 (MotorCodec.wireIdFrom frame) :=
    slice_window before (MotorCodec.entryBytes frame) after 1 5 (by omega)
  have hdlc : index (before ++ MotorCodec.entryBytes frame ++ after) (before.length + 5) =
      .ok frame.len.toNat :=
    index_window before (MotorCodec.entryBytes frame) after 5 (by omega)
  have hdata : slice (before ++ MotorCodec.entryBytes frame ++ after) (before.length + 6)
      (before.length + 6 + frame.len.toNat) = frame.asBytesView := by
    rw [Nat.add_assoc, slice_window before (MotorCodec.entryBytes frame) after 6 _ (by omega),
      slice, List.drop_take, Nat.add_sub_cancel_left]
    rfl
  unfold parseEntry
  rw [hport, hdlc]
  simp only [hwire, fromBytes_split32, hext, hid, ok_bind]
  rw [raiseIf_of_not (by omega), hdata]
  rfl

theorem parseMessages_eq (before after : List Byte) (frames : List CanFrame)
    (msgs : List ParsedMessage) (h : ∀ frame ∈ frames, frame.valid = true) :
    parseMessages (before ++ frames.flatMap MotorCodec.entryBytes ++ after) frames.length
      before.length msgs = .ok (msgs ++ frames.map messageOf) := by
  induction frames generalizing before msgs with
  | nil => simp [parseMessages]
  | cons frame rest ih =>
      have hrest : ∀ next ∈ rest, next.valid = true := fun next member =>
        h next (List.mem_cons_of_mem _ member)
      have hentry := parseEntry_eq before (rest.flatMap MotorCodec.entryBytes ++ after)
        (h frame List.mem_cons_self)
      have hnext := ih (before ++ MotorCodec.entryBytes frame) (msgs ++ [messageOf frame]) hrest
      rw [List.length_append, MotorCodec.entryBytes_length] at hnext
      simp only [List.flatMap_cons, List.append_assoc, List.length_cons, List.map_cons,
        parseMessages] at hentry hnext ⊢
      rw [hentry]
      exact hnext

/-! ## Packets -/

section Layout

variable (first type len0 len1 : Byte) (payload : List Byte) (crc0 crc1 last : Byte)

theorem slice_layout_body :
    slice (MotorCodec.layout first type len0 len1 payload crc0 crc1 last) 1 (4 + payload.length) =
      type :: len0 :: len1 :: payload := by
  have h := slice_window [first] (type :: len0 :: len1 :: payload) [crc0, crc1, last] 0
    (3 + payload.length) (by simp only [List.length_cons]; omega)
  have hwhole : slice (type :: len0 :: len1 :: payload) 0 (3 + payload.length) =
      type :: len0 :: len1 :: payload := by
    rw [slice, List.drop_zero, List.take_of_length_le]
    simp only [List.length_cons]
    omega
  rw [hwhole, List.length_singleton, Nat.add_zero, ← Nat.add_assoc] at h
  exact h

theorem slice_layout_payload :
    slice (MotorCodec.layout first type len0 len1 payload crc0 crc1 last) 4 (4 + payload.length) =
      payload := by
  have h := slice_window [first, type, len0, len1] payload [crc0, crc1, last] 0 payload.length
    (Nat.le_refl _)
  have hwhole : slice payload 0 payload.length = payload := List.take_length
  rw [hwhole] at h
  exact h

theorem index_layout_trailer :
    let raw := MotorCodec.layout first type len0 len1 payload crc0 crc1 last
    index raw (4 + payload.length) = .ok crc0.toNat ∧
      index raw (5 + payload.length) = .ok crc1.toNat ∧
        index raw (6 + payload.length) = .ok last.toNat := by
  intro raw
  have hraw : raw = (first :: type :: len0 :: len1 :: payload) ++ [crc0, crc1, last] ++ [] := by
    simp [raw, MotorCodec.layout]
  have hbefore : (first :: type :: len0 :: len1 :: payload).length = 4 + payload.length := by
    simp only [List.length_cons]
    omega
  have hat : ∀ (i : Nat) (value : Byte), [crc0, crc1, last][i]? = some value →
      index raw (4 + payload.length + i) = .ok value.toNat := by
    intro i value hvalue
    obtain ⟨hi, rfl⟩ := List.getElem?_eq_some_iff.mp hvalue
    rw [hraw, ← hbefore]
    exact index_window _ [crc0, crc1, last] [] i hi
  have hfive : 5 + payload.length = 4 + payload.length + 1 := by omega
  have hsix : 6 + payload.length = 4 + payload.length + 2 := by omega
  rw [hfive, hsix]
  exact ⟨hat 0 crc0 rfl, hat 1 crc1 rfl, hat 2 last rfl⟩

/-- `parse_frame` on a byte string whose every field is as it should be. -/
theorem parseFrame_layout (count : Byte) (entries : List Byte) (msgs : List ParsedMessage)
    (hlen : fromBytes [len0, len1] = (count :: entries).length)
    (hcrc : crc16Ccitt (type :: len0 :: len1 :: count :: entries) =
      crc0.toNat ||| crc1.toNat <<< 8)
    (hsize : (count :: entries).length = 1 + count.toNat * canMsgEntrySize)
    (hentries : parseMessages (count :: entries) count.toNat 1 [] = .ok msgs) :
    parseFrame (MotorCodec.layout forwardProtoFrameStx type len0 len1 (count :: entries) crc0 crc1
      forwardProtoFrameEtx) =
        .ok { type := type.toNat, msgCount := count.toNat, messages := msgs } := by
  generalize hpayload : count :: entries = payload at *
  let raw := MotorCodec.layout forwardProtoFrameStx type len0 len1 payload crc0 crc1
    forwardProtoFrameEtx
  have htotal : raw.length = 4 + payload.length + 2 + 1 := by
    rw [MotorCodec.layout_length, MotorCodec.packetSize, MotorCodec.headerSz, MotorCodec.crcSz,
      MotorCodec.trailerSz]
  have hfirst : index raw 0 = .ok forwardProtoFrameStx.toNat := rfl
  have htype : index raw 1 = .ok type.toNat := rfl
  have hcount : index payload 0 = .ok count.toNat := hpayload ▸ rfl
  have hpayloadLen : fromBytes (slice raw 2 4) = payload.length := hlen
  have hbody : slice raw 1 (4 + payload.length) = type :: len0 :: len1 :: payload :=
    slice_layout_body ..
  have hwindow : slice raw 4 (4 + payload.length) = payload := slice_layout_payload ..
  obtain ⟨hlow, hhigh, hlast⟩ : index raw (4 + payload.length) = .ok crc0.toNat ∧
      index raw (5 + payload.length) = .ok crc1.toNat ∧
        index raw (6 + payload.length) = .ok forwardProtoFrameEtx.toNat :=
    index_layout_trailer ..
  change parseFrame raw = _
  clear_value raw
  unfold parseFrame
  rw [raiseIf_of_not (by omega), hfirst, htype]
  simp only [hpayloadLen, hbody, hwindow, hlow, hhigh, hlast, hcount, hentries, ok_bind]
  rw [raiseIf_of_not (not_not.mpr rfl), raiseIf_of_not (not_not.mpr htotal),
    raiseIf_of_not (not_not.mpr hcrc), raiseIf_of_not (not_not.mpr rfl),
    raiseIf_of_not (by omega), raiseIf_of_not (not_not.mpr hsize)]
  rfl

end Layout

/-- The tool's reading of a packet: every check passes. -/
theorem parseFrame_packetBytes (type : Byte) (frames : List CanFrame)
    (hcount : frames.length ≤ maxFramesPerPacket)
    (hvalid : ∀ frame ∈ frames, frame.valid = true) :
    parseFrame (MotorCodec.packetBytes type frames) =
      .ok { type := type.toNat, msgCount := frames.length,
            messages := frames.map messageOf } := by
  let len := BitVec.ofNat 16 (MotorCodec.payloadLenFor frames.length)
  let crc := MotorCodec.bodyCrc (MotorCodec.bodyBytes type frames)
  have hlen : fromBytes [(len >>> 8).setWidth 8, len.setWidth 8] =
      (BitVec.ofNat 8 frames.length :: frames.flatMap MotorCodec.entryBytes).length := by
    rw [fromBytes_two, BigEndian.join16_split, BitVec.toNat_ofNat,
      Nat.mod_eq_of_lt (MotorCodec.payloadLenFor_lt frames.length hcount), List.length_cons,
      MotorCodec.entries_length, MotorCodec.payloadLenFor_eq]
  have hmsgs : (BitVec.ofNat 8 frames.length).toNat = frames.length := by
    rw [BitVec.toNat_ofNat, Nat.mod_eq_of_lt]
    simp only [maxFramesPerPacket] at hcount
    omega
  have hcrc : crc16Ccitt (MotorCodec.bodyBytes type frames) =
      (crc.setWidth 8).toNat ||| ((crc >>> 8).setWidth 8).toNat <<< 8 := by
    have hjoin := congrArg BitVec.toNat (BigEndian.join16_split crc)
    rw [← fromBytes_two] at hjoin
    rw [crc16Ccitt_bodyCrc, Nat.or_comm]
    simpa [fromBytes] using hjoin.symm
  have hsize : (BitVec.ofNat 8 frames.length :: frames.flatMap MotorCodec.entryBytes).length =
      1 + (BitVec.ofNat 8 frames.length).toNat * canMsgEntrySize := by
    rw [hmsgs, List.length_cons, MotorCodec.entries_length, Nat.add_comm]
    rfl
  have hentries : parseMessages (BitVec.ofNat 8 frames.length ::
      frames.flatMap MotorCodec.entryBytes) (BitVec.ofNat 8 frames.length).toNat 1 [] =
        .ok (frames.map messageOf) := by
    have h := parseMessages_eq [BitVec.ofNat 8 frames.length] [] frames [] hvalid
    rw [hmsgs]
    simpa using h
  have hparse := parseFrame_layout type _ _ _ _ (BitVec.ofNat 8 frames.length)
    (frames.flatMap MotorCodec.entryBytes) (frames.map messageOf) hlen hcrc hsize hentries
  rw [hmsgs] at hparse
  rw [MotorCodec.packetBytes_layout]
  exact hparse

/-- The tool and the codec agree on whole packets. What `build_frame` returns is what
`encode_into` writes for the zero-padded frames, and `parse_frame` returns the frames that
the handler of `decode_each` has seen. Byte strings that the codec refuses are left out.
-/
theorem tool_agrees_with_codec :
    (∀ (frameType : Int) (items : List Message), items.length ≤ maxFramesPerPacket →
      (∀ item ∈ items, item.Sendable) →
      ∃ packet, buildFrame frameType items = .ok packet ∧
        ∀ out : List Byte, packet.length ≤ out.length →
          MotorCodec.encodeInto out (BitVec.ofInt 8 frameType) (items.map frameOf) =
            some (.ok packet.length, packet ++ out.drop packet.length)) ∧
    (∀ (σ : Type) (handler : σ → CanFrame → σ) (bytes : List Byte) (context final : σ),
      MotorCodec.decodeEach bytes context (some handler) = some (.ok (), final) →
      ∃ frames parsed, MotorCodec.Carries bytes frames ∧
        final = frames.foldl handler context ∧ parseFrame bytes = .ok parsed ∧
        parsed.msgCount = frames.length ∧ parsed.messages = frames.map messageOf) := by
  constructor
  · intro frameType items hcount hitems
    refine ⟨_, buildFrame_eq frameType items hcount hitems, ?_⟩
    intro out hout
    have hvalid : ∀ frame ∈ items.map frameOf, frame.valid = true := by
      intro frame member
      obtain ⟨item, hitem, rfl⟩ := List.mem_map.mp member
      exact frameOf_valid (hitems item hitem)
    rw [MotorCodec.packetBytes_length] at hout ⊢
    exact MotorCodec.encodeInto_ok out _ _ (by rw [List.length_map]; exact hcount) hvalid hout
  · intro σ handler bytes context final hrun
    obtain ⟨outcome, seen, hspec, hdone⟩ := MotorCodec.decodeEach_spec handler bytes context
    rw [hrun] at hspec
    obtain ⟨rfl, rfl⟩ := Prod.mk.inj (Option.some.inj hspec)
    obtain ⟨type, frames, htype, hcount, hvalid, rfl⟩ := hdone rfl
    rw [MotorCodec.decodeEach_packetBytes handler type frames context htype hcount hvalid] at hrun
    exact ⟨frames, _, (MotorCodec.carries_iff _ frames).mpr ⟨type, htype, hcount, hvalid, rfl⟩,
      (Prod.mk.inj (Option.some.inj hrun)).2.symm,
      parseFrame_packetBytes type frames hcount hvalid, rfl, rfl⟩

/-- A standard and an extended message. -/
def twoMessages : List Message :=
  [{ port := 3, id := 0x7FF, data := [1, 2, 3] },
    { id := 0x1FFFFFFF, ext := true, data := [9, 8, 7, 6, 5, 4, 3, 2] }]

def twoFrames : List CanFrame :=
  [{ port := 3, id := 0x7FF, data := #v[1, 2, 3, 0, 0, 0, 0, 0], len := 3 },
    { id := 0x1FFFFFFF, extended := true, data := #v[9, 8, 7, 6, 5, 4, 3, 2], len := 8 }]

/-- The packet of the two messages is the one of the two frames, in both directions. -/
theorem tool_agrees_on_two_messages :
    ∃ packet parsed, buildFrame 1 twoMessages = .ok packet ∧
      (∀ out : List Byte, packet.length ≤ out.length →
        MotorCodec.encodeInto out 1 twoFrames =
          some (.ok packet.length, packet ++ out.drop packet.length)) ∧
      MotorCodec.decodeEach packet [] (some fun seen frame => seen ++ [frame]) =
        some (.ok (), twoFrames) ∧
      parseFrame packet = .ok parsed ∧ parsed.messages = twoFrames.map messageOf := by
  have hsendable : ∀ item ∈ twoMessages, item.Sendable := by
    intro item member
    rcases List.mem_pair.mp member with rfl | rfl <;> exact ⟨by decide, by decide, by decide⟩
  have hvalid : ∀ frame ∈ twoFrames, frame.valid = true := by decide
  obtain ⟨packet, hbuild, hencode⟩ := tool_agrees_with_codec.1 1 twoMessages (by decide) hsendable
  have hbytes : packet = MotorCodec.packetBytes 1 twoFrames :=
    Except.ok.inj (hbuild.symm.trans (buildFrame_eq 1 twoMessages (by decide) hsendable))
  have hdecode := MotorCodec.decodeEach_packetBytes (fun seen frame => seen ++ [frame]) 1 twoFrames
    [] (by decide) (by decide) hvalid
  rw [← hbytes] at hdecode
  obtain ⟨frames, parsed, _, hseen, hparse, _, hmessages⟩ := tool_agrees_with_codec.2
    (List CanFrame) (fun seen frame => seen ++ [frame]) packet [] twoFrames hdecode
  have hframes : frames = twoFrames := by
    have hfold : ∀ (rest seen : List CanFrame),
        rest.foldl (fun seen frame => seen ++ [frame]) seen = seen ++ rest := by
      intro rest
      induction rest with
      | nil => exact fun seen => (List.append_nil seen).symm
      | cons frame rest ih => exact fun seen => (ih _).trans (List.append_cons seen frame rest).symm
    rw [hseen, hfold, List.nil_append]
  exact ⟨packet, parsed, hbuild, hencode, hdecode, hparse, hframes ▸ hmessages⟩

end ServoFleet.Udp2canTool
