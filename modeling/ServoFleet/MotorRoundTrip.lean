import ServoFleet.MotorFraming

/-!
Reading packets back: `decode_each` accepts a byte string exactly when it is the
packet of some frames. Byte strings of every length and content are meant.
-/

namespace ServoFleet.MotorCodec

open Checksum

theorem packetBytes_layout (type : Byte) (frames : List CanFrame) :
    packetBytes type frames =
      layout stx type ((BitVec.ofNat 16 (payloadLenFor frames.length) >>> 8).setWidth 8)
        ((BitVec.ofNat 16 (payloadLenFor frames.length)).setWidth 8)
        (BitVec.ofNat 8 frames.length :: frames.flatMap entryBytes)
        ((bodyCrc (bodyBytes type frames)).setWidth 8)
        ((bodyCrc (bodyBytes type frames) >>> 8).setWidth 8) etx := by
  simp [packetBytes, layout, bodyBytes, BigEndian.split16]

theorem payloadLenFor_lt (count : Nat) (h : count ≤ maxFramesPerPacket) :
    payloadLenFor count < 2 ^ 16 := by
  simp only [payloadLenFor, msgCntSz, canEntrySz, maxFramesPerPacket] at h ⊢
  omega

section DecodeEach

variable {σ : Type} (handler : σ → CanFrame → σ)

theorem packetBytes_framed (type : Byte) (frames : List CanFrame)
    (htype : supportedType type = true) (hcount : frames.length ≤ maxFramesPerPacket) :
    Framed type ((BitVec.ofNat 16 (payloadLenFor frames.length) >>> 8).setWidth 8)
      ((BitVec.ofNat 16 (payloadLenFor frames.length)).setWidth 8)
      (BitVec.ofNat 8 frames.length) (frames.flatMap entryBytes)
      ((bodyCrc (bodyBytes type frames)).setWidth 8)
      ((bodyCrc (bodyBytes type frames) >>> 8).setWidth 8) := by
  have hnat : (BitVec.ofNat 8 frames.length).toNat = frames.length := by
    rw [BitVec.toNat_ofNat, Nat.mod_eq_of_lt]
    simp only [maxFramesPerPacket] at hcount
    omega
  constructor
  · exact htype
  · rw [BigEndian.join16_split, BitVec.toNat_ofNat, hnat,
      Nat.mod_eq_of_lt (payloadLenFor_lt frames.length hcount)]
  · rw [hnat]
    exact hcount
  · rw [hnat, entries_length]
  · rw [BigEndian.join16_split]
    rfl

theorem decodeEach_packetBytes (type : Byte) (frames : List CanFrame) (context : σ)
    (htype : supportedType type = true) (hcount : frames.length ≤ maxFramesPerPacket)
    (hvalid : ∀ frame ∈ frames, frame.valid = true) :
    decodeEach (packetBytes type frames) context (some handler) =
      some (.ok (), frames.foldl handler context) := by
  have hnat : (BitVec.ofNat 8 frames.length).toNat = frames.length := by
    rw [BitVec.toNat_ofNat, Nat.mod_eq_of_lt]
    simp only [maxFramesPerPacket] at hcount
    omega
  have hentries := decodeEntries_frames handler
    (stx :: type :: (BigEndian.split16 (BitVec.ofNat 16 (payloadLenFor frames.length)) ++
      [BitVec.ofNat 8 frames.length]))
    [(bodyCrc (bodyBytes type frames)).setWidth 8,
      (bodyCrc (bodyBytes type frames) >>> 8).setWidth 8, etx] frames context hvalid
  rw [packetBytes_layout, decodeEach_framed handler context
    (packetBytes_framed type frames htype hcount), ← packetBytes_layout, hnat]
  simpa [packetBytes, bodyBytes, headerSz, msgCntSz] using hentries

/-- A layout whose fields agree with its frames is the packet of the frames. -/
theorem layout_packetBytes {type len0 len1 count crc0 crc1 : Byte} {frames : List CanFrame}
    (hcount : frames.length = count.toNat)
    (hlen : payloadLenFor frames.length = (BigEndian.join16 len0 len1).toNat)
    (hcheck : bodyCrc (type :: len0 :: len1 :: count :: frames.flatMap entryBytes) =
      BigEndian.join16 crc1 crc0) :
    layout stx type len0 len1 (count :: frames.flatMap entryBytes) crc0 crc1 etx =
      packetBytes type frames := by
  have hwide : BitVec.ofNat 16 (payloadLenFor frames.length) = BigEndian.join16 len0 len1 := by
    rw [hlen, BitVec.ofNat_toNat, BitVec.setWidth_eq]
  have hcnt : BitVec.ofNat 8 frames.length = count := by
    rw [hcount, BitVec.ofNat_toNat, BitVec.setWidth_eq]
  have hbody : bodyBytes type frames =
      type :: len0 :: len1 :: count :: frames.flatMap entryBytes := by
    rw [bodyBytes, hwide, BigEndian.split16_join, hcnt]
    rfl
  have htrailer := BigEndian.split16_join crc1 crc0
  simp only [BigEndian.split16, List.cons.injEq, and_true] at htrailer
  rw [packetBytes, hbody, hcheck, htrailer.1, htrailer.2]
  rfl

/-- Whatever the bytes, no access leaves them, and what is accepted is the
packet of some valid frames. -/
theorem decodeEach_spec (bytes : List Byte) (context : σ) :
    ∃ outcome final, decodeEach bytes context (some handler) = some (outcome, final) ∧
      (outcome = .ok () → ∃ type frames, supportedType type = true ∧
        frames.length ≤ maxFramesPerPacket ∧ (∀ frame ∈ frames, frame.valid = true) ∧
        bytes = packetBytes type frames) := by
  rcases decodeEach_cases bytes with
    ⟨err, hrun⟩ | ⟨type, len0, len1, count, entries, crc0, crc1, hframed, rfl⟩
  · exact ⟨.error err, context, hrun σ handler context, by simp⟩
  have hfit : headerSz + msgCntSz + count.toNat * canEntrySz ≤
      (layout stx type len0 len1 (count :: entries) crc0 crc1 etx).length := by
    rw [layout_length, List.length_cons, hframed.entriesLen]
    simp only [packetSize, headerSz, msgCntSz, crcSz, trailerSz]
    omega
  obtain ⟨outcome, final, hrun, hdone⟩ := decodeEntries_spec handler _ _ _ context hfit
  refine ⟨outcome, final, (decodeEach_framed handler context hframed).trans hrun, ?_⟩
  intro hok
  obtain ⟨frames, hcount, hvalid, hentries⟩ := hdone hok
  have hwindow : ((layout stx type len0 len1 (count :: entries) crc0 crc1 etx).drop
      (headerSz + msgCntSz)).take (count.toNat * canEntrySz) = entries := by
    rw [← hframed.entriesLen]
    simp [layout, headerSz, msgCntSz]
  obtain rfl := hwindow.symm.trans hentries
  exact ⟨type, frames, hframed.supported, by rw [hcount]; exact hframed.countLe, hvalid,
    layout_packetBytes hcount (by rw [hcount]; exact hframed.payloadLen.symm) hframed.crc⟩

theorem supportedType_iff (type : Byte) :
    supportedType type = true ↔ type = typeCan2udp ∨ type = typeUdp2can := by
  simp [supportedType]

/-- The frames of an accepted packet, as a handler that records them sees them. -/
def Carries (bytes : List Byte) (frames : List CanFrame) : Prop :=
  decodeEach bytes [] (some fun seen frame => seen ++ [frame]) = some (.ok (), frames)

theorem foldl_record (seen frames : List CanFrame) :
    frames.foldl (fun seen frame => seen ++ [frame]) seen = seen ++ frames := by
  induction frames generalizing seen with
  | nil => exact (List.append_nil seen).symm
  | cons frame rest ih => rw [List.foldl_cons, ih, List.append_assoc, List.singleton_append]

theorem carries_iff (bytes : List Byte) (frames : List CanFrame) :
    Carries bytes frames ↔ ∃ type, supportedType type = true ∧
      frames.length ≤ maxFramesPerPacket ∧ (∀ frame ∈ frames, frame.valid = true) ∧
      bytes = packetBytes type frames := by
  constructor
  · intro h
    obtain ⟨outcome, final, hrun, hdone⟩ :=
      decodeEach_spec (fun seen frame => seen ++ [frame]) bytes ([] : List CanFrame)
    rw [Carries, hrun] at h
    obtain ⟨rfl, rfl⟩ := Prod.mk.inj (Option.some.inj h)
    obtain ⟨type, frames, htype, hcount, hvalid, rfl⟩ := hdone rfl
    rw [decodeEach_packetBytes _ type frames [] htype hcount hvalid, foldl_record] at hrun
    obtain rfl := (Prod.mk.inj (Option.some.inj hrun)).2
    exact ⟨type, htype, hcount, hvalid, rfl⟩
  · rintro ⟨type, htype, hcount, hvalid, rfl⟩
    rw [Carries, decodeEach_packetBytes _ type frames [] htype hcount hvalid, foldl_record,
      List.nil_append]

/-- Every handler sees the frames the packet carries, in their order. -/
theorem decodeEach_carries {bytes : List Byte} {frames : List CanFrame} (h : Carries bytes frames)
    (context : σ) :
    decodeEach bytes context (some handler) = some (.ok (), frames.foldl handler context) := by
  obtain ⟨type, htype, hcount, hvalid, rfl⟩ := (carries_iff bytes frames).mp h
  exact decodeEach_packetBytes handler type frames context htype hcount hvalid

/-- The packets of the protocol are exactly what `decode_each` accepts: an accepted byte
string is the encoding of one type and one list of frames, and the handler has seen that
list in order. No byte string is read outside. What the handler has seen of a string that
is refused is left open. -/
theorem decodeEach_accepts_encodings (bytes : List Byte) (context : σ) :
    (∀ callback : Option (σ → CanFrame → σ), ∃ result,
      decodeEach bytes context callback = some result) ∧
    ((∃ final, decodeEach bytes context (some handler) = some (.ok (), final)) ↔
      ∃ type frames, (type = typeCan2udp ∨ type = typeUdp2can) ∧
        frames.length ≤ maxFramesPerPacket ∧ (∀ frame ∈ frames, frame.valid = true) ∧
        Writes type frames bytes) ∧
    (∀ type frames, (type = typeCan2udp ∨ type = typeUdp2can) → Writes type frames bytes →
      decodeEach bytes context (some handler) = some (.ok (), frames.foldl handler context) ∧
      ∀ type' frames', (type' = typeCan2udp ∨ type' = typeUdp2can) →
        Writes type' frames' bytes → type' = type ∧ frames' = frames) := by
  refine ⟨?_, ?_, ?_⟩
  · intro callback
    cases callback with
    | none => exact ⟨_, rfl⟩
    | some callback =>
        obtain ⟨outcome, final, hrun, _⟩ := decodeEach_spec callback bytes context
        exact ⟨_, hrun⟩
  · constructor
    · rintro ⟨final, hrun⟩
      obtain ⟨outcome, final', hrun', hdone⟩ := decodeEach_spec handler bytes context
      rw [hrun] at hrun'
      obtain ⟨rfl, rfl⟩ := Prod.mk.inj (Option.some.inj hrun')
      obtain ⟨type, frames, htype, hcount, hvalid, hbytes⟩ := hdone rfl
      exact ⟨type, frames, (supportedType_iff type).mp htype, hcount, hvalid,
        (writes_iff type frames bytes).mpr ⟨hcount, hvalid, hbytes⟩⟩
    · rintro ⟨type, frames, htype, hcount, hvalid, hwrites⟩
      obtain ⟨_, _, rfl⟩ := (writes_iff type frames bytes).mp hwrites
      exact ⟨_, decodeEach_packetBytes handler type frames context
        ((supportedType_iff type).mpr htype) hcount hvalid⟩
  · intro type frames htype hwrites
    obtain ⟨hcount, hvalid, hbytes⟩ := (writes_iff type frames bytes).mp hwrites
    have hrun := fun {τ : Type} (record : τ → CanFrame → τ) (start : τ) =>
      decodeEach_packetBytes record type frames start ((supportedType_iff type).mpr htype)
        hcount hvalid
    refine ⟨by rw [hbytes]; exact hrun handler context, ?_⟩
    intro type' frames' htype' hwrites'
    obtain ⟨hcount', hvalid', hbytes'⟩ := (writes_iff type' frames' bytes).mp hwrites'
    have hsame : packetBytes type' frames' = packetBytes type frames := hbytes'.symm.trans hbytes
    have hframes := decodeEach_packetBytes (fun seen frame => seen ++ [frame]) type' frames' []
      ((supportedType_iff type').mpr htype') hcount' hvalid'
    rw [hsame, hrun (fun seen frame => seen ++ [frame]) []] at hframes
    simp only [foldl_record, List.nil_append, Option.some.injEq, Prod.mk.injEq, true_and]
      at hframes
    refine ⟨?_, hframes.symm⟩
    have hhead := congrArg (fun packet => packet[1]?) hsame
    simpa [packetBytes, bodyBytes] using hhead

end DecodeEach

end ServoFleet.MotorCodec
