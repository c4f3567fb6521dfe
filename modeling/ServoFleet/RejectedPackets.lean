import ServoFleet.FeedbackIsolation

/-!
What a packet that is refused has done by then. Header, checksum and count are
judged before the handler runs, an entry only when its turn comes: a packet that
breaks off at an entry has brought the frames before it.

Packets of every length and content are meant. Which error is reported is not spoken
of here.
-/

namespace ServoFleet

namespace MotorCodec

/-- An entry that is not the one of any valid frame. -/
def BadEntry (entry : List Byte) : Prop :=
  entry.length = canEntrySz ∧ ∀ frame : CanFrame, frame.valid = true → entry ≠ entryBytes frame

/-- A packet in order but for its entries: some valid ones, then a bad one. -/
def BreaksOff (bytes : List Byte) (frames : List CanFrame) : Prop :=
  ∃ type len0 len1 count entry rest crc0 crc1,
    Framed type len0 len1 count (frames.flatMap entryBytes ++ entry ++ rest) crc0 crc1 ∧
      (∀ frame ∈ frames, frame.valid = true) ∧ BadEntry entry ∧
      bytes = layout stx type len0 len1 (count :: (frames.flatMap entryBytes ++ entry ++ rest))
        crc0 crc1 etx

theorem badEntry_iff (entry : List Byte) :
    BadEntry entry ↔ entry.length = canEntrySz ∧ ∃ err, readCanEntry entry = some (.error err) := by
  constructor
  · rintro ⟨hlength, hbad⟩
    obtain ⟨outcome, hread, hframe⟩ := readCanEntry_spec entry hlength
    cases outcome with
    | error err => exact ⟨hlength, err, hread⟩
    | ok frame =>
        obtain ⟨hvalid, hentry⟩ := hframe frame rfl
        exact absurd hentry (hbad frame hvalid)
  · rintro ⟨hlength, err, hread⟩
    refine ⟨hlength, ?_⟩
    rintro frame hvalid rfl
    rw [readCanEntry_entryBytes frame hvalid] at hread
    cases hread

/-- Entries are those of valid frames, all of them or up to a bad one. -/
theorem entries_cases (count : Nat) (entries : List Byte)
    (h : entries.length = count * canEntrySz) :
    ∃ frames : List CanFrame, (∀ frame ∈ frames, frame.valid = true) ∧
      ((frames.length = count ∧ entries = frames.flatMap entryBytes) ∨
        ∃ entry rest, BadEntry entry ∧ entries = frames.flatMap entryBytes ++ entry ++ rest) := by
  induction count generalizing entries with
  | zero =>
      rw [Nat.zero_mul] at h
      exact ⟨[], by simp, .inl ⟨rfl, List.eq_nil_of_length_eq_zero h⟩⟩
  | succ count ih =>
      have hcut : (entries.take canEntrySz).length = canEntrySz := by
        rw [List.length_take, h, Nat.succ_mul]
        omega
      by_cases hbad : BadEntry (entries.take canEntrySz)
      · refine ⟨[], by simp, .inr ⟨_, entries.drop canEntrySz, hbad, ?_⟩⟩
        exact (List.take_append_drop canEntrySz entries).symm
      · obtain ⟨frame, hvalid, hentry⟩ : ∃ frame : CanFrame, frame.valid = true ∧
            entries.take canEntrySz = entryBytes frame := by
          by_contra hnone
          exact hbad ⟨hcut, fun frame hvalid hentry => hnone ⟨frame, hvalid, hentry⟩⟩
        obtain ⟨frames, hframes, hrest⟩ := ih (entries.drop canEntrySz) (by
          rw [List.length_drop, h, Nat.succ_mul, Nat.add_sub_cancel])
        have hsplit : entries = entryBytes frame ++ entries.drop canEntrySz := by
          rw [← hentry, List.take_append_drop]
        refine ⟨frame :: frames, List.forall_mem_cons.mpr ⟨hvalid, hframes⟩, ?_⟩
        rcases hrest with ⟨hcount, hrest⟩ | ⟨entry, rest, hentry', hrest⟩
        · exact .inl ⟨by rw [List.length_cons, hcount], by
            rw [List.flatMap_cons, ← hrest, ← hsplit]⟩
        · exact .inr ⟨entry, rest, hentry', by
            rw [List.flatMap_cons, List.append_assoc, List.append_assoc,
              ← List.append_assoc _ entry, ← hrest, ← hsplit]⟩

/-- The loop over the entries stops at a bad one. -/
theorem decodeEntries_bad {σ : Type} (handler : σ → CanFrame → σ) (before after entry : List Byte)
    (count : Nat) (context : σ) (err : FleetErr) (hlength : entry.length = canEntrySz)
    (hread : readCanEntry entry = some (.error err)) :
    decodeEntries (before ++ entry ++ after) handler (count + 1) before.length context =
      some (.error err, context) := by
  have hspan : subspan (before ++ entry ++ after) before.length canEntrySz = some entry := by
    rw [← hlength, subspan_of_le (by simp), List.append_assoc, List.drop_left, List.take_left]
  rw [decodeEntries, hspan, Option.bind_eq_bind, Option.bind_some, hread]
  rfl

/-- A packet that breaks off is refused, after the frames before the bad entry. -/
theorem decodeEach_breaksOff {bytes : List Byte} {frames : List CanFrame}
    (h : BreaksOff bytes frames) :
    ∃ err, ∀ (σ : Type) (handler : σ → CanFrame → σ) (context : σ),
      decodeEach bytes context (some handler) =
        some (.error err, frames.foldl handler context) := by
  obtain ⟨type, len0, len1, count, entry, rest, crc0, crc1, hframed, hvalid, hbad, rfl⟩ := h
  have hlength := hframed.entriesLen
  obtain ⟨hentry, err, hread⟩ := (badEntry_iff entry).mp hbad
  rw [List.length_append, List.length_append, entries_length, hentry] at hlength
  obtain ⟨k, hk⟩ : ∃ k, count.toNat = frames.length + (k + 1) := by
    simp only [canEntrySz] at hlength
    exact ⟨count.toNat - frames.length - 1, by omega⟩
  refine ⟨err, fun σ handler context => ?_⟩
  have hscan := decodeEntries_append handler [stx, type, len0, len1, count]
    (entry ++ rest ++ [crc0, crc1, etx]) frames (k + 1) context hvalid
  have hstop := decodeEntries_bad handler
    ([stx, type, len0, len1, count] ++ frames.flatMap entryBytes)
    (rest ++ [crc0, crc1, etx]) entry k (frames.foldl handler context) err hentry hread
  have hbytes : layout stx type len0 len1 (count :: (frames.flatMap entryBytes ++ entry ++ rest))
      crc0 crc1 etx = [stx, type, len0, len1, count] ++ frames.flatMap entryBytes ++
        (entry ++ rest ++ [crc0, crc1, etx]) := by
    simp [layout]
  rw [decodeEach_framed handler context hframed, hk, hbytes]
  apply hscan.trans
  rw [← hstop]
  simp only [List.append_assoc]

/-- How `decode_each` ends: it refuses the bytes at once, it handles the frames of a
whole packet, or it breaks off after some. -/
theorem decodeEach_outcomes (bytes : List Byte) :
    (∃ err, ∀ (σ : Type) (handler : σ → CanFrame → σ) (context : σ),
        decodeEach bytes context (some handler) = some (.error err, context)) ∨
      (∃ frames, Carries bytes frames) ∨ ∃ frames, BreaksOff bytes frames := by
  rcases decodeEach_cases bytes with
    hrefused | ⟨type, len0, len1, count, entries, crc0, crc1, hframed, rfl⟩
  · exact .inl hrefused
  obtain ⟨frames, hvalid, ⟨hcount, rfl⟩ | ⟨entry, rest, hbad, rfl⟩⟩ :=
    entries_cases count.toNat entries hframed.entriesLen
  · refine .inr (.inl ⟨frames, (carries_iff _ _).mpr ⟨type, hframed.supported, ?_, hvalid, ?_⟩⟩)
    · rw [hcount]
      exact hframed.countLe
    · exact layout_packetBytes hcount (by rw [hcount]; exact hframed.payloadLen.symm) hframed.crc
  · exact .inr (.inr ⟨frames, type, len0, len1, count, entry, rest, crc0, crc1, hframed, hvalid,
      hbad, rfl⟩)

/-- `decode_each` reports an error after it has called the handler on `frames`. -/
def Refuses (bytes : List Byte) (err : FleetErr) (frames : List CanFrame) : Prop :=
  decodeEach bytes [] (some fun seen frame => seen ++ [frame]) = some (.error err, frames)

/-- The frames of a refused packet are those before the entry it breaks off at, and
otherwise there are none. -/
theorem refuses_frames {bytes : List Byte} {err : FleetErr} {frames : List CanFrame}
    (h : Refuses bytes err frames) :
    (∀ (σ : Type) (handler : σ → CanFrame → σ) (context : σ),
        decodeEach bytes context (some handler) =
          some (.error err, frames.foldl handler context)) ∧
      (frames = [] ∨ BreaksOff bytes frames) := by
  unfold Refuses at h
  rcases decodeEach_outcomes bytes with ⟨err', hrun⟩ | ⟨whole, hcarries⟩ | ⟨leading, hbreaks⟩
  · rw [hrun] at h
    obtain ⟨rfl, rfl⟩ : err' = err ∧ [] = frames := by simpa using h
    exact ⟨hrun, .inl rfl⟩
  · rw [Carries] at hcarries
    rw [hcarries] at h
    simp at h
  · obtain ⟨err', hrun⟩ := decodeEach_breaksOff hbreaks
    rw [hrun, foldl_record, List.nil_append] at h
    obtain ⟨rfl, rfl⟩ : err' = err ∧ leading = frames := by simpa using h
    exact ⟨hrun, .inr hbreaks⟩

end MotorCodec

namespace MotorDriver

open MotorCodec

/-- A refused packet calls no handler and changes no motor. -/
def RejectedWithoutEffect (bytes : List Byte) : Prop :=
  (∀ err frames, Refuses bytes err frames → frames = []) ∧
    ∀ (F : Type) [FloatArith F] (driver : MotorDriver) (now : TimePoint) (motors : Motors F)
      (context : DecodeContext F) (err : FleetErr) (frames : List CanFrame),
      Refuses bytes err frames → driver.handlePacket bytes now motors = some context →
        context.motors = motors

/-- Refusal is without effect, on the calls of a handler and on every motor of every
driver, except for packets that break off after a frame. The frames before the bad entry
have been handled by then. -/
theorem rejected_without_effect_iff (bytes : List Byte) :
    RejectedWithoutEffect bytes ↔ ∀ frames, BreaksOff bytes frames → frames = [] := by
  constructor
  · rintro ⟨hcalls, _⟩ frames hbreaks
    obtain ⟨err, hrun⟩ := decodeEach_breaksOff hbreaks
    apply hcalls err
    rw [Refuses, hrun, foldl_record, List.nil_append]
  · intro hwhole
    have hcalls : ∀ err frames, Refuses bytes err frames → frames = [] := by
      intro err frames hrefuses
      rcases (refuses_frames hrefuses).2 with hnone | hbreaks
      · exact hnone
      · exact hwhole frames hbreaks
    refine ⟨hcalls, ?_⟩
    intro F _ driver now motors context err frames hrefuses hpacket
    obtain rfl := hcalls err frames hrefuses
    rw [handlePacket, Option.bind_eq_bind, (refuses_frames hrefuses).1] at hpacket
    obtain rfl := Option.some.inj hpacket
    rfl

/-! ## A packet that breaks off -/

/-- A brake status response of the motor, then an entry with nine data bytes. -/
def brokenEntries : List Byte :=
  entryBytes { strayFrame with extended := false } ++ entryBytes { len := 9 }

def brokenCrc : BitVec 16 := bodyCrc (typeCan2udp :: 0 :: 29 :: 2 :: brokenEntries)

def brokenPacket : List Byte :=
  layout stx typeCan2udp 0 29 (2 :: brokenEntries) (brokenCrc.setWidth 8)
    ((brokenCrc >>> 8).setWidth 8) etx

theorem brokenPacket_breaksOff :
    BreaksOff brokenPacket [{ strayFrame with extended := false }] := by
  refine ⟨typeCan2udp, 0, 29, 2, entryBytes { len := 9 }, [], brokenCrc.setWidth 8,
    (brokenCrc >>> 8).setWidth 8, ⟨rfl, rfl, by decide, rfl, ?_⟩, by decide, ?_, rfl⟩
  · rw [BigEndian.join16_split]
    rfl
  · exact (badEntry_iff _).mpr ⟨rfl, .protocolError, rfl⟩

/-- The packet is refused, and the motor has the brake status of its first frame. -/
theorem broken_packet_reaches_motor :
    ¬ RejectedWithoutEffect brokenPacket ∧
      (∃ err frames, Refuses brokenPacket err frames) ∧
      ((bindAll { channelName := "can" } [(0, strayMotor)]).handlePacket brokenPacket 5
        [strayMotor]).map (fun context => context.motors.map (·.brake.status.value)) =
          some [true] := by
  obtain ⟨err, hrun⟩ := decodeEach_breaksOff brokenPacket_breaksOff
  have hrefuses : Refuses brokenPacket err [{ strayFrame with extended := false }] := hrun _ _ _
  refine ⟨?_, ⟨err, _, hrefuses⟩, ?_⟩
  · rintro ⟨hcalls, _⟩
    cases hcalls err _ hrefuses
  · have hparse : (CanCodec.parseFeedback { strayFrame with extended := false }
        (none : Option (Range (Option ℚ)))).run =
          some (.ok (.brakeStatus { error := .none, engaged := true })) := rfl
    have hdelivery := @delivery_of_route _ _ (bindAll { channelName := "can" }
      [(0, strayMotor)]) { strayFrame with extended := false } 0 none _ (by decide) rfl hparse
    have hreach := reaches_bindAll "can" [(0, strayMotor)] [strayMotor] (by decide)
      strayMotor_holds
    rw [handlePacket_frames _ _ _ 5 _ _ hrun hreach, List.map_singleton, hdelivery]
    rfl

end MotorDriver

end ServoFleet
