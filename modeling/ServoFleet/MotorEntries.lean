import Mathlib.Tactic.IntervalCases
import ServoFleet.MotorPacket

/-!
Reading the entries of a packet back: an entry is that of one valid frame or of
none, and the loop over the entries is the fold of the handler over their frames.
-/

namespace ServoFleet.MotorCodec

private theorem flag_bit (id : CanId) : id &&& extendedIdFlag ≠ 0 ↔ id.getLsbD 31 = true := by
  have hflag : extendedIdFlag = BitVec.twoPow 32 31 := by decide
  rw [hflag, BitVec.and_twoPow]
  cases id.getLsbD 31
  · simp
  · decide

private theorem small_id_bit (id bound : CanId) (hbound : bound.toNat < 2 ^ 31)
    (h : id ≤ bound) : id.getLsbD 31 = false := by
  have hlt : id.toNat < 2 ^ 31 := Nat.lt_of_le_of_lt h hbound
  exact Nat.testBit_lt_two_pow hlt

private theorem clear_flag (id : CanId) (h : id.getLsbD 31 = false) :
    id &&& ~~~extendedIdFlag = id := by
  have hflag : extendedIdFlag = BitVec.twoPow 32 31 := by decide
  apply BitVec.eq_of_getLsbD_eq
  intro i hi
  rw [hflag, BitVec.getLsbD_and, BitVec.getLsbD_not, BitVec.getLsbD_twoPow]
  by_cases hlast : i = 31
  · rw [hlast, h, Bool.false_and]
  · simp [Ne.symm hlast, hi]

private theorem set_flag (wireId : BitVec 32) (h : wireId.getLsbD 31 = true) :
    wireId &&& ~~~extendedIdFlag ||| extendedIdFlag = wireId := by
  have hflag : extendedIdFlag = BitVec.twoPow 32 31 := by decide
  apply BitVec.eq_of_getLsbD_eq
  intro i hi
  rw [hflag, BitVec.getLsbD_or, BitVec.getLsbD_and, BitVec.getLsbD_not, BitVec.getLsbD_twoPow]
  by_cases hlast : i = 31
  · simp [hlast, h]
  · simp [Ne.symm hlast, hi]

/-- Both identifier ranges leave the flag bit free. -/
theorem valid_id_bit (frame : CanFrame) (h : frame.valid = true) :
    frame.id.getLsbD 31 = false := by
  simp only [CanFrame.valid, Bool.and_eq_true, decide_eq_true_eq] at h
  cases hext : frame.extended
  · rw [hext] at h
    exact small_id_bit frame.id 0x7FF (by decide) h.1
  · rw [hext] at h
    exact small_id_bit frame.id 0x1FFFFFFF (by decide) h.1

theorem applyWireId_wireIdFrom (frame base : CanFrame) (h : frame.valid = true) :
    applyWireId base (wireIdFrom frame) =
      { base with extended := frame.extended, id := frame.id } := by
  have hbit := valid_id_bit frame h
  have hclear := clear_flag frame.id hbit
  cases hext : frame.extended
  · have hflag : ¬ frame.id &&& extendedIdFlag ≠ 0 := by
      rw [flag_bit, hbit]
      simp
    simp only [applyWireId, wireIdFrom, hext, Bool.false_eq_true, if_false, hclear, hflag,
      decide_false]
  · have hor : (frame.id ||| extendedIdFlag).getLsbD 31 = true := by
      rw [BitVec.getLsbD_or, hbit]
      decide
    have hflag : (frame.id ||| extendedIdFlag) &&& extendedIdFlag ≠ 0 := (flag_bit _).mpr hor
    have hid : (frame.id ||| extendedIdFlag) &&& ~~~extendedIdFlag = frame.id := by
      rw [BitVec.and_comm, BitVec.and_or_distrib_left, BitVec.and_comm _ frame.id, hclear]
      simp [extendedIdFlag]
    simp only [applyWireId, wireIdFrom, hext, if_true, hid, hflag, ne_eq, not_false_eq_true,
      decide_true]

theorem wireIdFrom_applyWireId (base : CanFrame) (wireId : BitVec 32) :
    wireIdFrom (applyWireId base wireId) = wireId := by
  cases hbit : wireId.getLsbD 31
  · have hflag : ¬ wireId &&& extendedIdFlag ≠ 0 := by
      rw [flag_bit, hbit]
      simp
    simp only [wireIdFrom, applyWireId, hflag, decide_false, Bool.false_eq_true, if_false]
    exact clear_flag wireId hbit
  · have hflag : wireId &&& extendedIdFlag ≠ 0 := (flag_bit wireId).mpr hbit
    simp only [wireIdFrom, applyWireId, hflag, ne_eq, not_false_eq_true, decide_true, if_true]
    exact set_flag wireId hbit

private theorem vector8_eq (data : Vector Byte 8) :
    data = #v[data[0], data[1], data[2], data[3], data[4], data[5], data[6], data[7]] := by
  apply Vector.ext
  intro i hi
  interval_cases i <;> rfl

theorem readCanEntry_entryBytes (frame : CanFrame) (h : frame.valid = true) :
    readCanEntry (entryBytes frame) = some (.ok frame) := by
  have hdata := vector8_eq frame.data
  have hentry : entryBytes frame = frame.port ::
      (BigEndian.split32 (wireIdFrom frame) ++ frame.len ::
        [frame.data[0], frame.data[1], frame.data[2], frame.data[3], frame.data[4],
          frame.data[5], frame.data[6], frame.data[7]]) := by
    conv_lhs => rw [entryBytes, hdata]
    rfl
  have happly : ∀ base : CanFrame, applyWireId base (wireIdFrom frame) =
      { base with extended := frame.extended, id := frame.id } :=
    fun base => applyWireId_wireIdFrom frame base h
  have hvalid : CanFrame.valid { frame with data := Vector.replicate 8 0 } = true := h
  simp only [readCanEntry, readData, readU32Be, hentry, BigEndian.split32, List.cons_append,
    List.nil_append, Wire.entryPortOffset, Wire.entryLenOffset, Wire.entryWireIdOffset,
    Wire.entryDataOffset, List.getElem?_cons_zero, List.getElem?_cons_succ, Nat.reduceAdd,
    Option.bind_eq_bind, Option.bind_some, Option.pure_def, BigEndian.join32_split, happly,
    hvalid, Bool.not_true, Bool.false_eq_true, if_false]
  rw [← hdata]

private theorem list14_decomp (entry : List Byte) (h : entry.length = canEntrySz) :
    ∃ p w0 w1 w2 w3 l d0 d1 d2 d3 d4 d5 d6 d7,
      entry = [p, w0, w1, w2, w3, l, d0, d1, d2, d3, d4, d5, d6, d7] := by
  match entry, h with
  | [p, w0, w1, w2, w3, l, d0, d1, d2, d3, d4, d5, d6, d7], _ =>
      exact ⟨p, w0, w1, w2, w3, l, d0, d1, d2, d3, d4, d5, d6, d7, rfl⟩

/-- A whole entry is read without leaving it. What it is accepted as is a valid
frame, and the entry is that frame's. -/
theorem readCanEntry_spec (entry : List Byte) (h : entry.length = canEntrySz) :
    ∃ outcome, readCanEntry entry = some outcome ∧
      ∀ frame, outcome = .ok frame → frame.valid = true ∧ entry = entryBytes frame := by
  obtain ⟨p, w0, w1, w2, w3, l, d0, d1, d2, d3, d4, d5, d6, d7, rfl⟩ := list14_decomp entry h
  let base := applyWireId { port := p, len := l } (BigEndian.join32 w0 w1 w2 w3)
  have hread : readCanEntry [p, w0, w1, w2, w3, l, d0, d1, d2, d3, d4, d5, d6, d7] =
      if !base.valid then some (.error .protocolError)
      else some (.ok { base with data := #v[d0, d1, d2, d3, d4, d5, d6, d7] }) := rfl
  rw [hread]
  cases hvalid : base.valid
  · exact ⟨.error .protocolError, rfl, by simp⟩
  · refine ⟨.ok { base with data := #v[d0, d1, d2, d3, d4, d5, d6, d7] }, rfl, ?_⟩
    rintro frame hframe
    obtain rfl := Except.ok.inj hframe
    refine ⟨hvalid, ?_⟩
    have hwire : wireIdFrom { base with data := #v[d0, d1, d2, d3, d4, d5, d6, d7] } =
        BigEndian.join32 w0 w1 w2 w3 :=
      wireIdFrom_applyWireId { port := p, len := l } (BigEndian.join32 w0 w1 w2 w3)
    rw [entryBytes, hwire, BigEndian.split32_join]
    rfl

section Loop

variable {σ : Type} (handler : σ → CanFrame → σ)

/-- The entries of valid frames are handled one after the other. -/
theorem decodeEntries_append (before after : List Byte) (frames : List CanFrame) (k : Nat)
    (context : σ) (hvalid : ∀ frame ∈ frames, frame.valid = true) :
    decodeEntries (before ++ frames.flatMap entryBytes ++ after) handler (frames.length + k)
        before.length context =
      decodeEntries (before ++ frames.flatMap entryBytes ++ after) handler k
        (before ++ frames.flatMap entryBytes).length (frames.foldl handler context) := by
  induction frames generalizing before context with
  | nil => simp
  | cons frame rest ih =>
      have hspan : subspan (before ++ (frame :: rest).flatMap entryBytes ++ after)
          before.length canEntrySz = some (entryBytes frame) := by
        rw [← entryBytes_length frame, subspan_of_le (by simp), List.append_assoc,
          List.drop_left, List.flatMap_cons, List.append_assoc, List.take_left]
      have hread := readCanEntry_entryBytes frame (hvalid frame (by simp))
      have hrest := ih (before ++ entryBytes frame) (handler context frame)
        (fun f member => hvalid f (List.mem_cons_of_mem _ member))
      rw [List.length_append, entryBytes_length] at hrest
      rw [List.length_cons, Nat.succ_add, decodeEntries, hspan, Option.bind_eq_bind,
        Option.bind_some, hread, List.flatMap_cons, ← List.append_assoc, List.foldl_cons]
      exact hrest

theorem decodeEntries_frames (before after : List Byte) (frames : List CanFrame) (context : σ)
    (hvalid : ∀ frame ∈ frames, frame.valid = true) :
    decodeEntries (before ++ frames.flatMap entryBytes ++ after) handler frames.length
      before.length context = some (.ok (), frames.foldl handler context) :=
  decodeEntries_append handler before after frames 0 context hvalid

/-- The loop never leaves a buffer that holds all its entries, and finishes
only on the entries of valid frames. -/
theorem decodeEntries_spec (bytes : List Byte) (count offset : Nat) (context : σ)
    (h : offset + count * canEntrySz ≤ bytes.length) :
    ∃ outcome final, decodeEntries bytes handler count offset context = some (outcome, final) ∧
      (outcome = .ok () → ∃ frames : List CanFrame, frames.length = count ∧
        (∀ frame ∈ frames, frame.valid = true) ∧
        (bytes.drop offset).take (count * canEntrySz) = frames.flatMap entryBytes) := by
  induction count generalizing offset context with
  | zero => exact ⟨.ok (), context, rfl, fun _ => ⟨[], rfl, by simp, by simp⟩⟩
  | succ count ih =>
      simp only [canEntrySz] at h ih ⊢
      have hspan : subspan bytes offset 14 = some ((bytes.drop offset).take 14) :=
        subspan_of_le (by omega)
      have hlen : ((bytes.drop offset).take 14).length = canEntrySz := by
        rw [List.length_take, List.length_drop, canEntrySz]
        omega
      obtain ⟨entry, hentry, hframe⟩ := readCanEntry_spec _ hlen
      cases entry with
      | error err =>
          refine ⟨.error err, context, ?_, by simp⟩
          rw [decodeEntries, canEntrySz, hspan, Option.bind_eq_bind, Option.bind_some, hentry]
          rfl
      | ok frame =>
          obtain ⟨hvalid, hbytes⟩ := hframe frame rfl
          obtain ⟨outcome, final, hrun, hdone⟩ :=
            ih (offset + 14) (handler context frame) (by omega)
          refine ⟨outcome, final, ?_, ?_⟩
          · rw [decodeEntries, canEntrySz, hspan, Option.bind_eq_bind, Option.bind_some, hentry]
            exact hrun
          · intro hok
            obtain ⟨frames, hcount, hframes, hrest⟩ := hdone hok
            refine ⟨frame :: frames, by simp [hcount], ?_, ?_⟩
            · intro f member
              rcases List.mem_cons.mp member with rfl | htail
              · exact hvalid
              · exact hframes f htail
            · rw [List.flatMap_cons, ← hbytes, ← hrest, Nat.succ_mul, Nat.add_comm (count * 14),
                List.take_add, List.drop_drop]

end Loop

end ServoFleet.MotorCodec
