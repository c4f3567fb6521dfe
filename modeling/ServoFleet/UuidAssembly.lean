import ServoFleet.MotorSamples

/-!
The identity of the chip, put together from three fragments that come in any order
and more than once. Every part is a register of the history of its own, and so is
the stamp of the sample. Fragments with an index of no part are ignored.

That the parts belong to one identity is nowhere checked.
-/

namespace ServoFleet

namespace McuUuid

def complete (uuid : McuUuid) : Bool := uuid.receivedMask &&& 0x07 = 0x07

/-- The four bytes that a fragment of index `k + 1` fills, and their bit of the mask. -/
def part (uuid : McuUuid) (k : Fin 3) : Vector Byte 4 × Bool :=
  (Vector.ofFn fun j => uuid.bytes[4 * k.val + j.val], uuid.receivedMask.getLsbD k)

theorem part_byte (uuid : McuUuid) (k : Fin 3) (j : Nat) (hj : j < 4) :
    (uuid.part k).1[j] = uuid.bytes[4 * k.val + j] := by
  rw [part, Vector.getElem_ofFn]

theorem complete_iff (uuid : McuUuid) :
    uuid.complete = true ↔ ∀ k : Fin 3, (uuid.part k).2 = true := by
  have hmask : ∀ mask : Byte, mask &&& 0x07 = 0x07 ↔ ∀ k : Fin 3, mask.getLsbD k = true := by
    decide +kernel
  rw [complete, decide_eq_true_eq, hmask]
  rfl

end McuUuid

namespace McuUuidFragment

/-- The part that a fragment fills; most indices have none. -/
def part (fragment : McuUuidFragment) : Option (Fin 3) :=
  if h : 1 ≤ fragment.index.toNat ∧ fragment.index.toNat ≤ 3 then
    some ⟨fragment.index.toNat - 1, by omega⟩
  else none

theorem part_eq_some (fragment : McuUuidFragment) (k : Fin 3) :
    fragment.part = some k ↔ fragment.index.toNat = k.val + 1 := by
  have hk := k.isLt
  unfold part
  split_ifs with h
  · rw [Option.some.injEq, Fin.ext_iff]
    dsimp only
    omega
  · simp only [false_iff]
    omega

theorem part_eq_none (fragment : McuUuidFragment) :
    fragment.part = none ↔ fragment.index < 1 ∨ fragment.index > 3 := by
  have h1 : (1 : Byte).toNat = 1 := rfl
  have h3 : (3 : Byte).toNat = 3 := rfl
  rw [part, dite_eq_right_iff, gt_iff_lt, BitVec.lt_def, BitVec.lt_def, h1, h3]
  simp only [reduceCtorEq, imp_false]
  omega

end McuUuidFragment

/-- The fragment of the identity in a feedback. -/
def Feedback.uuidFragment {F : Type} : Feedback F → Option McuUuidFragment
  | .query { value := .mcuUuidFragment fragment, .. } => some fragment
  | _ => none

namespace MotorDevice

/-! ## One fragment -/

section Fragment

variable (sample : Sample McuUuid) (fragment : McuUuidFragment) (time : TimePoint)
  (seq : BitVec 64)

theorem setMcuUuidFragment_none (h : fragment.part = none) :
    setMcuUuidFragment sample fragment time seq = sample :=
  if_pos ((fragment.part_eq_none).mp h)

theorem setMcuUuidFragment_stamp {k : Fin 3} (h : fragment.part = some k) :
    (setMcuUuidFragment sample fragment time seq).time = time ∧
      (setMcuUuidFragment sample fragment time seq).seq = seq := by
  have hin : ¬ (fragment.index < 1 ∨ fragment.index > 3) := by
    rw [← fragment.part_eq_none, h]
    exact Option.some_ne_none k
  rw [setMcuUuidFragment, if_neg hin]
  exact ⟨rfl, rfl⟩

/-- A fragment replaces its part and no other. -/
theorem setMcuUuidFragment_part {k : Fin 3} (h : fragment.part = some k) (other : Fin 3) :
    (setMcuUuidFragment sample fragment time seq).value.part other =
      if other = k then (fragment.bytes, true) else sample.value.part other := by
  have hin : ¬ (fragment.index < 1 ∨ fragment.index > 3) := by
    rw [← fragment.part_eq_none, h]
    exact Option.some_ne_none k
  have hindex := (fragment.part_eq_some k).mp h
  have hoffset : fragment.index.toNat - 1 = k.val := by omega
  have hbit : ∀ k other : Fin 3,
      ((1 <<< k.val : Nat) : Byte).getLsbD other = decide (other = k) := by
    decide
  rw [setMcuUuidFragment, if_neg hin]
  simp only [McuUuid.part, hoffset, BitVec.getLsbD_or, hbit]
  by_cases hother : other = k
  · rw [if_pos hother, decide_eq_true hother, Bool.or_true, Prod.mk.injEq]
    subst hother
    refine ⟨?_, rfl⟩
    apply Vector.ext
    intro j hj
    have hwindow : other.val * 4 ≤ 4 * other.val + j ∧ 4 * other.val + j - other.val * 4 < 4 := by
      omega
    have hat : 4 * other.val + j - other.val * 4 = j := by omega
    rw [Vector.getElem_ofFn, Vector.getElem_ofFn, dif_pos hwindow]
    simp only [hat]
  · have hne : other.val ≠ k.val := fun h => hother (Fin.ext h)
    rw [if_neg hother, decide_eq_false hother, Bool.or_false, Prod.mk.injEq]
    refine ⟨?_, rfl⟩
    apply Vector.ext
    intro j hj
    have hwindow : ¬ (k.val * 4 ≤ 4 * other.val + j ∧ 4 * other.val + j - k.val * 4 < 4) := by
      omega
    rw [Vector.getElem_ofFn, Vector.getElem_ofFn, Vector.getElem_ofFn, dif_neg hwindow]

end Fragment

/-! ## Feedbacks -/

section Feedbacks

variable {F : Type}

/-- The part that a feedback fills. -/
def filledPart (event : Feedback F × TimePoint) : Option (Fin 3) :=
  event.1.uuidFragment.bind McuUuidFragment.part

/-- What a feedback writes into a part. -/
def partWritten (k : Fin 3) (_ : Nat) (event : Feedback F × TimePoint) :
    Option (Vector Byte 4 × Bool) :=
  event.1.uuidFragment.bind fun fragment =>
    if fragment.part = some k then some (fragment.bytes, true) else none

/-- What a feedback writes into the stamp, by its number in the history. -/
def stampWritten (n : Nat) (event : Feedback F × TimePoint) : Option (TimePoint × BitVec 64) :=
  (filledPart event).map fun _ => (event.2, BitVec.ofNat 64 n)

/-- The feedback brings the fragment of an index. -/
def Brings (event : Feedback F × TimePoint) (i : Nat) (fragment : McuUuidFragment) : Prop :=
  event.1.uuidFragment = some fragment ∧ fragment.index.toNat = i

theorem partWritten_eq_none {k : Fin 3} {event : Feedback F × TimePoint} (n : Nat) :
    partWritten k n event = none ↔ ∀ fragment, ¬ Brings event (k.val + 1) fragment := by
  unfold partWritten Brings
  cases event.1.uuidFragment with
  | none => simp
  | some fragment =>
      simp only [Option.bind_some, fragment.part_eq_some, ite_eq_right_iff, reduceCtorEq,
        imp_false, Option.some.injEq, not_and, forall_eq']

theorem partWritten_brings {k : Fin 3} {event : Feedback F × TimePoint}
    {fragment : McuUuidFragment} (n : Nat) (h : Brings event (k.val + 1) fragment) :
    partWritten k n event = some (fragment.bytes, true) := by
  rw [partWritten, h.1, Option.bind_some, if_pos ((fragment.part_eq_some k).mpr h.2)]

theorem filledPart_eq_none {event : Feedback F × TimePoint} :
    filledPart event = none ↔ ∀ (k : Fin 3) fragment, ¬ Brings event (k.val + 1) fragment := by
  unfold filledPart Brings
  cases event.1.uuidFragment with
  | none => simp
  | some fragment =>
      simp only [Option.bind_some, Option.eq_none_iff_forall_ne_some, ne_eq,
        fragment.part_eq_some, Option.some.injEq, not_and, forall_eq']

theorem part_index {i : Nat} (hlow : 1 ≤ i) (hhigh : i ≤ 3) : ∃ k : Fin 3, i = k.val + 1 :=
  ⟨⟨i - 1, by omega⟩, by dsimp only; omega⟩

theorem filledPart_silent {event : Feedback F × TimePoint}
    (h : ∀ i fragment, 1 ≤ i → i ≤ 3 → ¬ Brings event i fragment) : filledPart event = none := by
  rw [filledPart_eq_none]
  exact fun k fragment => h _ fragment (by omega) (by omega)

end Feedbacks

/-! ## Histories -/

section Histories

variable {F : Type} [FloatArith F]

theorem mcuUuid_apply (device : MotorDevice F) (response : Feedback F) (now : TimePoint) :
    (device.apply response now).1.config.mcuUuid =
      match response.uuidFragment with
      | some fragment =>
          setMcuUuidFragment device.config.mcuUuid fragment now (device.sampleSeq + 1)
      | none => device.config.mcuUuid := by
  cases response with
  | query value =>
      obtain ⟨error, value⟩ := value
      cases value <;> rfl
  | _ => rfl

/-- A feedback that fills no part changes nothing in the identity. -/
theorem mcuUuid_apply_silent (device : MotorDevice F) (event : Feedback F × TimePoint)
    (h : filledPart event = none) :
    (device.apply event.1 event.2).1.config.mcuUuid = device.config.mcuUuid := by
  rw [mcuUuid_apply]
  cases hfragment : event.1.uuidFragment with
  | none => rfl
  | some fragment =>
      rw [filledPart, hfragment, Option.bind_some] at h
      exact setMcuUuidFragment_none _ fragment _ _ h

theorem mcuUuid_apply_filled (device : MotorDevice F) (event : Feedback F × TimePoint)
    (fragment : McuUuidFragment) (h : event.1.uuidFragment = some fragment) :
    (device.apply event.1 event.2).1.config.mcuUuid =
      setMcuUuidFragment device.config.mcuUuid fragment event.2 (device.sampleSeq + 1) := by
  rw [mcuUuid_apply, h]

theorem part_register (k : Fin 3) :
    LastWrite.Register (fun (device : MotorDevice F) event => (device.apply event.1 event.2).1)
      (fun n device => device.sampleSeq = BitVec.ofNat 64 n)
      (fun device => device.config.mcuUuid.value.part k) (partWritten k) where
  counts event hcount := (sample_register .motorError).counts event hcount
  view_step {n device} event _ := by
    cases hfragment : event.1.uuidFragment with
    | none =>
        rw [mcuUuid_apply_silent device event (by rw [filledPart, hfragment]; rfl), partWritten,
          hfragment]
        rfl
    | some fragment =>
        rw [mcuUuid_apply_filled device event fragment hfragment, partWritten, hfragment,
          Option.bind_some]
        cases hpart : fragment.part with
        | none =>
            rw [setMcuUuidFragment_none _ _ _ _ hpart]
            rfl
        | some filled =>
            simp only [setMcuUuidFragment_part _ _ _ _ hpart, Option.some.injEq]
            by_cases hsame : k = filled
            · rw [if_pos hsame, if_pos hsame.symm, Option.getD_some]
            · rw [if_neg hsame, if_neg (Ne.symm hsame), Option.getD_none]

theorem stamp_register :
    LastWrite.Register (fun (device : MotorDevice F) event => (device.apply event.1 event.2).1)
      (fun n device => device.sampleSeq = BitVec.ofNat 64 n)
      (fun device => (device.config.mcuUuid.time, device.config.mcuUuid.seq)) stampWritten where
  counts event hcount := (sample_register .motorError).counts event hcount
  view_step {n device} event hcount := by
    have hseq : device.sampleSeq + 1 = BitVec.ofNat 64 (n + 1) := by
      rw [hcount]
      exact (BitVec.ofNat_add n 1).symm
    cases hfilled : filledPart event with
    | none =>
        rw [mcuUuid_apply_silent device event hfilled, stampWritten, hfilled]
        rfl
    | some k =>
        obtain ⟨fragment, hfragment, hpart⟩ := Option.bind_eq_some_iff.mp hfilled
        obtain ⟨htime, hstamp⟩ := setMcuUuidFragment_stamp device.config.mcuUuid fragment event.2
          (device.sampleSeq + 1) hpart
        rw [mcuUuid_apply_filled device event fragment hfragment, stampWritten, hfilled, htime,
          hstamp, hseq]
        rfl

variable (id : DeviceId) (name : String) (addr : CanAddr) (ecSpec : Option MotorEcSpec)

/-- No fragment has filled the part. -/
theorem part_silent (history : List (Feedback F × TimePoint)) (k : Fin 3)
    (h : ∀ event ∈ history, ∀ fragment, ¬ Brings event (k.val + 1) fragment) :
    ((MotorDevice.init id name addr ecSpec).applyAll history).config.mcuUuid.value.part k =
      (Vector.replicate 4 0, false) := by
  have hsilent := (part_register k).view_silent history (init_sampleSeq id name addr ecSpec)
    fun event member n => (partWritten_eq_none n).mpr (h event member)
  have hinit : ∀ k : Fin 3, ({} : McuUuid).part k = (Vector.replicate 4 0, false) := by
    decide
  exact hsilent.trans (hinit k)

/-- The latest fragment of the part is in it. -/
theorem part_last (before after : List (Feedback F × TimePoint)) (event : Feedback F × TimePoint)
    (k : Fin 3) (fragment : McuUuidFragment) (h : Brings event (k.val + 1) fragment)
    (hafter : ∀ later ∈ after, ∀ other, ¬ Brings later (k.val + 1) other) :
    ((MotorDevice.init id name addr ecSpec).applyAll
        (before ++ event :: after)).config.mcuUuid.value.part k = (fragment.bytes, true) :=
  (part_register k).view_last before after event _ (init_sampleSeq id name addr ecSpec)
    (partWritten_brings _ h) fun later member n => (partWritten_eq_none n).mpr (hafter later member)

/-- The bit of a part says that a fragment has filled it. -/
theorem part_received (history : List (Feedback F × TimePoint)) (k : Fin 3) :
    (((MotorDevice.init id name addr ecSpec).applyAll history).config.mcuUuid.value.part k).2 =
      true ↔ ∃ event ∈ history, ∃ fragment, Brings event (k.val + 1) fragment := by
  rcases LastWrite.last_cases (fun event => ∃ fragment, Brings event (k.val + 1) fragment) history
    with hnone | ⟨before, event, after, rfl, ⟨fragment, h⟩, hafter⟩
  · rw [part_silent id name addr ecSpec history k fun event member fragment h =>
      hnone event member ⟨fragment, h⟩]
    simp only [Bool.false_eq_true, false_iff]
    rintro ⟨event, member, h⟩
    exact hnone event member h
  · rw [part_last id name addr ecSpec before after event k fragment h fun later member other h =>
      hafter later member ⟨other, h⟩]
    exact iff_of_true rfl ⟨event, List.mem_append_right _ List.mem_cons_self, fragment, h⟩

theorem complete_received (history : List (Feedback F × TimePoint)) :
    ((MotorDevice.init id name addr ecSpec).applyAll history).config.mcuUuid.value.complete =
      true ↔ ∀ i, 1 ≤ i → i ≤ 3 → ∃ event ∈ history, ∃ fragment, Brings event i fragment := by
  simp only [McuUuid.complete_iff, part_received]
  constructor
  · intro h i hlow hhigh
    obtain ⟨k, rfl⟩ := part_index hlow hhigh
    exact h k
  · exact fun h k => h _ (by omega) (by omega)

/-- The stamp is that of the latest fragment that fills a part. -/
theorem stamp_last (before after : List (Feedback F × TimePoint)) (event : Feedback F × TimePoint)
    (k : Fin 3) (fragment : McuUuidFragment) (h : Brings event (k.val + 1) fragment)
    (hafter : ∀ later ∈ after, filledPart later = none) :
    let sample := ((MotorDevice.init id name addr ecSpec).applyAll
      (before ++ event :: after)).config.mcuUuid
    (sample.time, sample.seq) = (event.2, BitVec.ofNat 64 (before.length + 1)) := by
  have hwrites : stampWritten (0 + before.length + 1) event =
      some (event.2, BitVec.ofNat 64 (before.length + 1)) := by
    rw [stampWritten, filledPart, h.1, Option.bind_some, (fragment.part_eq_some k).mpr h.2,
      Nat.zero_add]
    rfl
  refine stamp_register.view_last before after event _ (init_sampleSeq id name addr ecSpec)
    hwrites fun later member n => ?_
  rw [stampWritten, hafter later member]
  rfl

/-- After a history the identity is complete when all three indices have occurred. Each
part is that of its latest fragment, the stamp that of the latest fragment of any part,
and nothing else changes it. -/
theorem mcuUuid_reassembled (history : List (Feedback F × TimePoint)) :
    let device := (MotorDevice.init id name addr ecSpec).applyAll history
    let sample := device.config.mcuUuid
    (sample.value.complete = true ↔ ∀ i, 1 ≤ i → i ≤ 3 →
        ∃ event ∈ history, ∃ fragment, Brings event i fragment) ∧
      (∀ (i : Nat) (_ : 1 ≤ i) (_ : i ≤ 3),
        (∀ before event after fragment, history = before ++ event :: after →
          Brings event i fragment → (∀ later ∈ after, ∀ other, ¬ Brings later i other) →
          ∀ (j : Nat) (_ : j < 4), sample.value.bytes[4 * (i - 1) + j] = fragment.bytes[j]) ∧
        ((∀ event ∈ history, ∀ fragment, ¬ Brings event i fragment) →
          ∀ (j : Nat) (_ : j < 4), sample.value.bytes[4 * (i - 1) + j] = 0)) ∧
      (∀ before event after i fragment, history = before ++ event :: after → 1 ≤ i → i ≤ 3 →
        Brings event i fragment →
        (∀ later ∈ after, ∀ k other, 1 ≤ k → k ≤ 3 → ¬ Brings later k other) →
        sample.time = event.2 ∧ sample.seq = BitVec.ofNat 64 (before.length + 1)) ∧
      ∀ event, (∀ i fragment, 1 ≤ i → i ≤ 3 → ¬ Brings event i fragment) →
        (device.apply event.1 event.2).1.config.mcuUuid = sample := by
  refine ⟨complete_received id name addr ecSpec history, ?_, ?_, ?_⟩
  · intro i hlow hhigh
    obtain ⟨k, rfl⟩ := part_index hlow hhigh
    constructor
    · rintro before event after fragment rfl hbrings hafter j hj
      have hpart := part_last id name addr ecSpec before after event k fragment hbrings hafter
      have hbyte := congrArg (fun part : Vector Byte 4 × Bool => part.1[j]) hpart
      exact (McuUuid.part_byte _ k j hj).symm.trans hbyte
    · intro hnone j hj
      have hpart := part_silent id name addr ecSpec history k hnone
      have hbyte := congrArg (fun part : Vector Byte 4 × Bool => part.1[j]) hpart
      rw [Vector.getElem_replicate] at hbyte
      exact (McuUuid.part_byte _ k j hj).symm.trans hbyte
  · rintro before event after i fragment rfl hlow hhigh hbrings hafter
    obtain ⟨k, rfl⟩ := part_index hlow hhigh
    have hsilent : ∀ later ∈ after, filledPart later = none :=
      fun later member => filledPart_silent (hafter later member)
    exact Prod.mk.inj (stamp_last id name addr ecSpec before after event k fragment hbrings hsilent)
  · intro event h
    exact mcuUuid_apply_silent _ event (filledPart_silent h)

end Histories

end MotorDevice

end ServoFleet
