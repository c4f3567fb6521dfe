import ServoFleet.FleetThreads
import ServoFleet.SendCommands

/-!
What a call gathers in its batches. Its packets are those of the call on channels that
take every packet, whatever the channels really answer; the answers only come into the
error code.
-/

namespace ServoFleet

open ServoFleet.Runtime

/-- Channels that take every packet. -/
def accepting : Replies := fun _ _ => acceptingReply

namespace BatchCommands

variable {replies : Nat → ChannelReply} {batch seq next : BatchCommands} {code : ErrCode}

/-- The batch of a call whose channels take every packet, next to that of the same call. -/
structure Like (batch seq : BatchCommands) : Prop where
  same : seq = { batch with offers := seq.offers }
  packets : batch.offers.map Offer.frames = seq.offers.map Offer.frames

theorem Like.refl (batch : BatchCommands) : Like batch batch := ⟨rfl, rfl⟩

theorem send_frames {reply : ChannelReply} {frames : List CanFrame} {offer : Offer}
    (h : MotorDriver.send reply frames = some offer) : offer.frames = frames := by
  rw [MotorDriver.send] at h
  split_ifs at h with hnone
  · obtain rfl := Option.some.inj h
    rfl
  split at h
  · obtain rfl := Option.some.inj h
    rfl
  · obtain ⟨⟨encodedSize, packet⟩, _, h⟩ := Option.bind_eq_some_iff.mp h
    dsimp only at h
    split at h
    · obtain rfl := Option.some.inj h
      rfl
    · split at h <;> obtain rfl := Option.some.inj h <;> rfl

theorem flush_eq (hsome : batch.frameCount ≠ 0) (h : batch.flush replies = some (code, next)) :
    ∃ offer, next = { batch with frameCount := 0, offers := batch.offers ++ [offer] } ∧
      offer.frames = batch.held ∧ offer.code = code := by
  rw [flush, if_neg hsome, Option.bind_eq_bind, Option.bind_eq_some_iff] at h
  obtain ⟨offer, hsend, h⟩ := h
  obtain ⟨rfl, rfl⟩ := Prod.mk.inj (Option.some.inj h)
  exact ⟨offer, rfl, send_frames hsend, rfl⟩

/-- A batch that has been flushed, whatever came back. -/
theorem Like.flushed (like : Like batch seq) (hsome : batch.frameCount ≠ 0) {answer : ErrCode}
    (h : seq.flush replies = some (code, next)) : Like (batch.flushed answer) next := by
  obtain ⟨hsame, hpackets⟩ := like
  have hcount : seq.frameCount = batch.frameCount := by rw [hsame]
  obtain ⟨offer, rfl, hframes, _⟩ := flush_eq (hcount ▸ hsome) h
  have hheld : seq.held = batch.held := by
    rw [hsame]
    rfl
  refine ⟨?_, ?_⟩
  · rw [BatchCommands.flushed]
    rw [hsame]
  · rw [BatchCommands.flushed, List.map_append, List.map_append, hpackets, List.map_singleton,
      List.map_singleton, hframes, hheld]

/-- A batch that a command has filled has taken it in. -/
theorem fill_full {F : Type} {driver : MotorDriver} {motors : Motors F} {deviceSlot : Nat}
    {command : MotorCommand} {filled : BatchCommands}
    (hcount : batch.frameCount < maxFramesPerPacket)
    (h : batch.fill driver motors deviceSlot command = some (code, filled))
    (hfull : filled.frameCount = maxFramesPerPacket) : code = .ok () := by
  have hroom : batch.frameCount ≠ maxFramesPerPacket := Nat.ne_of_lt hcount
  rw [BatchCommands.fill] at h
  split at h
  · obtain ⟨_, rfl⟩ := Prod.mk.inj (Option.some.inj h)
    exact absurd hfull hroom
  · obtain ⟨device, _, h⟩ := Option.bind_eq_some_iff.mp h
    rw [dif_pos hcount] at h
    obtain ⟨⟨err, frame⟩, _, h⟩ := Option.bind_eq_some_iff.mp h
    cases err with
    | error err =>
        obtain ⟨_, rfl⟩ := Prod.mk.inj (Option.some.inj h)
        exact absurd hfull hroom
    | ok _ => exact (Prod.mk.inj (Option.some.inj h)).1.symm

theorem accepted_of_queues {slot : Nat} {queued : List CanFrame}
    (h : Queues (accepting slot) seq queued) : ∀ offer ∈ seq.offers, offer.code = .ok () := by
  intro offer member
  obtain ⟨j, hj⟩ := List.mem_iff_getElem?.mp member
  exact (h.sound j offer hj).code

/-- What a batch of the call has taken in, the batch beside it has. -/
theorem Like.fill {F : Type} {driver : MotorDriver} {motors : Motors F} {deviceSlot : Nat}
    {command : MotorCommand} {filled : BatchCommands} (like : Like batch seq)
    (h : batch.fill driver motors deviceSlot command = some (code, filled)) :
    ∃ other, seq.fill driver motors deviceSlot command = some (code, other) ∧
      Like filled other ∧ other.offers = seq.offers := by
  refine ⟨{ filled with offers := seq.offers }, ?_, ⟨rfl, ?_⟩, rfl⟩
  · rw [like.same, fill_with, h]
    rfl
  · rw [fill_offers h]
    exact like.packets

end BatchCommands

/-! ## One call -/

open BatchCommands

/-- The call has taken in the commands `done`, and its first `slot` batches are flushed.
Beside it are the batches of the same call on accepting channels. -/
structure CommandCall.Gathers (options : FleetConfig) (done : List MotorCommand) (slot : Nat)
    (call : CommandCall) (error : ErrCode) (seqs : List BatchCommands) : Prop where
  pushed : Pushed options (usedChannels options) accepting done error seqs
  count : call.batches.length = seqs.length
  flushed : ∀ k < slot, ∀ name batch, (usedChannels options)[k]? = some name →
    call.batches[k]? = some batch →
    batch.offers.map Offer.frames = (framesFor options name done).toChunks maxFramesPerPacket
  like : ∀ k, slot ≤ k → ∀ batch seq, call.batches[k]? = some batch → seqs[k]? = some seq →
    Like batch seq
  error : call.error = .ok () ↔ error = .ok () ∧ AllAccepted call.batches

namespace CommandCall

variable {options : FleetConfig} {done : List MotorCommand} {slot : Nat} {call : CommandCall}
  {error : ErrCode} {seqs : List BatchCommands}

/-- The call as it goes on with the answer of a driver. -/
def answered (call : CommandCall) (slot : Nat) (batch : BatchCommands) (code : ErrCode) :
    CommandCall :=
  { call with
    error := overwriteError call.error code
    batches := call.batches.set slot (batch.flushed code) }

/-- Of a batch there is one beside it, and the name of its channel. -/
theorem Gathers.beside (h : call.Gathers options done slot error seqs) {k : Nat}
    {batch : BatchCommands} (hbatch : call.batches[k]? = some batch) :
    ∃ name seq, (usedChannels options)[k]? = some name ∧ seqs[k]? = some seq ∧
      Queues (accepting k) seq (framesFor options name done) := by
  have hlt := (List.getElem?_eq_some_iff.mp hbatch).1
  rw [h.count] at hlt
  have hname := hlt
  rw [h.pushed.count] at hname
  exact ⟨_, _, List.getElem?_eq_getElem hname, List.getElem?_eq_getElem hlt,
    h.pushed.queues _ _ _ (List.getElem?_eq_getElem hname) (List.getElem?_eq_getElem hlt)⟩

theorem Gathers.goesOn (h : call.Gathers options done slot error seqs) (loop : CommandLoop) :
    Gathers options done slot { call with loop } error seqs :=
  ⟨h.pushed, h.count, h.flushed, h.like, h.error⟩

/-- A batch that holds nothing when its turn comes needs no flush. -/
theorem Gathers.skip (h : call.Gathers options done slot error seqs) {batch : BatchCommands}
    (hbatch : call.batches[slot]? = some batch) (hempty : batch.frameCount = 0) :
    call.Gathers options done (slot + 1) error seqs where
  pushed := h.pushed
  count := h.count
  flushed k hk name other hname hother := by
    rcases Nat.lt_succ_iff_lt_or_eq.mp hk with hlt | rfl
    · exact h.flushed k hlt name other hname hother
    obtain rfl := Option.some.inj (hbatch.symm.trans hother)
    obtain ⟨name', seq, hname', hseq, hqueues⟩ := h.beside hbatch
    obtain rfl := Option.some.inj (hname.symm.trans hname')
    have like := h.like k le_rfl batch seq hbatch hseq
    obtain ⟨code, next, hflush, _, hpackets, _⟩ := flush_queues hqueues
    have hnone : seq.frameCount = 0 := by
      rw [like.same]
      exact hempty
    rw [BatchCommands.flush, if_pos hnone, Option.some.injEq, Prod.mk.injEq] at hflush
    rw [like.packets, hflush.2, hpackets]
  like k hk := h.like k (Nat.le_of_succ_le hk)
  error := h.error

theorem adds_flushed (batch : BatchCommands) (code : ErrCode) :
    Adds batch (batch.flushed code) code :=
  ⟨[{ frames := batch.held, code, committed := none }], rfl, by simp⟩

/-- A batch is flushed, and its driver answers. -/
theorem Gathers.flush (h : call.Gathers options done slot error seqs) {batch : BatchCommands}
    (hbatch : call.batches[slot]? = some batch) (hsome : batch.frameCount ≠ 0) (code : ErrCode) :
    (call.answered slot batch code).Gathers options done (slot + 1) error seqs where
  pushed := h.pushed
  count := by rw [answered, List.length_set, h.count]
  flushed k hk name other hname hother := by
    rw [answered] at hother
    rcases Nat.lt_succ_iff_lt_or_eq.mp hk with hlt | rfl
    · rw [List.getElem?_set_ne (Nat.ne_of_gt hlt)] at hother
      exact h.flushed k hlt name other hname hother
    rw [List.getElem?_set_self (List.getElem?_eq_some_iff.mp hbatch).1, Option.some.injEq] at hother
    subst hother
    obtain ⟨name', seq, hname', hseq, hqueues⟩ := h.beside hbatch
    obtain rfl := Option.some.inj (hname.symm.trans hname')
    obtain ⟨answer, next, hflush, _, hpackets, _⟩ := flush_queues hqueues
    rw [((h.like k le_rfl batch seq hbatch hseq).flushed hsome hflush).packets, hpackets]
  like k hk other seq hother hseq := by
    rw [answered, List.getElem?_set_ne (Nat.ne_of_lt hk)] at hother
    exact h.like k (Nat.le_of_succ_le hk) other seq hother hseq
  error := by
    rw [answered, overwriteError_ok, h.error, allAccepted_set hbatch (adds_flushed batch code)]
    tauto

/-- A command changes one batch, and the one beside it. -/
theorem Gathers.set (h : call.Gathers options done 0 error seqs) {k : Nat}
    {batch next seqNext : BatchCommands} (hbatch : call.batches[k]? = some batch)
    (like : Like next seqNext) {code error' error'' : ErrCode} (hadds : Adds batch next code)
    {more : List MotorCommand}
    (hpushed : Pushed options (usedChannels options) accepting more error'' (seqs.set k seqNext))
    (herror : error' = .ok () ↔ error'' = .ok () ∧ AllAccepted call.batches ∧ code = .ok ())
    (loop : CommandLoop) :
    Gathers options more 0 { call with loop, error := error', batches := call.batches.set k next }
      error'' (seqs.set k seqNext) where
  pushed := hpushed
  count := by rw [List.length_set, List.length_set, h.count]
  flushed j hj := absurd hj (Nat.not_lt_zero j)
  like j _ other seq hother hseq := by
    have hk := (List.getElem?_eq_some_iff.mp hbatch).1
    by_cases hj : k = j
    · subst hj
      rw [List.getElem?_set_self hk, Option.some.injEq] at hother
      rw [List.getElem?_set_self (h.count ▸ hk), Option.some.injEq] at hseq
      exact hother ▸ hseq ▸ like
    · rw [List.getElem?_set_ne hj] at hother hseq
      exact h.like j (Nat.zero_le j) other seq hother hseq
  error := by rw [herror, allAccepted_set hbatch hadds]

section Push

variable {F : Type} [FloatArith F] {runtime : Runtime F} (hvalid : options.Valid)
  (hbinds : Binds (usedChannels options) options.motors runtime) {command : MotorCommand}

include hvalid hbinds

/-- A command for no device. -/
theorem Gathers.unbound (h : call.Gathers options done 0 error seqs)
    (hbinding : runtime.findDeviceBinding command.deviceId = none) (loop : CommandLoop) :
    ∃ error seqs, Gathers options (done ++ [command]) 0
      { call with loop, error := .error .invalidArgument } error seqs := by
  obtain ⟨error', seqs', hpush, hpushed⟩ :=
    pushCommand_pushed hvalid hbinds rfl accepting command h.pushed
  change runtime.pushCommand accepting (error, seqs) command = _ at hpush
  rw [pushCommand, hbinding, Option.some.injEq, Prod.mk.injEq] at hpush
  obtain ⟨rfl, rfl⟩ := hpush
  exact ⟨_, _, hpushed, h.count, by simp, h.like, by simp⟩

/-- A command of a bound device finds its driver and room in the batch. -/
theorem Gathers.possible (h : call.Gathers options done 0 error seqs) {binding : DeviceBinding}
    (hbinding : runtime.findDeviceBinding command.deviceId = some binding) :
    ∃ driver batch result, runtime.motorDrivers[binding.driverSlot]? = some driver ∧
      call.batches[binding.driverSlot]? = some batch ∧
      batch.fill driver runtime.motors binding.deviceSlot command = some result := by
  obtain ⟨error', seqs', hpush, _⟩ :=
    pushCommand_pushed hvalid hbinds rfl accepting command h.pushed
  change runtime.pushCommand accepting (error, seqs) command = _ at hpush
  simp only [pushCommand, hbinding, Option.bind_eq_bind, Option.bind_eq_some_iff] at hpush
  obtain ⟨driver, hdriver, seq, hseq, ⟨code, next⟩, hnext, _⟩ := hpush
  obtain ⟨batch, hbatch⟩ : ∃ batch, call.batches[binding.driverSlot]? = some batch := by
    have hlt := (List.getElem?_eq_some_iff.mp hseq).1
    exact ⟨_, List.getElem?_eq_getElem (h.count ▸ hlt)⟩
  obtain ⟨name, seq', _, hseq', hqueues⟩ := h.beside hbatch
  obtain rfl := Option.some.inj (hseq.symm.trans hseq')
  have like := h.like _ (Nat.zero_le _) batch seq hbatch hseq
  rw [push_eq _ hqueues.count, Option.bind_eq_some_iff] at hnext
  obtain ⟨result, hfill, _⟩ := hnext
  rw [like.same, fill_with, Option.map_eq_some_iff] at hfill
  obtain ⟨filled, hfilled, _⟩ := hfill
  exact ⟨driver, batch, filled, hdriver, hbatch, hfilled⟩

/-- A command that goes into the batch of its driver. -/
theorem Gathers.push (h : call.Gathers options done 0 error seqs) {binding : DeviceBinding}
    (hbinding : runtime.findDeviceBinding command.deviceId = some binding) {driver : MotorDriver}
    (hdriver : runtime.motorDrivers[binding.driverSlot]? = some driver)
    {batch filled : BatchCommands} (hbatch : call.batches[binding.driverSlot]? = some batch)
    {err : ErrCode}
    (hfill : batch.fill driver runtime.motors binding.deviceSlot command = some (err, filled))
    (loop : CommandLoop) :
    let pushed := { call with
      loop
      error := overwriteError call.error err
      batches := call.batches.set binding.driverSlot filled }
    ∃ error seqs,
      if filled.frameCount = maxFramesPerPacket then
        ∀ code, (pushed.answered binding.driverSlot filled code).Gathers options
          (done ++ [command]) 0 error seqs
      else pushed.Gathers options (done ++ [command]) 0 error seqs := by
  intro pushed
  obtain ⟨error', seqs', hpush, hpushed⟩ :=
    pushCommand_pushed hvalid hbinds rfl accepting command h.pushed
  change runtime.pushCommand accepting (error, seqs) command = _ at hpush
  obtain ⟨name, seq, hname, hseq, hqueues⟩ := h.beside hbatch
  have like := h.like _ (Nat.zero_le _) batch seq hbatch hseq
  obtain ⟨other, hother, hlike, hoffers⟩ := like.fill hfill
  have hcount : other.frameCount = filled.frameCount := by rw [hlike.same]
  simp only [pushCommand, hbinding, hdriver, hseq, Option.bind_eq_bind, Option.bind_some,
    push_eq _ hqueues.count, hother, hcount] at hpush
  refine ⟨error', seqs', ?_⟩
  split_ifs with hfull
  · intro code
    rw [if_pos hfull] at hpush
    obtain ⟨⟨answer, next⟩, hflush, hpush⟩ := Option.bind_eq_some_iff.mp hpush
    obtain ⟨rfl, rfl⟩ := Prod.mk.inj (Option.some.inj hpush)
    have hroom : batch.frameCount < maxFramesPerPacket := by
      have hseqRoom := hqueues.count
      rwa [like.same] at hseqRoom
    obtain rfl := fill_full hroom hfill hfull
    have hsome : filled.frameCount ≠ 0 := by
      rw [hfull]
      decide
    obtain ⟨offer, hnext, _, hcode⟩ := flush_eq (hcount ▸ hsome) hflush
    have hanswer : answer = .ok () := by
      have hset : (seqs.set binding.driverSlot next)[binding.driverSlot]? = some next :=
        List.getElem?_set_self (List.getElem?_eq_some_iff.mp hseq).1
      rw [← hcode]
      exact accepted_of_queues (hpushed.queues _ name next hname hset) offer (by rw [hnext]; simp)
    have hadds : Adds batch (filled.flushed code) code := by
      obtain ⟨added, hadded, hiff⟩ := adds_flushed filled code
      exact ⟨added, by rw [hadded, fill_offers hfill], hiff⟩
    have herror : overwriteError call.error code = .ok () ↔
        overwriteError error answer = .ok () ∧ AllAccepted call.batches ∧ code = .ok () := by
      rw [overwriteError_ok, overwriteError_ok, h.error]
      tauto
    rw [answered, List.set_set]
    exact h.set hbatch (hlike.flushed hsome hflush) hadds hpushed herror loop
  · rw [if_neg hfull] at hpush
    obtain ⟨rfl, rfl⟩ := Prod.mk.inj (Option.some.inj hpush)
    have hadds : Adds batch filled (.ok ()) :=
      ⟨[], by rw [fill_offers hfill, List.append_nil], by simp⟩
    refine h.set hbatch hlike hadds hpushed ?_ loop
    rw [overwriteError_ok, overwriteError_ok, h.error]
    tauto

omit hvalid in
/-- A call that begins. -/
theorem gathers_nothing (commands : List MotorCommand) :
    Gathers options [] 0
      { commands, loop := .commands commands, batches := runtime.motorDrivers.map fun _ => {} }
      (.ok ()) (runtime.motorDrivers.map fun _ => {}) := by
  have hfresh : ∀ {k : Nat} {batch : BatchCommands},
      (runtime.motorDrivers.map fun _ => ({} : BatchCommands))[k]? = some batch → batch = {} := by
    intro k batch hbatch
    rw [List.getElem?_map, Option.map_eq_some_iff] at hbatch
    obtain ⟨_, _, rfl⟩ := hbatch
    rfl
  have haccepted : AllAccepted (runtime.motorDrivers.map fun _ => {}) := by
    simp [AllAccepted]
  refine ⟨⟨?_, fun slot name batch _ hbatch => hfresh hbatch ▸ queues_empty, ?_⟩, rfl, by simp,
    fun k _ batch seq hbatch hseq => ?_, ⟨fun _ => ⟨rfl, haccepted⟩, fun _ => rfl⟩⟩
  · rw [List.length_map, hbinds.drivers, List.length_map]
  · exact ⟨fun _ => ⟨by simp, haccepted⟩, fun _ => rfl⟩
  · rw [hfresh hbatch, hfresh hseq]
    exact .refl {}

end Push

/-- A call that has returned: what it has offered, and when it has succeeded. -/
def Complete (options : FleetConfig) (call : CommandCall) : Prop :=
  (∀ (slot : Nat) (name : String), (usedChannels options)[slot]? = some name →
      (call.packets slot).map Prod.fst =
        (framesFor options name call.commands).toChunks maxFramesPerPacket) ∧
    (call.error = .ok () ↔ (∀ command ∈ call.commands, Encodable options command) ∧
      ∀ slot, ∀ packet ∈ call.packets slot, packet.2 = .ok ())

theorem all_accepted (call : CommandCall) : AllAccepted call.batches ↔
    ∀ slot, ∀ packet ∈ call.packets slot, packet.2 = .ok () := by
  constructor
  · intro haccepted slot packet member
    rw [packets] at member
    split at member
    · cases member
    · rename_i batch hbatch
      obtain ⟨offer, hoffer, rfl⟩ := List.mem_map.mp member
      exact haccepted batch (List.mem_of_getElem? hbatch) offer hoffer
  · intro hall batch member offer hoffer
    obtain ⟨slot, hslot⟩ := List.mem_iff_getElem?.mp member
    refine hall slot (offer.frames, offer.code) ?_
    rw [packets, hslot]
    exact List.mem_map.mpr ⟨offer, hoffer, rfl⟩

theorem Gathers.complete (h : call.Gathers options call.commands slot error seqs)
    (hend : call.batches[slot]? = none) : call.Complete options := by
  have hcount := List.getElem?_eq_none_iff.mp hend
  constructor
  · intro k name hname
    have hk : k < call.batches.length := by
      rw [h.count, h.pushed.count]
      exact (List.getElem?_eq_some_iff.mp hname).1
    have hbatch := List.getElem?_eq_getElem hk
    rw [packets, hbatch, ← h.flushed k (by omega) name _ hname hbatch, List.map_map]
    rfl
  · have haccepted : AllAccepted seqs := by
      intro seq member offer hoffer
      obtain ⟨k, hk⟩ := List.mem_iff_getElem?.mp member
      have hlt := (List.getElem?_eq_some_iff.mp hk).1
      have hname := List.getElem?_eq_getElem (h.pushed.count ▸ hlt)
      exact accepted_of_queues (h.pushed.queues k _ seq hname hk) offer hoffer
    rw [h.error, h.pushed.error, ← all_accepted]
    tauto

/-- Whatever a call has offered to a channel comes from its commands. -/
theorem Gathers.framed (h : call.Gathers options done slot error seqs) {k : Nat} {name : String}
    (hname : (usedChannels options)[k]? = some name) :
    ∀ packet ∈ call.packets k, ∀ frame ∈ packet.1, frame ∈ framesFor options name done := by
  intro packet member frame hframe
  rw [packets] at member
  split at member
  · cases member
  rename_i batch hbatch
  obtain ⟨offer, hoffer, rfl⟩ := List.mem_map.mp member
  have hflat : frame ∈ (batch.offers.map Offer.frames).flatten :=
    List.mem_flatten.mpr ⟨offer.frames, List.mem_map_of_mem hoffer, hframe⟩
  rcases Nat.lt_or_ge k slot with hflushed | hlater
  · rwa [h.flushed k hflushed name batch hname hbatch, Chunk.flatten_toChunks (by decide)] at hflat
  · obtain ⟨name', seq, hname', hseq, hqueues⟩ := h.beside hbatch
    obtain rfl := Option.some.inj (hname.symm.trans hname')
    rw [(h.like k hlater batch seq hbatch hseq).packets] at hflat
    rw [← hqueues.queued, taken]
    exact List.mem_append_left _ hflat

end CommandCall

end ServoFleet
