import ServoFleet.WorkerChannel

/-!
What the plain channel sends: every packet that `send` accepted, as it was given,
in the order in which they were accepted and each once. The worker gives what it
has popped to the socket before it ends, so a channel whose queue has been seen
empty may be stopped without loss.
-/

namespace ServoFleet

open SlotLedger PacketPool

/-- The parts of `enqueue`. -/
def ClientPc.OfEnqueue : ClientPc → Prop
  | .storing _ _ | .pushing _ _ | .notifying | .releasing _ .busy | .freeing _ .busy => True
  | _ => False

def SendPc.hand : SendPc → Hand Slot (BitVec 32)
  | .copying slot => .holding slot
  | .enqueueing pc => pc.hand
  | _ => .empty

/-- The packet that a call of `send` is about to push. -/
def SendPc.offers : SendPc → Option (Slot × BitVec 32)
  | .enqueueing pc => pc.offers
  | _ => none

def WorkerPc.hand : WorkerPc → Hand Slot (BitVec 32)
  | .sizing slot index => .popped slot index
  | .sending slot size index => .taken slot size index
  | .releasing slot => .holding slot
  | .freeing slot => .stored slot 0
  | _ => .empty

namespace UdpChannel

variable {slotCount : Nat} {channel : UdpChannel slotCount}

section Send

variable {id : ClientId} {sender : Sender}

/-- A step of `enqueue` stays in it or ends it, and there are no packet buffers. -/
theorem advance_enqueue {pc : ClientPc} (hpc : pc.OfEnqueue)
    {after : UdpChannel slotCount × Buffers × Client}
    (h : channel.advance noBuffers id pc = some after) :
    after.2.1 = noBuffers ∧ after.1.pops = channel.pops ∧
      (after.2.2.pc = .idle ∨ after.2.2.pc.OfEnqueue) ∧
      ∀ slot size, after.2.2.pc ≠ .storing slot size := by
  cases pc with
  | storing slot size =>
      rw [advance, Option.bind_eq_bind, Option.bind_eq_some_iff] at h
      obtain ⟨pool, _, h⟩ := h
      obtain rfl := Option.some.inj h
      exact ⟨rfl, rfl, .inr trivial, by simp⟩
  | pushing slot size =>
      obtain rfl := Option.some.inj h
      rw [pushSlot]
      split <;> exact ⟨rfl, rfl, .inr trivial, by simp⟩
  | notifying =>
      obtain rfl := Option.some.inj h
      exact ⟨rfl, rfl, .inl rfl, by simp⟩
  | releasing slot continuation =>
      cases continuation with
      | busy =>
          rw [advance, Option.bind_eq_bind, Option.bind_eq_some_iff] at h
          obtain ⟨pool, _, h⟩ := h
          obtain rfl := Option.some.inj h
          exact ⟨rfl, rfl, .inr trivial, by simp⟩
      | _ => cases hpc
  | freeing slot continuation =>
      cases continuation with
      | busy =>
          obtain rfl := Option.some.inj h
          exact ⟨rfl, rfl, .inl rfl, by simp⟩
      | _ => cases hpc
  | _ => cases hpc

theorem consistent_enqueue {pc : ClientPc} (hpc : pc.OfEnqueue) :
    Consistent noBuffers id pc := by
  cases pc with
  | releasing slot continuation =>
      cases continuation with
      | busy => trivial
      | _ => cases hpc
  | freeing slot continuation =>
      cases continuation with
      | busy => trivial
      | _ => cases hpc
  | storing _ _ => trivial
  | pushing _ _ => trivial
  | notifying => trivial
  | _ => cases hpc

/-- What a step of a call of `send` does to the packets. -/
inductive SendMoves (channel : UdpChannel slotCount) (sender : Sender) :
    UdpChannel slotCount → SendPc → Prop where
  | keep {channel' : UdpChannel slotCount} {pc : SendPc}
      (storage : SameStorage channel.pool channel'.pool)
      (commits : channel'.commits = channel.commits) (pops : channel'.pops = channel.pops)
      (sent : channel'.sent = channel.sent)
      (offers : pc.offers = none ∨ pc.offers = sender.pc.offers) :
      SendMoves channel sender channel' pc
  | copy {slot : Slot} {pool : PacketPool slotCount} (copying : sender.pc = .copying slot)
      (written : channel.pool.fill (channel.pool.slotBuffer slot) sender.data = some pool) :
      SendMoves channel sender { channel with pool }
        (.enqueueing (.storing slot (BitVec.ofNat 32 sender.data.length)))
  | push {packet : Slot × BitVec 32} {pool : PacketPool slotCount} {pc : SendPc}
      (offered : sender.pc.offers = some packet) (storage : SameStorage channel.pool pool)
      (offers : pc.offers = none) :
      SendMoves channel sender { channel with pool, commits := channel.commits ++ [packet] } pc

/-- A step of `send` transfers slots as the ledger allows. -/
structure SendFollows (channel : UdpChannel slotCount) (id : ClientId) (sender : Sender)
    (after : UdpChannel slotCount × Sender) : Prop where
  busy : sender.pc ≠ .idle
  transfer : ∀ hands : ThreadId → Hand Slot (BitVec 32), hands (.client id) = sender.pc.hand →
    (channel.ledger noBuffers hands).Invariant (IsSlot slotCount) →
    (channel.ledger noBuffers hands).Step (.client id)
      (after.1.ledger noBuffers (Function.update hands (.client id) after.2.pc.hand))
  moves : SendMoves channel sender after.1 after.2.pc
  data : after.2.data = sender.data
  sound : ∀ pc, after.2.pc = .enqueueing pc → pc.OfEnqueue

/-- A step that leaves the channel and the hands of the thread as they are. -/
theorem SendFollows.rest {next : Sender} (hbusy : sender.pc ≠ .idle)
    (hhand : sender.pc.hand = next.pc.hand)
    (hdata : next.data = sender.data) (hoffers : next.pc.offers = none)
    (hsound : ∀ pc, next.pc = .enqueueing pc → pc.OfEnqueue) :
    SendFollows channel id sender (channel, next) where
  busy := hbusy
  transfer := fun _ hpc _ => transfer_rest rfl (hpc.trans hhand)
  moves := .keep (.of_eq rfl) rfl rfl rfl (.inl hoffers)
  data := hdata
  sound := hsound

theorem enqueue_follows {pc : ClientPc} (hpc : pc.OfEnqueue) (hsender : sender.pc = .enqueueing pc)
    {after : UdpChannel slotCount × Buffers × Client}
    (h : channel.advance noBuffers id pc = some after) :
    SendFollows channel id sender (after.1, { sender with
      pc := if after.2.2.pc = .idle then .idle else .enqueueing after.2.2.pc
      result := after.2.2.result }) := by
  obtain ⟨hbuffers, hpops, hnext, hstarts⟩ := advance_enqueue hpc h
  have hfollows := advance_follows (consistent_enqueue hpc) h
  have heffect := advance_effect h
  obtain ⟨channel', buffers, client⟩ := after
  dsimp only at hbuffers hpops hnext hstarts hfollows heffect ⊢
  subst hbuffers
  have hhand : (if client.pc = .idle then SendPc.idle else .enqueueing client.pc).hand =
      client.pc.hand := by
    split_ifs with hidle
    · rw [hidle]
      rfl
    · rfl
  have hoffers : (if client.pc = .idle then SendPc.idle else .enqueueing client.pc).offers =
      client.pc.offers := by
    split_ifs with hidle
    · rw [hidle]
      rfl
    · rfl
  have hoffered : sender.pc.offers = pc.offers := by rw [hsender]; rfl
  refine ⟨by rw [hsender]; nofun, fun hands hpc' hinv => ?_, ?_, rfl, fun next hnext' => ?_⟩
  · dsimp only
    rw [hhand]
    refine hfollows.transfer hands (hpc'.trans ?_) hinv
    rw [hsender]
    rfl
  · generalize (if client.pc = .idle then SendPc.idle else .enqueueing client.pc) = next at hoffers
    obtain ⟨nextPc, result⟩ := client
    dsimp only at hoffers heffect hstarts
    cases heffect with
    | keep storage commits sent _ offers =>
        refine .keep storage commits hpops sent ?_
        rcases offers with hnone | ⟨slot, size, rfl, rfl⟩
        · exact .inl (hoffers.trans hnone)
        · exact .inr (hoffers.trans hoffered.symm)
    | write _ mine _ =>
        rcases mine with ⟨slot, rfl, _⟩ | ⟨_, _, hown, _⟩
        · cases hpc
        · cases hown
    | offer _ => exact absurd rfl (hstarts _ _)
    | push offered storage =>
        refine .push ?_ storage hoffers
        rw [hoffered, offered]
        rfl
  · dsimp only at hnext'
    split_ifs at hnext' with hidle
    obtain rfl := SendPc.enqueueing.inj hnext'
    exact hnext.resolve_left hidle

theorem sendStep_follows (hsound : ∀ pc, sender.pc = .enqueueing pc → pc.OfEnqueue)
    {after : UdpChannel slotCount × Sender} (h : channel.sendStep id sender = some after) :
    SendFollows channel id sender after := by
  unfold sendStep at h
  split at h
  · cases h
  · rename_i hpc
    split_ifs at h <;> obtain rfl := Option.some.inj h <;>
      exact .rest (by rw [hpc]; nofun) (by rw [hpc]; rfl) rfl rfl nofun
  · rename_i hpc
    have hbusy : sender.pc ≠ .idle := by rw [hpc]; nofun
    have hempty : sender.pc.hand = .empty := by rw [hpc]; rfl
    rcases channel.pool.acquireSlot_cases with hnone | ⟨slot, rest, freeSlots, hfree, hpop, rfl⟩
    · rw [hnone] at h
      obtain rfl := Option.some.inj h
      exact .rest hbusy hempty rfl rfl nofun
    · rw [hpop] at h
      obtain rfl := Option.some.inj h
      refine ⟨hbusy, fun hands hhand _ => ?_, .keep ⟨rfl, rfl⟩ rfl rfl rfl (.inl rfl), rfl, nofun⟩
      exact .take hfree (congrArg Hand.item (hhand.trans hempty))
  · rename_i slot hpc
    rw [Option.bind_eq_bind, Option.bind_eq_some_iff] at h
    obtain ⟨pool, hfill, h⟩ := h
    obtain rfl := Option.some.inj h
    refine ⟨by rw [hpc]; nofun, fun hands hhand _ => ?_, .copy hpc hfill, rfl,
      fun pc hnext => ?_⟩
    · refine transfer_rest (ledger_fill hfill hands) (hhand.trans ?_)
      rw [hpc]
      rfl
    · cases hnext
      trivial
  · rename_i pc hpc
    rw [Option.bind_eq_bind, Option.bind_eq_some_iff] at h
    obtain ⟨after, hadvance, h⟩ := h
    obtain rfl := Option.some.inj h
    exact enqueue_follows (hsound pc hpc) hpc hadvance

end Send

section Work

variable {pc : WorkerPc} {socketOpen : Bool}

/-- What a step of the worker does to the packets. -/
inductive WorkMoves (channel : UdpChannel slotCount) (pc : WorkerPc) :
    UdpChannel slotCount → WorkerPc → Prop where
  | rest {next : WorkerPc} (hand : next.hand = pc.hand) : WorkMoves channel pc channel next
  | pop {slot : Slot} {rest : List Slot} {pendingSlots : FixedRingQueue Slot slotCount}
      (pending : channel.pool.pendingSlots.toList = slot :: rest)
      (left : pendingSlots.toList = rest) (empty : pc.hand = .empty) :
      WorkMoves channel pc
        { channel with
          pool := { channel.pool with pendingSlots }, pops := channel.pops ++ [slot] }
        (.sizing slot channel.pops.length)
  | read {slot : Slot} {index : Nat} {size : BitVec 32} (held : pc.hand = .popped slot index)
      (size_eq : channel.pool.packetSize slot = some size) :
      WorkMoves channel pc channel (.sending slot size index)
  | send {slot : Slot} {size : BitVec 32} {index : Nat} {bytes : List Byte}
      (held : pc.hand = .taken slot size index)
      (read : channel.pool.slotStart (slot, size) = some bytes) :
      WorkMoves channel pc { channel with sent := channel.sent ++ [bytes] } (.releasing slot)
  | store {slot : Slot} {pool : PacketPool slotCount} (held : pc.hand = .holding slot)
      (stored : channel.pool.storeSize slot 0 = some pool) :
      WorkMoves channel pc { channel with pool } (.freeing slot)
  | free {slot : Slot} (held : pc.hand = .stored slot 0) :
      WorkMoves channel pc { channel with pool := (channel.pool.pushFree slot).2 } .polling

/-- The socket is open while the worker runs. -/
theorem workStep_moves {after : UdpChannel slotCount × WorkerPc}
    (h : channel.workStep true pc = some after) : WorkMoves channel pc after.1 after.2 := by
  cases pc with
  | loop =>
      obtain rfl := Option.some.inj h
      exact .rest (by dsimp only; split <;> rfl)
  | polling =>
      obtain rfl := Option.some.inj h
      exact .rest (by dsimp only; split <;> rfl)
  | popping =>
      rw [workStep] at h
      rcases channel.pool.popPending_cases with
        hempty | ⟨slot, rest, pendingSlots, hpending, hpop, hleft⟩
      · rw [hempty] at h
        obtain rfl := Option.some.inj h
        exact .rest rfl
      · rw [hpop] at h
        obtain rfl := Option.some.inj h
        exact .pop hpending hleft rfl
  | sizing slot index =>
      rw [workStep, Option.bind_eq_bind, Option.bind_eq_some_iff] at h
      obtain ⟨size, hsize, h⟩ := h
      obtain rfl := Option.some.inj h
      exact .read rfl hsize
  | sending slot size index =>
      rw [workStep, if_pos rfl, Option.bind_eq_bind, Option.bind_eq_some_iff] at h
      obtain ⟨bytes, hbytes, h⟩ := h
      obtain rfl := Option.some.inj h
      exact .send rfl hbytes
  | releasing slot =>
      rw [workStep, Option.bind_eq_bind, Option.bind_eq_some_iff] at h
      obtain ⟨pool, hstore, h⟩ := h
      obtain rfl := Option.some.inj h
      exact .store rfl hstore
  | freeing slot =>
      obtain rfl := Option.some.inj h
      exact .free rfl
  | receiving =>
      obtain rfl := Option.some.inj h
      exact .rest rfl
  | sleeping =>
      obtain rfl := Option.some.inj h
      exact .rest rfl
  | finished => cases h

theorem WorkMoves.transfers {channel' : UdpChannel slotCount} {next : WorkerPc}
    (h : WorkMoves channel pc channel' next) {hands : ThreadId → Hand Slot (BitVec 32)}
    (hinv : (channel.ledger noBuffers hands).Invariant (IsSlot slotCount))
    (hhand : hands .tx = pc.hand) :
    (channel.ledger noBuffers hands).Step .tx
      (channel'.ledger noBuffers (Function.update hands .tx next.hand)) := by
  cases h with
  | rest hand => exact transfer_rest rfl (hhand.trans hand.symm)
  | pop pending left empty =>
      subst left
      exact .pop pending (congrArg Hand.item (hhand.trans empty))
  | read held size_eq => exact .read (hhand.trans held) size_eq
  | send held read => exact .forget (congrArg Hand.item (hhand.trans held))
  | store held stored =>
      rw [ledger_store stored]
      exact .store 0 (congrArg Hand.item (hhand.trans held))
  | @free slot held =>
      have hheld := congrArg Hand.item (hhand.trans held)
      rw [ledger_pushFree slot (free_room hinv (.hands .tx) hheld nofun)]
      exact .give hheld

theorem WorkMoves.keeps {channel' : UdpChannel slotCount} {next : WorkerPc}
    (h : WorkMoves channel pc channel' next) :
    SameStorage channel.pool channel'.pool ∧ channel'.commits = channel.commits := by
  cases h with
  | store _ stored => exact ⟨storeSize_storage stored, rfl⟩
  | _ => exact ⟨⟨rfl, rfl⟩, rfl⟩

end Work

end UdpChannel

namespace WorkerChannel

variable {slotCount : Nat}

def hands (system : WorkerChannel slotCount) : ThreadId → Hand Slot (BitVec 32)
  | .tx => system.worker.hand
  | .client id => (system.senders id).pc.hand

def ledger (system : WorkerChannel slotCount) : Ledger Slot BufferId ThreadId (BitVec 32) :=
  system.channel.ledger UdpChannel.noBuffers system.hands

def cargo (system : WorkerChannel slotCount) : Cargo Slot (BitVec 32) (Option (List Byte)) where
  contents := system.channel.pool.slotStart
  payloads := system.accepted.map some

/-- How many of the accepted packets the worker has gone past. -/
def passed (system : WorkerChannel slotCount) : Nat :=
  match system.worker.hand.carries with
  | some (_, index) => index
  | none => system.channel.pops.length

/-- What a call of `send` knows: its data fits into a slot, and what it is about to
push is its data. -/
structure Prepared (pool : PacketPool slotCount) (sender : Sender) : Prop where
  fits : sender.pc ≠ .idle → sender.data.length ≤ udpPacketCap
  enqueues : ∀ pc, sender.pc = .enqueueing pc → pc.OfEnqueue
  offers : ∀ packet, sender.pc.offers = some packet →
    packet.2.toNat ≤ udpPacketCap ∧ pool.slotStart packet = some sender.data

/-- The invariant of a plain channel and its threads. -/
structure Delivers (system : WorkerChannel slotCount) : Prop where
  ledger : system.ledger.Invariant (UdpChannel.IsSlot slotCount)
  cap : system.channel.pool.packetCap.toNat = udpPacketCap
  arena : slotCount * udpPacketCap < 2 ^ 32
  senders : ∀ id, Prepared system.channel.pool (system.senders id)
  fits : ∀ packet ∈ system.channel.commits, packet.2.toNat ≤ udpPacketCap
  intact : system.cargo.Intact system.ledger
  last : ∀ slot index, system.worker.hand.carries = some (slot, index) →
    system.channel.pops.length = index + 1
  sent : system.channel.sent = system.accepted.take system.passed
  socket : system.worker ≠ .finished → system.socketOpen = true

theorem hands_sender (system : WorkerChannel slotCount) (channel : UdpChannel slotCount)
    (id : ClientId) (sender : Sender) (accepted : List (List Byte)) :
    hands { system with channel, senders := Function.update system.senders id sender, accepted } =
      Function.update system.hands (.client id) sender.pc.hand := by
  funext thread
  cases thread with
  | tx => rfl
  | client other =>
      by_cases hother : other = id
      · subst hother
        rw [Function.update_self]
        simp only [hands, Function.update_self]
      · rw [Function.update_of_ne (by simpa using hother)]
        simp only [hands, Function.update_of_ne hother]

theorem hands_worker (system : WorkerChannel slotCount) (channel : UdpChannel slotCount)
    (worker : WorkerPc) :
    hands { system with channel, worker } = Function.update system.hands .tx worker.hand := by
  funext thread
  cases thread with
  | tx => rfl
  | client other => rfl

theorem offers_item {pc : SendPc} {packet : Slot × BitVec 32} (h : pc.offers = some packet) :
    pc.hand.item = some packet.1 := by
  cases pc with
  | enqueueing pc => cases pc <;> cases h <;> rfl
  | _ => cases h

section Sends

variable {system : WorkerChannel slotCount} {id : ClientId} {channel : UdpChannel slotCount}
  {sender : Sender}

theorem Delivers.passed_le (h : system.Delivers) : system.passed ≤ system.channel.pops.length := by
  unfold passed
  split
  · rename_i slot index hcarries
    exact Nat.le_of_lt (h.intact.carried .tx slot index hcarries).1
  · exact Nat.le_refl _

theorem Delivers.count (h : system.Delivers) :
    system.accepted.length = system.channel.commits.length := by
  have hlength := h.intact.length
  change (system.accepted.map some).length = system.channel.commits.length at hlength
  rwa [List.length_map] at hlength

/-- A slot at another place than the hands of a thread is not written to by it. -/
theorem kept_by_sender (h : system.Delivers)
    (hmoves : UdpChannel.SendMoves system.channel (system.senders id) channel sender.pc)
    {packet : Slot × BitVec 32} {place : Place BufferId ThreadId}
    (hat : system.ledger.At packet.1 place) (hplace : place ≠ .hands (.client id))
    (hsize : packet.2.toNat ≤ udpPacketCap) :
    channel.pool.slotStart packet = system.channel.pool.slotStart packet := by
  generalize sender.pc = next at hmoves
  cases hmoves with
  | keep storage _ _ _ _ => exact congrFun storage.slotStart packet
  | push _ storage _ => exact congrFun storage.slotStart packet
  | @copy slot pool copying written =>
      have hmine : system.ledger.At slot (.hands (.client id)) := by
        change (system.senders id).pc.hand.item = some slot
        rw [copying]
        rfl
      refine slotStart_apart (h.cap ▸ h.arena) (h.ledger.placed.isValid _ _ hat)
        (h.ledger.placed.isValid _ _ hmine) (fun hsame => hplace ?_) (h.cap ▸ hsize) written
      exact h.ledger.placed.unique slot place _ (hsame ▸ hat) hmine

/-- No thread that sends has popped a packet. -/
theorem sender_carries (h : system.Delivers) (id : ClientId) :
    (system.senders id).pc.hand.carries = none := by
  cases hpc : (system.senders id).pc with
  | enqueueing pc =>
      have henqueues := (h.senders id).enqueues pc hpc
      cases pc with
      | releasing slot continuation => cases continuation <;> rfl
      | freeing slot continuation => cases continuation <;> rfl
      | dropping slot index => cases henqueues
      | _ => rfl
  | _ => rfl

theorem sealed_elsewhere (h : system.Delivers) (id : ClientId) {slot : Slot}
    (hsealed : system.ledger.Sealed slot) :
    ∃ place, system.ledger.At slot place ∧ place ≠ .hands (.client id) := by
  rcases hsealed with hpending | ⟨thread, index, hcarries⟩
  · exact ⟨.pending, hpending, nofun⟩
  · refine ⟨.hands thread, Hand.item_of_carries hcarries, fun hsame => ?_⟩
    cases hsame
    have hnone := sender_carries h id
    change (system.senders id).pc.hand.carries = some (slot, index) at hcarries
    rw [hnone] at hcarries
    cases hcarries

/-- What a step of `send` adds to the packets accepted is the data of the call, which
the slot that it pushes holds. -/
theorem sender_adds (h : system.Delivers)
    (hmoves : UdpChannel.SendMoves system.channel (system.senders id) channel sender.pc) :
    ∀ packet ∈ channel.commits.drop system.channel.commits.length,
      packet.2.toNat ≤ udpPacketCap ∧
        channel.pool.slotStart packet = some (system.senders id).data := by
  intro packet member
  generalize sender.pc = next at hmoves
  cases hmoves with
  | keep _ commits _ _ _ =>
      rw [commits, List.drop_length] at member
      cases member
  | copy _ _ =>
      dsimp only at member
      rw [List.drop_length] at member
      cases member
  | push offered storage _ =>
      dsimp only at member
      rw [List.drop_left] at member
      obtain rfl := List.mem_singleton.mp member
      obtain ⟨hsize, hdata⟩ := (h.senders id).offers packet offered
      exact ⟨hsize, by rw [← hdata, storage.slotStart]⟩

/-- The sender itself stays prepared. -/
theorem sender_prepared (h : system.Delivers)
    (hfollows : UdpChannel.SendFollows system.channel id (system.senders id) (channel, sender)) :
    Prepared channel.pool sender := by
  obtain ⟨hbusy, _, hmoves, hdata, hsound⟩ := hfollows
  have hprepared := h.senders id
  dsimp only at hmoves hdata hsound
  refine ⟨fun _ => hdata ▸ hprepared.fits hbusy, hsound, fun packet hoffers => ?_⟩
  · rw [hdata]
    generalize sender.pc = next at hmoves hoffers
    cases hmoves with
    | keep storage _ _ _ offers =>
        rcases offers with hnone | hsame
        · rw [hnone] at hoffers
          cases hoffers
        · rw [storage.slotStart]
          exact hprepared.offers packet (hsame ▸ hoffers)
    | copy copying written =>
        cases hoffers
        have hfits := hprepared.fits (by rw [copying]; nofun)
        have hsize : (BitVec.ofNat 32 (system.senders id).data.length).toNat =
            (system.senders id).data.length := by
          rw [BitVec.toNat_ofNat]
          refine Nat.mod_eq_of_lt (hfits.trans_lt ?_)
          decide
        exact ⟨hsize.trans_le hfits, slotStart_filled hsize written⟩
    | push _ _ offers =>
        rw [offers] at hoffers
        cases hoffers

/-- A step of a call of `send`. -/
theorem sender_delivers (h : system.Delivers)
    (hsend : system.channel.sendStep id (system.senders id) = some (channel, sender)) :
    Delivers { system with
      channel
      senders := Function.update system.senders id sender
      accepted := system.accepted ++
        (channel.commits.drop system.channel.commits.length).map fun _ => sender.data } := by
  have hfollows := UdpChannel.sendStep_follows (h.senders id).enqueues hsend
  obtain ⟨_, htransfer, hmoves, hdata, _⟩ := hfollows
  dsimp only at hmoves hdata
  have hadds := sender_adds h hmoves
  have hpacketCap : channel.pool.packetCap = system.channel.pool.packetCap := by
    generalize sender.pc = next at hmoves
    cases hmoves with
    | keep storage _ _ _ _ => exact storage.1
    | copy _ written => exact (fill_arena written).1
    | push _ storage _ => exact storage.1
  have hpops : channel.pops = system.channel.pops := by
    generalize sender.pc = next at hmoves
    cases hmoves with
    | keep _ _ pops _ _ => exact pops
    | _ => rfl
  have hsent : channel.sent = system.channel.sent := by
    generalize sender.pc = next at hmoves
    cases hmoves with
    | keep _ _ _ sent _ => exact sent
    | _ => rfl
  have hstep : system.ledger.Step (.client id) (ledger { system with
      channel
      senders := Function.update system.senders id sender
      accepted := system.accepted ++
        (channel.commits.drop system.channel.commits.length).map fun _ => sender.data }) := by
    rw [ledger, ledger, hands_sender]
    exact htransfer system.hands rfl h.ledger
  have hprefix : system.channel.commits <+: channel.commits := hstep.commits_prefix
  refine ⟨hstep.invariant h.ledger, hpacketCap ▸ h.cap, h.arena, fun other => ?_,
    fun packet member => ?_, ?_, fun slot index hcarries => ?_, ?_, h.socket⟩
  · by_cases hother : other = id
    · subst hother
      simp only [Function.update_self]
      exact sender_prepared h (UdpChannel.sendStep_follows (h.senders other).enqueues hsend)
    · simp only [Function.update_of_ne hother]
      obtain ⟨hfits, henqueues, hoffers⟩ := h.senders other
      refine ⟨hfits, henqueues, fun packet hpacket => ?_⟩
      obtain ⟨hsize, hstart⟩ := hoffers packet hpacket
      have hat : system.ledger.At packet.1 (.hands (.client other)) := offers_item hpacket
      refine ⟨hsize, ?_⟩
      rw [kept_by_sender h hmoves hat (fun hsame => hother (by cases hsame; rfl)) hsize, hstart]
  · obtain ⟨added, hadded⟩ := hprefix
    dsimp only at member
    rw [← hadded] at hadds member
    rw [List.drop_left] at hadds
    rcases List.mem_append.mp member with hold | hnew
    · exact h.fits packet hold
    · exact (hadds packet hnew).1
  · refine h.intact.step h.ledger hstep (fun packet member hsealed => ?_) ?_
    · obtain ⟨place, hat, hplace⟩ := sealed_elsewhere h id hsealed
      exact kept_by_sender h hmoves hat hplace (h.fits packet member)
    · change (system.accepted ++ (channel.commits.drop system.channel.commits.length).map
        fun _ => sender.data).map some = system.accepted.map some ++ _
      rw [List.map_append, List.map_map]
      refine congrArg (system.accepted.map some ++ ·) (List.map_congr_left fun packet member => ?_)
      rw [Function.comp_apply, hdata]
      exact (hadds packet member).2.symm
  · dsimp only
    rw [hpops]
    exact h.last slot index hcarries
  · have hpassed : system.passed ≤ system.accepted.length := by
      rw [h.count]
      exact h.passed_le.trans h.ledger.pops_le
    have hsame : system.passed = passed { system with
        channel
        senders := Function.update system.senders id sender
        accepted := system.accepted ++
          (channel.commits.drop system.channel.commits.length).map fun _ => sender.data } := by
      simp only [passed, hpops]
    rw [← hsame]
    dsimp only
    rw [hsent, List.take_append_of_le_length hpassed]
    exact h.sent

end Sends

section Work

variable {system : WorkerChannel slotCount} {channel : UdpChannel slotCount} {worker : WorkerPc}

/-- A step of the worker. -/
theorem worker_delivers (h : system.Delivers)
    (hwork : system.channel.workStep system.socketOpen system.worker = some (channel, worker)) :
    Delivers { system with channel, worker } := by
  have hrunning : system.worker ≠ .finished := by
    intro hfinished
    rw [hfinished] at hwork
    cases hwork
  have hopen := h.socket hrunning
  rw [hopen] at hwork
  have hmoves := UdpChannel.workStep_moves hwork
  obtain ⟨hstorage, hcommits⟩ := hmoves.keeps
  dsimp only at hmoves hstorage hcommits
  have hstart := hstorage.slotStart
  have hstep : system.ledger.Step .tx (ledger { system with channel, worker }) := by
    rw [ledger, ledger, hands_worker system channel worker]
    exact hmoves.transfers h.ledger rfl
  refine ⟨hstep.invariant h.ledger, hstorage.1 ▸ h.cap, h.arena, fun id => ?_,
    fun packet member => h.fits packet (hcommits ▸ member), ?_, fun slot index hcarries => ?_, ?_,
    fun _ => hopen⟩
  · obtain ⟨hfits, henqueues, hoffers⟩ := h.senders id
    refine ⟨hfits, henqueues, fun packet hpacket => ?_⟩
    dsimp only
    rw [hstart]
    exact hoffers packet hpacket
  · refine h.intact.step h.ledger hstep (fun packet _ _ => congrFun hstart packet) ?_
    change system.accepted.map some = system.accepted.map some ++
      (channel.commits.drop system.channel.commits.length).map channel.pool.slotStart
    rw [hcommits, List.drop_length, List.map_nil, List.append_nil]
  · have hlast := h.last
    generalize system.worker = pc at hmoves hlast
    cases hmoves with
    | rest hand => exact hlast slot index (hand ▸ hcarries)
    | pop pending left empty =>
        cases hcarries
        exact List.length_append
    | read held size_eq =>
        cases hcarries
        exact hlast _ _ (by rw [held]; rfl)
    | _ => cases hcarries
  · have hsent := h.sent
    have hrelies := h.ledger.relies .tx
    have hcarried := h.intact.carried .tx
    have hlast := h.last
    change system.ledger.Relies system.worker.hand at hrelies
    change ∀ item index, system.worker.hand.carries = some (item, index) → _ at hcarried
    generalize hpc : system.worker = pc at hmoves
    simp only [passed, hpc] at hsent ⊢
    rw [hpc] at hcarried hrelies hlast
    cases hmoves with
    | rest hand =>
        rw [hand]
        exact hsent
    | @send slot size index bytes held read =>
        rw [held] at hsent hcarried hrelies hlast
        obtain ⟨_, hpayload⟩ := hcarried slot index rfl
        have hat : (system.accepted.map some)[index]? = some (some bytes) :=
          (hpayload size hrelies).trans (congrArg some read)
        rw [List.getElem?_map, Option.map_eq_some_iff] at hat
        obtain ⟨stored, hat, hstored⟩ := hat
        obtain rfl := Option.some.inj hstored
        have hnext : system.channel.pops.length = index + 1 := hlast slot index rfl
        change system.channel.sent ++ [_] = system.accepted.take system.channel.pops.length
        rw [hnext, List.take_add_one, hat, hsent]
        rfl
    | pop pending left empty =>
        rw [empty] at hsent
        exact hsent
    | read held size_eq =>
        rw [held] at hsent
        exact hsent
    | store held stored =>
        rw [held] at hsent
        exact hsent
    | free held =>
        rw [held] at hsent
        exact hsent

end Work

/-! ## Runs -/

theorem begin_delivers {system next : WorkerChannel slotCount} {id : ClientId} {data : List Byte}
    (h : system.Delivers) (hbegin : system.beginSend id data = some next) : next.Delivers := by
  obtain ⟨sender, hidle, hempty, hprepared, rfl⟩ : ∃ sender : Sender,
      (system.senders id).pc = .idle ∧ sender.pc.hand = .empty ∧
        Prepared system.channel.pool sender ∧
        next = { system with senders := Function.update system.senders id sender } := by
    rw [beginSend] at hbegin
    split at hbegin
    · cases hbegin
    · rename_i hidle
      refine ⟨_, not_not.mp hidle, ?_, ?_, (Option.some.inj hbegin).symm⟩
      · split_ifs <;> rfl
      · split_ifs with hlarge
        · exact ⟨fun hbusy => absurd rfl hbusy, nofun, nofun⟩
        · exact ⟨fun _ => Nat.le_of_not_lt hlarge, nofun, nofun⟩
  have hhands : hands { system with senders := Function.update system.senders id sender } =
      system.hands := by
    rw [hands_sender system system.channel id sender system.accepted, hempty,
      Function.update_eq_self_iff]
    exact (congrArg SendPc.hand hidle).symm
  have hledger : ledger { system with senders := Function.update system.senders id sender } =
      system.ledger := by
    rw [ledger, hhands]
    rfl
  refine ⟨hledger ▸ h.ledger, h.cap, h.arena, fun other => ?_, h.fits, ?_, h.last, h.sent,
    h.socket⟩
  · by_cases hother : other = id
    · subst hother
      simpa only [Function.update_self] using hprepared
    · simpa only [Function.update_of_ne hother] using h.senders other
  · rw [hledger]
    exact h.intact

theorem step_delivers (system : WorkerChannel slotCount) (action : WorkerAction)
    (next : WorkerChannel slotCount) (h : system.Delivers)
    (hstep : system.step action = some next) : next.Delivers := by
  cases action with
  | send id data =>
      exact begin_delivers h hstep
  | advance id =>
      rw [step, Option.bind_eq_bind, Option.bind_eq_some_iff] at hstep
      obtain ⟨⟨channel, sender⟩, hsend, hstep⟩ := hstep
      obtain rfl := Option.some.inj hstep
      exact sender_delivers h hsend
  | work =>
      rw [step, Option.bind_eq_bind, Option.bind_eq_some_iff] at hstep
      obtain ⟨⟨channel, worker⟩, hwork, hstep⟩ := hstep
      obtain rfl := Option.some.inj hstep
      exact worker_delivers h hwork
  | stop =>
      obtain rfl := Option.some.inj hstep
      exact ⟨h.ledger, h.cap, h.arena, h.senders, h.fits, h.intact, h.last, h.sent, h.socket⟩
  | requestStop =>
      rw [step] at hstep
      split_ifs at hstep
      obtain rfl := Option.some.inj hstep
      exact ⟨h.ledger, h.cap, h.arena, h.senders, h.fits, h.intact, h.last, h.sent, h.socket⟩
  | cancelWait =>
      rw [step] at hstep
      split_ifs at hstep
      obtain rfl := Option.some.inj hstep
      exact ⟨h.ledger, h.cap, h.arena, h.senders, h.fits, h.intact, h.last, h.sent, h.socket⟩
  | close =>
      rw [step] at hstep
      split_ifs at hstep with hclosed
      obtain rfl := Option.some.inj hstep
      exact ⟨h.ledger, h.cap, h.arena, h.senders, h.fits, h.intact, h.last, h.sent,
        fun hrunning => absurd hclosed.2 hrunning⟩

theorem openUdp_delivers {sendQueueSlots : BitVec 32}
    {system : WorkerChannel sendQueueSlots.toNat} (hopen : openUdp sendQueueSlots = some system) :
    system.Delivers := by
  rw [openUdp, Option.bind_eq_bind, Option.bind_eq_some_iff] at hopen
  obtain ⟨storage, hstorage, hopen⟩ := hopen
  obtain rfl := Option.some.inj hopen
  obtain ⟨hfits, _⟩ := makeSendStorage_accepted hstorage
  let packetCap := BitVec.ofNat 32 udpPacketCap
  have hvalid := (ChannelSystem.init_valid storage sendQueueSlots packetCap).ledger
  have hhands : hands { channel := { pool := .init storage sendQueueSlots packetCap } } =
      (ChannelSystem.init storage sendQueueSlots packetCap).hands := by
    funext thread
    cases thread <;> rfl
  refine ⟨?_, rfl, hfits, fun _ => ⟨fun hbusy => absurd rfl hbusy, nofun, nofun⟩, nofun,
    ⟨rfl, nofun, fun thread _ _ hcarries => ?_⟩, nofun, rfl, fun _ => rfl⟩
  · rw [ledger, hhands]
    exact hvalid
  · cases thread <;> cases hcarries

/-- The packets that the worker has popped and not yet given to the socket. -/
def inHand (system : WorkerChannel slotCount) : Nat :=
  if system.worker.hand.carries.isSome then 1 else 0

theorem Delivers.popped {system : WorkerChannel slotCount} (h : system.Delivers) :
    system.accepted.length = system.channel.pops.length + system.channel.pool.pendingCount := by
  have hhistory := congrArg List.length h.ledger.history
  rw [List.length_map, List.length_append] at hhistory
  have hpending : system.ledger.pending.length = system.channel.pool.pendingCount :=
    FixedRingQueue.length_toList _
  rw [h.count, ← hpending]
  exact hhistory

/-- Every packet accepted has been sent, is in the hands of the worker or is pending. -/
theorem Delivers.accounts {system : WorkerChannel slotCount} (h : system.Delivers) :
    system.accepted.length =
      system.channel.sent.length + system.inHand + system.channel.pool.pendingCount := by
  have hpopped := h.popped
  have hsent := congrArg List.length h.sent
  have hpassed := h.passed_le
  have hlast := h.last
  rw [List.length_take] at hsent
  unfold inHand
  unfold passed at hsent hpassed
  cases hcarries : system.worker.hand.carries with
  | none =>
      simp only [hcarries] at hsent hpassed
      simp only [Option.isSome_none, Bool.false_eq_true, if_false]
      omega
  | some carried =>
      obtain ⟨slot, index⟩ := carried
      have hnext := hlast slot index hcarries
      simp only [hcarries] at hsent hpassed
      simp only [Option.isSome_some, if_true]
      omega

/-- No step takes back what was accepted or popped. -/
theorem step_grows {system next : WorkerChannel slotCount} {action : WorkerAction}
    (h : system.Delivers) (hstep : system.step action = some next) :
    system.accepted <+: next.accepted ∧
      system.channel.pops.length ≤ next.channel.pops.length := by
  cases action with
  | send id data =>
      rw [step, beginSend] at hstep
      split at hstep
      · cases hstep
      · obtain rfl := Option.some.inj hstep
        exact ⟨List.prefix_rfl, Nat.le_refl _⟩
  | advance id =>
      rw [step, Option.bind_eq_bind, Option.bind_eq_some_iff] at hstep
      obtain ⟨⟨channel, sender⟩, hsend, hstep⟩ := hstep
      obtain rfl := Option.some.inj hstep
      have hmoves := (UdpChannel.sendStep_follows (h.senders id).enqueues hsend).moves
      dsimp only at hmoves ⊢
      refine ⟨List.prefix_append _ _, ?_⟩
      generalize sender.pc = next at hmoves
      cases hmoves with
      | keep _ _ pops _ _ => rw [pops]
      | _ => exact Nat.le_refl _
  | work =>
      rw [step, Option.bind_eq_bind, Option.bind_eq_some_iff] at hstep
      obtain ⟨⟨channel, worker⟩, hwork, hstep⟩ := hstep
      obtain rfl := Option.some.inj hstep
      refine ⟨List.prefix_rfl, ?_⟩
      have hrunning : system.worker ≠ .finished := by
        intro hfinished
        rw [hfinished] at hwork
        cases hwork
      rw [h.socket hrunning] at hwork
      cases UdpChannel.workStep_moves hwork with
      | pop _ _ _ => exact (List.prefix_append _ _).length_le
      | _ => exact Nat.le_refl _
  | stop =>
      obtain rfl := Option.some.inj hstep
      exact ⟨List.prefix_rfl, Nat.le_refl _⟩
  | _ =>
      rw [step] at hstep
      split_ifs at hstep
      obtain rfl := Option.some.inj hstep
      exact ⟨List.prefix_rfl, Nat.le_refl _⟩

theorem inHand_finished {system : WorkerChannel slotCount} (h : system.worker = .finished) :
    system.inHand = 0 := by
  rw [inHand, h]
  rfl

/-- In every interleaving the plain channel gives to the socket what its calls of `send`
accepted, as it was given to them, in that order and each once. When the worker has ended
only what is still pending is left; once the queue has been seen empty, as
`flush_pending_sends` waits for, a stop loses nothing that was accepted before. -/
theorem accepted_is_sent (sendQueueSlots : BitVec 32) (start : WorkerChannel sendQueueSlots.toNat)
    (hopen : openUdp sendQueueSlots = some start) (actions : List WorkerAction)
    (system : WorkerChannel sendQueueSlots.toNat)
    (hrun : Steps.run step start actions = some system) :
    system.channel.sent <+: system.accepted ∧
      system.accepted.length =
        system.channel.sent.length + system.inHand + system.channel.pool.pendingCount ∧
      (system.worker = .finished → system.inHand = 0) ∧
      ∀ (more : List WorkerAction) (later : WorkerChannel sendQueueSlots.toNat),
        Steps.run step system more = some later → system.channel.pool.pendingCount = 0 →
          later.worker = .finished → system.accepted <+: later.channel.sent := by
  have hdelivers : system.Delivers :=
    Steps.run_invariant step_delivers hrun (openUdp_delivers hopen)
  refine ⟨hdelivers.sent ▸ List.take_prefix _ _, hdelivers.accounts, inHand_finished,
    fun more later hmore hempty hfinished => ?_⟩
  obtain ⟨hlater, haccepted, hpops⟩ : later.Delivers ∧ system.accepted <+: later.accepted ∧
      system.channel.pops.length ≤ later.channel.pops.length := by
    refine Steps.run_invariant (P := fun state => state.Delivers ∧
      system.accepted <+: state.accepted ∧
      system.channel.pops.length ≤ state.channel.pops.length) ?_ hmore
      ⟨hdelivers, List.prefix_rfl, Nat.le_refl _⟩
    intro state action next h hstep
    obtain ⟨hgrows, hpopped⟩ := step_grows h.1 hstep
    exact ⟨step_delivers state action next h.1 hstep, h.2.1.trans hgrows, h.2.2.trans hpopped⟩
  -- all that had been accepted had been popped, and what is popped has been sent
  have hall : system.accepted.length = system.channel.pops.length := by
    rw [hdelivers.popped, hempty, Nat.add_zero]
  have hsent : later.channel.sent = later.accepted.take later.channel.pops.length := by
    have hsame := hlater.sent
    rwa [passed, hfinished] at hsame
  rw [hsent, List.prefix_take_iff]
  exact ⟨haccepted, hall ▸ hpops⟩

/-- The queue is seen empty while the worker still has the packet in its hands. -/
def popRun : List WorkerAction :=
  .send 0 [1, 2] :: List.replicate 6 (.advance 0) ++ List.replicate 3 .work

def stopRun : List WorkerAction := [.stop, .requestStop] ++ List.replicate 8 .work

theorem popped_packet_is_sent : ∃ start system later, openUdp 1 = some start ∧
    Steps.run step start popRun = some system ∧ Steps.run step system stopRun = some later ∧
    system.channel.sent = [] ∧ system.accepted = [[1, 2]] ∧
    system.accepted <+: later.channel.sent := by
  obtain ⟨start, hopen, hruns⟩ : ∃ start, openUdp 1 = some start ∧
      (Steps.run step start popRun).map (fun system => (system.channel.pool.pendingCount,
        system.channel.sent, system.accepted,
        (Steps.run step system stopRun).map fun later => later.worker)) =
      some (0, [], [[1, 2]], some .finished) := ⟨_, rfl, by decide +kernel⟩
  obtain ⟨system, hsystem, hstate⟩ := Option.map_eq_some_iff.mp hruns
  simp only [Prod.mk.injEq] at hstate
  obtain ⟨hempty, hsent, haccepted, hlater⟩ := hstate
  obtain ⟨later, hlater, hfinished⟩ := Option.map_eq_some_iff.mp hlater
  exact ⟨start, system, later, hopen, hsystem, hlater, hsent, haccepted,
    (accepted_is_sent 1 start hopen popRun system hsystem).2.2.2 stopRun later hlater hempty
      hfinished⟩

end WorkerChannel

end ServoFleet
