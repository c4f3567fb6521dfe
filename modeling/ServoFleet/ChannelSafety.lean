import ServoFleet.SpentBuffers

/-!
What holds of the slots of a channel in every interleaving of its threads: any
number of clients, the transmit thread and those that stop the channel, with any
number of slots of any size.

That a client ever gives back a packet buffer is not assumed, so nothing is said
here of when a slot is free again.
-/

namespace ServoFleet.ChannelSystem

open SlotLedger

variable {slotCount : Nat}

/-- The thread is about to push the slot to the free ring. -/
def Frees (system : ChannelSystem slotCount) (slot : Slot) : ThreadId → Prop
  | .tx => system.tx = .freeing slot
  | .client id => ∃ continuation, (system.clients id).pc = .freeing slot continuation

/-- The packet was the given one of those committed, and its size is still noted. -/
def Popped (system : ChannelSystem slotCount) (slot : Slot) (index : Nat) : Prop :=
  ∃ size, system.channel.commits[index]? = some (slot, size) ∧
    system.channel.pool.packetSize slot = some size

/-- Every slot is in one place, the rings never refuse one, packets are popped as
they were committed, and no thread in a call is stuck at an index out of range. -/
structure Sound (system : ChannelSystem slotCount) : Prop where
  placed : ∀ slot : Slot, slot.toNat < slotCount → ∃! place, system.ledger.At slot place
  inside : ∀ (slot : Slot) (place), system.ledger.At slot place → slot.toNat < slotCount
  free_once : system.channel.pool.freeSlots.toList.Nodup
  pending_once : system.channel.pool.pendingSlots.toList.Nodup
  enqueued : ∀ id slot size, (system.clients id).pc = .pushing slot size →
    (system.channel.pool.pushPending slot).1 = true
  freed : ∀ thread slot, system.Frees slot thread → (system.channel.pool.pushFree slot).1 = true
  in_order : system.channel.commits.map Prod.fst =
    system.channel.pops ++ system.channel.pool.pendingSlots.toList
  pending_sizes : ∀ packet ∈ system.channel.commits.drop system.channel.pops.length,
    system.channel.pool.packetSize packet.1 = some packet.2
  dropped : ∀ id slot index, (system.clients id).pc = .dropping slot index →
    system.Popped slot index
  popped : ∀ slot index, system.tx = .sizing slot index → system.Popped slot index
  transmitted : ∀ slot size index, system.tx.hand = .taken slot size index →
    system.channel.commits[index]? = some (slot, size)
  clients_go_on : ∀ id, (system.clients id).pc ≠ .idle →
    (∀ slot, (system.clients id).pc ≠ .acquired slot) →
    (system.step (.client id .advance)).isSome
  tx_goes_on : ∀ slot, (system.tx = .releasing slot ∨ ∃ index, system.tx = .sizing slot index) →
    (system.step (.tx .advance)).isSome

section Sound

variable {system : ChannelSystem slotCount} (h : system.Valid)

include h

theorem held_isSlot {thread : ThreadId} {slot : Slot}
    (hheld : (system.hands thread).item = some slot) : slot.toNat < slotCount :=
  h.ledger.placed.isValid slot (.hands thread) hheld

/-- The slot of a call that releases one. -/
theorem release_isSlot {client : ClientId} {slot : Slot} {continuation : After}
    (hpc : (system.clients client).pc = .releasing slot continuation ∨
      (system.clients client).pc = .freeing slot continuation) :
    ∃ place, place ≠ .free ∧ system.ledger.At slot place := by
  have hconsistent := h.clients client
  have hhand : (system.hands (.client client)) = (system.clients client).pc.hand := rfl
  cases continuation with
  | busy =>
      refine ⟨.hands (.client client), nofun, ?_⟩
      change (system.hands (.client client)).item = some slot
      rcases hpc with hpc | hpc <;> rw [hhand, hpc] <;> rfl
  | discard =>
      refine ⟨.hands (.client client), nofun, ?_⟩
      change (system.hands (.client client)).item = some slot
      rcases hpc with hpc | hpc <;> rw [hhand, hpc] <;> rfl
  | destroy id =>
      have howns : UdpChannel.Owns system.buffers client id (some slot) := by
        rcases hpc with hpc | hpc <;> rw [hpc] at hconsistent <;> exact hconsistent
      obtain ⟨packet, hown, hheld⟩ := howns
      exact ⟨.buffer id, nofun, (UdpChannel.held_of_own hown).trans hheld⟩
  | assign id other =>
      have howns : UdpChannel.Owns system.buffers client id (some slot) := by
        rcases hpc with hpc | hpc <;> rw [hpc] at hconsistent <;> exact hconsistent.2.1
      obtain ⟨packet, hown, hheld⟩ := howns
      exact ⟨.buffer id, nofun, (UdpChannel.held_of_own hown).trans hheld⟩

theorem push_succeeds {id : ClientId} {slot : Slot} {size : BitVec 32}
    (hpc : (system.clients id).pc = .pushing slot size) :
    (system.channel.pool.pushPending slot).1 = true := by
  have hat : system.ledger.At slot (.hands (.client id)) := by
    change (system.clients id).pc.hand.item = some slot
    rw [hpc]
    rfl
  obtain ⟨pendingSlots, hpush, _⟩ := PacketPool.pushPending_room slot
    (UdpChannel.pending_room h.ledger _ hat nofun)
  rw [hpush]

theorem release_succeeds {thread : ThreadId} {slot : Slot} (hfrees : system.Frees slot thread) :
    (system.channel.pool.pushFree slot).1 = true := by
  have hat : ∃ place, place ≠ .free ∧ system.ledger.At slot place := by
    cases thread with
    | tx =>
        refine ⟨.hands .tx, nofun, ?_⟩
        change system.tx.hand.item = some slot
        rw [show system.tx = .freeing slot from hfrees]
        rfl
    | client id =>
        obtain ⟨continuation, hpc⟩ := hfrees
        exact release_isSlot h (.inr hpc)
  obtain ⟨place, hne, hat⟩ := hat
  obtain ⟨freeSlots, hpush, _⟩ := PacketPool.pushFree_room slot
    (UdpChannel.free_room h.ledger place hat hne.symm)
  rw [hpush]

/-- A client in a call can take its next step. -/
theorem client_goes_on (id : ClientId) (hidle : (system.clients id).pc ≠ .idle)
    (hacquired : ∀ slot, (system.clients id).pc ≠ .acquired slot) :
    (system.channel.advance system.buffers id (system.clients id).pc).isSome := by
  have hconsistent := h.clients id
  have hheld : ∀ slot, (system.clients id).pc.hand.item = some slot → slot.toNat < slotCount :=
    fun slot hslot => held_isSlot h (show (system.hands (.client id)).item = some slot from hslot)
  cases hpc : (system.clients id).pc with
  | idle => exact absurd hpc hidle
  | acquired slot => exact absurd hpc (hacquired slot)
  | preparing target => rfl
  | storing slot size =>
      have hslot := hheld slot (by rw [hpc]; rfl)
      obtain ⟨pool, hstore⟩ := Option.isSome_iff_exists.mp
        (system.channel.pool.storeSize_isSome slot size hslot)
      rw [UdpChannel.advance, hstore]
      rfl
  | pushing slot size => rfl
  | notifying => rfl
  | releasing slot continuation =>
      obtain ⟨place, _, hat⟩ := release_isSlot h (.inl hpc)
      obtain ⟨pool, hstore⟩ := Option.isSome_iff_exists.mp
        (system.channel.pool.storeSize_isSome slot 0
          (h.ledger.placed.isValid slot place hat))
      rw [UdpChannel.advance, hstore]
      rfl
  | freeing slot continuation =>
      rw [hpc] at hconsistent
      cases continuation with
      | assign target other =>
          obtain ⟨_, ⟨packet, hown, _⟩, _⟩ := hconsistent
          rw [UdpChannel.advance, UdpChannel.released, hown]
          rfl
      | _ => rfl
  | taking target other =>
      rw [hpc] at hconsistent
      obtain ⟨_, _, _, packet, hown, _⟩ := hconsistent
      rw [UdpChannel.advance, UdpChannel.takeOver, hown]
      rfl
  | discarding => rfl
  | dropping slot index =>
      have hslot := hheld slot (by rw [hpc]; rfl)
      obtain ⟨size, hsize⟩ := Option.isSome_iff_exists.mp
        (system.channel.pool.packetSize_isSome slot hslot)
      rw [UdpChannel.advance, hsize]
      rfl

theorem tx_advances (slot : Slot)
    (hpc : system.tx = .releasing slot ∨ ∃ index, system.tx = .sizing slot index) :
    (system.channel.txAdvance system.tx).isSome := by
  have hslot : slot.toNat < slotCount := by
    refine held_isSlot h (show (system.hands .tx).item = some slot from ?_)
    rcases hpc with hpc | ⟨index, hpc⟩ <;>
      exact (congrArg (fun pc => pc.hand.item) hpc).trans rfl
  rcases hpc with hpc | ⟨index, hpc⟩
  · obtain ⟨pool, hstore⟩ := Option.isSome_iff_exists.mp
      (system.channel.pool.storeSize_isSome slot 0 hslot)
    rw [hpc, UdpChannel.txAdvance, hstore]
    rfl
  · obtain ⟨size, hsize⟩ := Option.isSome_iff_exists.mp
      (system.channel.pool.packetSize_isSome slot hslot)
    rw [hpc, UdpChannel.txAdvance, hsize]
    rfl

/-- The invariant carries everything that is claimed of the slots. -/
theorem Valid.sound : system.Sound where
  placed := fun slot hslot => h.ledger.placed.exists_unique hslot
  inside := h.ledger.placed.isValid
  free_once := h.ledger.free_nodup
  pending_once := h.ledger.pending_nodup
  enqueued := fun _ _ _ hpc => push_succeeds h hpc
  freed := fun _ _ hfrees => release_succeeds h hfrees
  in_order := h.ledger.history
  pending_sizes := h.ledger.sizes
  dropped := by
    intro id slot index hpc
    have hrelies := h.ledger.relies (.client id)
    change system.ledger.Relies (system.clients id).pc.hand at hrelies
    rwa [hpc] at hrelies
  popped := by
    intro slot index hpc
    have hrelies := h.ledger.relies .tx
    change system.ledger.Relies system.tx.hand at hrelies
    rwa [hpc] at hrelies
  transmitted := by
    intro slot size index hhand
    have hrelies := h.ledger.relies .tx
    change system.ledger.Relies system.tx.hand at hrelies
    rwa [hhand] at hrelies
  clients_go_on := by
    intro id hidle hacquired
    obtain ⟨after, hafter⟩ := Option.isSome_iff_exists.mp (client_goes_on h id hidle hacquired)
    have hstep : system.channel.clientStep system.buffers id (system.clients id).pc .advance =
        some after := by
      rw [← hafter]
      cases (system.clients id).pc <;> rfl
    rw [step, hstep]
    rfl
  tx_goes_on := by
    intro slot hpc
    obtain ⟨after, hafter⟩ := Option.isSome_iff_exists.mp (tx_advances h slot hpc)
    have hstep : system.channel.txStep system.tx .advance = some after := by
      rw [← hafter]
      cases system.tx <;> rfl
    rw [step, hstep]
    rfl

end Sound

/-- In every interleaving each slot is in one place, no ring operation of a producer or a
release fails, packets are popped as they were committed, and a packet buffer that has
been moved from or committed is not committed again before it is filled again. -/
theorem slots_sound (storage : List Byte) (slotCount packetCap : BitVec 32)
    (actions : List Action) (system : ChannelSystem slotCount.toNat)
    (hrun : Steps.run step (init storage slotCount packetCap) actions = some system) :
    system.Sound ∧
      ∀ id action next, system.step action = some next → Spends system next id action →
        ∀ later final, Steps.Along step (fun _ other => ¬ other.Fills id) next later final →
          ∀ client size result,
            final.step (.client client (.commit id size)) = some result →
              result = final.refused client := by
  have hvalid : system.Valid :=
    Steps.run_invariant step_valid hrun (init_valid storage slotCount packetCap)
  refine ⟨hvalid.sound, ?_⟩
  intro id action next hstep hspends later final hlater client size result hcommit
  have hspent := spends_spent hvalid hstep hspends
  have hkept : final.Valid ∧ final.Spent id :=
    hlater.invariant (P := fun state => state.Valid ∧ state.Spent id)
      (fun state other after hstate hallowed htaken =>
        ⟨step_valid state other after hstate.1 htaken,
          step_spent hstate.1 hstate.2 hallowed htaken⟩)
      ⟨step_valid system action next hvalid hstep, hspent⟩
  exact commit_spent hkept.2 hcommit

/-- The advances of a commit from its store to its notification. -/
def committed (client : ClientId) : List Action :=
  [.client client .advance, .client client .advance, .client client .advance]

/-- Two producers at a channel with two slots. The first commits a packet, which is sent, and
then another, which a third client discards; the second has prepared its own meanwhile. -/
def producersRun : List Action :=
  [.client 0 (.prepare 0), .client 0 .advance, .client 0 (.commit 0 4)] ++ committed 0 ++
    [.tx .advance, .tx .advance, .tx .advance, .tx .advance, .tx (.limited (.ok ())),
      .tx (.checkSocket true), .tx (.attempt .sent), .tx .advance, .tx .advance,
      .client 1 (.prepare 1), .client 0 (.prepare 2), .client 1 .advance, .client 0 .advance,
      .client 0 (.commit 2 4)] ++ committed 0 ++
    [.client 2 .discard, .client 2 .advance, .client 2 .advance, .client 2 .advance,
      .client 2 .advance, .client 2 .advance]

/-- The second producer's commit goes on while the transmit thread looks for work. -/
def commitRun : List Action := .tx .advance :: committed 1

/-- One packet has been sent, one was discarded, and the second producer's is pending; its
buffer is not committed again. -/
theorem two_producers_sound :
    ∃ system next final result,
      Steps.run step (init (List.replicate 8 0) 2 4) producersRun = some system ∧
        system.Sound ∧ system.channel.sent = [[0, 0, 0, 0]] ∧ system.channel.pops.length = 2 ∧
        system.step (.client 1 (.commit 1 4)) = some next ∧
        Steps.run step next commitRun = some final ∧
        final.channel.pool.pendingSlots.toList.length = 1 ∧
        final.step (.client 1 (.commit 1 4)) = some result ∧ result = final.refused 1 := by
  obtain ⟨system, next, final, result, hrun, hsent, hpops, hstep, hpc, hlater, hpending, hagain⟩ :
      ∃ system next final result,
        Steps.run step (init (List.replicate 8 0) 2 4) producersRun = some system ∧
          system.channel.sent = [[0, 0, 0, 0]] ∧ system.channel.pops.length = 2 ∧
          system.step (.client 1 (.commit 1 4)) = some next ∧
          (next.clients 1).pc ≠ .idle ∧ Steps.run step next commitRun = some final ∧
          final.channel.pool.pendingSlots.toList.length = 1 ∧
          final.step (.client 1 (.commit 1 4)) = some result :=
    ⟨_, _, _, _, rfl, rfl, rfl, rfl, by decide, rfl, rfl, rfl⟩
  obtain ⟨hsound, hspent⟩ := slots_sound _ 2 4 producersRun system hrun
  have hkept : Steps.Along step (fun _ other => ¬ other.Fills 1) next commitRun final := by
    apply Steps.along_of_run_ok _ hlater
    intro action member
    simp only [commitRun, committed, List.mem_cons, List.not_mem_nil, or_false] at member
    rcases member with rfl | rfl | rfl | rfl <;> exact id
  exact ⟨system, next, final, result, hrun, hsound, hsent, hpops, hstep, hlater, hpending, hagain,
    hspent 1 _ next hstep ⟨rfl, hpc⟩ commitRun final hkept 1 4 result hagain⟩

end ServoFleet.ChannelSystem
