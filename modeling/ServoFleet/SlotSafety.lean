import ServoFleet.SlotTransfers

/-!
The slots of a channel in every state its threads reach.
-/

namespace ServoFleet

open SlotLedger

/-- The hands of the transmit thread. -/
def TxPc.hand : TxPc → Hand Slot (BitVec 32)
  | .sizing slot index => .popped slot index
  | .limiting slot size index => .taken slot size index
  | .admitted slot size index => .taken slot size index
  | .sending slot size index _ => .taken slot size index
  | .releasing slot => .holding slot
  | .freeing slot => .stored slot 0
  | _ => .empty

namespace UdpChannel

section Transmit

variable {slotCount : Nat} {channel : UdpChannel slotCount} {pc : TxPc}

/-- Two channels that differ at most in their flags and in what was sent. -/
structure SameSlots (channel other : UdpChannel slotCount) : Prop where
  pool : other.pool = channel.pool
  commits : other.commits = channel.commits
  pops : other.pops = channel.pops

/-- What a step of the transmit thread may do to the slots and to its own hands. -/
inductive TxMoves (channel : UdpChannel slotCount) (pc : TxPc) :
    UdpChannel slotCount → TxPc → Prop where
  /-- It goes on, to sleep only from having found nothing pending. -/
  | rest {channel' : UdpChannel slotCount} {next : TxPc} (same : SameSlots channel channel')
      (hand : pc.hand = next.hand)
      (sleeps : next = .blocking ∨ next = .blocked →
        pc = .blocking ∨ channel.pool.pendingSlots.toList = []) : TxMoves channel pc channel' next
  | forget {channel' : UdpChannel slotCount} {slot : Slot} (same : SameSlots channel channel')
      (held : pc.hand.item = some slot) : TxMoves channel pc channel' (.releasing slot)
  | pop {slot : Slot} {rest : List Slot} {pendingSlots : FixedRingQueue Slot slotCount}
      (pending : channel.pool.pendingSlots.toList = slot :: rest)
      (left : pendingSlots.toList = rest) (empty : pc.hand.item = none) :
      TxMoves channel pc
        { channel with
          pool := { channel.pool with pendingSlots }, pops := channel.pops ++ [slot] }
        (.sizing slot channel.pops.length)
  | read {slot : Slot} {index : Nat} {size : BitVec 32} (held : pc.hand = .popped slot index)
      (size_eq : channel.pool.packetSize slot = some size) :
      TxMoves channel pc channel (.limiting slot size index)
  | store {slot : Slot} {pool : PacketPool slotCount} (held : pc.hand.item = some slot)
      (stored : channel.pool.storeSize slot 0 = some pool) :
      TxMoves channel pc { channel with pool } (.freeing slot)
  | free {slot : Slot} (held : pc.hand.item = some slot) :
      TxMoves channel pc { channel with pool := (channel.pool.pushFree slot).2 } .loop

theorem SameSlots.refl (channel : UdpChannel slotCount) : SameSlots channel channel :=
  ⟨rfl, rfl, rfl⟩

theorem txAdvance_moves {after : UdpChannel slotCount × TxPc}
    (h : channel.txAdvance pc = some after) : TxMoves channel pc after.1 after.2 := by
  cases pc with
  | loop =>
      obtain rfl := Option.some.inj h
      exact .rest (.refl channel) (by dsimp only; split <;> rfl) (by dsimp only; split <;> simp)
  | waiting =>
      obtain rfl := Option.some.inj h
      exact .rest (.refl channel) (by dsimp only; split <;> rfl) (by dsimp only; split <;> simp)
  | popping =>
      rw [txAdvance] at h
      rcases channel.pool.popPending_cases with
        hempty | ⟨slot, rest, pendingSlots, hpending, hpop, hleft⟩
      · rw [hempty] at h
        obtain rfl := Option.some.inj h
        exact .rest (.refl channel) rfl (by simp)
      · rw [hpop] at h
        obtain rfl := Option.some.inj h
        exact .pop hpending hleft rfl
  | sizing slot index =>
      rw [txAdvance, Option.bind_eq_bind, Option.bind_eq_some_iff] at h
      obtain ⟨size, hsize, h⟩ := h
      obtain rfl := Option.some.inj h
      exact .read rfl hsize
  | locking =>
      obtain rfl := Option.some.inj h
      exact .rest (.refl channel) rfl (by simp)
  | guarding =>
      obtain rfl := Option.some.inj h
      exact .rest (.refl channel) (by dsimp only; split <;> rfl) (by dsimp only; split <;> simp)
  | checking =>
      obtain rfl := Option.some.inj h
      refine .rest (.refl channel) (by dsimp only; split <;> rfl) fun hsleeps => .inr ?_
      dsimp only at hsleeps
      split at hsleeps
      · simp at hsleeps
      · rename_i hcount
        exact (FixedRingQueue.toList_eq_nil _).mpr (not_not.mp hcount)
  | blocking =>
      rw [txAdvance] at h
      split_ifs at h
      · obtain rfl := Option.some.inj h
        exact .rest (.refl channel) rfl fun _ => .inl rfl
      · obtain rfl := Option.some.inj h
        exact .rest ⟨rfl, rfl, rfl⟩ rfl fun _ => .inl rfl
  | blocked =>
      rw [txAdvance] at h
      split_ifs at h
      obtain rfl := Option.some.inj h
      exact .rest (.refl channel) rfl (by simp)
  | releasing slot =>
      rw [txAdvance, Option.bind_eq_bind, Option.bind_eq_some_iff] at h
      obtain ⟨pool, hstore, h⟩ := h
      obtain rfl := Option.some.inj h
      exact .store rfl hstore
  | freeing slot =>
      obtain rfl := Option.some.inj h
      exact .free rfl
  | limiting slot size index => cases h
  | admitted slot size index => cases h
  | sending slot size index attempt => cases h
  | finished => cases h

/-- Every step of the transmit thread is one of these. -/
theorem txStep_moves {action : TxAction} {after : UdpChannel slotCount × TxPc}
    (h : channel.txStep pc action = some after) : TxMoves channel pc after.1 after.2 := by
  unfold txStep at h
  split at h
  · exact txAdvance_moves h
  · split at h
    · obtain rfl := Option.some.inj h
      exact .rest (.refl channel) rfl (by simp)
    · obtain rfl := Option.some.inj h
      exact .forget (.refl channel) rfl
  · split_ifs at h
    · obtain rfl := Option.some.inj h
      exact .forget (.refl channel) rfl
    · obtain rfl := Option.some.inj h
      exact .rest (.refl channel) rfl (by simp)
  · rename_i slot size index attempt outcome
    split at h
    · rw [Option.bind_eq_bind, Option.bind_eq_some_iff] at h
      obtain ⟨bytes, _, h⟩ := h
      cases outcome with
      | wouldBlock =>
          dsimp only at h
          split_ifs at h
          · obtain rfl := Option.some.inj h
            exact .forget (.refl channel) rfl
          · obtain rfl := Option.some.inj h
            exact .rest (.refl channel) rfl (by simp)
      | _ =>
          obtain rfl := Option.some.inj h
          exact .forget ⟨rfl, rfl, rfl⟩ rfl
    · obtain rfl := Option.some.inj h
      exact .forget (.refl channel) rfl
  · obtain rfl := Option.some.inj h
    exact .rest ⟨rfl, rfl, rfl⟩ rfl (by simp)
  · cases h

variable {buffers : Buffers} {hands : ThreadId → Hand Slot (BitVec 32)}

theorem SameSlots.ledger {other : UdpChannel slotCount} (h : SameSlots channel other) :
    other.ledger buffers hands = channel.ledger buffers hands := by
  simp only [UdpChannel.ledger, h.pool, h.commits, h.pops]

/-- Every step of the transmit thread is a transfer. -/
theorem TxMoves.transfers {channel' : UdpChannel slotCount} {next : TxPc}
    (h : TxMoves channel pc channel' next)
    (hinv : (channel.ledger buffers hands).Invariant (IsSlot slotCount))
    (hhand : hands .tx = pc.hand) :
    (channel.ledger buffers hands).Step .tx
      (channel'.ledger buffers (Function.update hands .tx next.hand)) := by
  cases h with
  | rest same hand _ => exact transfer_rest same.ledger (hhand.trans hand)
  | forget same held =>
      rw [same.ledger]
      exact .forget ((congrArg Hand.item hhand).trans held)
  | pop pending left empty =>
      subst left
      exact .pop pending ((congrArg Hand.item hhand).trans empty)
  | read held size_eq => exact .read (hhand.trans held) size_eq
  | store held stored =>
      rw [ledger_store stored]
      exact .store 0 ((congrArg Hand.item hhand).trans held)
  | @free slot held =>
      have hheld := (congrArg Hand.item hhand).trans held
      rw [ledger_pushFree slot (free_room hinv (.hands .tx) hheld nofun)]
      exact .give hheld

end Transmit

end UdpChannel

namespace ChannelSystem

variable {slotCount : Nat}

def hands (system : ChannelSystem slotCount) : ThreadId → Hand Slot (BitVec 32)
  | .tx => system.tx.hand
  | .client id => (system.clients id).pc.hand

def ledger (system : ChannelSystem slotCount) : Ledger Slot BufferId ThreadId (BitVec 32) :=
  system.channel.ledger system.buffers system.hands

/-- The invariant of a channel and its threads. -/
structure Valid (system : ChannelSystem slotCount) : Prop where
  ledger : system.ledger.Invariant (UdpChannel.IsSlot slotCount)
  clients : ∀ id, UdpChannel.Consistent system.buffers id (system.clients id).pc

theorem hands_client (system : ChannelSystem slotCount) (channel : UdpChannel slotCount)
    (buffers : Buffers) (id : ClientId) (client : Client) :
    hands { system with channel, buffers, clients := Function.update system.clients id client } =
      Function.update system.hands (.client id) client.pc.hand := by
  funext thread
  cases thread with
  | tx => rfl
  | client other =>
      by_cases hother : other = id
      · subst hother
        rw [Function.update_self]
        simp only [hands, Function.update_self]
      · rw [Function.update_of_ne (by simpa using hother)]
        simp only [hands, Function.update_of_ne hother]

theorem hands_tx (system : ChannelSystem slotCount) (channel : UdpChannel slotCount) (tx : TxPc) :
    hands { system with channel, tx } = Function.update system.hands .tx tx.hand := by
  funext thread
  cases thread with
  | tx => rfl
  | client other => rfl

theorem step_valid (system : ChannelSystem slotCount) (action : Action)
    (next : ChannelSystem slotCount) (h : system.Valid) (hstep : system.step action = some next) :
    next.Valid := by
  cases step_moves hstep with
  | @client id _ _ _ _ hclient =>
      obtain ⟨htransfer, hconsistent, htouches, _, _⟩ :=
        UdpChannel.clientStep_follows (h.clients id) hclient
      refine ⟨?_, fun other => ?_⟩
      · rw [ledger, hands_client]
        exact (htransfer system.hands rfl h.ledger).invariant h.ledger
      · by_cases hother : other = id
        · subst hother
          simpa only [Function.update_self] using hconsistent
        · simpa only [Function.update_of_ne hother] using
            htouches.consistent hother _ (h.clients other)
  | tx htx =>
      refine ⟨?_, h.clients⟩
      rw [ledger, hands_tx]
      exact ((UdpChannel.txStep_moves htx).transfers h.ledger rfl).invariant h.ledger
  | stop =>
      exact ⟨h.ledger, h.clients⟩
  | requestStop =>
      exact ⟨h.ledger, h.clients⟩
  | cancelWait =>
      exact ⟨h.ledger, h.clients⟩

theorem init_valid (storage : List Byte) (slotCount packetCap : BitVec 32) :
    (init storage slotCount packetCap).Valid := by
  have hfree := PacketPool.init_free storage slotCount packetCap
  have hmem : ∀ slot : Slot, slot ∈ (List.range slotCount.toNat).map (BitVec.ofNat 32) ↔
      UdpChannel.IsSlot slotCount.toNat slot := by
    intro slot
    refine ⟨fun member => ?_, UdpChannel.mem_slots slot⟩
    obtain ⟨i, hi, rfl⟩ := List.mem_map.mp member
    have hlt := List.mem_range.mp hi
    have := slotCount.isLt
    rw [UdpChannel.IsSlot, BitVec.toNat_ofNat]
    omega
  have hat : ∀ slot place, (init storage slotCount packetCap).ledger.At slot place ↔
      place = .free ∧ UdpChannel.IsSlot slotCount.toNat slot := by
    intro slot place
    cases place with
    | free =>
        rw [← hmem, ← hfree]
        exact ⟨fun h => ⟨rfl, h⟩, fun h => h.2⟩
    | pending => exact ⟨nofun, fun h => (nomatch h.1)⟩
    | buffer id => exact ⟨nofun, fun h => (nomatch h.1)⟩
    | hands thread => cases thread <;> exact ⟨nofun, fun h => (nomatch h.1)⟩
  refine ⟨⟨⟨?_, ?_, ?_⟩, ?_, List.nodup_nil, rfl, nofun, ?_⟩, fun _ => trivial⟩
  · exact fun slot place h => ((hat slot place).mp h).2
  · exact fun slot h => ⟨.free, (hat slot .free).mpr ⟨rfl, h⟩⟩
  · intro slot place other hplace hother
    rw [((hat slot place).mp hplace).1, ((hat slot other).mp hother).1]
  · change (init storage slotCount packetCap).channel.pool.freeSlots.toList.Nodup
    rw [show (init storage slotCount packetCap).channel.pool.freeSlots.toList = _ from hfree]
    refine List.Nodup.map_on ?_ List.nodup_range
    intro i hi j hj hsame
    have hsame' := congrArg BitVec.toNat hsame
    have := slotCount.isLt
    rw [List.mem_range] at hi hj
    rw [BitVec.toNat_ofNat, BitVec.toNat_ofNat] at hsame'
    omega
  · intro thread
    cases thread <;> trivial

end ChannelSystem

end ServoFleet
