import ServoFleet.ChannelArena

/-!
What a step of a client does to the packets: it writes to a slot of its own, it
begins to commit one, it pushes one to the pending queue or takes one out of it,
or it leaves them all as they are.
-/

namespace ServoFleet

theorem subspan_length {bytes part : List Byte} {offset count : Nat}
    (h : subspan bytes offset count = some part) : part.length = count := by
  rw [subspan] at h
  split_ifs at h with hinside
  obtain rfl := Option.some.inj h
  rw [List.length_take, List.length_drop]
  omega

namespace PacketPool

variable {slotCount : Nat} {pool next : PacketPool slotCount}

/-- What the channel reads from a slot to send a packet of the given size. -/
def slotStart (pool : PacketPool slotCount) (packet : Slot × BitVec 32) : Option (List Byte) :=
  subspan pool.storage (pool.slotBuffer packet.1).offset packet.2.toNat

/-- Two pools with the same storage, divided in the same way. -/
def SameStorage (pool next : PacketPool slotCount) : Prop :=
  next.packetCap = pool.packetCap ∧ next.storage = pool.storage

theorem SameStorage.of_eq (h : next = pool) : SameStorage pool next := by
  subst h
  exact ⟨rfl, rfl⟩

theorem SameStorage.slotStart (h : SameStorage pool next) : next.slotStart = pool.slotStart := by
  funext packet
  rw [PacketPool.slotStart, PacketPool.slotStart, slotBuffer, slotBuffer, h.1, h.2]

theorem acquireSlot_storage {result : Result Slot} (h : pool.acquireSlot = (result, next)) :
    SameStorage pool next := by
  rw [acquireSlot] at h
  split at h <;> obtain ⟨_, rfl⟩ := Prod.mk.inj h <;> exact ⟨rfl, rfl⟩

theorem storeSize_storage {slot : Slot} {size : BitVec 32}
    (h : pool.storeSize slot size = some next) : SameStorage pool next := by
  rw [storeSize] at h
  split_ifs at h
  obtain rfl := Option.some.inj h
  exact ⟨rfl, rfl⟩

theorem pushPending_storage {slot : Slot} {pushed : Bool}
    (h : pool.pushPending slot = (pushed, next)) : SameStorage pool next := by
  rw [pushPending] at h
  obtain ⟨_, rfl⟩ := Prod.mk.inj h
  exact ⟨rfl, rfl⟩

theorem popPending_storage {slot : Slot} (h : pool.popPending = some (slot, next)) :
    SameStorage pool next := by
  rw [popPending] at h
  split at h
  · obtain ⟨_, rfl⟩ := Prod.mk.inj (Option.some.inj h)
    exact ⟨rfl, rfl⟩
  · cases h

/-- What is written to one slot leaves the packets of every other. -/
theorem slotStart_apart (hfits : slotCount * pool.packetCap.toNat < 2 ^ 32)
    {packet : Slot × BitVec 32} {other : Slot} {bytes : List Byte}
    (hslot : packet.1.toNat < slotCount) (hother : other.toNat < slotCount)
    (hne : packet.1 ≠ other) (hsize : packet.2.toNat ≤ pool.packetCap.toNat)
    (written : pool.fill (pool.slotBuffer other) bytes = some next) :
    next.slotStart packet = pool.slotStart packet := by
  have hoffset : (next.slotBuffer packet.1).offset = (pool.slotBuffer packet.1).offset := by
    rw [slotBuffer, slotBuffer, (fill_arena written).1]
  let start : ArenaSpan := ⟨(pool.slotBuffer packet.1).offset, packet.2.toNat⟩
  have hstart : start.Apart (pool.slotBuffer other) := by
    have hapart := pool.slotBuffer_apart hfits hslot hother hne
    have hlength : (pool.slotBuffer packet.1).length = pool.packetCap.toNat := rfl
    simp only [start, ArenaSpan.Apart] at hapart ⊢
    omega
  rw [slotStart, slotStart, hoffset]
  exact fill_apart written hstart

/-- What is written to a slot is what is sent from it. -/
theorem slotStart_first {slot : Slot} {size : BitVec 32} {bytes : List Byte}
    (hsize : size.toNat ≤ bytes.length)
    (written : pool.fill (pool.slotBuffer slot) bytes = some next) :
    next.slotStart (slot, size) = some (bytes.take size.toNat) := by
  have hoffset : (next.slotBuffer slot).offset = (pool.slotBuffer slot).offset := by
    rw [slotBuffer, slotBuffer, (fill_arena written).1]
  rw [slotStart, hoffset]
  rw [fill] at written
  split_ifs at written with hroom
  obtain rfl := Option.some.inj written
  dsimp only
  have hbefore : (pool.storage.take (pool.slotBuffer slot).offset).length =
      (pool.slotBuffer slot).offset := by
    rw [List.length_take]
    omega
  rw [subspan_of_le (by simp only [List.length_append, List.length_take, List.length_drop]; omega),
    List.append_assoc, List.drop_append_of_le_length (by omega)]
  rw [List.drop_of_length_le (by omega), List.nil_append, List.take_append_of_le_length hsize]

theorem slotStart_filled {slot : Slot} {size : BitVec 32} {bytes : List Byte}
    (hsize : size.toNat = bytes.length)
    (written : pool.fill (pool.slotBuffer slot) bytes = some next) :
    next.slotStart (slot, size) = some bytes := by
  rw [slotStart_first hsize.le written, hsize, List.take_length]

end PacketPool

open PacketPool

/-- The packet that a client is about to push. -/
def ClientPc.offers : ClientPc → Option (Slot × BitVec 32)
  | .storing slot size => some (slot, size)
  | .pushing slot size => some (slot, size)
  | _ => none

/-- The packet buffers of other channels have no bytes in the arena of this one. -/
def ClientAction.StaysOut : ClientAction → Prop
  | .foreign _ packet => packet.buffer.length = 0
  | _ => True

namespace UdpChannel

variable {slotCount : Nat}

/-- What a step of a client may do to the packets. -/
inductive ClientEffect (channel : UdpChannel slotCount) (buffers : Buffers) (client : ClientId)
    (pc : ClientPc) : UdpChannel slotCount → ClientPc → Prop where
  | keep {channel' : UdpChannel slotCount} {next : ClientPc}
      (storage : SameStorage channel.pool channel'.pool)
      (commits : channel'.commits = channel.commits) (sent : channel'.sent = channel.sent)
      (pops : channel.pops <+: channel'.pops)
      (offers : next.offers = none ∨
        ∃ slot size, pc = .storing slot size ∧ next = .pushing slot size) :
      ClientEffect channel buffers client pc channel' next
  | write {pool : PacketPool slotCount} {span : ArenaSpan} {bytes : List Byte} {next : ClientPc}
      (written : channel.pool.fill span bytes = some pool)
      (mine : (∃ slot, pc = .acquired slot ∧ span = channel.pool.slotBuffer slot) ∨
        ∃ id packet, own buffers client id = some packet ∧ span = packet.buffer)
      (offers : next.offers = none) :
      ClientEffect channel buffers client pc { channel with pool } next
  | offer {slot : Slot} {size : BitVec 32}
      (fits : size.toNat ≤ motorUdpPacketCap ∨ size ≤ channel.pool.packetCap) :
      ClientEffect channel buffers client pc channel (.storing slot size)
  | push {slot : Slot} {size : BitVec 32} {pool : PacketPool slotCount}
      (offered : pc = .pushing slot size) (storage : SameStorage channel.pool pool) :
      ClientEffect channel buffers client pc
        { channel with pool, commits := channel.commits ++ [(slot, size)] } .notifying

section Transmit

variable {channel channel' : UdpChannel slotCount} {pc next : TxPc}

theorem TxMoves.storage (h : channel.TxMoves pc channel' next) :
    SameStorage channel.pool channel'.pool := by
  cases h with
  | rest same _ _ => exact .of_eq same.pool
  | forget same _ => exact .of_eq same.pool
  | pop _ _ _ => exact ⟨rfl, rfl⟩
  | read _ _ => exact ⟨rfl, rfl⟩
  | store _ stored => exact storeSize_storage stored
  | free _ => exact ⟨rfl, rfl⟩

theorem TxMoves.commits (h : channel.TxMoves pc channel' next) :
    channel'.commits = channel.commits := by
  cases h with
  | rest same _ _ => exact same.commits
  | forget same _ => exact same.commits
  | _ => rfl

end Transmit

section Steps

variable {channel : UdpChannel slotCount} {buffers : Buffers} {client : ClientId}

/-- A step that changes at most the queues and the flags. -/
theorem ClientEffect.rest {pc : ClientPc} {channel' : UdpChannel slotCount} {next : ClientPc}
    (hstorage : SameStorage channel.pool channel'.pool)
    (hcommits : channel'.commits = channel.commits) (hsent : channel'.sent = channel.sent)
    (hpops : channel.pops <+: channel'.pops) (hoffers : next.offers = none) :
    ClientEffect channel buffers client pc channel' next :=
  .keep hstorage hcommits hsent hpops (.inl hoffers)

/-- A client sends nothing itself. -/
theorem ClientEffect.sent {pc next : ClientPc} {channel' : UdpChannel slotCount}
    (h : ClientEffect channel buffers client pc channel' next) :
    channel'.sent = channel.sent := by
  cases h with
  | keep _ _ sent _ _ => exact sent
  | _ => rfl

theorem ClientEffect.stay {pc next : ClientPc} (hoffers : next.offers = none) :
    ClientEffect channel buffers client pc channel next :=
  .rest (.of_eq rfl) rfl rfl List.prefix_rfl hoffers

/-- The pool alone changes, and not its storage. -/
theorem ClientEffect.pool {pc next : ClientPc} {pool : PacketPool slotCount}
    (hstorage : SameStorage channel.pool pool) (hoffers : next.offers = none) :
    ClientEffect channel buffers client pc { channel with pool } next :=
  .rest hstorage rfl rfl List.prefix_rfl hoffers

theorem advance_effect {pc : ClientPc} {after : UdpChannel slotCount × Buffers × Client}
    (h : channel.advance buffers client pc = some after) :
    ClientEffect channel buffers client pc after.1 after.2.2.pc := by
  cases pc with
  | idle => cases h
  | acquired slot => cases h
  | preparing id =>
      obtain rfl := Option.some.inj h
      rw [prepareSlot]
      split
      · exact .pool (acquireSlot_storage ‹_›) rfl
      · exact .pool (acquireSlot_storage ‹_›) rfl
  | storing slot size =>
      rw [advance, Option.bind_eq_bind, Option.bind_eq_some_iff] at h
      obtain ⟨pool, hstore, h⟩ := h
      obtain rfl := Option.some.inj h
      exact .keep (storeSize_storage hstore) rfl rfl List.prefix_rfl (.inr ⟨_, _, rfl, rfl⟩)
  | pushing slot size =>
      obtain rfl := Option.some.inj h
      rw [pushSlot]
      split
      · exact .push rfl (pushPending_storage ‹_›)
      · exact .pool (pushPending_storage ‹_›) rfl
  | notifying =>
      obtain rfl := Option.some.inj h
      exact .rest (.of_eq rfl) rfl rfl List.prefix_rfl rfl
  | releasing slot continuation =>
      rw [advance, Option.bind_eq_bind, Option.bind_eq_some_iff] at h
      obtain ⟨pool, hstore, h⟩ := h
      obtain rfl := Option.some.inj h
      exact .pool (storeSize_storage hstore) rfl
  | freeing slot continuation =>
      rw [advance, Option.bind_eq_bind, Option.bind_eq_some_iff] at h
      obtain ⟨⟨buffers', next⟩, hreleased, h⟩ := h
      obtain rfl := Option.some.inj h
      refine .pool ⟨rfl, rfl⟩ ?_
      cases continuation with
      | assign id other =>
          rw [released, Option.bind_eq_bind, Option.bind_eq_some_iff] at hreleased
          obtain ⟨packet, _, hreleased⟩ := hreleased
          obtain ⟨_, rfl⟩ := Prod.mk.inj (Option.some.inj hreleased)
          rfl
      | _ =>
          obtain ⟨_, rfl⟩ := Prod.mk.inj (Option.some.inj hreleased)
          rfl
  | taking id other =>
      rw [advance, takeOver, Option.bind_eq_bind, Option.bind_eq_some_iff] at h
      obtain ⟨packet, _, h⟩ := h
      obtain rfl := Option.some.inj h
      exact .stay rfl
  | discarding =>
      obtain rfl := Option.some.inj h
      rw [discardSlot]
      split
      · exact .rest (popPending_storage ‹_›) rfl rfl (List.prefix_append _ _) rfl
      · exact .stay rfl
  | dropping slot index =>
      rw [advance, Option.bind_eq_bind, Option.bind_eq_some_iff] at h
      obtain ⟨size, _, h⟩ := h
      obtain rfl := Option.some.inj h
      exact .stay rfl

theorem clientStep_effect {pc : ClientPc} {action : ClientAction}
    {after : UdpChannel slotCount × Buffers × Client}
    (h : channel.clientStep buffers client pc action = some after) :
    ClientEffect channel buffers client pc after.1 after.2.2.pc := by
  unfold clientStep at h
  split at h
  · exact advance_effect h
  · obtain rfl := Option.some.inj h
    rw [acquire]
    split
    · exact .pool (acquireSlot_storage ‹_›) rfl
    · exact .pool (acquireSlot_storage ‹_›) rfl
  · rw [Option.bind_eq_bind, Option.bind_eq_some_iff] at h
    obtain ⟨pool, hfill, h⟩ := h
    obtain rfl := Option.some.inj h
    exact .write hfill (.inl ⟨_, rfl, rfl⟩) rfl
  · split_ifs at h with hfits
    obtain rfl := Option.some.inj h
    exact .offer (.inr hfits)
  · rw [prepareSend] at h
    split_ifs at h <;> obtain rfl := Option.some.inj h <;> exact .stay rfl
  · rw [Option.bind_eq_bind, Option.bind_eq_some_iff] at h
    obtain ⟨packet, hown, h⟩ := h
    rw [Option.bind_eq_bind, Option.bind_eq_some_iff] at h
    obtain ⟨pool, hfill, h⟩ := h
    obtain rfl := Option.some.inj h
    exact .write hfill (.inr ⟨_, _, hown, rfl⟩) rfl
  · rw [commitSend, Option.bind_eq_bind, Option.bind_eq_some_iff] at h
    obtain ⟨packet, _, h⟩ := h
    split_ifs at h with hrefused
    · obtain rfl := Option.some.inj h
      exact .stay rfl
    · obtain rfl := Option.some.inj h
      exact .stay rfl
    · obtain rfl := Option.some.inj h
      exact .offer (.inl (Nat.le_of_not_lt fun hlarge => hrefused (.inr hlarge)))
  · rw [destroy, Option.bind_eq_bind, Option.bind_eq_some_iff] at h
    obtain ⟨packet, _, h⟩ := h
    split_ifs at h <;> obtain rfl := Option.some.inj h <;> exact .stay rfl
  · rw [moveConstruct, Option.bind_eq_bind, Option.bind_eq_some_iff] at h
    obtain ⟨packet, _, h⟩ := h
    split_ifs at h
    obtain rfl := Option.some.inj h
    exact .stay rfl
  · rw [moveAssign, Option.bind_eq_bind, Option.bind_eq_some_iff] at h
    obtain ⟨packet, _, h⟩ := h
    rw [Option.bind_eq_some_iff] at h
    obtain ⟨otherPacket, _, h⟩ := h
    split_ifs at h <;> obtain rfl := Option.some.inj h <;> exact .stay rfl
  · rw [Option.bind_eq_bind, Option.bind_eq_some_iff] at h
    obtain ⟨packet, _, h⟩ := h
    obtain rfl := Option.some.inj h
    exact .stay rfl
  · split_ifs at h
    obtain rfl := Option.some.inj h
    exact .stay rfl
  · obtain rfl := Option.some.inj h
    exact .stay rfl
  · cases h

end Steps

/-! ## Where the packet buffers point -/

/-- A packet buffer of this channel has the bytes of its slot, any other has none of its arena. -/
def Aligned (packetCap : BitVec 32) (packet : PacketBuffer) : Prop :=
  (packet.owner = .this →
    packet.buffer = ⟨(packet.slot * packetCap).toNat, packetCap.toNat⟩) ∧
  (packet.owner ≠ .this → packet.buffer.length = 0)

def AllAligned (packetCap : BitVec 32) (buffers : Buffers) : Prop :=
  ∀ id object, buffers id = some object → Aligned packetCap object.packet

section Aligned

variable {cap : BitVec 32} {buffers : Buffers} {client : ClientId}

theorem aligned_clear (packet : PacketBuffer) : Aligned cap packet.clear :=
  ⟨nofun, fun _ => rfl⟩

theorem AllAligned.own (h : AllAligned cap buffers) {id : BufferId} {packet : PacketBuffer}
    (hown : own buffers client id = some packet) : Aligned cap packet :=
  h id _ (own_eq_some.mp hown)

theorem AllAligned.put (h : AllAligned cap buffers) {id : BufferId} {packet : PacketBuffer}
    (hpacket : Aligned cap packet) : AllAligned cap (put buffers client id packet) := by
  intro other object hobject
  by_cases hother : other = id
  · subst hother
    rw [UdpChannel.put, Function.update_self] at hobject
    obtain rfl := Option.some.inj hobject
    exact hpacket
  · rw [UdpChannel.put, Function.update_of_ne hother] at hobject
    exact h other object hobject

theorem AllAligned.remove (h : AllAligned cap buffers) (id : BufferId) :
    AllAligned cap (Function.update buffers id none) := by
  intro other object hobject
  by_cases hother : other = id
  · subst hother
    rw [Function.update_self] at hobject
    cases hobject
  · rw [Function.update_of_ne hother] at hobject
    exact h other object hobject

/-- A packet that changes its place. -/
theorem AllAligned.move (h : AllAligned cap buffers) {id other : BufferId} {packet : PacketBuffer}
    (hown : UdpChannel.own buffers client other = some packet) :
    AllAligned cap (UdpChannel.put (UdpChannel.put buffers client other packet.clear) client id
      packet) :=
  (h.put (aligned_clear packet)).put (h.own hown)

variable {channel : UdpChannel slotCount}

theorem advance_aligned {pc : ClientPc} {after : UdpChannel slotCount × Buffers × Client}
    (h : AllAligned channel.pool.packetCap buffers)
    (hstep : channel.advance buffers client pc = some after) :
    AllAligned channel.pool.packetCap after.2.1 := by
  cases pc with
  | idle => cases hstep
  | acquired slot => cases hstep
  | preparing id =>
      obtain rfl := Option.some.inj hstep
      rw [prepareSlot]
      split
      · exact h.put ⟨fun _ => rfl, fun hne => absurd rfl hne⟩
      · exact h.remove id
  | storing slot size =>
      rw [advance, Option.bind_eq_bind, Option.bind_eq_some_iff] at hstep
      obtain ⟨pool, _, hstep⟩ := hstep
      obtain rfl := Option.some.inj hstep
      exact h
  | pushing slot size =>
      obtain rfl := Option.some.inj hstep
      rw [pushSlot]
      split <;> exact h
  | notifying =>
      obtain rfl := Option.some.inj hstep
      exact h
  | releasing slot continuation =>
      rw [advance, Option.bind_eq_bind, Option.bind_eq_some_iff] at hstep
      obtain ⟨pool, _, hstep⟩ := hstep
      obtain rfl := Option.some.inj hstep
      exact h
  | freeing slot continuation =>
      rw [advance, Option.bind_eq_bind, Option.bind_eq_some_iff] at hstep
      obtain ⟨⟨buffers', next⟩, hreleased, hstep⟩ := hstep
      obtain rfl := Option.some.inj hstep
      cases continuation with
      | busy =>
          obtain ⟨rfl, _⟩ := Prod.mk.inj (Option.some.inj hreleased)
          exact h
      | discard =>
          obtain ⟨rfl, _⟩ := Prod.mk.inj (Option.some.inj hreleased)
          exact h
      | destroy id =>
          obtain ⟨rfl, _⟩ := Prod.mk.inj (Option.some.inj hreleased)
          exact h.remove id
      | assign id other =>
          rw [released, Option.bind_eq_bind, Option.bind_eq_some_iff] at hreleased
          obtain ⟨packet, _, hreleased⟩ := hreleased
          obtain ⟨rfl, _⟩ := Prod.mk.inj (Option.some.inj hreleased)
          exact h.put (aligned_clear packet)
  | taking id other =>
      rw [advance, takeOver, Option.bind_eq_bind, Option.bind_eq_some_iff] at hstep
      obtain ⟨packet, hown, hstep⟩ := hstep
      obtain rfl := Option.some.inj hstep
      exact h.move hown
  | discarding =>
      obtain rfl := Option.some.inj hstep
      rw [discardSlot]
      split <;> exact h
  | dropping slot index =>
      rw [advance, Option.bind_eq_bind, Option.bind_eq_some_iff] at hstep
      obtain ⟨size, _, hstep⟩ := hstep
      obtain rfl := Option.some.inj hstep
      exact h

/-- Every step leaves the packet buffers aligned. -/
theorem clientStep_aligned {pc : ClientPc} {action : ClientAction}
    {after : UdpChannel slotCount × Buffers × Client}
    (h : AllAligned channel.pool.packetCap buffers) (hout : action.StaysOut)
    (hstep : channel.clientStep buffers client pc action = some after) :
    AllAligned channel.pool.packetCap after.2.1 := by
  unfold clientStep at hstep
  split at hstep
  · exact advance_aligned h hstep
  · obtain rfl := Option.some.inj hstep
    rw [acquire]
    split <;> exact h
  · rw [Option.bind_eq_bind, Option.bind_eq_some_iff] at hstep
    obtain ⟨pool, _, hstep⟩ := hstep
    obtain rfl := Option.some.inj hstep
    exact h
  · split_ifs at hstep
    obtain rfl := Option.some.inj hstep
    exact h
  · rw [prepareSend] at hstep
    split_ifs at hstep <;> obtain rfl := Option.some.inj hstep
    · exact h
    · exact h.put ⟨by simp, fun _ => rfl⟩
  · rw [Option.bind_eq_bind, Option.bind_eq_some_iff] at hstep
    obtain ⟨packet, _, hstep⟩ := hstep
    rw [Option.bind_eq_bind, Option.bind_eq_some_iff] at hstep
    obtain ⟨pool, _, hstep⟩ := hstep
    obtain rfl := Option.some.inj hstep
    exact h
  · rw [commitSend, Option.bind_eq_bind, Option.bind_eq_some_iff] at hstep
    obtain ⟨packet, _, hstep⟩ := hstep
    split_ifs at hstep <;> obtain rfl := Option.some.inj hstep
    · exact h
    · exact h
    · exact h.put (aligned_clear packet)
  · rw [destroy, Option.bind_eq_bind, Option.bind_eq_some_iff] at hstep
    obtain ⟨packet, _, hstep⟩ := hstep
    split_ifs at hstep <;> obtain rfl := Option.some.inj hstep
    · exact h
    · exact h.remove _
  · rw [moveConstruct, Option.bind_eq_bind, Option.bind_eq_some_iff] at hstep
    obtain ⟨packet, hown, hstep⟩ := hstep
    split_ifs at hstep
    obtain rfl := Option.some.inj hstep
    exact h.move hown
  · rw [moveAssign, Option.bind_eq_bind, Option.bind_eq_some_iff] at hstep
    obtain ⟨packet, _, hstep⟩ := hstep
    rw [Option.bind_eq_some_iff] at hstep
    obtain ⟨otherPacket, _, hstep⟩ := hstep
    split_ifs at hstep <;> obtain rfl := Option.some.inj hstep <;> exact h
  · rw [Option.bind_eq_bind, Option.bind_eq_some_iff] at hstep
    obtain ⟨packet, hown, hstep⟩ := hstep
    obtain rfl := Option.some.inj hstep
    exact h.put (h.own hown)
  · split_ifs at hstep with hrefused
    obtain rfl := Option.some.inj hstep
    exact h.put ⟨fun howner => absurd (.inr howner) hrefused, fun _ => hout⟩
  · obtain rfl := Option.some.inj hstep
    exact h
  · cases hstep

end Aligned

end UdpChannel

namespace ChannelSystem

variable {slotCount : Nat}

/-- Whatever is committed, or is about to be, fits into a slot. -/
structure Fits (system : ChannelSystem slotCount) : Prop where
  offered : ∀ id packet, (system.clients id).pc.offers = some packet →
    packet.2.toNat ≤ motorUdpPacketCap
  commits : ∀ packet ∈ system.channel.commits, packet.2.toNat ≤ motorUdpPacketCap

/-- What a client has in its hands to push fits if all it had before did. -/
theorem Fits.client {system : ChannelSystem slotCount} (h : system.Fits) (arena : system.Arena)
    {id : ClientId} {channel : UdpChannel slotCount} {pc : ClientPc}
    (heffect : system.channel.ClientEffect system.buffers id (system.clients id).pc channel pc) :
    (∀ packet, pc.offers = some packet → packet.2.toNat ≤ motorUdpPacketCap) ∧
      ∀ packet ∈ channel.commits, packet.2.toNat ≤ motorUdpPacketCap := by
  cases heffect with
  | keep _ commits _ _ offers =>
      refine ⟨fun packet hpc => ?_, fun packet member => h.commits packet (commits ▸ member)⟩
      rcases offers with hnone | ⟨slot, size, hstoring, rfl⟩
      · rw [hnone] at hpc
        cases hpc
      · cases hpc
        exact h.offered id _ (by rw [hstoring]; rfl)
  | write _ _ offers =>
      refine ⟨fun packet hpc => ?_, h.commits⟩
      rw [offers] at hpc
      cases hpc
  | offer fits =>
      refine ⟨fun packet hpc => ?_, h.commits⟩
      cases hpc
      exact fits.elim (fun hsize => hsize) fun hsize => arena.cap_toNat ▸ hsize
  | push offered _ =>
      refine ⟨nofun, fun packet member => ?_⟩
      rcases List.mem_append.mp member with hold | hnew
      · exact h.commits packet hold
      · obtain rfl := List.mem_singleton.mp hnew
        exact h.offered id _ (by rw [offered]; rfl)

theorem step_fits (system : ChannelSystem slotCount) (action : Action)
    (next : ChannelSystem slotCount) (h : system.Fits) (arena : system.Arena)
    (hstep : system.step action = some next) : next.Fits := by
  cases step_moves hstep with
  | @client id _ _ _ client taken =>
      obtain ⟨hoffers, hcommits⟩ := h.client arena (UdpChannel.clientStep_effect taken)
      refine ⟨fun other packet hpc => ?_, hcommits⟩
      by_cases hother : other = id
      · subst hother
        simp only [Function.update_self] at hpc
        exact hoffers packet hpc
      · simp only [Function.update_of_ne hother] at hpc
        exact h.offered other packet hpc
  | tx taken =>
      exact ⟨h.offered, fun packet member =>
        h.commits packet ((UdpChannel.txStep_moves taken).commits ▸ member)⟩
  | stop => exact ⟨h.offered, h.commits⟩
  | requestStop => exact ⟨h.offered, h.commits⟩
  | cancelWait => exact ⟨h.offered, h.commits⟩

end ChannelSystem

end ServoFleet
