import ServoFleet.SendStorage
import ServoFleet.SlotSafety

/-!
The arena of a real-time channel: no step moves a slot or changes the size of the
storage, so every slot keeps a buffer of its own.
-/

namespace ServoFleet

namespace PacketPool

variable {slotCount : Nat} {pool next : PacketPool slotCount}

/-- Two pools whose slots have the same buffers. -/
def SameArena (pool next : PacketPool slotCount) : Prop :=
  next.packetCap = pool.packetCap ∧ next.storage.length = pool.storage.length

theorem SameArena.of_eq (h : next = pool) : SameArena pool next := by
  subst h
  exact ⟨rfl, rfl⟩

theorem acquireSlot_arena {result : Result Slot} (h : pool.acquireSlot = (result, next)) :
    SameArena pool next := by
  rw [acquireSlot] at h
  split at h <;> obtain ⟨_, rfl⟩ := Prod.mk.inj h <;> exact ⟨rfl, rfl⟩

theorem storeSize_arena {slot : Slot} {size : BitVec 32}
    (h : pool.storeSize slot size = some next) : SameArena pool next := by
  rw [storeSize] at h
  split_ifs at h
  obtain rfl := Option.some.inj h
  exact ⟨rfl, rfl⟩

theorem pushPending_arena {slot : Slot} {pushed : Bool}
    (h : pool.pushPending slot = (pushed, next)) : SameArena pool next := by
  rw [pushPending] at h
  obtain ⟨_, rfl⟩ := Prod.mk.inj h
  exact ⟨rfl, rfl⟩

theorem popPending_arena {slot : Slot} (h : pool.popPending = some (slot, next)) :
    SameArena pool next := by
  rw [popPending] at h
  split at h
  · obtain ⟨_, rfl⟩ := Prod.mk.inj (Option.some.inj h)
    exact ⟨rfl, rfl⟩
  · cases h

theorem pushFree_arena (slot : Slot) : SameArena pool (pool.pushFree slot).2 := ⟨rfl, rfl⟩

theorem fill_arena {span : ArenaSpan} {bytes : List Byte} (h : pool.fill span bytes = some next) :
    SameArena pool next := by
  rw [fill] at h
  split_ifs at h with hfit
  obtain rfl := Option.some.inj h
  refine ⟨rfl, ?_⟩
  simp only [List.length_append, List.length_take, List.length_drop]
  omega

/-- What is written to a span leaves the bytes of one apart from it. -/
theorem fill_apart {span other : ArenaSpan} {bytes : List Byte}
    (h : pool.fill span bytes = some next) (hapart : other.Apart span) :
    subspan next.storage other.offset other.length =
      subspan pool.storage other.offset other.length := by
  have harena := (fill_arena h).2
  rw [fill] at h
  split_ifs at h with hfit
  obtain rfl := Option.some.inj h
  simp only [subspan]
  rw [harena]
  split_ifs with hinside
  · refine congrArg some (List.ext_getElem? fun i => ?_)
    rw [List.getElem?_take, List.getElem?_take]
    split_ifs with hi
    · rw [List.getElem?_drop, List.getElem?_drop, List.append_assoc]
      rcases hapart with hbefore | hbehind
      · rw [List.getElem?_append_left (by rw [List.length_take]; omega),
          List.getElem?_take_of_lt (by omega)]
      · rw [List.getElem?_append_right (by rw [List.length_take]; omega),
          List.getElem?_append_right (by rw [List.length_take]; omega), List.getElem?_drop,
          List.length_take]
        congr 1
        omega
    · rfl
  · rfl

end PacketPool

namespace UdpChannel

open PacketPool

variable {slotCount : Nat} {channel : UdpChannel slotCount} {buffers : Buffers}
  {client : ClientId}

/-- A step that goes on without touching the pool. -/
theorem rest_arena {β : Type} {channel' : UdpChannel slotCount} {next : β}
    {after : UdpChannel slotCount × β} (h : some (channel', next) = some after)
    (hsame : channel'.pool = channel.pool) : SameArena channel.pool after.1.pool := by
  obtain rfl := Option.some.inj h
  exact .of_eq hsame

theorem advance_arena {pc : ClientPc} {after : UdpChannel slotCount × Buffers × Client}
    (h : channel.advance buffers client pc = some after) :
    SameArena channel.pool after.1.pool := by
  cases pc with
  | idle => cases h
  | acquired slot => cases h
  | preparing id =>
      obtain rfl := Option.some.inj h
      rw [prepareSlot]
      split
      · exact acquireSlot_arena ‹_›
      · exact acquireSlot_arena ‹_›
  | storing slot size =>
      rw [advance, Option.bind_eq_bind, Option.bind_eq_some_iff] at h
      obtain ⟨pool, hstore, h⟩ := h
      obtain rfl := Option.some.inj h
      exact storeSize_arena hstore
  | pushing slot size =>
      obtain rfl := Option.some.inj h
      rw [pushSlot]
      split
      · exact pushPending_arena ‹_›
      · exact pushPending_arena ‹_›
  | notifying => exact rest_arena h rfl
  | releasing slot continuation =>
      rw [advance, Option.bind_eq_bind, Option.bind_eq_some_iff] at h
      obtain ⟨pool, hstore, h⟩ := h
      obtain rfl := Option.some.inj h
      exact storeSize_arena hstore
  | freeing slot continuation =>
      rw [advance, Option.bind_eq_bind, Option.bind_eq_some_iff] at h
      obtain ⟨_, _, h⟩ := h
      obtain rfl := Option.some.inj h
      exact pushFree_arena slot
  | taking id other =>
      rw [advance, takeOver, Option.bind_eq_bind, Option.bind_eq_some_iff] at h
      obtain ⟨packet, _, h⟩ := h
      exact rest_arena h rfl
  | discarding =>
      obtain rfl := Option.some.inj h
      rw [discardSlot]
      split
      · exact popPending_arena ‹_›
      · exact ⟨rfl, rfl⟩
  | dropping slot index =>
      rw [advance, Option.bind_eq_bind, Option.bind_eq_some_iff] at h
      obtain ⟨size, _, h⟩ := h
      exact rest_arena h rfl

section Begin

variable {after : UdpChannel slotCount × Buffers × Client} {id other : BufferId}

theorem prepareSend_arena (h : channel.prepareSend buffers client id = some after) :
    SameArena channel.pool after.1.pool := by
  rw [prepareSend] at h
  split_ifs at h <;> exact rest_arena h rfl

theorem commitSend_arena {size : BitVec 32}
    (h : channel.commitSend buffers client id size = some after) :
    SameArena channel.pool after.1.pool := by
  rw [commitSend, Option.bind_eq_bind, Option.bind_eq_some_iff] at h
  obtain ⟨packet, _, h⟩ := h
  split_ifs at h <;> exact rest_arena h rfl

theorem destroy_arena (h : channel.destroy buffers client id = some after) :
    SameArena channel.pool after.1.pool := by
  rw [destroy, Option.bind_eq_bind, Option.bind_eq_some_iff] at h
  obtain ⟨packet, _, h⟩ := h
  split_ifs at h <;> exact rest_arena h rfl

theorem moveConstruct_arena (h : channel.moveConstruct buffers client id other = some after) :
    SameArena channel.pool after.1.pool := by
  rw [moveConstruct, Option.bind_eq_bind, Option.bind_eq_some_iff] at h
  obtain ⟨packet, _, h⟩ := h
  split_ifs at h
  exact rest_arena h rfl

theorem moveAssign_arena (h : channel.moveAssign buffers client id other = some after) :
    SameArena channel.pool after.1.pool := by
  rw [moveAssign, Option.bind_eq_bind, Option.bind_eq_some_iff] at h
  obtain ⟨packet, _, h⟩ := h
  rw [Option.bind_eq_some_iff] at h
  obtain ⟨otherPacket, _, h⟩ := h
  split_ifs at h <;> exact rest_arena h rfl

theorem fill_step_arena {span : ArenaSpan} {bytes : List Byte} {next : Client}
    (h : (do
      let pool ← channel.pool.fill span bytes
      return ({ channel with pool }, buffers, next)) = some after) :
    SameArena channel.pool after.1.pool := by
  rw [Option.bind_eq_bind, Option.bind_eq_some_iff] at h
  obtain ⟨pool, hfill, h⟩ := h
  obtain rfl := Option.some.inj h
  exact fill_arena hfill

theorem clientStep_arena {pc : ClientPc} {action : ClientAction}
    (h : channel.clientStep buffers client pc action = some after) :
    SameArena channel.pool after.1.pool := by
  unfold clientStep at h
  split at h
  · exact advance_arena h
  · obtain rfl := Option.some.inj h
    rw [acquire]
    split
    · exact acquireSlot_arena ‹_›
    · exact acquireSlot_arena ‹_›
  · exact fill_step_arena h
  · split_ifs at h
    exact rest_arena h rfl
  · exact prepareSend_arena h
  · rw [Option.bind_eq_bind, Option.bind_eq_some_iff] at h
    obtain ⟨packet, _, h⟩ := h
    exact fill_step_arena h
  · exact commitSend_arena h
  · exact destroy_arena h
  · exact moveConstruct_arena h
  · exact moveAssign_arena h
  · rw [Option.bind_eq_bind, Option.bind_eq_some_iff] at h
    obtain ⟨packet, _, h⟩ := h
    exact rest_arena h rfl
  · split_ifs at h
    exact rest_arena h rfl
  · exact rest_arena h rfl
  · cases h

end Begin

theorem TxMoves.arena {channel' : UdpChannel slotCount} {pc next : TxPc}
    (h : TxMoves channel pc channel' next) : SameArena channel.pool channel'.pool := by
  cases h with
  | rest same _ _ => exact .of_eq same.pool
  | forget same _ => exact .of_eq same.pool
  | pop _ _ _ => exact ⟨rfl, rfl⟩
  | read _ _ => exact ⟨rfl, rfl⟩
  | store _ stored => exact storeSize_arena stored
  | free _ => exact pushFree_arena _

end UdpChannel

namespace ChannelSystem

open PacketPool

variable {slotCount : Nat}

/-- What `make_send_storage` and the constructor of the pool have set up. -/
structure Arena (system : ChannelSystem slotCount) : Prop where
  cap : system.channel.pool.packetCap = BitVec.ofNat 32 motorUdpPacketCap
  fits : slotCount * motorUdpPacketCap < 2 ^ 32
  storage : system.channel.pool.storage.length = slotCount * motorUdpPacketCap

theorem Arena.cap_toNat {system : ChannelSystem slotCount} (arena : system.Arena) :
    system.channel.pool.packetCap.toNat = motorUdpPacketCap := congrArg BitVec.toNat arena.cap

/-- Every slot has its own 512 bytes. -/
theorem Arena.slotBuffer {system : ChannelSystem slotCount} (arena : system.Arena) {slot : Slot}
    (hslot : slot.toNat < slotCount) :
    system.channel.pool.slotBuffer slot =
      { offset := slot.toNat * motorUdpPacketCap, length := motorUdpPacketCap } := by
  rw [system.channel.pool.slotBuffer_eq (arena.cap_toNat ▸ arena.fits) hslot, arena.cap_toNat]

theorem Arena.apart {system : ChannelSystem slotCount} (arena : system.Arena) {slot other : Slot}
    (hslot : slot.toNat < slotCount) (hother : other.toNat < slotCount) (hne : slot ≠ other) :
    (system.channel.pool.slotBuffer slot).Apart (system.channel.pool.slotBuffer other) :=
  system.channel.pool.slotBuffer_apart (arena.cap_toNat ▸ arena.fits) hslot hother hne

theorem Arena.same {system next : ChannelSystem slotCount} (arena : system.Arena)
    (hsame : SameArena system.channel.pool next.channel.pool) : next.Arena :=
  ⟨hsame.1.trans arena.cap, arena.fits, hsame.2.trans arena.storage⟩

theorem step_arena (system : ChannelSystem slotCount) (action : Action)
    (next : ChannelSystem slotCount) (arena : system.Arena)
    (hstep : system.step action = some next) : next.Arena := by
  cases step_moves hstep with
  | client hclient =>
      exact arena.same (UdpChannel.clientStep_arena hclient)
  | tx htx =>
      exact arena.same (UdpChannel.txStep_moves htx).arena
  | stop =>
      exact arena.same ⟨rfl, rfl⟩
  | requestStop =>
      exact arena.same ⟨rfl, rfl⟩
  | cancelWait =>
      exact arena.same ⟨rfl, rfl⟩

theorem openRealtime_arena {sendQueueSlots : BitVec 32}
    {system : ChannelSystem sendQueueSlots.toNat}
    (hopen : openRealtime sendQueueSlots = some system) : system.Valid ∧ system.Arena := by
  rw [openRealtime, Option.bind_eq_bind, Option.bind_eq_some_iff] at hopen
  obtain ⟨storage, hstorage, hopen⟩ := hopen
  obtain rfl := Option.some.inj hopen
  obtain ⟨hfits, hlength⟩ := makeSendStorage_accepted hstorage
  exact ⟨init_valid _ _ _, rfl, hfits, hlength⟩

end ChannelSystem

end ServoFleet
