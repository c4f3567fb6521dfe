import ServoFleet.ChannelSystem
import ServoFleet.Theory.SlotLedger

/-!
The channel as a ledger of its slots, and what the clients in the middle of a
call know of their packet buffers.
-/

namespace ServoFleet

open SlotLedger

inductive ThreadId where
  | tx
  | client (id : ClientId)
  deriving DecidableEq, Repr

/-- The hands of a client. While a packet buffer is released, its slot stays in the buffer. -/
def ClientPc.hand : ClientPc → Hand Slot (BitVec 32)
  | .acquired slot => .holding slot
  | .storing slot _ => .holding slot
  | .pushing slot size => .stored slot size
  | .releasing slot .busy | .releasing slot .discard => .holding slot
  | .freeing slot .busy | .freeing slot .discard => .stored slot 0
  | .dropping slot index => .popped slot index
  | _ => .empty

/-- The slot a packet buffer owns. -/
def PacketBuffer.held (packet : PacketBuffer) : Option Slot :=
  if packet.owner = .this then some packet.slot else none

def Buffers.held (buffers : Buffers) (id : BufferId) : Option Slot :=
  (buffers id).bind fun object => object.packet.held

/-- The buffer, if it is live, has no owner. -/
def Buffers.Null (buffers : Buffers) (id : BufferId) : Prop :=
  ∀ object, buffers id = some object → object.packet.owner = .null

/-- The call under way may give the buffer a slot. -/
def ClientPc.Fills (id : BufferId) : ClientPc → Prop
  | .preparing target => target = id
  | .releasing _ (.assign target _) => target = id
  | .freeing _ (.assign target _) => target = id
  | .taking target _ => target = id
  | _ => False

/-- The action begins a call that may give the buffer a slot, or builds a buffer there. -/
def ClientAction.Fills (id : BufferId) : ClientAction → Prop
  | .prepare target => target = id
  | .moveConstruct target _ => target = id
  | .moveAssign target _ => target = id
  | .foreign target _ => target = id
  | _ => False

namespace UdpChannel

variable {slotCount : Nat}

def ledger (channel : UdpChannel slotCount) (buffers : Buffers)
    (hands : ThreadId → Hand Slot (BitVec 32)) : Ledger Slot BufferId ThreadId (BitVec 32) where
  free := channel.pool.freeSlots.toList
  pending := channel.pool.pendingSlots.toList
  sizes := channel.pool.packetSize
  commits := channel.commits
  pops := channel.pops
  buffered := buffers.held
  hands

/-! ## Buffers -/

def Owns (buffers : Buffers) (client : ClientId) (id : BufferId) (held : Option Slot) : Prop :=
  ∃ packet, own buffers client id = some packet ∧ packet.held = held

theorem own_eq_some {buffers : Buffers} {client : ClientId} {id : BufferId}
    {packet : PacketBuffer} :
    own buffers client id = some packet ↔ buffers id = some { user := client, packet } := by
  rw [own]
  split
  · rename_i object hobject
    rw [hobject]
    obtain ⟨user, packet'⟩ := object
    constructor
    · intro h
      split_ifs at h with huser
      obtain rfl := Option.some.inj h
      rw [← huser]
    · intro h
      cases h
      exact if_pos rfl
  · rename_i hnone
    rw [hnone]
    exact ⟨nofun, nofun⟩

theorem held_of_own {buffers : Buffers} {client : ClientId} {id : BufferId}
    {packet : PacketBuffer} (h : own buffers client id = some packet) :
    buffers.held id = packet.held := by
  rw [Buffers.held, own_eq_some.mp h]
  rfl

theorem held_put (buffers : Buffers) (client : ClientId) (id : BufferId) (packet : PacketBuffer) :
    (put buffers client id packet).held = Function.update buffers.held id packet.held := by
  funext other
  by_cases hother : other = id
  · subst hother
    rw [Buffers.held, put, Function.update_self, Function.update_self]
    rfl
  · rw [Function.update_of_ne hother, Buffers.held, put, Function.update_of_ne hother, Buffers.held]

theorem own_put_self (buffers : Buffers) (client : ClientId) (id : BufferId)
    (packet : PacketBuffer) : own (put buffers client id packet) client id = some packet :=
  own_eq_some.mpr (Function.update_self _ _ _)

theorem own_put_of_ne (buffers : Buffers) (client user : ClientId) {id other : BufferId}
    (packet : PacketBuffer) (hne : other ≠ id) :
    own (put buffers user id packet) client other = own buffers client other := by
  rw [own, own, put, Function.update_of_ne hne]

theorem held_remove (buffers : Buffers) (id : BufferId) :
    Buffers.held (Function.update buffers id none) = Function.update buffers.held id none := by
  funext other
  by_cases hother : other = id
  · subst hother
    rw [Buffers.held, Function.update_self, Function.update_self]
    rfl
  · rw [Function.update_of_ne hother, Buffers.held, Function.update_of_ne hother, Buffers.held]

@[simp] theorem held_clear (packet : PacketBuffer) : packet.clear.held = none := rfl

theorem held_of_this {packet : PacketBuffer} (h : packet.owner = .this) :
    packet.held = some packet.slot := if_pos h

theorem held_of_ne {packet : PacketBuffer} (h : packet.owner ≠ .this) : packet.held = none :=
  if_neg h

/-- What a client in the middle of a call knows of the buffers it is to change. -/
def Consistent (buffers : Buffers) (client : ClientId) : ClientPc → Prop
  | .preparing id => Owns buffers client id none
  | .releasing slot (.destroy id) | .freeing slot (.destroy id) =>
      Owns buffers client id (some slot)
  | .releasing slot (.assign id other) | .freeing slot (.assign id other) =>
      id ≠ other ∧ Owns buffers client id (some slot) ∧ ∃ held, Owns buffers client other held
  | .taking id other =>
      id ≠ other ∧ Owns buffers client id none ∧ ∃ held, Owns buffers client other held
  | _ => True

/-- Only buffers of the client have changed, or come to be. One that is not
filled has lost its owner or holds what it held. -/
def Touches (client : ClientId) (fills : BufferId → Prop) (buffers after : Buffers) : Prop :=
  ∀ id, after id = buffers id ∨
    ((buffers id = none ∨ ∃ packet, own buffers client id = some packet) ∧
      (fills id ∨ ∀ object, after id = some object →
        object.packet.owner = .null ∨ own buffers client id = some object.packet))

section Touches

variable {client : ClientId} {fills : BufferId → Prop} {buffers middle after : Buffers}
  {id : BufferId}

theorem Touches.refl : Touches client fills buffers buffers := fun _ => .inl rfl

theorem Touches.trans (first : Touches client fills buffers middle)
    (second : Touches client fills middle after) : Touches client fills buffers after := by
  intro id
  rcases second id with hsame | ⟨hmine, hnew⟩
  · rw [hsame]
    exact first id
  · rcases first id with hsame | ⟨hmine', hold⟩
    · have hown : own middle client id = own buffers client id := by rw [own, own, hsame]
      rw [hsame, hown] at hmine
      rw [hown] at hnew
      exact .inr ⟨hmine, hnew⟩
    · refine .inr ⟨hmine', ?_⟩
      rcases hnew with hfills | hnew
      · exact .inl hfills
      rcases hold with hfills | hold
      · exact .inl hfills
      refine .inr fun object hobject => ?_
      rcases hnew object hobject with hnull | hmiddle
      · exact .inl hnull
      · exact hold { user := client, packet := object.packet } (own_eq_some.mp hmiddle)

theorem Touches.update {object : Option BufferObject}
    (hmine : buffers id = none ∨ ∃ packet, own buffers client id = some packet)
    (hnew : fills id ∨ ∀ new, object = some new →
      new.packet.owner = .null ∨ own buffers client id = some new.packet) :
    Touches client fills buffers (Function.update buffers id object) := by
  intro other
  by_cases hother : other = id
  · subst hother
    rw [Function.update_self]
    exact .inr ⟨hmine, hnew⟩
  · exact .inl (Function.update_of_ne hother _ _)

/-- The client clears, removes or fills a buffer of its own. -/
theorem Touches.clear {packet : PacketBuffer} (hown : own buffers client id = some packet) :
    Touches client fills buffers (put buffers client id packet.clear) :=
  .update (.inr ⟨packet, hown⟩) (.inr fun _ hnew => .inl (by cases hnew; rfl))

theorem Touches.remove {packet : PacketBuffer} (hown : own buffers client id = some packet) :
    Touches client fills buffers (Function.update buffers id none) :=
  .update (.inr ⟨packet, hown⟩) (.inr nofun)

theorem Touches.fill {packet : PacketBuffer} (hown : own buffers client id = some packet)
    (hfills : fills id) (new : PacketBuffer) :
    Touches client fills buffers (put buffers client id new) :=
  .update (.inr ⟨packet, hown⟩) (.inl hfills)

/-- The client builds a buffer where there was none. -/
theorem Touches.build (hnone : buffers id = none) (hfills : fills id) (new : PacketBuffer) :
    Touches client fills buffers (put buffers client id new) :=
  .update (.inl hnone) (.inl hfills)

/-- The buffers of other clients stay as they are. -/
theorem Touches.own (h : Touches client fills buffers after) {other : ClientId}
    (hne : other ≠ client) {packet : PacketBuffer} (hown : own buffers other id = some packet) :
    UdpChannel.own after other id = some packet := by
  rw [own_eq_some] at hown ⊢
  rcases h id with hsame | ⟨hnone | ⟨packet', hown'⟩, _⟩
  · rw [hsame, hown]
  · rw [hnone] at hown
    cases hown
  · rw [own_eq_some, hown] at hown'
    cases hown'
    exact absurd rfl hne

theorem Touches.owns (h : Touches client fills buffers after) {other : ClientId}
    (hne : other ≠ client) {held : Option Slot} (howns : Owns buffers other id held) :
    Owns after other id held := by
  obtain ⟨packet, hown, hheld⟩ := howns
  exact ⟨packet, h.own hne hown, hheld⟩

theorem Touches.consistent (h : Touches client fills buffers after) {other : ClientId}
    (hne : other ≠ client) (pc : ClientPc) (hpc : Consistent buffers other pc) :
    Consistent after other pc := by
  have hkept : ∀ id held, Owns buffers other id held → Owns after other id held :=
    fun id held => h.owns hne
  have hsome : ∀ id, (∃ held, Owns buffers other id held) → ∃ held, Owns after other id held :=
    fun id ⟨held, howns⟩ => ⟨held, hkept id held howns⟩
  cases pc with
  | preparing id => exact hkept _ _ hpc
  | releasing slot continuation =>
      cases continuation with
      | destroy id => exact hkept _ _ hpc
      | assign id other => exact ⟨hpc.1, hkept _ _ hpc.2.1, hsome _ hpc.2.2⟩
      | _ => trivial
  | freeing slot continuation =>
      cases continuation with
      | destroy id => exact hkept _ _ hpc
      | assign id other => exact ⟨hpc.1, hkept _ _ hpc.2.1, hsome _ hpc.2.2⟩
      | _ => trivial
  | taking id other => exact ⟨hpc.1, hkept _ _ hpc.2.1, hsome _ hpc.2.2⟩
  | _ => trivial

/-- A buffer without an owner that is not filled stays so. -/
theorem Touches.null (h : Touches client fills buffers after) (hfills : ¬ fills id)
    (hnull : buffers.Null id) : after.Null id := by
  intro object hobject
  rcases h id with hsame | ⟨_, hnew⟩
  · exact hnull object (hsame ▸ hobject)
  · rcases hnew.resolve_left hfills object hobject with howner | hown
    · exact howner
    · exact hnull { user := client, packet := object.packet } (own_eq_some.mp hown)

end Touches

/-! ## The ledger of a channel that has changed -/

/-- The slots of a channel. -/
def IsSlot (slotCount : Nat) (slot : Slot) : Prop := slot.toNat < slotCount

section Ledger

variable {channel : UdpChannel slotCount} {buffers : Buffers} {client : ClientId}

theorem ledger_put (id : BufferId) (packet : PacketBuffer)
    (hands : ThreadId → Hand Slot (BitVec 32)) :
    channel.ledger (put buffers client id packet) hands =
      { channel.ledger buffers hands with
        buffered := Function.update buffers.held id packet.held } := by
  rw [ledger, held_put]
  rfl

theorem ledger_remove (id : BufferId) (hands : ThreadId → Hand Slot (BitVec 32)) :
    channel.ledger (Function.update buffers id none) hands =
      { channel.ledger buffers hands with buffered := Function.update buffers.held id none } := by
  rw [ledger, held_remove]
  rfl

/-- A step that changes nothing the ledger sees. -/
theorem transfer_rest {after : UdpChannel slotCount} {buffers' : Buffers} {thread : ThreadId}
    {hands : ThreadId → Hand Slot (BitVec 32)} {hand : Hand Slot (BitVec 32)}
    (hsame : after.ledger buffers' hands = channel.ledger buffers hands)
    (hhand : hands thread = hand) :
    (channel.ledger buffers hands).Step thread
      (after.ledger buffers' (Function.update hands thread hand)) := by
  subst hhand
  rw [Function.update_eq_self, hsame]
  exact .rest

theorem ledger_put_same {id : BufferId} {packet : PacketBuffer}
    (hsame : buffers.held id = packet.held) (user : ClientId)
    (hands : ThreadId → Hand Slot (BitVec 32)) :
    channel.ledger (put buffers user id packet) hands = channel.ledger buffers hands := by
  rw [ledger, held_put, ← hsame, Function.update_eq_self]
  rfl

theorem ledger_remove_same {id : BufferId} (hsame : buffers.held id = none)
    (hands : ThreadId → Hand Slot (BitVec 32)) :
    channel.ledger (Function.update buffers id none) hands = channel.ledger buffers hands := by
  rw [ledger, held_remove, ← hsame, Function.update_eq_self]
  rfl

theorem ledger_store {slot : Slot} {size : BitVec 32} {pool : PacketPool slotCount}
    (h : channel.pool.storeSize slot size = some pool) (hands : ThreadId → Hand Slot (BitVec 32)) :
    ({ channel with pool } : UdpChannel slotCount).ledger buffers hands =
      { channel.ledger buffers hands with
        sizes := Function.update channel.pool.packetSize slot (some size) } := by
  obtain ⟨hsizes, hfree, hpending⟩ := PacketPool.packetSize_store h
  rw [ledger, hsizes, hfree, hpending]
  rfl

theorem ledger_fill {span : ArenaSpan} {bytes : List Byte} {pool : PacketPool slotCount}
    (h : channel.pool.fill span bytes = some pool) (hands : ThreadId → Hand Slot (BitVec 32)) :
    ({ channel with pool } : UdpChannel slotCount).ledger buffers hands =
      channel.ledger buffers hands := by
  obtain ⟨hsizes, hfree, hpending⟩ := PacketPool.fill_kept h
  rw [ledger, hsizes, hfree, hpending]
  rfl

/-- A push that finds room. -/
theorem ledger_pushPending (slot : Slot)
    (hroom : channel.pool.pendingSlots.toList.length < slotCount)
    (commits : List (Slot × BitVec 32)) (hands : ThreadId → Hand Slot (BitVec 32)) :
    ∃ pool, channel.pool.pushPending slot = (true, pool) ∧
      ({ channel with pool, commits } : UdpChannel slotCount).ledger buffers hands =
        { channel.ledger buffers hands with
          pending := channel.pool.pendingSlots.toList ++ [slot]
          commits } := by
  obtain ⟨pendingSlots, hpush, hlist⟩ := PacketPool.pushPending_room slot hroom
  refine ⟨_, hpush, ?_⟩
  rw [ledger, ← hlist]
  rfl

/-- A release that finds room. -/
theorem ledger_pushFree (slot : Slot) (hroom : channel.pool.freeSlots.toList.length < slotCount)
    (hands : ThreadId → Hand Slot (BitVec 32)) :
    ({ channel with pool := (channel.pool.pushFree slot).2 } : UdpChannel slotCount).ledger
        buffers hands =
      { channel.ledger buffers hands with free := channel.pool.freeSlots.toList ++ [slot] } := by
  obtain ⟨freeSlots, hpush, hlist⟩ := PacketPool.pushFree_room slot hroom
  rw [hpush, ledger, ← hlist]
  rfl

theorem held_of_none {id : BufferId} (h : buffers id = none) : buffers.held id = none := by
  rw [Buffers.held, h]
  rfl

/-- The slots of the channel, as a list. -/
theorem mem_slots (slot : Slot) (h : IsSlot slotCount slot) :
    slot ∈ (List.range slotCount).map (BitVec.ofNat 32) :=
  List.mem_map.mpr ⟨slot.toNat, List.mem_range.mpr h, by simp⟩

theorem length_slots : ((List.range slotCount).map (BitVec.ofNat 32)).length = slotCount := by
  rw [List.length_map, List.length_range]

section Room

variable {hands : ThreadId → Hand Slot (BitVec 32)}
  (hinv : (channel.ledger buffers hands).Invariant (IsSlot slotCount)) {slot : Slot}
  (place : Place BufferId ThreadId)

include hinv

/-- A slot that is somewhere else finds room in the free ring. -/
theorem free_room (hplace : (channel.ledger buffers hands).At slot place) (hne : .free ≠ place) :
    channel.pool.freeSlots.toList.length < slotCount := by
  have hroom := (hinv.room mem_slots place hplace).1 hne
  rwa [length_slots] at hroom

/-- A slot that is somewhere else finds room in the pending ring. -/
theorem pending_room (hplace : (channel.ledger buffers hands).At slot place)
    (hne : .pending ≠ place) : channel.pool.pendingSlots.toList.length < slotCount := by
  have hroom := (hinv.room mem_slots place hplace).2 hne
  rwa [length_slots] at hroom

end Room

end Ledger

end UdpChannel

end ServoFleet
