import Mathlib.Logic.Function.Basic
import ServoFleet.Device
import ServoFleet.RingQueue

/-!
The packet slots of a channel: an arena with one buffer for each slot, the
committed sizes, and the rings of the free and of the pending slots.
-/

namespace ServoFleet

def udpPacketCap : Nat := 128

def motorUdpPacketCap : Nat := 512

abbrev Slot := BitVec 32

/-- A span of the arena, which the source has as a pointer and a length. -/
structure ArenaSpan where
  offset : Nat := 0
  length : Nat := 0
  deriving DecidableEq, Repr

/-- `packet_pool` and the arena it points to. -/
structure PacketPool (slotCount : Nat) where
  storage : List Byte
  packetCap : BitVec 32
  packetSizes : Vector (BitVec 32) slotCount
  freeSlots : FixedRingQueue Slot slotCount
  pendingSlots : FixedRingQueue Slot slotCount

namespace PacketPool

/-- The constructor, which frees every slot. -/
def init (storage : List Byte) (slotCount packetCap : BitVec 32) : PacketPool slotCount.toNat where
  storage
  packetCap
  packetSizes := Vector.replicate _ 0
  freeSlots := (List.range slotCount.toNat).foldl
    (fun free slot => (free.tryPush (BitVec.ofNat 32 slot)).2) (.init _ 0)
  pendingSlots := .init _ 0

variable {slotCount : Nat}

section Operations

variable (pool : PacketPool slotCount)

def acquireSlot : Result Slot × PacketPool slotCount :=
  match pool.freeSlots.tryPop 0 with
  | (true, slot, freeSlots) => (.ok slot, { pool with freeSlots })
  | (false, _, _) => (.error .busy, pool)

/-- `slot_buffer`; the product is a 32-bit one. -/
def slotBuffer (slot : Slot) : ArenaSpan where
  offset := (slot * pool.packetCap).toNat
  length := pool.packetCap.toNat

/-- What the owner of a span writes at its start. -/
def fill (span : ArenaSpan) (bytes : List Byte) : Option (PacketPool slotCount) :=
  if bytes.length ≤ span.length ∧ span.offset + bytes.length ≤ pool.storage.length then
    some { pool with storage := pool.storage.take span.offset ++ bytes ++
      pool.storage.drop (span.offset + bytes.length) }
  else none

/-! The parts of `enqueue`, `release_slot` and `try_pop_pending` between which
other threads may act. Indexing `packet_sizes_` past its end is undefined behaviour. -/

/-- `packet_sizes_[slot] = size` -/
def storeSize (slot : Slot) (size : BitVec 32) : Option (PacketPool slotCount) :=
  if h : slot.toNat < slotCount then
    some { pool with packetSizes := pool.packetSizes.set slot.toNat size h }
  else none

/-- `packet_sizes_[slot]` -/
def packetSize (slot : Slot) : Option (BitVec 32) := pool.packetSizes[slot.toNat]?

/-- `pending_slots_.try_push(slot)` -/
def pushPending (slot : Slot) : Bool × PacketPool slotCount :=
  match pool.pendingSlots.tryPush slot with
  | (pushed, pendingSlots) => (pushed, { pool with pendingSlots })

/-- `pending_slots_.try_pop(slot)` -/
def popPending : Option (Slot × PacketPool slotCount) :=
  match pool.pendingSlots.tryPop 0 with
  | (true, slot, pendingSlots) => some (slot, { pool with pendingSlots })
  | (false, _, _) => none

/-- `free_slots_.try_push(slot)` -/
def pushFree (slot : Slot) : Bool × PacketPool slotCount :=
  match pool.freeSlots.tryPush slot with
  | (pushed, freeSlots) => (pushed, { pool with freeSlots })

def pendingCount : Nat := pool.pendingSlots.size

end Operations

/-! ## What the operations do to the lists and the sizes -/

section Cases

variable {pool next : PacketPool slotCount}

theorem acquireSlot_cases (pool : PacketPool slotCount) :
    pool.acquireSlot = (.error .busy, pool) ∨
    ∃ slot rest freeSlots, pool.freeSlots.toList = slot :: rest ∧
      pool.acquireSlot = (.ok slot, { pool with freeSlots }) ∧ freeSlots.toList = rest := by
  rcases pool.freeSlots.tryPop_cases 0 with ⟨_, hpop⟩ | ⟨slot, rest, freeSlots, hfree, hpop, hrest⟩
  · exact .inl (by rw [acquireSlot, hpop])
  · exact .inr ⟨slot, rest, freeSlots, hfree, by rw [acquireSlot, hpop], hrest⟩

theorem popPending_cases (pool : PacketPool slotCount) :
    pool.popPending = none ∨
    ∃ slot rest pendingSlots, pool.pendingSlots.toList = slot :: rest ∧
      pool.popPending = some (slot, { pool with pendingSlots }) ∧ pendingSlots.toList = rest := by
  rcases pool.pendingSlots.tryPop_cases 0 with
    ⟨_, hpop⟩ | ⟨slot, rest, pendingSlots, hpending, hpop, hrest⟩
  · exact .inl (by rw [popPending, hpop])
  · exact .inr ⟨slot, rest, pendingSlots, hpending, by rw [popPending, hpop], hrest⟩

theorem pushPending_room (slot : Slot) (hroom : pool.pendingSlots.toList.length < slotCount) :
    ∃ pendingSlots, pool.pushPending slot = (true, { pool with pendingSlots }) ∧
      pendingSlots.toList = pool.pendingSlots.toList ++ [slot] := by
  rcases pool.pendingSlots.tryPush_cases slot with ⟨hfull, _⟩ | ⟨_, pendingSlots, hpush, hlist⟩
  · exact absurd hfull (Nat.ne_of_lt hroom)
  · exact ⟨pendingSlots, by rw [pushPending, hpush], hlist⟩

theorem pushFree_room (slot : Slot) (hroom : pool.freeSlots.toList.length < slotCount) :
    ∃ freeSlots, pool.pushFree slot = (true, { pool with freeSlots }) ∧
      freeSlots.toList = pool.freeSlots.toList ++ [slot] := by
  rcases pool.freeSlots.tryPush_cases slot with ⟨hfull, _⟩ | ⟨_, freeSlots, hpush, hlist⟩
  · exact absurd hfull (Nat.ne_of_lt hroom)
  · exact ⟨freeSlots, by rw [pushFree, hpush], hlist⟩

theorem packetSize_store {slot : Slot} {size : BitVec 32}
    (h : pool.storeSize slot size = some next) :
    next.packetSize = Function.update pool.packetSize slot (some size) ∧
      next.freeSlots = pool.freeSlots ∧ next.pendingSlots = pool.pendingSlots := by
  rw [storeSize] at h
  split_ifs at h with hlt
  obtain rfl := Option.some.inj h
  refine ⟨?_, rfl, rfl⟩
  funext other
  by_cases hother : other = slot
  · subst hother
    rw [Function.update_self, packetSize, Vector.getElem?_set_self]
  · rw [Function.update_of_ne hother, packetSize, packetSize, Vector.getElem?_set_ne]
    exact fun hsame => hother (BitVec.eq_of_toNat_eq hsame.symm)

theorem fill_kept {span : ArenaSpan} {bytes : List Byte} (h : pool.fill span bytes = some next) :
    next.packetSize = pool.packetSize ∧ next.freeSlots = pool.freeSlots ∧
      next.pendingSlots = pool.pendingSlots := by
  rw [fill] at h
  split_ifs at h
  obtain rfl := Option.some.inj h
  exact ⟨rfl, rfl, rfl⟩

theorem storeSize_isSome (pool : PacketPool slotCount) (slot : Slot) (size : BitVec 32)
    (h : slot.toNat < slotCount) : (pool.storeSize slot size).isSome := by
  rw [storeSize, dif_pos h]
  rfl

theorem packetSize_isSome (pool : PacketPool slotCount) (slot : Slot) (h : slot.toNat < slotCount) :
    (pool.packetSize slot).isSome := by
  rw [packetSize, Vector.getElem?_eq_getElem h]
  rfl

end Cases

/-- The constructor pushes every slot once. -/
theorem init_free (storage : List Byte) (slotCount packetCap : BitVec 32) :
    (init storage slotCount packetCap).freeSlots.toList =
      (List.range slotCount.toNat).map (BitVec.ofNat 32) := by
  have hpushed : ∀ count ≤ slotCount.toNat,
      ((List.range count).foldl (fun free slot => (free.tryPush (BitVec.ofNat 32 slot)).2)
        (FixedRingQueue.init slotCount.toNat (0 : Slot))).toList =
      (List.range count).map (BitVec.ofNat 32) := by
    intro count hcount
    induction count with
    | zero => rfl
    | succ count ih =>
        have hpushed' := ih (by omega)
        rw [List.range_succ, List.foldl_append, List.map_append, ← hpushed']
        generalize (List.range count).foldl _ _ = free at hpushed' ⊢
        rcases free.tryPush_cases (BitVec.ofNat 32 count) with
          ⟨hfull, _⟩ | ⟨_, pushed, hpush, hlist⟩
        · rw [hpushed', List.length_map, List.length_range] at hfull
          omega
        · rw [List.foldl_cons, hpush]
          exact hlist
  exact hpushed _ (Nat.le_refl _)

end PacketPool

end ServoFleet
