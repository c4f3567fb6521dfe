import ServoFleet.ChannelSend

/-!
The arena of the packet slots. What `make_send_storage` accepts has no product that
wraps in 32 bits, so the buffers of the slots lie one after the other in it. Who
uses which slot at what time is left out.
-/

namespace ServoFleet

/-- Spans without a common byte. -/
def ArenaSpan.Apart (span other : ArenaSpan) : Prop :=
  span.offset + span.length ≤ other.offset ∨ other.offset + other.length ≤ span.offset

section Accepted

variable {sendQueueSlots packetCap : BitVec 32}

/-- The division stops exactly the pairs whose true product takes more than 32 bits. -/
theorem makeSendStorage_none_iff : makeSendStorage sendQueueSlots packetCap = none ↔
    packetCap = 0 ∨ 2 ^ 32 ≤ sendQueueSlots.toNat * packetCap.toNat := by
  have hthrows : makeSendStorage sendQueueSlots packetCap = none ↔
      packetCap = 0 ∨ sendQueueSlots > BitVec.allOnes 32 / packetCap := by
    rw [makeSendStorage, ite_eq_left_iff]
    constructor
    · intro h
      by_contra hthrow
      exact Option.some_ne_none _ (h hthrow)
    · exact fun h hnot => absurd h hnot
  rw [hthrows]
  rcases eq_or_ne packetCap 0 with hzero | hcap
  · exact iff_of_true (.inl hzero) (.inl hzero)
  · have hpos : 0 < packetCap.toNat := Nat.pos_of_ne_zero fun h => hcap (BitVec.toNat_inj.mp h)
    rw [or_iff_right hcap, or_iff_right hcap, gt_iff_lt, BitVec.lt_def, BitVec.toNat_udiv,
      BitVec.toNat_allOnes, Nat.div_lt_iff_lt_mul hpos]
    omega

/-- Accepted storage has one buffer for each slot. -/
theorem makeSendStorage_accepted {storage : List Byte}
    (h : makeSendStorage sendQueueSlots packetCap = some storage) :
    sendQueueSlots.toNat * packetCap.toNat < 2 ^ 32 ∧
      storage.length = sendQueueSlots.toNat * packetCap.toNat := by
  have hfits : sendQueueSlots.toNat * packetCap.toNat < 2 ^ 32 := by
    by_contra hwraps
    rw [makeSendStorage_none_iff.mpr (.inr (Nat.le_of_not_lt hwraps))] at h
    cases h
  refine ⟨hfits, ?_⟩
  rw [makeSendStorage] at h
  split_ifs at h
  obtain rfl := Option.some.inj h
  rw [List.length_replicate, BitVec.toNat_mul, Nat.mod_eq_of_lt hfits]

end Accepted

namespace PacketPool

variable {slotCount : Nat} (pool : PacketPool slotCount) {slot other : Slot}

theorem slotBuffer_eq (hfits : slotCount * pool.packetCap.toNat < 2 ^ 32)
    (hslot : slot.toNat < slotCount) :
    pool.slotBuffer slot =
      { offset := slot.toNat * pool.packetCap.toNat, length := pool.packetCap.toNat } := by
  have hlt : slot.toNat * pool.packetCap.toNat < 2 ^ 32 :=
    Nat.lt_of_le_of_lt (Nat.mul_le_mul_right _ hslot.le) hfits
  rw [slotBuffer, BitVec.toNat_mul, Nat.mod_eq_of_lt hlt]

/-- A slot's buffer ends where that of the next slot begins. -/
private theorem slot_end {a b : Nat} (cap : Nat) (h : a < b) : a * cap + cap ≤ b * cap := by
  rw [← Nat.succ_mul]
  exact Nat.mul_le_mul_right cap h

theorem slotBuffer_inside (hfits : slotCount * pool.packetCap.toNat < 2 ^ 32)
    (hslot : slot.toNat < slotCount) :
    (pool.slotBuffer slot).offset + (pool.slotBuffer slot).length ≤
      slotCount * pool.packetCap.toNat := by
  rw [pool.slotBuffer_eq hfits hslot]
  exact slot_end _ hslot

theorem slotBuffer_apart (hfits : slotCount * pool.packetCap.toNat < 2 ^ 32)
    (hslot : slot.toNat < slotCount) (hother : other.toNat < slotCount) (hne : slot ≠ other) :
    (pool.slotBuffer slot).Apart (pool.slotBuffer other) := by
  rw [pool.slotBuffer_eq hfits hslot, pool.slotBuffer_eq hfits hother]
  rcases Nat.lt_or_gt_of_ne fun h => hne (BitVec.eq_of_toNat_eq h) with hlt | hgt
  · exact .inl (slot_end _ hlt)
  · exact .inr (slot_end _ hgt)

end PacketPool

/-- Storage that is accepted has room for the buffers of all slots, which lie inside it
and apart, for its pool as constructed and in any later state: no call changes the size of
a packet or of the storage. Only pairs that would wrap, and packets of no bytes, are
refused. -/
theorem slot_buffers_apart (sendQueueSlots packetCap : BitVec 32) :
    (∀ storage, makeSendStorage sendQueueSlots packetCap = some storage →
      storage.length = sendQueueSlots.toNat * packetCap.toNat ∧
      ∀ pool : PacketPool sendQueueSlots.toNat, pool.packetCap = packetCap →
        pool.storage.length = storage.length →
        (∀ slot : Slot, slot < sendQueueSlots →
          (pool.slotBuffer slot).offset = slot.toNat * packetCap.toNat ∧
          (pool.slotBuffer slot).length = packetCap.toNat ∧
          (pool.slotBuffer slot).offset + (pool.slotBuffer slot).length ≤
            pool.storage.length) ∧
        ∀ a b : Slot, a < sendQueueSlots → b < sendQueueSlots → a ≠ b →
          (pool.slotBuffer a).Apart (pool.slotBuffer b)) ∧
    (makeSendStorage sendQueueSlots packetCap = none ↔
      packetCap = 0 ∨ (BitVec.allOnes 32).toNat < sendQueueSlots.toNat * packetCap.toNat) := by
  refine ⟨fun storage h => ?_, makeSendStorage_none_iff⟩
  obtain ⟨hfits, hlength⟩ := makeSendStorage_accepted h
  refine ⟨hlength, ?_⟩
  rintro pool rfl hstorage
  refine ⟨fun slot hslot => ?_, fun a b ha hb => ?_⟩
  · have hinside := pool.slotBuffer_inside hfits (BitVec.lt_def.mp hslot)
    rw [← hlength, ← hstorage] at hinside
    have hspan := pool.slotBuffer_eq hfits (BitVec.lt_def.mp hslot)
    exact ⟨congrArg ArenaSpan.offset hspan, congrArg ArenaSpan.length hspan, hinside⟩
  · exact pool.slotBuffer_apart hfits (BitVec.lt_def.mp ha) (BitVec.lt_def.mp hb)

end ServoFleet
