import ServoFleet.ChannelCalls

/-!
A send that fails leaves the slots, the pending packets and the packet buffers of
its channel as they were. While it is under way its client holds one slot that was
free, and nothing else differs but the bytes of that slot.

The call starts in any state the channel can reach. During the call the other
threads stand still, but for those that stop the channel.
-/

namespace ServoFleet

namespace PacketPool

variable {slotCount : Nat} {pool next : PacketPool slotCount}

theorem pendingPackets_congr (hpending : next.pendingSlots.toList = pool.pendingSlots.toList)
    (h : ∀ slot ∈ pool.pendingSlots.toList, next.packetSize slot = pool.packetSize slot ∧
      next.slotBytes slot = pool.slotBytes slot) :
    next.pendingPackets = pool.pendingPackets := by
  rw [pendingPackets, pendingPackets, hpending]
  refine List.map_congr_left fun slot member => ?_
  obtain ⟨hsize, hbytes⟩ := h slot member
  rw [packet, packet, hsize, hbytes]

theorem storeSize_slotBytes {written : Slot} {size : BitVec 32}
    (h : pool.storeSize written size = some next) (slot : Slot) :
    next.slotBytes slot = pool.slotBytes slot := by
  rw [storeSize] at h
  split_ifs at h
  obtain rfl := Option.some.inj h
  rfl

end PacketPool

namespace ChannelSystem

open UdpChannel

variable {slotCount : Nat}

/-- Two states that agree on the free slots, on the pending packets with their
order, sizes and bytes, and on the packet buffers. -/
structure Untouched (before after : ChannelSystem slotCount) : Prop where
  free : after.channel.pool.freeSlots.toList.Perm before.channel.pool.freeSlots.toList
  pending : after.channel.pool.pendingPackets = before.channel.pool.pendingPackets
  buffers : after.buffers = before.buffers

/-- The idle client holds the slot in its packet `id`. Since `before` only that
slot has left its place, and only its bytes may be new. -/
structure Holding (client : ClientId) (id : BufferId) (slot : Slot)
    (before now : ChannelSystem slotCount) : Prop where
  valid : now.Valid
  arena : now.Arena
  idle : (now.clients client).pc = .idle
  free : before.channel.pool.freeSlots.toList = slot :: now.channel.pool.freeSlots.toList
  pending : now.channel.pool.pendingSlots = before.channel.pool.pendingSlots
  sizes : now.channel.pool.packetSize = before.channel.pool.packetSize
  bytes : ∀ other : Slot, other.toNat < slotCount → other ≠ slot →
    now.channel.pool.slotBytes other = before.channel.pool.slotBytes other
  buffers : now.buffers = put before.buffers client id
    { owner := .this, slot, buffer := now.channel.pool.slotBuffer slot }

section Holding

variable {client : ClientId} (stops : Stops) {id : BufferId} {slot : Slot}
  {before now : ChannelSystem slotCount}

/-- The slot is in the packet, so it is one of the channel's. -/
theorem Holding.placed (holding : Holding client id slot before now) :
    now.ledger.At slot (.buffer id) ∧ slot.toNat < slotCount := by
  have hat : now.ledger.At slot (.buffer id) := by
    change now.buffers.held id = some slot
    rw [holding.buffers, held_put, Function.update_self]
    rfl
  exact ⟨hat, holding.valid.ledger.placed.isValid slot _ hat⟩

theorem Holding.own (holding : Holding client id slot before now) :
    own now.buffers client id =
      some { owner := .this, slot, buffer := now.channel.pool.slotBuffer slot } := by
  rw [holding.buffers]
  exact own_put_self ..

/-- The slot is held as long as pool and buffers stay the same. -/
theorem Holding.congr (holding : Holding client id slot before now)
    {after : ChannelSystem slotCount} (hvalid : after.Valid) (harena : after.Arena)
    (hidle : (after.clients client).pc = .idle) (hpool : after.channel.pool = now.channel.pool)
    (hbuffers : after.buffers = now.buffers) : Holding client id slot before after where
  valid := hvalid
  arena := harena
  idle := hidle
  free := hpool ▸ holding.free
  pending := hpool ▸ holding.pending
  sizes := hpool ▸ holding.sizes
  bytes := hpool ▸ holding.bytes
  buffers := by rw [hbuffers, hpool, holding.buffers]

/-- The buffer of the packet, as the encoder finds it. -/
theorem Holding.buffer (holding : Holding client id slot before now) :
    ∃ out : List Byte, out.length = motorUdpPacketCap ∧
      subspan now.channel.pool.storage (now.channel.pool.slotBuffer slot).offset
        (now.channel.pool.slotBuffer slot).length = some out := by
  have hslot := holding.placed.2
  have hinside : slot.toNat * motorUdpPacketCap + motorUdpPacketCap ≤
      now.channel.pool.storage.length := by
    rw [holding.arena.storage, ← Nat.succ_mul]
    exact Nat.mul_le_mul_right _ hslot
  refine ⟨(now.channel.pool.storage.drop (slot.toNat * motorUdpPacketCap)).take motorUdpPacketCap,
    ?_, by rw [holding.arena.slotBuffer hslot]; exact subspan_of_le hinside⟩
  rw [List.length_take, List.length_drop]
  omega

/-- What `prepare_send` leaves the client with. -/
theorem prepare_holding (hvalid : before.Valid) (harena : before.Arena)
    (hidle : (before.clients client).pc = .idle) (hfresh : before.buffers id = none) :
    ∃ after, before.call client stops (.prepare id) = some after ∧
      (((∃ err, (after.clients client).result = .error err) ∧ Untouched before after) ∨
        (after.clients client).result = .ok () ∧ ∃ slot, Holding client id slot before after) := by
  obtain ⟨after, hcall, hafter, hcases⟩ := prepare_returns stops hidle hfresh
  refine ⟨after, hcall, ?_⟩
  rcases hcases with ⟨herr, hpool, hbuffers⟩ | ⟨hok, slot, freeSlots, hfree, hpool, hbuffers⟩
  · exact .inl ⟨herr, by rw [hpool], by rw [hpool], hbuffers⟩
  · refine .inr ⟨hok, slot, ?_⟩
    exact {
      valid := call_invariant step_valid hvalid hcall
      arena := call_invariant step_arena harena hcall
      idle := hafter
      free := by rw [hpool]; exact hfree
      pending := by rw [hpool]
      sizes := by rw [hpool]; rfl
      bytes := fun other _ _ => by rw [hpool]; rfl
      buffers := by rw [hpool]; exact hbuffers
    }

/-- Writing to the packet keeps the slot. -/
theorem Holding.fill (holding : Holding client id slot before now)
    {bytes : List Byte} (hbytes : bytes.length ≤ motorUdpPacketCap) :
    ∃ after, now.call client stops (.fillBuffer id bytes) = some after ∧
      Holding client id slot before after := by
  have hslot := holding.placed.2
  have hspan := holding.arena.slotBuffer hslot
  obtain ⟨filled, hfill⟩ : ∃ filled, now.channel.pool.fill
      (now.channel.pool.slotBuffer slot) bytes = some filled := by
    refine ⟨_, if_pos ⟨by rw [hspan]; exact hbytes, ?_⟩⟩
    rw [hspan, holding.arena.storage]
    simp only [motorUdpPacketCap] at hbytes ⊢
    omega
  obtain ⟨after, hcall, hafter, hpool, hbuffers⟩ :=
    fillBuffer_returns stops holding.idle holding.own hfill
  obtain ⟨hsizes, hfree, hpending⟩ := PacketPool.fill_kept hfill
  have hcap := (PacketPool.fill_arena hfill).1
  have hsame : ∀ other, filled.slotBuffer other = now.channel.pool.slotBuffer other := by
    intro other
    rw [PacketPool.slotBuffer, PacketPool.slotBuffer, hcap]
  refine ⟨after, hcall, ?_⟩
  exact {
    valid := call_invariant step_valid holding.valid hcall
    arena := call_invariant step_arena holding.arena hcall
    idle := hafter
    free := by rw [hpool, hfree]; exact holding.free
    pending := by rw [hpool, hpending]; exact holding.pending
    sizes := by rw [hpool, hsizes]; exact holding.sizes
    bytes := fun other hother hne => by
      rw [hpool, ← holding.bytes other hother hne, PacketPool.slotBytes, hsame]
      exact PacketPool.fill_apart hfill (holding.arena.apart hother hslot hne)
    buffers := by rw [hbuffers, hpool, hsame]; exact holding.buffers
  }

/-- The destructor of the packet undoes `prepare_send`. -/
theorem Holding.destroy (holding : Holding client id slot before now) (hvalid : before.Valid)
    (hfresh : before.buffers id = none) :
    ∃ after, now.call client stops (.destroy id) = some after ∧ Untouched before after := by
  obtain ⟨hat, hslot⟩ := holding.placed
  obtain ⟨erased, hstore⟩ := Option.isSome_iff_exists.mp
    (now.channel.pool.storeSize_isSome slot 0 hslot)
  obtain ⟨hsizes, hfree, hpending⟩ := PacketPool.packetSize_store hstore
  have hroom : erased.freeSlots.toList.length < slotCount := by
    rw [hfree]
    exact free_room holding.valid.ledger (.buffer id) hat nofun
  obtain ⟨freeSlots, hpush, hlist⟩ := PacketPool.pushFree_room slot hroom
  obtain ⟨after, hcall, hafter, hpool, hbuffers⟩ :=
    destroy_returns stops holding.idle holding.own rfl hstore
  rw [hpush] at hpool
  refine ⟨after, hcall, ?_, ?_, ?_⟩
  · rw [hpool, hlist, hfree, holding.free]
    exact List.perm_append_singleton slot _
  · refine PacketPool.pendingPackets_congr ?_ fun other member => ?_
    · rw [hpool, ← holding.pending]
      exact congrArg FixedRingQueue.toList hpending
    have hother := hvalid.ledger.placed.isValid other .pending member
    have hne : other ≠ slot := by
      rintro rfl
      exact hvalid.ledger.apart .pending .free member nofun
        (show other ∈ before.channel.pool.freeSlots.toList from
          holding.free ▸ List.mem_cons_self)
    have hbytes := PacketPool.storeSize_slotBytes hstore other
    rw [hpool]
    refine ⟨?_, hbytes.trans (holding.bytes other hother hne)⟩
    change erased.packetSize other = _
    rw [hsizes, Function.update_of_ne hne, holding.sizes]
  · rw [hbuffers, holding.buffers, put, Function.update_idem, Function.update_eq_self_iff, hfresh]

/-- `commit_send`, and the end of the packet's scope. -/
theorem Holding.commit (stops : SendStops) (holding : Holding client id slot before now)
    (hvalid : before.Valid) (hfresh : before.buffers id = none) {size : Nat}
    (hsize : size ≤ motorUdpPacketCap) :
    ∃ code after, now.commit client id stops size = some (code, after) ∧
      ∀ err, code = .error err → Untouched before after := by
  obtain ⟨hat, hslot⟩ := holding.placed
  have hcap : (BitVec.ofNat 32 size).toNat ≤ motorUdpPacketCap :=
    (Nat.mod_le size (2 ^ 32)).trans hsize
  obtain ⟨middle, hcall, hmiddle, hcases⟩ := commit_returns stops.commit holding.idle
    holding.own rfl hcap hslot (pending_room holding.valid.ledger (.buffer id) hat nofun)
  rcases hcases with ⟨⟨err, herr⟩, hpool, hbuffers⟩ | ⟨hok, hcleared⟩
  · have hmiddle := holding.congr (call_invariant step_valid holding.valid hcall)
      (call_invariant step_arena holding.arena hcall) hmiddle hpool hbuffers
    obtain ⟨after, hdestroy, huntouched⟩ :=
      hmiddle.destroy stops.release hvalid hfresh
    refine ⟨.error err, after, ?_, fun _ _ => huntouched⟩
    simp only [ChannelSystem.commit, release, hcall, hdestroy, herr, Option.bind_eq_bind,
      Option.bind_some, Option.pure_def]
  · obtain ⟨after, hdestroy, _⟩ :=
      destroy_null_returns stops.release hmiddle hcleared (show Owner.null ≠ .this by decide)
    refine ⟨.ok (), after, ?_, nofun⟩
    simp only [ChannelSystem.commit, release, hcall, hdestroy, hok, Option.bind_eq_bind,
      Option.bind_some, Option.pure_def]

end Holding

/-! ## The sends -/

section Sends

variable {client : ClientId} {id : BufferId} {stops : SendStops}
  {system : ChannelSystem slotCount}

theorem Untouched.refl (system : ChannelSystem slotCount) : Untouched system system :=
  ⟨.refl _, rfl, rfl⟩

variable (hvalid : system.Valid) (harena : system.Arena)
  (hidle : (system.clients client).pc = .idle) (hfresh : system.buffers id = none)

include hvalid harena hidle hfresh

theorem send_returns (data : List Byte) :
    ∃ code after, system.send client id stops data = some (code, after) ∧
      ∀ err, code = .error err → Untouched system after := by
  by_cases hcap : data.length > motorUdpPacketCap
  · exact ⟨_, system, if_pos hcap, fun _ _ => .refl system⟩
  obtain ⟨prepared, hprepare, ⟨⟨err, herr⟩, huntouched⟩ | ⟨hok, slot, holding⟩⟩ :=
    prepare_holding stops.prepare hvalid harena hidle hfresh
  · refine ⟨.error err, prepared, ?_, fun _ _ => huntouched⟩
    simp only [send, if_neg hcap, hprepare, herr, Option.bind_eq_bind, Option.bind_some,
      Option.pure_def]
  · obtain ⟨filled, hfill, holding⟩ := holding.fill stops.write (not_lt.mp hcap)
    obtain ⟨code, after, hcommit, hafter⟩ :=
      holding.commit stops hvalid hfresh (not_lt.mp hcap)
    refine ⟨code, after, ?_, hafter⟩
    simp only [send, if_neg hcap, hprepare, hok, hfill, Option.bind_eq_bind, Option.bind_some]
    exact hcommit

theorem sendFrames_returns (frames : List CanFrame) :
    ∃ code after, system.sendFrames client id stops frames = some (code, after) ∧
      ∀ err, code = .error err → Untouched system after := by
  by_cases hempty : frames = []
  · exact ⟨.ok (), system, if_pos hempty, nofun⟩
  obtain ⟨prepared, hprepare, ⟨⟨err, herr⟩, huntouched⟩ | ⟨hok, slot, holding⟩⟩ :=
    prepare_holding stops.prepare hvalid harena hidle hfresh
  · refine ⟨.error err, prepared, ?_, fun _ _ => huntouched⟩
    simp only [sendFrames, if_neg hempty, hprepare, herr, Option.bind_eq_bind, Option.bind_some,
      Option.pure_def]
  obtain ⟨out, hlength, hout⟩ := holding.buffer
  have hown := holding.own
  by_cases hchecks : MotorCodec.Encodable out frames
  · have hencode := hchecks.run MotorCodec.typeUdp2can
    have hroom := hchecks.room
    rw [hlength] at hroom
    have hwritten : (MotorCodec.packetBytes MotorCodec.typeUdp2can frames ++
        out.drop (8 + 14 * frames.length)).length ≤ motorUdpPacketCap := by
      rw [List.length_append, MotorCodec.packetBytes_length, MotorCodec.packetSize_payloadLenFor,
        List.length_drop]
      omega
    obtain ⟨filled, hfill, holding⟩ := holding.fill stops.write hwritten
    obtain ⟨code, after, hcommit, hafter⟩ :=
      holding.commit stops hvalid hfresh hroom
    refine ⟨code, after, ?_, hafter⟩
    simp only [sendFrames, if_neg hempty, hprepare, hok, hown, hout, hencode, hfill,
      Option.bind_eq_bind, Option.bind_some]
    exact hcommit
  · obtain ⟨err, hencode⟩ := MotorCodec.encodeInto_refuses out MotorCodec.typeUdp2can frames hchecks
    obtain ⟨filled, hfill, holding⟩ := holding.fill stops.write hlength.le
    obtain ⟨after, hdestroy, huntouched⟩ :=
      holding.destroy stops.release hvalid hfresh
    refine ⟨.error err, after, ?_, fun _ _ => huntouched⟩
    simp only [sendFrames, if_neg hempty, hprepare, hok, hown, hout, hencode, hfill, release,
      hdestroy, Option.bind_eq_bind, Option.bind_some, Option.pure_def]

end Sends

/-- A send always returns, and one that fails leaks nothing: in whatever state the channel
is, and whenever it is stopped, the slots that were free are free again and the pending
packets are as they were. -/
theorem failed_send_leaks_nothing (sendQueueSlots : BitVec 32)
    (opened : ChannelSystem sendQueueSlots.toNat)
    (hopen : openRealtime sendQueueSlots = some opened) (actions : List Action)
    (system : ChannelSystem sendQueueSlots.toNat)
    (hrun : Steps.run step opened actions = some system) (client : ClientId)
    (hidle : (system.clients client).pc = .idle) (id : BufferId)
    (hfresh : system.buffers id = none) (stops : SendStops) (call : SendCall) :
    ∃ code after, call.run client id stops system = some (code, after) ∧
      ∀ err, code = .error err → Untouched system after := by
  obtain ⟨hvalid, harena⟩ := openRealtime_arena hopen
  have hvalid := Steps.run_invariant step_valid hrun hvalid
  have harena := Steps.run_invariant step_arena hrun harena
  cases call with
  | channel data => exact send_returns hvalid harena hidle hfresh data
  | driver frames => exact sendFrames_returns hvalid harena hidle hfresh frames

/-- Another client has committed a packet. -/
def pendingRun : List Action :=
  [.client 1 (.prepare 1), .client 1 .advance, .client 1 (.commit 1 4), .client 1 .advance,
    .client 1 .advance, .client 1 .advance]

/-- A channel with two slots and a pending packet is stopped between `prepare_send` and
`commit_send` of the next. -/
theorem stopped_send_leaks_nothing :
    ∃ opened system after, openRealtime 2 = some opened ∧
      Steps.run step opened pendingRun = some system ∧
      system.channel.pool.pendingSlots.toList.length = 1 ∧
      (SendCall.channel [1, 2, 3]).run 0 0 { commit := fun _ => [.stop] } system =
        some (.error .cancelled, after) ∧ Untouched system after := by
  have hcode : ((openRealtime 2).bind fun opened =>
      (Steps.run step opened pendingRun).bind fun system =>
        ((SendCall.channel [1, 2, 3]).run 0 0 { commit := fun _ => [.stop] } system).map
          fun result => (system.channel.pool.pendingSlots.toList.length, result.1)) =
        some (1, .error .cancelled) := by decide +kernel
  obtain ⟨opened, hopen, hcode⟩ := Option.bind_eq_some_iff.mp hcode
  obtain ⟨system, hrun, hcode⟩ := Option.bind_eq_some_iff.mp hcode
  obtain ⟨⟨code, after⟩, hsend, hcode⟩ := Option.map_eq_some_iff.mp hcode
  obtain ⟨hpending, rfl⟩ := Prod.mk.inj hcode
  have hidle : (system.clients 0).pc = .idle ∧ system.buffers 0 = none := by
    have hinit := hopen
    rw [openRealtime, Option.bind_eq_bind, Option.bind_eq_some_iff] at hinit
    obtain ⟨storage, _, hinit⟩ := hinit
    obtain rfl := Option.some.inj hinit
    obtain rfl := Option.some.inj hrun
    exact ⟨rfl, rfl⟩
  obtain ⟨code, same, hsame, huntouched⟩ := failed_send_leaks_nothing 2 opened hopen pendingRun
    system hrun 0 hidle.1 0 hidle.2 { commit := fun _ => [.stop] } (.channel [1, 2, 3])
  obtain ⟨rfl, rfl⟩ := Prod.mk.inj (Option.some.inj (hsend.symm.trans hsame))
  exact ⟨opened, system, after, hopen, hrun, hpending, hsend, huntouched _ rfl⟩

end ChannelSystem

end ServoFleet
