import ServoFleet.ChannelArena

/-!
What each call of a send returns, whatever the threads that stop the channel do
meanwhile: they reach no slot and no packet buffer, so a call is followed step by
step on the pool and the buffers alone.
-/

namespace ServoFleet.ChannelSystem

open UdpChannel

variable {slotCount : Nat}

/-! ## Following a call -/

/-- The threads that stop the channel leave everything but its flags alone. -/
theorem interrupt_same (system : ChannelSystem slotCount) (steps : List StopStep) :
    (system.interrupt steps).channel.pool = system.channel.pool ∧
      (system.interrupt steps).buffers = system.buffers ∧
      (system.interrupt steps).clients = system.clients := by
  induction steps generalizing system with
  | nil => exact ⟨rfl, rfl, rfl⟩
  | cons taken rest ih =>
      obtain ⟨hpool, hbuffers, hclients⟩ := ih ((system.step taken.action).getD system)
      have hone : ((system.step taken.action).getD system).channel.pool = system.channel.pool ∧
          ((system.step taken.action).getD system).buffers = system.buffers ∧
          ((system.step taken.action).getD system).clients = system.clients := by
        cases taken with
        | stop => exact ⟨rfl, rfl, rfl⟩
        | requestStop =>
            simp only [StopStep.action, step]
            split_ifs <;> exact ⟨rfl, rfl, rfl⟩
        | cancelWait =>
            simp only [StopStep.action, step]
            split_ifs <;> exact ⟨rfl, rfl, rfl⟩
      exact ⟨hpool.trans hone.1, hbuffers.trans hone.2.1, hclients.trans hone.2.2⟩

theorem interrupt_invariant {P : ChannelSystem slotCount → Prop}
    (hstep : ∀ system action next, P system → system.step action = some next → P next)
    {system : ChannelSystem slotCount} (hsystem : P system) (steps : List StopStep) :
    P (system.interrupt steps) := by
  induction steps generalizing system with
  | nil => exact hsystem
  | cons taken rest ih =>
      have hone : P ((system.step taken.action).getD system) := by
        cases htaken : system.step taken.action with
        | none => exact hsystem
        | some next => exact hstep system _ next hsystem htaken
      exact ih hone

section Invariant

variable {P : ChannelSystem slotCount → Prop}
  (hstep : ∀ system action next, P system → system.step action = some next → P next)

include hstep

theorem finish_invariant {client : ClientId} {stops : Stops} {left : Nat}
    {system after : ChannelSystem slotCount} (hsystem : P system)
    (h : finish client stops left system = some after) : P after := by
  induction left generalizing system with
  | zero =>
      rw [finish] at h
      split_ifs at h
      exact Option.some.inj h ▸ hsystem
  | succ left ih =>
      rw [finish] at h
      split_ifs at h
      · exact Option.some.inj h ▸ hsystem
      · rw [Option.bind_eq_bind, Option.bind_eq_some_iff] at h
        obtain ⟨next, hnext, hrest⟩ := h
        exact ih (hstep _ _ next (interrupt_invariant hstep hsystem _) hnext) hrest

/-- What every step preserves holds after a call. -/
theorem call_invariant {client : ClientId} {stops : Stops} {action : ClientAction}
    {system after : ChannelSystem slotCount} (hsystem : P system)
    (h : system.call client stops action = some after) : P after := by
  rw [call, Option.bind_eq_bind, Option.bind_eq_some_iff] at h
  obtain ⟨next, hnext, hrest⟩ := h
  exact finish_invariant hstep
    (hstep _ _ next (interrupt_invariant hstep hsystem _) hnext) hrest

end Invariant

section Returns

variable {client : ClientId} {stops : Stops}
  {Q : PacketPool slotCount → Buffers → ErrCode → Prop}

/-- The call of the client ends within some steps, and then `Q` holds. -/
def Returns (client : ClientId) (stops : Stops) (left : Nat) (system : ChannelSystem slotCount)
    (Q : PacketPool slotCount → Buffers → ErrCode → Prop) : Prop :=
  ∃ after, finish client stops left system = some after ∧
    (after.clients client).pc = .idle ∧
      Q after.channel.pool after.buffers (after.clients client).result

/-- A whole call ends, and then `Q` holds. -/
def CallReturns (client : ClientId) (stops : Stops) (action : ClientAction)
    (system : ChannelSystem slotCount)
    (Q : PacketPool slotCount → Buffers → ErrCode → Prop) : Prop :=
  ∃ after, system.call client stops action = some after ∧
    (after.clients client).pc = .idle ∧
      Q after.channel.pool after.buffers (after.clients client).result

theorem Returns.idle {system : ChannelSystem slotCount} {left : Nat}
    (hidle : (system.clients client).pc = .idle)
    (hQ : Q system.channel.pool system.buffers (system.clients client).result) :
    Returns client stops left system Q := by
  refine ⟨system, ?_, hidle, hQ⟩
  cases left with
  | zero => rw [finish, if_pos hidle]
  | succ left => rw [finish, if_pos hidle]

theorem clientStep_advance (channel : UdpChannel slotCount) (buffers : Buffers) (pc : ClientPc) :
    channel.clientStep buffers client pc .advance = channel.advance buffers client pc := by
  cases pc <;> rfl

/-- A step of the client, with any flags on the channel that the others may have set. -/
theorem step_after_interrupt {system : ChannelSystem slotCount} (action : ClientAction)
    (steps : List StopStep) {Q : ChannelSystem slotCount → Prop}
    (h : ∀ channel : UdpChannel slotCount, channel.pool = system.channel.pool →
      ∃ after, channel.clientStep system.buffers client (system.clients client).pc action =
          some after ∧
        ∀ next : ChannelSystem slotCount, next.channel.pool = after.1.pool →
          next.buffers = after.2.1 → next.clients client = after.2.2 → Q next) :
    ∃ next, (system.interrupt steps).step (.client client action) = some next ∧ Q next := by
  obtain ⟨hpool, hbuffers, hclients⟩ := interrupt_same system steps
  obtain ⟨⟨channel, buffers, clientAfter⟩, hstep, hQ⟩ := h _ hpool
  let next : ChannelSystem slotCount := { system.interrupt steps with
    channel, buffers, clients := Function.update system.clients client clientAfter }
  have hnext : next.clients client = clientAfter := Function.update_self _ _ _
  refine ⟨next, ?_, hQ next rfl rfl hnext⟩
  rw [step, hbuffers, hclients, hstep]
  rfl

/-- One more step of a call under way. -/
theorem Returns.advance {system : ChannelSystem slotCount} {left : Nat}
    (hpc : (system.clients client).pc ≠ .idle)
    (h : ∀ channel : UdpChannel slotCount, channel.pool = system.channel.pool →
      ∃ after, channel.advance system.buffers client (system.clients client).pc = some after ∧
        ∀ next : ChannelSystem slotCount, next.channel.pool = after.1.pool →
          next.buffers = after.2.1 → next.clients client = after.2.2 →
            Returns client stops left next Q) :
    Returns client stops (left + 1) system Q := by
  obtain ⟨next, hnext, after, hfinish, hidle, hQ⟩ :=
    step_after_interrupt .advance (stops left)
      (Q := fun next => Returns client stops left next Q) fun channel hpool => by
        obtain ⟨after, hadvance, hrest⟩ := h channel hpool
        exact ⟨after, (clientStep_advance ..).trans hadvance, hrest⟩
  refine ⟨after, ?_, hidle, hQ⟩
  rw [finish, if_neg hpc, hnext]
  exact hfinish

/-- The first step of a call. -/
theorem CallReturns.begin {system : ChannelSystem slotCount} {action : ClientAction}
    (hidle : (system.clients client).pc = .idle)
    (h : ∀ channel : UdpChannel slotCount, channel.pool = system.channel.pool →
      ∃ after, channel.clientStep system.buffers client .idle action = some after ∧
        ∀ next : ChannelSystem slotCount, next.channel.pool = after.1.pool →
          next.buffers = after.2.1 → next.clients client = after.2.2 →
            Returns client stops 4 next Q) :
    CallReturns client stops action system Q := by
  obtain ⟨next, hnext, after, hfinish, hafter⟩ :=
    step_after_interrupt action (stops 4)
      (Q := fun next => Returns client stops 4 next Q) fun channel hpool => by
        rw [hidle]
        exact h channel hpool
  refine ⟨after, ?_, hafter⟩
  rw [call, hnext]
  exact hfinish

end Returns

/-! ## The calls -/

section Calls

variable {system : ChannelSystem slotCount} {client : ClientId} (stops : Stops) {id : BufferId}

/-- `prepare_send` fails and leaves all as it was, or takes a free slot. -/
theorem prepare_returns (hidle : (system.clients client).pc = .idle)
    (hfresh : system.buffers id = none) :
    CallReturns client stops (.prepare id) system fun pool buffers result =>
      ((∃ err, result = .error err) ∧ pool = system.channel.pool ∧ buffers = system.buffers) ∨
      (result = .ok () ∧ ∃ slot freeSlots,
        system.channel.pool.freeSlots.toList = slot :: freeSlots.toList ∧
        pool = { system.channel.pool with freeSlots } ∧
        buffers = put system.buffers client id
          { owner := .this, slot, buffer := system.channel.pool.slotBuffer slot }) := by
  refine .begin hidle fun channel hpool => ?_
  cases hstopped : channel.stopped with
  | true =>
      refine ⟨(channel, system.buffers, { result := .error .cancelled }), ?_, ?_⟩
      · rw [clientStep, prepareSend, hfresh, hstopped]
        rfl
      · intro next hnext hbuffers hclient
        refine .idle (by rw [hclient]) (.inl ⟨⟨.cancelled, by rw [hclient]⟩, ?_, hbuffers⟩)
        exact hnext.trans hpool
  | false =>
      refine ⟨(channel, put system.buffers client id {}, { pc := .preparing id }), ?_, ?_⟩
      · rw [clientStep, prepareSend, hfresh, hstopped]
        rfl
      intro next hnext hbuffers hclient
      refine .advance (by simp [hclient]) fun channel' hpool' => ?_
      refine ⟨channel'.prepareSlot next.buffers client id, by rw [hclient]; rfl, ?_⟩
      rw [hbuffers, prepareSlot, hpool', hnext, hpool]
      intro last hlast hbuffers hclient
      rcases system.channel.pool.acquireSlot_cases with
        hbusy | ⟨slot, _, freeSlots, hfree, htaken, rfl⟩
      · rw [hbusy] at hlast hbuffers hclient
        refine .idle (by rw [hclient]) (.inl ⟨⟨.busy, by rw [hclient]⟩, hlast, ?_⟩)
        rw [hbuffers, put, Function.update_idem, Function.update_eq_self_iff, hfresh]
      · rw [htaken] at hlast hbuffers hclient
        exact .idle (by rw [hclient]) (.inr ⟨by rw [hclient], slot, freeSlots, hfree, hlast,
          hbuffers.trans (Function.update_idem ..)⟩)

/-- What is written to a buffer changes the storage only. -/
theorem fillBuffer_returns (hidle : (system.clients client).pc = .idle) {packet : PacketBuffer}
    (hown : own system.buffers client id = some packet) {bytes : List Byte}
    {filled : PacketPool slotCount}
    (hfill : system.channel.pool.fill packet.buffer bytes = some filled) :
    CallReturns client stops (.fillBuffer id bytes) system fun pool buffers _ =>
      pool = filled ∧ buffers = system.buffers := by
  refine .begin hidle fun channel hpool => ?_
  refine ⟨({ channel with pool := filled }, system.buffers, {}), ?_, ?_⟩
  · rw [clientStep, hown, Option.bind_eq_bind, Option.bind_some, hpool, hfill]
    rfl
  · intro next hnext hbuffers hclient
    exact .idle (by rw [hclient]) ⟨hnext, hbuffers⟩

/-- `enqueue` of a slot that finds room succeeds. -/
theorem enqueue_returns {slot : Slot} {size : BitVec 32}
    (hpc : (system.clients client).pc = .storing slot size) (hslot : slot.toNat < slotCount)
    (hroom : system.channel.pool.pendingSlots.toList.length < slotCount) :
    Returns client stops 4 system fun _ buffers result =>
      result = .ok () ∧ buffers = system.buffers := by
  obtain ⟨stored, hstore⟩ := Option.isSome_iff_exists.mp
    (system.channel.pool.storeSize_isSome slot size hslot)
  refine .advance (by simp [hpc]) fun channel hpool => ?_
  refine ⟨({ channel with pool := stored }, system.buffers, { pc := .pushing slot size }), ?_, ?_⟩
  · rw [hpc, advance, hpool, hstore]
    rfl
  intro next hnext hbuffers hclient
  have hstored : stored.pendingSlots.toList.length < slotCount := by
    rw [(PacketPool.packetSize_store hstore).2.2]
    exact hroom
  obtain ⟨pendingSlots, hpush, _⟩ := PacketPool.pushPending_room slot hstored
  refine .advance (by simp [hclient]) fun channel₁ hpool₁ => ?_
  refine ⟨channel₁.pushSlot next.buffers slot size, by rw [hclient]; rfl, ?_⟩
  rw [pushSlot, hpool₁, hnext, hpush]
  intro next₁ hnext₁ hbuffers₁ hclient₁
  refine .advance (by simp [hclient₁]) fun channel₂ hpool₂ => ?_
  refine ⟨({ channel₂ with blocked := false }, next₁.buffers, {}), by rw [hclient₁]; rfl, ?_⟩
  intro next₂ hnext₂ hbuffers₂ hclient₂
  refine .idle (by rw [hclient₂]) ⟨by rw [hclient₂], ?_⟩
  rw [hbuffers₂, hbuffers₁, hbuffers]

/-- `commit_send` of a packet fails and leaves all as it was, or commits it. -/
theorem commit_returns (hidle : (system.clients client).pc = .idle) {packet : PacketBuffer}
    (hown : own system.buffers client id = some packet) (howner : packet.owner = .this)
    {size : BitVec 32} (hsize : size.toNat ≤ motorUdpPacketCap)
    (hslot : packet.slot.toNat < slotCount)
    (hroom : system.channel.pool.pendingSlots.toList.length < slotCount) :
    CallReturns client stops (.commit id size) system fun pool buffers result =>
      ((∃ err, result = .error err) ∧ pool = system.channel.pool ∧ buffers = system.buffers) ∨
      (result = .ok () ∧ own buffers client id = some packet.clear) := by
  refine .begin hidle fun channel hpool => ?_
  have hrefused : ¬ (packet.owner ≠ .this ∨ size.toNat > motorUdpPacketCap) := by
    rw [not_or, not_not]
    exact ⟨howner, by omega⟩
  cases hstopped : channel.stopped with
  | true =>
      refine ⟨(channel, system.buffers, { result := .error .cancelled }), ?_, ?_⟩
      · rw [clientStep, commitSend, hown, Option.bind_eq_bind, Option.bind_some,
          if_neg hrefused, hstopped]
        rfl
      · intro next hnext hbuffers hclient
        refine .idle (by rw [hclient]) (.inl ⟨⟨.cancelled, by rw [hclient]⟩, ?_, hbuffers⟩)
        exact hnext.trans hpool
  | false =>
      refine ⟨(channel, put system.buffers client id packet.clear,
        { pc := .storing packet.slot size }), ?_, ?_⟩
      · rw [clientStep, commitSend, hown, Option.bind_eq_bind, Option.bind_some,
          if_neg hrefused, hstopped]
        rfl
      intro next hnext hbuffers hclient
      have hpending : next.channel.pool.pendingSlots.toList.length < slotCount := by
        rw [hnext, hpool]
        exact hroom
      obtain ⟨after, hfinish, hafter, hresult, hsame⟩ :=
        enqueue_returns stops (by rw [hclient]) hslot hpending
      refine ⟨after, hfinish, hafter, .inr ⟨hresult, ?_⟩⟩
      rw [hsame, hbuffers]
      exact own_put_self ..

/-- The destructor gives the slot of a packet back. -/
theorem destroy_returns (hidle : (system.clients client).pc = .idle) {packet : PacketBuffer}
    (hown : own system.buffers client id = some packet) (howner : packet.owner = .this)
    {erased : PacketPool slotCount}
    (hstore : system.channel.pool.storeSize packet.slot 0 = some erased) :
    CallReturns client stops (.destroy id) system fun pool buffers _ =>
      pool = (erased.pushFree packet.slot).2 ∧
        buffers = Function.update system.buffers id none := by
  refine .begin hidle fun channel hpool => ?_
  refine ⟨(channel, system.buffers, { pc := .releasing packet.slot (.destroy id) }), ?_, ?_⟩
  · rw [clientStep, destroy, hown, Option.bind_eq_bind, Option.bind_some, if_pos howner]
    rfl
  intro next hnext hbuffers hclient
  refine .advance (by simp [hclient]) fun channel₁ hpool₁ => ?_
  refine ⟨({ channel₁ with pool := erased }, next.buffers,
    { pc := .freeing packet.slot (.destroy id) }), ?_, ?_⟩
  · rw [hclient, advance, hpool₁, hnext, hpool, hstore]
    rfl
  intro next₁ hnext₁ hbuffers₁ hclient₁
  refine .advance (by simp [hclient₁]) fun channel₂ hpool₂ => ?_
  refine ⟨({ channel₂ with pool := (channel₂.pool.pushFree packet.slot).2 },
    Function.update next₁.buffers id none, {}), by rw [hclient₁]; rfl, ?_⟩
  intro next₂ hnext₂ hbuffers₂ hclient₂
  refine .idle (by rw [hclient₂]) ⟨?_, ?_⟩
  · rw [hnext₂]
    change (channel₂.pool.pushFree packet.slot).2 = _
    rw [hpool₂, hnext₁]
  · rw [hbuffers₂, hbuffers₁, hbuffers]

/-- The destructor of a packet that was committed does nothing to the slots. -/
theorem destroy_null_returns (hidle : (system.clients client).pc = .idle) {packet : PacketBuffer}
    (hown : own system.buffers client id = some packet) (howner : packet.owner ≠ .this) :
    CallReturns client stops (.destroy id) system fun _ _ _ => True := by
  refine .begin hidle fun channel hpool => ?_
  refine ⟨(channel, Function.update system.buffers id none, {}), ?_, ?_⟩
  · rw [clientStep, destroy, hown, Option.bind_eq_bind, Option.bind_some, if_neg howner]
    rfl
  · intro next _ _ hclient
    exact .idle (by rw [hclient]) trivial

end Calls

end ServoFleet.ChannelSystem
