import ServoFleet.SlotSafety

/-!
The wait for pending packets. `enqueue` notifies without `pending_mutex_`, so a
notification can come after the transmit thread has found nothing pending and before
it blocks.

The runs are all interleavings of clients, the transmit thread, stops and discards
on a channel of any size.
-/

namespace ServoFleet

/-- The client is in `enqueue`. -/
def ClientPc.InEnqueue : ClientPc → Prop
  | .storing _ _ | .pushing _ _ | .notifying => True
  | .releasing _ continuation | .freeing _ continuation => continuation = .busy
  | _ => False

theorem UdpChannel.clientStep_notifying {slotCount : Nat} {channel : UdpChannel slotCount}
    {buffers : Buffers} {client : ClientId} {action : ClientAction}
    {after : UdpChannel slotCount × Buffers × Client}
    (h : channel.clientStep buffers client .notifying action = some after) :
    action = .advance ∧ some ({ channel with blocked := false }, buffers, {}) = some after := by
  cases action with
  | advance => exact ⟨rfl, h⟩
  | _ => cases h

/-- The transmit thread gets to sleep only from having found nothing pending. -/
theorem UdpChannel.TxMoves.sleeps {slotCount : Nat} {channel channel' : UdpChannel slotCount}
    {pc next : TxPc} (h : channel.TxMoves pc channel' next)
    (hsleeps : next = .blocking ∨ next = .blocked) :
    channel'.pool = channel.pool ∧
      (pc = .blocking ∨ channel.pool.pendingSlots.toList = []) := by
  cases h with
  | rest same _ sleeps => exact ⟨same.pool, sleeps hsleeps⟩
  | _ => simp at hsleeps

namespace ChannelSystem

variable {slotCount : Nat}

/-- The transmit thread blocks although packets are pending, no stop has been
requested and every call of `enqueue` has returned. -/
structure LostWakeup (system : ChannelSystem slotCount) : Prop where
  tx : system.tx = .blocked
  blocked : system.channel.blocked = true
  running : system.channel.stopRequested = false
  returned : ∀ id, ¬ (system.clients id).pc.InEnqueue
  pending : system.channel.pool.pendingSlots.toList ≠ []

/-- The client notifies while the transmit thread, which has found nothing
pending, is about to block, packets are pending and no other client is to notify. -/
def StrayNotify (system : ChannelSystem slotCount) : Action → Prop
  | .client id .advance => (system.clients id).pc = .notifying ∧ system.tx = .blocking ∧
      system.channel.pool.pendingSlots.toList ≠ [] ∧
      ∀ other, other ≠ id → (system.clients other).pc ≠ .notifying
  | _ => False

/-- The transmit thread will block, or is blocked, until it is notified. -/
def Asleep (system : ChannelSystem slotCount) : Prop :=
  system.tx = .blocking ∨ (system.tx = .blocked ∧ system.channel.blocked = true)

/-- Whenever packets are pending and the transmit thread sleeps, a client is about to notify. -/
def Attended (system : ChannelSystem slotCount) : Prop :=
  system.Asleep → system.channel.pool.pendingSlots.toList ≠ [] →
    ∃ id, (system.clients id).pc = .notifying

theorem step_attended (system : ChannelSystem slotCount) (action : Action)
    (next : ChannelSystem slotCount) (hvalid : system.Valid) (h : system.Attended)
    (hstray : ¬ system.StrayNotify action) (hstep : system.step action = some next) :
    next.Attended := by
  cases step_moves hstep with
  | @client id _ _ _ client hclient =>
      intro hasleep hpending
      have hothers : ∀ other, other ≠ id → (system.clients other).pc = .notifying →
          ∃ other, (Function.update system.clients id client other).pc = .notifying := by
        intro other hother hpc
        exact ⟨other, by rwa [Function.update_of_ne hother]⟩
      by_cases hpc : (system.clients id).pc = .notifying
      · rw [hpc] at hclient
        obtain ⟨rfl, hadvance⟩ := UdpChannel.clientStep_notifying hclient
        obtain ⟨rfl, _⟩ := Prod.mk.inj (Option.some.inj hadvance)
        have hblocking : system.tx = .blocking :=
          hasleep.resolve_right fun hblocked => absurd hblocked.2 Bool.noConfusion
        by_contra hnone
        exact hstray ⟨hpc, hblocking, hpending, fun other hother hother' =>
          hnone (hothers other hother hother')⟩
      · have hquiet := (UdpChannel.clientStep_follows (hvalid.clients id) hclient).quiet hpc
        rcases hquiet.pending hpending with hbefore | hnotifies
        · have hasleep' : system.Asleep :=
            hasleep.imp_right fun hblocked => ⟨hblocked.1, hquiet.blocked ▸ hblocked.2⟩
          obtain ⟨other, hother⟩ := h hasleep' hbefore
          exact hothers other (fun hsame => hpc (hsame ▸ hother)) hother
        · exact ⟨id, by simpa only [Function.update_self] using hnotifies⟩
  | tx htx =>
      intro hasleep hpending
      obtain ⟨hpool, hbefore⟩ :=
        (UdpChannel.txStep_moves htx).sleeps (hasleep.imp_right fun h => h.1)
      have hpending' : system.channel.pool.pendingSlots.toList ≠ [] := hpool ▸ hpending
      exact h (.inl (hbefore.resolve_right hpending')) hpending'
  | stop =>
      exact h
  | requestStop =>
      intro hasleep hpending
      exact h (hasleep.imp_right fun hblocked => absurd hblocked.2 Bool.noConfusion) hpending
  | cancelWait =>
      intro hasleep hpending
      exact h (hasleep.imp_right fun hblocked => absurd hblocked.2 Bool.noConfusion) hpending

theorem init_attended (storage : List Byte) (slotCount packetCap : BitVec 32) :
    (init storage slotCount packetCap).Attended := by
  intro hasleep
  rcases hasleep with h | h
  · cases h
  · cases h.1

theorem Attended.not_lost {system : ChannelSystem slotCount} (h : system.Attended) :
    ¬ system.LostWakeup := by
  intro hlost
  obtain ⟨id, hid⟩ := h (.inr ⟨hlost.tx, hlost.blocked⟩) hlost.pending
  exact hlost.returned id (hid ▸ trivial)

/-- No wakeup is lost in a run in which no notification goes astray, between the moment
the transmit thread has found nothing pending and the moment it blocks. What follows on a
stray one is left open, as a later notification may still wake the thread. -/
theorem no_lost_wakeup (storage : List Byte) (slotCount packetCap : BitVec 32)
    (actions : List Action) (system : ChannelSystem slotCount.toNat)
    (hrun : Steps.Along step (fun state action => ¬ state.StrayNotify action)
      (init storage slotCount packetCap) actions system) :
    ¬ system.LostWakeup := by
  have hkept : system.Valid ∧ system.Attended :=
    hrun.invariant (P := fun state => state.Valid ∧ state.Attended)
      (fun state action next h hallowed htaken =>
        ⟨step_valid state action next h.1 htaken,
          step_attended state action next h.1 h.2 hallowed htaken⟩)
      ⟨init_valid storage slotCount packetCap, init_attended storage slotCount packetCap⟩
  exact hkept.2.not_lost

/-- The exception is needed: a notification that goes astray while nobody else
sends is lost as soon as the transmit thread blocks. -/
theorem stray_notify_loses {system next final : ChannelSystem slotCount} {id : ClientId}
    (hstray : system.StrayNotify (.client id .advance))
    (hothers : ∀ other, other ≠ id → ¬ (system.clients other).pc.InEnqueue)
    (hrunning : system.channel.stopRequested = false)
    (hnotify : system.step (.client id .advance) = some next)
    (hblock : next.step (.tx .advance) = some final) : final.LostWakeup := by
  obtain ⟨hpc, htx, hpending, _⟩ := hstray
  rw [step, hpc] at hnotify
  obtain rfl := Option.some.inj hnotify
  simp only [step, htx, UdpChannel.txStep, UdpChannel.txAdvance, hrunning] at hblock
  obtain rfl := Option.some.inj hblock
  refine ⟨rfl, rfl, rfl, fun other => ?_, hpending⟩
  by_cases hother : other = id
  · subst hother
    simp only [Function.update_self]
    exact not_false
  · simpa only [Function.update_of_ne hother] using hothers other hother

/-- The transmit thread finds nothing pending and is about to block. -/
def sleepRun : List Action := List.replicate 6 (.tx .advance)

/-- A client sends a packet: it prepares a buffer, commits it and notifies. -/
def sendRun : List Action := [.client 0 (.prepare 0), .client 0 .advance,
  .client 0 (.commit 0 4), .client 0 .advance, .client 0 .advance, .client 0 .advance]

/-- The client's notification comes before the transmit thread blocks. -/
theorem wakeup_lost : ∃ system, Steps.run step (init [] 1 512)
    (sleepRun ++ sendRun ++ [.tx .advance]) = some system ∧ system.LostWakeup := by
  refine ⟨_, rfl, rfl, rfl, rfl, fun id => ?_, ?_⟩
  · cases id with
    | zero => exact fun h => h
    | succ id => exact fun h => h
  · decide

/-- It comes once the transmit thread has blocked. -/
theorem wakeup_received : ∃ system, Steps.run step (init [] 1 512)
    (sleepRun ++ [.tx .advance] ++ sendRun) = some system ∧ ¬ system.LostWakeup := by
  refine ⟨_, rfl, no_lost_wakeup [] 1 512 (sleepRun ++ [.tx .advance] ++ sendRun) _ ?_⟩
  have hawake : ∀ (system : ChannelSystem 1) (action : Action), system.tx = .blocked →
      ¬ system.StrayNotify action := by
    intro system action htx
    cases action with
    | client id action =>
        cases action with
        | advance =>
            intro h
            rw [h.2.1] at htx
            cases htx
        | _ => exact not_false
    | _ => exact not_false
  iterate 7 refine .cons not_false rfl ?_
  iterate 6 refine .cons (hawake _ _ rfl) rfl ?_
  exact .nil _

end ChannelSystem

end ServoFleet
