import ServoFleet.ChannelSafety
import ServoFleet.Theory.Progress

/-!
The end of the transmit thread. Once a stop has been requested it is not blocked any
more, whatever notifications were lost before, and each of its steps brings it
closer to its end. Packets that are pending by then may stay unsent.
-/

namespace ServoFleet

/-- How many steps of its own the transmit thread still takes after a stop. -/
def TxPc.rank : TxPc → Nat
  | .finished => 0
  | .loop | .waiting => 1
  | .freeing _ | .guarding => 2
  | .releasing _ | .locking | .blocking | .blocked => 3
  | .checking | .sending .. => 4
  | .admitted .. => 5
  | .limiting .. => 6
  | .sizing .. => 7
  | .popping => 8

theorem TxPc.rank_le (pc : TxPc) : pc.rank ≤ 8 := by
  cases pc <;> simp only [rank] <;> omega

def Action.isTx : Action → Bool
  | .tx _ => true
  | _ => false

namespace UdpChannel

variable {slotCount : Nat} {channel after : UdpChannel slotCount} {pc : TxPc}

/-- The flags of a step that does not stop the channel: at most it wakes the transmit thread. -/
structure KeepsFlags (channel after : UdpChannel slotCount) : Prop where
  stopRequested : after.stopRequested = channel.stopRequested
  blocked : after.blocked = channel.blocked ∨ after.blocked = false

theorem KeepsFlags.refl (channel : UdpChannel slotCount) : KeepsFlags channel channel :=
  ⟨rfl, .inl rfl⟩

section Client

variable {buffers : Buffers} {client : ClientId}

theorem advance_flags {pc : ClientPc} {after : UdpChannel slotCount × Buffers × Client}
    (h : channel.advance buffers client pc = some after) : KeepsFlags channel after.1 := by
  cases pc with
  | idle => cases h
  | acquired slot => cases h
  | preparing id =>
      obtain rfl := Option.some.inj h
      rw [prepareSlot]
      split <;> exact ⟨rfl, .inl rfl⟩
  | pushing slot size =>
      obtain rfl := Option.some.inj h
      rw [pushSlot]
      split <;> exact ⟨rfl, .inl rfl⟩
  | notifying =>
      obtain rfl := Option.some.inj h
      exact ⟨rfl, .inr rfl⟩
  | discarding =>
      obtain rfl := Option.some.inj h
      rw [discardSlot]
      split <;> exact ⟨rfl, .inl rfl⟩
  | _ =>
      simp only [advance, takeOver, Option.bind_eq_bind, Option.bind_eq_some_iff] at h
      obtain ⟨_, _, h⟩ := h
      obtain rfl := Option.some.inj h
      exact ⟨rfl, .inl rfl⟩

/-- A step that leaves what the threads share as it is. -/
theorem rest_flags {β : Type} {next : β} {after : UdpChannel slotCount × β}
    (h : some (channel, next) = some after) : KeepsFlags channel after.1 := by
  obtain rfl := Option.some.inj h
  exact .refl channel

theorem clientStep_flags {pc : ClientPc} {action : ClientAction}
    {after : UdpChannel slotCount × Buffers × Client}
    (h : channel.clientStep buffers client pc action = some after) :
    KeepsFlags channel after.1 := by
  unfold clientStep at h
  split at h
  · exact advance_flags h
  · obtain rfl := Option.some.inj h
    rw [acquire]
    split <;> exact ⟨rfl, .inl rfl⟩
  · rw [Option.bind_eq_bind, Option.bind_eq_some_iff] at h
    obtain ⟨pool, _, h⟩ := h
    obtain rfl := Option.some.inj h
    exact ⟨rfl, .inl rfl⟩
  · split_ifs at h
    exact rest_flags h
  · rw [prepareSend] at h
    split_ifs at h <;> exact rest_flags h
  · simp only [Option.bind_eq_bind, Option.bind_eq_some_iff] at h
    obtain ⟨packet, _, pool, _, h⟩ := h
    obtain rfl := Option.some.inj h
    exact ⟨rfl, .inl rfl⟩
  · rw [commitSend, Option.bind_eq_bind, Option.bind_eq_some_iff] at h
    obtain ⟨packet, _, h⟩ := h
    split_ifs at h <;> exact rest_flags h
  · rw [destroy, Option.bind_eq_bind, Option.bind_eq_some_iff] at h
    obtain ⟨packet, _, h⟩ := h
    split_ifs at h <;> exact rest_flags h
  · rw [moveConstruct, Option.bind_eq_bind, Option.bind_eq_some_iff] at h
    obtain ⟨packet, _, h⟩ := h
    split_ifs at h
    exact rest_flags h
  · simp only [moveAssign, Option.bind_eq_bind, Option.bind_eq_some_iff] at h
    obtain ⟨packet, _, other, _, h⟩ := h
    split_ifs at h <;> exact rest_flags h
  · rw [Option.bind_eq_bind, Option.bind_eq_some_iff] at h
    obtain ⟨packet, _, h⟩ := h
    exact rest_flags h
  · split_ifs at h
    exact rest_flags h
  · exact rest_flags h
  · cases h

end Client

section Transmit

/-- What a step of the transmit thread does to the flags: it may block only while no
stop is requested, and after one it comes closer to its end. -/
structure TxGoes (channel : UdpChannel slotCount) (pc : TxPc)
    (after : UdpChannel slotCount × TxPc) : Prop where
  stopRequested : after.1.stopRequested = channel.stopRequested
  blocked : after.1.blocked = true → channel.blocked = true ∨ channel.stopRequested = false
  lowers : channel.stopRequested = true → after.2.rank < pc.rank

theorem TxGoes.rest {next : TxPc}
    (hlowers : channel.stopRequested = true → next.rank < pc.rank) :
    TxGoes channel pc (channel, next) := ⟨rfl, .inl, hlowers⟩

theorem txAdvance_goes {after : UdpChannel slotCount × TxPc}
    (h : channel.txAdvance pc = some after) : TxGoes channel pc after := by
  cases pc with
  | loop =>
      obtain rfl := Option.some.inj h
      exact .rest fun hstop => by simp [hstop, TxPc.rank]
  | waiting =>
      obtain rfl := Option.some.inj h
      exact .rest fun hstop => by simp [hstop, TxPc.rank]
  | popping =>
      rw [txAdvance] at h
      split at h <;> obtain rfl := Option.some.inj h <;>
        exact ⟨rfl, .inl, fun _ => by simp [TxPc.rank]⟩
  | sizing slot index =>
      rw [txAdvance, Option.bind_eq_bind, Option.bind_eq_some_iff] at h
      obtain ⟨size, _, h⟩ := h
      obtain rfl := Option.some.inj h
      exact .rest fun _ => by simp [TxPc.rank]
  | guarding =>
      obtain rfl := Option.some.inj h
      exact .rest fun hstop => by simp [hstop, TxPc.rank]
  | checking =>
      obtain rfl := Option.some.inj h
      exact .rest fun _ => by split <;> simp [TxPc.rank]
  | blocking =>
      rw [txAdvance] at h
      split_ifs at h with hstop
      · obtain rfl := Option.some.inj h
        exact .rest fun _ => by simp [TxPc.rank]
      · obtain rfl := Option.some.inj h
        exact ⟨rfl, fun _ => .inr (Bool.not_eq_true _ ▸ hstop), fun h => absurd h hstop⟩
  | blocked =>
      rw [txAdvance] at h
      split_ifs at h
      obtain rfl := Option.some.inj h
      exact .rest fun _ => by simp [TxPc.rank]
  | releasing slot =>
      rw [txAdvance, Option.bind_eq_bind, Option.bind_eq_some_iff] at h
      obtain ⟨pool, _, h⟩ := h
      obtain rfl := Option.some.inj h
      exact ⟨rfl, .inl, fun _ => by simp [TxPc.rank]⟩
  | limiting slot size index => cases h
  | admitted slot size index => cases h
  | sending slot size index attempt => cases h
  | finished => cases h
  | _ =>
      obtain rfl := Option.some.inj h
      exact ⟨rfl, .inl, fun _ => by simp [TxPc.rank]⟩

theorem txStep_goes {action : TxAction} {after : UdpChannel slotCount × TxPc}
    (h : channel.txStep pc action = some after) : TxGoes channel pc after := by
  unfold txStep at h
  split at h
  · exact txAdvance_goes h
  · split at h <;> obtain rfl := Option.some.inj h <;> exact .rest fun _ => by simp [TxPc.rank]
  · split_ifs at h <;> obtain rfl := Option.some.inj h <;> exact .rest fun _ => by simp [TxPc.rank]
  · rename_i slot size index attempt outcome
    split at h
    · rename_i hgoesOn
      have hnot : ∀ next : TxPc, channel.stopRequested = true →
          next.rank < TxPc.rank (.sending slot size index attempt) :=
        fun _ hstop => absurd hstop hgoesOn.2.1
      rw [Option.bind_eq_bind, Option.bind_eq_some_iff] at h
      obtain ⟨bytes, _, h⟩ := h
      cases outcome with
      | wouldBlock =>
          dsimp only at h
          split_ifs at h <;> obtain rfl := Option.some.inj h <;> exact .rest (hnot _)
      | _ =>
          obtain rfl := Option.some.inj h
          exact ⟨rfl, .inl, hnot _⟩
    · obtain rfl := Option.some.inj h
      exact .rest fun _ => by simp [TxPc.rank]
  · obtain rfl := Option.some.inj h
    exact ⟨rfl, nofun, fun _ => by simp [TxPc.rank]⟩
  · cases h

end Transmit

end UdpChannel

namespace ChannelSystem

variable {slotCount : Nat}

/-- The transmit thread is not blocked once a stop has been requested. -/
structure Awake (system : ChannelSystem slotCount) : Prop where
  valid : system.Valid
  awake : system.channel.stopRequested = true → system.channel.blocked = false

theorem step_awake (system : ChannelSystem slotCount) (action : Action)
    (next : ChannelSystem slotCount) (h : system.Awake) (hstep : system.step action = some next) :
    next.Awake := by
  refine ⟨step_valid system action next h.valid hstep, ?_⟩
  cases step_moves hstep with
  | client taken =>
      intro hstop
      obtain ⟨hsame, hblocked⟩ := UdpChannel.clientStep_flags taken
      exact hblocked.elim (fun hkept => hkept.trans (h.awake (hsame ▸ hstop))) id
  | tx taken =>
      intro hstop
      obtain ⟨hsame, hblocked, _⟩ := UdpChannel.txStep_goes taken
      dsimp only at hsame hblocked hstop ⊢
      rw [hsame] at hstop
      by_contra hblocks
      rcases hblocked (Bool.not_eq_false _ ▸ hblocks) with hbefore | hrunning
      · rw [h.awake hstop] at hbefore
        cases hbefore
      · rw [hstop] at hrunning
        cases hrunning
  | stop => exact h.awake
  | requestStop => exact fun _ => rfl
  | cancelWait => exact fun _ => rfl

/-- The states from which the transmit thread is to end. -/
structure Stopping (system : ChannelSystem slotCount) : Prop where
  awake : system.Awake
  stopRequested : system.channel.stopRequested = true

theorem step_stopping (system : ChannelSystem slotCount) (action : Action)
    (next : ChannelSystem slotCount) (h : system.Stopping)
    (hstep : system.step action = some next) : next.Stopping := by
  refine ⟨step_awake system action next h.awake hstep, ?_⟩
  cases step_moves hstep with
  | client taken => exact (UdpChannel.clientStep_flags taken).stopRequested.trans h.stopRequested
  | tx taken => exact (UdpChannel.txStep_goes taken).stopRequested.trans h.stopRequested
  | stop => exact h.stopRequested
  | requestStop => rfl
  | cancelWait => exact h.stopRequested

/-- Nothing keeps the transmit thread from its next step. -/
theorem Stopping.goes_on {system : ChannelSystem slotCount} (h : system.Stopping)
    (hfinished : system.tx ≠ .finished) : ∃ action, (system.step (.tx action)).isSome := by
  obtain ⟨action, hstep⟩ : ∃ action, (system.channel.txStep system.tx action).isSome := by
    cases hpc : system.tx with
    | finished => exact absurd hpc hfinished
    | sizing slot index =>
        exact ⟨.advance, hpc ▸ tx_advances h.awake.valid slot (.inr ⟨index, hpc⟩)⟩
    | releasing slot => exact ⟨.advance, hpc ▸ tx_advances h.awake.valid slot (.inl hpc)⟩
    | popping =>
        refine ⟨.advance, ?_⟩
        rw [UdpChannel.txStep, UdpChannel.txAdvance]
        split <;> rfl
    | blocking =>
        refine ⟨.advance, ?_⟩
        rw [UdpChannel.txStep, UdpChannel.txAdvance, if_pos h.stopRequested]
        rfl
    | blocked =>
        refine ⟨.advance, ?_⟩
        rw [UdpChannel.txStep, UdpChannel.txAdvance, h.awake.awake h.stopRequested]
        rfl
    | limiting slot size index => exact ⟨.limited (.error .cancelled), rfl⟩
    | admitted slot size index =>
        refine ⟨.checkSocket false, ?_⟩
        rw [UdpChannel.txStep]
        split <;> rfl
    | sending slot size index attempt =>
        refine ⟨.attempt .sent, ?_⟩
        rw [UdpChannel.txStep, if_neg fun hgoesOn => hgoesOn.2.1 h.stopRequested]
        rfl
    | _ => exact ⟨.advance, rfl⟩
  obtain ⟨after, hafter⟩ := Option.isSome_iff_exists.mp hstep
  refine ⟨action, ?_⟩
  rw [step, hafter]
  rfl

theorem ranking : Steps.Ranking (@step slotCount) Stopping Action.isTx
    (fun system => system.tx.rank) := by
  have hlowers : ∀ (system : ChannelSystem slotCount) (action : Action)
      (next : ChannelSystem slotCount), system.Stopping → system.step action = some next →
      (action.isTx = true ∧ next.tx.rank < system.tx.rank) ∨
        (action.isTx = false ∧ next.tx = system.tx) := by
    intro system action next h hstep
    cases step_moves hstep with
    | tx taken => exact .inl ⟨rfl, (UdpChannel.txStep_goes taken).lowers h.stopRequested⟩
    | _ => exact .inr ⟨rfl, rfl⟩
  refine ⟨step_stopping, fun system action next h hstep => ?_,
    fun system action next h hcounts hstep => ?_⟩
  · rcases hlowers system action next h hstep with ⟨_, hlt⟩ | ⟨_, hsame⟩
    · exact hlt.le
    · rw [hsame]
  · rcases hlowers system action next h hstep with ⟨_, hlt⟩ | ⟨hother, _⟩
    · exact hlt
    · rw [hcounts] at hother
      cases hother

/-- Once a stop has been requested, the transmit thread takes at most eight more steps,
however the other threads step in between; until it has finished one of its steps is
possible, so that it does finish. -/
theorem stop_ends_transmission (storage : List Byte) (slotCount packetCap : BitVec 32)
    (actions : List Action) (system : ChannelSystem slotCount.toNat)
    (hrun : Steps.run step (init storage slotCount packetCap) actions = some system)
    (hstop : system.channel.stopRequested = true) (more : List Action)
    (later : ChannelSystem slotCount.toNat) (hmore : Steps.run step system more = some later) :
    more.countP Action.isTx ≤ 8 ∧
      (later.tx ≠ .finished → ∃ action, (later.step (.tx action)).isSome) ∧
      ∃ rest final, Steps.run step later rest = some final ∧
        (∀ action ∈ rest, action.isTx = true) ∧ rest.length + more.countP Action.isTx ≤ 8 ∧
        final.tx = .finished := by
  have hawake : system.Awake := Steps.run_invariant step_awake hrun
    ⟨init_valid storage slotCount packetCap, fun hstop => by cases hstop⟩
  have hstopping : system.Stopping := ⟨hawake, hstop⟩
  have hlater : later.Stopping := ranking.run_keeps hmore hstopping
  have hcount := ranking.run_count hmore hstopping
  have hrank := system.tx.rank_le
  refine ⟨by omega, hlater.goes_on, ?_⟩
  obtain ⟨rest, final, hrest, htx, hlength, hfinished⟩ := ranking.drains
    (fun state hstate hfinished => by
      obtain ⟨action, hstep⟩ := hstate.goes_on hfinished
      exact ⟨.tx action, rfl, hstep⟩) hlater
  exact ⟨rest, final, hrest, htx, by omega, hfinished⟩

/-- The transmit thread blocks, is stopped and finishes. -/
theorem blocked_thread_stops : ∃ system later,
    Steps.run step (init [] 1 512) (List.replicate 7 (.tx .advance) ++ [.stop, .requestStop]) =
      some system ∧
    Steps.run step system (List.replicate 3 (.tx .advance)) = some later ∧
    later.tx = .finished ∧ (List.replicate 3 (Action.tx .advance)).countP Action.isTx ≤ 8 := by
  refine ⟨_, _, rfl, rfl, rfl, ?_⟩
  exact (stop_ends_transmission [] 1 512
    (List.replicate 7 (.tx .advance) ++ [.stop, .requestStop]) _ rfl rfl _ _ rfl).1

end ChannelSystem

end ServoFleet
