import ServoFleet.SlotSafety

/-!
Packet buffers that have given their slot away, by a move or by a commit, and
have not been filled again.
-/

namespace ServoFleet

def Action.Fills (id : BufferId) : Action → Prop
  | .client _ action => action.Fills id
  | _ => False

namespace UdpChannel

variable {slotCount : Nat} {channel : UdpChannel slotCount} {buffers : Buffers}
  {client other : ClientId} {pc : ClientPc} {id target : BufferId}
  {after : UdpChannel slotCount × Buffers × Client}

theorem clientStep_commit {size : BitVec 32}
    (h : channel.clientStep buffers client pc (.commit id size) = some after) :
    pc = .idle ∧ channel.commitSend buffers client id size = some after := by
  cases pc with
  | idle => exact ⟨rfl, h⟩
  | _ => cases h

theorem clientStep_moveConstruct
    (h : channel.clientStep buffers client pc (.moveConstruct target id) = some after) :
    pc = .idle ∧ channel.moveConstruct buffers client target id = some after := by
  cases pc with
  | idle => exact ⟨rfl, h⟩
  | _ => cases h

theorem own_user {packet packet' : PacketBuffer} (h : own buffers client id = some packet)
    (h' : own buffers other id = some packet') : client = other := by
  rw [own_eq_some] at h h'
  rw [h] at h'
  cases h'
  rfl

/-- A call that fills a buffer is a call of the thread that may use it. -/
theorem own_of_fills (hpc : Consistent buffers client pc) (hfills : pc.Fills id) :
    ∃ packet, own buffers client id = some packet := by
  have howns : ∀ held, Owns buffers client id held →
      ∃ packet, own buffers client id = some packet :=
    fun held ⟨packet, hown, _⟩ => ⟨packet, hown⟩
  cases pc with
  | preparing target =>
      obtain rfl := hfills
      exact howns _ hpc
  | releasing slot continuation =>
      cases continuation with
      | assign target other =>
          obtain rfl := hfills
          exact howns _ hpc.2.1
      | _ => exact hfills.elim
  | freeing slot continuation =>
      cases continuation with
      | assign target other =>
          obtain rfl := hfills
          exact howns _ hpc.2.1
      | _ => exact hfills.elim
  | taking target other =>
      obtain rfl := hfills
      exact howns _ hpc.2.1
  | _ => exact hfills.elim

theorem null_put_clear (buffers : Buffers) (client : ClientId) (id : BufferId)
    (packet : PacketBuffer) : (put buffers client id packet.clear).Null id := by
  intro object hobject
  rw [put, Function.update_self] at hobject
  obtain rfl := Option.some.inj hobject
  rfl

theorem null_put_of_ne (hne : id ≠ target) (hnull : buffers.Null id) (packet : PacketBuffer) :
    (put buffers client target packet).Null id := by
  intro object hobject
  rw [put, Function.update_of_ne hne] at hobject
  exact hnull object hobject

end UdpChannel

namespace ChannelSystem

variable {slotCount : Nat} {system next : ChannelSystem slotCount} {id : BufferId}

/-- The buffer has no owner, and no call under way fills it. -/
structure Spent (system : ChannelSystem slotCount) (id : BufferId) : Prop where
  null : system.buffers.Null id
  unfilled : ∀ client, ¬ (system.clients client).pc.Fills id

/-- The system after a commit that has been refused for its arguments. -/
def refused (system : ChannelSystem slotCount) (client : ClientId) : ChannelSystem slotCount :=
  { system with
    clients := Function.update system.clients client { result := .error .invalidArgument } }

/-- A buffer stays spent until some action fills it. -/
theorem step_spent {action : Action} (hvalid : system.Valid) (h : system.Spent id)
    (haction : ¬ action.Fills id) (hstep : system.step action = some next) : next.Spent id := by
  cases step_moves hstep with
  | @client client action _ _ _ hclient =>
      obtain ⟨_, _, htouches, hfills, _⟩ :=
        UdpChannel.clientStep_follows (hvalid.clients client) hclient
      have hunfilled : ¬ ((system.clients client).pc.Fills id ∨ action.Fills id) :=
        not_or.mpr ⟨h.unfilled client, haction⟩
      refine ⟨htouches.null hunfilled h.null, fun other => ?_⟩
      by_cases hother : other = client
      · subst hother
        simpa only [Function.update_self] using fun hid => hunfilled (hfills id hid)
      · simpa only [Function.update_of_ne hother] using h.unfilled other
  | tx _ =>
      exact ⟨h.null, h.unfilled⟩
  | stop =>
      exact ⟨h.null, h.unfilled⟩
  | requestStop =>
      exact ⟨h.null, h.unfilled⟩
  | cancelWait =>
      exact ⟨h.null, h.unfilled⟩

/-- A spent buffer cannot be committed. -/
theorem commit_spent {client : ClientId} {size : BitVec 32} (h : system.Spent id)
    (hstep : system.step (.client client (.commit id size)) = some next) :
    next = system.refused client := by
  cases step_moves hstep with
  | client hclient =>
      obtain ⟨_, hcommit⟩ := UdpChannel.clientStep_commit hclient
      rw [UdpChannel.commitSend, Option.bind_eq_bind, Option.bind_eq_some_iff] at hcommit
      obtain ⟨packet, hown, hcommit⟩ := hcommit
      have howner : packet.owner ≠ .this := by
        rw [h.null _ (UdpChannel.own_eq_some.mp hown)]
        exact Owner.noConfusion
      rw [if_pos (.inl howner)] at hcommit
      cases hcommit
      rfl

/-- The step takes the slot out of the buffer: a commit that is accepted, or a
move out of it that is completed. -/
def Spends (system next : ChannelSystem slotCount) (id : BufferId) : Action → Prop
  | .client client (.commit other _) => other = id ∧ (next.clients client).pc ≠ .idle
  | .client _ (.moveConstruct _ other) => other = id
  | .client client .advance => ∃ target, (system.clients client).pc = .taking target id
  | _ => False

/-- A client that changes a buffer of its own to one without an owner, and goes
on without filling it, has spent it. -/
theorem spent_of_own {client : ClientId} {packet : PacketBuffer}
    {channel : UdpChannel slotCount} {buffers : Buffers} {after : Client} (hvalid : system.Valid)
    (hown : UdpChannel.own system.buffers client id = some packet) (hnull : buffers.Null id)
    (hafter : ¬ after.pc.Fills id) :
    Spent { system with
      channel, buffers, clients := Function.update system.clients client after } id := by
  refine ⟨hnull, fun other => ?_⟩
  by_cases hother : other = client
  · subst hother
    simpa only [Function.update_self] using hafter
  · simp only [Function.update_of_ne hother]
    intro hfills
    obtain ⟨packet', hown'⟩ := UdpChannel.own_of_fills (hvalid.clients other) hfills
    exact hother (UdpChannel.own_user hown' hown)

theorem spends_spent {action : Action} (hvalid : system.Valid)
    (hstep : system.step action = some next) (h : Spends system next id action) :
    next.Spent id := by
  cases step_moves hstep with
  | @client client action channel buffers after hclient =>
      cases action with
      | commit other size =>
          obtain ⟨rfl, haccepted⟩ := h
          obtain ⟨_, hcommit⟩ := UdpChannel.clientStep_commit hclient
          rw [UdpChannel.commitSend, Option.bind_eq_bind, Option.bind_eq_some_iff] at hcommit
          obtain ⟨packet, hown, hcommit⟩ := hcommit
          simp only [Function.update_self] at haccepted
          split_ifs at hcommit
          · cases hcommit
            exact absurd rfl haccepted
          · cases hcommit
            exact absurd rfl haccepted
          · cases hcommit
            exact spent_of_own hvalid hown (UdpChannel.null_put_clear _ _ _ _) not_false
      | moveConstruct target other =>
          obtain rfl := h
          obtain ⟨_, hmove⟩ := UdpChannel.clientStep_moveConstruct hclient
          rw [UdpChannel.moveConstruct, Option.bind_eq_bind, Option.bind_eq_some_iff] at hmove
          obtain ⟨packet, hown, hmove⟩ := hmove
          split_ifs at hmove with hlive
          cases hmove
          have hne : other ≠ target := by
            rintro rfl
            rw [UdpChannel.own_eq_some.mp hown] at hlive
            exact hlive rfl
          exact spent_of_own hvalid hown
            (UdpChannel.null_put_of_ne hne (UdpChannel.null_put_clear _ _ _ _) _) not_false
      | advance =>
          obtain ⟨target, hpc⟩ := h
          have hconsistent := hvalid.clients client
          rw [hpc] at hclient hconsistent
          change system.channel.takeOver system.buffers client target id =
            some (channel, buffers, after) at hclient
          rw [UdpChannel.takeOver, Option.bind_eq_bind, Option.bind_eq_some_iff] at hclient
          obtain ⟨packet, hown, hclient⟩ := hclient
          cases hclient
          exact spent_of_own hvalid hown
            (UdpChannel.null_put_of_ne hconsistent.1.symm (UdpChannel.null_put_clear _ _ _ _) _)
            not_false
      | _ => exact h.elim
  | _ => exact h.elim

end ChannelSystem

end ServoFleet
