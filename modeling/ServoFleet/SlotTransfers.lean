import ServoFleet.SlotOwnership

/-!
Every step of a client and of the transmit thread is a transfer of the ledger.
-/

namespace ServoFleet

open SlotLedger

namespace UdpChannel

variable {slotCount : Nat}

/-- What a step that does not notify does to the wait for pending packets: it
leaves the flag of the transmit thread alone, and pushes a packet only to notify next. -/
structure Quiet (channel : UdpChannel slotCount)
    (after : UdpChannel slotCount × Buffers × Client) : Prop where
  blocked : after.1.blocked = channel.blocked
  pending : after.1.pool.pendingSlots.toList ≠ [] →
    channel.pool.pendingSlots.toList ≠ [] ∨ after.2.2.pc = .notifying

theorem Quiet.pool {channel : UdpChannel slotCount} {pool : PacketPool slotCount}
    {buffers : Buffers} {next : Client}
    (hsame : pool.pendingSlots = channel.pool.pendingSlots) :
    Quiet channel ({ channel with pool }, buffers, next) :=
  ⟨rfl, fun h => .inl (hsame ▸ h)⟩

/-- A step of a client transfers slots, leaves the client consistent and the
buffers of others alone, fills only what its call or its action fills, and
is quiet unless it notifies. -/
structure Follows (channel : UdpChannel slotCount) (buffers : Buffers) (client : ClientId)
    (pc : ClientPc) (action : ClientAction) (after : UdpChannel slotCount × Buffers × Client) :
    Prop where
  transfer : ∀ hands : ThreadId → Hand Slot (BitVec 32), hands (.client client) = pc.hand →
    (channel.ledger buffers hands).Invariant (IsSlot slotCount) →
    (channel.ledger buffers hands).Step (.client client)
      (after.1.ledger after.2.1 (Function.update hands (.client client) after.2.2.pc.hand))
  consistent : Consistent after.2.1 client after.2.2.pc
  touches : Touches client (fun id => pc.Fills id ∨ action.Fills id) buffers after.2.1
  fills : ∀ id, after.2.2.pc.Fills id → pc.Fills id ∨ action.Fills id
  quiet : pc ≠ .notifying → Quiet channel after

section Calls

variable {channel : UdpChannel slotCount} {buffers : Buffers} {client : ClientId}

/-- A step that leaves the ledger, the buffers and the hand of the client as they are. -/
theorem Follows.rest {pc : ClientPc} {action : ClientAction} {next : Client}
    {channel' : UdpChannel slotCount}
    (hsame : ∀ hands, channel'.ledger buffers hands = channel.ledger buffers hands)
    (hhand : pc.hand = next.pc.hand) (hnext : Consistent buffers client next.pc)
    (hfills : ∀ id, next.pc.Fills id → pc.Fills id ∨ action.Fills id)
    (hblocked : pc ≠ .notifying → channel'.blocked = channel.blocked) :
    Follows channel buffers client pc action (channel', buffers, next) where
  transfer := fun _ hpc _ => transfer_rest (hsame _) (hpc.trans hhand)
  consistent := hnext
  touches := .refl
  fills := hfills
  quiet := by
    intro hpc
    have hpending : channel'.pool.pendingSlots.toList = channel.pool.pendingSlots.toList :=
      congrArg Ledger.pending (hsame fun _ => .empty)
    exact ⟨hblocked hpc, fun h => .inl (hpending ▸ h)⟩

theorem acquire_follows :
    Follows channel buffers client .idle .acquire (channel.acquire buffers) := by
  rcases channel.pool.acquireSlot_cases with hempty | ⟨slot, rest, freeSlots, hfree, hpop, rfl⟩
  · rw [acquire, hempty]
    exact .rest (fun _ => rfl) rfl trivial nofun fun _ => rfl
  · rw [acquire, hpop]
    refine ⟨fun hands hhand _ => ?_, trivial, .refl, nofun, fun _ => .pool rfl⟩
    exact .take hfree (congrArg Hand.item hhand)

section Call

variable {after : UdpChannel slotCount × Buffers × Client} {id other : BufferId}

theorem prepareSend_follows (h : channel.prepareSend buffers client id = some after) :
    Follows channel buffers client .idle (.prepare id) after := by
  rw [prepareSend] at h
  split_ifs at h with hlive hstopped
  · obtain rfl := Option.some.inj h
    exact .rest (fun _ => rfl) rfl trivial nofun fun _ => rfl
  · obtain rfl := Option.some.inj h
    have hnone : buffers id = none := by simpa using hlive
    refine ⟨fun hands hhand _ => ?_, ⟨_, own_put_self _ _ _ _, rfl⟩,
      .build hnone (.inr rfl) _, fun _ => .inr, fun _ => .pool rfl⟩
    exact transfer_rest (ledger_put_same (held_of_none hnone) _ _) hhand

theorem prepareSlot_follows (hpc : Consistent buffers client (.preparing id)) :
    Follows channel buffers client (.preparing id) .advance
      (channel.prepareSlot buffers client id) := by
  obtain ⟨reserved, hown, hvacant⟩ := hpc
  have hheld := (held_of_own hown).trans hvacant
  rcases channel.pool.acquireSlot_cases with hempty | ⟨slot, rest, freeSlots, hfree, hpop, rfl⟩
  · rw [prepareSlot, hempty]
    refine ⟨fun hands hhand _ => ?_, trivial, .remove hown, nofun, fun _ => .pool rfl⟩
    exact transfer_rest (ledger_remove_same hheld _) hhand
  · rw [prepareSlot, hpop]
    refine ⟨fun hands hhand _ => ?_, trivial, .fill hown (.inl rfl) _, nofun, fun _ => .pool rfl⟩
    have hsame : Function.update hands (.client client) (ClientPc.hand .idle) = hands :=
      Function.update_eq_self_iff.mpr hhand.symm
    dsimp only
    rw [hsame, ledger_put]
    exact .takeBuffer id hfree hheld

theorem commitSend_follows {size : BitVec 32}
    (h : channel.commitSend buffers client id size = some after) :
    Follows channel buffers client .idle (.commit id size) after := by
  rw [commitSend, Option.bind_eq_bind, Option.bind_eq_some_iff] at h
  obtain ⟨packet, hown, h⟩ := h
  split_ifs at h with hrefused hstopped
  · obtain rfl := Option.some.inj h
    exact .rest (fun _ => rfl) rfl trivial nofun fun _ => rfl
  · obtain rfl := Option.some.inj h
    exact .rest (fun _ => rfl) rfl trivial nofun fun _ => rfl
  · obtain rfl := Option.some.inj h
    have howner : packet.owner = .this := by
      rw [not_or, not_not] at hrefused
      exact hrefused.1
    refine ⟨fun hands hhand _ => ?_, trivial, .clear hown, nofun, fun _ => .pool rfl⟩
    rw [ledger_put]
    exact .draw id ((held_of_own hown).trans (held_of_this howner)) (congrArg Hand.item hhand)

theorem destroy_follows (h : channel.destroy buffers client id = some after) :
    Follows channel buffers client .idle (.destroy id) after := by
  rw [destroy, Option.bind_eq_bind, Option.bind_eq_some_iff] at h
  obtain ⟨packet, hown, h⟩ := h
  split_ifs at h with howner
  · obtain rfl := Option.some.inj h
    exact .rest (fun _ => rfl) rfl ⟨packet, hown, held_of_this howner⟩ nofun fun _ => rfl
  · obtain rfl := Option.some.inj h
    refine ⟨fun hands hhand _ => transfer_rest ?_ hhand, trivial, .remove hown, nofun,
      fun _ => .pool rfl⟩
    exact ledger_remove_same ((held_of_own hown).trans (held_of_ne howner)) _

/-- Moving a packet into a buffer that owns no slot. -/
theorem transfer_move {packet : PacketBuffer} {hands : ThreadId → Hand Slot (BitVec 32)}
    {thread : ThreadId} {hand : Hand Slot (BitVec 32)}
    (hown : own buffers client other = some packet) (hvacant : buffers.held id = none)
    (hne : id ≠ other) (hhand : hands thread = hand) :
    (channel.ledger buffers hands).Step thread
      (channel.ledger (put (put buffers client other packet.clear) client id packet)
        (Function.update hands thread hand)) := by
  have hheld := held_of_own hown
  by_cases howner : packet.owner = .this
  · rw [held_of_this howner] at hheld
    subst hhand
    rw [Function.update_eq_self, ledger_put, held_put, held_clear, held_of_this howner]
    exact .shift id other hheld hvacant
  · rw [held_of_ne howner] at hheld
    refine transfer_rest ?_ hhand
    rw [ledger_put_same, ledger_put_same]
    · rw [hheld, held_clear]
    · rw [held_put, Function.update_of_ne hne, hvacant, held_of_ne howner]

theorem moveConstruct_follows (h : channel.moveConstruct buffers client id other = some after) :
    Follows channel buffers client .idle (.moveConstruct id other) after := by
  rw [moveConstruct, Option.bind_eq_bind, Option.bind_eq_some_iff] at h
  obtain ⟨packet, hown, h⟩ := h
  split_ifs at h with hlive
  obtain rfl := Option.some.inj h
  have hnone : buffers id = none := by simpa using hlive
  have hne : id ≠ other := by
    rintro rfl
    rw [own_eq_some, hnone] at hown
    cases hown
  refine ⟨fun hands hhand _ => transfer_move hown (held_of_none hnone) hne hhand, trivial, ?_,
    nofun, fun _ => .pool rfl⟩
  refine Touches.trans (.clear hown) (.build ?_ (.inr rfl) packet)
  exact (Function.update_of_ne hne _ _).trans hnone

theorem moveAssign_follows (h : channel.moveAssign buffers client id other = some after) :
    Follows channel buffers client .idle (.moveAssign id other) after := by
  rw [moveAssign, Option.bind_eq_bind, Option.bind_eq_some_iff] at h
  obtain ⟨packet, hown, h⟩ := h
  rw [Option.bind_eq_some_iff] at h
  obtain ⟨otherPacket, hother, h⟩ := h
  split_ifs at h with hsame howner
  · obtain rfl := Option.some.inj h
    exact .rest (fun _ => rfl) rfl trivial nofun fun _ => rfl
  · obtain rfl := Option.some.inj h
    exact .rest (fun _ => rfl) rfl
      ⟨hsame, ⟨packet, hown, held_of_this howner⟩, _, otherPacket, hother, rfl⟩
      (fun _ => .inr) fun _ => rfl
  · obtain rfl := Option.some.inj h
    exact .rest (fun _ => rfl) rfl
      ⟨hsame, ⟨packet, hown, held_of_ne howner⟩, _, otherPacket, hother, rfl⟩
      (fun _ => .inr) fun _ => rfl

theorem takeOver_follows (hpc : Consistent buffers client (.taking id other))
    (h : channel.takeOver buffers client id other = some after) :
    Follows channel buffers client (.taking id other) .advance after := by
  obtain ⟨hne, ⟨reserved, hreserved, hvacant⟩, _⟩ := hpc
  rw [takeOver, Option.bind_eq_bind, Option.bind_eq_some_iff] at h
  obtain ⟨packet, hown, h⟩ := h
  obtain rfl := Option.some.inj h
  refine ⟨fun hands hhand _ => ?_, trivial, ?_, nofun, fun _ => .pool rfl⟩
  · exact transfer_move hown ((held_of_own hreserved).trans hvacant) hne hhand
  · have hkept := (own_put_of_ne buffers client client packet.clear hne).trans hreserved
    exact Touches.trans (.clear hown) (.fill hkept (.inl rfl) packet)

theorem storing_follows {slot : Slot} {size : BitVec 32} {pool : PacketPool slotCount}
    (h : channel.pool.storeSize slot size = some pool) :
    Follows channel buffers client (.storing slot size) .advance
      ({ channel with pool }, buffers, { pc := .pushing slot size }) := by
  refine ⟨fun hands hhand _ => ?_, trivial, .refl, nofun,
    fun _ => .pool (PacketPool.packetSize_store h).2.2⟩
  rw [ledger_store h]
  exact .store size (congrArg Hand.item hhand)

theorem pushSlot_follows {slot : Slot} {size : BitVec 32} :
    Follows channel buffers client (.pushing slot size) .advance
      (channel.pushSlot buffers slot size) := by
  rw [pushSlot]
  refine ⟨fun hands hhand hinv => ?_, ?_, ?_, ?_, fun _ => ?_⟩
  · obtain ⟨pool, hpush, hledger⟩ := ledger_pushPending slot
      (pending_room hinv (.hands (.client client)) (congrArg Hand.item hhand) nofun)
      (channel.commits ++ [(slot, size)]) (Function.update hands (.client client) .empty)
    rw [hpush]
    exact hledger ▸ .push hhand
  · split <;> trivial
  · split <;> exact .refl
  · split <;> exact nofun
  · rcases channel.pool.pendingSlots.tryPush_cases slot with ⟨_, hpush⟩ | ⟨_, _, hpush, _⟩
    · rw [PacketPool.pushPending, hpush]
      exact .pool rfl
    · rw [PacketPool.pushPending, hpush]
      exact ⟨rfl, fun _ => .inr rfl⟩

theorem releasing_follows {slot : Slot} {continuation : After} {pool : PacketPool slotCount}
    (hpc : Consistent buffers client (.releasing slot continuation))
    (h : channel.pool.storeSize slot 0 = some pool) :
    Follows channel buffers client (.releasing slot continuation) .advance
      ({ channel with pool }, buffers, { pc := .freeing slot continuation }) := by
  refine ⟨fun hands hhand _ => ?_, ?_, .refl, fun _ hfills => .inl ?_,
    fun _ => .pool (PacketPool.packetSize_store h).2.2⟩
  · rw [ledger_store h]
    cases continuation with
    | busy => exact .store 0 (congrArg Hand.item hhand)
    | discard => exact .store 0 (congrArg Hand.item hhand)
    | destroy id =>
        obtain ⟨packet, hown, hheld⟩ := hpc
        rw [Function.update_eq_self_iff.mpr hhand.symm]
        exact .erase id 0 ((held_of_own hown).trans hheld)
    | assign id other =>
        obtain ⟨_, ⟨packet, hown, hheld⟩, _⟩ := hpc
        rw [Function.update_eq_self_iff.mpr hhand.symm]
        exact .erase id 0 ((held_of_own hown).trans hheld)
  · cases continuation <;> exact hpc
  · cases continuation <;> exact hfills

theorem freeing_follows {slot : Slot} {continuation : After} {buffers' : Buffers} {next : Client}
    (hpc : Consistent buffers client (.freeing slot continuation))
    (h : released buffers client continuation = some (buffers', next)) :
    Follows channel buffers client (.freeing slot continuation) .advance
      ({ channel with pool := (channel.pool.pushFree slot).2 }, buffers', next) := by
  have hhands : ∀ hands : ThreadId → Hand Slot (BitVec 32),
      (channel.ledger buffers hands).Invariant (IsSlot slotCount) →
      hands (.client client) = .stored slot 0 →
      channel.pool.freeSlots.toList.length < slotCount := fun hands hinv hhand =>
    free_room hinv (.hands (.client client)) (congrArg Hand.item hhand) nofun
  have hbuffer : ∀ (hands : ThreadId → Hand Slot (BitVec 32)) (id : BufferId),
      (channel.ledger buffers hands).Invariant (IsSlot slotCount) →
      Owns buffers client id (some slot) →
      channel.pool.freeSlots.toList.length < slotCount ∧ buffers.held id = some slot := by
    intro hands id hinv ⟨packet, hown, hheld⟩
    have hid := (held_of_own hown).trans hheld
    exact ⟨free_room hinv (.buffer id) hid nofun, hid⟩
  cases continuation with
  | busy =>
      obtain ⟨rfl, rfl⟩ := Prod.mk.inj (Option.some.inj h)
      refine ⟨fun hands hhand hinv => ?_, trivial, .refl, nofun, fun _ => .pool rfl⟩
      rw [ledger_pushFree slot (hhands hands hinv hhand)]
      exact .give (congrArg Hand.item hhand)
  | discard =>
      obtain ⟨rfl, rfl⟩ := Prod.mk.inj (Option.some.inj h)
      refine ⟨fun hands hhand hinv => ?_, trivial, .refl, nofun, fun _ => .pool rfl⟩
      rw [ledger_pushFree slot (hhands hands hinv hhand)]
      exact .give (congrArg Hand.item hhand)
  | destroy id =>
      obtain ⟨rfl, rfl⟩ := Prod.mk.inj (Option.some.inj h)
      have howned := hpc
      obtain ⟨packet, hown, hheld⟩ := howned
      refine ⟨fun hands hhand hinv => ?_, trivial, .remove hown, nofun, fun _ => .pool rfl⟩
      obtain ⟨hroom, hid⟩ := hbuffer hands id hinv hpc
      have hsame : Function.update hands (.client client) (ClientPc.hand .idle) = hands :=
        Function.update_eq_self_iff.mpr hhand.symm
      dsimp only
      rw [hsame, ledger_pushFree slot hroom, ledger_remove]
      exact .giveBuffer id hid
  | assign id other =>
      obtain ⟨hne, howns, ⟨held, otherPacket, hother, hheld⟩⟩ := hpc
      rw [released, Option.bind_eq_bind, Option.bind_eq_some_iff] at h
      obtain ⟨packet, hown, h⟩ := h
      obtain ⟨rfl, rfl⟩ := Prod.mk.inj (Option.some.inj h)
      refine ⟨fun hands hhand hinv => ?_, ?_, .clear hown, fun _ => .inl, fun _ => .pool rfl⟩
      · obtain ⟨hroom, hid⟩ := hbuffer hands id hinv howns
        have hsame : Function.update hands (.client client) (ClientPc.hand (.taking id other)) =
            hands := Function.update_eq_self_iff.mpr hhand.symm
        dsimp only
        rw [hsame, ledger_pushFree slot hroom, ledger_put]
        exact .giveBuffer id hid
      · exact ⟨hne, ⟨_, own_put_self _ _ _ _, rfl⟩, held, otherPacket,
          (own_put_of_ne _ _ _ _ hne.symm).trans hother, hheld⟩

theorem discardSlot_follows :
    Follows channel buffers client .discarding .advance (channel.discardSlot buffers) := by
  rcases channel.pool.popPending_cases with hempty | ⟨slot, rest, pendingSlots, hpending, hpop, rfl⟩
  · rw [discardSlot, hempty]
    exact .rest (fun _ => rfl) rfl trivial nofun fun _ => rfl
  · rw [discardSlot, hpop]
    refine ⟨fun hands hhand _ => ?_, trivial, .refl, nofun, fun _ => ⟨rfl, fun _ => .inl ?_⟩⟩
    · exact .pop hpending (congrArg Hand.item hhand)
    · rw [hpending]
      nofun

theorem advance_follows {pc : ClientPc} (hpc : Consistent buffers client pc)
    (h : channel.advance buffers client pc = some after) :
    Follows channel buffers client pc .advance after := by
  cases pc with
  | idle => cases h
  | acquired slot => cases h
  | preparing id =>
      obtain rfl := Option.some.inj h
      exact prepareSlot_follows hpc
  | storing slot size =>
      rw [advance, Option.bind_eq_bind, Option.bind_eq_some_iff] at h
      obtain ⟨pool, hstore, h⟩ := h
      obtain rfl := Option.some.inj h
      exact storing_follows hstore
  | pushing slot size =>
      obtain rfl := Option.some.inj h
      exact pushSlot_follows
  | notifying =>
      obtain rfl := Option.some.inj h
      exact .rest (fun _ => rfl) rfl trivial nofun fun hne => absurd rfl hne
  | releasing slot continuation =>
      rw [advance, Option.bind_eq_bind, Option.bind_eq_some_iff] at h
      obtain ⟨pool, hstore, h⟩ := h
      obtain rfl := Option.some.inj h
      exact releasing_follows hpc hstore
  | freeing slot continuation =>
      rw [advance, Option.bind_eq_bind, Option.bind_eq_some_iff] at h
      obtain ⟨⟨buffers', next⟩, hreleased, h⟩ := h
      obtain rfl := Option.some.inj h
      exact freeing_follows hpc hreleased
  | taking id other => exact takeOver_follows hpc h
  | discarding =>
      obtain rfl := Option.some.inj h
      exact discardSlot_follows
  | dropping slot index =>
      rw [advance, Option.bind_eq_bind, Option.bind_eq_some_iff] at h
      obtain ⟨size, _, h⟩ := h
      obtain rfl := Option.some.inj h
      exact ⟨fun _ hhand _ => .forget (congrArg Hand.item hhand), trivial, .refl, nofun,
        fun _ => .pool rfl⟩

/-- Every step of a client follows the ledger. -/
theorem clientStep_follows {pc : ClientPc} {action : ClientAction}
    (hpc : Consistent buffers client pc)
    (h : channel.clientStep buffers client pc action = some after) :
    Follows channel buffers client pc action after := by
  unfold clientStep at h
  split at h
  · exact advance_follows hpc h
  · obtain rfl := Option.some.inj h
    exact acquire_follows
  · rw [Option.bind_eq_bind, Option.bind_eq_some_iff] at h
    obtain ⟨pool, hfill, h⟩ := h
    obtain rfl := Option.some.inj h
    exact .rest (ledger_fill hfill) rfl trivial nofun fun _ => rfl
  · split_ifs at h
    obtain rfl := Option.some.inj h
    exact .rest (fun _ => rfl) rfl trivial nofun fun _ => rfl
  · exact prepareSend_follows h
  · rw [Option.bind_eq_bind, Option.bind_eq_some_iff] at h
    obtain ⟨packet, _, h⟩ := h
    rw [Option.bind_eq_bind, Option.bind_eq_some_iff] at h
    obtain ⟨pool, hfill, h⟩ := h
    obtain rfl := Option.some.inj h
    exact .rest (ledger_fill hfill) rfl trivial nofun fun _ => rfl
  · exact commitSend_follows h
  · exact destroy_follows h
  · exact moveConstruct_follows h
  · exact moveAssign_follows h
  · rw [Option.bind_eq_bind, Option.bind_eq_some_iff] at h
    obtain ⟨packet, hown, h⟩ := h
    obtain rfl := Option.some.inj h
    refine ⟨fun hands hhand _ => ?_, trivial, .update (.inr ⟨packet, hown⟩) (.inr ?_), nofun,
      fun _ => .pool rfl⟩
    · exact transfer_rest (ledger_put_same (held_of_own hown) _ _) hhand
    · intro new hnew
      obtain rfl := Option.some.inj hnew
      exact .inr hown
  · rename_i id packet
    split_ifs at h with hrefused
    obtain rfl := Option.some.inj h
    rw [not_or] at hrefused
    have hnone : buffers id = none := by simpa using hrefused.1
    refine ⟨fun hands hhand _ => ?_, trivial, .build hnone (.inr rfl) packet, nofun,
      fun _ => .pool rfl⟩
    refine transfer_rest (ledger_put_same ?_ _ _) hhand
    rw [held_of_none hnone, held_of_ne hrefused.2]
  · obtain rfl := Option.some.inj h
    exact .rest (fun _ => rfl) rfl trivial nofun fun _ => rfl
  · cases h

end Call

end Calls

end UdpChannel

end ServoFleet
