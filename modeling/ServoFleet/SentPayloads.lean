import ServoFleet.ClientEffects
import ServoFleet.Theory.SlotContents

/-!
What goes out on the wire: the datagrams that the transmit thread sends are those
that were committed, byte for byte as they were at the call of the commit, in the
order of the pending queue, and none of them twice.

The packet buffers of other channels are assumed to have no bytes in the arena of
this one. Packets that a stop discards are committed and never sent.
-/

namespace ServoFleet

open SlotLedger PacketPool

/-- The packet that a client has just begun to commit. -/
def ClientPc.begins : ClientPc → Option (Slot × BitVec 32)
  | .storing slot size => some (slot, size)
  | _ => none

/-- What each client had written when it began to commit, and what the packets
committed so far held then. -/
structure Payloads where
  offered : ClientId → Option (List Byte) := fun _ => none
  committed : List (Option (List Byte)) := []

def Action.StaysOut : Action → Prop
  | .client _ action => action.StaysOut
  | _ => True

namespace UdpChannel

variable {slotCount : Nat} {channel : UdpChannel slotCount} {pc : TxPc}

theorem txAdvance_sent {after : UdpChannel slotCount × TxPc}
    (h : channel.txAdvance pc = some after) : after.1.sent = channel.sent := by
  cases pc with
  | popping =>
      rw [txAdvance] at h
      split at h <;> obtain rfl := Option.some.inj h <;> rfl
  | sizing slot index =>
      rw [txAdvance, Option.bind_eq_bind, Option.bind_eq_some_iff] at h
      obtain ⟨size, _, h⟩ := h
      obtain rfl := Option.some.inj h
      rfl
  | blocking =>
      rw [txAdvance] at h
      split_ifs at h <;> obtain rfl := Option.some.inj h <;> rfl
  | blocked =>
      rw [txAdvance] at h
      split_ifs at h
      obtain rfl := Option.some.inj h
      rfl
  | releasing slot =>
      rw [txAdvance, Option.bind_eq_bind, Option.bind_eq_some_iff] at h
      obtain ⟨pool, _, h⟩ := h
      obtain rfl := Option.some.inj h
      rfl
  | limiting slot size index => cases h
  | admitted slot size index => cases h
  | sending slot size index attempt => cases h
  | finished => cases h
  | _ =>
      obtain rfl := Option.some.inj h
      rfl

/-- A datagram is what the slot in hand holds, and the hand lets go of it. -/
theorem txStep_sent {action : TxAction} {after : UdpChannel slotCount × TxPc}
    (h : channel.txStep pc action = some after) :
    after.1.sent = channel.sent ∨
      ∃ slot size index bytes, pc.hand = .taken slot size index ∧
        channel.pool.slotStart (slot, size) = some bytes ∧
        after.1.sent = channel.sent ++ [bytes] ∧ after.2 = .releasing slot := by
  unfold txStep at h
  split at h
  · exact .inl (txAdvance_sent h)
  · split at h <;> obtain rfl := Option.some.inj h <;> exact .inl rfl
  · split_ifs at h <;> obtain rfl := Option.some.inj h <;> exact .inl rfl
  · rename_i slot size index attempt outcome
    split at h
    · rw [Option.bind_eq_bind, Option.bind_eq_some_iff] at h
      obtain ⟨bytes, hbytes, h⟩ := h
      cases outcome with
      | sent =>
          obtain rfl := Option.some.inj h
          exact .inr ⟨slot, size, index, bytes, rfl, hbytes, rfl, rfl⟩
      | wouldBlock =>
          dsimp only at h
          split_ifs at h <;> obtain rfl := Option.some.inj h <;> exact .inl rfl
      | _ =>
          obtain rfl := Option.some.inj h
          exact .inl rfl
    · obtain rfl := Option.some.inj h
      exact .inl rfl
  · obtain rfl := Option.some.inj h
    exact .inl rfl
  · cases h

end UdpChannel

namespace ChannelSystem

variable {slotCount : Nat}

/-- What a step adds to the history of the payloads. -/
def note (system next : ChannelSystem slotCount) (payloads : Payloads) : Action → Payloads
  | .client id _ =>
      { offered := match (next.clients id).pc.begins with
          | some packet =>
              Function.update payloads.offered id (system.channel.pool.slotStart packet)
          | none => payloads.offered
        committed := payloads.committed ++
          (next.channel.commits.drop system.channel.commits.length).map
            fun _ => payloads.offered id }
  | _ => payloads

/-- A channel whose committed payloads are written down as it runs. -/
def watchedStep (state : ChannelSystem slotCount × Payloads) (action : Action) :
    Option (ChannelSystem slotCount × Payloads) := do
  let next ← state.1.step action
  return (next, state.1.note next state.2 action)

/-- How many of the commits the transmit thread has gone past. -/
def passed (system : ChannelSystem slotCount) : Nat :=
  match system.tx.hand.carries with
  | some (_, index) => index
  | none => system.channel.pops.length

def cargo (system : ChannelSystem slotCount) (payloads : Payloads) :
    Cargo Slot (BitVec 32) (Option (List Byte)) where
  contents := system.channel.pool.slotStart
  payloads := payloads.committed

/-- The invariant of a channel and the payloads committed to it. -/
structure Delivers (system : ChannelSystem slotCount) (payloads : Payloads) : Prop where
  valid : system.Valid
  arena : system.Arena
  aligned : UdpChannel.AllAligned system.channel.pool.packetCap system.buffers
  fits : system.Fits
  offered : ∀ id packet, (system.clients id).pc.offers = some packet →
    payloads.offered id = system.channel.pool.slotStart packet
  measured : ∀ (i : Nat) (packet : Slot × BitVec 32), system.channel.commits[i]? = some packet →
    ∃ bytes, payloads.committed[i]? = some (some bytes) ∧ bytes.length = packet.2.toNat
  intact : (system.cargo payloads).Intact system.ledger
  sent : (system.channel.sent.map some).Sublist (payloads.committed.take system.passed)

/-! ## What a write leaves alone -/

section Write

variable {system : ChannelSystem slotCount} {payloads : Payloads}

/-- The start of a slot lies in the slot. -/
theorem slotStart_isSome (arena : system.Arena) {packet : Slot × BitVec 32}
    (hslot : packet.1.toNat < slotCount) (hfits : packet.2.toNat ≤ motorUdpPacketCap) :
    ∃ bytes, system.channel.pool.slotStart packet = some bytes ∧
      bytes.length = packet.2.toNat := by
  have hbuffer := arena.slotBuffer hslot
  have hinside := system.channel.pool.slotBuffer_inside (arena.cap_toNat ▸ arena.fits) hslot
  have hstorage := arena.storage
  rw [arena.cap_toNat, ← hstorage, hbuffer] at hinside
  refine ⟨_, subspan_of_le ?_, ?_⟩
  · rw [hbuffer]
    dsimp only at hinside ⊢
    omega
  · rw [hbuffer, List.length_take, List.length_drop]
    dsimp only at hinside ⊢
    omega

/-- A client writes to a slot in its hands or in a packet buffer of its own; every
other slot stays as it is. -/
theorem slotStart_written (h : system.Delivers payloads) {id : ClientId}
    {span : ArenaSpan} {bytes : List Byte} {pool : PacketPool slotCount}
    (written : system.channel.pool.fill span bytes = some pool)
    (mine : (∃ slot, (system.clients id).pc = .acquired slot ∧
        span = system.channel.pool.slotBuffer slot) ∨
      ∃ buffer packet, UdpChannel.own system.buffers id buffer = some packet ∧
        span = packet.buffer)
    {packet : Slot × BitVec 32} (hslot : packet.1.toNat < slotCount)
    (hfits : packet.2.toNat ≤ motorUdpPacketCap)
    (hacquired : (system.clients id).pc ≠ .acquired packet.1)
    (hbuffered : ∀ buffer held, UdpChannel.own system.buffers id buffer = some held →
      held.held ≠ some packet.1) :
    pool.slotStart packet = system.channel.pool.slotStart packet := by
  -- the span belongs to another slot, or it is empty
  have hspan : (∃ other : Slot, other.toNat < slotCount ∧ packet.1 ≠ other ∧
      span = system.channel.pool.slotBuffer other) ∨ span.length = 0 := by
    rcases mine with ⟨slot, hpc, rfl⟩ | ⟨buffer, held, hown, rfl⟩
    · refine .inl ⟨slot, ?_, fun hsame => hacquired (hsame ▸ hpc), rfl⟩
      refine h.valid.ledger.placed.isValid slot (.hands (.client id)) ?_
      change (system.clients id).pc.hand.item = some slot
      rw [hpc]
      rfl
    · have haligned := h.aligned.own hown
      by_cases howner : held.owner = .this
      · have hthis := UdpChannel.held_of_this howner
        have hheld := (UdpChannel.held_of_own hown).trans hthis
        refine .inl ⟨held.slot, h.valid.ledger.placed.isValid held.slot (.buffer buffer) hheld,
          fun hsame => hbuffered buffer held hown (hsame ▸ hthis), haligned.1 howner⟩
      · exact .inr (haligned.2 howner)
  have hcap := h.arena.cap_toNat
  rcases hspan with ⟨other, hother, hne, rfl⟩ | hempty
  · exact slotStart_apart (hcap ▸ h.arena.fits) hslot hother hne (hcap ▸ hfits) written
  · rw [fill] at written
    split_ifs at written with hroom
    obtain rfl := Option.some.inj written
    obtain rfl : bytes = [] := List.length_eq_zero_iff.mp (by omega)
    rw [slotStart, slotStart, slotBuffer, slotBuffer]
    simp

end Write

/-! ## One step -/

/-- Taking further from a list that has grown. -/
private theorem take_sublist {α : Type} {xs ys : List α} {m n : Nat} (h : xs <+: ys) (hmn : m ≤ n) :
    (xs.take m).Sublist (ys.take n) := by
  obtain ⟨more, rfl⟩ := h
  have hfirst : (xs.take m) <+: ((xs ++ more).take n) := by
    rw [List.prefix_take_iff]
    exact ⟨(List.take_prefix m xs).trans (List.prefix_append xs more),
      (List.length_take_le m xs).trans hmn⟩
  exact hfirst.sublist

theorem Delivers.passed_le {system : ChannelSystem slotCount} {payloads : Payloads}
    (h : system.Delivers payloads) : system.passed ≤ system.channel.pops.length := by
  unfold passed
  split
  · rename_i slot index hcarries
    exact Nat.le_of_lt (h.intact.carried .tx slot index hcarries).1
  · exact Nat.le_refl _

section Client

variable {system : ChannelSystem slotCount} {payloads : Payloads}

/-- No sealed slot is written to. -/
theorem sealed_apart (h : system.Delivers payloads) (id : ClientId) {slot : Slot}
    (hsealed : system.ledger.Sealed slot) :
    slot.toNat < slotCount ∧ (system.clients id).pc ≠ .acquired slot ∧
      ∀ buffer held, UdpChannel.own system.buffers id buffer = some held →
        held.held ≠ some slot := by
  obtain ⟨place, hat, hhand, hbuffer⟩ : ∃ place, system.ledger.At slot place ∧
      ((system.clients id).pc = .acquired slot → place ≠ .hands (.client id)) ∧
      ∀ buffer, place ≠ .buffer buffer := by
    rcases hsealed with hpending | ⟨thread, index, hcarries⟩
    · exact ⟨.pending, hpending, nofun, nofun⟩
    · refine ⟨.hands thread, Hand.item_of_carries hcarries, fun hpc hsame => ?_, nofun⟩
      cases hsame
      change (system.clients id).pc.hand.carries = some (slot, index) at hcarries
      rw [hpc] at hcarries
      cases hcarries
  refine ⟨h.valid.ledger.placed.isValid slot place hat, fun hpc => hhand hpc ?_,
    fun buffer held hown hheld => hbuffer buffer ?_⟩
  · refine h.valid.ledger.placed.unique slot _ _ hat ?_
    change (system.clients id).pc.hand.item = some slot
    rw [hpc]
    rfl
  · exact h.valid.ledger.placed.unique slot _ (.buffer buffer) hat
      ((UdpChannel.held_of_own hown).trans hheld)

/-- The hands that are about to push a packet hold its slot. -/
theorem offers_item {pc : ClientPc} {packet : Slot × BitVec 32} (h : pc.offers = some packet) :
    pc.hand.item = some packet.1 := by
  cases pc <;> cases h <;> rfl

/-- The slot of another client's packet is not written to. -/
theorem offered_apart (h : system.Delivers payloads) {id other : ClientId} (hne : other ≠ id)
    {packet : Slot × BitVec 32} (hoffers : (system.clients other).pc.offers = some packet) :
    packet.1.toNat < slotCount ∧ (system.clients id).pc ≠ .acquired packet.1 ∧
      ∀ buffer held, UdpChannel.own system.buffers id buffer = some held →
        held.held ≠ some packet.1 := by
  have hat : system.ledger.At packet.1 (.hands (.client other)) := offers_item hoffers
  refine ⟨h.valid.ledger.placed.isValid _ _ hat, fun hpc => ?_, fun buffer held hown hheld => ?_⟩
  · have hat' : system.ledger.At packet.1 (.hands (.client id)) := by
      change (system.clients id).pc.hand.item = some packet.1
      rw [hpc]
      rfl
    cases h.valid.ledger.placed.unique _ _ _ hat hat'
    exact hne rfl
  · cases h.valid.ledger.placed.unique _ _ (.buffer buffer) hat
      ((UdpChannel.held_of_own hown).trans hheld)

variable {id : ClientId} {action : ClientAction} {channel : UdpChannel slotCount}
  {buffers : Buffers} {client : Client}

/-- What a step of a client leaves of the packets, and what it adds to them. -/
structure Noted (system : ChannelSystem slotCount) (id : ClientId)
    (channel : UdpChannel slotCount) (client : Client) : Prop where
  kept : ∀ packet : Slot × BitVec 32, packet.1.toNat < slotCount →
    packet.2.toNat ≤ motorUdpPacketCap → (system.clients id).pc ≠ .acquired packet.1 →
    (∀ buffer held, UdpChannel.own system.buffers id buffer = some held →
      held.held ≠ some packet.1) →
    channel.pool.slotStart packet = system.channel.pool.slotStart packet
  commits : channel.commits = system.channel.commits ∨ ∃ packet,
    (system.clients id).pc.offers = some packet ∧
      channel.commits = system.channel.commits ++ [packet] ∧
      channel.pool.slotStart = system.channel.pool.slotStart
  sent : channel.sent = system.channel.sent
  pops : system.channel.pops <+: channel.pops
  offers : ∀ packet, client.pc.offers = some packet →
    channel.pool.slotStart = system.channel.pool.slotStart ∧
      (client.pc.begins = some packet ∨
        (client.pc.begins = none ∧ (system.clients id).pc.offers = some packet))

theorem client_noted (h : system.Delivers payloads)
    (hclient : system.channel.clientStep system.buffers id (system.clients id).pc action =
      some (channel, buffers, client)) : system.Noted id channel client := by
  have heffect := UdpChannel.clientStep_effect hclient
  obtain ⟨pc, result⟩ := client
  cases heffect with
  | keep storage commits sent pops offers =>
      refine ⟨fun packet _ _ _ _ => congrFun storage.slotStart packet, .inl commits, sent, pops,
        fun packet hpc => ⟨storage.slotStart, ?_⟩⟩
      rcases offers with hnone | ⟨slot, size, hstoring, hpushing⟩
      · rw [hnone] at hpc
        cases hpc
      · obtain rfl : pc = _ := hpushing
        cases hpc
        exact .inr ⟨rfl, by rw [hstoring]; rfl⟩
  | write written mine offers =>
      refine ⟨fun packet hslot hfits hacquired hbuffered =>
          slotStart_written h written mine hslot hfits hacquired hbuffered,
        .inl rfl, rfl, List.prefix_rfl, fun packet hpc => ?_⟩
      rw [offers] at hpc
      cases hpc
  | offer _ =>
      refine ⟨fun _ _ _ _ _ => rfl, .inl rfl, rfl, List.prefix_rfl, fun packet hpc => ?_⟩
      cases hpc
      exact ⟨rfl, .inl rfl⟩
  | @push slot size pool offered storage =>
      refine ⟨fun packet _ _ _ _ => congrFun storage.slotStart packet,
        .inr ⟨(slot, size), by rw [offered]; rfl, rfl, storage.slotStart⟩, rfl, List.prefix_rfl,
        fun packet hpc => ?_⟩
      cases hpc

section Step

variable {next : ChannelSystem slotCount}

theorem note_offered_other {other : ClientId} (hne : other ≠ id) :
    (system.note next payloads (.client id action)).offered other = payloads.offered other := by
  cases hpc : (next.clients id).pc.begins with
  | none => simp only [note, hpc]
  | some packet =>
      simp only [note, hpc]
      exact Function.update_of_ne hne _ _

theorem note_offered_begins {packet : Slot × BitVec 32}
    (hpc : (next.clients id).pc.begins = some packet) :
    (system.note next payloads (.client id action)).offered id =
      system.channel.pool.slotStart packet := by
  simp only [note, hpc]
  exact Function.update_self _ _ _

theorem note_offered_rest (hpc : (next.clients id).pc.begins = none) :
    (system.note next payloads (.client id action)).offered = payloads.offered := by
  simp only [note, hpc]

theorem client_delivers (h : system.Delivers payloads) (hout : action.StaysOut)
    (hclient : system.channel.clientStep system.buffers id (system.clients id).pc action =
      some (channel, buffers, client))
    (hnext : next = { system with
      channel, buffers, clients := Function.update system.clients id client })
    (hstep : system.step (.client id action) = some next) :
    next.Delivers (system.note next payloads (.client id action)) := by
  have hnoted := client_noted h hclient
  have hvalid := step_valid system _ next h.valid hstep
  have harena := step_arena system _ next h.arena hstep
  have hfits := step_fits system _ next h.fits h.arena hstep
  have hself : next.clients id = client := by
    rw [hnext]
    exact Function.update_self _ _ _
  have hothers : ∀ other, other ≠ id → next.clients other = system.clients other := by
    intro other hother
    rw [hnext]
    exact Function.update_of_ne hother _ _
  have hledger : system.ledger.Step (.client id) next.ledger := by
    rw [hnext, ledger, ledger, hands_client]
    exact (UdpChannel.clientStep_follows (h.valid.clients id) hclient).transfer system.hands rfl
      h.valid.ledger
  obtain rfl : channel = next.channel := by rw [hnext]
  obtain rfl : buffers = next.buffers := by rw [hnext]
  have hcommitted : (system.note next payloads (.client id action)).committed =
      payloads.committed ++ (next.channel.commits.drop system.channel.commits.length).map
        fun _ => payloads.offered id := rfl
  -- what a push adds is what its client had offered, which its slot still holds
  have hadded : ∀ packet ∈ next.channel.commits.drop system.channel.commits.length,
      packet.1.toNat < slotCount ∧
        payloads.offered id = next.channel.pool.slotStart packet := by
    intro packet member
    rcases hnoted.commits with hsame | ⟨pushed, hoffers, hpush, hstart⟩
    · rw [hsame, List.drop_length] at member
      cases member
    · rw [hpush, List.drop_left] at member
      obtain rfl := List.mem_singleton.mp member
      have hat : system.ledger.At packet.1 (.hands (.client id)) := offers_item hoffers
      exact ⟨h.valid.ledger.placed.isValid _ _ hat, by rw [hstart, h.offered id packet hoffers]⟩
  have hintact : (next.cargo (system.note next payloads (.client id action))).Intact
      next.ledger := by
    refine h.intact.step h.valid.ledger hledger (fun packet member hsealed => ?_) ?_
    · obtain ⟨hslot, hacquired, hbuffered⟩ := sealed_apart h id hsealed
      exact hnoted.kept packet hslot (h.fits.commits packet member) hacquired hbuffered
    · change (system.note next payloads (.client id action)).committed = _
      rw [hcommitted]
      exact congrArg (payloads.committed ++ ·) (List.map_congr_left fun packet member =>
        (hadded packet member).2)
  refine ⟨hvalid, harena, ?_, hfits, fun other packet hoffers => ?_, fun i packet hcommit => ?_,
    hintact, ?_⟩
  · rw [(UdpChannel.clientStep_arena hclient).1]
    exact UdpChannel.clientStep_aligned h.aligned hout hclient
  · by_cases hother : other = id
    · subst hother
      have hpc := hoffers
      rw [hself] at hpc
      obtain ⟨hstart, hbegins | ⟨hbegins, hbefore⟩⟩ := hnoted.offers packet hpc
      · rw [note_offered_begins (hself ▸ hbegins), hstart]
      · rw [note_offered_rest (hself ▸ hbegins), hstart, h.offered other packet hbefore]
    · rw [hothers other hother] at hoffers
      obtain ⟨hslot, hacquired, hbuffered⟩ := offered_apart h hother hoffers
      rw [note_offered_other hother, h.offered other packet hoffers,
        hnoted.kept packet hslot (h.fits.offered other packet hoffers) hacquired hbuffered]
  · rcases Nat.lt_or_ge i system.channel.commits.length with hlt | hge
    · have hprefix : system.channel.commits <+: next.channel.commits := hledger.commits_prefix
      have hold : system.channel.commits[i]? = some packet := by
        rwa [List.prefix_iff_getElem?.mp hprefix i hlt, ← List.getElem?_eq_getElem hlt] at hcommit
      obtain ⟨bytes, hbytes, hlength⟩ := h.measured i packet hold
      refine ⟨bytes, ?_, hlength⟩
      rw [hcommitted, List.getElem?_append_left (List.getElem?_eq_some_iff.mp hbytes).1, hbytes]
    · have hdrop : (next.channel.commits.drop system.channel.commits.length)[
          i - system.channel.commits.length]? = some packet := by
        rw [List.getElem?_drop, Nat.add_sub_cancel' hge, hcommit]
      obtain ⟨hslot, hoffered⟩ := hadded packet (List.mem_of_getElem? hdrop)
      obtain ⟨bytes, hbytes, hlength⟩ := slotStart_isSome harena hslot
        (hfits.commits packet (List.mem_of_getElem? hcommit))
      have hcount : payloads.committed.length = system.channel.commits.length := h.intact.length
      refine ⟨bytes, ?_, hlength⟩
      rw [hcommitted, List.getElem?_append_right (by omega), hcount, List.getElem?_map, hdrop,
        Option.map_some, hoffered, hbytes]
  · rw [hnoted.sent, hcommitted]
    have htx : next.tx = system.tx := by rw [hnext]
    refine h.sent.trans (take_sublist (List.prefix_append _ _) ?_)
    rw [passed, passed, htx]
    split
    · exact Nat.le_refl _
    · exact hnoted.pops.length_le

end Step

end Client

section Transmit

variable {system next : ChannelSystem slotCount} {payloads : Payloads} {action : TxAction}
  {channel : UdpChannel slotCount} {tx : TxPc}

theorem passed_of_carries {slot : Slot} {index : Nat}
    (h : system.tx.hand.carries = some (slot, index)) : system.passed = index := by
  rw [passed, h]

theorem passed_of_none (h : system.tx.hand.carries = none) :
    system.passed = system.channel.pops.length := by
  rw [passed, h]

/-- The transmit thread never goes back to a commit it has gone past. -/
theorem tx_passed (h : system.Delivers payloads) (hledger : system.ledger.Step .tx next.ledger) :
    system.passed ≤ next.passed := by
  cases hcarries : next.tx.hand.carries with
  | none =>
      rw [passed_of_none hcarries]
      exact h.passed_le.trans hledger.pops
  | some carried =>
      obtain ⟨slot, index⟩ := carried
      rw [passed_of_carries hcarries]
      have hcarries' : (next.ledger.hands .tx).carries = some (slot, index) := hcarries
      rcases hledger.carries hcarries' with hbefore | ⟨rfl, _, _⟩
      · exact (passed_of_carries hbefore).le
      · exact h.passed_le

theorem tx_delivers (h : system.Delivers payloads)
    (htx : system.channel.txStep system.tx action = some (channel, tx))
    (hstep : system.step (.tx action) = some { system with channel, tx }) :
    Delivers { system with channel, tx } payloads := by
  have hmoves := UdpChannel.txStep_moves htx
  have hstart := hmoves.storage.slotStart
  have hcommits := hmoves.commits
  have hledger : system.ledger.Step .tx (ledger { system with channel, tx }) := by
    rw [ledger, ledger, hands_tx system channel tx]
    exact hmoves.transfers h.valid.ledger rfl
  refine ⟨step_valid system _ _ h.valid hstep, step_arena system _ _ h.arena hstep, ?_,
    step_fits system _ _ h.fits h.arena hstep, fun id packet hoffers => ?_,
    fun i packet hcommit => h.measured i packet (hcommits ▸ hcommit), ?_, ?_⟩
  · change UdpChannel.AllAligned channel.pool.packetCap system.buffers
    rw [hmoves.storage.1]
    exact h.aligned
  · exact (h.offered id packet hoffers).trans (congrFun hstart packet).symm
  · refine h.intact.step h.valid.ledger hledger
      (fun packet _ _ => congrFun hstart packet) ?_
    change payloads.committed = payloads.committed ++
      (channel.commits.drop system.channel.commits.length).map channel.pool.slotStart
    rw [hcommits, List.drop_length, List.map_nil, List.append_nil]
  · have hpassed := tx_passed h hledger
    change (channel.sent.map some).Sublist _
    rcases UdpChannel.txStep_sent htx with
      hsame | ⟨slot, size, index, bytes, hhand, hbytes, hsent, hnext⟩
    · dsimp only at hsame
      rw [hsame]
      exact h.sent.trans (take_sublist List.prefix_rfl hpassed)
    · dsimp only at hsent hnext
      subst hnext
      have hcarries : system.tx.hand.carries = some (slot, index) := by rw [hhand]; rfl
      obtain ⟨hlt, hpayload⟩ := h.intact.carried .tx slot index hcarries
      have hcommit : system.channel.commits[index]? = some (slot, size) := by
        have hrelies := h.valid.ledger.relies .tx
        change system.ledger.Relies system.tx.hand at hrelies
        rwa [hhand] at hrelies
      have hat : payloads.committed[index]? = some (some bytes) := by
        rw [← hbytes]
        exact hpayload size hcommit
      have hbehind : system.passed = index := passed_of_carries hcarries
      have hpops := hledger.pops
      rw [hsent, List.map_append, List.map_singleton]
      have hone : (system.channel.sent.map some ++ [some bytes]).Sublist
          (payloads.committed.take (index + 1)) := by
        rw [List.take_add_one, hat]
        exact (hbehind ▸ h.sent).append (List.Sublist.refl _)
      refine hone.trans (take_sublist List.prefix_rfl ?_)
      exact Nat.lt_of_lt_of_le hlt hpops

end Transmit

/-! ## Runs -/

theorem watchedStep_delivers (state : ChannelSystem slotCount × Payloads) (action : Action)
    (next : ChannelSystem slotCount × Payloads) (h : state.1.Delivers state.2)
    (hout : action.StaysOut) (hstep : watchedStep state action = some next) :
    next.1.Delivers next.2 := by
  obtain ⟨system, payloads⟩ := state
  rw [watchedStep, Option.bind_eq_bind, Option.bind_eq_some_iff] at hstep
  obtain ⟨after, htaken, hnext⟩ := hstep
  obtain rfl := Option.some.inj hnext
  dsimp only at h htaken ⊢
  cases step_moves htaken with
  | client hclient => exact client_delivers h hout hclient rfl htaken
  | tx htx => exact tx_delivers h htx htaken
  | stop =>
      exact ⟨step_valid _ _ _ h.valid htaken, step_arena _ _ _ h.arena htaken, h.aligned,
        step_fits _ _ _ h.fits h.arena htaken, h.offered, h.measured, h.intact, h.sent⟩
  | requestStop =>
      exact ⟨step_valid _ _ _ h.valid htaken, step_arena _ _ _ h.arena htaken, h.aligned,
        step_fits _ _ _ h.fits h.arena htaken, h.offered, h.measured, h.intact, h.sent⟩
  | cancelWait =>
      exact ⟨step_valid _ _ _ h.valid htaken, step_arena _ _ _ h.arena htaken, h.aligned,
        step_fits _ _ _ h.fits h.arena htaken, h.offered, h.measured, h.intact, h.sent⟩

theorem openRealtime_delivers {sendQueueSlots : BitVec 32}
    {system : ChannelSystem sendQueueSlots.toNat}
    (hopen : openRealtime sendQueueSlots = some system) : system.Delivers {} := by
  obtain ⟨hvalid, harena⟩ := openRealtime_arena hopen
  rw [openRealtime, Option.bind_eq_bind, Option.bind_eq_some_iff] at hopen
  obtain ⟨storage, _, hopen⟩ := hopen
  obtain rfl := Option.some.inj hopen
  refine ⟨hvalid, harena, by simp [UdpChannel.AllAligned, init],
    ⟨by simp [init, ClientPc.offers], by simp [init]⟩, by simp [init, ClientPc.offers],
    by simp [init], ⟨rfl, by simp [init, ledger, UdpChannel.ledger],
      fun thread _ _ hcarries => ?_⟩, .slnil⟩
  cases thread <;> cases hcarries

/-- In every interleaving, the datagrams sent are packets that were committed, each byte
for byte as its slot was at the call of the commit, in the order of the commits and none
of them twice. -/
theorem sent_as_committed (sendQueueSlots : BitVec 32)
    (start : ChannelSystem sendQueueSlots.toNat) (hopen : openRealtime sendQueueSlots = some start)
    (actions : List Action) (system : ChannelSystem sendQueueSlots.toNat) (payloads : Payloads)
    (hrun : Steps.Along watchedStep (fun _ action => action.StaysOut) (start, {}) actions
      (system, payloads)) :
    (system.channel.sent.map some).Sublist payloads.committed ∧
      payloads.committed.length = system.channel.commits.length ∧
      ∀ (i : Nat) (packet : Slot × BitVec 32), system.channel.commits[i]? = some packet →
        ∃ bytes, payloads.committed[i]? = some (some bytes) ∧ bytes.length = packet.2.toNat := by
  have hdelivers : system.Delivers payloads :=
    hrun.invariant (P := fun state => state.1.Delivers state.2)
      (fun state action next h hout htaken => watchedStep_delivers state action next h hout htaken)
      (openRealtime_delivers hopen)
  exact ⟨hdelivers.sent.trans (List.take_sublist _ _), hdelivers.intact.length,
    hdelivers.measured⟩

/-- A client writes three bytes and commits them, and the transmit thread sends them. -/
def threeByteRun : List Action := [.client 0 (.prepare 0), .client 0 .advance,
  .client 0 (.fillBuffer 0 [1, 2, 3]), .client 0 (.commit 0 3), .client 0 .advance,
  .client 0 .advance, .tx .advance, .tx .advance, .tx .advance, .tx .advance,
  .tx (.limited (.ok ())), .tx (.checkSocket true), .tx (.attempt .sent)]

theorem three_bytes_sent : ∃ start system payloads, openRealtime 1 = some start ∧
    Steps.Along watchedStep (fun _ action => action.StaysOut) (start, {}) threeByteRun
      (system, payloads) ∧
    system.channel.sent = [[1, 2, 3]] ∧
    (system.channel.sent.map some).Sublist payloads.committed := by
  obtain ⟨start, hopen, hsends⟩ : ∃ start, openRealtime 1 = some start ∧
      (Steps.run watchedStep (start, {}) threeByteRun).map (fun state => state.1.channel.sent) =
        some [[1, 2, 3]] := ⟨_, rfl, by decide +kernel⟩
  obtain ⟨⟨system, payloads⟩, hrun, hsent⟩ := Option.map_eq_some_iff.mp hsends
  have hout : ∀ action ∈ threeByteRun, action.StaysOut := by
    simp [threeByteRun, Action.StaysOut, ClientAction.StaysOut]
  have halong := Steps.along_of_run_ok hout hrun
  exact ⟨start, system, payloads, hopen, halong, hsent,
    (sent_as_committed 1 start hopen _ system payloads halong).1⟩

end ChannelSystem

end ServoFleet
