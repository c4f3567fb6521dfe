import ServoFleet.FleetSends

/-!
The threads of a runtime, each in its own calls. A thread is in a call of one driver at a
time, and its batches know of every packet what that call returned.
-/

namespace ServoFleet

/-! ## The threads of one driver -/

namespace DriverChannel

variable {slotCount : Nat} {state next : DriverChannel slotCount} {id : ClientId}

theorem act_sends {action : ClientAction} {pc : DriverPc}
    (h : state.act id action pc = some next) :
    next.sends = Function.update state.sends id pc ∧ next.returned = state.returned := by
  rw [act, Option.bind_eq_bind, Option.bind_eq_some_iff] at h
  obtain ⟨system, _, h⟩ := h
  obtain rfl := Option.some.inj h
  exact ⟨rfl, rfl⟩

/-- A thread in a call stays in it, or returns from it with a code if it sends. -/
inductive Goes (id : ClientId) (state next : DriverChannel slotCount) : Prop where
  | on (pc : DriverPc) (busy : pc ≠ .idle) (frames : pc.frames = (state.sends id).frames)
      (kind : pc = .discarding ↔ state.sends id = .discarding)
      (sends : next.sends = Function.update state.sends id pc)
      (returned : next.returned = state.returned)
  | discarded (discarding : state.sends id = .discarding)
      (sends : next.sends = Function.update state.sends id .idle)
      (returned : next.returned = state.returned)
  | returns (code : ErrCode) (sending : state.sends id ≠ .discarding)
      (sends : next.sends = Function.update state.sends id .idle)
      (returned : next.returned = state.returned ++ [(id, (state.sends id).frames, code)])

theorem act_goes {action : ClientAction} {pc before : DriverPc} (hsends : state.sends id = before)
    (h : state.act id action pc = some next) (busy : pc ≠ .idle)
    (frames : pc.frames = before.frames) (kind : pc = .discarding ↔ before = .discarding) :
    Goes id state next := by
  subst hsends
  exact .on pc busy frames kind (act_sends h).1 (act_sends h).2

theorem encode_goes {frames : List CanFrame} (hsends : state.sends id = .encoding frames)
    (h : state.encode id frames = some next) : Goes id state next := by
  simp only [encode, Option.bind_eq_bind, Option.bind_eq_some_iff] at h
  obtain ⟨packet, _, out, _, ⟨encodedSize, written⟩, _, h⟩ := h
  cases encodedSize with
  | ok size => exact act_goes hsends h (by simp) rfl (by simp)
  | error err => exact act_goes hsends h (by simp) rfl (by simp)

theorem advance_goes (hbusy : state.sends id ≠ .idle) (h : state.advance id = some next) :
    Goes id state next := by
  rw [advance] at h
  split_ifs at h with hclient
  · exact act_goes rfl h hbusy rfl Iff.rfl
  cases hsends : state.sends id with
  | idle => exact absurd hsends hbusy
  | preparing frames =>
      simp only [hsends] at h
      split at h
      · obtain rfl := Option.some.inj h
        exact .returns _ (by simp [hsends]) rfl (by rw [hsends]; rfl)
      · obtain rfl := Option.some.inj h
        exact .on _ (by simp) (by rw [hsends]; rfl) (by simp [hsends]) rfl rfl
  | encoding frames =>
      simp only [hsends] at h
      exact encode_goes hsends h
  | committing frames size =>
      simp only [hsends] at h
      exact act_goes hsends h (by simp) rfl (by simp)
  | returning frames =>
      simp only [hsends] at h
      exact act_goes hsends h (by simp) rfl (by simp)
  | failing frames err =>
      simp only [hsends] at h
      exact act_goes hsends h (by simp) rfl (by simp)
  | dropping frames code =>
      simp only [hsends] at h
      obtain rfl := Option.some.inj h
      exact .returns code (by simp [hsends]) rfl (by rw [hsends]; rfl)
  | discarding =>
      simp only [hsends] at h
      obtain rfl := Option.some.inj h
      exact .discarded hsends rfl rfl

/-- What the calls of a thread have returned. -/
def answers (state : DriverChannel slotCount) (id : ClientId) : List (List CanFrame × ErrCode) :=
  (state.returned.filter fun entry => entry.1 = id).map Prod.snd

theorem answers_append (other : ClientId) (frames : List CanFrame) (code : ErrCode)
    (h : next.returned = state.returned ++ [(id, frames, code)]) :
    next.answers other =
      state.answers other ++ if id = other then [(frames, code)] else [] := by
  rw [answers, answers, h, List.filter_append, List.map_append]
  split_ifs with hid <;> simp [hid]

/-- A call of another thread is no concern of a thread. -/
theorem Goes.others (h : Goes id state next) {other : ClientId} (hne : other ≠ id) :
    next.sends other = state.sends other ∧ next.answers other = state.answers other := by
  cases h with
  | on pc _ _ _ sends returned =>
      exact ⟨by rw [sends, Function.update_of_ne hne], by rw [answers, answers, returned]⟩
  | discarded _ sends returned =>
      exact ⟨by rw [sends, Function.update_of_ne hne], by rw [answers, answers, returned]⟩
  | returns code _ sends returned =>
      refine ⟨by rw [sends, Function.update_of_ne hne], ?_⟩
      rw [answers_append other _ code returned, if_neg (Ne.symm hne), List.append_nil]

theorem others_of_begun {pc : DriverPc} (h : next.sends = Function.update state.sends id pc ∧
    next.returned = state.returned) {other : ClientId} (hne : other ≠ id) :
    next.sends other = state.sends other ∧ next.answers other = state.answers other :=
  ⟨by rw [h.1, Function.update_of_ne hne], by rw [answers, answers, h.2]⟩

theorem send_goes {frames : List CanFrame} (hsome : frames ≠ [])
    (h : state.step (.send id frames) = some next) :
    next.sends = Function.update state.sends id (.preparing frames) ∧
      next.returned = state.returned := by
  rw [step] at h
  split_ifs at h with hbusy
  exact act_sends h

theorem discard_goes (h : state.step (.discard id) = some next) :
    next.sends = Function.update state.sends id .discarding ∧
      next.returned = state.returned := by
  rw [step] at h
  split_ifs at h with hbusy
  exact act_sends h

theorem tx_beside {action : TxAction} (h : state.step (.tx action) = some next) :
    next.sends = state.sends ∧ next.returned = state.returned := by
  rw [step, Option.bind_eq_bind, Option.bind_eq_some_iff] at h
  obtain ⟨system, _, h⟩ := h
  obtain rfl := Option.some.inj h
  exact ⟨rfl, rfl⟩

theorem stop_beside {taken : StopStep} (h : state.step (.stop taken) = some next) :
    next.sends = state.sends ∧ next.returned = state.returned := by
  rw [step, Option.bind_eq_bind, Option.bind_eq_some_iff] at h
  obtain ⟨system, _, h⟩ := h
  obtain rfl := Option.some.inj h
  exact ⟨rfl, rfl⟩

end DriverChannel

/-! ## One batch -/

namespace BatchCommands

variable {F : Type} {driver : MotorDriver} {motors : Motors F} {deviceSlot : Nat}
  {command : MotorCommand} {batch filled : BatchCommands} {code : ErrCode}

/-- What a batch has offered makes no difference to what it takes in. -/
theorem fill_with (offers : List Offer) :
    { batch with offers }.fill driver motors deviceSlot command =
      (batch.fill driver motors deviceSlot command).map fun result =>
        (result.1, { result.2 with offers }) := by
  unfold fill
  cases driver.devices[deviceSlot]? with
  | none => rfl
  | some ref =>
      simp only [Option.bind_eq_bind]
      cases motors[ref]? with
      | none => rfl
      | some device =>
          simp only [Option.bind_some]
          split_ifs with hcount
          · cases CanCodec.encode device.addr command batch.frames[batch.frameCount] with
            | none => rfl
            | some result =>
                obtain ⟨err, frame⟩ := result
                cases err <;> rfl
          · rfl

theorem fill_offers (h : batch.fill driver motors deviceSlot command = some (code, filled)) :
    filled.offers = batch.offers := by
  have hsame : batch.fill driver motors deviceSlot command =
      (batch.fill driver motors deviceSlot command).map fun result =>
        (result.1, { result.2 with offers := batch.offers }) := fill_with batch.offers
  rw [h, Option.map_some] at hsame
  exact congrArg (fun result => result.2.offers) (Option.some.inj hsame)

theorem held_ne_nil (h : batch.frameCount ≠ 0) : batch.held ≠ [] := by
  apply List.ne_nil_of_length_pos
  rw [held, List.length_take, Vector.length_toList]
  exact Nat.lt_min.mpr ⟨Nat.pos_of_ne_zero h, by decide⟩

/-- `push` fills the batch and flushes it if it is full. -/
theorem push_eq (replies : Nat → ChannelReply) (hcount : batch.frameCount < maxFramesPerPacket) :
    batch.push driver motors replies deviceSlot command =
      (batch.fill driver motors deviceSlot command).bind fun result =>
        if result.2.frameCount = maxFramesPerPacket then result.2.flush replies
        else some result := by
  unfold push fill
  cases driver.devices[deviceSlot]? with
  | none => exact (if_neg (Nat.ne_of_lt hcount)).symm
  | some ref =>
      simp only [Option.bind_eq_bind]
      cases motors[ref]? with
      | none => rfl
      | some device =>
          simp only [Option.bind_some, dif_pos hcount]
          cases CanCodec.encode device.addr command batch.frames[batch.frameCount] with
          | none => rfl
          | some result =>
              obtain ⟨err, frame⟩ := result
              cases err with
              | error err => exact (if_neg (Nat.ne_of_lt hcount)).symm
              | ok _ => rfl

end BatchCommands

/-! ## What a thread has offered -/

/-- The packets a call has offered to a channel, with what came back. -/
def CommandCall.packets (call : CommandCall) (slot : Nat) : List (List CanFrame × ErrCode) :=
  match call.batches[slot]? with
  | none => []
  | some batch => batch.offers.map fun offer => (offer.frames, offer.code)

/-- A thread with its calls of the drivers and what its own calls have offered. -/
structure ThreadView where
  pc : CommandPc
  sends : Nat → DriverPc
  answers : Nat → List (List CanFrame × ErrCode)
  past : Nat → List (List CanFrame × ErrCode)

namespace ThreadView

/-- In no call of a driver, with every answer in the batches. -/
def Even (thread : ThreadView) (slot : Nat) (packets : List (List CanFrame × ErrCode)) : Prop :=
  thread.sends slot = .idle ∧ thread.answers slot = thread.past slot ++ packets

/-- In `send` of a driver, or just back from it. -/
def Offering (thread : ThreadView) (slot : Nat) (call : CommandCall) (frames : List CanFrame) :
    Prop :=
  (thread.sends slot ≠ .idle ∧ thread.sends slot ≠ .discarding ∧
      (thread.sends slot).frames = frames ∧
      thread.answers slot = thread.past slot ++ call.packets slot) ∨
    ∃ code, thread.Even slot (call.packets slot ++ [(frames, code)])

/-- A thread calls one driver at a time, with the frames its batch holds. -/
def Tracked (thread : ThreadView) : Prop :=
  match thread.pc with
  | .idle => ∀ slot, thread.Even slot []
  | .running call => ∀ slot, thread.Even slot (call.packets slot)
  | .sending slot call => (∀ other, other ≠ slot → thread.Even other (call.packets other)) ∧
      ∃ batch, call.batches[slot]? = some batch ∧ thread.Offering slot call batch.held
  | .discarding slot => (∀ other, other ≠ slot → thread.Even other []) ∧
      (thread.sends slot = .idle ∨ thread.sends slot = .discarding) ∧
      thread.answers slot = thread.past slot

end ThreadView

namespace FleetSends

variable {F : Type} {slots : Nat → Nat} {state next : FleetSends F slots} {id : ClientId}

def view (state : FleetSends F slots) (id : ClientId) : ThreadView where
  pc := state.threads id
  sends slot := (state.channels slot).sends id
  answers slot := (state.channels slot).answers id
  past slot := (state.returned.filter fun entry => entry.1 = id).flatMap fun entry =>
    entry.2.packets slot

theorem view_pc {pc : CommandPc} (h : state.threads id = pc) : (state.view id).pc = pc := h

/-- A thread that is moved, and a channel with it. -/
def moved (state : FleetSends F slots) (id : ClientId) (pc : CommandPc) (slot : Nat)
    (channel : DriverChannel (slots slot)) : FleetSends F slots :=
  { state.goTo id pc with channels := Function.update state.channels slot channel }

theorem act_spec {slot : Nat} {action : DriverAction} {pc : CommandPc}
    (h : state.act id slot action pc = some next) :
    ∃ channel, (state.channels slot).step action = some channel ∧
      next = state.moved id pc slot channel := by
  rw [act, Option.bind_eq_bind, Option.bind_eq_some_iff] at h
  obtain ⟨channel, hchannel, h⟩ := h
  exact ⟨channel, hchannel, (Option.some.inj h).symm⟩

theorem view_goTo (pc : CommandPc) : (state.goTo id pc).view id = { state.view id with pc } := by
  simp [view, goTo]

theorem view_goTo_other {other : ClientId} (hne : other ≠ id) (pc : CommandPc) :
    (state.goTo id pc).view other = state.view other := by
  simp [view, goTo, Function.update_of_ne hne]

/-- What is read off the channels, when one of them is replaced. -/
theorem update_channels {β : Type} (channels : (slot : Nat) → DriverChannel (slots slot))
    (slot : Nat) (channel : DriverChannel (slots slot)) (f : {n : Nat} → DriverChannel n → β) :
    (fun other => f (Function.update channels slot channel other)) =
      Function.update (fun other => f (channels other)) slot (f channel) := by
  funext other
  exact Function.apply_update (fun _ => f) channels slot channel other

theorem view_moved (pc : CommandPc) (slot : Nat) (channel : DriverChannel (slots slot)) :
    (state.moved id pc slot channel).view id =
      { state.view id with
        pc
        sends := Function.update (state.view id).sends slot (channel.sends id)
        answers := Function.update (state.view id).answers slot (channel.answers id) } := by
  simp only [view, moved, goTo, Function.update_self, ThreadView.mk.injEq, true_and, and_true]
  exact ⟨update_channels _ _ _ (fun channel => channel.sends id),
    update_channels _ _ _ (fun channel => channel.answers id)⟩

theorem view_moved_other {other : ClientId} (hne : other ≠ id) (pc : CommandPc) {slot : Nat}
    {channel : DriverChannel (slots slot)}
    (hsame : channel.sends other = (state.channels slot).sends other ∧
      channel.answers other = (state.channels slot).answers other) :
    (state.moved id pc slot channel).view other = state.view other := by
  have hsends := update_channels state.channels slot channel fun channel => channel.sends other
  have hanswers := update_channels state.channels slot channel fun channel => channel.answers other
  rw [hsame.1, Function.update_eq_self] at hsends
  rw [hsame.2, Function.update_eq_self] at hanswers
  simp only [view, moved, goTo, Function.update_of_ne hne, hsends, hanswers]

/-! ## The steps of a thread -/

/-- A thread takes a step: it is tracked after it, and the others are where they were. -/
def Tracks (state next : FleetSends F slots) (id : ClientId) : Prop :=
  (next.view id).Tracked ∧ ∀ other, other ≠ id → next.view other = state.view other

theorem goTo_tracks {pc : CommandPc} (h : { state.view id with pc }.Tracked) :
    state.Tracks (state.goTo id pc) id := by
  refine ⟨?_, fun other hne => view_goTo_other hne _⟩
  rw [view_goTo]
  exact h

section Thread

variable {slot : Nat} {call : CommandCall}

theorem send_tracked {batch : BatchCommands} (hbatch : call.batches[slot]? = some batch)
    (hsome : batch.held ≠ []) (hthread : ∀ other, (state.view id).Even other (call.packets other))
    (h : state.send id slot call = some next) :
    state.Tracks next id := by
  rw [send, hbatch, Option.bind_eq_bind, Option.bind_some] at h
  obtain ⟨channel, hstep, rfl⟩ := act_spec h
  have hbegun := DriverChannel.send_goes hsome hstep
  refine ⟨?_, fun other hne => view_moved_other hne _ (DriverChannel.others_of_begun hbegun hne)⟩
  rw [view_moved]
  refine ⟨fun other hne => ?_, batch, hbatch, .inl ?_⟩
  · simp only [ThreadView.Even, Function.update_of_ne hne]
    exact hthread other
  · simp only [Function.update_self, hbegun.1]
    refine ⟨by simp, by simp, rfl, ?_⟩
    rw [DriverChannel.answers, hbegun.2]
    exact (hthread slot).2

/-- A thread goes on in `send` of a driver, or returns from it. -/
theorem sending_tracked (hpc : state.threads id = .sending slot call)
    (hbusy : (state.channels slot).sends id ≠ .idle) (h : (state.view id).Tracked)
    (hact : state.act id slot (.advance id) (.sending slot call) = some next) :
    state.Tracks next id := by
  obtain ⟨channel, hstep, rfl⟩ := act_spec hact
  have hgoes := DriverChannel.advance_goes hbusy hstep
  refine ⟨?_, fun other hne => view_moved_other hne _ (hgoes.others hne)⟩
  rw [ThreadView.Tracked, view_pc hpc] at h
  obtain ⟨hothers, batch, hbatch, hoffering⟩ := h
  rw [view_moved]
  refine ⟨fun other hne => ?_, batch, hbatch, ?_⟩
  · simp only [ThreadView.Even, Function.update_of_ne hne]
    exact hothers other hne
  obtain ⟨_, hkind, hframes, hanswers⟩ | ⟨code, heven⟩ := hoffering
  · change ((state.channels slot).sends id).frames = batch.held at hframes
    cases hgoes with
    | on pc busy frames kind sends returned =>
        refine .inl ?_
        simp only [Function.update_self, sends]
        refine ⟨busy, fun hpc => hkind (kind.mp hpc), frames.trans hframes, ?_⟩
        rw [DriverChannel.answers, returned]
        exact hanswers
    | discarded discarding _ _ => exact absurd discarding hkind
    | returns code _ sends returned =>
        refine .inr ⟨code, ?_⟩
        simp only [ThreadView.Even, Function.update_self, sends, true_and]
        rw [DriverChannel.answers_append id _ code returned, if_pos rfl, hframes,
          ← List.append_assoc]
        exact congrArg (· ++ _) hanswers
  · exact absurd heven.1 hbusy

theorem packets_set {batch : BatchCommands} (hbatch : call.batches[slot]? = some batch)
    (next : BatchCommands) (loop : CommandLoop) (error : ErrCode) (other : Nat) :
    CommandCall.packets { call with loop, error, batches := call.batches.set slot next } other =
      if slot = other then next.offers.map fun offer => (offer.frames, offer.code)
      else call.packets other := by
  have hslot := (List.getElem?_eq_some_iff.mp hbatch).1
  rw [CommandCall.packets, CommandCall.packets]
  split_ifs with hother
  · subst hother
    simp only [List.getElem?_set_self hslot]
  · simp only [List.getElem?_set_ne hother]

theorem packets_fresh (runtime : Runtime F) (commands : List MotorCommand) (slot : Nat) :
    CommandCall.packets
      { commands, loop := .commands commands, batches := runtime.motorDrivers.map fun _ => {} }
      slot = [] := by
  simp only [CommandCall.packets, List.getElem?_map]
  cases runtime.motorDrivers[slot]? <;> rfl

/-- The call has the answer of the driver. -/
theorem resume_tracked (hpc : state.threads id = .sending slot call)
    (hidle : (state.channels slot).sends id = .idle) (h : (state.view id).Tracked)
    (hresume : state.resume id slot call = some next) :
    state.Tracks next id := by
  rw [ThreadView.Tracked, view_pc hpc] at h
  obtain ⟨hothers, batch, hbatch, ⟨hbusy, _⟩ | ⟨code, heven⟩⟩ := h
  · exact absurd hidle hbusy
  simp only [resume, hbatch, Option.bind_eq_bind, Option.bind_some] at hresume
  obtain ⟨⟨thread, frames, answer⟩, hlast, hresume⟩ := Option.bind_eq_some_iff.mp hresume
  obtain rfl := Option.some.inj hresume
  obtain rfl : answer = code := by
    have hmap : ((state.channels slot).answers id).getLast? = some (frames, answer) := by
      rw [DriverChannel.answers, List.getLast?_map, hlast]
      rfl
    have hanswers : (state.channels slot).answers id = _ := heven.2
    rw [hanswers, ← List.append_assoc, List.getLast?_concat, Option.some.injEq] at hmap
    exact (Prod.mk.inj hmap).2.symm
  refine goTo_tracks fun other => ?_
  rw [packets_set hbatch]
  split_ifs with hother
  · subst hother
    have hpackets : call.packets slot =
        batch.offers.map fun offer => (offer.frames, offer.code) := by
      rw [CommandCall.packets, hbatch]
    rw [hpackets] at heven
    rw [BatchCommands.flushed, List.map_append]
    exact heven
  · exact hothers other (Ne.symm hother)

/-- A thread that has gathered a command, and whose packets are the same. -/
theorem running_tracked {next : CommandCall}
    (hthread : ∀ other, (state.view id).Even other (call.packets other))
    (hpackets : ∀ other, next.packets other = call.packets other) :
    state.Tracks (state.goTo id (.running next)) id := by
  refine goTo_tracks fun other => ?_
  rw [hpackets]
  exact hthread other

theorem set_batch {batches : List BatchCommands} {batch : BatchCommands}
    (hbatch : batches[slot]? = some batch) (filled : BatchCommands) :
    (batches.set slot filled)[slot]? = some filled :=
  List.getElem?_set_self (List.getElem?_eq_some_iff.mp hbatch).1

theorem push_tracked {command : MotorCommand} {rest : List MotorCommand}
    (hthread : ∀ other, (state.view id).Even other (call.packets other))
    (h : state.pushCommand id call command rest = some next) :
    state.Tracks next id := by
  rw [pushCommand] at h
  cases hbinding : state.runtime.findDeviceBinding command.deviceId with
  | none =>
      simp only [hbinding] at h
      obtain rfl := Option.some.inj h
      exact running_tracked hthread fun _ => rfl
  | some binding =>
      simp only [hbinding, Option.bind_eq_bind, Option.bind_eq_some_iff] at h
      obtain ⟨driver, _, batch, hbatch, ⟨err, filled⟩, hfill, h⟩ := h
      have hpackets : ∀ other, CommandCall.packets { call with
          loop := .commands rest
          error := Runtime.overwriteError call.error err
          batches := call.batches.set binding.driverSlot filled } other = call.packets other := by
        intro other
        rw [packets_set hbatch]
        split_ifs with hother
        · subst hother
          rw [CommandCall.packets, hbatch, BatchCommands.fill_offers hfill]
        · rfl
      dsimp only at h
      split_ifs at h with hfull
      · refine send_tracked (set_batch hbatch filled) (BatchCommands.held_ne_nil ?_)
          (fun other => ?_) h
        · rw [hfull]
          decide
        · rw [hpackets]
          exact hthread other
      · obtain rfl := Option.some.inj h
        exact running_tracked hthread hpackets

/-- The end of a call: its packets are past. -/
theorem return_tracked (hthread : ∀ other, (state.view id).Even other (call.packets other)) :
    let next := { state.goTo id .idle with returned := state.returned ++ [(id, call)] }
    state.Tracks next id := by
  intro next
  refine ⟨?_, ?_⟩
  · have hpc : (next.view id).pc = .idle := Function.update_self ..
    rw [ThreadView.Tracked, hpc]
    intro slot
    refine ⟨(hthread slot).1, (hthread slot).2.trans ?_⟩
    simp [next, view]
  · intro other hne
    have hpast : next.returned.filter (fun entry => entry.1 = other) =
        state.returned.filter fun entry => entry.1 = other := by
      simp [next, Ne.symm hne]
    simp only [view, hpast]
    simp [next, goTo, Function.update_of_ne hne]

theorem flush_tracked (hthread : ∀ other, (state.view id).Even other (call.packets other))
    (h : state.flushBatch id call slot = some next) :
    state.Tracks next id := by
  rw [flushBatch] at h
  cases hbatch : call.batches[slot]? with
  | none =>
      simp only [hbatch] at h
      obtain rfl := Option.some.inj h
      exact return_tracked hthread
  | some batch =>
      simp only [hbatch] at h
      split_ifs at h with hempty
      · obtain rfl := Option.some.inj h
        exact running_tracked hthread fun _ => rfl
      · have hnext : { call with loop := .flushes (slot + 1) }.batches[slot]? = some batch := hbatch
        exact send_tracked hnext (BatchCommands.held_ne_nil hempty) hthread h

theorem discard_tracked (hthread : ∀ other, (state.view id).Even other [])
    (h : state.discardFrom id slot = some next) :
    state.Tracks next id := by
  rw [discardFrom] at h
  split_ifs at h with hslot
  · obtain ⟨channel, hstep, rfl⟩ := act_spec h
    have hbegun := DriverChannel.discard_goes hstep
    refine ⟨?_, fun other hne => view_moved_other hne _ (DriverChannel.others_of_begun hbegun hne)⟩
    rw [view_moved]
    refine ⟨fun other hne => ?_, .inr ?_, ?_⟩
    · simp only [ThreadView.Even, Function.update_of_ne hne]
      exact hthread other
    · simp only [Function.update_self, hbegun.1]
    · simp only [Function.update_self]
      rw [DriverChannel.answers, hbegun.2]
      exact (hthread slot).2.trans (List.append_nil _)
  · obtain rfl := Option.some.inj h
    exact goTo_tracks hthread

/-- In the channel of a driver the thread that discards is seen to the end. -/
theorem discarding_tracked (hpc : state.threads id = .discarding slot)
    (hbusy : (state.channels slot).sends id ≠ .idle) (h : (state.view id).Tracked)
    (hact : state.act id slot (.advance id) (.discarding slot) = some next) :
    state.Tracks next id := by
  obtain ⟨channel, hstep, rfl⟩ := act_spec hact
  have hgoes := DriverChannel.advance_goes hbusy hstep
  refine ⟨?_, fun other hne => view_moved_other hne _ (hgoes.others hne)⟩
  rw [ThreadView.Tracked, view_pc hpc] at h
  obtain ⟨hothers, hidle | hdiscarding, hanswers⟩ := h
  · exact absurd hidle hbusy
  rw [view_moved]
  refine ⟨fun other hne => ?_, ?_⟩
  · simp only [ThreadView.Even, Function.update_of_ne hne]
    exact hothers other hne
  simp only [Function.update_self]
  cases hgoes with
  | on pc _ _ kind sends returned =>
      refine ⟨.inr ?_, ?_⟩
      · rw [sends, Function.update_self]
        exact kind.mpr hdiscarding
      · rw [DriverChannel.answers, returned]
        exact hanswers
  | discarded _ sends returned =>
      refine ⟨.inl ?_, ?_⟩
      · rw [sends, Function.update_self]
      · rw [DriverChannel.answers, returned]
        exact hanswers
  | returns _ sending _ _ => exact absurd hdiscarding sending

theorem advance_tracked (h : (state.view id).Tracked) (hadvance : state.advance id = some next) :
    state.Tracks next id := by
  rw [advance] at hadvance
  cases hpc : state.threads id with
  | idle =>
      simp only [hpc] at hadvance
      cases hadvance
  | running call =>
      simp only [hpc] at hadvance
      have hthread : ∀ other, (state.view id).Even other (call.packets other) := by
        rw [ThreadView.Tracked, view_pc hpc] at h
        exact h
      cases hloop : call.loop with
      | commands rest =>
          cases rest with
          | nil =>
              simp only [hloop] at hadvance
              obtain rfl := Option.some.inj hadvance
              exact running_tracked hthread fun _ => rfl
          | cons command rest =>
              simp only [hloop] at hadvance
              exact push_tracked hthread hadvance
      | flushes slot =>
          simp only [hloop] at hadvance
          exact flush_tracked hthread hadvance
  | sending slot call =>
      simp only [hpc] at hadvance
      split_ifs at hadvance with hbusy
      · exact sending_tracked hpc hbusy h hadvance
      · exact resume_tracked hpc (not_not.mp hbusy) h hadvance
  | discarding slot =>
      simp only [hpc] at hadvance
      split_ifs at hadvance with hbusy
      · exact discarding_tracked hpc hbusy h hadvance
      · refine discard_tracked (fun other => ?_) hadvance
        rw [ThreadView.Tracked, view_pc hpc] at h
        obtain ⟨hothers, _, hanswers⟩ := h
        by_cases hother : other = slot
        · subst hother
          exact ⟨not_not.mp hbusy, hanswers.trans (List.append_nil _).symm⟩
        · exact hothers other hother

end Thread

/-- The channel of a driver, between two steps of its threads. -/
theorem view_channel {slot : Nat} {channel : DriverChannel (slots slot)}
    (h : channel.sends = (state.channels slot).sends ∧
      channel.returned = (state.channels slot).returned) (id : ClientId) :
    { state with channels := Function.update state.channels slot channel }.view id =
      state.view id := by
  have hsends := update_channels state.channels slot channel fun channel => channel.sends id
  have hanswers := update_channels state.channels slot channel fun channel => channel.answers id
  rw [h.1, Function.update_eq_self] at hsends
  rw [DriverChannel.answers, h.2, ← DriverChannel.answers, Function.update_eq_self] at hanswers
  simp only [view, hsends, hanswers]

/-- Every thread is tracked, whichever takes a step. -/
theorem step_tracked {action : FleetAction} (h : ∀ id, (state.view id).Tracked)
    (hstep : state.step action = some next) (id : ClientId) : (next.view id).Tracked := by
  have hall : ∀ actor, state.Tracks next actor → (next.view id).Tracked := by
    rintro actor ⟨hactor, hothers⟩
    by_cases hid : id = actor
    · exact hid ▸ hactor
    · exact hothers id hid ▸ h id
  cases action with
  | command actor commands =>
      rw [step] at hstep
      cases hpc : state.threads actor with
      | idle =>
          simp only [hpc] at hstep
          obtain rfl := Option.some.inj hstep
          have hactor := h actor
          rw [ThreadView.Tracked, view_pc hpc] at hactor
          refine hall actor (goTo_tracks fun slot => ?_)
          rw [packets_fresh]
          exact hactor slot
      | _ =>
          simp only [hpc] at hstep
          cases hstep
  | discard actor =>
      rw [step] at hstep
      cases hpc : state.threads actor with
      | idle =>
          simp only [hpc] at hstep
          refine hall actor (discard_tracked ?_ hstep)
          have hactor := h actor
          rw [ThreadView.Tracked, view_pc hpc] at hactor
          exact hactor
      | _ =>
          simp only [hpc] at hstep
          cases hstep
  | advance actor => exact hall actor (advance_tracked (h actor) hstep)
  | tx slot action =>
      rw [step, Option.bind_eq_bind, Option.bind_eq_some_iff] at hstep
      obtain ⟨channel, hchannel, hstep⟩ := hstep
      obtain rfl := Option.some.inj hstep
      rw [view_channel (DriverChannel.tx_beside hchannel)]
      exact h id
  | stop slot taken =>
      rw [step, Option.bind_eq_bind, Option.bind_eq_some_iff] at hstep
      obtain ⟨channel, hchannel, hstep⟩ := hstep
      obtain rfl := Option.some.inj hstep
      rw [view_channel (DriverChannel.stop_beside hchannel)]
      exact h id

end FleetSends

end ServoFleet
