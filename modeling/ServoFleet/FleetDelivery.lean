import ServoFleet.FleetBatches
import ServoFleet.SentFrames

/-!
From `command` to the wire. However the threads of a runtime interleave, with the
transmit threads and those that stop a channel too, the datagrams of a channel carry
the frames of commands for its own motors. The packets a thread has pushed are those
its calls were told success for, in the order of the calls, and at most one it waits
for. No thread is ever stuck in a call.
-/

namespace ServoFleet

open ServoFleet.Runtime

namespace CommandCall

/-- What holds of a call between two of its steps. -/
def Underway (options : FleetConfig) (call : CommandCall) : Prop :=
  match call.loop with
  | .commands rest => ∃ done error seqs, call.commands = done ++ rest ∧
      call.Gathers options done 0 error seqs
  | .flushes slot => ∃ error seqs, call.Gathers options call.commands slot error seqs

/-- A call has offered to a channel nothing but the frames of its commands. -/
def Framed (options : FleetConfig) (call : CommandCall) : Prop :=
  ∀ (slot : Nat) (name : String), (usedChannels options)[slot]? = some name →
    ∀ packet ∈ call.packets slot, packet.1 ⊆ framesFor options name call.commands

theorem Gathers.toFramed {options : FleetConfig} {done : List MotorCommand} {slot : Nat}
    {call : CommandCall} {error : ErrCode} {seqs : List BatchCommands}
    (h : call.Gathers options done slot error seqs) (hdone : done ⊆ call.commands) :
    call.Framed options := by
  intro k name hname packet member frame hframe
  obtain ⟨command, hcommand, hencoded⟩ :=
    List.mem_filterMap.mp (h.framed hname packet member frame hframe)
  exact List.mem_filterMap.mpr ⟨command, hdone hcommand, hencoded⟩

theorem Underway.framed {options : FleetConfig} {call : CommandCall}
    (h : call.Underway options) : call.Framed options := by
  rw [Underway] at h
  split at h
  · obtain ⟨done, _, _, hcommands, hgathers⟩ := h
    exact hgathers.toFramed (hcommands ▸ List.subset_append_left done _)
  · obtain ⟨_, _, hgathers⟩ := h
    exact hgathers.toFramed (List.Subset.refl _)

theorem packets_answered {call : CommandCall} {slot : Nat} {batch : BatchCommands}
    (hbatch : call.batches[slot]? = some batch) (code : ErrCode) (other : Nat) :
    (call.answered slot batch code).packets other =
      call.packets other ++ if slot = other then [(batch.held, code)] else [] := by
  rw [answered, FleetSends.packets_set hbatch]
  split_ifs with hother
  · subst hother
    simp only [packets, hbatch, BatchCommands.flushed, List.map_append, List.map_cons, List.map_nil]
  · exact (List.append_nil _).symm

end CommandCall

def CommandPc.call : CommandPc → Option CommandCall
  | .running call | .sending _ call => some call
  | .idle | .discarding _ => none

/-- What holds of a thread between two of its steps. In a driver it waits for the answer. -/
def CommandPc.Underway (options : FleetConfig) : CommandPc → Prop
  | .running call => call.Underway options
  | .sending slot call => ∃ batch, call.batches[slot]? = some batch ∧
      ∀ code, (call.answered slot batch code).Underway options
  | _ => True

theorem CommandPc.Underway.framed {options : FleetConfig} {pc : CommandPc}
    (h : pc.Underway options) {call : CommandCall} (hcall : pc.call = some call) :
    call.Framed options := by
  cases pc with
  | idle => cases hcall
  | discarding slot => cases hcall
  | running current =>
      obtain rfl := Option.some.inj hcall
      exact CommandCall.Underway.framed h
  | sending slot current =>
      obtain rfl := Option.some.inj hcall
      obtain ⟨batch, hbatch, hanswered⟩ := h
      intro k name hname packet member
      refine (hanswered (.ok ())).framed k name hname packet ?_
      rw [CommandCall.packets_answered hbatch]
      exact List.mem_append_left _ member

/-- What a driver is in `send` with are frames of the commands, too. -/
theorem CommandPc.Underway.held_framed {options : FleetConfig} {slot : Nat} {call : CommandCall}
    {batch : BatchCommands} (h : (CommandPc.sending slot call).Underway options)
    (hbatch : call.batches[slot]? = some batch) {name : String}
    (hname : (usedChannels options)[slot]? = some name) :
    batch.held ⊆ framesFor options name call.commands := by
  obtain ⟨same, hsame, hanswered⟩ := h
  obtain rfl := Option.some.inj (hsame.symm.trans hbatch)
  refine (hanswered (.ok ())).framed slot name hname (same.held, .ok ()) ?_
  rw [CommandCall.packets_answered hbatch, if_pos rfl]
  exact List.mem_append_right _ List.mem_cons_self

/-! ## The answers of one driver -/

namespace DriverChannel

variable {slotCount : Nat} {state : DriverChannel slotCount} {payloads : Payloads} {id : ClientId}

/-- The packets for which success has come back. -/
def took (packets : List (List CanFrame × ErrCode)) : List (List CanFrame) :=
  (packets.filter fun packet => packet.2 = .ok ()).map Prod.fst

theorem took_append (packets more : List (List CanFrame × ErrCode)) :
    took (packets ++ more) = took packets ++ took more := by
  rw [took, List.filter_append, List.map_append]
  rfl

theorem Sound.pushedBy_eq (h : state.Sound payloads) (id : ClientId) :
    state.pushedBy id = took (state.answers id) ++ state.ahead id := by
  rw [h.settled id, succeeded, took, answers, List.filter_map, List.map_map, List.filter_filter]
  simp only [Function.comp_def, Bool.decide_and, Bool.and_comm]

theorem ahead_idle (h : state.sends id = .idle ∨ state.sends id = .discarding) :
    state.ahead id = [] := by
  rcases h with h | h <;> rw [ahead, h] <;> rfl

theorem ahead_cases (state : DriverChannel slotCount) (id : ClientId) :
    state.ahead id = [] ∨ state.ahead id = [(state.sends id).frames] := by
  rw [ahead]
  cases state.sends id with
  | returning frames =>
      rw [DriverPc.ahead]
      split_ifs
      · exact .inr rfl
      · exact .inl rfl
  | dropping frames code =>
      rw [DriverPc.ahead]
      split_ifs
      · exact .inr rfl
      · exact .inl rfl
  | _ => exact .inl rfl

end DriverChannel

namespace FleetSends

variable {F : Type} {slots : Nat → Nat} {options : FleetConfig}
  {state next : FleetSends F slots} {id : ClientId}

/-- The invariant of the threads and channels of a runtime. -/
structure Sound (options : FleetConfig) (runtime : Runtime F) (state : FleetSends F slots) :
    Prop where
  runtime : state.runtime = runtime
  channels : ∀ slot, ∃ payloads, (state.channels slot).Sound payloads
  tracked : ∀ id, (state.view id).Tracked
  underway : ∀ id, (state.threads id).Underway options
  returned : ∀ entry ∈ state.returned, entry.2.Framed options ∧ entry.2.Complete options

/-- A step of a thread: alone, in the channel of a driver, or the return from its call. -/
inductive Takes (options : FleetConfig) (id : ClientId) (state next : FleetSends F slots) :
    Prop where
  | alone (pc : CommandPc) (underway : pc.Underway options) (eq : next = state.goTo id pc)
  | within (slot : Nat) (action : DriverAction) (pc : CommandPc) (underway : pc.Underway options)
      (act : state.act id slot action pc = some next)
  | returns (call : CommandCall) (framed : call.Framed options) (complete : call.Complete options)
      (eq : next = { state.goTo id .idle with returned := state.returned ++ [(id, call)] })

section Thread

variable {runtime : Runtime F} {call : CommandCall}

theorem send_takes {slot : Nat} {batch : BatchCommands} (hbatch : call.batches[slot]? = some batch)
    (hanswered : ∀ code, (call.answered slot batch code).Underway options)
    (h : state.send id slot call = some next) : Takes options id state next := by
  rw [send, hbatch, Option.bind_eq_bind, Option.bind_some] at h
  refine .within slot _ _ ?_ h
  exact ⟨batch, hbatch, hanswered⟩

theorem flushBatch_takes {slot : Nat} {error : ErrCode} {seqs : List BatchCommands}
    (hgathers : call.Gathers options call.commands slot error seqs)
    (h : state.flushBatch id call slot = some next) : Takes options id state next := by
  rw [flushBatch] at h
  cases hbatch : call.batches[slot]? with
  | none =>
      simp only [hbatch] at h
      exact .returns call (hgathers.toFramed (List.Subset.refl _)) (hgathers.complete hbatch)
        (Option.some.inj h).symm
  | some batch =>
      simp only [hbatch] at h
      split_ifs at h with hempty
      · refine .alone _ ?_ (Option.some.inj h).symm
        exact ⟨error, seqs, (hgathers.skip hbatch hempty).goesOn _⟩
      · have hnext : { call with loop := .flushes (slot + 1) }.batches[slot]? = some batch := hbatch
        refine send_takes hnext (fun code => ?_) h
        exact ⟨error, seqs, (hgathers.flush hbatch hempty code).goesOn _⟩

theorem discardFrom_takes {slot : Nat} (h : state.discardFrom id slot = some next) :
    Takes options id state next := by
  rw [discardFrom] at h
  split_ifs at h with hslot
  · refine .within slot _ _ ?_ h
    trivial
  · refine .alone _ ?_ (Option.some.inj h).symm
    trivial

variable [FloatArith F]

theorem pushCommand_takes (hvalid : options.Valid)
    (hbinds : Binds (usedChannels options) options.motors state.runtime) {command : MotorCommand}
    {rest done : List MotorCommand} {error : ErrCode} {seqs : List BatchCommands}
    (hcommands : call.commands = done ++ command :: rest)
    (hgathers : call.Gathers options done 0 error seqs)
    (h : state.pushCommand id call command rest = some next) : Takes options id state next := by
  have hdone : call.commands = (done ++ [command]) ++ rest := by
    rw [hcommands, List.append_cons]
  rw [pushCommand] at h
  cases hbinding : state.runtime.findDeviceBinding command.deviceId with
  | none =>
      simp only [hbinding] at h
      obtain ⟨error', seqs', hnext⟩ := hgathers.unbound hvalid hbinds hbinding (.commands rest)
      refine .alone _ ?_ (Option.some.inj h).symm
      exact ⟨_, error', seqs', hdone, hnext⟩
  | some binding =>
      simp only [hbinding, Option.bind_eq_bind, Option.bind_eq_some_iff] at h
      obtain ⟨driver, hdriver, batch, hbatch, ⟨err, filled⟩, hfill, h⟩ := h
      obtain ⟨error', seqs', hnext⟩ :=
        hgathers.push hvalid hbinds hbinding hdriver hbatch hfill (.commands rest)
      dsimp only at h
      split_ifs at h hnext with hfull
      · refine send_takes (set_batch hbatch filled) (fun code => ?_) h
        exact ⟨_, error', seqs', hdone, hnext code⟩
      · refine .alone _ ?_ (Option.some.inj h).symm
        exact ⟨_, error', seqs', hdone, hnext⟩

theorem advance_takes (hvalid : options.Valid)
    (hbinds : Binds (usedChannels options) options.motors state.runtime)
    (hthread : (state.threads id).Underway options) (h : state.advance id = some next) :
    Takes options id state next := by
  rw [advance] at h
  cases hpc : state.threads id with
  | idle =>
      simp only [hpc] at h
      cases h
  | running call =>
      simp only [hpc] at h
      rw [hpc] at hthread
      change call.Underway options at hthread
      rw [CommandCall.Underway] at hthread
      cases hloop : call.loop with
      | commands rest =>
          rw [hloop] at hthread
          obtain ⟨done, error, seqs, hcommands, hgathers⟩ := hthread
          cases rest with
          | nil =>
              simp only [hloop] at h
              rw [List.append_nil] at hcommands
              subst hcommands
              refine .alone _ ?_ (Option.some.inj h).symm
              exact ⟨error, seqs, hgathers.goesOn _⟩
          | cons command rest =>
              simp only [hloop] at h
              exact pushCommand_takes hvalid hbinds hcommands hgathers h
      | flushes slot =>
          rw [hloop] at hthread
          obtain ⟨error, seqs, hgathers⟩ := hthread
          simp only [hloop] at h
          exact flushBatch_takes hgathers h
  | sending slot call =>
      simp only [hpc] at h
      rw [hpc] at hthread
      split_ifs at h with hbusy
      · exact .within slot _ _ hthread h
      · obtain ⟨batch, hbatch, hanswered⟩ := hthread
        simp only [resume, hbatch, Option.bind_eq_bind, Option.bind_some] at h
        obtain ⟨⟨_, _, code⟩, _, h⟩ := Option.bind_eq_some_iff.mp h
        refine .alone _ ?_ (Option.some.inj h).symm
        exact hanswered code
  | discarding slot =>
      simp only [hpc] at h
      split_ifs at h with hbusy
      · refine .within slot _ _ ?_ h
        trivial
      · exact discardFrom_takes h

end Thread

/-! ## Runs -/

section Run

variable {runtime : Runtime F}

theorem update_sound {slot : Nat} {channel : DriverChannel (slots slot)} {action : DriverAction}
    (h : ∀ slot, ∃ payloads, (state.channels slot).Sound payloads)
    (hstep : (state.channels slot).step action = some channel) (other : Nat) :
    ∃ payloads, (Function.update state.channels slot channel other).Sound payloads := by
  by_cases hother : other = slot
  · subst hother
    rw [Function.update_self]
    obtain ⟨payloads, hslot⟩ := h other
    exact hslot.step action hstep
  · rw [Function.update_of_ne hother]
    exact h other

theorem update_underway {pc : CommandPc} (h : ∀ id, (state.threads id).Underway options)
    (hpc : pc.Underway options) (other : ClientId) :
    (Function.update state.threads id pc other).Underway options := by
  by_cases hother : other = id
  · subst hother
    rw [Function.update_self]
    exact hpc
  · rw [Function.update_of_ne hother]
    exact h other

theorem Takes.keeps (h : state.Sound options runtime) (htakes : Takes options id state next)
    (htracked : ∀ id, (next.view id).Tracked) : next.Sound options runtime := by
  cases htakes with
  | alone pc underway eq =>
      subst eq
      exact ⟨h.runtime, h.channels, htracked, update_underway h.underway underway, h.returned⟩
  | within slot action pc underway act =>
      obtain ⟨channel, hchannel, rfl⟩ := act_spec act
      exact ⟨h.runtime, update_sound h.channels hchannel, htracked,
        update_underway h.underway underway, h.returned⟩
  | returns call framed complete eq =>
      subst eq
      refine ⟨h.runtime, h.channels, htracked, update_underway h.underway trivial, ?_⟩
      intro entry member
      rcases List.mem_append.mp member with hbefore | hcall
      · exact h.returned entry hbefore
      · obtain rfl := List.mem_singleton.mp hcall
        exact ⟨framed, complete⟩

variable [FloatArith F] (hvalid : options.Valid)
  (hbinds : Binds (usedChannels options) options.motors runtime)

include hvalid hbinds

theorem Sound.step (h : state.Sound options runtime) (action : FleetAction)
    (hstep : state.step action = some next) : next.Sound options runtime := by
  have htracked := step_tracked h.tracked hstep
  cases action with
  | command id commands =>
      rw [FleetSends.step] at hstep
      split at hstep
      · have htakes : Takes options id state next := by
          refine .alone _ ?_ (Option.some.inj hstep).symm
          exact ⟨[], _, _, rfl, CommandCall.gathers_nothing (h.runtime ▸ hbinds) commands⟩
        exact htakes.keeps h htracked
      · cases hstep
  | discard id =>
      rw [FleetSends.step] at hstep
      split at hstep
      · exact (discardFrom_takes hstep).keeps h htracked
      · cases hstep
  | advance id =>
      have hbound : Binds (usedChannels options) options.motors state.runtime := h.runtime ▸ hbinds
      exact (advance_takes hvalid hbound (h.underway id) hstep).keeps h htracked
  | tx slot action =>
      rw [FleetSends.step, Option.bind_eq_bind, Option.bind_eq_some_iff] at hstep
      obtain ⟨channel, hchannel, hstep⟩ := hstep
      obtain rfl := Option.some.inj hstep
      exact ⟨h.runtime, update_sound h.channels hchannel, htracked, h.underway, h.returned⟩
  | stop slot taken =>
      rw [FleetSends.step, Option.bind_eq_bind, Option.bind_eq_some_iff] at hstep
      obtain ⟨channel, hchannel, hstep⟩ := hstep
      obtain rfl := Option.some.inj hstep
      exact ⟨h.runtime, update_sound h.channels hchannel, htracked, h.underway, h.returned⟩

end Run

/-! ## No thread gets stuck -/

section Progress

variable {runtime : Runtime F} {slot : Nat}

theorem act_isSome {action : DriverAction} (pc : CommandPc)
    (h : ((state.channels slot).step action).isSome) : (state.act id slot action pc).isSome := by
  obtain ⟨channel, hchannel⟩ := Option.isSome_iff_exists.mp h
  rw [act, hchannel]
  rfl

/-- A thread in no call of a driver can begin one. -/
theorem Sound.free (h : state.Sound options runtime)
    (hidle : (state.channels slot).sends id = .idle) :
    ((state.channels slot).step (.discard id)).isSome ∧
      ∀ frames, ((state.channels slot).step (.send id frames)).isSome := by
  obtain ⟨payloads, hchannel⟩ := h.channels slot
  exact (hchannel.ready id).2 hidle

/-- A thread in a call of a driver can go on in it. -/
theorem Sound.busy (h : state.Sound options runtime)
    (hbusy : (state.channels slot).sends id ≠ .idle) (pc : CommandPc) :
    (state.act id slot (.advance id) pc).isSome := by
  obtain ⟨payloads, hchannel⟩ := h.channels slot
  exact act_isSome pc ((hchannel.ready id).1 hbusy)

theorem Sound.sends (h : state.Sound options runtime)
    (hidle : (state.channels slot).sends id = .idle) {call : CommandCall} {batch : BatchCommands}
    (hbatch : call.batches[slot]? = some batch) : (state.send id slot call).isSome := by
  rw [send, hbatch, Option.bind_eq_bind, Option.bind_some]
  exact act_isSome _ ((h.free hidle).2 _)

theorem Sound.discards (h : state.Sound options runtime)
    (hidle : (state.channels slot).sends id = .idle) : (state.discardFrom id slot).isSome := by
  rw [discardFrom]
  split_ifs with hslot
  · exact act_isSome _ (h.free hidle).1
  · rfl

theorem Sound.resumes (h : state.Sound options runtime) {call : CommandCall}
    (hpc : state.threads id = .sending slot call)
    (hidle : (state.channels slot).sends id = .idle) : (state.resume id slot call).isSome := by
  have htracked := h.tracked id
  rw [ThreadView.Tracked, view_pc hpc] at htracked
  obtain ⟨_, batch, hbatch, ⟨hbusy, _⟩ | ⟨code, heven⟩⟩ := htracked
  · exact absurd hidle hbusy
  have hanswers : (state.channels slot).answers id ≠ [] := by
    have hanswers : (state.channels slot).answers id = _ := heven.2
    rw [hanswers]
    simp
  rw [DriverChannel.answers, ne_eq, List.map_eq_nil_iff] at hanswers
  rw [resume, hbatch, Option.bind_eq_bind, Option.bind_some, Option.bind_eq_bind,
    List.getLast?_eq_some_getLast hanswers]
  rfl

theorem Sound.flushes (h : state.Sound options runtime) (call : CommandCall)
    (hidle : ∀ slot, (state.channels slot).sends id = .idle) :
    (state.flushBatch id call slot).isSome := by
  rw [flushBatch]
  split
  · rfl
  · rename_i batch hbatch
    dsimp only
    split_ifs with hempty
    · rfl
    · have hnext : { call with loop := .flushes (slot + 1) }.batches[slot]? = some batch := hbatch
      exact h.sends (hidle slot) hnext

variable [FloatArith F] (hvalid : options.Valid)
  (hbinds : Binds (usedChannels options) options.motors runtime)

include hvalid hbinds

theorem Sound.pushes (h : state.Sound options runtime) {call : CommandCall}
    {command : MotorCommand} {rest done : List MotorCommand} {error : ErrCode}
    {seqs : List BatchCommands} (hgathers : call.Gathers options done 0 error seqs)
    (hidle : ∀ slot, (state.channels slot).sends id = .idle) :
    (state.pushCommand id call command rest).isSome := by
  rw [pushCommand]
  cases hbinding : state.runtime.findDeviceBinding command.deviceId with
  | none => rfl
  | some binding =>
      rw [h.runtime] at hbinding
      obtain ⟨driver, batch, ⟨err, filled⟩, hdriver, hbatch, hfill⟩ :=
        hgathers.possible hvalid hbinds hbinding
      simp only [h.runtime, hdriver, hbatch, hfill, Option.bind_eq_bind, Option.bind_some]
      split_ifs with hfull
      · exact h.sends (hidle _) (set_batch hbatch filled)
      · rfl

/-- A thread in a call can take its next step, and one in none can begin one. -/
theorem Sound.ready (h : state.Sound options runtime) (id : ClientId) :
    (state.threads id ≠ .idle → (state.step (.advance id)).isSome) ∧
      (state.threads id = .idle → (state.step (.discard id)).isSome ∧
        ∀ commands, (state.step (.command id commands)).isSome) := by
  have htracked := h.tracked id
  have hunderway := h.underway id
  refine ⟨fun hcall => ?_, fun hpc => ?_⟩
  · rw [FleetSends.step, advance]
    cases hpc : state.threads id with
    | idle => exact absurd hpc hcall
    | running call =>
        rw [ThreadView.Tracked, view_pc hpc] at htracked
        have hidle : ∀ slot, (state.channels slot).sends id = .idle := fun slot => (htracked slot).1
        rw [hpc] at hunderway
        change call.Underway options at hunderway
        rw [CommandCall.Underway] at hunderway
        cases hloop : call.loop with
        | commands rest =>
            rw [hloop] at hunderway
            obtain ⟨done, error, seqs, _, hgathers⟩ := hunderway
            cases rest with
            | nil => simp only [hloop, Option.isSome_some]
            | cons command rest =>
                simp only [hloop]
                exact h.pushes hvalid hbinds hgathers hidle
        | flushes slot =>
            simp only [hloop]
            exact h.flushes call hidle
    | sending slot call =>
        dsimp only
        split_ifs with hbusy
        · exact h.busy hbusy _
        · exact h.resumes hpc (not_not.mp hbusy)
    | discarding slot =>
        rw [ThreadView.Tracked, view_pc hpc] at htracked
        dsimp only
        split_ifs with hbusy
        · exact h.busy hbusy _
        · exact h.discards (htracked.1 (slot + 1) (Nat.succ_ne_self slot)).1
  · rw [ThreadView.Tracked, view_pc hpc] at htracked
    simp only [FleetSends.step, hpc]
    exact ⟨h.discards (htracked 0).1, fun _ => rfl⟩

end Progress

/-! ## What a thread has pushed -/

/-- The calls of a thread, the one it is in last. -/
def calls (state : FleetSends F slots) (id : ClientId) : List CommandCall :=
  (state.returned.filter fun entry => entry.1 = id).map Prod.snd ++ (state.threads id).call.toList

/-- The packets of a thread's calls that the driver of a slot has taken. -/
def accepted (state : FleetSends F slots) (id : ClientId) (slot : Nat) : List (List CanFrame) :=
  DriverChannel.took ((state.calls id).flatMap fun call => call.packets slot)

/-- At most the packet that a thread has pushed before `send` returns. -/
def OnTheWay (state : FleetSends F slots) (id : ClientId) (slot : Nat)
    (packets : List (List CanFrame)) : Prop :=
  packets = [] ∨ ∃ call batch, state.threads id = .sending slot call ∧
    call.batches[slot]? = some batch ∧ packets = [batch.held]

theorem accepted_of_call {pc : CommandPc} (hpc : state.threads id = pc) (slot : Nat) :
    state.accepted id slot = DriverChannel.took ((state.view id).past slot ++
      pc.call.toList.flatMap fun call => call.packets slot) := by
  rw [accepted, calls, List.flatMap_append, List.flatMap_map, hpc]
  rfl

theorem Sound.pushed {runtime : Runtime F} (h : state.Sound options runtime) (id : ClientId)
    (slot : Nat) : ∃ rest, (state.channels slot).pushedBy id = state.accepted id slot ++ rest ∧
      state.OnTheWay id slot rest := by
  obtain ⟨payloads, hchannel⟩ := h.channels slot
  have hsettled : (state.channels slot).pushedBy id =
      DriverChannel.took ((state.view id).answers slot) ++ (state.channels slot).ahead id :=
    hchannel.pushedBy_eq id
  have heven : ∀ packets, (state.view id).Even slot packets →
      (state.channels slot).pushedBy id =
        DriverChannel.took ((state.view id).past slot ++ packets) ++ [] := by
    rintro packets ⟨hidle, hanswers⟩
    rw [hsettled, hanswers, DriverChannel.ahead_idle (.inl hidle)]
  have htracked := h.tracked id
  cases hpc : state.threads id with
  | idle =>
      rw [ThreadView.Tracked, view_pc hpc] at htracked
      exact ⟨[], accepted_of_call hpc slot ▸ heven _ (htracked slot), .inl rfl⟩
  | running call =>
      rw [ThreadView.Tracked, view_pc hpc] at htracked
      refine ⟨[], ?_, .inl rfl⟩
      rw [accepted_of_call hpc, heven _ (htracked slot)]
      simp [CommandPc.call]
  | sending busy call =>
      rw [ThreadView.Tracked, view_pc hpc] at htracked
      obtain ⟨hothers, batch, hbatch, hoffering⟩ := htracked
      rw [accepted_of_call hpc]
      simp only [CommandPc.call, Option.toList_some, List.flatMap_singleton]
      by_cases hslot : slot = busy
      · subst hslot
        have hway : state.OnTheWay id slot [batch.held] := .inr ⟨call, batch, hpc, hbatch, rfl⟩
        obtain ⟨_, _, hframes, hanswers⟩ | ⟨code, hreturned⟩ := hoffering
        · change ((state.channels slot).sends id).frames = batch.held at hframes
          rw [hsettled, hanswers]
          rcases (state.channels slot).ahead_cases id with hahead | hahead
          · exact ⟨[], by rw [hahead], .inl rfl⟩
          · exact ⟨[batch.held], by rw [hahead, hframes], hway⟩
        · rw [heven _ hreturned, ← List.append_assoc, DriverChannel.took_append, List.append_nil]
          by_cases hcode : code = .ok ()
          · exact ⟨[batch.held], by simp [DriverChannel.took, hcode], hway⟩
          · exact ⟨[], by simp [DriverChannel.took, hcode], .inl rfl⟩
      · exact ⟨[], heven _ (hothers slot hslot), .inl rfl⟩
  | discarding busy =>
      rw [ThreadView.Tracked, view_pc hpc] at htracked
      obtain ⟨hothers, hsends, hanswers⟩ := htracked
      refine ⟨[], ?_, .inl rfl⟩
      rw [accepted_of_call hpc]
      by_cases hslot : slot = busy
      · subst hslot
        rw [hsettled, hanswers, DriverChannel.ahead_idle hsends]
        simp [CommandPc.call]
      · exact heven _ (hothers slot hslot)

/-- The frames a thread has pushed to a channel are those of commands of one of its calls. -/
theorem Sound.pushed_framed {runtime : Runtime F} (h : state.Sound options runtime) {slot : Nat}
    {name : String} (hname : (usedChannels options)[slot]? = some name)
    {packet : ClientId × List CanFrame} (member : packet ∈ (state.channels slot).pushed) :
    ∃ call ∈ state.calls packet.1, packet.2 ⊆ framesFor options name call.commands := by
  obtain ⟨rest, hpushed, hway⟩ := h.pushed packet.1 slot
  have hby : packet.2 ∈ (state.channels slot).pushedBy packet.1 :=
    List.mem_map.mpr ⟨packet, List.mem_filter.mpr ⟨member, by simp⟩, rfl⟩
  rw [hpushed, List.mem_append] at hby
  rcases hby with haccepted | hrest
  · obtain ⟨taken, htaken, hframes⟩ := List.mem_map.mp haccepted
    obtain ⟨call, hcall, hpacket⟩ := List.mem_flatMap.mp (List.mem_filter.mp htaken).1
    refine ⟨call, hcall, hframes ▸ ?_⟩
    rcases List.mem_append.mp hcall with hreturned | hcurrent
    · obtain ⟨entry, hentry, rfl⟩ := List.mem_map.mp hreturned
      exact (h.returned entry (List.mem_filter.mp hentry).1).1 slot name hname taken hpacket
    · have hframed := (h.underway packet.1).framed (Option.mem_toList.mp hcurrent)
      exact hframed slot name hname taken hpacket
  · obtain rfl | ⟨call, batch, hpc, hbatch, rfl⟩ := hway
    · cases hrest
    · have hsending : (CommandPc.sending slot call).Underway options := hpc ▸ h.underway packet.1
      refine ⟨call, List.mem_append_right _ ?_, ?_⟩
      · rw [hpc]
        exact List.mem_cons_self
      · rw [List.mem_singleton.mp hrest]
        exact hsending.held_framed hbatch hname

/-! ## From `command` to the wire -/

variable [FloatArith F]

/-- However the threads of a runtime interleave, every datagram of a channel decodes
without an error, to frames of commands that one call was given for motors of the channel,
in the order in which the packets were pushed and none twice. A call that has returned has
offered to each channel the frames of its commands in order, in full packets and a last
one, and reports success exactly if every command encodes and every packet was taken. -/
theorem commands_reach_wire (options : FleetConfig) (opens : ChannelConfig → Bool)
    (runtime : Runtime F) (hinit : Runtime.init options opens = .ok runtime)
    (sendQueueSlots : Nat → BitVec 32)
    (systems : (slot : Nat) → ChannelSystem (sendQueueSlots slot).toNat)
    (hopen : ∀ slot, ChannelSystem.openRealtime (sendQueueSlots slot) = some (systems slot))
    (actions : List FleetAction) (final : FleetSends F fun slot => (sendQueueSlots slot).toNat)
    (hrun : Steps.run step { runtime, channels := fun slot => { system := systems slot } }
      actions = some final) :
    (∀ slot name, (usedChannels options)[slot]? = some name →
        ∀ bytes ∈ (final.channels slot).system.channel.sent,
          MotorCodec.Carries bytes (MotorCodec.framesOf bytes) ∧
            ∃ id, ∃ call ∈ final.calls id,
              MotorCodec.framesOf bytes ⊆ framesFor options name call.commands) ∧
      (∀ slot, ((final.channels slot).system.channel.sent.map MotorCodec.framesOf).Sublist
          ((final.channels slot).pushed.map Prod.snd)) ∧
      (∀ id slot, ∃ rest, (final.channels slot).pushedBy id = final.accepted id slot ++ rest ∧
        final.OnTheWay id slot rest) ∧
      (∀ entry ∈ final.returned, entry.2.Complete options) ∧
      ∀ id, (final.threads id ≠ .idle → (final.step (.advance id)).isSome) ∧
        (final.threads id = .idle → (final.step (.discard id)).isSome ∧
          ∀ commands, (final.step (.command id commands)).isSome) := by
  obtain ⟨hvalid, hbinds, _⟩ := Runtime.init_ok hinit
  have h : final.Sound options runtime := by
    refine Steps.run_invariant (P := Sound options runtime) ?_ hrun
      ⟨rfl, fun slot => ⟨{}, DriverChannel.open_sound (hopen slot)⟩, ?_, fun _ => trivial, by simp⟩
    · intro state action next hstate hstep
      exact hstate.step hvalid hbinds action hstep
    · exact fun id slot => ⟨rfl, rfl⟩
  have hsent : ∀ slot, ((final.channels slot).system.channel.sent.map MotorCodec.framesOf).Sublist
      ((final.channels slot).pushed.map Prod.snd) := by
    intro slot
    obtain ⟨payloads, hchannel⟩ := h.channels slot
    exact hchannel.sent_pushed
  refine ⟨fun slot name hname bytes member => ⟨?_, ?_⟩, hsent, h.pushed,
    fun entry member => (h.returned entry member).2, h.ready hvalid hbinds⟩
  · obtain ⟨payloads, hchannel⟩ := h.channels slot
    exact hchannel.sent_carries member
  · obtain ⟨packet, hpacket, hframes⟩ :=
      List.mem_map.mp ((hsent slot).subset (List.mem_map_of_mem member))
    obtain ⟨call, hcall, hsubset⟩ := h.pushed_framed hname hpacket
    exact ⟨packet.1, call, hcall, hframes ▸ hsubset⟩

/-- Two threads query the same motor; the one that began last is first on the wire. -/
def crossingCalls : List FleetAction :=
  let query := MotorCommand.configQuery { deviceId := 0 }
  let sent : List TxAction := [.advance, .advance, .advance, .advance, .limited (.ok ()),
    .checkSocket true, .attempt .sent, .advance, .advance]
  [.command 0 [query]] ++ List.replicate 4 (.advance 0) ++ [.command 1 [query, query]] ++
    List.replicate 15 (.advance 1) ++ sent.map (.tx 0) ++ List.replicate 10 (.advance 0) ++
    sent.map (.tx 0)

theorem crossing_calls_arrive : ∃ (runtime : Runtime (Option ℚ)) (system : ChannelSystem 2)
    (final : FleetSends (Option ℚ) fun _ => 2),
    Runtime.init Runtime.queryConfig (fun _ => true) = .ok runtime ∧
      ChannelSystem.openRealtime 2 = some system ∧
      Steps.run step { runtime, channels := fun _ => { system } } crossingCalls = some final ∧
      final.returned.map (fun entry => (entry.1, entry.2.commands.length, entry.2.error)) =
        [(1, 2, .ok ()), (0, 1, .ok ())] ∧
      (final.channels 0).system.channel.sent.length = 2 ∧
      ∀ bytes ∈ (final.channels 0).system.channel.sent, ∃ id, ∃ call ∈ final.calls id,
        MotorCodec.framesOf bytes ⊆ framesFor Runtime.queryConfig "can" call.commands := by
  obtain ⟨runtime, system, hinit, hopen, hcrossing⟩ : ∃ (runtime : Runtime (Option ℚ))
      (system : ChannelSystem 2), Runtime.init Runtime.queryConfig (fun _ => true) = .ok runtime ∧
      ChannelSystem.openRealtime 2 = some system ∧
      (Steps.run step ({ runtime, channels := fun _ => { system } } : FleetSends _ fun _ => 2)
        crossingCalls).map (fun state =>
          (state.returned.map (fun entry => (entry.1, entry.2.commands.length, entry.2.error)),
            (state.channels 0).system.channel.sent.length)) =
      some ([(1, 2, .ok ()), (0, 1, .ok ())], 2) := ⟨_, _, rfl, rfl, by decide +kernel⟩
  obtain ⟨final, hrun, hfinal⟩ := Option.map_eq_some_iff.mp hcrossing
  obtain ⟨hreturned, hsent⟩ := Prod.mk.inj hfinal
  have hwire := (commands_reach_wire Runtime.queryConfig (fun _ => true) runtime hinit (fun _ => 2)
    (fun _ => system) (fun _ => hopen) crossingCalls final hrun).1 0 "can" (by decide +kernel)
  exact ⟨runtime, system, final, hinit, hopen, hrun, hreturned, hsent,
    fun bytes member => (hwire bytes member).2⟩

end FleetSends

end ServoFleet
