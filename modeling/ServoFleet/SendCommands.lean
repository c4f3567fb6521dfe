import ServoFleet.EncodedFrame
import ServoFleet.RuntimeBinding
import ServoFleet.SendPackets

/-!
A whole call of `send_motor_commands`, from any state of the thread's batch storage
and against any replies of the channels. The list of commands may hold some to
unknown motors and some that do not encode.

What becomes of a packet after a channel has accepted it is left out.
-/

namespace ServoFleet.Runtime

open BatchCommands

/-- The frame a command becomes on a channel: its device is configured there and
the command encodes for its address. -/
def commandFrame (options : FleetConfig) (channelName : String) (command : MotorCommand) :
    Option CanFrame := do
  let motor ← options.motors[command.deviceId.toNat]?
  if motor.channel = channelName then
    match CanCodec.encodeFrame motor.address command with
    | some (.ok frame) => some frame
    | _ => none
  else none

/-- What a channel should send for some commands. -/
def framesFor (options : FleetConfig) (channelName : String) (commands : List MotorCommand) :
    List CanFrame :=
  commands.filterMap (commandFrame options channelName)

/-- The device of the command is bound and the command encodes. -/
def Encodable (options : FleetConfig) (command : MotorCommand) : Prop :=
  ∃ motor frame, options.motors[command.deviceId.toNat]? = some motor ∧
    CanCodec.encodeFrame motor.address command = some (.ok frame)

/-- Every offer to a channel has been accepted. -/
def AllAccepted (batches : List BatchCommands) : Prop :=
  ∀ batch ∈ batches, ∀ offer ∈ batch.offers, offer.code = .ok ()

/-- The state of the call after the commands `done`. -/
structure Pushed (options : FleetConfig) (channelNames : List String) (replies : Replies)
    (done : List MotorCommand) (error : ErrCode) (batches : List BatchCommands) : Prop where
  count : batches.length = channelNames.length
  queues : ∀ (slot : Nat) (name : String) (batch : BatchCommands),
    channelNames[slot]? = some name → batches[slot]? = some batch →
    Queues (replies slot) batch (framesFor options name done)
  error : error = .ok () ↔ (∀ command ∈ done, Encodable options command) ∧ AllAccepted batches

theorem overwriteError_ok (error newError : ErrCode) :
    overwriteError error newError = .ok () ↔ newError = .ok () ∧ error = .ok () := by
  cases newError with
  | error err => exact ⟨nofun, fun h => nomatch h.1⟩
  | ok _ => exact ⟨fun h => ⟨rfl, h⟩, fun h => h.2⟩

theorem framesFor_append (options : FleetConfig) (name : String) (done : List MotorCommand)
    (command : MotorCommand) :
    framesFor options name (done ++ [command]) =
      framesFor options name done ++ (commandFrame options name command).toList := by
  rw [framesFor, List.filterMap_append]
  rfl

section CommandFrame

variable {options : FleetConfig} {command : MotorCommand} {motor : MotorConfig}

theorem commandFrame_unbound (name : String)
    (h : options.motors[command.deviceId.toNat]? = none) :
    commandFrame options name command = none := by
  rw [commandFrame, h]
  rfl

theorem commandFrame_other (hmotor : options.motors[command.deviceId.toNat]? = some motor)
    (name : String) (hne : name ≠ motor.channel) : commandFrame options name command = none := by
  rw [commandFrame, hmotor]
  exact if_neg (Ne.symm hne)

/-- On its own channel a command becomes what it encodes to. -/
theorem commandFrame_own {outcome : Result CanFrame}
    (hmotor : options.motors[command.deviceId.toNat]? = some motor)
    (hframe : CanCodec.encodeFrame motor.address command = some outcome) :
    commandFrame options motor.channel command = outcome.toOption := by
  rw [commandFrame, hmotor]
  cases outcome <;> simp only [Option.bind_eq_bind, Option.bind_some, if_pos, hframe] <;> rfl

theorem encodable_iff {outcome : Result CanFrame}
    (hmotor : options.motors[command.deviceId.toNat]? = some motor)
    (hframe : CanCodec.encodeFrame motor.address command = some outcome) :
    Encodable options command ↔ ∃ frame, outcome = .ok frame := by
  constructor
  · rintro ⟨other, frame, hother, hencode⟩
    rw [hmotor, Option.some.injEq] at hother
    subst hother
    exact ⟨frame, Option.some.inj (hframe.symm.trans hencode)⟩
  · rintro ⟨frame, rfl⟩
    exact ⟨motor, frame, hmotor, hframe⟩

end CommandFrame

theorem encodeFrame_of_encodes {address : CanAddr} {command : MotorCommand} {frame : CanFrame}
    (hrun : ∀ start, CanCodec.encode address command start = some (.ok (), frame)) :
    CanCodec.encodeFrame address command = some (.ok frame) := by
  rw [CanCodec.encodeFrame, hrun]
  rfl

theorem encodeFrame_of_error {address : CanAddr} {command : MotorCommand} {err : FleetErr}
    (hrun : ∀ start, ∃ after, CanCodec.encode address command start = some (.error err, after)) :
    CanCodec.encodeFrame address command = some (.error err) := by
  obtain ⟨after, hafter⟩ := hrun {}
  rw [CanCodec.encodeFrame, hafter]
  rfl

/-- Replacing one batch by a successor adds the successor's offers. -/
theorem allAccepted_set {batches : List BatchCommands} {slot : Nat} {batch next : BatchCommands}
    {code : ErrCode} (hbatch : batches[slot]? = some batch) (hadds : Adds batch next code) :
    AllAccepted (batches.set slot next) ↔ AllAccepted batches ∧ code = .ok () := by
  obtain ⟨added, hoffers, hcode⟩ := hadds
  obtain ⟨hlt, rfl⟩ := List.getElem?_eq_some_iff.mp hbatch
  rw [hcode]
  constructor
  · intro h
    have hnext := h next (List.mem_set hlt next)
    rw [hoffers] at hnext
    refine ⟨?_, fun offer member => hnext offer (List.mem_append_right _ member)⟩
    intro other member
    obtain ⟨j, hj, rfl⟩ := List.mem_iff_getElem.mp member
    by_cases hslot : slot = j
    · subst hslot
      exact fun offer member => hnext offer (List.mem_append_left _ member)
    · refine h _ (List.mem_iff_getElem.mpr ⟨j, by simpa using hj, ?_⟩)
      exact List.getElem_set_ne hslot _
  · rintro ⟨hold, hnew⟩ other member
    rcases List.mem_or_eq_of_mem_set member with hother | rfl
    · exact hold other hother
    · intro offer hoffer
      rw [hoffers] at hoffer
      rcases List.mem_append.mp hoffer with holdOffer | hnewOffer
      · exact hold _ (List.getElem_mem hlt) offer holdOffer
      · exact hnew offer hnewOffer

private theorem forall_concat {P : MotorCommand → Prop} (done : List MotorCommand)
    (command : MotorCommand) :
    (∀ other ∈ done ++ [command], P other) ↔ (∀ other ∈ done, P other) ∧ P command := by
  simp only [List.mem_append, List.mem_singleton, or_imp, forall_and, forall_eq]

section Push

variable {options : FleetConfig} {channelNames : List String} {replies : Replies}
  {done : List MotorCommand} {error : ErrCode} {batches : List BatchCommands}
  {command : MotorCommand}

/-- A command that becomes no frame and leaves the batches alone. -/
theorem pushed_skip (h : Pushed options channelNames replies done error batches)
    (hframe : ∀ name, commandFrame options name command = none)
    (hfail : ¬ Encodable options command) (err : FleetErr) :
    Pushed options channelNames replies (done ++ [command]) (.error err) batches where
  count := h.count
  queues := by
    intro slot name batch hname hbatch
    rw [framesFor_append, hframe name]
    exact (List.append_nil _).symm ▸ h.queues slot name batch hname hbatch
  error := ⟨nofun, fun hall => absurd ((forall_concat done command).mp hall.1).2 hfail⟩

/-- A command of one channel changes the batch of that channel only. -/
theorem pushed_set (h : Pushed options channelNames replies done error batches)
    (hnames : channelNames.Nodup) {slot : Nat} {name : String} {batch next : BatchCommands}
    {code : ErrCode} (hslot : channelNames[slot]? = some name)
    (hbatch : batches[slot]? = some batch)
    (hother : ∀ other, other ≠ name → commandFrame options other command = none)
    (hqueues : Queues (replies slot) next
      (framesFor options name done ++ (commandFrame options name command).toList))
    (herror : overwriteError error code = .ok () ↔
      ((∀ other ∈ done, Encodable options other) ∧ Encodable options command) ∧
        AllAccepted (batches.set slot next)) :
    Pushed options channelNames replies (done ++ [command]) (overwriteError error code)
      (batches.set slot next) where
  count := by rw [List.length_set, h.count]
  queues := by
    intro slot' name' batch' hname' hbatch'
    rw [framesFor_append]
    by_cases hsame : slot = slot'
    · subst hsame
      rw [hslot, Option.some.injEq] at hname'
      subst hname'
      rw [List.getElem?_set_self (List.getElem?_eq_some_iff.mp hbatch).1, Option.some.injEq]
        at hbatch'
      exact hbatch' ▸ hqueues
    · have hne : name' ≠ name := by
        rintro rfl
        obtain ⟨hlt, hget⟩ := List.getElem?_eq_some_iff.mp hslot
        obtain ⟨hlt', hget'⟩ := List.getElem?_eq_some_iff.mp hname'
        exact hsame ((hnames.getElem_inj_iff).mp (hget.trans hget'.symm))
      rw [List.getElem?_set_ne hsame] at hbatch'
      rw [hother name' hne]
      exact (List.append_nil _).symm ▸ h.queues slot' name' batch' hname' hbatch'
  error := by rw [herror, forall_concat]

end Push

section Call

variable {F : Type} [FloatArith F] {options : FleetConfig} {runtime : Runtime F}
  {motors : Motors F} (hvalid : options.Valid)
  (hbinds : Binds (usedChannels options) options.motors runtime)
  (hsame : identities motors = identities runtime.motors) (replies : Replies)

include hvalid hbinds hsame

/-- The step of the loop over the commands. -/
theorem pushCommand_pushed {done : List MotorCommand} {error : ErrCode}
    {batches : List BatchCommands} (command : MotorCommand)
    (h : Pushed options (usedChannels options) replies done error batches) :
    ∃ error' batches', { runtime with motors }.pushCommand replies (error, batches) command =
        some (error', batches') ∧
      Pushed options (usedChannels options) replies (done ++ [command]) error' batches' := by
  cases hmotor : options.motors[command.deviceId.toNat]? with
  | none =>
      have hbinding : { runtime with motors }.findDeviceBinding command.deviceId = none := by
        rw [findDeviceBinding, List.getElem?_eq_none_iff, hbinds.count]
        exact List.getElem?_eq_none_iff.mp hmotor
      refine ⟨_, _, by rw [pushCommand, hbinding],
        pushed_skip h (fun name => commandFrame_unbound name hmotor) ?_ _⟩
      rintro ⟨motor, frame, hsome, _⟩
      rw [hmotor] at hsome
      cases hsome
  | some motor =>
      obtain ⟨binding, hbinding⟩ : ∃ binding,
          runtime.deviceBindings[command.deviceId.toNat]? = some binding := by
        have hlt := (List.getElem?_eq_some_iff.mp hmotor).1
        exact ⟨_, List.getElem?_eq_getElem (by rwa [hbinds.count])⟩
      obtain ⟨hslot, href⟩ := hbinds.bindings _ motor binding hmotor hbinding
      have hdriver : runtime.motorDrivers[binding.driverSlot]? =
          some (driverOf F options.motors motor.channel) := by
        rw [hbinds.drivers, List.getElem?_map, hslot, Option.map_some]
      obtain ⟨batch, hbatch⟩ : ∃ batch, batches[binding.driverSlot]? = some batch := by
        have hlt := (List.getElem?_eq_some_iff.mp hslot).1
        exact ⟨_, List.getElem?_eq_getElem (by rwa [h.count])⟩
      obtain ⟨device, hdevice, haddr, _⟩ := device_in_memory hbinds hsame hmotor
      have hqueues := h.queues _ _ batch hslot hbatch
      have hnames := usedChannels_nodup hvalid
      have hother := commandFrame_other hmotor
      have hrun : ∀ {code next}, batch.push (driverOf F options.motors motor.channel) motors
          (replies binding.driverSlot) binding.deviceSlot command = some (code, next) →
          { runtime with motors }.pushCommand replies (error, batches) command =
            some (overwriteError error code, batches.set binding.driverSlot next) := by
        intro code next hpush
        simp only [pushCommand, findDeviceBinding, hbinding, hdriver, hbatch, hpush,
          Option.bind_eq_bind, Option.bind_some, Option.pure_def]
      cases CanCodec.encode_encodes device.addr command with
      | frame frame port id standard len hencode =>
          have hframe := encodeFrame_of_encodes hencode
          rw [haddr] at hframe
          have hcommand := commandFrame_own hmotor hframe
          have hencodable := (encodable_iff hmotor hframe).mpr ⟨frame, rfl⟩
          have hvalidFrame : frame.valid = true := by
            have hid := hvalid.standard motor (List.mem_of_getElem? hmotor)
            simpa [CanFrame.valid, standard, id, haddr, MotorConfig.address, len] using hid
          obtain ⟨code, next, hpush, hnext, hadds⟩ :=
            push_frame hqueues href hdevice hvalidFrame hencode
          refine ⟨_, _, hrun hpush, pushed_set h hnames hslot hbatch hother ?_ ?_⟩
          · rw [hcommand]
            exact hnext
          · rw [overwriteError_ok, h.error, allAccepted_set hbatch hadds]
            tauto
      | error err hencode =>
          have hframe := encodeFrame_of_error hencode
          rw [haddr] at hframe
          have hcommand := commandFrame_own hmotor hframe
          obtain ⟨next, hpush, hnext, hoffers⟩ := push_error hqueues href hdevice hencode
          refine ⟨_, _, hrun hpush, pushed_set h hnames hslot hbatch hother ?_ ?_⟩
          · rw [hcommand]
            exact (List.append_nil _).symm ▸ hnext
          · have hrejected : ¬ Encodable options command := by
              intro hencodable
              obtain ⟨frame, hok⟩ := (encodable_iff hmotor hframe).mp hencodable
              cases hok
            rw [overwriteError_ok]
            simp only [reduceCtorEq, hrejected, and_false, false_and]

theorem pushCommands_pushed (rest : List MotorCommand) {done : List MotorCommand}
    {error : ErrCode} {batches : List BatchCommands}
    (h : Pushed options (usedChannels options) replies done error batches) :
    ∃ error' batches',
      rest.foldlM ({ runtime with motors }.pushCommand replies) (error, batches) =
        some (error', batches') ∧
      Pushed options (usedChannels options) replies (done ++ rest) error' batches' := by
  induction rest generalizing done error batches with
  | nil => exact ⟨error, batches, rfl, (List.append_nil done).symm ▸ h⟩
  | cons command rest ih =>
      obtain ⟨error', batches', hstep, hnext⟩ :=
        pushCommand_pushed hvalid hbinds hsame replies command h
      obtain ⟨error'', batches'', hrest, hfinal⟩ := ih hnext
      rw [List.append_assoc, List.singleton_append] at hfinal
      refine ⟨error'', batches'', ?_, hfinal⟩
      rw [List.foldlM_cons, hstep]
      exact hrest

end Call

/-- What the final flush makes of a batch that took in `queued`. -/
structure Flushed (replies : Nat → ChannelReply) (queued : List CanFrame)
    (batch : BatchCommands) : Prop where
  packets : batch.offers.map Offer.frames = queued.toChunks maxFramesPerPacket
  sound : ∀ (j : Nat) (offer : Offer), batch.offers[j]? = some offer → offer.Sound (replies j)

/-- The loop of the final flushes. The returned code is the success the loop
starts with, unless an offer it makes is refused. -/
theorem flushBatches_flushed (replies : Replies) (queued : Nat → List CanFrame)
    (batches : List BatchCommands) (slot : Nat) (error : ErrCode)
    (h : ∀ (k : Nat) (batch : BatchCommands), batches[k]? = some batch →
      Queues (replies (slot + k)) batch (queued (slot + k))) :
    ∃ code finals, flushBatches replies slot error batches = some (code, finals) ∧
      finals.length = batches.length ∧
      (∀ (k : Nat) (final : BatchCommands), finals[k]? = some final →
        Flushed (replies (slot + k)) (queued (slot + k)) final) ∧
      (AllAccepted finals → AllAccepted batches) ∧ (code = .ok () → error = .ok ()) ∧
      (AllAccepted batches → error = .ok () → (code = .ok () ↔ AllAccepted finals)) := by
  induction batches generalizing slot error with
  | nil =>
      refine ⟨error, [], rfl, rfl, by simp, id, id, fun haccepted herror => ?_⟩
      exact ⟨fun _ => haccepted, fun _ => herror⟩
  | cons batch rest ih =>
      obtain ⟨flushError, next, hflush, ⟨added, hoffers, hcode⟩, hpackets, hsound⟩ :=
        flush_queues (h 0 batch rfl)
      obtain ⟨code, finals, hrest, hlength, hflushed, hback, hfirst, hiff⟩ :=
        ih (slot + 1) (overwriteError error flushError) (fun k other hother => by
          have hk := h (k + 1) other hother
          rwa [(by omega : slot + (k + 1) = slot + 1 + k)] at hk)
      rw [overwriteError_ok] at hfirst hiff
      have hhead : (∀ offer ∈ next.offers, offer.code = .ok ()) ↔
          (∀ offer ∈ batch.offers, offer.code = .ok ()) ∧ flushError = .ok () := by
        rw [hoffers, hcode, List.forall_mem_append]
      refine ⟨code, next :: finals, ?_, by rw [List.length_cons, hlength, List.length_cons], ?_,
        ?_, fun hok => (hfirst hok).2, ?_⟩
      · rw [Nat.add_zero] at hflush
        simp only [flushBatches, hflush, Option.bind_eq_bind, Option.bind_some, hrest,
          Option.pure_def]
      · intro k final hfinal
        cases k with
        | zero =>
            obtain rfl := Option.some.inj hfinal
            exact ⟨hpackets, hsound⟩
        | succ k =>
            have hk := hflushed k final hfinal
            rwa [(by omega : slot + 1 + k = slot + (k + 1))] at hk
      · intro haccepted
        rw [AllAccepted, List.forall_mem_cons] at haccepted ⊢
        exact ⟨(hhead.mp haccepted.1).1, hback haccepted.2⟩
      · intro haccepted herror
        rw [AllAccepted, List.forall_mem_cons] at haccepted ⊢
        rw [hhead]
        constructor
        · intro hok
          have hflushOk := (hfirst hok).1
          exact ⟨⟨haccepted.1, hflushOk⟩, (hiff haccepted.2 ⟨hflushOk, herror⟩).mp hok⟩
        · rintro ⟨⟨_, hflushOk⟩, hfinals⟩
          exact (hiff haccepted.2 ⟨hflushOk, herror⟩).mpr hfinals

/-- The packets of a call: each driver's channel is offered the frames of its own
commands, in their order and 32 to a packet, and decides on each packet alone. Success
means that every command was encoded and every packet was accepted. -/
theorem sendMotorCommands_packets {F : Type} [FloatArith F] (options : FleetConfig)
    (opens : ChannelConfig → Bool) (runtime : Runtime F)
    (hinit : init options opens = .ok runtime) (motors : Motors F)
    (hsame : identities motors = identities runtime.motors) (replies : Replies)
    (stored : List BatchCommands) (commands : List MotorCommand) :
    ∃ code batches,
      { runtime with motors }.sendMotorCommands replies stored commands = some (code, batches) ∧
      batches.length = runtime.motorDrivers.length ∧
      (∀ (slot : Nat) (driver : MotorDriver) (batch : BatchCommands),
        runtime.motorDrivers[slot]? = some driver → batches[slot]? = some batch →
        Flushed (replies slot) (framesFor options driver.channelName commands) batch) ∧
      (code = .ok () ↔ (∀ command ∈ commands, Encodable options command) ∧
        ∀ batch ∈ batches, ∀ offer ∈ batch.offers, offer.code = .ok ()) := by
  obtain ⟨hvalid, hbinds, _⟩ := init_ok hinit
  have hstart : Pushed options (usedChannels options) replies [] (.ok ())
      (runtime.motorDrivers.map fun _ => {}) := by
    refine ⟨?_, ?_, ?_⟩
    · rw [List.length_map, hbinds.drivers, List.length_map]
    · intro slot name batch _ hbatch
      rw [List.getElem?_map, Option.map_eq_some_iff] at hbatch
      obtain ⟨_, _, rfl⟩ := hbatch
      exact queues_empty
    · simp [AllAccepted]
  obtain ⟨error, pushed, hpush, hpushed⟩ :=
    pushCommands_pushed hvalid hbinds hsame replies commands hstart
  rw [List.nil_append] at hpushed
  have hname : ∀ (k : Nat) (batch : BatchCommands), pushed[k]? = some batch →
      ∃ name, (usedChannels options)[k]? = some name := by
    intro k batch hbatch
    have hlt := (List.getElem?_eq_some_iff.mp hbatch).1
    exact ⟨_, List.getElem?_eq_getElem (by rwa [← hpushed.count])⟩
  obtain ⟨code, finals, hflush, hlength, hflushed, hback, hfirst, hiff⟩ :=
    flushBatches_flushed replies
      (fun slot => framesFor options ((usedChannels options)[slot]?.getD "") commands)
      pushed 0 error (by
        intro k batch hbatch
        obtain ⟨name, hk⟩ := hname k batch hbatch
        have hqueues := hpushed.queues k name batch hk hbatch
        simpa only [Nat.zero_add, hk, Option.getD_some] using hqueues)
  refine ⟨code, finals, ?_, ?_, ?_, ?_⟩
  · simp only [sendMotorCommands, List.take_zero, List.nil_append, hpush, Option.bind_eq_bind,
      Option.bind_some, hflush]
  · rw [hlength, hpushed.count, hbinds.drivers, List.length_map]
  · intro slot driver batch hdriver hbatch
    have hfinal := hflushed slot batch hbatch
    rw [hbinds.drivers, List.getElem?_map, Option.map_eq_some_iff] at hdriver
    obtain ⟨name, hslot, rfl⟩ := hdriver
    simpa only [Nat.zero_add, hslot, Option.getD_some, driverOf_channelName] using hfinal
  · constructor
    · intro hok
      obtain ⟨hencodable, haccepted⟩ := hpushed.error.mp (hfirst hok)
      exact ⟨hencodable, (hiff haccepted (hfirst hok)).mp hok⟩
    · rintro ⟨hencodable, haccepted⟩
      have hpushedAccepted := hback haccepted
      exact (hiff hpushedAccepted (hpushed.error.mpr ⟨hencodable, hpushedAccepted⟩)).mpr haccepted

def queryConfig : FleetConfig where
  channels := [{ name := "can" }]
  motors := [{ name := "motor", channel := "can", model := "EC-A4310-P2-36", canId := 1 }]

def acceptingReply : ChannelReply where
  prepare := .ok (Vector.replicate _ 0)
  commit := .ok ()

/-- Forty queries of the one motor are sent. -/
theorem forty_queries_sent :
    ∃ runtime : Runtime (Option ℚ), init queryConfig (fun _ => true) = .ok runtime ∧
      ∃ batches, runtime.sendMotorCommands (fun _ _ => acceptingReply) []
        (List.replicate 40 (.configQuery { deviceId := 0 })) = some (.ok (), batches) := by
  obtain ⟨runtime, hinit⟩ := init_succeeds (F := Option ℚ) queryConfig (fun _ => true) rfl
    (by decide) (by decide)
  obtain ⟨code, batches, hrun, hlength, hflushed, hcode⟩ :=
    sendMotorCommands_packets queryConfig _ runtime hinit runtime.motors rfl
      (fun _ _ => acceptingReply) [] (List.replicate 40 (.configQuery { deviceId := 0 }))
  have hok : code = .ok () := by
    refine hcode.mpr ⟨?_, ?_⟩
    · intro command member
      obtain rfl := List.eq_of_mem_replicate member
      exact ⟨_, _, rfl, rfl⟩
    · intro batch hbatch offer hoffer
      obtain ⟨slot, hslot, rfl⟩ := List.mem_iff_getElem.mp hbatch
      obtain ⟨j, hj, rfl⟩ := List.mem_iff_getElem.mp hoffer
      exact ((hflushed slot _ _ (List.getElem?_eq_getElem (hlength ▸ hslot))
        (List.getElem?_eq_getElem hslot)).sound j _ (List.getElem?_eq_getElem hj)).code
  exact ⟨runtime, hinit, batches, hok ▸ hrun⟩

end ServoFleet.Runtime
