import ServoFleet.FeedbackCompleteness
import ServoFleet.MotorSamples
import ServoFleet.ReceiveLoop

/-!
What the receive threads make of the devices. Whatever arrives at the sockets, and
in whatever order the threads take it, a device ends up with the responses that its
own remote sent from its own address, in their order and each once. Strangers, other
channels, other addresses, the broadcast identifier and what does not parse leave it
alone.
-/

namespace ServoFleet

namespace MotorCodec

section Handler

variable {σ τ : Type}

private theorem decodeEntries_hom (handler : σ → CanFrame → σ) (other : τ → CanFrame → τ)
    (φ : σ → τ) (hφ : ∀ context frame, φ (handler context frame) = other (φ context) frame)
    (bytes : List Byte) (count offset : Nat) (context : σ) :
    decodeEntries bytes other count offset (φ context) =
      (decodeEntries bytes handler count offset context).map (Prod.map id φ) := by
  induction count generalizing offset context with
  | zero => rfl
  | succ count ih =>
      simp only [decodeEntries, Option.bind_eq_bind]
      cases subspan bytes offset canEntrySz with
      | none => rfl
      | some entry =>
          simp only [Option.bind_some]
          cases readCanEntry entry with
          | none => rfl
          | some result =>
              cases result with
              | error err => rfl
              | ok frame =>
                  simp only [Option.bind_some]
                  rw [← hφ]
                  exact ih _ _

/-- Whatever the handler does, it is called on these frames, in this order. -/
theorem decodeEach_framesOf (bytes : List Byte) :
    ∃ outcome, ∀ (σ : Type) (handler : σ → CanFrame → σ) (context : σ),
      decodeEach bytes context (some handler) =
        some (outcome, (framesOf bytes).foldl handler context) := by
  let collect : List CanFrame → CanFrame → List CanFrame := fun frames frame => frames ++ [frame]
  rcases decodeEach_cases bytes with
    ⟨err, hrun⟩ | ⟨type, len0, len1, count, entries, crc0, crc1, hframed, rfl⟩
  · have hframes : framesOf bytes = [] := by
      rw [framesOf, hrun]
    exact ⟨.error err, fun σ handler context => hframes ▸ hrun σ handler context⟩
  · obtain ⟨outcome, frames, hrun, _⟩ := decodeEach_spec collect
      (layout stx type len0 len1 (count :: entries) crc0 crc1 etx) []
    have hframes : framesOf (layout stx type len0 len1 (count :: entries) crc0 crc1 etx) =
        frames := by
      rw [framesOf]
      simp only [collect] at hrun
      rw [hrun]
    rw [decodeEach_framed collect [] hframed] at hrun
    refine ⟨outcome, fun σ handler context => ?_⟩
    have hhom := decodeEntries_hom collect handler
      (fun frames => frames.foldl handler context) (fun frames frame => by
        simp [collect]) (layout stx type len0 len1 (count :: entries) crc0 crc1 etx) count.toNat
      (headerSz + msgCntSz) []
    rw [decodeEach_framed handler context hframed, hframes]
    rw [hrun] at hhom
    exact hhom

/-- Of a packet that carries some frames these are the frames. -/
theorem framesOf_carries {bytes : List Byte} {frames : List CanFrame} (h : Carries bytes frames) :
    framesOf bytes = frames := by
  rw [framesOf, decodeEach_carries _ h]
  simp only [List.foldl_append_eq_append, List.nil_append]
  rw [← List.flatMap_def, List.flatMap_singleton']

end Handler

end MotorCodec

section Answers

variable {F : Type} [FloatArith F]

/-- What a motor of this configuration answers in a frame, if the frame is from its address. -/
def MotorConfig.answer (F : Type) [FloatArith F] (config : MotorConfig) (frame : CanFrame) :
    Option (Feedback F) :=
  if frame.id = broadcastCanId ∨ frame.port ≠ config.canPort ∨ frame.id ≠ config.canId then none
  else
    match (CanCodec.parseFeedback frame
        (MotorDriver.currentRange (findMotorEcSpec config.model))).run with
    | some (.ok response) => some response
    | _ => none

/-- What a motor says in a turn of the receive threads. -/
def Runtime.heard (remote : String → Endpoint) (runtime : Runtime F) (config : MotorConfig)
    (turn : RxTurn) : List (Feedback F × TimePoint) :=
  match runtime.motorDrivers[turn.driverSlot]?, turn.receipt with
  | some driver, .datagram sender data =>
      if driver.channelName = config.channel ∧ isExpectedSender (remote config.channel) sender then
        (MotorCodec.framesOf data).filterMap fun frame =>
          (config.answer F frame).map fun response => (response, turn.now)
      else []
  | _, _ => []

end Answers

namespace Runtime

variable {F : Type} [FloatArith F]

section Bound

variable {options : FleetConfig} {runtime : Runtime F} {k : DeviceRef} {config : MotorConfig}

/-- A frame on a channel reaches a motor exactly if it is an answer of it there. -/
theorem delivery_iff (hvalid : options.Valid)
    (hbinds : Binds (usedChannels options) options.motors runtime)
    (hk : options.motors[k]? = some config) (channelName : String) (frame : CanFrame)
    (response : Feedback F) :
    (driverOf F options.motors channelName).delivery frame = some (k, response) ↔
      config.channel = channelName ∧ config.answer F frame = some response := by
  have hdistinct := boundTo_distinct (F := F) hvalid channelName
  have hholds := boundTo_holds hbinds runtime.motors rfl channelName
  constructor
  · intro h
    obtain ⟨_, spec, hroute, _⟩ := MotorDriver.delivery_some h
    obtain ⟨device, member, _, _⟩ := MotorDriver.findRoute_some channelName _ hdistinct hroute
    obtain ⟨same, hsame, hchannel, rfl⟩ := mem_boundTo.mp member
    obtain rfl := Option.some.inj (hk.symm.trans hsame)
    obtain ⟨hid, hport, hcan, hparse⟩ :=
      MotorDriver.delivery_bound channelName _ _ hdistinct hholds member h
    refine ⟨hchannel, ?_⟩
    rw [MotorConfig.answer, if_neg]
    · simp only [deviceOf, MotorDevice.init] at hparse
      simp only [hparse]
    · simp only [not_or, ne_eq, not_not]
      exact ⟨hid, hport, hcan⟩
  · rintro ⟨hchannel, hanswer⟩
    rw [MotorConfig.answer] at hanswer
    split_ifs at hanswer with hother
    simp only [not_or, ne_eq, not_not] at hother
    obtain ⟨hid, hport, hcan⟩ := hother
    have member : (k, deviceOf k config) ∈ (boundTo options.motors channelName :
        List (_ × MotorDevice F)) := mem_boundTo.mpr ⟨config, hk, hchannel, rfl⟩
    have hroute : (driverOf F options.motors channelName).findRoute frame.port frame.id =
        some (k, findMotorEcSpec config.model) := by
      rw [hport, hcan]
      exact MotorDriver.findRoute_bound { channelName } _ hdistinct member
    refine MotorDriver.delivery_of_route hid hroute ?_
    split at hanswer
    · rename_i parsed hparse
      rw [hparse, Option.some.inj hanswer]
    · cases hanswer

/-- What a motor gets of a packet on a channel. -/
theorem received_eq (hvalid : options.Valid)
    (hbinds : Binds (usedChannels options) options.motors runtime)
    (hk : options.motors[k]? = some config) (channelName : String) (frames : List CanFrame) :
    DecodeContext.received k (frames.map (driverOf F options.motors channelName).delivery) =
      if config.channel = channelName then frames.filterMap (config.answer F) else [] := by
  have hframe : ∀ frame, ((driverOf F options.motors channelName).delivery frame).bind
      (fun entry : DeviceRef × Feedback F => if entry.1 = k then some entry.2 else none) =
        if config.channel = channelName then config.answer F frame else none := by
    intro frame
    apply Option.ext
    intro response
    have hiff := delivery_iff hvalid hbinds hk channelName frame response
    have hown : ((driverOf F options.motors channelName).delivery frame).bind
        (fun entry : DeviceRef × Feedback F => if entry.1 = k then some entry.2 else none) =
          some response ↔
        (driverOf F options.motors channelName).delivery frame = some (k, response) := by
      rw [Option.bind_eq_some_iff]
      constructor
      · rintro ⟨⟨ref, other⟩, hdelivery, hentry⟩
        dsimp only at hentry
        split_ifs at hentry with href
        obtain rfl := Option.some.inj hentry
        exact href ▸ hdelivery
      · exact fun h => ⟨_, h, if_pos rfl⟩
    rw [hown, hiff]
    split_ifs with hchannel <;> simp [hchannel]
  rw [DecodeContext.received, List.filterMap_map]
  have hcongr : (frames.filterMap ((fun delivered : Option (DeviceRef × Feedback F) =>
      delivered.bind fun entry => if entry.1 = k then some entry.2 else none) ∘
        (driverOf F options.motors channelName).delivery)) =
      frames.filterMap fun frame =>
        if config.channel = channelName then config.answer F frame else none :=
    List.filterMap_congr fun frame _ => hframe frame
  rw [hcongr]
  split_ifs
  · rfl
  · exact List.filterMap_none _

end Bound

theorem applyAll_identity (device : MotorDevice F) (history : List (Feedback F × TimePoint)) :
    (device.applyAll history).addr = device.addr ∧
      (device.applyAll history).ecSpec = device.ecSpec := by
  induction history generalizing device with
  | nil => exact ⟨rfl, rfl⟩
  | cons event rest ih =>
      obtain ⟨_, haddr, hspec, _⟩ := device.apply_identity event.1 event.2
      obtain ⟨haddr', hspec'⟩ := ih (device.apply event.1 event.2).1
      exact ⟨haddr'.trans haddr, hspec'.trans hspec⟩

/-- Devices to which some feedbacks have been applied are still where they were bound. -/
theorem boundTo_histories {options : FleetConfig} {motors : Motors F}
    (h : ∀ (k : DeviceRef) (config : MotorConfig), options.motors[k]? = some config →
      ∃ history, motors[k]? = some ((deviceOf k config).applyAll history))
    (channelName : String) : MotorDriver.Holds motors (boundTo options.motors channelName) := by
  rintro ⟨ref, device⟩ member
  obtain ⟨config, hconfig, _, rfl⟩ := mem_boundTo.mp member
  obtain ⟨history, hdevice⟩ := h ref config hconfig
  obtain ⟨haddr, hspec⟩ := applyAll_identity (deviceOf ref config : MotorDevice F) history
  exact ⟨_, hdevice, haddr, hspec⟩

end Runtime

namespace DecodeContext

variable {F : Type} [FloatArith F]

/-- What frames do to the devices does not depend on the packets before. -/
theorem deliverAll_motors {context other : DecodeContext F}
    (htime : context.receivedAt = other.receivedAt) (hmotors : context.motors = other.motors)
    (deliveries : List (Option (DeviceRef × Feedback F))) :
    (context.deliverAll deliveries).motors = (other.deliverAll deliveries).motors := by
  apply List.ext_getElem?
  intro k
  rw [deliverAll_motor, deliverAll_motor, htime, hmotors]

theorem deliverAll_receivedAt (context : DecodeContext F)
    (deliveries : List (Option (DeviceRef × Feedback F))) :
    (context.deliverAll deliveries).receivedAt = context.receivedAt := by
  induction deliveries generalizing context with
  | nil => rfl
  | cons delivered rest ih =>
      refine (ih (context.deliver delivered)).trans ?_
      cases delivered <;> rfl

theorem deliverAll_append (context : DecodeContext F)
    (deliveries others : List (Option (DeviceRef × Feedback F))) :
    context.deliverAll (deliveries ++ others) =
      (context.deliverAll deliveries).deliverAll others := List.foldl_append

end DecodeContext

namespace Reception

open ServoFleet.Runtime (deviceOf driverOf usedChannels Binds)

variable {F : Type} [FloatArith F]

/-- What a thread has yet to say to a motor from the packet it is in. -/
def unheard (state : Reception F) (config : MotorConfig) (slot : Nat) :
    List (Feedback F × TimePoint) :=
  (state.unhandled slot).filterMap fun frame =>
    (config.answer F frame).map fun response => (response, state.receivedAt slot)

/-- A thread has handled some frames of its packet and has others left. -/
def handled (state : Reception F) (driver : MotorDriver) (slot : Nat)
    (frames rest : List CanFrame) : Reception F where
  runtime := { state.runtime with
    motors := (({ receivedAt := state.receivedAt slot, motors := state.runtime.motors } :
      DecodeContext F).deliverAll (frames.map driver.delivery)).motors }
  receivedAt := state.receivedAt
  unhandled := Function.update state.unhandled slot rest

section Handle

variable {remote : String → Endpoint} {state : Reception F} {driver : MotorDriver} {slot : Nat}

theorem step_handle {frame : CanFrame} {rest : List CanFrame}
    (hdriver : state.runtime.motorDrivers[slot]? = some driver)
    (hreach : driver.Reaches state.runtime.motors.length)
    (hframes : state.unhandled slot = frame :: rest) :
    step remote state (.handle slot) = some (state.handled driver slot [frame] rest) := by
  simp only [step, hframes, hdriver, Option.bind_eq_bind, Option.bind_some]
  rw [MotorDriver.handleDecodedFrame_eq driver _ frame hreach]
  rfl

/-- Frames handled one after the other are handled together. -/
theorem handled_append (frames others rest later : List CanFrame) :
    (state.handled driver slot frames rest).handled driver slot others later =
      state.handled driver slot (frames ++ others) later := by
  simp only [handled, Function.update_idem]
  congr 2
  rw [List.map_append, DecodeContext.deliverAll_append]
  apply DecodeContext.deliverAll_motors (F := F)
  · rw [DecodeContext.deliverAll_receivedAt]
  · rfl

theorem handled_reach {frames rest : List CanFrame}
    (hreach : driver.Reaches state.runtime.motors.length) :
    driver.Reaches (state.handled driver slot frames rest).runtime.motors.length := by
  rwa [handled, DecodeContext.deliverAll_length]

/-- A thread that no other interrupts handles its whole packet. -/
theorem handle_all (frames : List CanFrame)
    (hdriver : state.runtime.motorDrivers[slot]? = some driver)
    (hreach : driver.Reaches state.runtime.motors.length)
    (hframes : state.unhandled slot = frames) :
    Steps.run (step remote) state (List.replicate frames.length (.handle slot)) =
      some (state.handled driver slot frames []) := by
  induction frames generalizing state with
  | nil =>
      have hidle : Function.update state.unhandled slot [] = state.unhandled :=
        Function.update_eq_self_iff.mpr hframes.symm
      rw [handled, hidle]
      rfl
  | cons frame rest ih =>
      rw [List.length_cons, List.replicate_succ, Steps.run_cons, step_handle hdriver hreach hframes,
        Option.bind_some, @ih (state.handled driver slot [frame] rest) hdriver
          (handled_reach hreach) (Function.update_self ..), handled_append]
      rfl

/-- A thread that is not in a packet can take its turn at the socket. -/
theorem receive_possible {turn : RxTurn}
    (hdriver : state.runtime.motorDrivers[turn.driverSlot]? = some driver)
    (hidle : state.unhandled turn.driverSlot = []) :
    ∃ next, step remote state (.receive turn) = some next := by
  cases hreceipt : turn.receipt with
  | datagram sender data =>
      cases hexpected : isExpectedSender (remote driver.channelName) sender <;>
        simp [step, hdriver, hidle, hreceipt, hexpected]
  | _ => simp [step, hdriver, hidle, hreceipt]

variable (remote) in
/-- A turn that no other thread interrupts is the body of `rx_loop`. -/
theorem rxStep_run {turn : RxTurn}
    (hdriver : state.runtime.motorDrivers[turn.driverSlot]? = some driver)
    (hreach : driver.Reaches state.runtime.motors.length)
    (hidle : state.unhandled turn.driverSlot = []) :
    ∃ n final, Steps.run (step remote) state
        (.receive turn :: List.replicate n (.handle turn.driverSlot)) = some final ∧
      Runtime.rxStep remote state.runtime turn = some final.runtime ∧
      final.unhandled = state.unhandled := by
  obtain ⟨slot, now, receipt⟩ := turn
  simp only at hdriver hidle
  have hquiet : step remote state (.receive ⟨slot, now, receipt⟩) = some state →
      Runtime.rxStep remote state.runtime ⟨slot, now, receipt⟩ = some state.runtime →
      ∃ n final, Steps.run (step remote) state
          (.receive ⟨slot, now, receipt⟩ :: List.replicate n (.handle slot)) = some final ∧
        Runtime.rxStep remote state.runtime ⟨slot, now, receipt⟩ = some final.runtime ∧
        final.unhandled = state.unhandled := by
    intro hstep hrx
    exact ⟨0, state, by rw [Steps.run_cons, hstep]; rfl, hrx, rfl⟩
  cases receipt with
  | datagram sender data =>
      cases hexpected : isExpectedSender (remote driver.channelName) sender with
      | false =>
          apply hquiet
          · simp [step, hdriver, hidle, hexpected]
          · simp [Runtime.rxStep, hdriver, hexpected]
      | true =>
          let frames := MotorCodec.framesOf data
          let taken : Reception F := { state with
            receivedAt := Function.update state.receivedAt slot now
            unhandled := Function.update state.unhandled slot frames }
          have hstep : step remote state (.receive ⟨slot, now, .datagram sender data⟩) =
              some taken := by
            simp [step, hdriver, hidle, hexpected, taken, frames]
          obtain ⟨outcome, hframes⟩ := MotorCodec.decodeEach_framesOf data
          refine ⟨frames.length, taken.handled driver slot frames [], ?_, ?_, ?_⟩
          · rw [Steps.run_cons, hstep, Option.bind_some]
            exact handle_all frames hdriver hreach (Function.update_self ..)
          · simp only [Runtime.rxStep, hdriver, Option.bind_eq_bind, Option.bind_some, hexpected]
            rw [MotorDriver.handlePacket_frames driver data frames now _ outcome hframes hreach]
            simp only [handled, taken, Function.update_self]
            rfl
          · simp only [handled, taken, Function.update_idem]
            exact Function.update_eq_self_iff.mpr hidle.symm
  | _ => exact hquiet (by simp [step, hdriver, hidle]) (by simp [Runtime.rxStep, hdriver])

end Handle

/-! ## All threads -/

/-- The devices after some actions: each has been given what its remote sent it, but for
what the thread of its channel has yet to say. -/
structure Hears (remote : String → Endpoint) (options : FleetConfig) (runtime : Runtime F)
    (actions : List RxAction) (state : Reception F) : Prop where
  drivers : state.runtime.motorDrivers = runtime.motorDrivers
  bindings : state.runtime.deviceBindings = runtime.deviceBindings
  motors : ∀ (k : DeviceRef) (config : MotorConfig), options.motors[k]? = some config →
    ∃ history, state.runtime.motors[k]? = some ((deviceOf k config).applyAll history) ∧
      ∀ (slot : Nat) (driver : MotorDriver), runtime.motorDrivers[slot]? = some driver →
        driver.channelName = config.channel →
        history ++ state.unheard config slot =
          (actions.filterMap RxAction.turn?).flatMap (runtime.heard remote config)

section Threads

variable {options : FleetConfig} {runtime : Runtime F} {state next : Reception F}
variable {remote : String → Endpoint} {actions : List RxAction}

/-- Every channel has one thread. -/
theorem slot_unique (hvalid : options.Valid)
    (hbinds : Binds (usedChannels options) options.motors runtime) {slot other : Nat}
    {driver otherDriver : MotorDriver} (hdriver : runtime.motorDrivers[slot]? = some driver)
    (hother : runtime.motorDrivers[other]? = some otherDriver)
    (hchannel : driver.channelName = otherDriver.channelName) : slot = other := by
  have hnames : runtime.motorDrivers.map (·.channelName) = usedChannels options := by
    rw [hbinds.drivers, List.map_map]
    exact List.map_id'' (fun channelName => Runtime.driverOf_channelName _ _) _
  have hnodup := Runtime.usedChannels_nodup hvalid
  rw [← hnames] at hnodup
  have hslot : slot < (runtime.motorDrivers.map (·.channelName)).length := by
    rw [List.length_map]
    exact (List.getElem?_eq_some_iff.mp hdriver).1
  apply (List.getElem?_inj hslot hnodup).mp
  rw [List.getElem?_map, List.getElem?_map, hdriver, hother, Option.map_some, Option.map_some,
    hchannel]

theorem Hears.reaches (h : Hears remote options runtime actions state) (hvalid : options.Valid)
    (hbinds : Binds (usedChannels options) options.motors runtime) {driver : MotorDriver}
    (hdriver : driver ∈ runtime.motorDrivers) : driver.Reaches state.runtime.motors.length := by
  rw [Runtime.driver_eq hbinds hdriver]
  refine MotorDriver.reaches_bindAll _ _ _ (Runtime.boundTo_distinct hvalid _)
    (Runtime.boundTo_histories (fun k config hk => ?_) _)
  obtain ⟨history, hdevice, _⟩ := h.motors k config hk
  exact ⟨history, hdevice⟩

/-- What a motor has been given, by the thread of its channel. -/
theorem Hears.device (h : Hears remote options runtime actions state) (hvalid : options.Valid)
    (hbinds : Binds (usedChannels options) options.motors runtime) {k : DeviceRef}
    {config : MotorConfig} (hk : options.motors[k]? = some config) :
    ∃ slot history, runtime.motorDrivers[slot]?.map (·.channelName) = some config.channel ∧
      state.runtime.motors[k]? = some ((deviceOf k config).applyAll history) ∧
      history ++ state.unheard config slot =
        (actions.filterMap RxAction.turn?).flatMap (runtime.heard remote config) := by
  obtain ⟨history, hdevice, hheard⟩ := h.motors k config hk
  obtain ⟨slot, hslot⟩ := List.mem_iff_getElem?.mp
    (Runtime.channel_used hvalid (List.mem_of_getElem? hk))
  have hdriver : runtime.motorDrivers[slot]? = some (driverOf F options.motors config.channel) := by
    rw [hbinds.drivers, List.getElem?_map, hslot, Option.map_some]
  refine ⟨slot, history, ?_, hdevice,
    hheard slot _ hdriver (Runtime.driverOf_channelName _ _)⟩
  rw [hdriver, Option.map_some, Runtime.driverOf_channelName]

/-- A turn takes a packet of the remote, or changes nothing. -/
theorem step_receive {turn : RxTurn} (hstep : step remote state (.receive turn) = some next) :
    ∃ driver, state.runtime.motorDrivers[turn.driverSlot]? = some driver ∧
      state.unhandled turn.driverSlot = [] ∧
      ((next = state ∧ ∀ sender data, turn.receipt = .datagram sender data →
          isExpectedSender (remote driver.channelName) sender = false) ∨
        ∃ sender data, turn.receipt = .datagram sender data ∧
          isExpectedSender (remote driver.channelName) sender = true ∧
          next = { state with
            receivedAt := Function.update state.receivedAt turn.driverSlot turn.now
            unhandled := Function.update state.unhandled turn.driverSlot
              (MotorCodec.framesOf data) }) := by
  simp only [step, Option.bind_eq_bind, Option.bind_eq_some_iff, Option.guard_eq_some'] at hstep
  obtain ⟨driver, hdriver, _, hidle, hrest⟩ := hstep
  refine ⟨driver, hdriver, hidle, ?_⟩
  cases hreceipt : turn.receipt with
  | datagram sender data =>
      simp only [hreceipt] at hrest
      cases hexpected : isExpectedSender (remote driver.channelName) sender with
      | false =>
          rw [hexpected] at hrest
          refine .inl ⟨(Option.some.inj hrest).symm, ?_⟩
          rintro _ _ ⟨⟩
          exact hexpected
      | true =>
          rw [hexpected] at hrest
          exact .inr ⟨sender, data, rfl, hexpected, (Option.some.inj hrest).symm⟩
  | _ =>
      simp only [hreceipt] at hrest
      exact .inl ⟨(Option.some.inj hrest).symm, by simp⟩

/-- A turn that hands nothing to the driver. -/
theorem Hears.quiet (h : Hears remote options runtime actions state) {turn : RxTurn}
    {driver : MotorDriver} (hdriver : runtime.motorDrivers[turn.driverSlot]? = some driver)
    (hquiet : ∀ sender data, turn.receipt = .datagram sender data →
      isExpectedSender (remote driver.channelName) sender = false) :
    Hears remote options runtime (actions ++ [.receive turn]) state where
  drivers := h.drivers
  bindings := h.bindings
  motors k config hk := by
    obtain ⟨history, hdevice, hheard⟩ := h.motors k config hk
    have hnothing : runtime.heard remote config turn = [] := by
      rw [Runtime.heard, hdriver]
      cases hreceipt : turn.receipt with
      | datagram sender data =>
          refine if_neg ?_
          rintro ⟨hchannel, hexpected⟩
          rw [← hchannel, hquiet sender data hreceipt] at hexpected
          cases hexpected
      | _ => rfl
    refine ⟨history, hdevice, fun slot driver hdriver hchannel => ?_⟩
    rw [hheard slot driver hdriver hchannel, List.filterMap_append, List.flatMap_append]
    simp [RxAction.turn?, hnothing]

theorem Hears.receive (hvalid : options.Valid)
    (hbinds : Binds (usedChannels options) options.motors runtime)
    (h : Hears remote options runtime actions state) {turn : RxTurn}
    (hstep : step remote state (.receive turn) = some next) :
    Hears remote options runtime (actions ++ [.receive turn]) next := by
  obtain ⟨driver, hdriver, hidle, ⟨rfl, hquiet⟩ | ⟨sender, data, hreceipt, hexpected, rfl⟩⟩ :=
    step_receive hstep
  · rw [h.drivers] at hdriver
    exact h.quiet hdriver hquiet
  rw [h.drivers] at hdriver
  refine ⟨h.drivers, h.bindings, fun k config hk => ?_⟩
  obtain ⟨history, hdevice, hheard⟩ := h.motors k config hk
  refine ⟨history, hdevice, fun slot own hown hchannel => ?_⟩
  have hbefore := hheard slot own hown hchannel
  rw [List.filterMap_append, List.flatMap_append, ← hbefore, List.append_assoc]
  have hturn : [RxAction.receive turn].filterMap RxAction.turn? = [turn] := rfl
  rw [hturn, List.flatMap_singleton, Runtime.heard, hdriver, hreceipt]
  by_cases hslot : slot = turn.driverSlot
  · subst hslot
    obtain rfl := Option.some.inj (hown.symm.trans hdriver)
    have hnone : state.unheard config turn.driverSlot = [] := by
      rw [unheard, hidle, List.filterMap_nil]
    rw [hnone, List.nil_append, unheard]
    simp only [Function.update_self]
    rw [if_pos ⟨hchannel, hchannel ▸ hexpected⟩]
  · have hother : driver.channelName ≠ config.channel := fun hsame =>
      hslot (slot_unique hvalid hbinds hown hdriver (hchannel.trans hsame.symm))
    simp only [unheard, Function.update_of_ne hslot]
    rw [if_neg fun hsame => hother hsame.1, List.append_nil]

/-- What one frame of a channel says to a motor. -/
theorem deliver_heard (hvalid : options.Valid)
    (hbinds : Binds (usedChannels options) options.motors runtime) {driver : MotorDriver}
    (member : driver ∈ runtime.motorDrivers) {k : DeviceRef} {config : MotorConfig}
    (hk : options.motors[k]? = some config) (frame : CanFrame) (now : TimePoint)
    (motors : Motors F) (history : List (Feedback F × TimePoint))
    (hdevice : motors[k]? = some ((deviceOf k config).applyAll history)) :
    (({ receivedAt := now, motors } : DecodeContext F).deliverAll
        ([frame].map driver.delivery)).motors[k]? =
      some ((deviceOf k config).applyAll (history ++
        if config.channel = driver.channelName then
          ((config.answer F frame).map fun response => (response, now)).toList
        else [])) := by
  have hreceived := Runtime.received_eq hvalid hbinds hk driver.channelName [frame]
  rw [← Runtime.driver_eq hbinds member] at hreceived
  rw [DecodeContext.deliverAll_motor, hreceived, hdevice, Option.map_some, MotorDevice.applyAll,
    MotorDevice.applyAll, List.foldl_append]
  split_ifs with hchannel
  · cases hanswer : config.answer F frame <;> simp [hanswer]
  · rfl

theorem Hears.handle (hvalid : options.Valid)
    (hbinds : Binds (usedChannels options) options.motors runtime)
    (h : Hears remote options runtime actions state) {slot : Nat}
    (hstep : step remote state (.handle slot) = some next) :
    Hears remote options runtime (actions ++ [.handle slot]) next := by
  obtain ⟨frame, rest, driver, hframes, hdriver⟩ : ∃ frame rest driver,
      state.unhandled slot = frame :: rest ∧ state.runtime.motorDrivers[slot]? = some driver := by
    rw [step] at hstep
    split at hstep
    · cases hstep
    · obtain ⟨driver, hdriver, _⟩ := Option.bind_eq_some_iff.mp hstep
      exact ⟨_, _, driver, ‹_›, hdriver⟩
  have member : driver ∈ runtime.motorDrivers := by
    rw [h.drivers] at hdriver
    exact List.mem_of_getElem? hdriver
  rw [step_handle hdriver (h.reaches hvalid hbinds member) hframes, Option.some.injEq] at hstep
  subst hstep
  refine ⟨h.drivers, h.bindings, fun k config hk => ?_⟩
  obtain ⟨history, hdevice, hheard⟩ := h.motors k config hk
  rw [h.drivers] at hdriver
  refine ⟨_, deliver_heard hvalid hbinds member hk frame _ _ history hdevice, ?_⟩
  intro other own hown hchannel
  have hbefore := hheard other own hown hchannel
  have hturns : (actions ++ [RxAction.handle slot]).filterMap RxAction.turn? =
      actions.filterMap RxAction.turn? := by
    rw [List.filterMap_append]
    exact List.append_nil _
  rw [hturns, ← hbefore, List.append_assoc]
  by_cases hslot : other = slot
  · subst hslot
    obtain rfl := Option.some.inj (hown.symm.trans hdriver)
    rw [if_pos hchannel.symm]
    simp only [unheard, handled, Function.update_self, hframes]
    cases hanswer : config.answer F frame <;> simp [hanswer]
  · have hother : config.channel ≠ driver.channelName := fun hsame =>
      hslot (slot_unique hvalid hbinds hown hdriver (hchannel.trans hsame))
    rw [if_neg hother, List.nil_append]
    simp only [unheard, handled, Function.update_of_ne hslot]

theorem run_hears (hvalid : options.Valid)
    (hbinds : Binds (usedChannels options) options.motors runtime) (rest : List RxAction)
    (h : Hears remote options runtime actions state)
    (hrun : Steps.run (step remote) state rest = some next) :
    Hears remote options runtime (actions ++ rest) next := by
  induction rest generalizing actions state with
  | nil =>
      obtain rfl := Option.some.inj hrun
      rwa [List.append_nil]
  | cons action rest ih =>
      rw [Steps.run_cons, Option.bind_eq_some_iff] at hrun
      obtain ⟨mid, hstep, hrest⟩ := hrun
      have hmid : Hears remote options runtime (actions ++ [action]) mid := by
        cases action with
        | receive turn => exact h.receive hvalid hbinds hstep
        | handle slot => exact h.handle hvalid hbinds hstep
      rw [List.append_cons]
      exact ih hmid hrest

/-- At first no thread has taken a packet. -/
theorem hears_nothing (hbinds : Binds (usedChannels options) options.motors runtime) :
    Hears remote options runtime [] { runtime } where
  drivers := rfl
  bindings := rfl
  motors k config hk := by
    refine ⟨[], ?_, fun _ _ _ _ => rfl⟩
    rw [hbinds.motors, List.getElem?_map, List.getElem?_zipIdx, hk]
    simp only [Option.map_some, Nat.zero_add]
    rfl

variable (remote) in
/-- Threads that do not interrupt each other run `rx_loop` turn after turn. -/
theorem rxSteps_run (hvalid : options.Valid)
    (hbinds : Binds (usedChannels options) options.motors runtime) (turns : List RxTurn)
    (h : Hears remote options runtime actions state) (hidle : ∀ slot, state.unhandled slot = [])
    (hslots : ∀ turn ∈ turns, turn.driverSlot < runtime.motorDrivers.length) :
    ∃ more final, Steps.run (step remote) state more = some final ∧
      more.filterMap RxAction.turn? = turns ∧
      Steps.run (Runtime.rxStep remote) state.runtime turns = some final.runtime ∧
      ∀ slot, final.unhandled slot = [] := by
  induction turns generalizing actions state with
  | nil => exact ⟨[], state, rfl, rfl, rfl, hidle⟩
  | cons turn rest ih =>
      obtain ⟨hslot, hslots⟩ := List.forall_mem_cons.mp hslots
      obtain ⟨driver, hdriver⟩ : ∃ driver, runtime.motorDrivers[turn.driverSlot]? = some driver :=
        ⟨_, List.getElem?_eq_getElem hslot⟩
      obtain ⟨n, mid, hrun, hrx, hunhandled⟩ := rxStep_run remote
        (h.drivers ▸ hdriver) (h.reaches hvalid hbinds (List.mem_of_getElem? hdriver))
        (hidle turn.driverSlot)
      obtain ⟨more, final, hmore, hturns, hrest, hfinal⟩ := ih
        (run_hears hvalid hbinds _ h hrun) (hunhandled ▸ hidle) hslots
      refine ⟨(.receive turn :: List.replicate n (.handle turn.driverSlot)) ++ more, final, ?_, ?_,
        ?_, hfinal⟩
      · rw [Steps.run_append, hrun, Option.bind_some, hmore]
      · simp [RxAction.turn?, List.filterMap_replicate, hturns]
      · rw [Steps.run_cons, hrx, Option.bind_some, hrest]

end Threads

/-- However the receive threads of a runtime take turns, whatever arrives and wherever in
their packets they are: every device is in the state it had at first with all that its own
remote sent from its own address applied in order, but for the frames that its thread has
yet to handle. No thread ever leaves the memory of the devices or waits for another. -/
theorem devices_hear_their_own (options : FleetConfig) (opens : ChannelConfig → Bool)
    (runtime : Runtime F) (hinit : Runtime.init options opens = .ok runtime)
    (remote : String → Endpoint) (actions : List RxAction) (state : Reception F)
    (hrun : Steps.run (step remote) { runtime } actions = some state) :
    state.runtime.motorDrivers = runtime.motorDrivers ∧
      state.runtime.deviceBindings = runtime.deviceBindings ∧
      (∀ slot < runtime.motorDrivers.length, state.unhandled slot ≠ [] →
        ∃ next, step remote state (.handle slot) = some next) ∧
      (∀ turn : RxTurn, turn.driverSlot < runtime.motorDrivers.length →
        state.unhandled turn.driverSlot = [] →
        ∃ next, step remote state (.receive turn) = some next) ∧
      ∀ (k : DeviceRef) (config : MotorConfig), options.motors[k]? = some config →
        ∃ slot history, runtime.motorDrivers[slot]?.map (·.channelName) = some config.channel ∧
          state.runtime.motors[k]? = some ((deviceOf k config).applyAll history) ∧
          history ++ state.unheard config slot =
            (actions.filterMap RxAction.turn?).flatMap (runtime.heard remote config) := by
  obtain ⟨hvalid, hbinds, _⟩ := Runtime.init_ok hinit
  have hears := run_hears hvalid hbinds actions (hears_nothing hbinds) hrun
  rw [List.nil_append] at hears
  refine ⟨hears.drivers, hears.bindings, fun slot hslot hframes => ?_, fun turn hslot hidle => ?_,
    fun k config hk => hears.device hvalid hbinds hk⟩
  · obtain ⟨frame, rest, hframes⟩ := List.exists_cons_of_ne_nil hframes
    obtain ⟨driver, hdriver⟩ : ∃ driver, runtime.motorDrivers[slot]? = some driver :=
      ⟨_, List.getElem?_eq_getElem hslot⟩
    have hreach := hears.reaches hvalid hbinds (List.mem_of_getElem? hdriver)
    exact ⟨_, step_handle (hears.drivers ▸ hdriver) hreach hframes⟩
  · have hdriver := List.getElem?_eq_getElem (hears.drivers ▸ hslot)
    exact receive_possible hdriver hidle

/-- The same packet from a stranger and from the remote. -/
def strangerTurns : List RxTurn :=
  let frame := { MotorDriver.strayFrame with extended := false }
  let data := MotorCodec.packetBytes MotorCodec.typeCan2udp [frame]
  [{ driverSlot := 0, now := 3, receipt := .datagram { address := 1, port := 9 } data },
    { driverSlot := 0, now := 5, receipt := .wouldBlock },
    { driverSlot := 0, now := 8, receipt := .datagram { address := 2, port := 9 } data }]

/-- The stranger changes nothing, and of the remote's packet the motor gets its status. -/
theorem remote_alone_is_heard :
    ∃ (runtime : Runtime (Option ℚ)) (actions : List RxAction) (state : Reception (Option ℚ)),
      Runtime.init Runtime.firstIdConfig (fun _ => true) = .ok runtime ∧
      actions.filterMap RxAction.turn? = strangerTurns ∧
      Steps.run (step fun _ => { address := 2, port := 0 }) { runtime } actions = some state ∧
      state.runtime.motors[0]? = some ((deviceOf 0 Runtime.firstIdMotor).applyAll
        [(.brakeStatus { error := .none, engaged := true }, 8)]) := by
  let remote : String → Endpoint := fun _ => { address := 2, port := 0 }
  obtain ⟨runtime, hinit⟩ := Runtime.init_succeeds (F := Option ℚ) Runtime.firstIdConfig
    (fun _ => true) rfl (by decide) (by decide)
  obtain ⟨hvalid, hbinds, _⟩ := Runtime.init_ok hinit
  have hdrivers : runtime.motorDrivers =
      [driverOf (Option ℚ) Runtime.firstIdConfig.motors "can"] := hbinds.drivers
  obtain ⟨actions, state, hrun, hturns, _, hidle⟩ := rxSteps_run remote hvalid hbinds
    strangerTurns (hears_nothing hbinds) (fun _ => rfl) (by rw [hdrivers]; simp [strangerTurns])
  obtain ⟨_, _, _, _, hmotors⟩ := devices_hear_their_own Runtime.firstIdConfig (fun _ => true)
    runtime hinit remote actions state hrun
  obtain ⟨slot, history, _, hdevice, hheard⟩ := hmotors 0 Runtime.firstIdMotor rfl
  refine ⟨runtime, actions, state, hinit, hturns, hrun, hdevice.trans ?_⟩
  have hcarries : MotorCodec.Carries (MotorCodec.packetBytes MotorCodec.typeCan2udp
      [{ MotorDriver.strayFrame with extended := false }])
      [{ MotorDriver.strayFrame with extended := false }] :=
    (MotorCodec.carries_iff _ _).mpr ⟨_, rfl, by decide, by decide, rfl⟩
  have hframes := MotorCodec.framesOf_carries hcarries
  have hsaid : strangerTurns.flatMap (runtime.heard remote Runtime.firstIdMotor) =
      [(.brakeStatus { error := .none, engaged := true }, 8)] := by
    simp only [strangerTurns, List.flatMap_cons, List.flatMap_nil, Runtime.heard, hdrivers,
      List.getElem?_cons_zero, Runtime.driverOf_channelName]
    rw [hframes]
    rfl
  have hnone : state.unheard Runtime.firstIdMotor slot = [] := by
    rw [unheard, hidle, List.filterMap_nil]
  rw [hturns, hsaid, hnone, List.append_nil] at hheard
  rw [hheard]

end Reception

end ServoFleet
