import ServoFleet.FeedbackIsolation
import ServoFleet.MotorSamples
import ServoFleet.RuntimeBinding

/-!
Whether the feedback of every configured motor arrives. The check of the
configuration admits the identifier 0x7FF, which the receive path takes for the
broadcast identifier and drops.

Every configuration that is accepted is meant, with motors that keep their addresses
and models. Acknowledgements are left out, as they go to no motor, and so are
packets that are refused.
-/

namespace ServoFleet.Runtime

variable {F : Type} [FloatArith F]

open MotorDriver

/-- Feedback for motor `k` is complete: each standard frame from its address that
parses as feedback other than an acknowledgement is applied to it exactly once. There is
one call of `apply` for the frame, and the motor is left with what the calls for it have
brought, each once and in their order. -/
def FeedbackComplete (runtime : Runtime F) (k : DeviceRef) (motor : MotorConfig) : Prop :=
  ∀ (driver : MotorDriver) (motors : Motors F) (now : TimePoint) (bytes : List Byte)
    (frames : List CanFrame) (i : Nat) (frame : CanFrame) (response : Feedback F),
    driver ∈ runtime.motorDrivers → driver.channelName = motor.channel →
    identities motors = identities runtime.motors →
    MotorCodec.Carries bytes frames → frames[i]? = some frame →
    frame.extended = false → frame.port = motor.canPort → frame.id = motor.canId →
    (CanCodec.parseFeedback frame (currentRange (findMotorEcSpec motor.model))).run =
      some (.ok response) →
    response.isAck = false →
    ∃ context device, driver.handlePacket bytes now motors = some context ∧
      context.calls.filter (fun call => call.frame = i) =
        [{ frame := i, device := k, response }] ∧
      motors[k]? = some device ∧
      context.motors[k]? =
        some (device.applyAll ((DecodeContext.responsesTo k context.calls).map (·, now)))

/-- The devices of a channel are in memory while their identities are kept. -/
theorem boundTo_holds {options : FleetConfig} {runtime : Runtime F}
    (hbinds : Binds (usedChannels options) options.motors runtime) (motors : Motors F)
    (hsame : identities motors = identities runtime.motors) (channelName : String) :
    Holds motors (boundTo options.motors channelName) := by
  rintro ⟨ref, device⟩ member
  obtain ⟨config, hconfig, _, rfl⟩ := mem_boundTo.mp member
  exact device_in_memory hbinds hsame hconfig

/-- The driver of a channel is the one `init` has bound all its motors to. -/
theorem driver_eq {options : FleetConfig} {runtime : Runtime F}
    (hbinds : Binds (usedChannels options) options.motors runtime) {driver : MotorDriver}
    (member : driver ∈ runtime.motorDrivers) :
    driver = driverOf F options.motors driver.channelName := by
  rw [hbinds.drivers] at member
  obtain ⟨name, _, rfl⟩ := List.mem_map.mp member
  rw [driverOf_channelName]

theorem feedbackComplete_of_standard {options : FleetConfig} {runtime : Runtime F}
    (hvalid : options.Valid) (hbinds : Binds (usedChannels options) options.motors runtime)
    {k : DeviceRef} {motor : MotorConfig} (hk : options.motors[k]? = some motor)
    (hid : motor.canId ≠ broadcastCanId) : FeedbackComplete runtime k motor := by
  intro driver motors now bytes frames i frame response hdriver hchannel hsame hcarries hi
    hstandard hport hcan hparse _
  have hmember : (k, deviceOf k motor) ∈ (boundTo options.motors motor.channel :
      List (_ × MotorDevice F)) := mem_boundTo.mpr ⟨motor, hk, rfl, rfl⟩
  have hdistinct := boundTo_distinct (F := F) hvalid motor.channel
  have hholds := boundTo_holds hbinds motors hsame motor.channel
  have hreach := reaches_bindAll motor.channel _ motors hdistinct hholds
  obtain rfl : driver = driverOf F options.motors motor.channel :=
    hchannel ▸ driver_eq hbinds hdriver
  have hroute := findRoute_bound { channelName := motor.channel } _ hdistinct hmember
  have hdelivery : (driverOf F options.motors motor.channel).delivery frame =
      some (k, response) := by
    refine delivery_of_route (hcan ▸ hid) ?_ hparse
    rw [hport, hcan]
    exact hroute
  obtain ⟨device, hdevice, _⟩ := hholds _ hmember
  refine ⟨_, device, handlePacket_eq _ bytes frames now motors hcarries hreach, ?_, hdevice, ?_⟩
  · have hcalls := DecodeContext.callsFrom_filter 0 i
      (frames.map (driverOf F options.motors motor.channel).delivery :
        List (Option (_ × Feedback F)))
    rw [Nat.zero_add, List.getElem?_map, hi, Option.map_some, hdelivery] at hcalls
    rw [DecodeContext.deliverAll_calls, List.nil_append]
    exact hcalls
  · rw [DecodeContext.deliverAll_motor, DecodeContext.deliverAll_calls, List.nil_append,
      DecodeContext.responsesTo_callsFrom, hdevice, Option.map_some, MotorDevice.applyAll,
      List.foldl_map]

/-- A brake status response of the motor at identifier 0x7FF of a port. -/
def statusAtBroadcast (port : CanPort) : CanFrame where
  port
  id := broadcastCanId
  data := MotorDriver.strayFrame.data
  len := 2

theorem statusAtBroadcast_parses (port : CanPort) (range : Option (Range F)) :
    (CanCodec.parseFeedback (statusAtBroadcast port) range).run =
      some (.ok (.brakeStatus { error := .none, engaged := true })) := rfl

theorem statusAtBroadcast_carries (port : CanPort) : MotorCodec.Carries
    (MotorCodec.packetBytes MotorCodec.typeCan2udp [statusAtBroadcast port])
    [statusAtBroadcast port] := by
  refine (MotorCodec.carries_iff _ _).mpr ⟨_, rfl, by simp [maxFramesPerPacket], ?_, rfl⟩
  intro frame member
  obtain rfl := List.mem_singleton.mp member
  rfl

/-- The driver of a channel drops what comes from the broadcast identifier. -/
theorem broadcast_dropped {options : FleetConfig} {runtime : Runtime F} (hvalid : options.Valid)
    (hbinds : Binds (usedChannels options) options.motors runtime) (motor : MotorConfig) :
    ∃ context, (driverOf F options.motors motor.channel).handlePacket
        (MotorCodec.packetBytes MotorCodec.typeCan2udp [statusAtBroadcast motor.canPort])
        0 runtime.motors = some context ∧
      context.calls = [] ∧ context.motors = runtime.motors := by
  have hreach := reaches_bindAll motor.channel _ runtime.motors
    (boundTo_distinct (F := F) hvalid motor.channel)
    (boundTo_holds hbinds runtime.motors rfl motor.channel)
  exact ⟨_, handlePacket_eq _ _ _ 0 runtime.motors (statusAtBroadcast_carries motor.canPort)
    hreach, rfl, rfl⟩

/-- A motor at the broadcast identifier gets none of its feedback. -/
theorem not_feedbackComplete_of_broadcast {options : FleetConfig} {runtime : Runtime F}
    (hvalid : options.Valid) (hbinds : Binds (usedChannels options) options.motors runtime)
    {k : DeviceRef} {motor : MotorConfig} (hk : options.motors[k]? = some motor)
    (hid : motor.canId = broadcastCanId) : ¬ FeedbackComplete runtime k motor := by
  intro hcomplete
  have hused := channel_used hvalid (List.mem_of_getElem? hk)
  have hdriver : driverOf F options.motors motor.channel ∈ runtime.motorDrivers := by
    rw [hbinds.drivers]
    exact List.mem_map_of_mem hused
  obtain ⟨context, _, hrun, hcalls, _⟩ := hcomplete _ runtime.motors 0 _ _ 0
    (statusAtBroadcast motor.canPort) _ hdriver (driverOf_channelName _ _) rfl
    (statusAtBroadcast_carries motor.canPort) rfl rfl rfl hid.symm
    (statusAtBroadcast_parses _ _) rfl
  obtain ⟨dropped, hdropped, hnone, _⟩ := broadcast_dropped hvalid hbinds motor
  obtain rfl := Option.some.inj (hdropped.symm.trans hrun)
  rw [hnone] at hcalls
  cases hcalls

/-- In every runtime that came up, a motor's feedback is complete exactly when its
identifier is not the broadcast one: after any packet that is accepted, from any state of
the motors, the feedback is in the state of the motor. The configuration check admits the
broadcast identifier, and a motor there hears nothing. -/
theorem feedback_complete_iff (options : FleetConfig) (opens : ChannelConfig → Bool)
    (runtime : Runtime F) (hinit : init options opens = .ok runtime) (k : DeviceRef)
    (motor : MotorConfig) (hk : options.motors[k]? = some motor) :
    FeedbackComplete runtime k motor ↔ motor.canId ≠ broadcastCanId := by
  obtain ⟨hvalid, hbinds, _⟩ := init_ok hinit
  constructor
  · exact fun hcomplete hid => not_feedbackComplete_of_broadcast hvalid hbinds hk hid hcomplete
  · exact fun hid => feedbackComplete_of_standard hvalid hbinds hk hid

/-! ## A motor at the last standard identifier -/

def lastIdMotor : MotorConfig where
  name := "motor"
  channel := "can"
  model := "EC-A4310-P2-36"
  canId := 0x7FF

def lastIdConfig : FleetConfig where
  channels := [{ name := "can" }]
  motors := [lastIdMotor]

/-- The configuration is accepted, and the feedback of its motor is dropped: the packet
leaves the motors as they were. -/
theorem last_id_gets_no_feedback :
    lastIdConfig.validateConfig = .ok () ∧
      ∃ runtime : Runtime (Option ℚ), init lastIdConfig (fun _ => true) = .ok runtime ∧
        (∃ driver ∈ runtime.motorDrivers, ∃ context, driver.handlePacket
            (MotorCodec.packetBytes MotorCodec.typeCan2udp [statusAtBroadcast 0])
            0 runtime.motors = some context ∧ context.motors = runtime.motors) ∧
        ¬ ∀ k motor, lastIdConfig.motors[k]? = some motor → FeedbackComplete runtime k motor := by
  have hvalid : lastIdConfig.validateConfig = .ok () := rfl
  obtain ⟨runtime, hinit⟩ := init_succeeds (F := Option ℚ) lastIdConfig (fun _ => true)
    hvalid (by decide) (by decide)
  obtain ⟨hspec, hbinds, _⟩ := init_ok hinit
  refine ⟨hvalid, runtime, hinit, ?_, fun hall => ?_⟩
  · obtain ⟨context, hrun, _, hsame⟩ := broadcast_dropped hspec hbinds lastIdMotor
    refine ⟨driverOf (Option ℚ) lastIdConfig.motors "can", ?_, context, hrun, hsame⟩
    rw [hbinds.drivers]
    exact List.mem_map_of_mem (.head _)
  exact not_feedbackComplete_of_broadcast hspec hbinds rfl rfl (hall 0 _ rfl)

def firstIdMotor : MotorConfig := { lastIdMotor with canId := 1 }

def firstIdConfig : FleetConfig := { lastIdConfig with motors := [firstIdMotor] }

theorem first_id_gets_feedback :
    ∃ runtime : Runtime (Option ℚ), init firstIdConfig (fun _ => true) = .ok runtime ∧
      FeedbackComplete runtime 0 firstIdMotor := by
  obtain ⟨runtime, hinit⟩ := init_succeeds (F := Option ℚ) firstIdConfig (fun _ => true) rfl
    (by decide) (by decide)
  exact ⟨runtime, hinit,
    (feedback_complete_iff firstIdConfig _ runtime hinit 0 firstIdMotor rfl).mpr (by decide)⟩

end ServoFleet.Runtime
