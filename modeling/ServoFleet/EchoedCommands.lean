import ServoFleet.CommandKinds
import ServoFleet.FeedbackIsolation
import ServoFleet.SendPackets

/-!
A sent packet that comes back. The receive path does not look at the direction of a
packet, so an echoed command is judged by its frame alone: its mode code is read as
the type of a feedback.

The commands are any that encode, to motors the driver has bound.
-/

namespace ServoFleet

namespace CanCodec

open CanField

/-- The types and lengths of responses other than answers to queries. -/
def ResponseShape (type len : Nat) : Prop :=
  (1 ≤ len ∧ len ≤ 8) ∧
    ((type = 1 ∨ type = 2 ∨ type = 3) ∧ len = 8 ∨ type = 4 ∧ 3 ≤ len ∨ type = 6 ∧ 2 ≤ len)

instance (type len : Nat) : Decidable (ResponseShape type len) :=
  inferInstanceAs (Decidable (_ ∧ _))

theorem isResponse_iff {frame : CanFrame} (h : frame.responseType ≠ 5) :
    frame.IsResponse ↔ ResponseShape frame.responseType frame.len.toNat := by
  simp only [CanFrame.IsResponse, ResponseShape, maxCanDataLen, h, false_and, or_false]

/-- The commands whose frames parse as feedback: a position command has the type and the
length of a status, a configuration those of a brake status. -/
def PassesAsFeedback : MotorCommand → Prop
  | .position _ | .configSet _ => True
  | _ => False

theorem configLayout_len {code : ConfigSetCode} {value : ConfigSetValue}
    (h : ConfigAccepted code value) :
    2 ≤ (configLayout code value).len.toNat ∧ (configLayout code value).len.toNat ≤ 8 := by
  cases value with
  | rangeFloat range =>
      obtain ⟨scale, hscale, _⟩ := h
      simp only [configLayout, hscale]
      exact (by decide : 2 ≤ (6 : Byte).toNat ∧ (6 : Byte).toNat ≤ 8)
  | gains gains =>
      obtain ⟨scale, second, hscale, _⟩ := h
      simp only [configLayout, hscale]
      exact (by decide : 2 ≤ (6 : Byte).toNat ∧ (6 : Byte).toNat ≤ 8)
  | float value => exact (by decide : 2 ≤ (4 : Byte).toNat ∧ (4 : Byte).toNat ≤ 8)
  | mode value => exact (by decide : 2 ≤ (3 : Byte).toNat ∧ (3 : Byte).toNat ≤ 8)
  | double value => exact (by decide : 2 ≤ (4 : Byte).toNat ∧ (4 : Byte).toNat ≤ 8)
  | rangeU16 range => exact (by decide : 2 ≤ (6 : Byte).toNat ∧ (6 : Byte).toNat ≤ 8)
  | milliseconds count => exact (by decide : 2 ≤ (4 : Byte).toNat ∧ (4 : Byte).toNat ≤ 8)

/-- The mode code of a command is the type that a receiver sees. -/
theorem sent_responseType (build : FloatBuild) {command : MotorCommand} (h : Accepted command)
    (address : CanAddr) :
    ((sent build command).frame address).responseType = (modeCode command).raw.toNat := by
  rw [← CanFrame.get_type]
  exact congrArg BitVec.toNat (get_mode build h address)

theorem sent_len (build : FloatBuild) (command : MotorCommand) (address : CanAddr) :
    ((sent build command).frame address).len = (sent build command).len :=
  (CanFrame.fill_address _ _).2.2.2

theorem modeCode_ne_query (command : MotorCommand) : (modeCode command).raw.toNat ≠ 5 := by
  cases modeCode command <;> decide

/-- Every kind of command against every kind of feedback. -/
theorem sent_isResponse_iff (build : FloatBuild) {command : MotorCommand} (h : Accepted command)
    (address : CanAddr) :
    ((sent build command).frame address).IsResponse ↔ PassesAsFeedback command := by
  have htype := sent_responseType build h address
  rw [isResponse_iff (by rw [htype]; exact modeCode_ne_query command), htype, sent_len]
  cases command with
  | pvt command => exact iff_of_false (by decide : ¬ ResponseShape 0 8) id
  | position command => exact iff_of_true (by decide : ResponseShape 1 8) trivial
  | velocity command => exact iff_of_false (by decide : ¬ ResponseShape 2 7) id
  | torque command => exact iff_of_false (by decide : ¬ ResponseShape 3 3) id
  | current command => exact iff_of_false (by decide : ¬ ResponseShape 3 3) id
  | brake command =>
      obtain ⟨deviceId, control, reply⟩ := command
      cases control with
      | damping => exact iff_of_false (by decide : ¬ ResponseShape 3 3) id
      | energy threshold => exact iff_of_false (by decide : ¬ ResponseShape 3 3) id
      | regen threshold => exact iff_of_false (by decide : ¬ ResponseShape 3 3) id
      | engage isOpen => exact iff_of_false (by decide : ¬ ResponseShape 4 2) id
  | configSet command =>
      obtain ⟨hlow, hhigh⟩ := configLayout_len h
      have hshape : ResponseShape 6 (configLayout command.code command.value).len.toNat :=
        ⟨⟨by omega, hhigh⟩, .inr (.inr ⟨rfl, hlow⟩)⟩
      exact iff_of_true hshape trivial
  | configQuery command => exact iff_of_false (by decide : ¬ ResponseShape 7 2) id

end CanCodec

namespace MotorDriver

open CanCodec

variable {F : Type} [FloatArith F]

/-- A command for a device that is bound under a reference. -/
structure Sent (F : Type) where
  ref : DeviceRef
  device : MotorDevice F
  command : MotorCommand

/-- The frames are what `encode` makes of the commands in some build, each for its device's
address. -/
def Encodes (sents : List (Sent F)) (frames : List CanFrame) : Prop :=
  List.Forall₂ (fun sent frame => ∃ build start,
    encodeWith build sent.device.addr sent.command start = some (.ok (), frame)) sents frames

/-- The echo of the command reaches its motor. -/
def Echoes (sent : Sent F) : Prop :=
  PassesAsFeedback sent.command ∧ sent.device.addr.canId ≠ broadcastCanId

/-- The packet is handled without changing any bound motor. -/
def LeavesAlone (driver : MotorDriver) (bytes : List Byte) (now : TimePoint) (motors : Motors F)
    (bound : List (DeviceRef × MotorDevice F)) : Prop :=
  ∃ context, driver.handlePacket bytes now motors = some context ∧
    ∀ entry ∈ bound, context.motors[entry.1]? = motors[entry.1]?

/-- What `send` has committed is a packet of its frames. -/
theorem send_carries {reply : ChannelReply} {frames : List CanFrame} {offer : Offer}
    {bytes : List Byte} (hsend : send reply frames = some offer)
    (hbytes : offer.committed = some bytes) : MotorCodec.Carries bytes frames := by
  have hwrites : MotorCodec.Writes MotorCodec.typeUdp2can frames bytes := by
    unfold send at hsend
    split_ifs at hsend
    · obtain rfl := Option.some.inj hsend
      cases hbytes
    cases hprepare : reply.prepare with
    | error refusal =>
        simp only [hprepare] at hsend
        obtain rfl := Option.some.inj hsend
        cases hbytes
    | ok buffer =>
        simp only [hprepare, Option.bind_eq_bind, Option.bind_eq_some_iff] at hsend
        obtain ⟨⟨encodedSize, packet⟩, hencode, hrest⟩ := hsend
        cases encodedSize with
        | error err =>
            obtain rfl := Option.some.inj hrest
            cases hbytes
        | ok size =>
            cases hcommit : reply.commitSend size with
            | error err =>
                simp only [hcommit] at hrest
                obtain rfl := Option.some.inj hrest
                cases hbytes
            | ok _ =>
                simp only [hcommit] at hrest
                obtain rfl := Option.some.inj hrest
                exact ⟨_, size, packet, hencode, (Option.some.inj hbytes).symm⟩
  obtain ⟨hcount, hvalid, hpacket⟩ := (MotorCodec.writes_iff _ _ _).mp hwrites
  exact (MotorCodec.carries_iff _ _).mpr ⟨_, rfl, hcount, hvalid, hpacket⟩

theorem delivery_refused {driver : MotorDriver} {frame : CanFrame} {ref : DeviceRef}
    {spec : Option MotorEcSpec} {err : FleetErr}
    (hroute : driver.findRoute frame.port frame.id = some (ref, spec))
    (hparse : (parseFeedback frame (currentRange spec : Option (Range F))).run =
      some (.error err)) :
    (driver.delivery frame : Option (DeviceRef × Feedback F)) = none := by
  unfold delivery
  split_ifs
  · rfl
  · rw [hroute]
    simp only [hparse]

/-- The delivery of an encoded command. -/
theorem delivery_encoded (name : String) (bound : List (DeviceRef × MotorDevice F))
    (hdistinct : (bound.map fun entry => entry.2.addr).Nodup) {sent : Sent F}
    (hbound : (sent.ref, sent.device) ∈ bound) {build : FloatBuild} {start frame : CanFrame}
    (hrun : encodeWith build sent.device.addr sent.command start = some (.ok (), frame)) :
    (Echoes sent → ∃ response : Feedback F,
      (bindAll { channelName := name } bound).delivery frame = some (sent.ref, response)) ∧
    (¬ Echoes sent → ((bindAll { channelName := name } bound).delivery frame :
      Option (DeviceRef × Feedback F)) = none) := by
  obtain ⟨haccepted, hframe⟩ := accepted_of_encodeWith hrun
  have hresponse := sent_isResponse_iff build haccepted sent.device.addr
  rw [← hframe] at hresponse
  have hport : frame.port = sent.device.addr.canPort := by
    rw [hframe]
    exact (CanFrame.fill_address _ _).1
  have hid : frame.id = sent.device.addr.canId := by
    rw [hframe]
    exact (CanFrame.fill_address _ _).2.1
  have hroute := findRoute_bound { channelName := name } bound hdistinct hbound
  rw [← hport, ← hid] at hroute
  unfold Echoes
  rw [← hid, ← hresponse]
  by_cases hbroadcast : frame.id = broadcastCanId
  · refine ⟨fun h => absurd hbroadcast h.2, fun _ => ?_⟩
    rw [delivery, if_pos hbroadcast]
  · have hack : ¬ frame.IsBroadcastAck := fun h => hbroadcast h.1
    rcases parseFeedback_outcome frame (currentRange sent.device.ecSpec : Option (Range F)) hack
      with ⟨hyes, response, hparse, _⟩ | ⟨hunknown, hparse⟩ | ⟨hno, _, hparse⟩
    · exact ⟨fun _ => ⟨response, delivery_of_route hbroadcast hroute hparse⟩,
        fun h => absurd ⟨hyes, hbroadcast⟩ h⟩
    · exact ⟨fun h => absurd hunknown (not_unknown_of_response h.1),
        fun _ => delivery_refused hroute hparse⟩
    · exact ⟨fun h => absurd h.1 hno, fun _ => delivery_refused hroute hparse⟩

/-- Some feedbacks leave a trace in the sequence number. -/
theorem foldl_apply_seq (device : MotorDevice F) (responses : List (Feedback F))
    (now : TimePoint) :
    (responses.foldl (fun device response => (device.apply response now).1) device).sampleSeq =
      device.sampleSeq + BitVec.ofNat 64 responses.length := by
  induction responses generalizing device with
  | nil => exact (BitVec.add_zero _).symm
  | cons response rest ih =>
      rw [List.foldl_cons, ih, (device.apply_identity response now).1, List.length_cons,
        BitVec.add_assoc, Nat.add_comm, BitVec.ofNat_add]
      rfl

/-- What one packet delivers to a motor is too little for the sequence number to come round. -/
theorem motor_unchanged_iff (motors : Motors F) (now : TimePoint)
    (deliveries : List (Option (DeviceRef × Feedback F))) (k : DeviceRef) {device : MotorDevice F}
    (hk : motors[k]? = some device) (hcount : deliveries.length ≤ maxFramesPerPacket) :
    (({ receivedAt := now, motors } : DecodeContext F).deliverAll deliveries).motors[k]? =
      motors[k]? ↔ DecodeContext.received k deliveries = [] := by
  rw [DecodeContext.deliverAll_motor, hk, Option.map_some, Option.some.injEq]
  constructor
  · intro hsame
    have hfew : (DecodeContext.received k deliveries).length < 2 ^ 64 := by
      apply lt_of_le_of_lt ((List.length_filterMap_le _ deliveries).trans hcount)
      decide
    have hseq := congrArg MotorDevice.sampleSeq hsame
    rw [foldl_apply_seq] at hseq
    have hzero : (DecodeContext.received k deliveries).length = 0 := by
      bv_omega
    exact List.length_eq_zero_iff.mp hzero
  · intro hnone
    rw [hnone]
    rfl

omit [FloatArith F] in
theorem Encodes.frame_of {sents : List (Sent F)} {frames : List CanFrame}
    (h : Encodes sents frames) {sent : Sent F} (member : sent ∈ sents) :
    ∃ frame ∈ frames, ∃ build start,
      encodeWith build sent.device.addr sent.command start = some (.ok (), frame) := by
  obtain ⟨index, hindex, rfl⟩ := List.mem_iff_getElem.mp member
  obtain ⟨hlength, hget⟩ := List.forall₂_iff_get.mp h
  obtain ⟨build, start, hrun⟩ := hget index hindex (hlength ▸ hindex)
  exact ⟨_, List.getElem_mem _, build, start, hrun⟩

omit [FloatArith F] in
theorem Encodes.sent_of {sents : List (Sent F)} {frames : List CanFrame}
    (h : Encodes sents frames) {frame : CanFrame} (member : frame ∈ frames) :
    ∃ sent ∈ sents, ∃ build start,
      encodeWith build sent.device.addr sent.command start = some (.ok (), frame) := by
  obtain ⟨index, hindex, rfl⟩ := List.mem_iff_getElem.mp member
  obtain ⟨hlength, hget⟩ := List.forall₂_iff_get.mp h
  obtain ⟨build, start, hrun⟩ := hget index (hlength ▸ hindex) hindex
  exact ⟨_, List.getElem_mem _, build, start, hrun⟩

section Echo

variable (name : String) (bound : List (DeviceRef × MotorDevice F)) (motors : Motors F)
  (hdistinct : (bound.map fun entry => entry.2.addr).Nodup)
  (hmemory : Holds motors bound) (now : TimePoint) (sents : List (Sent F))
  (hbound : ∀ sent ∈ sents, (sent.ref, sent.device) ∈ bound) (frames : List CanFrame)
  (hframes : Encodes sents frames) (bytes : List Byte) (hcarries : MotorCodec.Carries bytes frames)

include hdistinct hmemory hbound hframes hcarries

theorem changed_of_echo {sent : Sent F} (member : sent ∈ sents) (hecho : Echoes sent) :
    ¬ LeavesAlone (bindAll { channelName := name } bound) bytes now motors bound := by
  rintro ⟨context, hrun, hsame⟩
  have hreach := reaches_bindAll name bound motors hdistinct hmemory
  rw [handlePacket_eq _ _ _ _ _ hcarries hreach, Option.some.injEq] at hrun
  obtain ⟨frame, hframe, build, start, hencode⟩ := hframes.frame_of member
  obtain ⟨response, hdelivery⟩ :=
    (delivery_encoded name bound hdistinct (hbound sent member) hencode).1 hecho
  obtain ⟨device, hdevice, _⟩ := hmemory _ (hbound sent member)
  obtain ⟨_, _, hcount, _⟩ := (MotorCodec.carries_iff _ _).mp hcarries
  have hunchanged := hsame _ (hbound sent member)
  rw [← hrun] at hunchanged
  have hnone := (motor_unchanged_iff motors now _ sent.ref hdevice
    (by rwa [List.length_map])).mp hunchanged
  have hmem : response ∈ DecodeContext.received sent.ref
      (frames.map (bindAll { channelName := name } bound).delivery) := by
    apply List.mem_filterMap.mpr
    exact ⟨_, List.mem_map.mpr ⟨frame, hframe, hdelivery⟩, if_pos rfl⟩
  rw [hnone] at hmem
  cases hmem

theorem echo_leaves_alone_iff :
    LeavesAlone (bindAll { channelName := name } bound) bytes now motors bound ↔
      ∀ sent ∈ sents, ¬ Echoes sent := by
  constructor
  · intro halone sent member hecho
    exact changed_of_echo name bound motors hdistinct hmemory now sents hbound frames hframes
      bytes hcarries member hecho halone
  · intro hsilent
    have hreach := reaches_bindAll name bound motors hdistinct hmemory
    refine ⟨_, handlePacket_eq _ _ _ _ _ hcarries hreach, ?_⟩
    intro entry member
    obtain ⟨device, hdevice, _⟩ := hmemory entry member
    obtain ⟨_, _, hcount, _⟩ := (MotorCodec.carries_iff _ _).mp hcarries
    apply (motor_unchanged_iff motors now _ entry.1 hdevice (by rwa [List.length_map])).mpr
    apply List.filterMap_eq_nil_iff.mpr
    intro delivered hdelivered
    obtain ⟨frame, hframe, rfl⟩ := List.mem_map.mp hdelivered
    obtain ⟨sent, hsent, build, start, hencode⟩ := hframes.sent_of hframe
    rw [(delivery_encoded name bound hdistinct (hbound sent hsent) hencode).2
      (hsilent sent hsent), Option.bind_none]

end Echo

/-- The packet that `send` makes of commands to bound motors is harmless to the driver
that sent it when it holds no position command and no configuration, but for broadcasts.
What another driver would make of it is left out. -/
theorem echo_harmless_iff (name : String) (bound : List (DeviceRef × MotorDevice F))
    (motors : Motors F) (hdistinct : (bound.map fun entry => entry.2.addr).Nodup)
    (hmemory : Holds motors bound) (now : TimePoint) (sents : List (Sent F))
    (hbound : ∀ sent ∈ sents, (sent.ref, sent.device) ∈ bound) (frames : List CanFrame)
    (hframes : Encodes sents frames) (reply : ChannelReply) (offer : Offer) (bytes : List Byte)
    (hsend : send reply frames = some offer) (hbytes : offer.committed = some bytes) :
    LeavesAlone (bindAll { channelName := name } bound) bytes now motors bound ↔
      ∀ sent ∈ sents, ¬ Echoes sent :=
  echo_leaves_alone_iff name bound motors hdistinct hmemory now sents hbound frames hframes bytes
    (send_carries hsend hbytes)

/-! ## A command that comes back -/

/-- A channel with a free slot. -/
def freeSlot : ChannelReply :=
  { prepare := .ok (Vector.replicate motorUdpPacketCap 0), commit := .ok () }

theorem send_freeSlot (frames : List CanFrame) (hsome : frames ≠ [])
    (hcount : frames.length ≤ maxFramesPerPacket) (hvalid : ∀ frame ∈ frames, frame.valid = true) :
    ∃ offer bytes, send freeSlot frames = some offer ∧ offer.committed = some bytes := by
  obtain ⟨offer, hsend, _, hsound⟩ := send_sound freeSlot frames hsome hcount hvalid
  have hcode : offer.code = .ok () := hsound.code
  rcases hsound.outcome with ⟨_, bytes, hbytes, _⟩ | ⟨refusal, hrefused, _⟩
  · exact ⟨offer, bytes, hsend, hbytes⟩
  · rw [hcode] at hrefused
    cases hrefused

/-- A command to the motor with standard identifier 1. -/
def sentTo (command : MotorCommand) : Sent (Option ℚ) :=
  { ref := 0, device := strayMotor, command }

theorem sentTo_bound (command : MotorCommand) :
    ∀ sent ∈ [sentTo command], (sent.ref, sent.device) ∈ [((0 : DeviceRef), strayMotor)] := by
  intro sent member
  obtain rfl := List.mem_singleton.mp member
  exact List.mem_singleton.mpr rfl

/-- A position command at rest. -/
def restPosition : MotorCommand :=
  .position { deviceId := 0, positionDeg := {}, velocityLimitRpm := {}, currentLimit := {} }

def restFrame : CanFrame :=
  { id := 1, data := #v[0x20, 0, 0, 0, 0, 0, 0, 1], len := 8 }

/-- The position command comes back as a status of its motor. -/
theorem position_echo_reaches_motor :
    Encodes [sentTo restPosition] [restFrame] ∧
      ∃ offer bytes, send freeSlot [restFrame] = some offer ∧ offer.committed = some bytes ∧
        ¬ LeavesAlone (bindAll { channelName := "can" } [(0, strayMotor)]) bytes 0
          [strayMotor] [(0, strayMotor)] := by
  have hencodes : Encodes [sentTo restPosition] [restFrame] :=
    .cons ⟨.folded, {}, by decide +kernel⟩ .nil
  obtain ⟨offer, bytes, hsend, hbytes⟩ :=
    send_freeSlot [restFrame] (by decide) (by decide) (by decide)
  refine ⟨hencodes, offer, bytes, hsend, hbytes, ?_⟩
  apply changed_of_echo "can" [(0, strayMotor)] [strayMotor] (by decide) strayMotor_holds 0
    _ (sentTo_bound restPosition) _ hencodes bytes (send_carries hsend hbytes)
    List.mem_cons_self
  exact ⟨trivial, by decide⟩

/-- A velocity command comes back to no effect. -/
theorem velocity_echo_harmless :
    ∃ offer bytes,
      send freeSlot [{ id := 1, data := #v[0x41, 0, 0, 0, 0, 0, 0, 0], len := 7 }] = some offer ∧
        offer.committed = some bytes ∧
        LeavesAlone (bindAll { channelName := "can" } [(0, strayMotor)]) bytes 0
          [strayMotor] [(0, strayMotor)] := by
  obtain ⟨offer, bytes, hsend, hbytes⟩ :=
    send_freeSlot [{ id := 1, data := #v[0x41, 0, 0, 0, 0, 0, 0, 0], len := 7 }] (by decide)
      (by decide) (by decide)
  refine ⟨offer, bytes, hsend, hbytes, ?_⟩
  apply (echo_harmless_iff "can" [(0, strayMotor)] [strayMotor] (by decide) strayMotor_holds 0
    [sentTo (.velocity { deviceId := 0, velocityRpm := {}, currentLimit := {} })] (sentTo_bound _)
    _ (.cons ⟨.folded, {}, by decide +kernel⟩ .nil) freeSlot offer bytes hsend hbytes).mpr
  intro sent member hecho
  obtain rfl := List.mem_singleton.mp member
  exact hecho.1

end MotorDriver

end ServoFleet
