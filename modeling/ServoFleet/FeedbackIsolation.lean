import ServoFleet.MotorReceive

/-!
Which frames of a packet reach a motor. The routing table is indexed by port and
identifier only, so an extended frame with the numbers of a motor is taken for one
of its own.

The driver has any motors at distinct addresses. Packets that are refused are left
out: the frames before the error have been handled by then.
-/

namespace ServoFleet.MotorDriver

variable {F : Type} [FloatArith F]

/-- A standard frame from the address. -/
def ownFrame (address : CanAddr) (frame : CanFrame) : Bool :=
  !frame.extended && frame.port = address.canPort && frame.id = address.canId

/-- The state of motor `k` depends on its own frames of the packet only: no
other frame changes it, and a packet of just its own frames has the same effect. -/
structure Isolated (driver : MotorDriver) (now : TimePoint) (motors : Motors F) (k : DeviceRef)
    (address : CanAddr) (bytes : List Byte) (frames : List CanFrame) : Prop where
  others : ∀ before frame after context, frames = before ++ frame :: after →
    ownFrame address frame = false →
    before.foldlM driver.handleDecodedFrame { receivedAt := now, motors } = some context →
    ∃ next, driver.handleDecodedFrame context frame = some next ∧
      next.motors[k]? = context.motors[k]?
  own : ∀ ownBytes, MotorCodec.Carries ownBytes (frames.filter (ownFrame address)) →
    ∃ whole part, driver.handlePacket bytes now motors = some whole ∧
      driver.handlePacket ownBytes now motors = some part ∧ whole.motors[k]? = part.motors[k]?

/-- An extended frame of the packet has the numbers of the motor and parses as feedback. -/
def Impersonated (device : MotorDevice F) (frames : List CanFrame) : Prop :=
  ∃ frame ∈ frames, frame.extended = true ∧ frame.port = device.addr.canPort ∧
    frame.id = device.addr.canId ∧ frame.id ≠ broadcastCanId ∧
    ∃ response, (CanCodec.parseFeedback frame (currentRange device.ecSpec)).run =
      some (.ok (response : Feedback F))

theorem delivery_some {driver : MotorDriver} {frame : CanFrame} {ref : DeviceRef}
    {response : Feedback F} (h : driver.delivery frame = some (ref, response)) :
    frame.id ≠ broadcastCanId ∧ ∃ spec, driver.findRoute frame.port frame.id = some (ref, spec) ∧
      (CanCodec.parseFeedback frame (currentRange spec)).run = some (.ok response) := by
  unfold delivery at h
  split_ifs at h with hid
  refine ⟨hid, ?_⟩
  cases hroute : driver.findRoute frame.port frame.id with
  | none =>
      rw [hroute] at h
      cases h
  | some route =>
      obtain ⟨ref', spec⟩ := route
      simp only [hroute] at h
      split at h
      · rename_i parsed hparse
        obtain ⟨rfl, rfl⟩ := Prod.mk.inj (Option.some.inj h)
        exact ⟨spec, rfl, hparse⟩
      · cases h

theorem delivery_of_route {driver : MotorDriver} {frame : CanFrame} {ref : DeviceRef}
    {spec : Option MotorEcSpec} {response : Feedback F} (hid : frame.id ≠ broadcastCanId)
    (hroute : driver.findRoute frame.port frame.id = some (ref, spec))
    (hparse : (CanCodec.parseFeedback frame (currentRange spec)).run = some (.ok response)) :
    driver.delivery frame = some (ref, response) := by
  rw [delivery, if_neg hid, hroute]
  simp only [hparse]

section Bound

variable (name : String) (bound : List (DeviceRef × MotorDevice F)) (motors : Motors F)
  (hdistinct : (bound.map fun entry => entry.2.addr).Nodup)
  (hmemory : Holds motors bound)

include hdistinct hmemory

/-- What a bound motor is delivered comes from its address. -/
theorem delivery_bound {k : DeviceRef} {device : MotorDevice F} (hk : (k, device) ∈ bound)
    {frame : CanFrame} {response : Feedback F}
    (h : (bindAll { channelName := name } bound).delivery frame = some (k, response)) :
    frame.id ≠ broadcastCanId ∧ frame.port = device.addr.canPort ∧
      frame.id = device.addr.canId ∧
      (CanCodec.parseFeedback frame (currentRange device.ecSpec)).run = some (.ok response) := by
  obtain ⟨hid, spec, hroute, hparse⟩ := delivery_some h
  obtain ⟨device', member, haddr, rfl⟩ := findRoute_some name bound hdistinct hroute
  obtain ⟨current, hcurrent, hsame⟩ := hmemory _ hk
  obtain ⟨current', hcurrent', hsame'⟩ := hmemory _ member
  rw [hcurrent] at hcurrent'
  obtain rfl := Option.some.inj hcurrent'
  rw [← hsame.1, hsame'.1, haddr, ← hsame.2, hsame'.2]
  exact ⟨hid, rfl, rfl, hparse⟩

/-- Without an impersonating frame only own frames are delivered to a motor. -/
theorem delivery_own {k : DeviceRef} {device : MotorDevice F} (hk : (k, device) ∈ bound)
    {frames : List CanFrame} (hclean : ¬ Impersonated device frames) (frame : CanFrame)
    (member : frame ∈ frames) (hother : ownFrame device.addr frame = false)
    (response : Feedback F) :
    (bindAll { channelName := name } bound).delivery frame ≠ some (k, response) := by
  intro h
  obtain ⟨hid, hport, hcan, hparse⟩ := delivery_bound name bound motors hdistinct hmemory hk h
  cases hextended : frame.extended with
  | false => simp [ownFrame, hextended, hport, hcan] at hother
  | true => exact hclean ⟨frame, member, hextended, hport, hcan, hid, response, hparse⟩

end Bound

/-- Frames that deliver nothing to a motor can be left out. -/
theorem received_filter (driver : MotorDriver) (k : DeviceRef) (keep : CanFrame → Bool)
    (frames : List CanFrame) (h : ∀ frame ∈ frames, keep frame = false →
      ∀ response : Feedback F, driver.delivery frame ≠ some (k, response)) :
    DecodeContext.received k (frames.map driver.delivery : List (Option (_ × Feedback F))) =
      DecodeContext.received k ((frames.filter keep).map driver.delivery) := by
  induction frames with
  | nil => rfl
  | cons frame rest ih =>
      have hrest := ih fun frame member => h frame (List.mem_cons_of_mem _ member)
      by_cases hkeep : keep frame = true
      · rw [List.filter_cons_of_pos hkeep, List.map_cons, List.map_cons]
        simp only [DecodeContext.received, List.filterMap_cons] at hrest ⊢
        rw [hrest]
      · have hnone := h frame List.mem_cons_self (by simpa using hkeep)
        rw [List.filter_cons_of_neg hkeep, List.map_cons, ← hrest]
        apply List.filterMap_cons_none
        cases hdelivery : (driver.delivery frame : Option (_ × Feedback F)) with
        | none => rfl
        | some entry =>
            rw [Option.bind_some, if_neg]
            rintro rfl
            exact hnone entry.2 hdelivery

/-- Applying a feedback is visible in the state of its device. -/
theorem deliver_changes (context : DecodeContext F) (k : DeviceRef) (response : Feedback F)
    {device : MotorDevice F} (h : context.motors[k]? = some device) :
    (context.deliver (some (k, response))).motors[k]? ≠ context.motors[k]? := by
  intro hsame
  rw [DecodeContext.deliver, List.getElem?_modify_eq, h, Option.map_eq_map, Option.map_some]
    at hsame
  have hseq := congrArg MotorDevice.sampleSeq (Option.some.inj hsame)
  rw [(device.apply_identity response context.receivedAt).1] at hseq
  have hone : ∀ seq : BitVec 64, seq + 1 ≠ seq := by
    intro seq heq
    bv_omega
  exact hone _ hseq

/-- A motor's feedback is isolated in exactly the packets without an extended frame that
passes for one of the motor's own. It is the state of the motor that is compared, after
any packet that is accepted. -/
theorem feedback_isolated_iff (name : String) (bound : List (DeviceRef × MotorDevice F))
    (motors : Motors F) (hdistinct : (bound.map fun entry => entry.2.addr).Nodup)
    (hmemory : Holds motors bound) (now : TimePoint)
    (bytes : List Byte) (frames : List CanFrame) (hcarries : MotorCodec.Carries bytes frames)
    (k : DeviceRef) (device : MotorDevice F) (hk : (k, device) ∈ bound) :
    Isolated (bindAll { channelName := name } bound) now motors k device.addr bytes frames ↔
      ¬ Impersonated device frames := by
  have hreach := reaches_bindAll name bound motors hdistinct hmemory
  constructor
  · rintro hisolated ⟨frame, member, hextended, hport, hid, hstandard, response, hparse⟩
    obtain ⟨before, after, rfl⟩ := List.append_of_mem member
    have hroute := findRoute_bound { channelName := name } bound hdistinct hk
    rw [← hport, ← hid] at hroute
    have hdelivery := delivery_of_route hstandard hroute hparse
    have hbefore := handleFrames_eq (bindAll { channelName := name } bound) before
      { receivedAt := now, motors } hreach
    obtain ⟨next, hnext, hsame⟩ := hisolated.others before frame after _ rfl
      (by simp [ownFrame, hextended]) hbefore
    rw [handleDecodedFrame_eq _ _ _ (by rwa [DecodeContext.deliverAll_length]), hdelivery] at hnext
    obtain rfl := Option.some.inj hnext
    have hmotor := DecodeContext.deliverAll_motor { receivedAt := now, motors }
      (before.map (bindAll { channelName := name } bound).delivery) k
    obtain ⟨current, hcurrent, _⟩ := hmemory _ hk
    rw [hcurrent, Option.map_some] at hmotor
    exact deliver_changes _ k response hmotor hsame
  · intro hclean
    have hown := delivery_own name bound motors hdistinct hmemory hk hclean
    constructor
    · rintro before frame after context rfl hother hcontext
      rw [handleFrames_eq _ before _ hreach] at hcontext
      obtain rfl := Option.some.inj hcontext
      refine ⟨_, handleDecodedFrame_eq _ _ _ (by rwa [DecodeContext.deliverAll_length]), ?_⟩
      exact DecodeContext.deliver_other _ _ k (hown frame (by simp) hother)
    · intro ownBytes hownCarries
      refine ⟨_, _, handlePacket_eq _ _ _ now motors hcarries hreach,
        handlePacket_eq _ _ _ now motors hownCarries hreach, ?_⟩
      rw [DecodeContext.deliverAll_motor, DecodeContext.deliverAll_motor,
        received_filter _ k (ownFrame device.addr) frames hown]

/-! ## A frame that passes for another -/

/-- A brake status response in an extended frame with identifier 1. -/
def strayFrame : CanFrame where
  port := 0
  id := 1
  extended := true
  data := #v[0xC0, 0x01, 0, 0, 0, 0, 0, 0]
  len := 2

/-- A motor that was bound at port 0 and standard identifier 1. -/
def strayMotor : MotorDevice (Option ℚ) :=
  .init 0 "motor" { canPort := 0, canId := 1 } none

def strayPacket : List Byte := MotorCodec.packetBytes MotorCodec.typeCan2udp [strayFrame]

theorem strayPacket_carries : MotorCodec.Carries strayPacket [strayFrame] :=
  (MotorCodec.carries_iff _ _).mpr ⟨_, rfl, by decide, by decide, rfl⟩

theorem strayMotor_holds : Holds [strayMotor] [(0, strayMotor)] := by
  intro entry member
  obtain rfl := List.mem_singleton.mp member
  exact ⟨strayMotor, rfl, rfl, rfl⟩

/-- The stray frame, which is not the motor's, becomes its brake status. -/
theorem extended_frame_reaches_motor :
    MotorCodec.Carries strayPacket [strayFrame] ∧
      ¬ Isolated (bindAll { channelName := "can" } [(0, strayMotor)]) 0 [strayMotor] 0
        strayMotor.addr strayPacket [strayFrame] := by
  refine ⟨strayPacket_carries, fun hisolated => ?_⟩
  obtain ⟨next, hnext, hsame⟩ := hisolated.others [] strayFrame [] _ rfl rfl rfl
  have hparse : (CanCodec.parseFeedback strayFrame (none : Option (Range (Option ℚ)))).run =
      some (.ok (.brakeStatus { error := .none, engaged := true })) := rfl
  have hdelivery := @delivery_of_route _ _ (bindAll { channelName := "can" }
    [(0, strayMotor)]) strayFrame 0 none _ (by decide) rfl hparse
  have hreach := reaches_bindAll "can" [(0, strayMotor)] [strayMotor] (by decide)
    strayMotor_holds
  rw [handleDecodedFrame_eq _ _ _ hreach, hdelivery] at hnext
  obtain rfl := Option.some.inj hnext
  exact deliver_changes _ 0 _ rfl hsame

/-- As a standard frame it is the motor's own. -/
theorem standard_frame_isolated :
    let frame := { strayFrame with extended := false }
    Isolated (bindAll { channelName := "can" } [(0, strayMotor)]) 0 [strayMotor] 0
      strayMotor.addr (MotorCodec.packetBytes MotorCodec.typeCan2udp [frame]) [frame] := by
  refine (feedback_isolated_iff "can" [(0, strayMotor)] [strayMotor] (by decide)
    strayMotor_holds 0 _ _ ?_ 0 strayMotor (by simp)).mpr ?_
  · exact (MotorCodec.carries_iff _ _).mpr ⟨_, rfl, by decide, by decide, rfl⟩
  · rintro ⟨frame, member, hextended, _⟩
    obtain rfl := List.mem_singleton.mp member
    cases hextended

end ServoFleet.MotorDriver
