import ServoFleet.MotorDriver

/-!
A received packet as a run of deliveries: each of its frames brings one feedback
to one device or is dropped, and a device keeps its own feedbacks in order.
-/

namespace ServoFleet

namespace MotorDriver

variable {F : Type} [FloatArith F]

/-- The device a frame reaches and the feedback it brings, if there is one. -/
def delivery (driver : MotorDriver) (frame : CanFrame) : Option (DeviceRef × Feedback F) :=
  if frame.id = broadcastCanId then none
  else
    match driver.findRoute frame.port frame.id with
    | none => none
    | some (ref, spec) =>
        match (CanCodec.parseFeedback frame (currentRange spec)).run with
        | some (.ok response) => some (ref, response)
        | _ => none

end MotorDriver

namespace DecodeContext

variable {F : Type}

/-- The feedbacks a motor gets from a run of deliveries. -/
def received (k : DeviceRef) (deliveries : List (Option (DeviceRef × Feedback F))) :
    List (Feedback F) :=
  deliveries.filterMap fun delivered => delivered.bind fun entry =>
    if entry.1 = k then some entry.2 else none

theorem received_cons (k ref : DeviceRef) (response : Feedback F)
    (deliveries : List (Option (DeviceRef × Feedback F))) :
    received k (some (ref, response) :: deliveries) =
      if ref = k then response :: received k deliveries else received k deliveries := by
  unfold received
  split_ifs with hk
  · rw [List.filterMap_cons_some (by rw [Option.bind_some, if_pos hk])]
  · rw [List.filterMap_cons_none (by rw [Option.bind_some, if_neg hk])]

/-- The calls of a run of deliveries that starts at a position of the packet. -/
def callsFrom (start : Nat) : List (Option (DeviceRef × Feedback F)) → List (ApplyCall F)
  | [] => []
  | none :: rest => callsFrom (start + 1) rest
  | some (ref, response) :: rest =>
      { frame := start, device := ref, response } :: callsFrom (start + 1) rest

theorem callsFrom_ge (start : Nat) (deliveries : List (Option (DeviceRef × Feedback F))) :
    ∀ call ∈ callsFrom start deliveries, start ≤ call.frame := by
  induction deliveries generalizing start with
  | nil => exact fun call member => absurd member List.not_mem_nil
  | cons delivered rest ih =>
      intro call member
      cases delivered with
      | none => exact Nat.le_of_succ_le (ih (start + 1) call member)
      | some entry =>
          rcases List.mem_cons.mp member with rfl | hrest
          · exact Nat.le_refl start
          · exact Nat.le_of_succ_le (ih (start + 1) call hrest)

/-- What the calls bring to a device, in their order. -/
def responsesTo (k : DeviceRef) (calls : List (ApplyCall F)) : List (Feedback F) :=
  (calls.filter fun call => call.device = k).map ApplyCall.response

theorem responsesTo_callsFrom (k : DeviceRef) (start : Nat)
    (deliveries : List (Option (DeviceRef × Feedback F))) :
    responsesTo k (callsFrom start deliveries) = received k deliveries := by
  induction deliveries generalizing start with
  | nil => rfl
  | cons delivered rest ih =>
      cases delivered with
      | none => exact ih (start + 1)
      | some entry =>
          obtain ⟨ref, response⟩ := entry
          rw [received_cons, callsFrom]
          split_ifs with hk
          · rw [responsesTo, List.filter_cons_of_pos (by simpa using hk), List.map_cons]
            exact congrArg (response :: ·) (ih (start + 1))
          · rw [responsesTo, List.filter_cons_of_neg (by simpa using hk)]
            exact ih (start + 1)

/-- Each position of the packet makes the one call its delivery asks for. -/
theorem callsFrom_filter (start i : Nat) (deliveries : List (Option (DeviceRef × Feedback F))) :
    (callsFrom start deliveries).filter (fun call => call.frame = start + i) =
      (deliveries[i]?.join.map fun entry =>
        ({ frame := start + i, device := entry.1, response := entry.2 } : ApplyCall F)).toList := by
  induction deliveries generalizing start i with
  | nil => rfl
  | cons delivered rest ih =>
      have hnone : (callsFrom (start + 1) rest).filter (fun call => call.frame = start) = [] := by
        rw [List.filter_eq_nil_iff]
        intro call member
        have hge := callsFrom_ge (start + 1) rest call member
        simp only [decide_eq_true_eq]
        omega
      cases i with
      | zero =>
          cases delivered with
          | none => exact hnone
          | some entry =>
              rw [callsFrom, List.filter_cons_of_pos (by simp), Nat.add_zero, hnone]
              rfl
      | succ i =>
          have hrest := ih (start + 1) i
          rw [(by omega : start + 1 + i = start + (i + 1))] at hrest
          cases delivered with
          | none => exact hrest
          | some entry =>
              rw [callsFrom, List.filter_cons_of_neg (by simp), hrest]
              rfl

variable [FloatArith F]

/-- The effect of a handled frame, given what it delivers. -/
def deliver (context : DecodeContext F) :
    Option (DeviceRef × Feedback F) → DecodeContext F
  | none => { context with handled := context.handled + 1 }
  | some (ref, response) =>
      { context with
        motors := context.motors.modify ref fun device =>
          (device.apply response context.receivedAt).1
        handled := context.handled + 1
        calls := context.calls ++ [{ frame := context.handled, device := ref, response }] }

def deliverAll (context : DecodeContext F) (deliveries : List (Option (DeviceRef × Feedback F))) :
    DecodeContext F :=
  deliveries.foldl deliver context

theorem deliver_length (context : DecodeContext F) (delivered : Option (DeviceRef × Feedback F)) :
    (context.deliver delivered).motors.length = context.motors.length := by
  cases delivered with
  | none => rfl
  | some entry => exact List.length_modify _ _ _

theorem deliverAll_calls (context : DecodeContext F)
    (deliveries : List (Option (DeviceRef × Feedback F))) :
    (context.deliverAll deliveries).calls =
      context.calls ++ callsFrom context.handled deliveries := by
  induction deliveries generalizing context with
  | nil => exact (List.append_nil _).symm
  | cons delivered rest ih =>
      refine (ih (context.deliver delivered)).trans ?_
      cases delivered with
      | none => rfl
      | some entry =>
          rw [callsFrom, List.append_cons]
          rfl

theorem deliverAll_length (context : DecodeContext F)
    (deliveries : List (Option (DeviceRef × Feedback F))) :
    (context.deliverAll deliveries).motors.length = context.motors.length := by
  induction deliveries generalizing context with
  | nil => rfl
  | cons delivered rest ih => exact (ih _).trans (deliver_length context delivered)

theorem deliver_other (context : DecodeContext F) (delivered : Option (DeviceRef × Feedback F))
    (k : DeviceRef) (h : ∀ response, delivered ≠ some (k, response)) :
    (context.deliver delivered).motors[k]? = context.motors[k]? := by
  cases delivered with
  | none => rfl
  | some entry =>
      exact List.getElem?_modify_ne _ _ fun hk => h entry.2 (hk ▸ rfl)

/-- A motor ends up with its own feedbacks applied in their order. -/
theorem deliverAll_motor (context : DecodeContext F)
    (deliveries : List (Option (DeviceRef × Feedback F))) (k : DeviceRef) :
    (context.deliverAll deliveries).motors[k]? = context.motors[k]?.map fun device =>
      (received k deliveries).foldl
        (fun device response => (device.apply response context.receivedAt).1) device := by
  induction deliveries generalizing context with
  | nil => exact (Option.map_id' ..).symm
  | cons delivered rest ih =>
      change ((context.deliver delivered).deliverAll rest).motors[k]? = _
      rw [ih]
      cases delivered with
      | none => rfl
      | some entry =>
          obtain ⟨ref, response⟩ := entry
          change ((context.motors.modify ref _)[k]?).map _ = _
          by_cases hk : ref = k
          · subst hk
            rw [List.getElem?_modify_eq, Option.map_eq_map, Option.map_map, received_cons,
              if_pos rfl]
            rfl
          · rw [List.getElem?_modify_ne _ _ hk, received_cons, if_neg hk]
            rfl

end DecodeContext

namespace MotorDriver

variable {F : Type} [FloatArith F]

private theorem set_eq_modify {α : Type} {i : Nat} (xs : List α) (f : α → α)
    (h : i < xs.length) : xs.set i (f xs[i]) = xs.modify i f := by
  apply List.ext_getElem
  · rw [List.length_set, List.length_modify]
  · intro j hset hmodify
    rw [List.getElem_set, List.getElem_modify]
    split_ifs with hj
    · subst hj
      rfl
    · rfl

theorem handleDecodedFrame_eq (driver : MotorDriver) (context : DecodeContext F)
    (frame : CanFrame) (h : driver.Reaches context.motors.length) :
    driver.handleDecodedFrame context frame = some (context.deliver (driver.delivery frame)) := by
  unfold handleDecodedFrame handleFrame delivery
  by_cases hid : frame.id = broadcastCanId
  · obtain ⟨outcome, hparse⟩ :=
      CanCodec.parseFeedback_total frame (none : Option (Range F))
    simp only [if_pos hid, hparse, Option.bind_eq_bind, Option.bind_some]
    rfl
  · simp only [if_neg hid]
    cases hroute : driver.findRoute frame.port frame.id with
    | none => rfl
    | some route =>
        obtain ⟨ref, spec⟩ := route
        obtain ⟨outcome, hparse⟩ :=
          CanCodec.parseFeedback_total frame (currentRange spec : Option (Range F))
        have href := h frame.port frame.id ref spec hroute
        simp only [hparse, Option.bind_eq_bind, Option.bind_some]
        cases outcome with
        | error err => rfl
        | ok response =>
            rw [List.getElem?_eq_getElem href]
            simp only [DecodeContext.deliver, ← set_eq_modify _ _ href]
            rfl

theorem handleFrames_eq (driver : MotorDriver) (frames : List CanFrame)
    (context : DecodeContext F) (h : driver.Reaches context.motors.length) :
    frames.foldlM driver.handleDecodedFrame context =
      some (context.deliverAll (frames.map driver.delivery)) := by
  induction frames generalizing context with
  | nil => rfl
  | cons frame rest ih =>
      rw [List.foldlM_cons, handleDecodedFrame_eq driver context frame h, Option.bind_eq_bind,
        Option.bind_some, ih _ (by rwa [DecodeContext.deliver_length])]
      rfl

/-- The effect of a packet is that of the frames its decoder called the handler on. -/
theorem handlePacket_frames (driver : MotorDriver) (bytes : List Byte) (frames : List CanFrame)
    (now : TimePoint) (motors : Motors F) (outcome : ErrCode)
    (hrun : ∀ (σ : Type) (handler : σ → CanFrame → σ) (context : σ),
      MotorCodec.decodeEach bytes context (some handler) =
        some (outcome, frames.foldl handler context))
    (h : driver.Reaches motors.length) :
    driver.handlePacket bytes now motors =
      some (({ receivedAt := now, motors } : DecodeContext F).deliverAll
        (frames.map driver.delivery)) := by
  have hfold : ∀ (frames : List CanFrame) (context : Option (DecodeContext F)),
      frames.foldl (fun context frame => do
        driver.handleDecodedFrame (← context) frame) context =
      context.bind fun context => frames.foldlM driver.handleDecodedFrame context := by
    intro frames context
    induction frames generalizing context with
    | nil => cases context <;> rfl
    | cons frame rest ih =>
        rw [List.foldl_cons, ih]
        cases context <;> rfl
  rw [handlePacket, hrun, Option.bind_eq_bind, Option.bind_some, hfold]
  exact handleFrames_eq driver frames _ h

theorem handlePacket_eq (driver : MotorDriver) (bytes : List Byte) (frames : List CanFrame)
    (now : TimePoint) (motors : Motors F) (hcarries : MotorCodec.Carries bytes frames)
    (h : driver.Reaches motors.length) :
    driver.handlePacket bytes now motors =
      some (({ receivedAt := now, motors } : DecodeContext F).deliverAll
        (frames.map driver.delivery)) :=
  handlePacket_frames driver bytes frames now motors (.ok ())
    (fun _ handler context => MotorCodec.decodeEach_carries handler hcarries context) h

end MotorDriver

end ServoFleet
