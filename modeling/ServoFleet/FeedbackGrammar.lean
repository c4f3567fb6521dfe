import ServoFleet.DecodeNeeds

/-!
The frames that `parse_feedback` takes for feedback. The type of a response and, for
the answer to a query, its code say how long it has to be; what the frame holds
otherwise does not matter. The length is looked at before the type.

The values inside a response are left out, but for its alternative and its codes.
-/

namespace ServoFleet

namespace CanFrame

/-- The type of a response, in the top bits of the first byte. -/
def responseType (frame : CanFrame) : Nat := (frame.byte 0 >>> 5).toNat

/-- A response of a known type that is long enough for it. -/
def IsResponse (frame : CanFrame) : Prop :=
  (1 ≤ frame.len.toNat ∧ frame.len.toNat ≤ maxCanDataLen) ∧
    ((frame.responseType = 1 ∨ frame.responseType = 2 ∨ frame.responseType = 3) ∧
        frame.len.toNat = 8 ∨
      frame.responseType = 4 ∧ 3 ≤ frame.len.toNat ∨
      frame.responseType = 6 ∧ 2 ≤ frame.len.toNat ∨
      frame.responseType = 5 ∧ ∃ count, CanCodec.payloadLen frame.queryCode = some count ∧
        2 + count ≤ frame.len.toNat)

/-- A response of no known type, or an answer to no known query. -/
def IsUnknown (frame : CanFrame) : Prop :=
  (1 ≤ frame.len.toNat ∧ frame.len.toNat ≤ maxCanDataLen) ∧
    (¬ (1 ≤ frame.responseType ∧ frame.responseType ≤ 6) ∨
      frame.responseType = 5 ∧ 2 ≤ frame.len.toNat ∧
        CanCodec.payloadLen frame.queryCode = none)

/-- An acknowledgement that went out to all. -/
def IsBroadcastAck (frame : CanFrame) : Prop :=
  frame.id = broadcastCanId ∧ 4 ≤ frame.len.toNat ∧ frame.len.toNat ≤ maxCanDataLen ∧
    frame.byte 2 = 1

theorem get_type (frame : CanFrame) :
    (frame.get CanField.Feedback.type).toNat = frame.responseType := by
  have htop := BitField.get_top (w := 32) frame.data.toList 3 (by simp) (by decide)
  rw [get, CanField.Feedback.type, htop, Vector.getElem_toList, responseType,
    frame.byte_eq (by decide), BitVec.toNat_setWidth_of_le (by decide)]

end CanFrame

namespace CanCodec

open CanField

variable {F : Type}

/-- The alternative of a feedback as the type a motor sends it under. -/
def feedbackType : ServoFleet.Feedback F → Nat
  | .status _ => 1
  | .position _ => 2
  | .velocity _ => 3
  | .configAck _ => 4
  | .query _ => 5
  | .brakeStatus _ => 6

/-- The feedback has the type of the frame, and answers the query or acknowledges the
configuration that the byte after the type names. -/
def Answers (frame : CanFrame) (response : ServoFleet.Feedback F) : Prop :=
  feedbackType response = frame.responseType ∧
    (∀ value, response = .query value → value.value.code = frame.queryCode) ∧
    ∀ ack, response = .configAck ack → ack.code = { raw := frame.byte 1 }

section Responses

variable {frame : CanFrame} (error : MotorErr)

/-- Behind a length check the fields that fit in that length can be read. -/
theorem needs_requireFrameLen {α : Type} {count : Nat} {rest : DecodeM α} {P : α → Prop}
    (minLen : Byte) (hcount : minLen.toNat = count)
    (hrest : count ≤ frame.len.toNat → Needs frame.len.toNat 0 rest P) :
    Needs frame.len.toNat count (requireFrameLen frame minLen >>= fun _ => rest) P := by
  subst hcount
  have hguard := needs_guard (c := frame.len < minLen) BitVec.lt_def hrest
  unfold requireFrameLen
  split_ifs at hguard ⊢ <;> exact hguard

theorem needs_readField {length minLen : Nat} {field : BitCodec.Bits}
    (hlen : frame.len.toNat ≤ maxCanDataLen) (hmin : minLen ≤ frame.len.toNat)
    (hfield : field.offset + field.len ≤ 8 * minLen) :
    Needs length 0 (readField field frame) fun raw => raw = frame.get field := by
  rw [readField_eq field frame ⟨hlen, by omega⟩]
  exact needs_pure _ rfl

variable (hlen : frame.len.toNat ≤ maxCanDataLen)

include hlen

theorem parseConfigAckResponse_needs :
    Needs frame.len.toNat 3 (parseConfigAckResponse frame error : DecodeM (ServoFleet.Feedback F))
      fun response => ∃ ack, response = .configAck ack ∧ ack.code = { raw := frame.byte 1 } := by
  apply needs_requireFrameLen 3 rfl
  intro hmin
  apply needs_then (needs_readField hlen hmin (by decide))
  rintro key rfl
  apply needs_then (needs_readField hlen hmin (by decide))
  intro status _
  have hkey : (frame.get FeedbackConfig.key).setWidth 8 = frame.byte 1 := by
    rw [FeedbackConfig.key, CanFrame.get_u8 frame 1 (by decide), frame.byte_eq (by decide)]
    simp
  exact needs_pure _ ⟨_, rfl, congrArg ConfigSetCode.mk hkey⟩

theorem parseBrakeResponse_needs :
    Needs frame.len.toNat 2 (parseBrakeResponse frame error : DecodeM (ServoFleet.Feedback F))
      fun response => ∃ value, response = .brakeStatus value := by
  apply needs_requireFrameLen 2 rfl
  intro hmin
  apply needs_then (needs_readField hlen hmin (by decide))
  intro engaged _
  exact needs_pure _ ⟨_, rfl⟩

variable [FloatArith F]

theorem parseStatus1Response_needs (range : Option (Range F)) :
    Needs frame.len.toNat 8 (parseStatus1Response frame error range)
      fun response => ∃ value, response = .status value := by
  apply needs_requireFrameLen 8 rfl
  intro hmin
  apply needs_then (needs_readField hlen hmin (by decide))
  intro position _
  apply needs_then (needs_readField hlen hmin (by decide))
  intro velocity _
  apply needs_then (needs_readField hlen hmin (by decide))
  intro current _
  apply needs_then (needs_readField hlen hmin (by decide))
  intro motorTemp _
  apply needs_then (needs_readField hlen hmin (by decide))
  intro mosfetTemp _
  exact needs_pure _ ⟨_, rfl⟩

theorem parsePositionResponse_needs :
    Needs frame.len.toNat 8 (parsePositionResponse frame error : DecodeM (ServoFleet.Feedback F))
      fun response => ∃ value, response = .position value := by
  apply needs_requireFrameLen 8 rfl
  intro hmin
  apply needs_then (needs_readField hlen hmin (by decide))
  intro position _
  apply needs_then (needs_readField hlen hmin (by decide))
  intro current _
  apply needs_then (needs_readField hlen hmin (by decide))
  intro temp _
  exact needs_pure _ ⟨_, rfl⟩

theorem parseVelocityResponse_needs :
    Needs frame.len.toNat 8 (parseVelocityResponse frame error : DecodeM (ServoFleet.Feedback F))
      fun response => ∃ value, response = .velocity value := by
  apply needs_requireFrameLen 8 rfl
  intro hmin
  apply needs_then (needs_readField hlen hmin (by decide))
  intro velocity _
  apply needs_then (needs_readField hlen hmin (by decide))
  intro current _
  apply needs_then (needs_readField hlen hmin (by decide))
  intro temp _
  exact needs_pure _ ⟨_, rfl⟩

end Responses

/-! ## Outcomes -/

/-- How `parse_feedback` judges a frame. -/
def Outcome (frame : CanFrame) (step : DecodeM (ServoFleet.Feedback F)) : Prop :=
  (frame.IsResponse ∧ ∃ response, step.run = some (.ok response) ∧ Answers frame response) ∨
    (frame.IsUnknown ∧ step.run = some (.error .unsupported)) ∨
    (¬ frame.IsResponse ∧ ¬ frame.IsUnknown ∧ step.run = some (.error .protocolError))

section Outcomes

variable {frame : CanFrame}

theorem not_unknown_of_response (h : frame.IsResponse) : ¬ frame.IsUnknown := by
  rintro ⟨_, htype | ⟨htype, _, hnone⟩⟩
  · obtain ⟨_, h | h | h | h⟩ := h <;> omega
  · obtain ⟨_, h | h | h | ⟨_, count, hcount, _⟩⟩ := h
    · omega
    · omega
    · omega
    · rw [hnone] at hcount
      cases hcount

theorem answers_of_type {response : ServoFleet.Feedback F}
    (htype : feedbackType response = frame.responseType) (hack : frame.responseType ≠ 4)
    (hquery : frame.responseType ≠ 5) : Answers frame response := by
  refine ⟨htype, ?_, ?_⟩
  · rintro value rfl
    exact absurd htype.symm hquery
  · rintro ack rfl
    exact absurd htype.symm hack

theorem outcome_of_needs {step : DecodeM (ServoFleet.Feedback F)} {count : Nat}
    {P : ServoFleet.Feedback F → Prop} (hneeds : Needs frame.len.toNat count step P)
    (hresponse : frame.IsResponse ↔ count ≤ frame.len.toNat) (hknown : ¬ frame.IsUnknown)
    (hanswers : ∀ response, P response → Answers frame response) : Outcome frame step := by
  unfold Needs at hneeds
  by_cases hcount : count ≤ frame.len.toNat
  · rw [if_pos hcount] at hneeds
    obtain ⟨response, hrun, hP⟩ := hneeds
    exact .inl ⟨hresponse.mpr hcount, response, hrun, hanswers response hP⟩
  · rw [if_neg hcount] at hneeds
    exact .inr (.inr ⟨fun h => hcount (hresponse.mp h), hknown, hneeds⟩)

variable [FloatArith F] (hpos : 1 ≤ frame.len.toNat) (hlen : frame.len.toNat ≤ maxCanDataLen)

include hpos hlen

/-- The answer to a query, which has to be known before its length is judged. -/
theorem parseQueryResponse_outcome (error : MotorErr) (htype : frame.responseType = 5) :
    Outcome frame (parseQueryResponse frame error : DecodeM (ServoFleet.Feedback F)) := by
  by_cases hmin : 2 ≤ frame.len.toNat
  · have hpayload : (queryPayload frame).length = frame.len.toNat - 2 := by
      simp only [maxCanDataLen] at hlen
      simp [queryPayload]
      omega
    have hswitch := decodeQueryValue_switch (F := F) (queryPayload frame) frame.queryCode
    rw [parseQueryResponse_run error hlen hmin]
    unfold Switch at hswitch
    cases hcode : payloadLen frame.queryCode with
    | none =>
        rw [show List.lookup _ _ = none from hcode] at hswitch
        refine .inr (.inl ⟨⟨⟨hpos, hlen⟩, .inr ⟨htype, hmin, hcode⟩⟩, ?_⟩)
        rw [ExceptT.run_bind, decodeQueryResult, ExceptT.run_bind, hswitch]
        rfl
    | some count =>
        rw [show List.lookup _ _ = some count from hcode] at hswitch
        have hresult : Needs (queryPayload frame).length count
            (decodeQueryResult (F := F) frame.queryCode error (queryPayload frame))
            fun value => value.value.code = frame.queryCode :=
          needs_map hswitch fun _ hvalue => hvalue
        have hneeds := needs_shift (needs_map hresult
          (Q := fun response : ServoFleet.Feedback F =>
            ∃ value, response = .query value ∧ value.value.code = frame.queryCode)
          fun value hvalue => ⟨value, rfl, hvalue⟩)
          (by omega : count ≤ _ ↔ 2 + count ≤ frame.len.toNat)
        apply outcome_of_needs hneeds
        · simp [CanFrame.IsResponse, htype, hcode, hpos, hlen]
        · simp [CanFrame.IsUnknown, htype, hcode]
        · rintro _ ⟨value, rfl, hvalue⟩
          refine ⟨htype.symm, ?_, (fun _ hack => by cases hack)⟩
          rintro _ ⟨⟩
          exact hvalue
  · refine .inr (.inr ⟨?_, ?_, ?_⟩)
    · simp [CanFrame.IsResponse, htype]
      omega
    · simp [CanFrame.IsUnknown, htype]
      omega
    · have hshort : frame.len < 2 := by
        rw [BitVec.lt_def]
        exact Nat.not_le.mp hmin
      rw [parseQueryResponse, requireFrameLen, if_pos hshort]
      rfl

/-- The switch over the type of a response. -/
theorem parseResponse_outcome (range : Option (Range F)) :
    Outcome frame (parseResponse frame range) := by
  rw [parseResponse, readField_eq _ _ ⟨hlen, by change 0 + 3 ≤ _; omega⟩,
    readField_eq _ _ ⟨hlen, by change 3 + 5 ≤ _; omega⟩, pure_bind, pure_bind, frame.get_type]
  have hlong : frame.len.toNat ≤ 8 := hlen
  have hexact : frame.len.toNat = 8 ↔ 8 ≤ frame.len.toNat := by omega
  split
  case h_1 htype =>
      apply outcome_of_needs (parseStatus1Response_needs _ hlen range)
      · simp [CanFrame.IsResponse, htype, hpos, hlen, hexact]
      · simp [CanFrame.IsUnknown, htype]
      · rintro _ ⟨value, rfl⟩
        exact answers_of_type htype.symm (by omega) (by omega)
  case h_2 htype =>
      apply outcome_of_needs (parsePositionResponse_needs _ hlen)
      · simp [CanFrame.IsResponse, htype, hpos, hlen, hexact]
      · simp [CanFrame.IsUnknown, htype]
      · rintro _ ⟨value, rfl⟩
        exact answers_of_type htype.symm (by omega) (by omega)
  case h_3 htype =>
      apply outcome_of_needs (parseVelocityResponse_needs _ hlen)
      · simp [CanFrame.IsResponse, htype, hpos, hlen, hexact]
      · simp [CanFrame.IsUnknown, htype]
      · rintro _ ⟨value, rfl⟩
        exact answers_of_type htype.symm (by omega) (by omega)
  case h_4 htype =>
      apply outcome_of_needs (parseConfigAckResponse_needs _ hlen)
      · simp [CanFrame.IsResponse, htype, hpos, hlen]
      · simp [CanFrame.IsUnknown, htype]
      · rintro _ ⟨ack, rfl, hcode⟩
        refine ⟨htype.symm, (fun _ hquery => by cases hquery), ?_⟩
        rintro _ ⟨⟩
        exact hcode
  case h_5 htype => exact parseQueryResponse_outcome hpos hlen _ htype
  case h_6 htype =>
      apply outcome_of_needs (parseBrakeResponse_needs _ hlen)
      · simp [CanFrame.IsResponse, htype, hpos, hlen]
      · simp [CanFrame.IsUnknown, htype]
      · rintro _ ⟨value, rfl⟩
        exact answers_of_type htype.symm (by omega) (by omega)
  case h_7 h1 h2 h3 h4 h5 h6 =>
      have hne : frame.responseType ≠ 1 ∧ frame.responseType ≠ 2 ∧ frame.responseType ≠ 3 ∧
          frame.responseType ≠ 4 ∧ frame.responseType ≠ 5 ∧ frame.responseType ≠ 6 :=
        ⟨h1, h2, h3, h4, h5, h6⟩
      exact .inr (.inl ⟨⟨⟨hpos, hlen⟩, .inl (by omega)⟩, rfl⟩)

end Outcomes

section Grammar

variable [FloatArith F] (frame : CanFrame) (range : Option (Range F))

/-- Apart from acknowledgements to all the identifier does not matter. -/
theorem parseFeedback_outcome (hack : ¬ frame.IsBroadcastAck) :
    Outcome frame (parseFeedback frame range) := by
  by_cases hlen : 1 ≤ frame.len.toNat ∧ frame.len.toNat ≤ maxCanDataLen
  · have hresponse := parseResponse_outcome hlen.1 hlen.2 range
    rw [parseFeedback, if_neg (by rw [len_guard, not_not]; exact hlen)]
    by_cases hid : frame.id = broadcastCanId
    · have hbroadcast : (parseBroadcastResponse frame : Result (ServoFleet.Feedback F)) =
          .error .unsupported := by
        have hmode : ¬ (frame.len = 5 ∧ frame.byte 0 = 0xFF ∧ frame.byte 1 = 0xFF ∧
            frame.byte 2 = 0x01) := by
          rintro ⟨hfive, _, _, hone⟩
          exact hack ⟨hid, by rw [hfive]; decide, hlen.2, hone⟩
        have hshort : ¬ (frame.len.toNat ≥ 4 ∧ frame.byte 2 = 0x01) :=
          fun h => hack ⟨hid, h.1, hlen.2, h.2⟩
        rw [parseBroadcastResponse, if_neg (not_not.mpr hid), if_neg hmode, if_neg hshort]
      rw [if_pos hid, hbroadcast]
      exact hresponse
    · rw [if_neg hid]
      exact hresponse
  · rw [parseFeedback, if_pos ((len_guard frame).mpr hlen)]
    exact .inr (.inr ⟨fun h => hlen h.1, fun h => hlen h.1, rfl⟩)

theorem parseFeedback_broadcast (hack : frame.IsBroadcastAck) :
    ∃ ack, (parseFeedback frame range).run = some (.ok (.configAck ack)) := by
  obtain ⟨hid, hlow, hhigh, hone⟩ := hack
  have hguard : ¬ (frame.len = 0 ∨ frame.len.toNat > maxCanDataLen) := by
    rw [len_guard, not_not]
    exact ⟨by omega, hhigh⟩
  rw [parseFeedback, if_neg hguard, if_pos hid, parseBroadcastResponse, if_neg (not_not.mpr hid)]
  split_ifs with hmode hlen
  · exact ⟨_, rfl⟩
  · exact ⟨_, rfl⟩
  · exact absurd ⟨hlow, hone⟩ hlen

/-- The decoder ends in a value or an error code. -/
def Total {α : Type} (step : DecodeM α) : Prop := ∃ outcome, step.run = some outcome

/-- Whatever the frame, its length byte included, no byte outside of its data is read. -/
theorem parseFeedback_total : Total (parseFeedback frame range) := by
  by_cases hack : frame.IsBroadcastAck
  · obtain ⟨ack, hrun⟩ := parseFeedback_broadcast frame range hack
    exact ⟨_, hrun⟩
  · rcases parseFeedback_outcome frame range hack with ⟨_, _, hrun, _⟩ | ⟨_, hrun⟩ | ⟨_, _, hrun⟩
    · exact ⟨_, hrun⟩
    · exact ⟨_, hrun⟩
    · exact ⟨_, hrun⟩

/-- A frame is accepted if and only if it is a response, as the alternative of its type.
Among the frames of a proper length unknown ones are unsupported, and whatever else is
refused is a protocol error. An acknowledgement to all is accepted whatever its type. -/
theorem parseFeedback_grammar :
    (¬ frame.IsBroadcastAck →
      ((∃ response, (parseFeedback frame range).run = some (.ok response)) ↔ frame.IsResponse) ∧
      (∀ response, (parseFeedback frame range).run = some (.ok response) →
        Answers frame response) ∧
      ((parseFeedback frame range).run = some (.error .unsupported) ↔ frame.IsUnknown) ∧
      (¬ frame.IsResponse → ¬ frame.IsUnknown →
        (parseFeedback frame range).run = some (.error .protocolError))) ∧
      (frame.IsBroadcastAck →
        ∃ ack, (parseFeedback frame range).run = some (.ok (.configAck ack))) := by
  refine ⟨fun hack => ?_, parseFeedback_broadcast frame range⟩
  rcases parseFeedback_outcome frame range hack with
    ⟨hresponse, response, hrun, hanswers⟩ | ⟨hunknown, hrun⟩ | ⟨hresponse, hunknown, hrun⟩
  · have hknown := not_unknown_of_response hresponse
    simp only [hrun, hresponse, hknown]
    simpa using hanswers
  · have hresponse : ¬ frame.IsResponse := fun h => not_unknown_of_response h hunknown
    simp [hrun, hresponse, hunknown]
  · simp [hrun, hresponse, hunknown]

end Grammar

/-- An empty frame, which has the unknown type 0, is a protocol error. -/
theorem unknown_type_of_improper_length :
    ¬ ∀ frame : CanFrame, frame.id ≠ broadcastCanId →
      ¬ (1 ≤ frame.responseType ∧ frame.responseType ≤ 6) →
      (parseFeedback frame (none : Option (Range (Option ℚ)))).run =
        some (.error .unsupported) := by
  intro hall
  have hempty := hall {} (by decide) (by decide)
  have hrun : (parseFeedback {} (none : Option (Range (Option ℚ)))).run =
      some (.error .protocolError) := rfl
  rw [hrun] at hempty
  cases hempty

end CanCodec

end ServoFleet
