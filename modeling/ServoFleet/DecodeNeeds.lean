import ServoFleet.QueryResponse

/-!
How many bytes a decoder needs. With fewer it reports a protocol error, and with
that many it never leaves the view it reads from.
-/

namespace ServoFleet.CanCodec

/-- With `count` of `length` bytes the decoder ends in a value that has `P`. -/
def Needs {α : Type} (length count : Nat) (step : DecodeM α) (P : α → Prop) : Prop :=
  if count ≤ length then ∃ value, step.run = some (.ok value) ∧ P value
  else step.run = some (.error .protocolError)

section Rules

variable {α β : Type} {length : Nat} {P : α → Prop} {Q : β → Prop}

theorem needs_pure (value : α) (h : P value) : Needs length 0 (pure value) P := by
  rw [Needs, if_pos (Nat.zero_le _)]
  exact ⟨value, rfl, h⟩

theorem needs_bind {first second : Nat} {step : DecodeM α} {next : α → DecodeM β}
    (hstep : Needs length first step P)
    (hnext : ∀ value, P value → Needs length second (next value) Q) :
    Needs length (max first second) (step >>= next) Q := by
  unfold Needs at hstep ⊢
  by_cases hfirst : first ≤ length
  · rw [if_pos hfirst] at hstep
    obtain ⟨value, hrun, hvalue⟩ := hstep
    have hsame : (step >>= next).run = (next value).run := by
      rw [ExceptT.run_bind, hrun]
      rfl
    have hrest := hnext value hvalue
    unfold Needs at hrest
    simp only [max_le_iff, hfirst, true_and, hsame]
    exact hrest
  · rw [if_neg hfirst] at hstep
    rw [if_neg fun h => hfirst (le_of_max_le_left h), ExceptT.run_bind, hstep]
    rfl

/-- A step that needs nothing does not change what the rest needs. -/
theorem needs_then {count : Nat} {step : DecodeM α} {next : α → DecodeM β}
    (hstep : Needs length 0 step P)
    (hnext : ∀ value, P value → Needs length count (next value) Q) :
    Needs length count (step >>= next) Q := by
  have h := needs_bind hstep hnext
  rwa [Nat.zero_max] at h

theorem needs_map {count : Nat} {step : DecodeM α} {Q : β → Prop} {member : α → β}
    (hstep : Needs length count step P) (hmember : ∀ value, P value → Q (member value)) :
    Needs length count (do
      let value ← step
      return member value) Q := by
  have h := needs_bind hstep fun value hP => needs_pure (member value) (hmember value hP)
  rwa [Nat.max_zero] at h

theorem needs_pair {first second : Nat} {step₁ step₂ : DecodeM α} {Q : β → Prop}
    {member : α → α → β} (hfirst : Needs length first step₁ P)
    (hsecond : Needs length second step₂ P) (hmember : ∀ a b, Q (member a b)) :
    Needs length (max first second) (do
      let a ← step₁
      let b ← step₂
      return member a b) Q :=
  needs_bind hfirst fun a _ => needs_map hsecond fun b _ => hmember a b

theorem needs_shift {count length' count' : Nat} {step : DecodeM α}
    (hstep : Needs length count step P) (hshift : count ≤ length ↔ count' ≤ length') :
    Needs length' count' step P := by
  unfold Needs at hstep ⊢
  simpa only [hshift] using hstep

/-- A length check, with what it makes safe. -/
theorem needs_guard {count : Nat} {c : Prop} [Decidable c] {rest : DecodeM α}
    (hc : c ↔ length < count) (hrest : count ≤ length → Needs length 0 rest P) :
    Needs length count (do
      if c then throw FleetErr.protocolError
      rest) P := by
  unfold Needs at hrest ⊢
  by_cases hlength : count ≤ length
  · have hsafe := hrest hlength
    rw [if_pos (Nat.zero_le _)] at hsafe
    rw [if_pos hlength, if_neg (by rw [hc, not_lt]; exact hlength)]
    exact hsafe
  · rw [if_neg hlength, if_pos (by rwa [hc, ← not_le])]
    rfl

theorem needs_byteAt {bytes : List Byte} {index : Nat} (h : index < bytes.length) :
    Needs length 0 (byteAt bytes index) fun _ => True := by
  rw [Needs, if_pos (Nat.zero_le _), byteAt, List.getElem?_eq_getElem h]
  exact ⟨_, rfl, trivial⟩

end Rules

/-! ## Payloads -/

section Payload

variable {F : Type} (payload : List Byte)

theorem readU16Be_needs (offset : Nat) :
    Needs payload.length (offset + 2) (readU16Be payload offset) fun _ => True := by
  apply needs_guard Iff.rfl
  intro h
  apply needs_then (needs_byteAt (by omega))
  intro b0 _
  apply needs_then (needs_byteAt (by omega))
  intro b1 _
  exact needs_pure _ trivial

theorem readU32Be_needs (offset : Nat) :
    Needs payload.length (offset + 4) (readU32Be payload offset) fun _ => True := by
  apply needs_guard Iff.rfl
  intro h
  apply needs_then (needs_byteAt (by omega))
  intro b0 _
  apply needs_then (needs_byteAt (by omega))
  intro b1 _
  apply needs_then (needs_byteAt (by omega))
  intro b2 _
  apply needs_then (needs_byteAt (by omega))
  intro b3 _
  exact needs_pure _ trivial

theorem decodeMcuUuid_needs :
    Needs payload.length 5 (decodeMcuUuid payload : DecodeM (QueryValue F))
      (·.code = .mcuUuid) := by
  apply needs_guard Iff.rfl
  intro h
  apply needs_then (needs_byteAt (by omega))
  intro index _
  apply needs_then (needs_byteAt (by omega))
  intro b0 _
  apply needs_then (needs_byteAt (by omega))
  intro b1 _
  apply needs_then (needs_byteAt (by omega))
  intro b2 _
  apply needs_then (needs_byteAt (by omega))
  intro b3 _
  exact needs_pure _ rfl

theorem decodeVersion_needs :
    Needs payload.length 6 (decodeVersion payload : DecodeM (QueryValue F))
      (·.code = .version) := by
  apply needs_guard Iff.rfl
  intro h
  apply needs_then (needs_byteAt (by omega))
  intro hwMajor _
  apply needs_then (needs_byteAt (by omega))
  intro hwMinor _
  apply needs_then (needs_byteAt (by omega))
  intro hwPatch _
  apply needs_then (needs_byteAt (by omega))
  intro fwMajor _
  apply needs_then (needs_byteAt (by omega))
  intro fwMinor _
  apply needs_then (needs_byteAt (by omega))
  intro fwPatch _
  exact needs_pure _ rfl

theorem decodeBrakeStatus_needs :
    Needs payload.length 1 (decodeBrakeStatus payload : DecodeM (QueryValue F))
      (·.code = .brakeStatus) := by
  apply needs_guard (by omega)
  intro h
  apply needs_then (needs_byteAt (by omega))
  intro status _
  exact needs_pure _ rfl

theorem decodeCanTimeout_needs :
    Needs payload.length 2 (decodeCanTimeout payload : DecodeM (QueryValue F))
      (·.code = .canTimeout) :=
  needs_map (readU16Be_needs payload 0) fun _ _ => rfl

variable [FloatArith F] {code : ConfigQueryCode}

theorem readU16BeFloat_needs (offset : Nat) :
    Needs payload.length (offset + 2) (readU16BeFloat payload offset : DecodeM F)
      fun _ => True :=
  needs_map (readU16Be_needs payload offset) fun _ _ => trivial

theorem readI16BeScaled_needs (offset : Nat) (scale : ℚ) :
    Needs payload.length (offset + 2) (readI16BeScaled payload offset scale : DecodeM F)
      fun _ => True :=
  needs_map (readU16Be_needs payload offset) fun _ _ => trivial

theorem decodeFloat_needs (member : F → QueryValue F) (hcode : ∀ v, (member v).code = code) :
    Needs payload.length 4 (decodeFloat payload member) (·.code = code) := by
  have hread : Needs payload.length 4 (readF32Be payload 0 : DecodeM F) fun _ => True :=
    needs_map (readU32Be_needs payload 0) fun _ _ => trivial
  exact needs_map hread fun v _ => hcode v

theorem decodeU16_needs (member : F → QueryValue F) (hcode : ∀ v, (member v).code = code) :
    Needs payload.length 2 (decodeU16 payload member) (·.code = code) :=
  needs_map (readU16BeFloat_needs payload 0) fun v _ => hcode v

theorem decodeU16Range_needs (member : Range F → QueryValue F)
    (hcode : ∀ range, (member range).code = code) :
    Needs payload.length 4 (decodeU16Range payload member) (·.code = code) :=
  needs_pair (readU16BeFloat_needs payload 0) (readU16BeFloat_needs payload 2)
    fun _ _ => hcode _

theorem decodeI16Range_needs (scale : ℚ) (member : Range F → QueryValue F)
    (hcode : ∀ range, (member range).code = code) :
    Needs payload.length 4 (decodeI16Range payload scale member) (·.code = code) :=
  needs_pair (readI16BeScaled_needs payload 0 scale) (readI16BeScaled_needs payload 2 scale)
    fun _ _ => hcode _

theorem decodeGains_needs (kpScale otherScale : ℚ) (member : F → F → QueryValue F)
    (hcode : ∀ kp other, (member kp other).code = code) :
    Needs payload.length 4 (decodeGains payload kpScale otherScale member) (·.code = code) :=
  needs_pair (readU16BeFloat_needs payload 0) (readU16BeFloat_needs payload 2)
    fun _ _ => hcode _ _

end Payload

/-! ## Query codes -/

/-- The declared query codes, each with the payload of its answer in bytes. -/
def queryPayloadLens : List (ConfigQueryCode × Nat) :=
  [(.position, 4), (.velocity, 4), (.current, 4), (.power, 4),
    (.acceleration, 2), (.fluxObserverGain, 2), (.disturbanceCompensationCoeff, 2),
    (.feedbackCompensationCoeff, 2), (.dampingCoeff, 2), (.torqueRatio, 2),
    (.pvtKpRange, 4), (.pvtKdRange, 4), (.pvtPositionLimitR, 4), (.pvtVelocityLimitRadps, 4),
    (.pvtTorqueLimitNm, 4), (.pvtCurrentLimit, 4), (.mcuUuid, 5), (.version, 6), (.canTimeout, 2),
    (.currentLoopPi, 4), (.velocityLoopPi, 4), (.positionLoopPd, 4), (.brakeStatus, 1)]

/-- `none` for a byte that no enumerator has. -/
def payloadLen (code : ConfigQueryCode) : Option Nat := queryPayloadLens.lookup code

/-- What a switch over the listed codes does with a payload. -/
def Switch {F : Type} (length : Nat) (code : ConfigQueryCode)
    (lens : List (ConfigQueryCode × Nat)) (step : DecodeM (QueryValue F)) : Prop :=
  match lens.lookup code with
  | some count => Needs length count step (·.code = code)
  | none => step.run = some (.error .unsupported)

theorem switch_cons {F : Type} {length count : Nat} {code label : ConfigQueryCode}
    {lens : List (ConfigQueryCode × Nat)} {yes no : DecodeM (QueryValue F)}
    (hyes : Needs length count yes (·.code = label)) (hno : Switch length code lens no) :
    Switch length code ((label, count) :: lens) (if code = label then yes else no) := by
  unfold Switch at hno ⊢
  rw [List.lookup_cons]
  by_cases h : code = label
  · subst h
    rw [beq_self_eq_true, if_pos rfl]
    exact hyes
  · rw [beq_false_of_ne h, if_neg h]
    exact hno

theorem decodeQueryValue_switch {F : Type} [FloatArith F] (payload : List Byte)
    (code : ConfigQueryCode) :
    Switch payload.length code queryPayloadLens
      (decodeQueryValue code payload : DecodeM (QueryValue F)) := by
  refine switch_cons (decodeFloat_needs payload _ fun _ => rfl) ?_
  refine switch_cons (decodeFloat_needs payload _ fun _ => rfl) ?_
  refine switch_cons (decodeFloat_needs payload _ fun _ => rfl) ?_
  refine switch_cons (decodeFloat_needs payload _ fun _ => rfl) ?_
  refine switch_cons (decodeU16_needs payload _ fun _ => rfl) ?_
  refine switch_cons (decodeU16_needs payload _ fun _ => rfl) ?_
  refine switch_cons (decodeU16_needs payload _ fun _ => rfl) ?_
  refine switch_cons (decodeU16_needs payload _ fun _ => rfl) ?_
  refine switch_cons (decodeU16_needs payload _ fun _ => rfl) ?_
  refine switch_cons (decodeU16_needs payload _ fun _ => rfl) ?_
  refine switch_cons (decodeU16Range_needs payload _ fun _ => rfl) ?_
  refine switch_cons (decodeU16Range_needs payload _ fun _ => rfl) ?_
  refine switch_cons (decodeI16Range_needs payload _ _ fun _ => rfl) ?_
  refine switch_cons (decodeI16Range_needs payload _ _ fun _ => rfl) ?_
  refine switch_cons (decodeI16Range_needs payload _ _ fun _ => rfl) ?_
  refine switch_cons (decodeI16Range_needs payload _ _ fun _ => rfl) ?_
  refine switch_cons (decodeMcuUuid_needs payload) ?_
  refine switch_cons (decodeVersion_needs payload) ?_
  refine switch_cons (decodeCanTimeout_needs payload) ?_
  refine switch_cons (decodeGains_needs payload _ _ _ fun _ _ => rfl) ?_
  refine switch_cons (decodeGains_needs payload _ _ _ fun _ _ => rfl) ?_
  refine switch_cons (decodeGains_needs payload _ _ _ fun _ _ => rfl) ?_
  refine switch_cons (decodeBrakeStatus_needs payload) ?_
  rfl

end ServoFleet.CanCodec
