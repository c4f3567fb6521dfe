import ServoFleet.CanDecode

/-!
Answers to queries: how a response that carries given bytes is decoded.
-/

namespace ServoFleet

namespace CanFrame

def queryCode (frame : CanFrame) : ConfigQueryCode := { raw := frame.byte 1 }

theorem get_key (frame : CanFrame) :
    (frame.get CanField.FeedbackQuery.key).setWidth 8 = frame.byte 1 := by
  rw [CanField.FeedbackQuery.key, frame.get_u8 1 (by decide),
    BitVec.setWidth_setWidth_of_le _ (by decide), BitVec.setWidth_eq, frame.byte_eq (by decide)]

end CanFrame

namespace CanCodec

open CanField

/-- A response of type 5 to a query of `code` whose payload starts with `count`
bytes of the sent frame. On the broadcast identifier a payload that starts with
one is an acknowledgement, not a response. -/
structure QueryResponse (response sent : CanFrame) (code : ConfigQueryCode) (count : Nat) :
    Prop where
  type : response.get Feedback.type = 5
  key : response.byte 1 = code.raw
  payload : ∀ (i : Nat) (_ : i < 8), 2 ≤ i → i < 2 + count → response.data[i] = sent.data[i]
  active : 2 + count ≤ response.len.toNat
  len : response.len.toNat ≤ maxCanDataLen
  notAck : response.id ≠ broadcastCanId ∨ response.byte 2 ≠ 1

theorem readField_eq (field : BitCodec.Bits) (frame : CanFrame) (h : frame.Fits field) :
    readField field frame = pure (frame.get field) := by
  rw [readField, CanFrame.read_eq _ _ h]
  rfl

theorem parseBroadcastResponse_error {F : Type} (frame : CanFrame)
    (h : frame.id ≠ broadcastCanId ∨ frame.byte 2 ≠ 1) :
    (parseBroadcastResponse frame : Result (ServoFleet.Feedback F)) = .error .unsupported := by
  rcases h with h | h
  · exact if_pos h
  · have hmode : ¬ (frame.len = 5 ∧ frame.byte 0 = 0xFF ∧ frame.byte 1 = 0xFF ∧
        frame.byte 2 = 0x01) := fun hack => h hack.2.2.2
    have hack : ¬ (frame.len.toNat ≥ 4 ∧ frame.byte 2 = 0x01) := fun hack => h hack.2
    rw [parseBroadcastResponse, if_neg hmode, if_neg hack]
    split_ifs <;> rfl

/-- The payload a query response is decoded from. -/
def queryPayload (response : CanFrame) : List Byte :=
  (response.data.toList.drop 2).take (response.len.toNat - 2)

/-- Behind the length check the answer to a query is what its payload decodes to. -/
theorem parseQueryResponse_run {F : Type} [FloatArith F] {frame : CanFrame} (error : MotorErr)
    (hlen : frame.len.toNat ≤ maxCanDataLen) (hmin : 2 ≤ frame.len.toNat) :
    (parseQueryResponse frame error : DecodeM (ServoFleet.Feedback F)) =
      (do
        let value ← decodeQueryResult frame.queryCode error (queryPayload frame)
        return .query value) := by
  have hshort : ¬ frame.len < 2 := by
    rw [BitVec.lt_def]
    exact Nat.not_lt.mpr hmin
  have hspan : subspan frame.data.toList 2 (frame.len.toNat - 2) = some (queryPayload frame) :=
    subspan_of_le (by simp only [maxCanDataLen] at hlen; simp; omega)
  have hfit : frame.Fits FeedbackQuery.key := ⟨hlen, by
    change 8 + 8 ≤ _
    omega⟩
  rw [parseQueryResponse, requireFrameLen, if_neg hshort, hspan, CanFrame.read_eq _ _ hfit]
  change (do
    let value ← decodeQueryResult { raw := (frame.get FeedbackQuery.key).setWidth 8 } _ _
    return ServoFleet.Feedback.query value) = _
  rw [frame.get_key]
  rfl

/-- The first check of `parse_feedback`. -/
theorem len_guard (frame : CanFrame) : (frame.len = 0 ∨ frame.len.toNat > maxCanDataLen) ↔
    ¬ (1 ≤ frame.len.toNat ∧ frame.len.toNat ≤ maxCanDataLen) := by
  have hzero : frame.len = 0 ↔ frame.len.toNat = 0 := BitVec.toNat_eq
  rw [hzero]
  omega

theorem parseFeedback_query {F : Type} [FloatArith F] (response sent : CanFrame)
    (code : ConfigQueryCode) (count : Nat)
    (range : Option (Range F)) (h : QueryResponse response sent code count) :
    parseFeedback response range =
      (do
        let value ← decodeQueryResult code (parseError (response.get Feedback.error))
          (queryPayload response)
        return .query value) := by
  have hactive := h.active
  have hguard : ¬ (response.len = 0 ∨ response.len.toNat > maxCanDataLen) := by
    rw [len_guard, not_not]
    exact ⟨by omega, h.len⟩
  have hfirst : ∀ field : BitCodec.Bits, field.offset + field.len ≤ 16 →
      response.Fits field := by
    intro field hfield
    refine ⟨h.len, ?_⟩
    omega
  have hresponse : parseResponse response range = parseQueryResponse response
      (parseError (response.get Feedback.error)) := by
    rw [parseResponse, readField_eq _ _ (hfirst _ (by decide)),
      readField_eq _ _ (hfirst _ (by decide)), h.type]
    rfl
  have hcode : response.queryCode = code := congrArg ConfigQueryCode.mk h.key
  rw [parseFeedback, if_neg hguard, parseBroadcastResponse_error _ h.notAck, hresponse,
    parseQueryResponse_run _ h.len (by omega), hcode]
  split_ifs <;> rfl

/-- Two adjacent payload bytes of a response are those of the sent frame. -/
theorem readU16Be_payload (response sent : CanFrame) (code : ConfigQueryCode) (count k : Nat)
    (h : QueryResponse response sent code count) (hk : k + 3 < 8) (hcount : k + 2 ≤ count) :
    readU16Be (queryPayload response) k =
      pure (BigEndian.join16 (sent.byte (k + 2)) (sent.byte (k + 3))) := by
  have hlen := h.len
  have hactive := h.active
  simp only [maxCanDataLen] at hlen
  have hpayload : (queryPayload response).length = response.len.toNat - 2 := by
    simp [queryPayload]
    omega
  have hbyte : ∀ (i : Nat) (_ : i + 2 < 8), i < count →
      (queryPayload response)[i]? = some sent.data[i + 2] := by
    intro i hi hin
    rw [queryPayload, List.getElem?_take_of_lt (by omega), List.getElem?_drop,
      List.getElem?_eq_getElem (by simp; omega), Vector.getElem_toList, ← h.payload (i + 2) hi
      (by omega) (by omega)]
    simp only [Nat.add_comm 2 i]
  rw [readU16Be, if_neg (by omega), byteAt, byteAt, hbyte k (by omega) (by omega),
    hbyte (k + 1) (by omega) (by omega), sent.byte_eq (by omega), sent.byte_eq (by omega)]
  rfl

end CanCodec

end ServoFleet
