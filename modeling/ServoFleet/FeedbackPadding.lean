import ServoFleet.FeedbackGrammar

/-!
Padding is never interpreted: what `parse_feedback` makes of a frame depends on its
identifier, its length and its active data bytes. Errors are among the outcomes that
agree.
-/

namespace ServoFleet

namespace CanFrame

/-- Frames that differ in their padding at most, and in what the parser never asks for. -/
structure SameActive (frame other : CanFrame) : Prop where
  id : frame.id = other.id
  len : frame.len = other.len
  data : ∀ (i : Nat) (_ : i < 8), i < frame.len.toNat → frame.data[i] = other.data[i]

namespace SameActive

variable {frame other : CanFrame} (h : frame.SameActive other)

include h

theorem take_data : frame.data.toList.take frame.len.toNat =
    other.data.toList.take other.len.toNat := by
  rw [← h.len]
  apply List.ext_getElem
  · rw [List.length_take, List.length_take, Vector.length_toList, Vector.length_toList]
  · intro i hi _
    rw [List.length_take, Vector.length_toList] at hi
    rw [List.getElem_take, List.getElem_take, Vector.getElem_toList, Vector.getElem_toList]
    exact h.data i (by omega) (by omega)

theorem read_congr (field : BitCodec.Bits) : frame.read field = other.read field := by
  rw [read, read, dataView, dataView, h.take_data, h.len]

end SameActive

end CanFrame

namespace CanCodec

section Padding

variable {F : Type} {frame other : CanFrame} (h : frame.SameActive other)

include h

theorem readField_congr (field : BitCodec.Bits) :
    readField field frame = readField field other := by
  rw [readField, readField, h.read_congr]

theorem requireFrameLen_congr (minLen : Byte) :
    requireFrameLen frame minLen = requireFrameLen other minLen := by
  rw [requireFrameLen, requireFrameLen, h.len]

/-- The bytes a broadcast response is told by lie inside the length it has. -/
theorem parseBroadcastResponse_congr :
    (parseBroadcastResponse frame : Result (ServoFleet.Feedback F)) =
      parseBroadcastResponse other := by
  have hlen := h.len
  by_cases hack : 4 ≤ frame.len.toNat
  · have hbyte : ∀ i, i < 4 → frame.byte i = other.byte i := by
      intro i hi
      rw [frame.byte_eq (by omega), other.byte_eq (by omega)]
      exact h.data i (by omega) (by omega)
    simp only [parseBroadcastResponse, h.id, hbyte 0 (by decide), hbyte 1 (by decide),
      hbyte 2 (by decide), hbyte 3 (by decide), hlen]
  · have hshort : ∀ len : Byte, ¬ 4 ≤ len.toNat → ¬ len = 5 := by
      rintro len hlow rfl
      exact hlow (by decide)
    have hother : ¬ 4 ≤ other.len.toNat := by
      rw [← hlen]
      exact hack
    simp only [parseBroadcastResponse, h.id, hshort _ hack, hshort _ hother, hack, hother,
      false_and, if_false]

/-- The payload of an answer ends with the active bytes. -/
theorem subspan_congr (start : Nat) :
    subspan frame.data.toList start (frame.len.toNat - start) =
      subspan other.data.toList start (other.len.toNat - start) := by
  have hdata := congrArg (List.drop start) h.take_data
  rw [List.drop_take, List.drop_take] at hdata
  rw [subspan, subspan, hdata, Vector.length_toList, Vector.length_toList, h.len]

variable [FloatArith F]

theorem parseResponse_congr (range : Option (Range F)) :
    parseResponse frame range = parseResponse other range := by
  simp only [parseResponse, parseStatus1Response, parsePositionResponse, parseVelocityResponse,
    parseConfigAckResponse, parseQueryResponse, parseBrakeResponse, readField_congr h,
    requireFrameLen_congr h, subspan_congr h, h.read_congr]

end Padding

/-- Frames of one identifier and one length whose active data bytes agree are parsed
alike, and no frame, whatever its length byte, makes the parser leave the eight data
bytes. Ports and flags may differ. -/
theorem parseFeedback_ignores_padding {F : Type} [FloatArith F] (range : Option (Range F)) :
    (∀ frame other : CanFrame, frame.id = other.id → frame.len = other.len →
      (∀ (i : Nat) (_ : i < 8), i < frame.len.toNat → frame.data[i] = other.data[i]) →
      parseFeedback frame range = parseFeedback other range) ∧
    ∀ frame : CanFrame, ∃ outcome, (parseFeedback frame range).run = some outcome := by
  constructor
  · intro frame other hid hlen hdata
    have h : frame.SameActive other := ⟨hid, hlen, hdata⟩
    simp only [parseFeedback, parseResponse_congr h, parseBroadcastResponse_congr h, hid, hlen]
  · intro frame
    exact parseFeedback_total frame range

end CanCodec

end ServoFleet
