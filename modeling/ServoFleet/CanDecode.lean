import ServoFleet.Theory.BigEndian
import ServoFleet.Feedback
import ServoFleet.FrameFields

/-!
`parse_feedback`. A decoder either leaves the data bytes of the frame (`none`)
or ends in a feedback or an error code.
-/

namespace ServoFleet.CanCodec

abbrev DecodeM := ExceptT FleetErr Option

def okStatus : BitVec 32 := 1

/-- The byte of a view; leaving the view is undefined behaviour. -/
def byteAt (bytes : List Byte) (index : Nat) : DecodeM Byte :=
  ExceptT.mk (bytes[index]?.map .ok)

/-- A failed read of a field, reported as a protocol error. -/
def readField (field : BitCodec.Bits) (frame : CanFrame) : DecodeM (BitVec 32) :=
  ExceptT.mk ((frame.read field).map fun
    | .ok raw => .ok raw
    | .error _ => .error .protocolError)

section Quantities

variable {F : Type} [FloatArith F]

open FloatArith

def i16X100ToF32 (raw : BitVec 32) : F := ofRat (raw.setWidth 16).toInt / ofRat 100

def u8TempToCelsius (raw : BitVec 32) : F :=
  (ofRat (raw.setWidth 8).toNat - ofRat 50) / ofRat 2

def decodeSymmetric (raw : BitVec 32) (range maxRaw : F) : F :=
  (ofRat raw.toNat / maxRaw) * (ofRat 2 * range) - range

def decodeLinear (raw : BitVec 32) (range : Range F) (maxRaw : F) : F :=
  range.min + (ofRat raw.toNat / maxRaw) * (range.max - range.min)

end Quantities

def readU16Be (bytes : List Byte) (offset : Nat) : DecodeM (BitVec 16) := do
  if offset + 2 > bytes.length then throw .protocolError
  let b0 ← byteAt bytes offset
  let b1 ← byteAt bytes (offset + 1)
  return BigEndian.join16 b0 b1

def readU32Be (bytes : List Byte) (offset : Nat) : DecodeM (BitVec 32) := do
  if offset + 4 > bytes.length then throw .protocolError
  let b0 ← byteAt bytes offset
  let b1 ← byteAt bytes (offset + 1)
  let b2 ← byteAt bytes (offset + 2)
  let b3 ← byteAt bytes (offset + 3)
  return BigEndian.join32 b0 b1 b2 b3

section Decode

variable {F : Type} [FloatArith F]

open FloatArith

/-- `read_u16_be` into a float. -/
def readU16BeFloat (bytes : List Byte) (offset : Nat) : DecodeM F := do
  let raw ← readU16Be bytes offset
  return ofRat raw.toNat

/-- `read_i16_be`, converted and divided by a scale. -/
def readI16BeScaled (bytes : List Byte) (offset : Nat) (scale : ℚ) : DecodeM F := do
  let raw ← readU16Be bytes offset
  return ofRat raw.toInt / ofRat scale

def readF32Be (bytes : List Byte) (offset : Nat) : DecodeM F := do
  let raw ← readU32Be bytes offset
  return ofBits raw

def decodeFloat (payload : List Byte) (member : F → QueryValue F) : DecodeM (QueryValue F) := do
  let v ← readF32Be payload 0
  return member v

def decodeU16 (payload : List Byte) (member : F → QueryValue F) : DecodeM (QueryValue F) := do
  let v ← readU16BeFloat payload 0
  return member v

def decodeU16Range (payload : List Byte) (member : Range F → QueryValue F) :
    DecodeM (QueryValue F) := do
  let min ← readU16BeFloat payload 0
  let max ← readU16BeFloat payload 2
  return member { min, max }

def decodeI16Range (payload : List Byte) (scale : ℚ) (member : Range F → QueryValue F) :
    DecodeM (QueryValue F) := do
  let min ← readI16BeScaled payload 0 scale
  let max ← readI16BeScaled payload 2 scale
  return member { min, max }

def decodeMcuUuid (payload : List Byte) : DecodeM (QueryValue F) := do
  if payload.length < 5 then throw .protocolError
  let index ← byteAt payload 0
  let b0 ← byteAt payload 1
  let b1 ← byteAt payload 2
  let b2 ← byteAt payload 3
  let b3 ← byteAt payload 4
  return .mcuUuidFragment { index, bytes := #v[b0, b1, b2, b3] }

def decodeVersion (payload : List Byte) : DecodeM (QueryValue F) := do
  if payload.length < 6 then throw .protocolError
  let hwMajor ← byteAt payload 0
  let hwMinor ← byteAt payload 1
  let hwPatch ← byteAt payload 2
  let fwMajor ← byteAt payload 3
  let fwMinor ← byteAt payload 4
  let fwPatch ← byteAt payload 5
  return .version { hwMajor, hwMinor, hwPatch, fwMajor, fwMinor, fwPatch }

def decodeCanTimeout (payload : List Byte) : DecodeM (QueryValue F) := do
  let v ← readU16Be payload 0
  return .canTimeout v.toNat

/-- Two gains, the first of them `kp`, each divided by its scale. -/
def decodeGains (payload : List Byte) (kpScale otherScale : ℚ) (member : F → F → QueryValue F) :
    DecodeM (QueryValue F) := do
  let kp ← readU16BeFloat payload 0
  let other ← readU16BeFloat payload 2
  return member (kp / ofRat kpScale) (other / ofRat otherScale)

def decodeBrakeStatus (payload : List Byte) : DecodeM (QueryValue F) := do
  if payload.length = 0 then throw .protocolError
  let status ← byteAt payload 0
  return .brakeStatus (status ≠ 0)

/-- The switch of `decode_query_result`. -/
def decodeQueryValue (code : ConfigQueryCode) (payload : List Byte) : DecodeM (QueryValue F) :=
  if code = .position then decodeFloat payload .positionDeg
  else if code = .velocity then decodeFloat payload .velocityRpm
  else if code = .current then decodeFloat payload .current
  else if code = .power then decodeFloat payload .power
  else if code = .acceleration then decodeU16 payload .accelerationRadps2
  else if code = .fluxObserverGain then decodeU16 payload .fluxObserverGain
  else if code = .disturbanceCompensationCoeff then
    decodeU16 payload .disturbanceCompensationCoeff
  else if code = .feedbackCompensationCoeff then decodeU16 payload .feedbackCompensationCoeff
  else if code = .dampingCoeff then decodeU16 payload .dampingCoeff
  else if code = .torqueRatio then decodeU16 payload fun v => .torqueRatio (v / ofRat 100)
  else if code = .pvtKpRange then decodeU16Range payload .pvtKpRange
  else if code = .pvtKdRange then decodeU16Range payload .pvtKdRange
  else if code = .pvtPositionLimitR then decodeI16Range payload 100 .pvtPositionLimitR
  else if code = .pvtVelocityLimitRadps then decodeI16Range payload 100 .pvtVelocityLimitRadps
  else if code = .pvtTorqueLimitNm then decodeI16Range payload 10 .pvtTorqueLimitNm
  else if code = .pvtCurrentLimit then decodeI16Range payload 10 .pvtCurrentLimit
  else if code = .mcuUuid then decodeMcuUuid payload
  else if code = .version then decodeVersion payload
  else if code = .canTimeout then decodeCanTimeout payload
  else if code = .currentLoopPi then
    decodeGains payload 10000 10 fun kp ki => .currentLoopPi { kp, kd := ofRat 0, ki }
  else if code = .velocityLoopPi then
    decodeGains payload 100000 100000 fun kp ki => .velocityLoopPi { kp, kd := ofRat 0, ki }
  else if code = .positionLoopPd then
    decodeGains payload 100000 100000 fun kp kd => .positionLoopPd { kp, kd, ki := ofRat 0 }
  else if code = .brakeStatus then decodeBrakeStatus payload
  else throw .unsupported

def decodeQueryResult (code : ConfigQueryCode) (error : MotorErr) (payload : List Byte) :
    DecodeM (QueryFeedback F) := do
  let value ← decodeQueryValue code payload
  return { error, value }

def parseError (value : BitVec 32) : MotorErr :=
  match (value.setWidth 8 : Byte).toNat with
  | 0 => .none
  | 1 => .overTemp
  | 2 => .overCurrent
  | 3 => .overVoltage
  | 4 => .underVoltage
  | 5 => .encoderFail
  | 6 => .brakeOverVoltage
  | 7 => .driver
  | 0x1E => .comm
  | _ => .unknown

def parseBroadcastResponse (frame : CanFrame) : Result (Feedback F) :=
  if frame.id ≠ broadcastCanId then .error .unsupported
  else if frame.len = 5 ∧ frame.byte 0 = 0xFF ∧ frame.byte 1 = 0xFF ∧ frame.byte 2 = 0x01 then
    .ok (.configAck { code := .commMode, accepted := true })
  else if frame.len.toNat ≥ 4 ∧ frame.byte 2 = 0x01 then
    .ok (.configAck { accepted := frame.byte 3 ≠ 0 })
  else .error .unsupported

def requireFrameLen (frame : CanFrame) (minLen : Byte) : DecodeM Unit :=
  if frame.len < minLen then throw .protocolError else return ()

def parseStatus1Response (frame : CanFrame) (error : MotorErr) (currentRange : Option (Range F)) :
    DecodeM (Feedback F) := do
  requireFrameLen frame 8
  let position ← readField CanField.Feedback1.position frame
  let velocity ← readField CanField.Feedback1.velocity frame
  let current ← readField CanField.Feedback1.current frame
  let motorTemp ← readField CanField.Feedback1.motorTemp frame
  let mosfetTemp ← readField CanField.Feedback1.mosfetTemp frame
  return .status {
    error
    positionR := decodeSymmetric position (ofRat (25 / 2)) (ofRat 65535)
    velocityRadps := decodeSymmetric velocity (ofRat 18) (ofRat 4095)
    current := match currentRange with
      | some range => decodeLinear current range (ofRat 4095)
      | none => ofRat current.toNat / ofRat 4095
    motorTempC := u8TempToCelsius motorTemp
    mosfetTempC := u8TempToCelsius mosfetTemp }

def parsePositionResponse (frame : CanFrame) (error : MotorErr) : DecodeM (Feedback F) := do
  requireFrameLen frame 8
  let position ← readField CanField.Feedback2.positionDeg frame
  let current ← readField CanField.Feedback2.currentX100 frame
  let temp ← readField CanField.Feedback2.temp frame
  return .position {
    error
    position := ofBits position
    current := i16X100ToF32 current
    motorTempC := u8TempToCelsius temp }

def parseVelocityResponse (frame : CanFrame) (error : MotorErr) : DecodeM (Feedback F) := do
  requireFrameLen frame 8
  let velocity ← readField CanField.Feedback3.rpm frame
  let current ← readField CanField.Feedback3.currentX100 frame
  let temp ← readField CanField.Feedback3.temp frame
  return .velocity {
    error
    velocity := ofBits velocity
    current := i16X100ToF32 current
    motorTempC := u8TempToCelsius temp }

def parseConfigAckResponse (frame : CanFrame) (error : MotorErr) : DecodeM (Feedback F) := do
  requireFrameLen frame 3
  let key ← readField CanField.FeedbackConfig.key frame
  let status ← readField CanField.FeedbackConfig.status frame
  return .configAck { error, code := { raw := key.setWidth 8 }, accepted := status = okStatus }

/-- The payload is the active data from the third byte on. -/
def parseQueryResponse (frame : CanFrame) (error : MotorErr) : DecodeM (Feedback F) := do
  requireFrameLen frame 2
  let payload ← ExceptT.mk ((subspan frame.data.toList 2 (frame.len.toNat - 2)).map .ok)
  let raw ← ExceptT.mk (frame.read CanField.FeedbackQuery.key)
  let value ← decodeQueryResult { raw := raw.setWidth 8 } error payload
  return .query value

def parseBrakeResponse (frame : CanFrame) (error : MotorErr) : DecodeM (Feedback F) := do
  requireFrameLen frame 2
  let engaged ← readField CanField.FeedbackBrake.engaged frame
  return .brakeStatus { error, engaged := engaged ≠ 0 }

/-- The switch over the type of a response. -/
def parseResponse (frame : CanFrame) (currentRange : Option (Range F)) : DecodeM (Feedback F) := do
  let type ← readField CanField.Feedback.type frame
  let error ← readField CanField.Feedback.error frame
  match type.toNat with
  | 1 => parseStatus1Response frame (parseError error) currentRange
  | 2 => parsePositionResponse frame (parseError error)
  | 3 => parseVelocityResponse frame (parseError error)
  | 4 => parseConfigAckResponse frame (parseError error)
  | 5 => parseQueryResponse frame (parseError error)
  | 6 => parseBrakeResponse frame (parseError error)
  | _ => throw .unsupported

def parseFeedback (frame : CanFrame) (statusCurrentRange : Option (Range F)) :
    DecodeM (Feedback F) :=
  if frame.len = 0 ∨ frame.len.toNat > maxCanDataLen then throw .protocolError
  else if frame.id = broadcastCanId then
    match parseBroadcastResponse frame with
    | .ok response => return response
    | .error _ => parseResponse frame statusCurrentRange
  else parseResponse frame statusCurrentRange

end Decode

end ServoFleet.CanCodec
