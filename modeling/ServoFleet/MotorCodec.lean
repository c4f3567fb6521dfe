import ServoFleet.Theory.BigEndian
import ServoFleet.CanFrame
import ServoFleet.Checksum

/-!
The CAN-over-UDP packet codec. Buffers are indexed with checked reads and
writes: `none` is an access outside the buffer, an error code is a result.
Sizes are natural numbers; every one of them stays below 2^16 + 8.
-/

namespace ServoFleet.MotorCodec

open Checksum

def typeCan2udp : Byte := 0x00
def typeUdp2can : Byte := 0x01

def stx : Byte := 0xAA
def etx : Byte := 0xBB
def canEntrySz : Nat := 14
def minPacketSz : Nat := 8

def headerSz : Nat := 4
def crcSz : Nat := 2
def trailerSz : Nat := 1
def msgCntSz : Nat := 1

namespace Wire

def stxOffset : Nat := 0
def typeOffset : Nat := 1
def payloadLenOffset : Nat := 2
def msgCntOffset : Nat := headerSz

def entryPortOffset : Nat := 0
def entryWireIdOffset : Nat := 1
def entryLenOffset : Nat := 5
def entryDataOffset : Nat := 6

end Wire

structure HeaderInfo where
  type : Byte := 0
  payloadLen : BitVec 16 := 0

def packetSize (payloadLen : Nat) : Nat := headerSz + payloadLen + crcSz + trailerSz

def supportedType (type : Byte) : Bool := type = typeCan2udp || type = typeUdp2can

def payloadLenFor (frameCount : Nat) : Nat := msgCntSz + frameCount * canEntrySz

def readU16Le (bytes : List Byte) (offset : Nat) : Option (BitVec 16) := do
  let low ← bytes[offset]?
  let high ← bytes[offset + 1]?
  return BigEndian.join16 high low

def readU16Be (bytes : List Byte) (offset : Nat) : Option (BitVec 16) := do
  let b0 ← bytes[offset]?
  let b1 ← bytes[offset + 1]?
  return BigEndian.join16 b0 b1

def readU32Be (bytes : List Byte) (offset : Nat) : Option (BitVec 32) := do
  let b0 ← bytes[offset]?
  let b1 ← bytes[offset + 1]?
  let b2 ← bytes[offset + 2]?
  let b3 ← bytes[offset + 3]?
  return BigEndian.join32 b0 b1 b2 b3

def writeAt (bytes : List Byte) (offset : Nat) (value : Byte) : Option (List Byte) :=
  if offset < bytes.length then some (bytes.set offset value) else none

/-- `std::copy` into the buffer from `offset` on. -/
def copyTo (bytes : List Byte) (offset : Nat) : List Byte → Option (List Byte)
  | [] => some bytes
  | value :: rest => do
      let bytes ← writeAt bytes offset value
      copyTo bytes (offset + 1) rest

def writeU16Be (bytes : List Byte) (offset : Nat) (value : BitVec 16) : Option (List Byte) := do
  let bytes ← writeAt bytes offset ((value >>> 8).setWidth 8)
  writeAt bytes (offset + 1) (value.setWidth 8)

def writeU32Be (bytes : List Byte) (offset : Nat) (value : BitVec 32) : Option (List Byte) := do
  let bytes ← writeAt bytes offset ((value >>> 24).setWidth 8)
  let bytes ← writeAt bytes (offset + 1) ((value >>> 16).setWidth 8)
  let bytes ← writeAt bytes (offset + 2) ((value >>> 8).setWidth 8)
  writeAt bytes (offset + 3) (value.setWidth 8)

def wireIdFrom (frame : CanFrame) : BitVec 32 :=
  if frame.extended then frame.id ||| extendedIdFlag else frame.id

def applyWireId (frame : CanFrame) (wireId : BitVec 32) : CanFrame :=
  { frame with
    extended := wireId &&& extendedIdFlag ≠ 0
    id := wireId &&& ~~~extendedIdFlag }

def readHeader (bytes : List Byte) : Option (Result HeaderInfo) :=
  if bytes.length < minPacketSz then some (.error .protocolError)
  else do
    let first ← bytes[Wire.stxOffset]?
    let last ← bytes.getLast?
    if first ≠ stx ∨ last ≠ etx then return .error .protocolError
    else
      let type ← bytes[Wire.typeOffset]?
      let payloadLen ← readU16Be bytes Wire.payloadLenOffset
      if !supportedType type then return .error .unsupported
      else if bytes.length ≠ packetSize payloadLen.toNat ∨ payloadLen.toNat < msgCntSz then
        return .error .protocolError
      else return .ok { type, payloadLen }

def verifyCrc (bytes : List Byte) (payloadLen : BitVec 16) : Option ErrCode := do
  let crcOffset := headerSz + payloadLen.toNat
  let checked ← subspan bytes 1 (3 + payloadLen.toNat)
  let crcCalc ← crc16Ccitt checked
  let crcRecv ← readU16Le bytes crcOffset
  if crcCalc ≠ crcRecv then return .error .protocolError
  else return .ok ()

/-- `std::copy_n` of the eight data bytes of an entry. -/
def readData (entry : List Byte) : Option (Vector Byte 8) := do
  let b0 ← entry[Wire.entryDataOffset]?
  let b1 ← entry[Wire.entryDataOffset + 1]?
  let b2 ← entry[Wire.entryDataOffset + 2]?
  let b3 ← entry[Wire.entryDataOffset + 3]?
  let b4 ← entry[Wire.entryDataOffset + 4]?
  let b5 ← entry[Wire.entryDataOffset + 5]?
  let b6 ← entry[Wire.entryDataOffset + 6]?
  let b7 ← entry[Wire.entryDataOffset + 7]?
  return #v[b0, b1, b2, b3, b4, b5, b6, b7]

def readCanEntry (entry : List Byte) : Option (Result CanFrame) := do
  let port ← entry[Wire.entryPortOffset]?
  let len ← entry[Wire.entryLenOffset]?
  let wireId ← readU32Be entry Wire.entryWireIdOffset
  let frame := applyWireId { port, len } wireId
  if !frame.valid then return .error .protocolError
  else
    let data ← readData entry
    return .ok { frame with data }

def writeCanEntry (packet : List Byte) (base : Nat) (frame : CanFrame) : Option (List Byte) := do
  let packet ← writeAt packet (base + Wire.entryPortOffset) frame.port
  let packet ← writeU32Be packet (base + Wire.entryWireIdOffset) (wireIdFrom frame)
  let packet ← writeAt packet (base + Wire.entryLenOffset) frame.len
  copyTo packet (base + Wire.entryDataOffset) frame.data.toList

/-- The loop that writes the entries; it returns the running offset. Each entry
is a window of the packet, so its end is checked before it is written. -/
def writeEntries (packet : List Byte) (offset : Nat) :
    List CanFrame → Option (List Byte × Nat)
  | [] => some (packet, offset)
  | frame :: rest =>
      if offset + canEntrySz ≤ packet.length then do
        let packet ← writeCanEntry packet offset frame
        writeEntries packet (offset + canEntrySz) rest
      else none

/-- The writes of `encode_into`, once its checks have passed. -/
def writePacket (packet : List Byte) (type : Byte) (frames : List CanFrame) :
    Option (List Byte) := do
  let payloadLen := payloadLenFor frames.length
  let packet ← writeAt packet Wire.stxOffset stx
  let packet ← writeAt packet Wire.typeOffset type
  let packet ← writeU16Be packet Wire.payloadLenOffset (BitVec.ofNat 16 payloadLen)
  let packet ← writeAt packet Wire.msgCntOffset (BitVec.ofNat 8 frames.length)
  let (packet, offset) ← writeEntries packet (headerSz + msgCntSz) frames
  let checked ← subspan packet 1 (3 + payloadLen)
  let crc ← crc16Ccitt checked
  let packet ← writeAt packet offset (crc.setWidth 8)
  let packet ← writeAt packet (offset + 1) ((crc >>> 8).setWidth 8)
  writeAt packet (offset + crcSz) etx

/-- The caller's buffer comes back with the result; `packet` is its first
`size` bytes. -/
def encodeInto (out : List Byte) (type : Byte) (frames : List CanFrame) :
    Option (Result Nat × List Byte) :=
  if frames.length > maxFramesPerPacket then some (.error .protocolError, out)
  else
    let payloadLen := payloadLenFor frames.length
    if payloadLen > 0xFFFF then some (.error .protocolError, out)
    else
      let size := packetSize payloadLen
      if out.length < size then some (.error .invalidArgument, out)
      else if !frames.all CanFrame.valid then some (.error .protocolError, out)
      else do
        let packet ← writePacket (out.take size) type frames
        return (.ok size, packet ++ out.drop size)

section Decode

variable {σ : Type}

/-- The loop over the entries: `count` of them are left. -/
def decodeEntries (bytes : List Byte) (handler : σ → CanFrame → σ) :
    (count offset : Nat) → σ → Option (ErrCode × σ)
  | 0, _, context => some (.ok (), context)
  | count + 1, offset, context => do
      let entry ← subspan bytes offset canEntrySz
      match ← readCanEntry entry with
      | .error err => return (.error err, context)
      | .ok frame =>
          decodeEntries bytes handler count (offset + canEntrySz) (handler context frame)

/-- The handler's effect on its context is threaded; a null handler is `none`. -/
def decodeEach (bytes : List Byte) (context : σ) (handler : Option (σ → CanFrame → σ)) :
    Option (ErrCode × σ) :=
  match handler with
  | none => some (.error .invalidArgument, context)
  | some handler => do
      match ← readHeader bytes with
      | .error err => return (.error err, context)
      | .ok header =>
          match ← verifyCrc bytes header.payloadLen with
          | .error err => return (.error err, context)
          | .ok () =>
              let frameCount ← bytes[Wire.msgCntOffset]?
              if header.payloadLen.toNat ≠ payloadLenFor frameCount.toNat ∨
                  frameCount.toNat > maxFramesPerPacket then
                return (.error .protocolError, context)
              else
                decodeEntries bytes handler frameCount.toNat (headerSz + msgCntSz) context

end Decode

end ServoFleet.MotorCodec
