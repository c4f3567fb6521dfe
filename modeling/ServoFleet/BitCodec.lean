import ServoFleet.Device

/-!
Bit fields of CAN frames. The raw accessors index the buffer in loops over
`size_t`, which wraps; `none` is an access outside the buffer.
-/

namespace ServoFleet.BitCodec

/-- `size_t` -/
abbrev Size := BitVec 64

/-- `Bits<Offset, Len>` with its static assertions. -/
structure Bits where
  offset : Nat
  len : Nat
  pos : 0 < len := by decide
  le : len ≤ 32 := by decide

namespace Bits

def u8 (offset : Nat) : Bits := { offset, len := 8 }
def u16 (offset : Nat) : Bits := { offset, len := 16 }
def u32 (offset : Nat) : Bits := { offset, len := 32 }

/-- The fields with an unrolled accessor. -/
def aligned (field : Bits) : Bool :=
  field.offset % 8 = 0 && (field.len = 8 || field.len = 16 || field.len = 32)

end Bits

/-- The guard of both raw accessors. -/
def badField (bytesLen bitOffset bitLen : Size) : Bool :=
  bitLen = 0 || bitLen > 32 || bitOffset + bitLen > bytesLen * 8

def readByteLoop (bytes : List Byte) (byteOffset : Size) :
    (i count : Nat) → BitVec 32 → Option (BitVec 32)
  | _, 0, value => some value
  | i, count + 1, value => do
      let byte ← bytes[(byteOffset + BitVec.ofNat 64 i).toNat]?
      readByteLoop bytes byteOffset (i + 1) count ((value <<< 8) ||| byte.setWidth 32)

def readBitLoop (bytes : List Byte) (bitOffset : Size) :
    (i count : Nat) → BitVec 32 → Option (BitVec 32)
  | _, 0, value => some value
  | i, count + 1, value => do
      let bit := bitOffset + BitVec.ofNat 64 i
      let byte ← bytes[(bit / 8).toNat]?
      let shift := 7 - (bit % 8).toNat
      readBitLoop bytes bitOffset (i + 1) count
        ((value <<< 1) ||| ((byte >>> shift).setWidth 32 &&& 1))

def readU32Be (bytes : List Byte) (bitOffset bitLen : Size) : Option (Result (BitVec 32)) :=
  if badField (BitVec.ofNat 64 bytes.length) bitOffset bitLen then
    some (.error .invalidArgument)
  else if bitOffset % 8 = 0 ∧ bitLen % 8 = 0 then
    (readByteLoop bytes (bitOffset / 8) 0 (bitLen / 8).toNat 0).map .ok
  else
    (readBitLoop bytes bitOffset 0 bitLen.toNat 0).map .ok

def writeByteLoop (byteOffset bitLen : Size) (value : BitVec 32) :
    (i count : Nat) → List Byte → Option (List Byte)
  | _, 0, bytes => some bytes
  | i, count + 1, bytes => do
      let shift := (bitLen - 8 - BitVec.ofNat 64 i * 8).setWidth 32
      let index := (byteOffset + BitVec.ofNat 64 i).toNat
      let _ ← bytes[index]?
      writeByteLoop byteOffset bitLen value (i + 1) count
        (bytes.set index ((value >>> shift.toNat).setWidth 8))

def writeBitLoop (bitOffset bitLen : Size) (value : BitVec 32) :
    (i count : Nat) → List Byte → Option (List Byte)
  | _, 0, bytes => some bytes
  | i, count + 1, bytes => do
      let bit := bitOffset + BitVec.ofNat 64 i
      let mask : Byte := ((1 : BitVec 32) <<< (7 - (bit % 8).toNat)).setWidth 8
      let set := (value >>> (bitLen - 1 - BitVec.ofNat 64 i).toNat) &&& 1 ≠ 0
      let index := (bit / 8).toNat
      let byte ← bytes[index]?
      writeBitLoop bitOffset bitLen value (i + 1) count
        (bytes.set index (if set then byte ||| mask else byte &&& ~~~mask))

def writeU32Be (bytes : List Byte) (bitOffset bitLen : Size) (value : BitVec 32) :
    Option (ErrCode × List Byte) :=
  if badField (BitVec.ofNat 64 bytes.length) bitOffset bitLen then
    some (.error .invalidArgument, bytes)
  else if bitLen < 32 ∧ value >>> bitLen.toNat ≠ 0 then
    some (.error .invalidArgument, bytes)
  else if bitOffset % 8 = 0 ∧ bitLen % 8 = 0 then
    (writeByteLoop (bitOffset / 8) bitLen value 0 (bitLen / 8).toNat bytes).map (.ok (), ·)
  else
    (writeBitLoop bitOffset bitLen value 0 bitLen.toNat bytes).map (.ok (), ·)

def mask32 (bits : Nat) : BitVec 32 := if bits ≥ 32 then 0xFFFFFFFF else (1 <<< bits) - 1

def fieldMask (field : Bits) : BitVec 32 := mask32 field.len

def readAligned (field : Bits) (bytes : List Byte) : Option (Result (BitVec 32)) :=
  let byteOffset := field.offset / 8
  if bytes.length < byteOffset + field.len / 8 then some (.error .invalidArgument)
  else if field.len = 8 then do
    let b0 ← bytes[byteOffset]?
    return .ok (b0.setWidth 32)
  else if field.len = 16 then do
    let b0 ← bytes[byteOffset]?
    let b1 ← bytes[byteOffset + 1]?
    return .ok ((b0.setWidth 32 <<< 8) ||| b1.setWidth 32)
  else do
    let b0 ← bytes[byteOffset]?
    let b1 ← bytes[byteOffset + 1]?
    let b2 ← bytes[byteOffset + 2]?
    let b3 ← bytes[byteOffset + 3]?
    return .ok ((b0.setWidth 32 <<< 24) ||| (b1.setWidth 32 <<< 16) ||| (b2.setWidth 32 <<< 8) |||
      b3.setWidth 32)

/-- `bytes[index] = value`, inside the buffer. -/
def store (bytes : List Byte) (index : Nat) (value : Byte) : Option (List Byte) :=
  if index < bytes.length then some (bytes.set index value) else none

def writeAligned (field : Bits) (bytes : List Byte) (raw : BitVec 32) :
    Option (ErrCode × List Byte) :=
  let byteOffset := field.offset / 8
  if bytes.length < byteOffset + field.len / 8 then some (.error .invalidArgument, bytes)
  else if field.len = 8 then do
    let bytes ← store bytes byteOffset (raw.setWidth 8)
    return (.ok (), bytes)
  else if field.len = 16 then do
    let bytes ← store bytes byteOffset ((raw >>> 8).setWidth 8)
    let bytes ← store bytes (byteOffset + 1) (raw.setWidth 8)
    return (.ok (), bytes)
  else do
    let bytes ← store bytes byteOffset ((raw >>> 24).setWidth 8)
    let bytes ← store bytes (byteOffset + 1) ((raw >>> 16).setWidth 8)
    let bytes ← store bytes (byteOffset + 2) ((raw >>> 8).setWidth 8)
    let bytes ← store bytes (byteOffset + 3) (raw.setWidth 8)
    return (.ok (), bytes)

def read (field : Bits) (bytes : List Byte) : Option (Result (BitVec 32)) :=
  if field.aligned then readAligned field bytes
  else readU32Be bytes (BitVec.ofNat 64 field.offset) (BitVec.ofNat 64 field.len)

def write (field : Bits) (bytes : List Byte) (raw : BitVec 32) : Option (ErrCode × List Byte) :=
  if raw &&& ~~~fieldMask field ≠ 0 then some (.error .invalidArgument, bytes)
  else if field.aligned then writeAligned field bytes raw
  else writeU32Be bytes (BitVec.ofNat 64 field.offset) (BitVec.ofNat 64 field.len) raw

end ServoFleet.BitCodec
