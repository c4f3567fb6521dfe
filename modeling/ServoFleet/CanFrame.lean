import ServoFleet.Device

/-!
CAN frames as the codecs exchange them. A frame is identified on the bus by its
port, its identifier and whether that identifier is an extended one.
-/

namespace ServoFleet

abbrev CanPort := BitVec 8
abbrev CanId := BitVec 32

structure CanAddr where
  canPort : CanPort := 0
  canId : CanId := 0
  deriving DecidableEq, Repr

def maxCanDataLen : Nat := 8
def maxFramesPerPacket : Nat := 32
def extendedIdFlag : BitVec 32 := 0x80000000
def broadcastCanId : CanId := 0x7FF

/-- `basic_can_frame<8>`. All eight data bytes travel; `len` of them are active. -/
structure CanFrame where
  port : CanPort := 0
  id : CanId := 0
  extended : Bool := false
  data : Vector Byte 8 := Vector.replicate 8 0
  len : Byte := 0
  deriving DecidableEq, Repr

namespace CanFrame

def valid (frame : CanFrame) : Bool :=
  let maxId : CanId := if frame.extended then 0x1FFFFFFF else 0x7FF
  frame.id ≤ maxId && frame.len.toNat ≤ maxCanDataLen

/-- The byte `data[i]`, for the constant indices of the source. -/
def byte (frame : CanFrame) (i : Nat) : Byte := if h : i < 8 then frame.data[i] else 0

theorem byte_eq (frame : CanFrame) {i : Nat} (h : i < 8) : frame.byte i = frame.data[i] :=
  dif_pos h

/-- `as_bytes_view`: the active data bytes. -/
def asBytesView (frame : CanFrame) : List Byte := frame.data.toList.take frame.len.toNat

end CanFrame

end ServoFleet
