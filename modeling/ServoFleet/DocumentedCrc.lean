import ServoFleet.Checksum

/-!
The checksum as the protocol document has it, a bit at a time, and that the slices
of eight bytes compute it. The tables only enter through the linearity of the
register.

Which corruptions the checksum finds is a matter of the packets.
-/

namespace ServoFleet.Checksum

/-- One shift of the register; the polynomial meets it when the bit shifted out is 1. -/
def shiftOut (crc : BitVec 16) : BitVec 16 :=
  if crc.getLsbD 15 then (crc <<< 1) ^^^ 0x1021 else crc <<< 1

/-- A byte enters at the high end and is shifted through. -/
def shiftByte (crc : BitVec 16) (byte : Byte) : BitVec 16 :=
  shiftOut^[8] (crc ^^^ (byte.setWidth 16 <<< 8))

def documentedCrc (bytes : List Byte) : BitVec 16 := bytes.foldl shiftByte 0

theorem shiftOut_eq : shiftOut = Crc.shift crc16CcittPoly := by
  funext crc
  rw [shiftOut, Crc.shift, BitVec.msb_eq_getLsbD_last, crc16CcittPoly]

/-- The byte update through the table is the documented one. -/
theorem crc16CcittUpdate_shiftByte : crc16CcittUpdate = shiftByte := by
  funext crc byte
  rw [crc16CcittUpdate_eq, shiftByte, shiftOut_eq, turn, high]

/-- On a byte string of any length the slices and the bytes left over give the documented
checksum, which takes the bits one by one, and no read leaves the buffer. -/
theorem crc16Ccitt_documented (bytes : List Byte) :
    crc16Ccitt bytes = some (documentedCrc bytes) := by
  rw [crc16Ccitt_foldl, crc16CcittUpdate_shiftByte, documentedCrc]

end ServoFleet.Checksum
