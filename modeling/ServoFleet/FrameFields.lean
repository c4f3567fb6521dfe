import ServoFleet.Theory.BigEndian
import ServoFleet.BitCodecFields
import ServoFleet.CanFrame

/-!
Fields of a CAN frame and the frame under construction. An encoder works on a
caller's frame and may leave it half written, so the frame is state that
survives an error; `none` stays an access outside the data bytes.
-/

namespace ServoFleet

open BitCodec

namespace CanField

namespace Pvt

def mode : Bits := { offset := 0, len := 3 }
def kp : Bits := { offset := 3, len := 12 }
def kd : Bits := { offset := 15, len := 9 }
def position : Bits := .u16 24
def velocity : Bits := { offset := 40, len := 12 }
def torque : Bits := { offset := 52, len := 12 }

end Pvt

namespace PositionControl

def mode : Bits := { offset := 0, len := 3 }
def positionDeg : Bits := .u32 3
def velocityRpmX10 : Bits := { offset := 35, len := 15 }
def currentAmpX10 : Bits := { offset := 50, len := 12 }
def reply : Bits := { offset := 62, len := 2 }

end PositionControl

namespace VelocityControl

def mode : Bits := { offset := 0, len := 3 }
def reserved : Bits := { offset := 3, len := 3 }
def reply : Bits := { offset := 6, len := 2 }
def rpm : Bits := .u32 8
def currentAmpX10 : Bits := .u16 40

end VelocityControl

namespace TorqueControl

def mode : Bits := { offset := 0, len := 3 }
def state : Bits := { offset := 3, len := 3 }
def reply : Bits := { offset := 6, len := 2 }
def value : Bits := .u16 8

end TorqueControl

namespace BrakeControl

def mode : Bits := { offset := 0, len := 3 }
def reserved : Bits := { offset := 3, len := 5 }
def engaged : Bits := .u8 8

end BrakeControl

namespace ConfigQuery

def mode : Bits := { offset := 0, len := 3 }
def key : Bits := .u8 8

end ConfigQuery

namespace Config

def mode : Bits := { offset := 0, len := 3 }
def key : Bits := .u8 8
def value : Bits := .u16 16
def min : Bits := .u16 16
def max : Bits := .u16 32

end Config

-- `Type` and `Error` of every feedback
namespace Feedback

def type : Bits := { offset := 0, len := 3 }
def error : Bits := { offset := 3, len := 5 }

end Feedback

namespace Feedback1

def position : Bits := .u16 8
def velocity : Bits := { offset := 24, len := 12 }
def current : Bits := { offset := 36, len := 12 }
def motorTemp : Bits := .u8 48
def mosfetTemp : Bits := .u8 56

end Feedback1

namespace Feedback2

def positionDeg : Bits := .u32 8
def currentX100 : Bits := .u16 40
def temp : Bits := .u8 56

end Feedback2

namespace Feedback3

def rpm : Bits := .u32 8
def currentX100 : Bits := .u16 40
def temp : Bits := .u8 56

end Feedback3

namespace FeedbackConfig

def key : Bits := .u8 8
def status : Bits := .u8 16

end FeedbackConfig

namespace FeedbackQuery

def key : Bits := .u8 8

end FeedbackQuery

namespace FeedbackBrake

def engaged : Bits := .u8 8

end FeedbackBrake

end CanField

namespace CanFrame

/-- `bytes_view{frame.data.data(), frame.len}`: a view past the array is an
access outside it. -/
def dataView (frame : CanFrame) : Option (List Byte) :=
  if frame.len.toNat ≤ maxCanDataLen then some (frame.data.toList.take frame.len.toNat) else none

/-- `read<Field>(frame)` -/
def read (field : Bits) (frame : CanFrame) : Option (Result (BitVec 32)) := do
  let view ← frame.dataView
  BitCodec.read field view

/-- The frame after its first data bytes have been overwritten. -/
def overwrite (frame : CanFrame) (bytes : List Byte) : CanFrame :=
  { frame with data := Vector.ofFn fun i => bytes[i.val]?.getD frame.data[i.val] }

end CanFrame

/-- A step of an encoder. -/
def FrameM (α : Type) := CanFrame → Option (Result α × CanFrame)

namespace FrameM

def pure {α : Type} (value : α) : FrameM α := fun frame => some (.ok value, frame)

/-- An error ends the encoder and keeps the frame as it is. -/
def bind {α β : Type} (step : FrameM α) (next : α → FrameM β) : FrameM β := fun frame =>
  match step frame with
  | none => none
  | some (.error err, frame) => some (.error err, frame)
  | some (.ok value, frame) => next value frame

instance : Monad FrameM where
  pure := FrameM.pure
  bind := FrameM.bind

def fail {α : Type} (err : FleetErr) : FrameM α := fun frame => some (.error err, frame)

/-- `if (!value) return value.error()` -/
def check {α : Type} (value : Result α) : FrameM α := fun frame => some (value, frame)

end FrameM

def initFrame (id : CanId) (port : CanPort) (len : Byte) : FrameM Unit := fun _ =>
  some (.ok (), { port, id, len })

/-- `write<Field>(frame, raw)` -/
def write (field : Bits) (raw : BitVec 32) : FrameM Unit := fun frame => do
  let view ← frame.dataView
  let (err, bytes) ← BitCodec.write field view raw
  some (err, frame.overwrite bytes)

/-- `frame.data[index] = value` -/
def writeData (index : Fin 8) (value : Byte) : FrameM Unit := fun frame =>
  some (.ok (), { frame with data := frame.data.set index value })

/-! ## Fields as numbers -/

namespace CanFrame

def get (frame : CanFrame) (field : Bits) : BitVec 32 :=
  BitField.get frame.data.toList field.offset field.len

def put (frame : CanFrame) (field : Bits) (raw : BitVec 32) : CanFrame :=
  { frame with
    data := ⟨(BitField.put frame.data.toList field.offset field.len raw).toArray, by simp⟩ }

/-- The field lies inside the active bytes. -/
def Fits (frame : CanFrame) (field : Bits) : Prop :=
  frame.len.toNat ≤ maxCanDataLen ∧ field.offset + field.len ≤ 8 * frame.len.toNat

instance (frame : CanFrame) (field : Bits) : Decidable (frame.Fits field) :=
  inferInstanceAs (Decidable (_ ∧ _))

variable (frame : CanFrame) (field : Bits) (raw : BitVec 32)

@[simp]
theorem put_toList : (frame.put field raw).data.toList =
    BitField.put frame.data.toList field.offset field.len raw := rfl

theorem fits_of_len {frame : CanFrame} {field : Bits} (len : Byte) (hlen : frame.len = len)
    (h : len.toNat ≤ maxCanDataLen ∧ field.offset + field.len ≤ 8 * len.toNat) :
    frame.Fits field := by
  subst hlen
  exact h

private theorem take_bit (bytes : List Byte) (n i : Nat) (h : i < 8 * n) :
    BitField.bit (bytes.take n) i = BitField.bit bytes i := by
  unfold BitField.bit
  rw [List.getElem?_take_of_lt (by omega)]

theorem read_eq (h : frame.Fits field) : frame.read field = some (.ok (frame.get field)) := by
  obtain ⟨hlen, hfit⟩ := h
  have hview : (frame.data.toList.take frame.len.toNat).length = frame.len.toNat := by
    simp only [maxCanDataLen] at hlen
    simp [hlen]
  rw [read, dataView, if_pos hlen, Option.bind_eq_bind, Option.bind_some,
    BitCodec.read_eq field _ (by rw [hview]; exact hfit) (by rw [hview]; omega), get]
  congr 2
  apply BitField.get_congr
  intro i _ hi
  exact take_bit _ _ _ (by omega)

private theorem overwrite_toList (bytes : List Byte) (h : bytes.length ≤ 8) :
    (frame.overwrite bytes).data.toList = bytes ++ frame.data.toList.drop bytes.length := by
  apply List.ext_getElem
  · simp
    omega
  · intro i hi _
    have hdata : i < 8 := by simpa using hi
    have hbyte : (frame.overwrite bytes).data.toList[i] = bytes[i]?.getD frame.data[i] := by
      simp [overwrite]
    refine hbyte.trans ?_
    by_cases hlt : i < bytes.length
    · rw [List.getElem_append_left hlt, List.getElem?_eq_getElem hlt, Option.getD_some]
    · rw [List.getElem_append_right (by omega), List.getElem?_eq_none (by omega),
        Option.getD_none, List.getElem_drop, Vector.getElem_toList]
      congr 1
      omega

private theorem overwrite_eq (bytes : List Byte) (after : Vector Byte 8) (h : bytes.length ≤ 8)
    (hafter : after.toList = bytes ++ frame.data.toList.drop bytes.length) :
    frame.overwrite bytes = { frame with data := after } := by
  have hdata : (frame.overwrite bytes).data = after := by
    apply Vector.toList_inj.mp
    rw [frame.overwrite_toList bytes h, hafter]
  rw [← hdata]
  rfl

theorem write_eq (h : frame.Fits field) (hraw : raw.toNat < 2 ^ field.len) :
    write field raw frame = some (.ok (), frame.put field raw) := by
  obtain ⟨hlen, hfit⟩ := h
  have hview : (frame.data.toList.take frame.len.toNat).length = frame.len.toNat := by
    simp only [maxCanDataLen] at hlen
    simp [hlen]
  have hwrite := BitCodec.write_eq field (frame.data.toList.take frame.len.toNat) raw
    (by rw [hview]; exact hfit) (by rw [hview]; omega) hraw
  have hover := frame.overwrite_eq
    (BitField.put (frame.data.toList.take frame.len.toNat) field.offset field.len raw)
    (frame.put field raw).data
    (by
      simp only [maxCanDataLen] at hlen
      rw [BitField.put_length, hview]
      exact hlen) (by
      rw [put_toList, BitField.put_length, hview, ← BitField.put_append _ _ _ _ _
        (by rw [hview]; exact hfit), List.take_append_drop])
  simp only [write, dataView, if_pos hlen, Option.bind_eq_bind, Option.bind_some, hwrite, hover]
  rfl

theorem write_error (h : frame.len.toNat ≤ maxCanDataLen) (hraw : ¬ raw.toNat < 2 ^ field.len) :
    write field raw frame = some (.error .invalidArgument, frame) := by
  have hwrite := BitCodec.write_error field (frame.data.toList.take frame.len.toNat) raw hraw
  have hover := frame.overwrite_eq (frame.data.toList.take frame.len.toNat) frame.data
    (by
      rw [List.length_take]
      exact Nat.le_trans (Nat.min_le_left _ _) h) (by
    rw [List.length_take, List.drop_eq_drop_iff.mpr]
    · exact (List.take_append_drop frame.len.toNat _).symm
    · simp)
  simp only [write, dataView, if_pos h, Option.bind_eq_bind, Option.bind_some, hwrite, hover]

/-- A field of one whole byte. -/
theorem get_u8 (k : Nat) (h : k < 8) :
    frame.get (.u8 (8 * k)) = frame.data[k].setWidth 32 := by
  have hbyte := BitField.get_byte (w := 32) frame.data.toList k 0 (by simp; omega)
  have hzero : (BitField.get frame.data.toList (8 * k) (8 * 0) : BitVec 32) = 0 := rfl
  rw [hzero] at hbyte
  apply hbyte.trans
  simp

/-- A field of two whole bytes. -/
theorem get_u16 (k : Nat) (h : k + 1 < 8) :
    frame.get (.u16 (8 * k)) =
      (BigEndian.join16 frame.data[k] frame.data[k + 1]).setWidth 32 := by
  have h0 := BitField.get_byte (w := 32) frame.data.toList k 0 (by simp; omega)
  have h1 := BitField.get_byte (w := 32) frame.data.toList k 1 (by simp; omega)
  have hzero : (BitField.get frame.data.toList (8 * k) (8 * 0) : BitVec 32) = 0 := rfl
  rw [hzero] at h0
  rw [BigEndian.join16_append, BitVec.setWidth_append_eq_shiftLeft_setWidth_or]
  apply h1.trans
  rw [show 8 * 1 = 8 * (0 + 1) from rfl, h0]
  simp

end CanFrame

/-! ## Runs of an encoder -/

namespace FrameM

variable {α β : Type} (next : α → FrameM β) (frame : CanFrame)

theorem bind_ok (step : FrameM α) (value : α) (after : CanFrame)
    (h : step frame = some (.ok value, after)) : (step >>= next) frame = next value after := by
  change FrameM.bind step next frame = _
  rw [FrameM.bind, h]

theorem bind_check_ok (value : α) : (check (.ok value) >>= next) frame = next value frame := rfl

theorem bind_check_error (err : FleetErr) :
    (check (.error err) >>= next) frame = some (.error err, frame) := rfl

end FrameM

end ServoFleet
