import Mathlib.Data.Int.Bitwise
import ServoFleet.Device

/-!
The packet codec of `udp2can_tool.py`. Integers are unbounded and bytes are
integers once they are indexed; an exception is an error. Every index and every
conversion to bytes is checked as the interpreter checks it.
-/

namespace ServoFleet.Udp2canTool

inductive PyError where
  | valueError (text : String)
  | indexError
  | overflowError
  deriving DecidableEq, Repr

abbrev Py (α : Type) := Except PyError α

def forwardProtoFrameStx : Byte := 0xAA
def forwardProtoFrameEtx : Byte := 0xBB

def canMsgEntrySize : Nat := 14
def canIdExtdFlag : Nat := 0x80000000

/-! ## What the interpreter provides -/

def index (bytes : List Byte) (i : Nat) : Py Nat :=
  match bytes[i]? with
  | some byte => .ok byte.toNat
  | none => .error .indexError

/-- `bytes[start:stop]`, cut at the end of the bytes. -/
def slice (bytes : List Byte) (start stop : Nat) : List Byte := (bytes.take stop).drop start

def setItem (bytes : List Byte) (i : Nat) (value : Byte) : Py (List Byte) :=
  if i < bytes.length then .ok (bytes.set i value) else .error .indexError

/-- `bytes[start:stop] = values`. -/
def setSlice (bytes : List Byte) (start stop : Nat) (values : List Byte) : List Byte :=
  bytes.take start ++ values ++ bytes.drop (max start stop)

/-- The big-endian digits of `int.to_bytes`. -/
def digits : (length value : Nat) → List Byte
  | 0, _ => []
  | length + 1, value => BitVec.ofNat 8 (value >>> (8 * length)) :: digits length value

def toBytes (length : Nat) : Int → Py (List Byte)
  | .ofNat value =>
      if value < 2 ^ (8 * length) then .ok (digits length value) else .error .overflowError
  | .negSucc _ => .error .overflowError

def fromBytes (bytes : List Byte) : Nat :=
  bytes.foldl (fun value byte => value <<< 8 ||| byte.toNat) 0

/-- `f"{value:04X}"`. -/
def hex4 (value : Nat) : String :=
  let shown := (Nat.toDigits 16 value).map Char.toUpper
  String.ofList (List.replicate (4 - shown.length) '0' ++ shown)

@[simp]
theorem ok_bind {α β : Type} (value : α) (next : α → Py β) :
    ((.ok value : Py α) >>= next) = next value := rfl

/-- `if bad: raise ValueError(text)`. -/
def raiseIf (bad : Prop) [Decidable bad] (text : String) : Py Unit :=
  if bad then .error (.valueError text) else .ok ()

@[simp]
theorem raiseIf_of_not {bad : Prop} [Decidable bad] (h : ¬ bad) (text : String) :
    raiseIf bad text = .ok () := if_neg h

/-! ## The checksum -/

def crcBit (crc : Nat) : Nat :=
  if crc &&& 0x8000 ≠ 0 then ((crc <<< 1) &&& 0xFFFF) ^^^ 0x1021 else (crc <<< 1) &&& 0xFFFF

def crcByte (crc : Nat) (byte : Byte) : Nat := crcBit^[8] (crc ^^^ (byte.toNat <<< 8))

def crc16Ccitt (data : List Byte) : Nat := data.foldl crcByte 0x0000 &&& 0xFFFF

/-! ## Building a frame -/

/-- A message of `build_frame`; the defaults are those of its lookups. -/
structure Message where
  port : Int := 0
  id : Int
  ext : Bool := false
  data : List Byte := []
  deriving DecidableEq, Repr

def buildEntry (item : Message) : Py (List Byte) := do
  raiseIf (item.data.length > 8) "CAN data length must be <= 8"
  let idNet := item.id.lor (if item.ext then canIdExtdFlag else 0)
  let entry ← setItem (List.replicate canMsgEntrySize 0) 0 (BitVec.ofInt 8 item.port)
  let entry := setSlice entry 1 5 (← toBytes 4 idNet)
  let entry ← setItem entry 5 (BitVec.ofNat 8 item.data.length)
  return setSlice entry 6 (6 + item.data.length) item.data

/-- The loop over the messages. -/
def extendPayload (payload : List Byte) : List Message → Py (List Byte)
  | [] => .ok payload
  | item :: rest => do
      let entry ← buildEntry item
      extendPayload (payload ++ entry) rest

def buildFrame (frameType : Int) (messages : List Message) : Py (List Byte) := do
  let payload ← extendPayload [BitVec.ofNat 8 messages.length] messages
  let length ← toBytes 2 payload.length
  let header := [forwardProtoFrameStx, BitVec.ofInt 8 frameType] ++ length
  let crc := crc16Ccitt (header.drop 1 ++ payload)
  return header ++ payload ++
    [BitVec.ofNat 8 crc, BitVec.ofNat 8 (crc >>> 8), forwardProtoFrameEtx]

/-! ## Parsing a frame -/

structure ParsedMessage where
  port : Nat
  id : Nat
  ext : Bool
  len : Nat
  data : List Byte
  deriving DecidableEq, Repr

structure ParsedFrame where
  type : Nat
  msgCount : Nat
  messages : List ParsedMessage
  deriving DecidableEq, Repr

def parseEntry (payload : List Byte) (offset : Nat) : Py ParsedMessage := do
  let port ← index payload offset
  let idNet := fromBytes (slice payload (offset + 1) (offset + 5))
  let dlc ← index payload (offset + 5)
  raiseIf (dlc > 8) "invalid CAN DLC > 8"
  let isExt := decide (idNet &&& canIdExtdFlag ≠ 0)
  let canId := if isExt then idNet.ldiff canIdExtdFlag else idNet
  let data := slice payload (offset + 6) (offset + 6 + dlc)
  return { port, id := canId, ext := isExt, len := dlc, data }

/-- The loop over the entries: `count` of them are left. -/
def parseMessages (payload : List Byte) :
    (count offset : Nat) → List ParsedMessage → Py (List ParsedMessage)
  | 0, _, msgs => .ok msgs
  | count + 1, offset, msgs => do
      let msg ← parseEntry payload offset
      parseMessages payload count (offset + canMsgEntrySize) (msgs ++ [msg])

def parseFrame (raw : List Byte) : Py ParsedFrame := do
  raiseIf (raw.length < 8) "frame too short"
  raiseIf ((← index raw 0) ≠ forwardProtoFrameStx.toNat) "invalid STX"
  let frameType ← index raw 1
  let payloadLen := fromBytes (slice raw 2 4)
  let expectedTotal := 4 + payloadLen + 2 + 1
  raiseIf (raw.length ≠ expectedTotal)
    s!"invalid frame length, expected {expectedTotal}, got {raw.length}"
  let crcCalc := crc16Ccitt (slice raw 1 (4 + payloadLen))
  let crcRecv := (← index raw (4 + payloadLen)) ||| ((← index raw (5 + payloadLen)) <<< 8)
  raiseIf (crcCalc ≠ crcRecv)
    ("CRC mismatch calc=0x" ++ hex4 crcCalc ++ ", recv=0x" ++ hex4 crcRecv)
  raiseIf ((← index raw (6 + payloadLen)) ≠ forwardProtoFrameEtx.toNat) "invalid ETX"
  let payload := slice raw 4 (4 + payloadLen)
  raiseIf (payloadLen < 1) "payload too short"
  let msgCount ← index payload 0
  raiseIf (payloadLen ≠ 1 + msgCount * canMsgEntrySize)
    "payload length does not match msg_count"
  let msgs ← parseMessages payload msgCount 1 []
  return { type := frameType, msgCount, messages := msgs }

end ServoFleet.Udp2canTool
