import Mathlib.Data.List.Basic

/-!
The types every layer shares: error codes, results and byte buffers.
-/

namespace ServoFleet

/-- `fleet_err` without `ok`, which is the success of a `Result`. -/
inductive FleetErr where
  | invalidArgument
  | unsupported
  | busy
  | timeout
  | cancelled
  | ioError
  | protocolError
  | deviceError
  deriving DecidableEq, Repr

abbrev Result (α : Type) := Except FleetErr α

abbrev ErrCode := Result Unit

abbrev Byte := BitVec 8

/-- A view of `count` bytes from `offset`. Leaving the viewed buffer is
undefined behaviour, which is `none` here and in every indexed read below. -/
def subspan (bytes : List Byte) (offset count : Nat) : Option (List Byte) :=
  if offset + count ≤ bytes.length then some ((bytes.drop offset).take count) else none

theorem subspan_of_le {bytes : List Byte} {offset count : Nat}
    (h : offset + count ≤ bytes.length) :
    subspan bytes offset count = some ((bytes.drop offset).take count) := by
  simp [subspan, h]

end ServoFleet
