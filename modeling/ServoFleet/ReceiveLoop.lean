import ServoFleet.Runtime
import ServoFleet.Theory.Steps

/-!
The receive threads of a runtime. Each driver has one; it takes a datagram from the
socket of its channel, drops those of strangers and hands the others to the driver.
The turns of the threads come in any order, and the frames of their packets mixed.
-/

namespace ServoFleet

/-- `udp::endpoint` of an address of version 4. -/
structure Endpoint where
  address : BitVec 32
  port : BitVec 16
  deriving DecidableEq, Repr

/-- Port zero stands for any port of the remote. -/
def isExpectedSender (remote sender : Endpoint) : Bool :=
  sender.address = remote.address && (remote.port = 0 || sender.port = remote.port)

/-- What `receive_from` gives. -/
inductive Receipt where
  | datagram (sender : Endpoint) (data : List Byte)
  | wouldBlock
  | connectionReset
  | failed

/-- One turn of `rx_loop` of a driver. -/
structure RxTurn where
  driverSlot : Nat
  now : TimePoint
  receipt : Receipt

/-- The frames the decoder calls its handler on; a packet may be refused after some. -/
def MotorCodec.framesOf (bytes : List Byte) : List CanFrame :=
  match decodeEach bytes [] (some fun frames frame => frames ++ [frame]) with
  | none => []
  | some (_, frames) => frames

namespace Runtime

variable {F : Type} [FloatArith F]

/-- The body of `rx_loop`, with `remote` the remote endpoint of each channel. -/
def rxStep (remote : String → Endpoint) (runtime : Runtime F) (turn : RxTurn) :
    Option (Runtime F) := do
  let driver ← runtime.motorDrivers[turn.driverSlot]?
  match turn.receipt with
  | .datagram sender data =>
      if !isExpectedSender (remote driver.channelName) sender then return runtime
      else
        let context ← driver.handlePacket data turn.now runtime.motors
        return { runtime with motors := context.motors }
  | _ => return runtime

end Runtime

/-- What the receive threads do one after the other: a thread takes its turn at the
socket, or the decoder it is in calls the handler for the next frame. -/
inductive RxAction where
  | receive (turn : RxTurn)
  | handle (driverSlot : Nat)

def RxAction.turn? : RxAction → Option RxTurn
  | .receive turn => some turn
  | .handle _ => none

/-- A runtime with the packets its receive threads are in. -/
structure Reception (F : Type) where
  runtime : Runtime F
  receivedAt : Nat → TimePoint := fun _ => 0
  unhandled : Nat → List CanFrame := fun _ => []

/-- The body of `rx_loop` in parts, between which other threads have their turn. -/
def Reception.step {F : Type} [FloatArith F] (remote : String → Endpoint) (state : Reception F) :
    RxAction → Option (Reception F)
  | .receive turn => do
      let driver ← state.runtime.motorDrivers[turn.driverSlot]?
      guard (state.unhandled turn.driverSlot = [])
      match turn.receipt with
      | .datagram sender data =>
          if !isExpectedSender (remote driver.channelName) sender then return state
          else
            return { state with
              receivedAt := Function.update state.receivedAt turn.driverSlot turn.now
              unhandled := Function.update state.unhandled turn.driverSlot
                (MotorCodec.framesOf data) }
      | _ => return state
  | .handle slot =>
      match state.unhandled slot with
      | [] => none
      | frame :: rest => do
          let driver ← state.runtime.motorDrivers[slot]?
          let context ← driver.handleDecodedFrame
            { receivedAt := state.receivedAt slot, motors := state.runtime.motors } frame
          return { state with
            runtime := { state.runtime with motors := context.motors }
            unhandled := Function.update state.unhandled slot rest }

end ServoFleet
