import ServoFleet.DriverSends
import ServoFleet.MotorSend

/-!
The threads of a runtime that send: any number of them are in `send_motor_commands` or in
`discard_pending_commands` at the same time, over the channels of all drivers. A call
works on the batches of its own thread and stops in `motor_driver::send` of one driver
after the other, while other threads have their turn.
-/

namespace ServoFleet

variable {F : Type}

namespace BatchCommands

/-- `push` up to its `flush`. -/
def fill (driver : MotorDriver) (motors : Motors F) (deviceSlot : Nat) (command : MotorCommand)
    (batch : BatchCommands) : Option (ErrCode × BatchCommands) :=
  match driver.devices[deviceSlot]? with
  | none => some (.error .invalidArgument, batch)
  | some ref => do
      let device ← motors[ref]?
      if h : batch.frameCount < maxFramesPerPacket then
        let (err, frame) ← CanCodec.encode device.addr command batch.frames[batch.frameCount]
        let batch := { batch with frames := batch.frames.set batch.frameCount frame }
        match err with
        | .error err => return (.error err, batch)
        | .ok _ => return (.ok (), { batch with frameCount := batch.frameCount + 1 })
      else none

/-- The frames `flush` sends. -/
def held (batch : BatchCommands) : List CanFrame := batch.frames.toList.take batch.frameCount

/-- The rest of `flush`, with what `send` has returned. The bytes are left to the channel. -/
def flushed (batch : BatchCommands) (code : ErrCode) : BatchCommands :=
  { batch with
    frameCount := 0
    offers := batch.offers ++ [{ frames := batch.held, code, committed := none }] }

end BatchCommands

/-- The two loops of `send_motor_commands`, over the commands and over the batches. -/
inductive CommandLoop where
  | commands (rest : List MotorCommand)
  | flushes (slot : Nat)

/-- The variables of a call of `send_motor_commands`. -/
structure CommandCall where
  commands : List MotorCommand
  loop : CommandLoop
  error : ErrCode := .ok ()
  batches : List BatchCommands

/-- Where a thread is: in no call, in its own part of one, or in a driver's. -/
inductive CommandPc where
  | idle
  | running (call : CommandCall)
  | sending (slot : Nat) (call : CommandCall)
  | discarding (slot : Nat)

/-- What the threads do: one calls `command`, with commands or to discard, or goes on in its
call. The transmit threads and those that stop a channel are as before. -/
inductive FleetAction where
  | command (id : ClientId) (commands : List MotorCommand)
  | discard (id : ClientId)
  | advance (id : ClientId)
  | tx (slot : Nat) (action : TxAction)
  | stop (slot : Nat) (taken : StopStep)

/-- A runtime with the channels of its drivers and the threads that use it. The list is
history: the calls that have returned, each with its error code. -/
structure FleetSends (F : Type) (slots : Nat → Nat) where
  runtime : Runtime F
  channels : (slot : Nat) → DriverChannel (slots slot)
  threads : ClientId → CommandPc := fun _ => .idle
  returned : List (ClientId × CommandCall) := []

namespace FleetSends

open ServoFleet.Runtime (overwriteError)

variable {slots : Nat → Nat} (state : FleetSends F slots)

def goTo (id : ClientId) (pc : CommandPc) : FleetSends F slots :=
  { state with threads := Function.update state.threads id pc }

/-- A step of a thread in the channel of a driver, after which it is at `pc`. -/
def act (id : ClientId) (slot : Nat) (action : DriverAction) (pc : CommandPc) :
    Option (FleetSends F slots) := do
  let channel ← (state.channels slot).step action
  return { state.goTo id pc with channels := Function.update state.channels slot channel }

/-- The call of `send` in `flush`. -/
def send (id : ClientId) (slot : Nat) (call : CommandCall) : Option (FleetSends F slots) := do
  let batch ← call.batches[slot]?
  state.act id slot (.send id batch.held) (.sending slot call)

/-- The body of the loop over the commands. -/
def pushCommand (id : ClientId) (call : CommandCall) (command : MotorCommand)
    (rest : List MotorCommand) : Option (FleetSends F slots) :=
  let call := { call with loop := .commands rest }
  match state.runtime.findDeviceBinding command.deviceId with
  | none => some (state.goTo id (.running { call with error := .error .invalidArgument }))
  | some binding => do
      let driver ← state.runtime.motorDrivers[binding.driverSlot]?
      let batch ← call.batches[binding.driverSlot]?
      let (err, batch) ← batch.fill driver state.runtime.motors binding.deviceSlot command
      let call := { call with
        error := overwriteError call.error err
        batches := call.batches.set binding.driverSlot batch }
      if batch.frameCount = maxFramesPerPacket then state.send id binding.driverSlot call
      else return state.goTo id (.running call)

/-- The body of the loop over the batches, and the end of the call. -/
def flushBatch (id : ClientId) (call : CommandCall) (slot : Nat) : Option (FleetSends F slots) :=
  match call.batches[slot]? with
  | none => some { state.goTo id .idle with returned := state.returned ++ [(id, call)] }
  | some batch =>
      let call := { call with loop := .flushes (slot + 1) }
      if batch.frameCount = 0 then some (state.goTo id (.running call))
      else state.send id slot call

/-- The call goes on when `send` of the driver has returned. -/
def resume (id : ClientId) (slot : Nat) (call : CommandCall) : Option (FleetSends F slots) := do
  let batch ← call.batches[slot]?
  let (_, _, code) ← ((state.channels slot).returned.filter fun entry => entry.1 = id).getLast?
  return state.goTo id (.running { call with
    error := overwriteError call.error code
    batches := call.batches.set slot (batch.flushed code) })

/-- `discard_pending_commands` from the driver of a slot on. -/
def discardFrom (id : ClientId) (slot : Nat) : Option (FleetSends F slots) :=
  if slot < state.runtime.motorDrivers.length then
    state.act id slot (.discard id) (.discarding slot)
  else some (state.goTo id .idle)

/-- The next step of a thread. -/
def advance (id : ClientId) : Option (FleetSends F slots) :=
  match state.threads id with
  | .idle => none
  | .running call =>
      match call.loop with
      | .commands (command :: rest) => state.pushCommand id call command rest
      | .commands [] => some (state.goTo id (.running { call with loop := .flushes 0 }))
      | .flushes slot => state.flushBatch id call slot
  | .sending slot call =>
      if (state.channels slot).sends id ≠ .idle then
        state.act id slot (.advance id) (.sending slot call)
      else state.resume id slot call
  | .discarding slot =>
      if (state.channels slot).sends id ≠ .idle then
        state.act id slot (.advance id) (.discarding slot)
      else state.discardFrom id (slot + 1)

/-- A call of a runtime that has started. -/
def step : FleetAction → Option (FleetSends F slots)
  | .command id commands =>
      match state.threads id with
      | .idle => some (state.goTo id (.running
          { commands, loop := .commands commands
            batches := state.runtime.motorDrivers.map fun _ => {} }))
      | _ => none
  | .discard id =>
      match state.threads id with
      | .idle => state.discardFrom id 0
      | _ => none
  | .advance id => state.advance id
  | .tx slot action => do
      let channel ← (state.channels slot).step (.tx action)
      return { state with channels := Function.update state.channels slot channel }
  | .stop slot taken => do
      let channel ← (state.channels slot).step (.stop taken)
      return { state with channels := Function.update state.channels slot channel }

end FleetSends

end ServoFleet
