import ServoFleet.CanEncode
import ServoFleet.MotorPacket
import ServoFleet.Runtime

/-!
The send path: commands are encoded into one batch for each driver, and a batch
goes to the channel of its driver as one packet. A channel is what it replies to
each attempt; the attempts are kept as history.
-/

namespace ServoFleet

/-- Why a channel refuses a packet: its slots are taken, or it has been stopped. -/
inductive Refusal where
  | busy
  | cancelled
  deriving DecidableEq, Repr

def Refusal.err : Refusal → FleetErr
  | .busy => .busy
  | .cancelled => .cancelled

/-- What a channel does at one attempt: `prepare_send` yields the buffer of a slot. -/
structure ChannelReply where
  prepare : Except Refusal (Vector Byte motorUdpPacketCap)
  commit : Except Refusal Unit

/-- `commit_send` of a packet that the channel itself has prepared. -/
def ChannelReply.commitSend (reply : ChannelReply) (size : Nat) : ErrCode :=
  if size > motorUdpPacketCap then .error .invalidArgument
  else reply.commit.mapError Refusal.err

/-- One packet offered to a channel: its frames, the error code that came back
and the bytes that were committed. -/
structure Offer where
  frames : List CanFrame
  code : ErrCode
  committed : Option (List Byte)

/-- `batch_commands`, with the offers its driver's channel has seen. -/
structure BatchCommands where
  frames : Vector CanFrame maxFramesPerPacket := Vector.replicate maxFramesPerPacket {}
  frameCount : Nat := 0
  offers : List Offer := []

namespace MotorDriver

/-- `send` of some frames. Without frames the channel sees nothing. -/
def send (reply : ChannelReply) (frames : List CanFrame) : Option Offer :=
  if frames = [] then some { frames, code := .ok (), committed := none }
  else
    match reply.prepare with
    | .error refusal => some { frames, code := .error refusal.err, committed := none }
    | .ok buffer => do
        let (encodedSize, packet) ←
          MotorCodec.encodeInto buffer.toList MotorCodec.typeUdp2can frames
        match encodedSize with
        | .error err => return { frames, code := .error err, committed := none }
        | .ok size =>
            match reply.commitSend size with
            | .error err => return { frames, code := .error err, committed := none }
            | .ok _ => return { frames, code := .ok (), committed := packet.take size }

end MotorDriver

namespace BatchCommands

variable {F : Type}

/-- `flush`; an empty batch offers nothing. -/
def flush (replies : Nat → ChannelReply) (batch : BatchCommands) :
    Option (ErrCode × BatchCommands) :=
  if batch.frameCount = 0 then some (.ok (), batch)
  else do
    let frames := batch.frames.toList.take batch.frameCount
    let offer ← MotorDriver.send (replies batch.offers.length) frames
    return (offer.code, { batch with frameCount := 0, offers := batch.offers ++ [offer] })

/-- `push`; `none` is a dangling device or a frame past the end of the batch. -/
def push (driver : MotorDriver) (motors : Motors F) (replies : Nat → ChannelReply)
    (deviceSlot : Nat) (command : MotorCommand) (batch : BatchCommands) :
    Option (ErrCode × BatchCommands) :=
  match driver.devices[deviceSlot]? with
  | none => some (.error .invalidArgument, batch)
  | some ref => do
      let device ← motors[ref]?
      if h : batch.frameCount < maxFramesPerPacket then
        let (err, frame) ←
          CanCodec.encode device.addr command batch.frames[batch.frameCount]
        let batch := { batch with frames := batch.frames.set batch.frameCount frame }
        match err with
        | .error err => return (.error err, batch)
        | .ok _ =>
            let batch := { batch with frameCount := batch.frameCount + 1 }
            if batch.frameCount = maxFramesPerPacket then batch.flush replies
            else return (.ok (), batch)
      else none

end BatchCommands

namespace Runtime

variable {F : Type}

/-- `if (new_error) error = new_error` -/
def overwriteError (error newError : ErrCode) : ErrCode :=
  match newError with
  | .error err => .error err
  | .ok _ => error

/-- The replies of every driver's channel, by driver slot and attempt. -/
abbrev Replies := Nat → Nat → ChannelReply

/-- The body of the loop over the commands. -/
def pushCommand (runtime : Runtime F) (replies : Replies) (state : ErrCode × List BatchCommands)
    (command : MotorCommand) : Option (ErrCode × List BatchCommands) :=
  match runtime.findDeviceBinding command.deviceId with
  | none => some (.error .invalidArgument, state.2)
  | some binding => do
      let driver ← runtime.motorDrivers[binding.driverSlot]?
      let batch ← state.2[binding.driverSlot]?
      let (commandError, batch) ← batch.push driver runtime.motors (replies binding.driverSlot)
        binding.deviceSlot command
      return (overwriteError state.1 commandError, state.2.set binding.driverSlot batch)

/-- The loop that flushes every batch, from a driver slot on. -/
def flushBatches (replies : Replies) (slot : Nat) (error : ErrCode) :
    List BatchCommands → Option (ErrCode × List BatchCommands)
  | [] => some (error, [])
  | batch :: rest => do
      let (flushError, batch) ← batch.flush (replies slot)
      let (error, rest) ← flushBatches replies (slot + 1) (overwriteError error flushError) rest
      return (error, batch :: rest)

/-- `send_motor_commands`; `stored` is what the thread's batch storage still
holds from the call before, which is cleared. -/
def sendMotorCommands (runtime : Runtime F) (replies : Replies) (stored : List BatchCommands)
    (commands : List MotorCommand) : Option (ErrCode × List BatchCommands) := do
  let batches := stored.take 0
  let batches := batches ++ runtime.motorDrivers.map fun _ => {}
  let (error, batches) ← commands.foldlM (runtime.pushCommand replies) (.ok (), batches)
  flushBatches replies 0 error batches

end Runtime

end ServoFleet
