import ServoFleet.ChannelSystem
import ServoFleet.MotorPacket

/-!
The calls that send one packet through a real-time channel, from begin to return.
The threads that stop the channel may act before any of their steps; nobody else
is at the queues meanwhile.
-/

namespace ServoFleet

/-- `make_send_storage`, which throws when the slots are too many. -/
def makeSendStorage (sendQueueSlots packetCap : BitVec 32) : Option (List Byte) :=
  if packetCap = 0 ∨ sendQueueSlots > BitVec.allOnes 32 / packetCap then none
  else some (List.replicate (sendQueueSlots * packetCap).toNat 0)

namespace PacketPool

variable {slotCount : Nat} (pool : PacketPool slotCount)

/-- The bytes of `slot_buffer(slot)`. -/
def slotBytes (slot : Slot) : Option (List Byte) :=
  subspan pool.storage (pool.slotBuffer slot).offset (pool.slotBuffer slot).length

/-- What the channel sends from a slot: `slot_buffer(slot).first(size)`. -/
def packet (slot : Slot) : Option (List Byte) := do
  let size ← pool.packetSize slot
  let buffer ← pool.slotBytes slot
  subspan buffer 0 size.toNat

/-- The pending queue, with the sizes and the bytes of its packets. -/
def pendingPackets : List (Slot × Option (BitVec 32) × Option (List Byte)) :=
  pool.pendingSlots.toList.map fun slot => (slot, pool.packetSize slot, pool.packet slot)

end PacketPool

/-- A step of a thread that stops the channel. -/
inductive StopStep where
  | stop
  | requestStop
  | cancelWait
  deriving DecidableEq, Repr

def StopStep.action : StopStep → Action
  | .stop => .stop
  | .requestStop => .requestStop
  | .cancelWait => .cancelWait

/-- What is done to stop the channel before each step of a call, by the steps it has left. -/
abbrev Stops := Nat → List StopStep

structure SendStops where
  prepare : Stops := fun _ => []
  write : Stops := fun _ => []
  commit : Stops := fun _ => []
  release : Stops := fun _ => []

namespace ChannelSystem

variable {slotCount : Nat}

/-- A real-time channel when it has been built. -/
def openRealtime (sendQueueSlots : BitVec 32) : Option (ChannelSystem sendQueueSlots.toNat) := do
  let packetCap := BitVec.ofNat 32 motorUdpPacketCap
  let storage ← makeSendStorage sendQueueSlots packetCap
  return init storage sendQueueSlots packetCap

/-- Steps that cannot be taken are not. -/
def interrupt (system : ChannelSystem slotCount) (steps : List StopStep) :
    ChannelSystem slotCount :=
  steps.foldl (fun system taken => (system.step taken.action).getD system) system

/-- The rest of a call of `client`. -/
def finish (client : ClientId) (stops : Stops) :
    Nat → ChannelSystem slotCount → Option (ChannelSystem slotCount)
  | 0, system => if (system.clients client).pc = .idle then some system else none
  | left + 1, system =>
      if (system.clients client).pc = .idle then some system
      else do
        let next ← (system.interrupt (stops left)).step (.client client .advance)
        finish client stops left next

/-- The calls that a send makes take five steps at most. -/
def call (client : ClientId) (stops : Stops) (system : ChannelSystem slotCount)
    (action : ClientAction) : Option (ChannelSystem slotCount) := do
  let next ← (system.interrupt (stops 4)).step (.client client action)
  finish client stops 4 next

section Sends

variable (client : ClientId) (id : BufferId) (stops : SendStops)

/-- The end of the scope of the packet `id`, with the result of the function. -/
def release (code : ErrCode) (system : ChannelSystem slotCount) :
    Option (ErrCode × ChannelSystem slotCount) := do
  let system ← system.call client stops.release (.destroy id)
  return (code, system)

/-- `return commit_send(std::move(*packet), size)` -/
def commit (size : Nat) (system : ChannelSystem slotCount) :
    Option (ErrCode × ChannelSystem slotCount) := do
  let system ← system.call client stops.commit (.commit id (BitVec.ofNat 32 size))
  system.release client id stops (system.clients client).result

/-- `realtime_udp_channel::send` -/
def send (data : List Byte) (system : ChannelSystem slotCount) :
    Option (ErrCode × ChannelSystem slotCount) :=
  if data.length > motorUdpPacketCap then some (.error .invalidArgument, system)
  else do
    let system ← system.call client stops.prepare (.prepare id)
    match (system.clients client).result with
    | .error err => return (.error err, system)
    | .ok _ =>
        let system ← system.call client stops.write (.fillBuffer id data)
        system.commit client id stops data.length

/-- `motor_driver::send` -/
def sendFrames (frames : List CanFrame) (system : ChannelSystem slotCount) :
    Option (ErrCode × ChannelSystem slotCount) :=
  if frames = [] then some (.ok (), system)
  else do
    let system ← system.call client stops.prepare (.prepare id)
    match (system.clients client).result with
    | .error err => return (.error err, system)
    | .ok _ =>
        let packet ← UdpChannel.own system.buffers client id
        let out ← subspan system.channel.pool.storage packet.buffer.offset packet.buffer.length
        let (encodedSize, out) ← MotorCodec.encodeInto out MotorCodec.typeUdp2can frames
        let system ← system.call client stops.write (.fillBuffer id out)
        match encodedSize with
        | .error err => system.release client id stops (.error err)
        | .ok size => system.commit client id stops size

end Sends

end ChannelSystem

/-- The two ways to send one packet. -/
inductive SendCall where
  | channel (data : List Byte)
  | driver (frames : List CanFrame)

def SendCall.run {slotCount : Nat} (client : ClientId) (id : BufferId) (stops : SendStops)
    (system : ChannelSystem slotCount) : SendCall → Option (ErrCode × ChannelSystem slotCount)
  | .channel data => system.send client id stops data
  | .driver frames => system.sendFrames client id stops frames

end ServoFleet
