import ServoFleet.ClientEffects
import ServoFleet.Theory.SlotContents

/-!
The plain UDP channel: any number of threads that send, one worker that sends what
is pending and then receives, and the threads that stop it. The queue is the one
of the real-time channel. A callback that sends is one more thread.
-/

namespace ServoFleet

open SlotLedger

/-- Where a call of `udp_channel::send` is. -/
inductive SendPc where
  | idle
  | checking
  | acquiring
  | copying (slot : Slot)
  | enqueueing (pc : ClientPc)
  deriving DecidableEq, Repr

/-- A thread that sends, with the data of its last call. -/
structure Sender where
  data : List Byte := []
  pc : SendPc := .idle
  result : ErrCode := .ok ()

/-- Where the worker is: in `run`, in `send_pending`, in `send_slot` and in
`receive_available`. -/
inductive WorkerPc where
  | loop
  | polling
  | popping
  | sizing (slot : Slot) (index : Nat)
  | sending (slot : Slot) (size : BitVec 32) (index : Nat)
  | releasing (slot : Slot)
  | freeing (slot : Slot)
  | receiving
  | sleeping
  | finished
  deriving DecidableEq, Repr

/-- `udp_channel::impl`. Its `channel` has the queue and the flags, and in `sent` the
datagrams given to the socket; `accepted` is history, the data of the calls of
`send` that succeeded, in the order of their pushes. -/
structure WorkerChannel (slotCount : Nat) where
  channel : UdpChannel slotCount
  senders : ClientId → Sender := fun _ => {}
  worker : WorkerPc := .loop
  socketOpen : Bool := true
  accepted : List (List Byte) := []

/-- A call of `send`, a step of a call, a step of the worker, or one of `stop`. -/
inductive WorkerAction where
  | send (id : ClientId) (data : List Byte)
  | advance (id : ClientId)
  | work
  | stop
  | requestStop
  | cancelWait
  | close

namespace UdpChannel

variable {slotCount : Nat}

/-- No packet buffer belongs to a plain channel. -/
def noBuffers : Buffers := fun _ => none

/-- The next step of a call of `send`. -/
def sendStep (channel : UdpChannel slotCount) (id : ClientId) (sender : Sender) :
    Option (UdpChannel slotCount × Sender) :=
  match sender.pc with
  | .idle => none
  | .checking =>
      if channel.stopped then
        some (channel, { sender with pc := .idle, result := .error .cancelled })
      else some (channel, { sender with pc := .acquiring })
  | .acquiring =>
      match channel.pool.acquireSlot with
      | (.ok slot, pool) => some ({ channel with pool }, { sender with pc := .copying slot })
      | (.error err, pool) =>
          some ({ channel with pool }, { sender with pc := .idle, result := .error err })
  | .copying slot => do
      let pool ← channel.pool.fill (channel.pool.slotBuffer slot) sender.data
      let size := BitVec.ofNat 32 sender.data.length
      return ({ channel with pool }, { sender with pc := .enqueueing (.storing slot size) })
  | .enqueueing pc => do
      let (channel, _, client) ← channel.advance noBuffers id pc
      return (channel, { sender with
        pc := if client.pc = .idle then .idle else .enqueueing client.pc
        result := client.result })

/-- The next step of the worker. What `send_to` reports is only logged; the
datagrams it receives do not touch the queue. -/
def workStep (channel : UdpChannel slotCount) (socketOpen : Bool) :
    WorkerPc → Option (UdpChannel slotCount × WorkerPc)
  | .loop =>
      some (channel, if channel.stopRequested ∨ channel.stopped then .finished else .polling)
  | .polling => some (channel, if channel.stopRequested then .receiving else .popping)
  | .popping =>
      match channel.pool.popPending with
      | some (slot, pool) =>
          some ({ channel with pool, pops := channel.pops ++ [slot] },
            .sizing slot channel.pops.length)
      | none => some (channel, .receiving)
  | .sizing slot index => do
      let size ← channel.pool.packetSize slot
      return (channel, .sending slot size index)
  | .sending slot size _ =>
      if socketOpen then do
        let bytes ← subspan channel.pool.storage (channel.pool.slotBuffer slot).offset size.toNat
        return ({ channel with sent := channel.sent ++ [bytes] }, .releasing slot)
      else some (channel, .releasing slot)
  | .releasing slot => do
      let pool ← channel.pool.storeSize slot 0
      return ({ channel with pool }, .freeing slot)
  | .freeing slot => some ({ channel with pool := (channel.pool.pushFree slot).2 }, .polling)
  | .receiving => some (channel, .sleeping)
  | .sleeping => some (channel, .loop)
  | .finished => none

end UdpChannel

namespace WorkerChannel

/-- The constructor, once the socket is bound. -/
def openUdp (sendQueueSlots : BitVec 32) : Option (WorkerChannel sendQueueSlots.toNat) := do
  let packetCap := BitVec.ofNat 32 udpPacketCap
  let storage ← makeSendStorage sendQueueSlots packetCap
  return { channel := { pool := .init storage sendQueueSlots packetCap } }

variable {slotCount : Nat}

/-- The start of `udp_channel::send`. -/
def beginSend (system : WorkerChannel slotCount) (id : ClientId) (data : List Byte) :
    Option (WorkerChannel slotCount) :=
  if (system.senders id).pc ≠ .idle then none
  else
    let sender :=
      if data.length > udpPacketCap then { data, result := .error .invalidArgument }
      else { data, pc := .checking }
    some { system with senders := Function.update system.senders id sender }

/-- A step of a thread. `stop` sets the flag, then requests the stop, and closes the
socket only when the worker has been joined. -/
def step (system : WorkerChannel slotCount) : WorkerAction → Option (WorkerChannel slotCount)
  | .send id data => system.beginSend id data
  | .advance id => do
      let (channel, sender) ← system.channel.sendStep id (system.senders id)
      return { system with
        channel
        senders := Function.update system.senders id sender
        accepted := system.accepted ++
          (channel.commits.drop system.channel.commits.length).map fun _ => sender.data }
  | .work => do
      let (channel, worker) ← system.channel.workStep system.socketOpen system.worker
      return { system with channel, worker }
  | .stop => some { system with channel := { system.channel with stopped := true } }
  | .requestStop =>
      if system.channel.stopped then
        some { system with channel := { system.channel with stopRequested := true } }
      else none
  | .cancelWait =>
      if system.channel.stopRequested then
        some { system with channel := { system.channel with blocked := false } }
      else none
  | .close =>
      if system.channel.stopRequested ∧ system.worker = .finished then
        some { system with socketOpen := false }
      else none

end WorkerChannel

end ServoFleet
