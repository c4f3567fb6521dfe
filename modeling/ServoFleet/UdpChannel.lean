import Mathlib.Logic.Function.Basic
import ServoFleet.PacketPool

/-!
The real-time channel as a system of threads: any number of clients, which send
through packet buffers or with a slot of their own, the transmit thread and the
ones that stop the channel. A step is what a thread does up to the next access
to what it shares.
-/

namespace ServoFleet

def sendRetryCount : Nat := 3

/-- What the threads share. The transmit thread is `blocked` from when it blocks
in `pending_cv_` until it is notified. The lists are history: the slots and
sizes committed, the slots popped and the datagrams sent. -/
structure UdpChannel (slotCount : Nat) where
  pool : PacketPool slotCount
  stopped : Bool := false
  stopRequested : Bool := false
  blocked : Bool := false
  commits : List (Slot × BitVec 32) := []
  pops : List Slot := []
  sent : List (List Byte) := []

abbrev ClientId := Nat

abbrev BufferId := Nat

/-- The `owner_` of a packet buffer, as the channel sees it. -/
inductive Owner where
  | null
  | this
  | other
  deriving DecidableEq, Repr

structure PacketBuffer where
  owner : Owner := .null
  slot : Slot := 0
  buffer : ArenaSpan := {}

/-- What a move leaves behind: the slot number stays. -/
def PacketBuffer.clear (packet : PacketBuffer) : PacketBuffer :=
  { packet with owner := .null, buffer := {} }

/-- A live packet buffer and the one thread that may use it. -/
structure BufferObject where
  user : ClientId
  packet : PacketBuffer

abbrev Buffers := BufferId → Option BufferObject

/-- Where a call continues after `release_slot`. -/
inductive After where
  | busy
  | destroy (id : BufferId)
  | assign (id other : BufferId)
  | discard
  deriving DecidableEq, Repr

/-- Where a client is between two of its steps. -/
inductive ClientPc where
  | idle
  | preparing (id : BufferId)
  | acquired (slot : Slot)
  | storing (slot : Slot) (size : BitVec 32)
  | pushing (slot : Slot) (size : BitVec 32)
  | notifying
  | releasing (slot : Slot) (after : After)
  | freeing (slot : Slot) (after : After)
  | taking (id other : BufferId)
  | discarding
  | dropping (slot : Slot) (index : Nat)
  deriving DecidableEq, Repr

structure Client where
  pc : ClientPc := .idle
  result : ErrCode := .ok ()

/-- What a client may do: begin a call, use a buffer it may use, or `advance` in its call. -/
inductive ClientAction where
  | acquire
  | fill (bytes : List Byte)
  | enqueue (size : BitVec 32)
  | prepare (id : BufferId)
  | fillBuffer (id : BufferId) (bytes : List Byte)
  | commit (id : BufferId) (size : BitVec 32)
  | destroy (id : BufferId)
  | moveConstruct (id other : BufferId)
  | moveAssign (id other : BufferId)
  | handOver (id : BufferId) (user : ClientId)
  | foreign (id : BufferId) (packet : PacketBuffer)
  | discard
  | advance

namespace UdpChannel

variable {slotCount : Nat}

/-- The buffer object, if it is the client's to use. -/
def own (buffers : Buffers) (client : ClientId) (id : BufferId) : Option PacketBuffer :=
  match buffers id with
  | some object => if object.user = client then some object.packet else none
  | none => none

def put (buffers : Buffers) (client : ClientId) (id : BufferId) (packet : PacketBuffer) : Buffers :=
  Function.update buffers id (some { user := client, packet })

section Calls

variable (channel : UdpChannel slotCount) (buffers : Buffers) (client : ClientId)

/-- `acquire_slot`, for a thread that sends as `udp_channel` does. -/
def acquire : UdpChannel slotCount × Buffers × Client :=
  match channel.pool.acquireSlot with
  | (.ok slot, pool) => ({ channel with pool }, buffers, { pc := .acquired slot })
  | (.error err, pool) => ({ channel with pool }, buffers, { result := .error err })

/-- The first step of `prepare_send`. The buffer to be prepared is the client's from here on. -/
def prepareSend (id : BufferId) : Option (UdpChannel slotCount × Buffers × Client) :=
  if (buffers id).isSome then none
  else if channel.stopped then some (channel, buffers, { result := .error .cancelled })
  else some (channel, put buffers client id {}, { pc := .preparing id })

/-- `acquire_slot` within `prepare_send`. -/
def prepareSlot (id : BufferId) : UdpChannel slotCount × Buffers × Client :=
  match channel.pool.acquireSlot with
  | (.ok slot, pool) =>
      let packet := { owner := .this, slot, buffer := channel.pool.slotBuffer slot }
      ({ channel with pool }, put buffers client id packet, {})
  | (.error err, pool) =>
      ({ channel with pool }, Function.update buffers id none, { result := .error err })

/-- `commit_send` up to its `enqueue`. -/
def commitSend (id : BufferId) (size : BitVec 32) :
    Option (UdpChannel slotCount × Buffers × Client) := do
  let packet ← own buffers client id
  if packet.owner ≠ .this ∨ size.toNat > motorUdpPacketCap then
    return (channel, buffers, { result := .error .invalidArgument })
  else if channel.stopped then return (channel, buffers, { result := .error .cancelled })
  else return (channel, put buffers client id packet.clear, { pc := .storing packet.slot size })

/-- The destructor up to its `release_slot`. -/
def destroy (id : BufferId) : Option (UdpChannel slotCount × Buffers × Client) := do
  let packet ← own buffers client id
  if packet.owner = .this then
    return (channel, buffers, { pc := .releasing packet.slot (.destroy id) })
  else return (channel, Function.update buffers id none, {})

def moveConstruct (id other : BufferId) : Option (UdpChannel slotCount × Buffers × Client) := do
  let packet ← own buffers client other
  if (buffers id).isSome then none
  else return (channel, put (put buffers client other packet.clear) client id packet, {})

/-- The move assignment up to its `release_slot`, if it has one. -/
def moveAssign (id other : BufferId) : Option (UdpChannel slotCount × Buffers × Client) := do
  let packet ← own buffers client id
  let _ ← own buffers client other
  if id = other then return (channel, buffers, {})
  else if packet.owner = .this then
    return (channel, buffers, { pc := .releasing packet.slot (.assign id other) })
  else return (channel, buffers, { pc := .taking id other })

/-- The exchange at the end of the move assignment. -/
def takeOver (id other : BufferId) : Option (UdpChannel slotCount × Buffers × Client) := do
  let packet ← own buffers client other
  return (channel, put (put buffers client other packet.clear) client id packet, {})

/-- The rest of a call that has released a slot. -/
def released : After → Option (Buffers × Client)
  | .busy => some (buffers, { result := .error .busy })
  | .destroy id => some (Function.update buffers id none, {})
  | .assign id other => do
      let packet ← own buffers client id
      return (put buffers client id packet.clear, { pc := .taking id other })
  | .discard => some (buffers, { pc := .discarding })

/-- The push of `enqueue`; a slot that finds no room is released. -/
def pushSlot (slot : Slot) (size : BitVec 32) : UdpChannel slotCount × Buffers × Client :=
  match channel.pool.pushPending slot with
  | (true, pool) =>
      ({ channel with pool, commits := channel.commits ++ [(slot, size)] }, buffers,
        { pc := .notifying })
  | (false, pool) => ({ channel with pool }, buffers, { pc := .releasing slot .busy })

/-- The pop of `discard_pending`, which ends when there is none. -/
def discardSlot : UdpChannel slotCount × Buffers × Client :=
  match channel.pool.popPending with
  | some (slot, pool) =>
      ({ channel with pool, pops := channel.pops ++ [slot] }, buffers,
        { pc := .dropping slot channel.pops.length })
  | none => (channel, buffers, {})

/-- The next step of a call. -/
def advance : ClientPc → Option (UdpChannel slotCount × Buffers × Client)
  | .idle | .acquired _ => none
  | .preparing id => some (channel.prepareSlot buffers client id)
  | .storing slot size => do
      let pool ← channel.pool.storeSize slot size
      return ({ channel with pool }, buffers, { pc := .pushing slot size })
  | .pushing slot size => some (channel.pushSlot buffers slot size)
  | .notifying => some ({ channel with blocked := false }, buffers, {})
  | .releasing slot after => do
      let pool ← channel.pool.storeSize slot 0
      return ({ channel with pool }, buffers, { pc := .freeing slot after })
  | .freeing slot after => do
      let (buffers, next) ← released buffers client after
      return ({ channel with pool := (channel.pool.pushFree slot).2 }, buffers, next)
  | .taking id other => channel.takeOver buffers client id other
  | .discarding => some (channel.discardSlot buffers)
  | .dropping slot _ => do
      let _size ← channel.pool.packetSize slot
      return (channel, buffers, { pc := .releasing slot .discard })

/-- One step of a client. Calls begin when it is idle; a client that holds a slot
itself fills and enqueues it, with data that fits. -/
def clientStep (pc : ClientPc) (action : ClientAction) :
    Option (UdpChannel slotCount × Buffers × Client) :=
  match pc, action with
  | pc, .advance => channel.advance buffers client pc
  | .idle, .acquire => some (channel.acquire buffers)
  | .acquired slot, .fill bytes => do
      let pool ← channel.pool.fill (channel.pool.slotBuffer slot) bytes
      return ({ channel with pool }, buffers, { pc := .acquired slot })
  | .acquired slot, .enqueue size =>
      if size ≤ channel.pool.packetCap then
        some (channel, buffers, { pc := .storing slot size })
      else none
  | .idle, .prepare id => channel.prepareSend buffers client id
  | .idle, .fillBuffer id bytes => do
      let packet ← own buffers client id
      let pool ← channel.pool.fill packet.buffer bytes
      return ({ channel with pool }, buffers, {})
  | .idle, .commit id size => channel.commitSend buffers client id size
  | .idle, .destroy id => channel.destroy buffers client id
  | .idle, .moveConstruct id other => channel.moveConstruct buffers client id other
  | .idle, .moveAssign id other => channel.moveAssign buffers client id other
  | .idle, .handOver id user => do
      let packet ← own buffers client id
      return (channel, put buffers user id packet, {})
  | .idle, .foreign id packet =>
      if (buffers id).isSome ∨ packet.owner = .this then none
      else some (channel, put buffers client id packet, {})
  | .idle, .discard => some (channel, buffers, { pc := .discarding })
  | _, _ => none

end Calls

end UdpChannel

end ServoFleet
