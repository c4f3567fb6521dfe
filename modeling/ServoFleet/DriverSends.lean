import ServoFleet.ChannelSend

/-!
The threads of a driver: any number of them call `motor_driver::send` or
`discard_pending_sends` at the same time, on the one channel of the driver, while
its transmit thread runs and others stop it. A packet is encoded in the arena that
all of them share.
-/

namespace ServoFleet

/-- Where a thread is in a call of the driver; its packet has the number of the thread. -/
inductive DriverPc where
  | idle
  | preparing (frames : List CanFrame)
  | encoding (frames : List CanFrame)
  | committing (frames : List CanFrame) (size : Nat)
  | returning (frames : List CanFrame)
  | failing (frames : List CanFrame) (err : FleetErr)
  | dropping (frames : List CanFrame) (code : ErrCode)
  | discarding
  deriving DecidableEq

def DriverPc.frames : DriverPc → List CanFrame
  | .idle | .discarding => []
  | .preparing frames | .encoding frames | .committing frames _ | .returning frames
  | .failing frames _ | .dropping frames _ => frames

/-- What a thread does: it calls `send` or `discard_pending_sends`, or it goes on in its
call. The transmit thread and the threads that stop the channel are as before. -/
inductive DriverAction where
  | send (id : ClientId) (frames : List CanFrame)
  | discard (id : ClientId)
  | advance (id : ClientId)
  | tx (action : TxAction)
  | stop (taken : StopStep)

/-- A driver's channel and the threads that use it. The lists are history: the calls
whose packets came into the pending queue, and what each call returned. -/
structure DriverChannel (slotCount : Nat) where
  system : ChannelSystem slotCount
  sends : ClientId → DriverPc := fun _ => .idle
  pushed : List (ClientId × List CanFrame) := []
  returned : List (ClientId × List CanFrame × ErrCode) := []

namespace DriverChannel

variable {slotCount : Nat} (state : DriverChannel slotCount)

def goTo (id : ClientId) (pc : DriverPc) : DriverChannel slotCount :=
  { state with sends := Function.update state.sends id pc }

/-- A step of a thread in the channel, after which it is at `pc`. -/
def act (id : ClientId) (action : ClientAction) (pc : DriverPc) :
    Option (DriverChannel slotCount) := do
  let system ← state.system.step (.client id action)
  let added := system.channel.commits.drop state.system.channel.commits.length
  return { state with
    system
    sends := Function.update state.sends id pc
    pushed := state.pushed ++ added.map fun _ => (id, (state.sends id).frames) }

/-- The end of a call of `send`. -/
def finish (id : ClientId) (frames : List CanFrame) (code : ErrCode) : DriverChannel slotCount :=
  { state.goTo id .idle with returned := state.returned ++ [(id, frames, code)] }

/-- `encode_into` into the buffer of the packet. -/
def encode (id : ClientId) (frames : List CanFrame) : Option (DriverChannel slotCount) := do
  let packet ← UdpChannel.own state.system.buffers id id
  let out ← subspan state.system.channel.pool.storage packet.buffer.offset packet.buffer.length
  let (encodedSize, out) ← MotorCodec.encodeInto out MotorCodec.typeUdp2can frames
  match encodedSize with
  | .ok size => state.act id (.fillBuffer id out) (.committing frames size)
  | .error err => state.act id (.fillBuffer id out) (.failing frames err)

/-- The next step of a thread. The packet ends with the scope of its call. -/
def advance (id : ClientId) : Option (DriverChannel slotCount) :=
  let client := state.system.clients id
  if client.pc ≠ .idle then state.act id .advance (state.sends id)
  else
    match state.sends id with
    | .idle => none
    | .preparing frames =>
        match client.result with
        | .error err => some (state.finish id frames (.error err))
        | .ok _ => some (state.goTo id (.encoding frames))
    | .encoding frames => state.encode id frames
    | .committing frames size =>
        state.act id (.commit id (BitVec.ofNat 32 size)) (.returning frames)
    | .returning frames => state.act id (.destroy id) (.dropping frames client.result)
    | .failing frames err => state.act id (.destroy id) (.dropping frames (.error err))
    | .dropping frames code => some (state.finish id frames code)
    | .discarding => some (state.goTo id .idle)

/-- A call of `send` without frames returns at once. -/
def step : DriverAction → Option (DriverChannel slotCount)
  | .send id frames =>
      if state.sends id ≠ .idle then none
      else if frames = [] then some state
      else state.act id (.prepare id) (.preparing frames)
  | .discard id =>
      if state.sends id ≠ .idle then none else state.act id .discard .discarding
  | .advance id => state.advance id
  | .tx action => do
      let system ← state.system.step (.tx action)
      return { state with system }
  | .stop taken => do
      let system ← state.system.step taken.action
      return { state with system }

end DriverChannel

end ServoFleet
