import ServoFleet.Theory.Steps
import ServoFleet.UdpChannel

/-!
The transmit thread, and all threads of a channel together.
-/

namespace ServoFleet

/-- Where the transmit thread is between two of its steps: in `tx_loop`, in
`wait_pop_pending`, in the wait of `pending_cv_`, or with a packet in its hands,
of which it keeps how many were popped before it. -/
inductive TxPc where
  | loop
  | waiting
  | popping
  | sizing (slot : Slot) (index : Nat)
  | locking
  | guarding
  | checking
  | blocking
  | blocked
  | limiting (slot : Slot) (size : BitVec 32) (index : Nat)
  | admitted (slot : Slot) (size : BitVec 32) (index : Nat)
  | sending (slot : Slot) (size : BitVec 32) (index attempt : Nat)
  | releasing (slot : Slot)
  | freeing (slot : Slot)
  | finished
  deriving DecidableEq, Repr

inductive SendOutcome where
  | sent
  | aborted
  | wouldBlock
  | failed
  deriving DecidableEq, Repr

/-- The steps of the transmit thread; what the rate limiter and the socket answer is open. -/
inductive TxAction where
  | advance
  | limited (code : ErrCode)
  | checkSocket (isOpen : Bool)
  | attempt (outcome : SendOutcome)
  | wakeSpuriously

namespace UdpChannel

variable {slotCount : Nat}

/-- The steps that depend on the channel alone. -/
def txAdvance (channel : UdpChannel slotCount) : TxPc → Option (UdpChannel slotCount × TxPc)
  | .loop =>
      some (channel, if channel.stopRequested ∨ channel.stopped then .finished else .waiting)
  | .waiting => some (channel, if channel.stopRequested then .finished else .popping)
  | .popping =>
      match channel.pool.popPending with
      | some (slot, pool) =>
          let pops := channel.pops ++ [slot]
          some ({ channel with pool, pops }, .sizing slot channel.pops.length)
      | none => some (channel, .locking)
  | .sizing slot index => do
      let size ← channel.pool.packetSize slot
      return (channel, .limiting slot size index)
  | .locking => some (channel, .guarding)
  | .guarding => some (channel, if channel.stopRequested then .waiting else .checking)
  | .checking => some (channel, if channel.pool.pendingCount ≠ 0 then .waiting else .blocking)
  | .blocking =>
      if channel.stopRequested then some (channel, .guarding)
      else some ({ channel with blocked := true }, .blocked)
  | .blocked => if channel.blocked then none else some (channel, .guarding)
  | .releasing slot => do
      let pool ← channel.pool.storeSize slot 0
      return ({ channel with pool }, .freeing slot)
  | .freeing slot => some ({ channel with pool := (channel.pool.pushFree slot).2 }, .loop)
  | .limiting .. | .admitted .. | .sending .. | .finished => none

def txStep (channel : UdpChannel slotCount) (pc : TxPc) (action : TxAction) :
    Option (UdpChannel slotCount × TxPc) :=
  match pc, action with
  | pc, .advance => channel.txAdvance pc
  | .limiting slot size index, .limited code =>
      match code with
      | .ok _ => some (channel, .admitted slot size index)
      | .error _ => some (channel, .releasing slot)
  | .admitted slot size index, .checkSocket isOpen =>
      if channel.stopped ∨ ¬ isOpen then some (channel, .releasing slot)
      else some (channel, .sending slot size index 0)
  | .sending slot size index attempt, .attempt outcome =>
      if attempt < sendRetryCount ∧ ¬ channel.stopRequested ∧ ¬ channel.stopped then do
        let bytes ← subspan channel.pool.storage (channel.pool.slotBuffer slot).offset size.toNat
        match outcome with
        | .sent => return ({ channel with sent := channel.sent ++ [bytes] }, .releasing slot)
        | .aborted | .failed => return (channel, .releasing slot)
        | .wouldBlock =>
            if attempt + 1 = sendRetryCount then return (channel, .releasing slot)
            else return (channel, .sending slot size index (attempt + 1))
      else some (channel, .releasing slot)
  | .blocked, .wakeSpuriously => some ({ channel with blocked := false }, .guarding)
  | _, _ => none

end UdpChannel

/-- A channel and its threads. -/
structure ChannelSystem (slotCount : Nat) where
  channel : UdpChannel slotCount
  buffers : Buffers := fun _ => none
  clients : ClientId → Client := fun _ => {}
  tx : TxPc := .loop

/-- A step of a client or of the transmit thread, or of the ones that stop it:
`stop` sets the flag, then requests the stop, which wakes the wait, and then
notifies all. -/
inductive Action where
  | client (id : ClientId) (action : ClientAction)
  | tx (action : TxAction)
  | stop
  | requestStop
  | cancelWait

namespace ChannelSystem

def init (storage : List Byte) (slotCount packetCap : BitVec 32) :
    ChannelSystem slotCount.toNat where
  channel := { pool := .init storage slotCount packetCap }

variable {slotCount : Nat}

def step (system : ChannelSystem slotCount) : Action → Option (ChannelSystem slotCount)
  | .client id action => do
      let (channel, buffers, client) ←
        system.channel.clientStep system.buffers id (system.clients id).pc action
      return { system with
        channel, buffers, clients := Function.update system.clients id client }
  | .tx action => do
      let (channel, tx) ← system.channel.txStep system.tx action
      return { system with channel, tx }
  | .stop => some { system with channel := { system.channel with stopped := true } }
  | .requestStop =>
      if system.channel.stopped then
        some { system with
          channel := { system.channel with stopRequested := true, blocked := false } }
      else none
  | .cancelWait =>
      if system.channel.stopRequested then
        some { system with channel := { system.channel with blocked := false } }
      else none

/-- What a step does: a client or the transmit thread takes its own, or only
the flags change. -/
inductive Moves (system : ChannelSystem slotCount) : Action → ChannelSystem slotCount → Prop where
  | client {id : ClientId} {action : ClientAction} {channel : UdpChannel slotCount}
      {buffers : Buffers} {client : Client}
      (taken : system.channel.clientStep system.buffers id (system.clients id).pc action =
        some (channel, buffers, client)) :
      Moves system (.client id action)
        { system with channel, buffers, clients := Function.update system.clients id client }
  | tx {action : TxAction} {channel : UdpChannel slotCount} {tx : TxPc}
      (taken : system.channel.txStep system.tx action = some (channel, tx)) :
      Moves system (.tx action) { system with channel, tx }
  | stop : Moves system .stop { system with channel := { system.channel with stopped := true } }
  | requestStop : Moves system .requestStop
      { system with channel := { system.channel with stopRequested := true, blocked := false } }
  | cancelWait :
      Moves system .cancelWait { system with channel := { system.channel with blocked := false } }

theorem step_moves {system next : ChannelSystem slotCount} {action : Action}
    (h : system.step action = some next) : system.Moves action next := by
  cases action with
  | client id action =>
      rw [step, Option.bind_eq_bind, Option.bind_eq_some_iff] at h
      obtain ⟨⟨channel, buffers, client⟩, hclient, hnext⟩ := h
      obtain rfl := Option.some.inj hnext
      exact .client hclient
  | tx action =>
      rw [step, Option.bind_eq_bind, Option.bind_eq_some_iff] at h
      obtain ⟨⟨channel, tx⟩, htx, hnext⟩ := h
      obtain rfl := Option.some.inj hnext
      exact .tx htx
  | stop =>
      obtain rfl := Option.some.inj h
      exact .stop
  | requestStop =>
      rw [step] at h
      split_ifs at h
      obtain rfl := Option.some.inj h
      exact .requestStop
  | cancelWait =>
      rw [step] at h
      split_ifs at h
      obtain rfl := Option.some.inj h
      exact .cancelWait

end ChannelSystem

end ServoFleet
