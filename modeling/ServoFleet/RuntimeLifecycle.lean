import Mathlib.Data.Fintype.Basic
import ServoFleet.Runtime
import ServoFleet.Theory.SharedObject
import ServoFleet.Theory.Steps

/-!
The published runtime and the calls around it. `init`, `shutdown` and `command` may be
called by any number of threads at once; each call is cut at its accesses to the shared
pointer and to the drivers. The pointer counts its owners: a runtime is destroyed by the
thread that lets go of it last.
-/

namespace ServoFleet

/-- Where a driver's channel is in its life. -/
abbrev DriverPhase := SharedObject.Part

abbrev RuntimeId := Nat

/-- A runtime in memory. -/
structure RuntimeObject (F : Type) where
  runtime : Runtime F
  drivers : List DriverPhase

/-- What a thread does next. The references it owns are those it names, except for the
runtime it is destroying. -/
inductive CallPc where
  | idle
  /-- in `start`, before the driver `next` -/
  | starting (id : RuntimeId) (next : Nat)
  /-- in the handler of `start`, before it stops the driver `next` -/
  | aborting (id : RuntimeId) (next : Nat)
  /-- before `runtime.store(next)` -/
  | storing (id : RuntimeId)
  /-- in `send_command` -/
  | commanding (id : RuntimeId)
  /-- before it lets go of the first of these -/
  | releasing (refs : List RuntimeId)
  /-- in the destructor, before it stops the driver `next` -/
  | destroying (id : RuntimeId) (next : Nat) (rest : List RuntimeId)
  deriving DecidableEq, Repr

def CallPc.owned : CallPc → List RuntimeId
  | .idle => []
  | .starting id _ => [id]
  | .aborting id _ => [id]
  | .storing id => [id]
  | .commanding id => [id]
  | .releasing refs => refs
  | .destroying _ _ rest => rest

/-- The process: every runtime it ever made, the published one, and its threads. -/
structure Service (F : Type) (n : Nat) where
  objects : List (RuntimeObject F) := []
  published : Option RuntimeId := none
  threads : Fin n → CallPc := fun _ => .idle

inductive CallAction where
  /-- call `init`; a channel's socket opens or does not -/
  | init (options : FleetConfig) (opens : ChannelConfig → Bool)
  /-- the driver starts, or its threads cannot be made -/
  | startDriver (starts : Bool)
  /-- call `shutdown` -/
  | shutdown
  /-- call `command` -/
  | command
  /-- go on -/
  | advance

namespace Service

variable {F : Type} {n : Nat}

/-- No owner is left. -/
def Unowned (service : Service F n) (id : RuntimeId) : Prop :=
  service.published ≠ some id ∧ ∀ thread, id ∉ (service.threads thread).owned

instance (service : Service F n) (id : RuntimeId) : Decidable (service.Unowned id) :=
  inferInstanceAs (Decidable (_ ∧ _))

def goTo (service : Service F n) (thread : Fin n) (pc : CallPc) : Service F n :=
  { service with threads := Function.update service.threads thread pc }

/-- A driver of a runtime starts or stops. -/
def setDriver (service : Service F n) (id : RuntimeId) (slot : Nat) (phase : DriverPhase) :
    Service F n :=
  { service with objects := service.objects.modify id fun object =>
      { object with drivers := object.drivers.set slot phase } }

def driverCount (service : Service F n) (id : RuntimeId) : Nat :=
  match service.objects[id]? with
  | none => 0
  | some object => object.drivers.length

/-- `runtime.store`: the old value is let go of after the new one is in place. -/
def store (service : Service F n) (thread : Fin n) (next : Option RuntimeId)
    (refs : List RuntimeId) : Service F n :=
  { service with published := next }.goTo thread (.releasing (service.published.toList ++ refs))

/-- Let go of a reference; the last owner destroys the runtime. -/
def release (service : Service F n) (thread : Fin n) (id : RuntimeId) (rest : List RuntimeId) :
    Service F n :=
  let service := service.goTo thread (.releasing rest)
  if service.Unowned id then service.goTo thread (.destroying id 0 rest) else service

variable [FloatArith F]

/-- A runtime that does not come up is destroyed before anyone else knows of it. -/
def beginInit (service : Service F n) (thread : Fin n) (options : FleetConfig)
    (opens : ChannelConfig → Bool) : Service F n :=
  match (Runtime.init options opens : Result (Runtime F)) with
  | .error _ => service
  | .ok runtime =>
      let object := { runtime, drivers := runtime.motorDrivers.map fun _ => .created }
      { service with objects := service.objects ++ [object] }.goTo thread
        (.starting service.objects.length 0)

def step (service : Service F n) : Fin n × CallAction → Option (Service F n)
  | (thread, action) =>
      match service.threads thread, action with
      | .idle, .init options opens => some (service.beginInit thread options opens)
      | .idle, .shutdown => some (service.store thread none [])
      | .idle, .command =>
          match service.published with
          | none => some service
          | some id => some (service.goTo thread (.commanding id))
      | .starting id next, .startDriver starts =>
          if next < service.driverCount id then
            if starts then
              some ((service.setDriver id next .started).goTo thread (.starting id (next + 1)))
            else some (service.goTo thread (.aborting id 0))
          else none
      | .starting id next, .advance =>
          if next < service.driverCount id then none else some (service.goTo thread (.storing id))
      | .aborting id next, .advance =>
          if next < service.driverCount id then
            some ((service.setDriver id next .stopped).goTo thread (.aborting id (next + 1)))
          else some (service.goTo thread (.releasing [id]))
      | .storing id, .advance => some (service.store thread (some id) [id])
      | .commanding id, .advance => some (service.goTo thread (.releasing [id]))
      | .releasing [], .advance => some (service.goTo thread .idle)
      | .releasing (id :: rest), .advance => some (service.release thread id rest)
      | .destroying id next rest, .advance =>
          if next < service.driverCount id then
            some ((service.setDriver id next .stopped).goTo thread
              (.destroying id (next + 1) rest))
          else some (service.goTo thread (.releasing rest))
      | _, _ => none

end Service

end ServoFleet
