import ServoFleet.FeedbackGrammar
import ServoFleet.MotorDevice
import ServoFleet.MotorRoundTrip

/-!
The driver of one channel and its receive path. The runtime owns the devices,
so a pointer to one is its index in the runtime's list.
-/

namespace ServoFleet

abbrev DeviceRef := Nat

/-- The devices of a runtime, `motors_`. -/
abbrev Motors (F : Type) := List (MotorDevice F)

structure MotorRoute where
  device : Option DeviceRef := none
  spec : Option MotorEcSpec := none

/-- `devices` is the forward index, by slot; `motorRoutes` the reverse one, by
port and identifier. -/
structure MotorDriver where
  channelName : String
  devices : List DeviceRef := []
  motorRoutes : List (List MotorRoute) := []

/-- A call of `motor_device::apply`, with the position of its frame in the packet. -/
structure ApplyCall (F : Type) where
  frame : Nat
  device : DeviceRef
  response : Feedback F

/-- `decode_context` with the memory it reaches. `handled` and `calls` are
history: how many frames were handled and what was applied for them. -/
structure DecodeContext (F : Type) where
  receivedAt : TimePoint
  motors : Motors F
  handled : Nat := 0
  calls : List (ApplyCall F) := []

/-- `resize`, where the vector is too short. -/
def growTo {α : Type} (xs : List α) (count : Nat) (value : α) : List α :=
  xs ++ List.replicate (count - xs.length) value

namespace MotorDriver

section Bind

variable {F : Type}

def bindMotor (driver : MotorDriver) (ref : DeviceRef) (device : MotorDevice F) :
    MotorDriver × Nat :=
  let address := device.addr
  let motorRoutes := growTo driver.motorRoutes (address.canPort.toNat + 1) []
  let route : MotorRoute := { device := some ref, spec := device.ecSpec }
  ({ driver with
      devices := driver.devices ++ [ref]
      motorRoutes := motorRoutes.modify address.canPort.toNat fun portRoutes =>
        (growTo portRoutes (address.canId.toNat + 1) {}).set address.canId.toNat route },
    driver.devices.length)

/-- Bind devices one after the other. -/
def bindAll (driver : MotorDriver) (bound : List (DeviceRef × MotorDevice F)) : MotorDriver :=
  bound.foldl (fun driver entry => (driver.bindMotor entry.1 entry.2).1) driver

/-- The route of an address, when the table reaches it and it has a device. -/
def findRoute (driver : MotorDriver) (port : CanPort) (id : CanId) :
    Option (DeviceRef × Option MotorEcSpec) := do
  let portRoutes ← driver.motorRoutes[port.toNat]?
  let route ← portRoutes[id.toNat]?
  return (← route.device, route.spec)

end Bind

section Receive

variable {F : Type} [FloatArith F]

open FloatArith

/-- `&route.spec->current_a`, in the precision of the device. -/
def currentRange (spec : Option MotorEcSpec) : Option (Range F) :=
  spec.map fun spec => { min := ofRat spec.currentA.min, max := ofRat spec.currentA.max }

/-- Parse the frame for its route and apply what it yields; `none` is a read
outside the frame or a dangling device. -/
def handleFrame (driver : MotorDriver) (port : CanPort) (frame : CanFrame)
    (context : DecodeContext F) : Option (DecodeContext F) :=
  if frame.id = broadcastCanId then do
    let _ ← (CanCodec.parseFeedback frame none : CanCodec.DecodeM (Feedback F)).run
    return context
  else
    match driver.findRoute port frame.id with
    | none => return context
    | some (ref, spec) => do
        match ← (CanCodec.parseFeedback frame (currentRange spec)).run with
        | .error _ => return context
        | .ok response =>
            let device ← context.motors[ref]?
            return { context with
              motors := context.motors.set ref (device.apply response context.receivedAt).1
              calls := context.calls ++ [{ frame := context.handled, device := ref, response }] }

def handleDecodedFrame (driver : MotorDriver) (context : DecodeContext F) (frame : CanFrame) :
    Option (DecodeContext F) := do
  let context ← driver.handleFrame frame.port frame context
  return { context with handled := context.handled + 1 }

/-- What a packet leaves behind. An error of the decoder is only logged. -/
def handlePacket (driver : MotorDriver) (bytes : List Byte) (now : TimePoint)
    (motors : Motors F) : Option (DecodeContext F) := do
  let handler := fun (context : Option (DecodeContext F)) frame => do
    driver.handleDecodedFrame (← context) frame
  let (_, context) ← MotorCodec.decodeEach bytes (some { receivedAt := now, motors }) (some handler)
  context

end Receive

/-! ## The routing table as a function of the address -/

section Routes

variable {F : Type}

private theorem getElem_growTo {α : Type} (xs : List α) (n : Nat) (value : α) :
    (growTo xs (n + 1) value)[n]? = some (xs[n]?.getD value) := by
  unfold growTo
  by_cases h : n < xs.length
  · rw [List.getElem?_append_left h, List.getElem?_eq_getElem h, Option.getD_some]
  · rw [List.getElem?_append_right (by omega), List.getElem?_replicate, if_pos (by omega),
      List.getElem?_eq_none (by omega), Option.getD_none]

private theorem getD_growTo {α : Type} (xs : List α) (count i : Nat) (value : α) :
    (growTo xs count value)[i]?.getD value = xs[i]?.getD value := by
  unfold growTo
  by_cases h : i < xs.length
  · rw [List.getElem?_append_left h]
  · rw [List.getElem?_append_right (by omega), List.getElem?_replicate,
      List.getElem?_eq_none (by omega : xs.length ≤ i)]
    split_ifs <;> rfl

/-- The entry of an address, an empty one where the table does not reach. -/
def routeAt (driver : MotorDriver) (port : CanPort) (id : CanId) : MotorRoute :=
  (driver.motorRoutes[port.toNat]?.getD [])[id.toNat]?.getD {}

theorem findRoute_eq (driver : MotorDriver) (port : CanPort) (id : CanId) :
    driver.findRoute port id =
      (driver.routeAt port id).device.map (·, (driver.routeAt port id).spec) := by
  unfold findRoute routeAt
  cases driver.motorRoutes[port.toNat]? with
  | none => rfl
  | some portRoutes =>
      change (portRoutes[id.toNat]? >>= fun route => route.device >>= fun ref =>
        some (ref, route.spec)) = _
      rw [Option.getD_some]
      cases portRoutes[id.toNat]? with
      | none => rfl
      | some route =>
          rw [Option.bind_eq_bind, Option.bind_some, Option.getD_some, Option.map_eq_bind]
          rfl

/-- Binding changes the entry of the device's own address and no other. -/
theorem routeAt_bindMotor (driver : MotorDriver) (ref : DeviceRef) (device : MotorDevice F)
    (port : CanPort) (id : CanId) :
    (driver.bindMotor ref device).1.routeAt port id =
      if { canPort := port, canId := id } = device.addr then
        { device := some ref, spec := device.ecSpec }
      else driver.routeAt port id := by
  have haddr : ({ canPort := port, canId := id } : CanAddr) = device.addr ↔
      port.toNat = device.addr.canPort.toNat ∧ id.toNat = device.addr.canId.toNat := by
    rw [BitVec.toNat_inj, BitVec.toNat_inj]
    cases device.addr
    exact CanAddr.mk.injEq .. ▸ Iff.rfl
  simp only [routeAt, bindMotor, haddr]
  by_cases hport : port.toNat = device.addr.canPort.toNat
  · rw [hport, List.getElem?_modify_eq, getElem_growTo, Option.map_eq_map, Option.map_some,
      Option.getD_some]
    by_cases hid : id.toNat = device.addr.canId.toNat
    · rw [if_pos ⟨rfl, hid⟩, hid, List.getElem?_set_self (by simp [growTo]; omega),
        Option.getD_some]
    · rw [if_neg fun h => hid h.2, List.getElem?_set_ne (Ne.symm hid), getD_growTo]
  · rw [if_neg fun h => hport h.1, List.getElem?_modify_ne _ _ (Ne.symm hport), getD_growTo]

/-- A driver without devices routes no frame. -/
theorem findRoute_empty (name : String) (port : CanPort) (id : CanId) :
    findRoute { channelName := name } port id = none := rfl

theorem findRoute_bindMotor (driver : MotorDriver) (ref : DeviceRef) (device : MotorDevice F)
    (port : CanPort) (id : CanId) :
    (driver.bindMotor ref device).1.findRoute port id =
      if { canPort := port, canId := id } = device.addr then some (ref, device.ecSpec)
      else driver.findRoute port id := by
  rw [findRoute_eq, routeAt_bindMotor]
  split_ifs
  · rfl
  · exact (findRoute_eq driver port id).symm

theorem bindAll_append (driver : MotorDriver) (bound : List (DeviceRef × MotorDevice F))
    (ref : DeviceRef) (device : MotorDevice F) :
    driver.bindAll (bound ++ [(ref, device)]) = ((driver.bindAll bound).bindMotor ref device).1 :=
  List.foldl_append

theorem bindAll_channelName (driver : MotorDriver) (bound : List (DeviceRef × MotorDevice F)) :
    (driver.bindAll bound).channelName = driver.channelName := by
  induction bound generalizing driver with
  | nil => rfl
  | cons entry rest ih => exact ih _

theorem bindAll_devices (driver : MotorDriver) (bound : List (DeviceRef × MotorDevice F)) :
    (driver.bindAll bound).devices = driver.devices ++ bound.map Prod.fst := by
  induction bound generalizing driver with
  | nil => exact (List.append_nil _).symm
  | cons entry rest ih =>
      refine (ih _).trans ?_
      rw [List.map_cons, ← List.singleton_append, ← List.append_assoc]
      rfl

theorem findRoute_unbound (driver : MotorDriver) (bound : List (DeviceRef × MotorDevice F))
    (port : CanPort) (id : CanId)
    (h : ∀ entry ∈ bound, entry.2.addr ≠ { canPort := port, canId := id }) :
    (driver.bindAll bound).findRoute port id = driver.findRoute port id := by
  induction bound generalizing driver with
  | nil => rfl
  | cons entry rest ih =>
      have hhead := h entry List.mem_cons_self
      have hrest := ih (driver.bindMotor entry.1 entry.2).1 fun entry member =>
        h entry (List.mem_cons_of_mem _ member)
      exact hrest.trans ((findRoute_bindMotor driver entry.1 entry.2 port id).trans
        (if_neg (Ne.symm hhead)))

/-- With distinct addresses every bound device is found at its own. -/
theorem findRoute_bound (driver : MotorDriver) (bound : List (DeviceRef × MotorDevice F))
    (hdistinct : (bound.map fun entry => entry.2.addr).Nodup) {ref : DeviceRef}
    {device : MotorDevice F} (h : (ref, device) ∈ bound) :
    (driver.bindAll bound).findRoute device.addr.canPort device.addr.canId =
      some (ref, device.ecSpec) := by
  induction bound generalizing driver with
  | nil => exact absurd h List.not_mem_nil
  | cons entry rest ih =>
      rw [List.map_cons, List.nodup_cons] at hdistinct
      rcases List.mem_cons.mp h with rfl | hrest
      · have hother := findRoute_unbound (driver.bindMotor ref device).1 rest
          device.addr.canPort device.addr.canId fun entry member heq =>
            hdistinct.1 (List.mem_map.mpr ⟨entry, member, heq⟩)
        exact hother.trans ((findRoute_bindMotor driver ref device _ _).trans (if_pos rfl))
      · exact ih _ hdistinct.2 hrest

/-- A route of a driver that started empty is one of a device bound to it. -/
theorem findRoute_some (name : String) (bound : List (DeviceRef × MotorDevice F))
    (hdistinct : (bound.map fun entry => entry.2.addr).Nodup) {port : CanPort} {id : CanId}
    {ref : DeviceRef} {spec : Option MotorEcSpec}
    (h : (bindAll { channelName := name } bound).findRoute port id = some (ref, spec)) :
    ∃ device, (ref, device) ∈ bound ∧ device.addr = { canPort := port, canId := id } ∧
      spec = device.ecSpec := by
  by_cases hbound : ∃ entry ∈ bound, entry.2.addr = { canPort := port, canId := id }
  · obtain ⟨⟨ref', device⟩, member, haddr⟩ := hbound
    have hroute := findRoute_bound { channelName := name } bound hdistinct member
    rw [haddr, h] at hroute
    obtain ⟨rfl, rfl⟩ := Prod.mk.inj (Option.some.inj hroute)
    exact ⟨device, member, haddr, rfl⟩
  · rw [findRoute_unbound _ bound port id fun entry member heq => hbound ⟨entry, member, heq⟩,
      findRoute_empty] at h
    cases h

/-- Every route leads to one of the first `count` devices. -/
def Reaches (driver : MotorDriver) (count : Nat) : Prop :=
  ∀ port id ref spec, driver.findRoute port id = some (ref, spec) → ref < count

/-- The bound devices are in memory, with the identity they were bound under. -/
def Holds (motors : Motors F) (bound : List (DeviceRef × MotorDevice F)) : Prop :=
  ∀ entry ∈ bound, ∃ device, motors[entry.1]? = some device ∧ device.addr = entry.2.addr ∧
    device.ecSpec = entry.2.ecSpec

/-- A driver reaches devices that are in memory, those bound to it. -/
theorem reaches_bindAll (name : String) (bound : List (DeviceRef × MotorDevice F))
    (motors : Motors F) (hdistinct : (bound.map fun entry => entry.2.addr).Nodup)
    (hmemory : Holds motors bound) :
    (bindAll { channelName := name } bound).Reaches motors.length := by
  intro port id ref spec hroute
  obtain ⟨device, member, _⟩ := findRoute_some name bound hdistinct hroute
  obtain ⟨current, hcurrent, _⟩ := hmemory (ref, device) member
  exact (List.getElem?_eq_some_iff.mp hcurrent).1

end Routes

end MotorDriver

end ServoFleet
