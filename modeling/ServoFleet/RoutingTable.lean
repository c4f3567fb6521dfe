import ServoFleet.MotorDriver
import ServoFleet.Theory.Machine

/-!
The routing table of a driver after any calls of `bind_motor`: it is the inverse of
the addresses of the bound devices, and no later call takes a route away. From the
call after 2 ^ 32 others on a slot is that of an earlier device.

Calls that repeat an address are left out, as the configuration check refuses them.
-/

namespace ServoFleet.MotorDriver

section Calls

variable {F : Type} (memory : DeviceRef → MotorDevice F)

/-- Bind the devices that some pointers lead to, one call after the other. Each
call returns its slot as a `uint32_t`. -/
def bindCalls (driver : MotorDriver) (refs : List DeviceRef) : MotorDriver × List (BitVec 32) :=
  Machine.run (fun driver ref =>
    let (next, slot) := driver.bindMotor ref (memory ref)
    (next, BitVec.ofNat 32 slot)) driver refs

/-- A lookup finds a bound device exactly at its own address and with its own spec. -/
structure RoutesInvert (driver : MotorDriver) (refs : List DeviceRef) : Prop where
  found : ∀ (k : Nat) (ref : DeviceRef), refs[k]? = some ref →
    ∀ (port : CanPort) (id : CanId) (spec : Option MotorEcSpec),
      driver.findRoute port id = some (ref, spec) ↔
        (memory ref).addr = { canPort := port, canId := id } ∧ spec = (memory ref).ecSpec
  bound : ∀ (port : CanPort) (id : CanId) (ref : DeviceRef) (spec : Option MotorEcSpec),
    driver.findRoute port id = some (ref, spec) → ∃ k : Nat, refs[k]? = some ref

/-- The slots number the calls, and each leads to the device of its call. -/
structure SlotsInOrder (driver : MotorDriver) (refs : List DeviceRef)
    (slots : List (BitVec 32)) : Prop where
  numbers : slots.map BitVec.toNat = List.range refs.length
  devices : ∀ (k : Nat) (slot : BitVec 32), slots[k]? = some slot →
    driver.devices[slot.toNat]? = refs[k]?

theorem bindCalls_driver (driver : MotorDriver) (refs : List DeviceRef) :
    (bindCalls memory driver refs).1 =
      driver.bindAll (refs.map fun ref => (ref, memory ref)) := by
  induction refs generalizing driver with
  | nil => rfl
  | cons ref rest ih => exact ih _

theorem bindCalls_devices (driver : MotorDriver) (refs : List DeviceRef) :
    (bindCalls memory driver refs).1.devices = driver.devices ++ refs := by
  rw [bindCalls_driver, bindAll_devices, List.map_map]
  exact congrArg (driver.devices ++ ·) (List.map_id refs)

theorem bindCalls_slots (driver : MotorDriver) (refs : List DeviceRef) :
    (bindCalls memory driver refs).2 =
      (List.range' driver.devices.length refs.length).map (BitVec.ofNat 32) := by
  induction refs generalizing driver with
  | nil => rfl
  | cons ref rest ih =>
      have hrest := ih (driver.bindMotor ref (memory ref)).1
      have hcount : (driver.bindMotor ref (memory ref)).1.devices.length =
          driver.devices.length + 1 := List.length_append
      rw [hcount] at hrest
      rw [List.length_cons, List.range'_succ, List.map_cons]
      exact congrArg (BitVec.ofNat 32 driver.devices.length :: ·) hrest

/-- Calls with distinct addresses leave the inverse of the addresses. -/
theorem bindCalls_invert (name : String) (refs : List DeviceRef)
    (hdistinct : (refs.map fun ref => (memory ref).addr).Nodup) :
    RoutesInvert memory (bindCalls memory { channelName := name } refs).1 refs := by
  rw [bindCalls_driver]
  have hnodup : ((refs.map fun ref => (ref, memory ref)).map fun entry => entry.2.addr).Nodup := by
    rw [List.map_map]
    exact hdistinct
  have hsome : ∀ {port id ref spec}, (bindAll { channelName := name }
      (refs.map fun ref => (ref, memory ref))).findRoute port id = some (ref, spec) →
      ref ∈ refs ∧ (memory ref).addr = { canPort := port, canId := id } ∧
        spec = (memory ref).ecSpec := by
    intro port id ref spec hroute
    obtain ⟨device, member, haddr, hspec⟩ := findRoute_some name _ hnodup hroute
    obtain ⟨other, hmember, hentry⟩ := List.mem_map.mp member
    obtain ⟨rfl, rfl⟩ := Prod.mk.inj hentry
    exact ⟨hmember, haddr, hspec⟩
  constructor
  · intro k ref hk port id spec
    constructor
    · exact fun hroute => (hsome hroute).2
    · rintro ⟨haddr, rfl⟩
      have member : (ref, memory ref) ∈ refs.map fun ref => (ref, memory ref) :=
        List.mem_map_of_mem (List.mem_of_getElem? hk)
      have hroute := findRoute_bound { channelName := name } _ hnodup member
      rwa [haddr] at hroute
  · exact fun port id ref spec hroute => List.mem_iff_getElem?.mp (hsome hroute).1

/-- A route of the first calls is one after all of them. -/
theorem bindCalls_keeps (name : String) (before after : List DeviceRef)
    (hdistinct : ((before ++ after).map fun ref => (memory ref).addr).Nodup)
    {port : CanPort} {id : CanId} {route : DeviceRef × Option MotorEcSpec}
    (h : (bindCalls memory { channelName := name } before).1.findRoute port id = some route) :
    (bindCalls memory { channelName := name } (before ++ after)).1.findRoute port id =
      some route := by
  obtain ⟨ref, spec⟩ := route
  have hfirst : (before.map fun ref => (memory ref).addr).Nodup := by
    rw [List.map_append] at hdistinct
    exact hdistinct.of_append_left
  have hearlier := bindCalls_invert memory name before hfirst
  obtain ⟨k, hk⟩ := hearlier.bound port id ref spec h
  have hroute := (hearlier.found k ref hk port id spec).mp h
  have hlater : (before ++ after)[k]? = some ref := by
    rw [List.getElem?_append_left (List.getElem?_eq_some_iff.mp hk).1]
    exact hk
  exact ((bindCalls_invert memory name _ hdistinct).found k ref hlater port id spec).mpr hroute

/-! ## Slots -/

theorem newSlots (name : String) (refs : List DeviceRef) :
    (bindCalls memory { channelName := name } refs).2 =
      (List.range refs.length).map (BitVec.ofNat 32) := by
  rw [bindCalls_slots, List.range_eq_range']
  rfl

theorem newSlot_at (name : String) (refs : List DeviceRef) {k : Nat} {slot : BitVec 32}
    (h : (bindCalls memory { channelName := name } refs).2[k]? = some slot) :
    k < refs.length ∧ slot.toNat = k % 2 ^ 32 := by
  rw [newSlots, List.getElem?_map, Option.map_eq_some_iff] at h
  obtain ⟨index, hindex, rfl⟩ := h
  obtain ⟨hlt, hnumber⟩ := List.getElem?_eq_some_iff.mp hindex
  rw [List.getElem_range] at hnumber
  subst hnumber
  exact ⟨by rwa [List.length_range] at hlt, BitVec.toNat_ofNat k 32⟩

/-- The slot of a call before the one with number 2^32 is that number. -/
theorem newSlot_small (name : String) (refs : List DeviceRef) {k : Nat} {slot : BitVec 32}
    (h : (bindCalls memory { channelName := name } refs).2[k]? = some slot) (hk : k < 2 ^ 32) :
    slot.toNat = k ∧
      (bindCalls memory { channelName := name } refs).1.devices[slot.toNat]? = refs[k]? := by
  have hslot : slot.toNat = k := (newSlot_at memory name refs h).2.trans (Nat.mod_eq_of_lt hk)
  refine ⟨hslot, ?_⟩
  rw [hslot, bindCalls_devices]
  rfl

/-- The slots are in order until their 32 bits run out. -/
theorem slotsInOrder_iff (name : String) (refs : List DeviceRef) :
    SlotsInOrder (bindCalls memory { channelName := name } refs).1 refs
      (bindCalls memory { channelName := name } refs).2 ↔ refs.length ≤ 2 ^ 32 := by
  constructor
  · intro h
    by_contra hmany
    have hrange : (List.range refs.length)[2 ^ 32]? = some (2 ^ 32) :=
      List.getElem?_range (Nat.lt_of_not_le hmany)
    have hnumbers := h.numbers
    rw [newSlots, List.map_map] at hnumbers
    have hslot := congrArg (fun numbers : List Nat => numbers[2 ^ 32]?) hnumbers
    simp only [List.getElem?_map] at hslot
    rw [hrange, Option.map_some, Option.some.injEq] at hslot
    exact absurd hslot (by decide)
  · intro hfew
    constructor
    · rw [newSlots, List.map_map]
      refine (List.map_congr_left fun k member => ?_).trans (List.map_id _)
      have hlt : k < 2 ^ 32 := Nat.lt_of_lt_of_le (List.mem_range.mp member) hfew
      exact (BitVec.toNat_ofNat k 32).trans (Nat.mod_eq_of_lt hlt)
    · intro k slot hslot
      have hlt := (newSlot_at memory name refs hslot).1
      exact (newSlot_small memory name refs hslot (Nat.lt_of_lt_of_le hlt hfew)).2

/-- After calls with distinct addresses the table is their inverse, the slots are the
32-bit numbers of the calls, which lead to their devices as long as there are enough of
them, and what earlier calls left behind is kept. -/
theorem routes_invert_addresses (name : String) (refs : List DeviceRef)
    (hdistinct : (refs.map fun ref => (memory ref).addr).Nodup) :
    let all := bindCalls memory { channelName := name } refs
    RoutesInvert memory all.1 refs ∧ all.2 = (List.range refs.length).map (BitVec.ofNat 32) ∧
      all.1.devices = refs ∧
      (∀ (k : Nat) (slot : BitVec 32), all.2[k]? = some slot → k < 2 ^ 32 →
        slot.toNat = k ∧ all.1.devices[slot.toNat]? = refs[k]?) ∧
      (SlotsInOrder all.1 refs all.2 ↔ refs.length ≤ 2 ^ 32) ∧
      ∀ before after, refs = before ++ after →
        let earlier := bindCalls memory { channelName := name } before
        (∀ port id route, earlier.1.findRoute port id = some route →
          all.1.findRoute port id = some route) ∧
        earlier.1.devices <+: all.1.devices ∧ earlier.2 <+: all.2 := by
  refine ⟨bindCalls_invert memory name refs hdistinct, newSlots memory name refs,
    bindCalls_devices memory _ refs, fun k slot => newSlot_small memory name refs,
    slotsInOrder_iff memory name refs, ?_⟩
  rintro before after rfl
  refine ⟨fun port id route => bindCalls_keeps memory name before after hdistinct, ?_, ?_⟩
  · rw [bindCalls_devices, bindCalls_devices]
    exact List.prefix_append before after
  · rw [newSlots, newSlots, List.length_append, List.range_add, List.map_append]
    exact List.prefix_append _ _

end Calls

/-- Three devices, apart on two ports. -/
def sparseMemory : DeviceRef → MotorDevice (Option ℚ)
  | 0 => .init 0 "wrist" { canPort := 3, canId := 7 } none
  | 1 => .init 1 "elbow" { canPort := 0, canId := 0x1FFFFFFF } none
  | ref => .init 2 "hip" { canPort := 3, canId := BitVec.ofNat 32 (ref - 2) } none

theorem sparse_routes :
    let all := bindCalls sparseMemory { channelName := "can" } [2, 0, 1]
    all.1.findRoute 3 7 = some (0, none) ∧ all.1.findRoute 3 8 = none ∧ all.2 = [0, 1, 2] ∧
      all.1.devices = [2, 0, 1] := by
  obtain ⟨hinvert, hslots, hdevices, _⟩ :=
    routes_invert_addresses sparseMemory "can" [2, 0, 1] (by decide)
  refine ⟨(hinvert.found 1 0 rfl 3 7 none).mpr ⟨rfl, rfl⟩, ?_, hslots, hdevices⟩
  rw [Option.eq_none_iff_forall_ne_some]
  rintro ⟨ref, spec⟩ hroute
  obtain ⟨k, hk⟩ := hinvert.bound 3 8 ref spec hroute
  have haddr := ((hinvert.found k ref hk 3 8 spec).mp hroute).1
  have member := List.mem_of_getElem? hk
  fin_cases member <;> exact absurd haddr (by decide)

/-! ## More devices than slots -/

/-- Devices at the identifiers of one port after the other. -/
def crowdMemory (ref : DeviceRef) : MotorDevice (Option ℚ) :=
  .init 0 "motor" { canPort := BitVec.ofNat 8 (ref / 2 ^ 32), canId := BitVec.ofNat 32 ref } none

/-- One device for each identifier of the first port and one at the second. -/
def crowd : List DeviceRef := List.range (2 ^ 32 + 1)

theorem crowd_distinct : (crowd.map fun ref => (crowdMemory ref).addr).Nodup := by
  refine List.Nodup.map_on ?_ List.nodup_range
  intro ref member other hmember haddr
  have hlt := List.mem_range.mp member
  have hlt' := List.mem_range.mp hmember
  have hport := congrArg (fun addr : CanAddr => addr.canPort.toNat) haddr
  have hid := congrArg (fun addr : CanAddr => addr.canId.toNat) haddr
  simp only [crowdMemory, MotorDevice.init, BitVec.toNat_ofNat] at hport hid
  rw [Nat.mod_eq_of_lt (by omega), Nat.mod_eq_of_lt (by omega)] at hport
  rw [← Nat.div_add_mod ref (2 ^ 32), hport, hid, Nat.div_add_mod]

/-- The last device of the crowd gets the slot of the first one. -/
theorem crowded_slots_repeat :
    (crowd.map fun ref => (crowdMemory ref).addr).Nodup ∧
      ¬ SlotsInOrder (bindCalls crowdMemory { channelName := "can" } crowd).1 crowd
        (bindCalls crowdMemory { channelName := "can" } crowd).2 := by
  refine ⟨crowd_distinct, ?_⟩
  rw [slotsInOrder_iff, crowd, List.length_range]
  exact Nat.not_succ_le_self _

end ServoFleet.MotorDriver
