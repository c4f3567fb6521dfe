import ServoFleet.Runtime

/-!
What `init` builds. The devices stand in the order of the configuration, the
driver of a channel has exactly the motors of that channel bound to it, and each
binding leads back to its device.
-/

namespace ServoFleet

namespace FleetConfig

private theorem seq_ok (first : ErrCode) (second : ErrCode) :
    (do
      first
      second) = .ok () ↔ first = .ok () ∧ second = .ok () := by
  cases first with
  | error err => exact ⟨nofun, fun h => nomatch h.1⟩
  | ok _ => exact ⟨fun h => ⟨rfl, h⟩, fun h => h.2⟩

private theorem forM_ok {α : Type} (items : List α) (check : α → ErrCode) :
    items.forM check = .ok () ↔ ∀ item ∈ items, check item = .ok () := by
  induction items with
  | nil => exact ⟨fun _ item member => absurd member List.not_mem_nil, fun _ => rfl⟩
  | cons item rest ih =>
      rw [List.forall_mem_cons, ← ih]
      exact seq_ok (check item) (rest.forM check)

/-- What an accepted configuration promises to the rest of the runtime. -/
structure Valid (config : FleetConfig) : Prop where
  channelName : ∀ channel ∈ config.channels, channel.name ≠ "" ∧
    config.channels.countP (fun item => item.name = channel.name) = 1
  channel : ∀ motor ∈ config.motors, config.channelExists motor.channel = true
  name : ∀ motor ∈ config.motors, motor.name ≠ "" ∧ config.deviceNameCount motor.name = 1
  standard : ∀ motor ∈ config.motors, motor.canId ≤ 0x7FF
  address : ∀ motor ∈ config.motors, config.motors.countP (fun item =>
    item.channel = motor.channel && item.canPort = motor.canPort &&
      item.canId = motor.canId) = 1
  limits : ∀ channel ∈ config.channels, usesChannel config.motors channel.name = true →
    channel.maxBandwidthBps ≠ 0 ∧ channel.sendQueueSlots ≠ 0

private theorem guard_ok (c : Prop) [Decidable c] :
    ((if c then .error .invalidArgument else .ok ()) : ErrCode) = .ok () ↔ ¬ c := by
  split_ifs with h
  · exact ⟨nofun, fun h' => absurd h h'⟩
  · exact ⟨fun _ => h, fun _ => rfl⟩

private theorem validateDevice_ok (config : FleetConfig) (name channelName : String) :
    config.validateDevice name channelName = .ok () ↔
      (name ≠ "" ∧ config.deviceNameCount name = 1) ∧ config.channelExists channelName = true := by
  rw [validateDevice]
  by_cases hname : name = "" ∨ config.deviceNameCount name ≠ 1
  · rw [if_pos hname]
    exact ⟨nofun, fun h => by tauto⟩
  · rw [if_neg hname, guard_ok]
    rw [not_or, not_not] at hname
    simp [hname]

private theorem validateMotor_ok (config : FleetConfig) (motor : MotorConfig) :
    config.validateMotor motor = .ok () ↔
      config.validateDevice motor.name motor.channel = .ok () ∧
      ¬ (motor.canId > 0x7FF ∨ config.motors.countP (fun item => item.channel = motor.channel &&
        item.canPort = motor.canPort && item.canId = motor.canId) ≠ 1) :=
  (seq_ok _ _).trans (and_congr_right fun _ => guard_ok _)

theorem validateConfig_iff (config : FleetConfig) :
    config.validateConfig = .ok () ↔ config.Valid := by
  have hrun : config.validateConfig = .ok () ↔
      (∀ channel ∈ config.channels, config.validateChannelName channel = .ok ()) ∧
      (∀ motor ∈ config.motors, config.validateMotor motor = .ok ()) ∧
      ∀ channel ∈ config.channels, config.validateChannelLimits channel = .ok () :=
    (seq_ok _ _).trans (and_congr (forM_ok _ _)
      ((seq_ok _ _).trans (and_congr (forM_ok _ _) (forM_ok _ _))))
  rw [hrun]
  simp only [validateChannelName, validateMotor_ok, validateDevice_ok, validateChannelLimits,
    guard_ok, not_or, not_and, ne_eq, not_not, gt_iff_lt, BitVec.not_lt]
  constructor
  · rintro ⟨hchannels, hmotors, hlimits⟩
    exact {
      channelName := hchannels
      channel := fun motor member => (hmotors motor member).1.2
      name := fun motor member => (hmotors motor member).1.1
      standard := fun motor member => (hmotors motor member).2.1
      address := fun motor member => (hmotors motor member).2.2
      limits := hlimits }
  · intro h
    exact ⟨h.channelName, fun motor member => ⟨⟨h.name motor member, h.channel motor member⟩,
      h.standard motor member, h.address motor member⟩, h.limits⟩

end FleetConfig

/-- An element of a list with one more at its end is the new one or an old one. -/
theorem getElem?_concat_cases {α : Type} {xs : List α} {last x : α} {i : Nat}
    (h : (xs ++ [last])[i]? = some x) : xs[i]? = some x ∨ i = xs.length ∧ x = last := by
  by_cases hlt : i < xs.length
  · exact .inl (by rwa [List.getElem?_append_left hlt] at h)
  · have hend : i = xs.length := by
      have hbound := (List.getElem?_eq_some_iff.mp h).1
      rw [List.length_append, List.length_singleton] at hbound
      omega
    subst hend
    rw [List.getElem?_concat_length, Option.some.injEq] at h
    exact .inr ⟨rfl, h.symm⟩

namespace Runtime

variable {F : Type} [FloatArith F]

/-- The device of the motor at position `i` of the configuration. -/
def deviceOf (i : Nat) (config : MotorConfig) : MotorDevice F :=
  .init (BitVec.ofNat 32 i) config.name config.address (findMotorEcSpec config.model)

/-- The devices of a channel, each under its position, in the order of the configuration. -/
def boundTo (motors : List MotorConfig) (channelName : String) :
    List (DeviceRef × MotorDevice F) :=
  (motors.zipIdx.filter fun entry => entry.1.channel = channelName).map fun entry =>
    (entry.2, deviceOf entry.2 entry.1)

variable (F) in
/-- The driver of a channel with its motors bound. -/
def driverOf (motors : List MotorConfig) (channelName : String) : MotorDriver :=
  MotorDriver.bindAll { channelName } (boundTo motors channelName : List (_ × MotorDevice F))

/-- After `done` of the configured motors have been bound. -/
structure Binds (channelNames : List String) (done : List MotorConfig) (runtime : Runtime F) :
    Prop where
  motors : runtime.motors = done.zipIdx.map fun entry => deviceOf entry.2 entry.1
  drivers : runtime.motorDrivers = channelNames.map (driverOf F done)
  count : runtime.deviceBindings.length = done.length
  bindings : ∀ (i : Nat) (config : MotorConfig) (binding : DeviceBinding),
    done[i]? = some config → runtime.deviceBindings[i]? = some binding →
    channelNames[binding.driverSlot]? = some config.channel ∧
      (driverOf F done config.channel).devices[binding.deviceSlot]? = some i

theorem mem_boundTo {motors : List MotorConfig} {channelName : String} {ref : DeviceRef}
    {device : MotorDevice F} :
    (ref, device) ∈ boundTo motors channelName ↔
      ∃ config, motors[ref]? = some config ∧ config.channel = channelName ∧
        device = deviceOf ref config := by
  simp only [boundTo, List.mem_map, List.mem_filter, Prod.mk.injEq, decide_eq_true_eq]
  constructor
  · rintro ⟨⟨config, i⟩, ⟨member, hchannel⟩, rfl, rfl⟩
    exact ⟨config, List.mk_mem_zipIdx_iff_getElem?.mp member, hchannel, rfl⟩
  · rintro ⟨config, member, hchannel, rfl⟩
    exact ⟨(config, ref), ⟨List.mk_mem_zipIdx_iff_getElem?.mpr member, hchannel⟩, rfl, rfl⟩

theorem boundTo_append (done : List MotorConfig) (config : MotorConfig) (channelName : String) :
    (boundTo (done ++ [config]) channelName : List (_ × MotorDevice F)) =
      if config.channel = channelName then
        boundTo done channelName ++ [(done.length, deviceOf done.length config)]
      else boundTo done channelName := by
  rw [boundTo, List.zipIdx_append, List.filter_append, List.map_append, Nat.zero_add]
  change boundTo done channelName ++ _ = _
  split_ifs with h
  · rw [List.zipIdx_singleton, List.filter_cons_of_pos (by simpa using h)]
    rfl
  · rw [List.zipIdx_singleton, List.filter_cons_of_neg (by simpa using h)]
    exact List.append_nil _

theorem driverOf_channelName (done : List MotorConfig) (channelName : String) :
    (driverOf F done channelName).channelName = channelName :=
  MotorDriver.bindAll_channelName _ _

theorem driverOf_devices (done : List MotorConfig) (channelName : String) :
    (driverOf F done channelName).devices =
      (boundTo done channelName : List (_ × MotorDevice F)).map Prod.fst :=
  MotorDriver.bindAll_devices _ _

theorem driverOf_append (done : List MotorConfig) (config : MotorConfig) (channelName : String) :
    driverOf F (done ++ [config]) channelName =
      if config.channel = channelName then
        ((driverOf F done channelName).bindMotor done.length
          (deviceOf done.length config : MotorDevice F)).1
      else driverOf F done channelName := by
  rw [driverOf, boundTo_append]
  split_ifs
  · exact MotorDriver.bindAll_append _ _ _ _
  · rfl

theorem driverOf_devices_append (done : List MotorConfig) (config : MotorConfig)
    (channelName : String) :
    (driverOf F (done ++ [config]) channelName).devices =
      (driverOf F done channelName).devices ++
        if config.channel = channelName then [done.length] else [] := by
  rw [driverOf_devices, driverOf_devices, boundTo_append]
  split_ifs
  · rw [List.map_append, List.map_singleton]
  · exact (List.append_nil _).symm

private theorem bindings_append {channelNames : List String} {done : List MotorConfig}
    {deviceBindings : List DeviceBinding} {config : MotorConfig} {driverSlot : Nat}
    (hcount : deviceBindings.length = done.length)
    (hbindings : ∀ (i : Nat) (config : MotorConfig) (binding : DeviceBinding),
      done[i]? = some config → deviceBindings[i]? = some binding →
      channelNames[binding.driverSlot]? = some config.channel ∧
        (driverOf F done config.channel).devices[binding.deviceSlot]? = some i)
    (hname : channelNames[driverSlot]? = some config.channel) (i : Nat) (other : MotorConfig)
    (binding : DeviceBinding) (hother : (done ++ [config])[i]? = some other)
    (hbinding : (deviceBindings ++ [{
      driverSlot
      deviceSlot := (driverOf F done config.channel).devices.length }])[i]? = some binding) :
    channelNames[binding.driverSlot]? = some other.channel ∧
      (driverOf F (done ++ [config]) other.channel).devices[binding.deviceSlot]? = some i := by
  rw [driverOf_devices_append]
  rcases getElem?_concat_cases hother with hold | ⟨rfl, rfl⟩
  · have hlt := (List.getElem?_eq_some_iff.mp hold).1
    rw [List.getElem?_append_left (by omega)] at hbinding
    obtain ⟨hchannel, hdevice⟩ := hbindings i other binding hold hbinding
    refine ⟨hchannel, ?_⟩
    rw [List.getElem?_append_left (List.getElem?_eq_some_iff.mp hdevice).1, hdevice]
  · rw [← hcount, List.getElem?_concat_length, Option.some.injEq] at hbinding
    subst hbinding
    refine ⟨hname, ?_⟩
    rw [if_pos rfl, List.getElem?_concat_length]

/-- The step of the loop: one more motor is bound, all other drivers are left alone. -/
theorem bindMotor_binds {channelNames : List String} {done : List MotorConfig}
    {runtime next : Runtime F} {config : MotorConfig} (hnames : channelNames.Nodup)
    (hbinds : Binds channelNames done runtime) (h : runtime.bindMotor config = .ok next) :
    Binds channelNames (done ++ [config]) next ∧ next.options = runtime.options := by
  obtain ⟨options, motors, motorDrivers, deviceBindings⟩ := runtime
  obtain ⟨rfl, rfl, hcount, hbindings⟩ := hbinds
  unfold bindMotor at h
  cases hslot : findDriverSlot (channelNames.map (driverOf F done)) config.channel with
  | none =>
      simp only [hslot] at h
      cases h
  | some slot =>
      cases hspec : findMotorEcSpec config.model with
      | none =>
          simp only [hslot, hspec] at h
          cases h
      | some spec =>
          simp only [hslot, hspec] at h
          obtain rfl := Except.ok.inj h
          have hdevice : MotorDevice.init (BitVec.ofNat 32 deviceBindings.length) config.name
              config.address (some spec) = (deviceOf done.length config : MotorDevice F) := by
            rw [deviceOf, hspec, ← hcount]
          have hlen : slot.val < channelNames.length := by simpa using slot.isLt
          have hname : channelNames[slot.val] = config.channel := by
            have hfound := (List.findFinIdx?_eq_some_iff.mp hslot).1
            simpa [driverOf_channelName] using hfound
          refine ⟨⟨?_, ?_, by simpa using hcount, ?_⟩, rfl⟩
          · simp only [List.zipIdx_append, List.map_append, Nat.zero_add,
              List.zipIdx_singleton, List.map_singleton, hdevice]
          · apply List.ext_getElem
            · simp
            · intro j hset hmap
              have hj : j < channelNames.length := by simpa using hmap
              have hsame : slot.val = j ↔ config.channel = channelNames[j] := by
                rw [← hname, hnames.getElem_inj_iff]
              simp only [List.getElem_set, List.getElem_map, driverOf_append, hdevice, hsame]
              split_ifs with hchannel
              · simp only [Fin.getElem_fin, List.getElem_map, hname, hchannel, hcount]
              · rfl
          · intro i other binding hother hbinding
            simp only [Fin.getElem_fin, List.getElem_map, hname] at hbinding
            exact bindings_append hcount hbindings
              (List.getElem?_eq_some_iff.mpr ⟨hlen, hname⟩) i other binding hother hbinding

theorem bindMotors_binds {channelNames : List String} (hnames : channelNames.Nodup)
    (rest done : List MotorConfig) {runtime final : Runtime F}
    (hbinds : Binds channelNames done runtime) (h : rest.foldlM bindMotor runtime = .ok final) :
    Binds channelNames (done ++ rest) final ∧ final.options = runtime.options := by
  induction rest generalizing done runtime with
  | nil =>
      obtain rfl := Except.ok.inj h
      rw [List.append_nil]
      exact ⟨hbinds, rfl⟩
  | cons config rest ih =>
      rw [List.foldlM_cons] at h
      cases hstep : runtime.bindMotor config with
      | error err =>
          rw [hstep] at h
          cases h
      | ok next =>
          rw [hstep] at h
          obtain ⟨hnext, hoptions⟩ := bindMotor_binds hnames hbinds hstep
          obtain ⟨hfinal, hsame⟩ := ih (done ++ [config]) hnext h
          rw [List.append_assoc, List.singleton_append] at hfinal
          exact ⟨hfinal, hsame.trans hoptions⟩

/-- No value occurs twice if every member counts itself only. -/
theorem nodup_map_iff {α β : Type} [DecidableEq β] (xs : List α) (f : α → β) :
    (xs.map f).Nodup ↔ ∀ x ∈ xs, xs.countP (fun y => f y = f x) = 1 := by
  have hcount : ∀ x, (xs.map f).count (f x) = xs.countP fun y => f y = f x := by
    intro x
    rw [List.count, List.countP_map]
    rfl
  constructor
  · intro hnodup x member
    rw [← hcount]
    exact List.count_eq_one_of_mem hnodup (List.mem_map_of_mem member)
  · intro h
    rw [List.nodup_iff_count_le_one]
    intro value
    by_cases hvalue : value ∈ xs.map f
    · obtain ⟨x, member, rfl⟩ := List.mem_map.mp hvalue
      rw [hcount]
      exact (h x member).le
    · rw [List.count_eq_zero_of_not_mem hvalue]
      exact Nat.zero_le 1

/-- The channels that get a driver, in the order of the configuration. -/
def usedChannels (options : FleetConfig) : List String :=
  (options.channels.filter fun channel => usesChannel options.motors channel.name).map
    ChannelConfig.name

theorem usedChannels_nodup {options : FleetConfig} (h : options.Valid) :
    (usedChannels options).Nodup := by
  refine List.Nodup.sublist (List.filter_sublist.map _) ((nodup_map_iff options.channels _).mpr ?_)
  exact fun channel member => (h.channelName channel member).2

theorem channel_used {options : FleetConfig} (h : options.Valid) {motor : MotorConfig}
    (member : motor ∈ options.motors) : motor.channel ∈ usedChannels options := by
  obtain ⟨channel, hmem, hname⟩ := List.any_eq_true.mp (h.channel motor member)
  have hname : channel.name = motor.channel := by simpa using hname
  refine List.mem_map.mpr ⟨channel, List.mem_filter.mpr ⟨hmem, ?_⟩, hname⟩
  exact List.any_eq_true.mpr ⟨motor, member, by simp [hname]⟩

/-- No two motors of a channel share an address. -/
theorem boundTo_distinct {options : FleetConfig} (h : options.Valid) (channelName : String) :
    ((boundTo options.motors channelName : List (_ × MotorDevice F)).map fun entry =>
      entry.2.addr).Nodup := by
  have haddr : ((boundTo options.motors channelName : List (_ × MotorDevice F)).map fun entry =>
      entry.2.addr) =
      (options.motors.filter fun motor => motor.channel = channelName).map
        MotorConfig.address := by
    rw [boundTo, List.map_map, ← List.zipIdx_map_fst 0 options.motors, List.filter_map,
      List.map_map, List.zipIdx_map_fst 0 options.motors]
    rfl
  rw [haddr]
  apply (nodup_map_iff _ _).mpr
  intro motor member
  obtain ⟨member, hchannel⟩ := List.mem_filter.mp member
  rw [List.countP_filter, ← h.address motor member]
  congr 1
  funext item
  have hname : motor.channel = channelName := by simpa using hchannel
  rw [hname, Bool.and_assoc, Bool.and_comm]
  congr 1
  simp [MotorConfig.address]

/-- What addressing relies on in the memory of the devices; no feedback changes it. -/
def identities (motors : Motors F) : List (CanAddr × Option MotorEcSpec) :=
  motors.map fun device => (device.addr, device.ecSpec)

theorem device_in_memory {channelNames : List String} {configs : List MotorConfig}
    {runtime : Runtime F} (hbinds : Binds channelNames configs runtime) {motors : Motors F}
    (hsame : identities motors = identities runtime.motors) {i : Nat} {config : MotorConfig}
    (hconfig : configs[i]? = some config) :
    ∃ device, motors[i]? = some device ∧ device.addr = config.address ∧
      device.ecSpec = findMotorEcSpec config.model := by
  have hidentity := congrArg (·[i]?) hsame
  simp only [identities, List.getElem?_map, hbinds.motors, List.getElem?_zipIdx, hconfig,
    Option.map_some, Option.map_eq_some_iff, Prod.mk.injEq] at hidentity
  obtain ⟨current, hcurrent, haddr, hspec⟩ := hidentity
  exact ⟨current, hcurrent, haddr, hspec⟩

end Runtime

end ServoFleet
