import ServoFleet.RuntimeInit

/-!
Which configurations a runtime comes up with, and what its bindings then lead to:
identifier, driver and device slot of every motor.
-/

namespace ServoFleet

/-- A configuration in which names and addresses tell channels and motors apart and
every motor has a usable channel and a known model. -/
structure FleetConfig.InOrder (config : FleetConfig) : Prop where
  channelNames : (∀ channel ∈ config.channels, channel.name ≠ "") ∧
    (config.channels.map ChannelConfig.name).Nodup
  motorNames : (∀ motor ∈ config.motors, motor.name ≠ "") ∧
    (config.motors.map MotorConfig.name).Nodup
  channelExists : ∀ motor ∈ config.motors,
    ∃ channel ∈ config.channels, channel.name = motor.channel
  addresses : (config.motors.map fun motor => (motor.channel, motor.canPort, motor.canId)).Nodup
  standard : ∀ motor ∈ config.motors, motor.canId ≤ 0x7FF
  models : ∀ motor ∈ config.motors, ∃ spec ∈ ecMotorTable, spec.model = motor.model
  limits : ∀ channel ∈ config.channels,
    (∃ motor ∈ config.motors, motor.channel = channel.name) →
      channel.maxBandwidthBps ≠ 0 ∧ channel.sendQueueSlots ≠ 0 ∧
        channel.sendQueueSlots.toNat ≤ 0xFFFFFFFF / 512

namespace Runtime

variable {F : Type} [FloatArith F]

/-- Positions are identifiers, and the binding of an identifier names the driver of the
motor's channel and a slot of it that holds the motor. -/
structure BindsEach (options : FleetConfig) (runtime : Runtime F) : Prop where
  count : runtime.motors.length = options.motors.length
  identity : ∀ (i : Nat) (config : MotorConfig), options.motors[i]? = some config →
    ∃ device, runtime.motors[i]? = some device ∧ device.id = BitVec.ofNat 32 i ∧
      device.name = config.name
  bound : ∀ (id : DeviceId) (config : MotorConfig), options.motors[id.toNat]? = some config →
    ∃ binding driver, runtime.findDeviceBinding id = some binding ∧
      runtime.motorDrivers[binding.driverSlot]? = some driver ∧
      driver.channelName = config.channel ∧ driver.devices[binding.deviceSlot]? = some id.toNat
  distinct : ∀ (id other : DeviceId) (binding : DeviceBinding),
    runtime.findDeviceBinding id = some binding →
      runtime.findDeviceBinding other = some binding → id = other
  unbound : ∀ id : DeviceId, options.motors.length ≤ id.toNat →
    runtime.findDeviceBinding id = none

/-! ## Configurations that come up -/

theorem findMotorEcSpec_ne_none_iff (model : String) :
    findMotorEcSpec model ≠ none ↔ ∃ spec ∈ ecMotorTable, spec.model = model := by
  have hnamed : ∀ spec ∈ ecMotorTable, spec.model ≠ "" := by decide
  unfold findMotorEcSpec
  split_ifs with hempty
  · refine iff_of_false (fun h => h rfl) ?_
    rintro ⟨spec, member, hmodel⟩
    exact hnamed spec member (hmodel.trans hempty)
  · rw [Ne, List.find?_eq_none]
    simp

theorem bindMotor_ok_iff {channelNames : List String} {done : List MotorConfig}
    {runtime : Runtime F} {config : MotorConfig} (hbinds : Binds channelNames done runtime)
    (hchannel : config.channel ∈ channelNames) :
    (∃ next, runtime.bindMotor config = .ok next) ↔ findMotorEcSpec config.model ≠ none := by
  cases hslot : findDriverSlot runtime.motorDrivers config.channel with
  | none =>
      have hmissing := List.findFinIdx?_eq_none_iff.mp hslot (driverOf F done config.channel)
        (by rw [hbinds.drivers]; exact List.mem_map_of_mem hchannel)
      exact absurd (by simpa using driverOf_channelName done config.channel) hmissing
  | some slot =>
      rw [bindMotor, hslot]
      cases findMotorEcSpec config.model with
      | none => exact iff_of_false (fun ⟨_, h⟩ => nomatch h) fun h => h rfl
      | some spec => exact iff_of_true ⟨_, rfl⟩ nofun

theorem bindMotors_ok_iff {channelNames : List String} (hnames : channelNames.Nodup)
    (rest done : List MotorConfig) {runtime : Runtime F}
    (hbinds : Binds channelNames done runtime)
    (hchannel : ∀ config ∈ rest, config.channel ∈ channelNames) :
    (∃ final, rest.foldlM bindMotor runtime = .ok final) ↔
      ∀ config ∈ rest, findMotorEcSpec config.model ≠ none := by
  induction rest generalizing done runtime with
  | nil => exact iff_of_true ⟨runtime, rfl⟩ nofun
  | cons config rest ih =>
      obtain ⟨hfirst, hrest⟩ := List.forall_mem_cons.mp hchannel
      have hknown := bindMotor_ok_iff hbinds hfirst
      rw [List.foldlM_cons, List.forall_mem_cons]
      cases hstep : runtime.bindMotor config with
      | error err =>
          rw [hstep] at hknown
          apply iff_of_false (fun ⟨_, h⟩ => nomatch h)
          rintro ⟨h, _⟩
          obtain ⟨next, hnext⟩ := hknown.mpr h
          cases hnext
      | ok next =>
          have hnext := (bindMotor_binds hnames hbinds hstep).1
          rw [and_iff_right (hknown.mp ⟨next, hstep⟩)]
          exact ih (done ++ [config]) hnext hrest

theorem initDrivers_binds {options : FleetConfig} {opens : ChannelConfig → Bool}
    {runtime : Runtime F} (h : initDrivers { options } opens = some runtime) :
    Binds (usedChannels options) [] runtime ∧ runtime.options = options := by
  rw [initDrivers] at h
  split_ifs at h
  obtain rfl := Option.some.inj h
  refine ⟨⟨rfl, ?_, rfl, ?_⟩, rfl⟩
  · rw [usedChannels, List.map_map]
    rfl
  · intro i config binding hconfig
    cases hconfig

omit [FloatArith F] in
theorem initDrivers_iff (options : FleetConfig) (opens : ChannelConfig → Bool) :
    (∃ runtime : Runtime F, initDrivers { options } opens = some runtime) ↔
      ∀ channel ∈ options.channels, usesChannel options.motors channel.name = true →
        opens channel = true ∧
          channel.sendQueueSlots.toNat ≤ 0xFFFFFFFF / motorUdpPacketCap := by
  unfold initDrivers
  dsimp only
  split_ifs with hall
  · refine iff_of_true ⟨_, rfl⟩ ?_
    intro channel member hused
    have hchannel := List.all_eq_true.mp hall channel (List.mem_filter.mpr ⟨member, hused⟩)
    simpa using hchannel
  · refine iff_of_false (fun ⟨_, h⟩ => nomatch h) ?_
    intro hopens
    apply hall
    rw [List.all_eq_true]
    intro channel member
    obtain ⟨member, hused⟩ := List.mem_filter.mp member
    simpa using hopens channel member hused

theorem init_eq_ok_iff {options : FleetConfig} {opens : ChannelConfig → Bool}
    {runtime : Runtime F} : init options opens = .ok runtime ↔
      options.Valid ∧ ∃ drivers : Runtime F, initDrivers { options } opens = some drivers ∧
        drivers.bindMotors = .ok runtime := by
  rw [init, ← options.validateConfig_iff]
  cases options.validateConfig with
  | error err => exact iff_of_false nofun fun h => nomatch h.1
  | ok _ =>
      rw [and_iff_right rfl]
      cases initDrivers ({ options } : Runtime F) opens with
      | none => exact iff_of_false nofun fun ⟨_, h, _⟩ => nomatch h
      | some drivers =>
          constructor
          · intro h
            exact ⟨drivers, rfl, h⟩
          · rintro ⟨same, hsame, hbind⟩
            obtain rfl := Option.some.inj hsame
            exact hbind

/-- What a successful `init` means. -/
theorem init_ok {options : FleetConfig} {opens : ChannelConfig → Bool} {runtime : Runtime F}
    (h : init options opens = .ok runtime) :
    options.Valid ∧ Binds (usedChannels options) options.motors runtime ∧
      runtime.options = options := by
  obtain ⟨hvalid, drivers, hdrivers, hbind⟩ := init_eq_ok_iff.mp h
  obtain ⟨hbinds, hoptions⟩ := initDrivers_binds hdrivers
  rw [bindMotors, hoptions] at hbind
  obtain ⟨hfinal, hsame⟩ :=
    bindMotors_binds (usedChannels_nodup hvalid) options.motors [] hbinds hbind
  exact ⟨hvalid, hfinal, hsame.trans hoptions⟩

/-- When a runtime comes up. -/
theorem init_iff (options : FleetConfig) (opens : ChannelConfig → Bool) :
    (∃ runtime : Runtime F, init options opens = .ok runtime) ↔
      options.Valid ∧
        (∀ channel ∈ options.channels, usesChannel options.motors channel.name = true →
          opens channel = true ∧
            channel.sendQueueSlots.toNat ≤ 0xFFFFFFFF / motorUdpPacketCap) ∧
        ∀ motor ∈ options.motors, findMotorEcSpec motor.model ≠ none := by
  rw [← initDrivers_iff (F := F)]
  constructor
  · rintro ⟨runtime, h⟩
    obtain ⟨hvalid, drivers, hdrivers, hbind⟩ := init_eq_ok_iff.mp h
    obtain ⟨hbinds, hoptions⟩ := initDrivers_binds hdrivers
    rw [bindMotors, hoptions] at hbind
    refine ⟨hvalid, ⟨drivers, hdrivers⟩, ?_⟩
    exact (bindMotors_ok_iff (usedChannels_nodup hvalid) _ [] hbinds
      fun config member => channel_used hvalid member).mp ⟨runtime, hbind⟩
  · rintro ⟨hvalid, ⟨drivers, hdrivers⟩, hknown⟩
    obtain ⟨hbinds, hoptions⟩ := initDrivers_binds hdrivers
    obtain ⟨runtime, hbind⟩ := (bindMotors_ok_iff (usedChannels_nodup hvalid) _ [] hbinds
      fun config member => channel_used hvalid member).mpr hknown
    refine ⟨runtime, init_eq_ok_iff.mpr ⟨hvalid, drivers, hdrivers, ?_⟩⟩
    rw [bindMotors, hoptions]
    exact hbind

/-- The runtime comes up for every accepted configuration of known models, once
its channels can be constructed. -/
theorem init_succeeds (options : FleetConfig) (opens : ChannelConfig → Bool)
    (hvalid : options.validateConfig = .ok ())
    (hknown : ∀ motor ∈ options.motors, findMotorEcSpec motor.model ≠ none)
    (hopens : ∀ channel ∈ options.channels, opens channel = true ∧
      channel.sendQueueSlots.toNat ≤ 0xFFFFFFFF / motorUdpPacketCap) :
    ∃ runtime : Runtime F, init options opens = .ok runtime :=
  (init_iff options opens).mpr ⟨options.validateConfig_iff.mp hvalid,
    fun channel member _ => hopens channel member, hknown⟩

theorem channelExists_iff (config : FleetConfig) (name : String) :
    config.channelExists name = true ↔ ∃ channel ∈ config.channels, channel.name = name := by
  rw [FleetConfig.channelExists, List.any_eq_true]
  simp only [decide_eq_true_eq]

theorem usesChannel_iff (motors : List MotorConfig) (name : String) :
    usesChannel motors name = true ↔ ∃ motor ∈ motors, motor.channel = name := by
  rw [usesChannel, List.any_eq_true]
  simp only [decide_eq_true_eq]

/-- A motor's address counts the motors with the same channel, port and identifier. -/
theorem address_count (motors : List MotorConfig) (motor : MotorConfig) :
    motors.countP (fun item => item.channel = motor.channel && item.canPort = motor.canPort &&
      item.canId = motor.canId) =
      motors.countP fun item => (item.channel, item.canPort, item.canId) =
        (motor.channel, motor.canPort, motor.canId) := by
  congr 1
  funext item
  simp only [Prod.mk.injEq, Bool.decide_and, Bool.and_assoc]

theorem inOrder_iff (options : FleetConfig) : options.InOrder ↔ options.Valid ∧
    (∀ channel ∈ options.channels, usesChannel options.motors channel.name = true →
      channel.sendQueueSlots.toNat ≤ 0xFFFFFFFF / motorUdpPacketCap) ∧
    ∀ motor ∈ options.motors, findMotorEcSpec motor.model ≠ none := by
  have hchannels := nodup_map_iff options.channels ChannelConfig.name
  have hmotors := nodup_map_iff options.motors MotorConfig.name
  have haddresses := nodup_map_iff options.motors fun motor =>
    (motor.channel, motor.canPort, motor.canId)
  simp only [← address_count] at haddresses
  constructor
  · intro h
    refine ⟨{
      channelName := fun channel member =>
        ⟨h.channelNames.1 channel member, hchannels.mp h.channelNames.2 channel member⟩
      channel := fun motor member => (channelExists_iff _ _).mpr (h.channelExists motor member)
      name := fun motor member =>
        ⟨h.motorNames.1 motor member, hmotors.mp h.motorNames.2 motor member⟩
      standard := h.standard
      address := haddresses.mp h.addresses
      limits := ?_ }, ?_, ?_⟩
    · intro channel member hused
      obtain ⟨hbandwidth, hslots, _⟩ := h.limits channel member ((usesChannel_iff _ _).mp hused)
      exact ⟨hbandwidth, hslots⟩
    · intro channel member hused
      exact (h.limits channel member ((usesChannel_iff _ _).mp hused)).2.2
    · intro motor member
      exact (findMotorEcSpec_ne_none_iff _).mpr (h.models motor member)
  · rintro ⟨hvalid, hstorage, hknown⟩
    refine {
      channelNames := ⟨fun channel member => (hvalid.channelName channel member).1,
        hchannels.mpr fun channel member => (hvalid.channelName channel member).2⟩
      motorNames := ⟨fun motor member => (hvalid.name motor member).1,
        hmotors.mpr fun motor member => (hvalid.name motor member).2⟩
      channelExists := fun motor member =>
        (channelExists_iff _ _).mp (hvalid.channel motor member)
      addresses := haddresses.mpr hvalid.address
      standard := hvalid.standard
      models := fun motor member => (findMotorEcSpec_ne_none_iff _).mp (hknown motor member)
      limits := ?_ }
    intro channel member hused
    have hused := (usesChannel_iff _ _).mpr hused
    obtain ⟨hbandwidth, hslots⟩ := hvalid.limits channel member hused
    exact ⟨hbandwidth, hslots, hstorage channel member hused⟩

/-! ## Bindings -/

theorem deviceBinding_holds {options : FleetConfig} {runtime : Runtime F}
    (hbinds : Binds (usedChannels options) options.motors runtime) {id : DeviceId}
    {binding : DeviceBinding} (hbinding : runtime.findDeviceBinding id = some binding) :
    ∃ config, options.motors[id.toNat]? = some config ∧
      runtime.motorDrivers[binding.driverSlot]? = some (driverOf F options.motors config.channel) ∧
      (driverOf F options.motors config.channel).devices[binding.deviceSlot]? =
        some id.toNat := by
  have hlt : id.toNat < options.motors.length := by
    rw [← hbinds.count]
    exact (List.getElem?_eq_some_iff.mp hbinding).1
  obtain ⟨hchannel, hdevice⟩ := hbinds.bindings id.toNat options.motors[id.toNat] binding
    (List.getElem?_eq_getElem hlt) hbinding
  refine ⟨_, List.getElem?_eq_getElem hlt, ?_, hdevice⟩
  rw [hbinds.drivers, List.getElem?_map, hchannel]
  rfl

theorem binds_each {options : FleetConfig} {opens : ChannelConfig → Bool} {runtime : Runtime F}
    (h : init options opens = .ok runtime) : BindsEach options runtime := by
  obtain ⟨_, hbinds, _⟩ := init_ok h
  constructor
  · rw [hbinds.motors, List.length_map, List.length_zipIdx]
  · intro i config hconfig
    refine ⟨deviceOf i config, ?_, rfl, rfl⟩
    simp only [hbinds.motors, List.getElem?_map, List.getElem?_zipIdx, hconfig, Option.map_some,
      Nat.zero_add]
  · intro id config hconfig
    have hlt : id.toNat < runtime.deviceBindings.length := by
      rw [hbinds.count]
      exact (List.getElem?_eq_some_iff.mp hconfig).1
    have hbinding : runtime.findDeviceBinding id = some runtime.deviceBindings[id.toNat] :=
      List.getElem?_eq_getElem hlt
    obtain ⟨same, hsame, hdriver, hdevice⟩ := deviceBinding_holds hbinds hbinding
    obtain rfl := Option.some.inj (hconfig.symm.trans hsame)
    exact ⟨_, _, hbinding, hdriver, driverOf_channelName _ _, hdevice⟩
  · intro id other binding hid hother
    obtain ⟨config, _, hdriver, hdevice⟩ := deviceBinding_holds hbinds hid
    obtain ⟨config', _, hdriver', hdevice'⟩ := deviceBinding_holds hbinds hother
    have hsame := Option.some.inj (hdriver.symm.trans hdriver')
    rw [hsame] at hdevice
    exact BitVec.eq_of_toNat_eq (Option.some.inj (hdevice.symm.trans hdevice'))
  · intro id hcount
    apply List.getElem?_eq_none
    rwa [hbinds.count]

/-- A runtime comes up for exactly the configurations in order, and then every motor is
bound to the driver of its own channel, in a slot of its own. That the sockets open is
taken for granted. -/
theorem init_binds_each (options : FleetConfig) :
    ((∃ runtime : Runtime F, init options (fun _ => true) = .ok runtime) ↔ options.InOrder) ∧
      ∀ runtime : Runtime F, init options (fun _ => true) = .ok runtime →
        BindsEach options runtime := by
  constructor
  · rw [init_iff, inOrder_iff]
    simp only [true_and]
  · intro runtime h
    exact binds_each h

/-- The motors of two channels in turn. -/
def interleavedConfig : FleetConfig where
  channels := [{ name := "left" }, { name := "right" }]
  motors :=
    [{ name := "hip", channel := "right", model := "EC-A4310-P2-36", canId := 1 },
      { name := "knee", channel := "left", model := "EC-A4310-P2-36", canId := 1 },
      { name := "foot", channel := "right", model := "EC-A4310-P2-36", canId := 2 }]

theorem interleavedConfig_binds : ∃ runtime : Runtime (Option ℚ),
    init interleavedConfig (fun _ => true) = .ok runtime ∧
      BindsEach interleavedConfig runtime ∧
      runtime.deviceBindings = [{ driverSlot := 1, deviceSlot := 0 },
        { driverSlot := 0, deviceSlot := 0 }, { driverSlot := 1, deviceSlot := 1 }] := by
  have horder : interleavedConfig.InOrder := by
    constructor <;> decide
  obtain ⟨runtime, hinit⟩ := (init_binds_each (F := Option ℚ) interleavedConfig).1.mpr horder
  refine ⟨runtime, hinit, (init_binds_each interleavedConfig).2 runtime hinit, ?_⟩
  have hbindings := congrArg (Except.map Runtime.deviceBindings) hinit
  exact (Except.ok.inj hbindings).symm

end Runtime

end ServoFleet
