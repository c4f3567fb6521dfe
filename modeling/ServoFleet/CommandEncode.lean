import ServoFleet.CommandFields

/-!
Every encoder makes the frame of its layout, from whatever frame it is given, if it
accepts the command, and reports an invalid argument if not.
-/

namespace ServoFleet

open BitCodec

namespace CanCodec

open CanField

/-! ## Encoders -/

section Encoders

variable (address : CanAddr) (start : CanFrame)

/-- The writes of a layout into its cleared frame. -/
theorem does_layout (layout : Layout) (h : FieldsFit layout.len layout.fields) :
    Does (writes layout.values)
      { port := address.canPort, id := address.canId, len := layout.len }
      (∀ value ∈ layout.values, value.Small) (layout.frame address) :=
  does_writes _ _ (Layout.fits_of_fields h _ rfl)

theorem makePvt_does (command : PvtCommand) :
    Does (makePvt address command) start (Accepted (.pvt command))
      ((pvtLayout command).frame address) := by
  unfold makePvt
  apply does_congr
  · apply does_init
    apply does_check (checkedPvtGain_judges _ 500 4095 (by norm_num) (by decide))
    apply does_check (checkedPvtGain_judges _ 5 511 (by norm_num) (by decide))
    apply does_check (checkedSymmetric_judges _ (25 / 2) 32767 0xFFFF (by norm_num) (by decide))
    apply does_check (checkedSymmetric_judges _ 18 2047 0x0FFF (by norm_num) (by decide))
    apply does_check (checkedSymmetric_judges _ 30 2047 0x0FFF (by norm_num) (by decide))
    exact does_layout address _ (pvtLayout_fits command)
  constructor
  · rintro ⟨hkp, hkd, hposition, hvelocity, htorque, _⟩
    exact ⟨hkp, hkd, hposition, hvelocity, htorque⟩
  · intro haccepted
    have hsmall := pvtLayout_small haccepted
    obtain ⟨hkp, hkd, hposition, hvelocity, htorque⟩ := haccepted
    exact ⟨hkp, hkd, hposition, hvelocity, htorque, hsmall⟩

theorem makePosition_does (build : FloatBuild) (command : PositionCommand) :
    Does (makePosition build address command) start (Accepted (.position command))
      ((positionLayout command (f32ToBits build command.positionDeg)).frame address) := by
  unfold makePosition
  apply does_congr
  · apply does_init
    apply does_check (checkedScaled_judges _ 10 0 0x7FFF)
    apply does_check (checkedScaled_judges _ 10 0 0x0FFF)
    exact does_layout address _ (positionLayout_fits command _)
  constructor
  · rintro ⟨hvelocity, hcurrent, hsmall⟩
    simp only [positionLayout, List.forall_mem_cons] at hsmall
    obtain ⟨_, _, _, _, hreply, _⟩ := hsmall
    exact ⟨hvelocity, hcurrent, (replyValue_small _ _ rfl).mp hreply⟩
  · intro haccepted
    exact ⟨haccepted.1, haccepted.2.1, positionLayout_small haccepted _⟩

theorem makeVelocity_does (build : FloatBuild) (command : VelocityCommand) :
    Does (makeVelocity build address command) start (Accepted (.velocity command))
      ((velocityLayout command (f32ToBits build command.velocityRpm)).frame address) := by
  unfold makeVelocity
  apply does_congr
  · apply does_init
    apply does_check (checkedScaled_judges _ 10 0 uint16Max)
    exact does_layout address _ (velocityLayout_fits command _)
  constructor
  · rintro ⟨hcurrent, hsmall⟩
    simp only [velocityLayout, List.forall_mem_cons] at hsmall
    obtain ⟨_, _, hreply, _⟩ := hsmall
    exact ⟨hcurrent, (replyValue_small _ _ rfl).mp hreply⟩
  · intro haccepted
    exact ⟨haccepted.1, velocityLayout_small haccepted _⟩

theorem encodeTorqueControl_does (state : TorqueControlMode) (value : F32) (reply : ReplyMode) :
    Does (encodeTorqueControl address state value reply) start
      (RoundsInto (scaledBy value 100) (-32768) 32767 ∧ reply.Declared)
      ((torqueControlLayout state value reply).frame address) := by
  unfold encodeTorqueControl
  apply does_congr
  · apply does_init
    apply does_check (checkedScaled_judges _ 100 (-32768) 32767)
    exact does_layout address _ (torqueControlLayout_fits state value reply)
  constructor
  · rintro ⟨hvalue, hsmall⟩
    simp only [torqueControlLayout, List.forall_mem_cons] at hsmall
    obtain ⟨_, _, hreply, _⟩ := hsmall
    exact ⟨hvalue, (replyValue_small _ _ rfl).mp hreply⟩
  · rintro ⟨hvalue, hreply⟩
    exact ⟨hvalue, torqueControlLayout_small _ _ hreply⟩

theorem engage_does (isOpen : Bool) :
    Does (writes (engageLayout isOpen).values)
      { port := address.canPort, id := address.canId, len := 2 } True
      ((engageLayout isOpen).frame address) := by
  apply does_congr (does_layout address _ (engageLayout_fits isOpen))
  exact iff_of_true (engageLayout_small isOpen) trivial

/-- A damping brake carries the float zero. -/
theorem zero_rounds : RoundsInto (scaledBy {} 100) (-32768) 32767 :=
  ⟨0, by decide +kernel, by decide +kernel, by decide +kernel⟩

theorem makeBrake_does (build : FloatBuild) (command : BrakeCommand) :
    Does (makeBrake address command) start (Accepted (.brake command))
      ((sent build (.brake command)).frame address) := by
  obtain ⟨deviceId, control, reply⟩ := command
  apply does_init
  cases control with
  | damping =>
      exact does_congr (encodeTorqueControl_does address _ .variableDampingBrake {} reply)
        (and_iff_right zero_rounds)
  | energy threshold =>
      exact encodeTorqueControl_does address _ .regenerativeBrake threshold reply
  | regen threshold =>
      exact encodeTorqueControl_does address _ .regenerativeBrake threshold reply
  | engage isOpen => exact engage_does address isOpen

/-! ### Configuration -/

theorem makeConfigValue_does (code : ConfigSetCode) (value : BitVec 16) :
    Does (makeConfigValue address code 4 value) start True
      ((configValueLayout code value).frame address) := by
  unfold makeConfigValue
  apply does_init
  apply does_congr (does_layout address _ (configValueLayout_fits code value))
  exact iff_of_true (configValueLayout_small code value) trivial

theorem makeConfigRange_does (code : ConfigSetCode) (min max : BitVec 16) :
    Does (makeConfigRange address code min max) start True
      ((configRangeLayout code min max).frame address) := by
  unfold makeConfigRange
  apply does_init
  apply does_congr (does_layout address _ (configRangeLayout_fits code min max))
  exact iff_of_true (configRangeLayout_small code min max) trivial

theorem makeConfigPair_does (code : ConfigSetCode) (scale : PairScale) (first second : F32) :
    Does (makeConfigPair address code
        (checkedScaled first scale.first scale.low scale.high)
        (checkedScaled second scale.second scale.low scale.high))
      start (PairAccepted scale first second)
      ((pairLayout code scale first second).frame address) := by
  unfold makeConfigPair
  apply does_congr
  · apply does_check (checkedScaled_judges first scale.first scale.low scale.high)
    apply does_check (checkedScaled_judges second scale.second scale.low scale.high)
    exact makeConfigRange_does address start code _ _
  rw [and_true]
  rfl

/-- A byte of the data is a field of eight bits. -/
theorem writeData_eq (index : Fin 8) (value : Byte) (frame : CanFrame) :
    writeData index value frame =
      some (.ok (), frame.put (.u8 (8 * index)) (value.setWidth 32)) := by
  have hbyte : ∀ j, j < 8 →
      value.getMsbD j = (value.setWidth 32).getLsbD (8 - 1 - (8 * 0 + j)) := by
    intro j hj
    rw [BitVec.getMsbD_eq_getLsbD, BitVec.getLsbD_setWidth]
    simp only [hj, decide_true, Bool.true_and]
    rw [decide_eq_true (by omega), Bool.true_and]
    congr 1
    omega
  have hset := BitField.set_putPrefix frame.data.toList index 0 8 (value.setWidth 32) value
    (by simp) hbyte
  have hdata : frame.data.set index value =
      (frame.put (.u8 (8 * index)) (value.setWidth 32)).data := by
    apply Vector.toList_inj.mp
    rw [CanFrame.put_toList, Vector.toList_set]
    exact hset
  unfold writeData
  rw [hdata]
  rfl

theorem does_writeData (index : Fin 8) (value : Byte) :
    Does (writeData index value) start True (start.put (.u8 (8 * index)) (value.setWidth 32)) :=
  ⟨fun _ => writeData_eq index value start, fun h => absurd trivial h⟩

theorem encodeConfigMode_does (code : ConfigSetCode) (mode : Byte) :
    Does (encodeConfigMode address code mode) start (code = .commMode)
      ((configModeLayout code mode).frame address) := by
  unfold encodeConfigMode
  split_ifs with hcode
  · exact does_congr does_fail (iff_of_false nofun hcode)
  · apply does_init
    have hfit : ∀ field : Bits, field.offset + field.len ≤ 24 →
        CanFrame.Fits { port := address.canPort, id := address.canId, len := 3 } field :=
      fun field h => CanFrame.fits_of_len 3 rfl ⟨by decide, h⟩
    have hmode := does_write { field := Config.mode, raw := CommandCode.motorConfig.raw }
      (hfit Config.mode (by decide))
    apply does_congr (does_bind hmode
      (does_bind
        (does_write { field := Config.key, raw := code.raw.setWidth 32 }
          (hfit Config.key (by decide)))
        (does_writeData _ 2 mode)))
    exact iff_of_true ⟨by decide, wide_small _ _ (le_refl 8), trivial⟩ (not_not.mp hcode)

/-- Two overloads send a number in hundredths, each under one code. -/
private theorem does_hundredths (code expected : ConfigSetCode) (value : F32) :
    Does (if code ≠ expected then FrameM.fail .invalidArgument
      else FrameM.check (checkedU16Scaled value 100 uint16Max) >>= makeConfigValue address code 4)
      start (code = expected ∧ RoundsInto (scaledBy value 100) 0 uint16Max)
      ((configValueLayout code (nearest (scaledBy value 100))).frame address) := by
  split_ifs with hcode
  · exact does_congr does_fail (iff_of_false nofun fun h => hcode h.1)
  · apply does_congr
    · apply does_check (checkedScaled_judges _ 100 0 uint16Max)
      exact makeConfigValue_does address start code _
    rw [and_true]
    exact (and_iff_right (not_not.mp hcode)).symm

theorem encodeConfigRatio_does (code : ConfigSetCode) (ratio : F64) :
    Does (encodeConfigRatio address code ratio) start (ConfigAccepted code (.double ratio))
      ((configLayout code (.double ratio)).frame address) :=
  does_hundredths address start code .torqueRatio ratio.toF32

theorem encodeConfigAccel_does (code : ConfigSetCode) (acceleration : F32) :
    Does (encodeConfigAccel address code acceleration) start
      (ConfigAccepted code (.float acceleration))
      ((configLayout code (.float acceleration)).frame address) :=
  does_hundredths address start code .accel acceleration

theorem encodeConfigRangeU16_does (code : ConfigSetCode) (range : Range (BitVec 16)) :
    Does (encodeConfigRangeU16 address code range) start (ConfigAccepted code (.rangeU16 range))
      ((configLayout code (.rangeU16 range)).frame address) := by
  unfold encodeConfigRangeU16
  split_ifs with hcode
  · exact does_congr (makeConfigRange_does address start code _ _) (iff_of_true trivial hcode)
  · exact does_congr does_fail (iff_of_false nofun hcode)

theorem encodeConfigTimeout_does (code : ConfigSetCode) (timeout : Int) :
    Does (encodeConfigTimeout address code timeout) start
      (ConfigAccepted code (.milliseconds timeout))
      ((configLayout code (.milliseconds timeout)).frame address) := by
  unfold encodeConfigTimeout
  split_ifs with hcode hbounds
  · exact does_congr does_fail (iff_of_false nofun fun h => hcode h.1)
  · apply does_congr does_fail (iff_of_false nofun ?_)
    rintro ⟨_, hlow, hhigh⟩
    omega
  · apply does_congr (makeConfigValue_does address start code _) (iff_of_true trivial ?_)
    exact ⟨not_not.mp hcode, by omega, by omega⟩

/-- Which scale the code picks, the encoder picks too. -/
theorem encodeConfigRange_does (code : ConfigSetCode) (range : Range F32) :
    Does (encodeConfigRange address code range) start (ConfigAccepted code (.rangeFloat range))
      ((configLayout code (.rangeFloat range)).frame address) := by
  have hpair : ∀ scale, Does _ start _ _ := fun scale =>
    makeConfigPair_does address start code scale range.min range.max
  unfold encodeConfigRange
  simp only [ConfigAccepted, configLayout, rangeScale]
  split_ifs
  · exact does_congr (hpair { first := 1, second := 1, low := 0, high := uint16Max }) (by simp)
  · exact does_congr (hpair { first := 100, second := 100, low := -32768, high := 32767 })
      (by simp)
  · exact does_congr (hpair { first := 10, second := 10, low := -32768, high := 32767 }) (by simp)
  · exact does_congr does_fail (by simp)

theorem encodeConfigGains_does (code : ConfigSetCode) (gains : PidGains F32) :
    Does (encodeConfigGains address code gains) start (ConfigAccepted code (.gains gains))
      ((configLayout code (.gains gains)).frame address) := by
  have hpair : ∀ scale second, Does _ start _ _ := fun scale second =>
    makeConfigPair_does address start code scale gains.kp second
  unfold encodeConfigGains
  simp only [ConfigAccepted, configLayout, gainsScale]
  split_ifs
  · exact does_congr (hpair { first := 10000, second := 10, low := 0, high := uint16Max } gains.ki)
      (by simp)
  · exact does_congr
      (hpair { first := 100000, second := 100000, low := 0, high := uint16Max } gains.ki) (by simp)
  · exact does_congr
      (hpair { first := 100000, second := 100000, low := 0, high := uint16Max } gains.kd) (by simp)
  · exact does_congr does_fail (by simp)

theorem makeConfig_does (command : ConfigSetCommand) :
    Does (makeConfig address command) start (Accepted (.configSet command))
      ((configLayout command.code command.value).frame address) := by
  obtain ⟨deviceId, code, value⟩ := command
  cases value with
  | float value => exact encodeConfigAccel_does address start code value
  | mode value => exact encodeConfigMode_does address start code value
  | double value => exact encodeConfigRatio_does address start code value
  | rangeU16 range => exact encodeConfigRangeU16_does address start code range
  | rangeFloat range => exact encodeConfigRange_does address start code range
  | milliseconds count => exact encodeConfigTimeout_does address start code count
  | gains gains => exact encodeConfigGains_does address start code gains

theorem makeConfigQuery_does (command : ConfigQueryCommand) :
    Does (makeConfigQuery address command) start True
      ((configQueryLayout command.code).frame address) := by
  unfold makeConfigQuery
  apply does_init
  apply does_congr (does_layout address _ (configQueryLayout_fits command.code))
  exact iff_of_true (configQueryLayout_small command.code) trivial

/-- What the encoder does to every command, in every build: the frame of its layout if the
command is accepted, an invalid argument if not, whatever the frame held before. -/
theorem encodeWith_does (build : FloatBuild) (command : MotorCommand) :
    Does (encodeWith build address command) start (Accepted command)
      ((sent build command).frame address) := by
  cases command with
  | pvt command => exact makePvt_does address start command
  | position command => exact makePosition_does address start build command
  | velocity command => exact makeVelocity_does address start build command
  | torque command => exact encodeTorqueControl_does address start .torque _ _
  | current command => exact encodeTorqueControl_does address start .current _ _
  | brake command => exact makeBrake_does address start build command
  | configSet command => exact makeConfig_does address start command
  | configQuery command => exact makeConfigQuery_does address start command

end Encoders

theorem accepted_of_encodeWith {build : FloatBuild} {address : CanAddr} {command : MotorCommand}
    {start frame : CanFrame} (h : encodeWith build address command start = some (.ok (), frame)) :
    Accepted command ∧ frame = (sent build command).frame address :=
  (encodeWith_does address start build command).of_ok h

end CanCodec

end ServoFleet
