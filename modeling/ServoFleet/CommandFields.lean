import ServoFleet.CommandLayout

/-!
The layouts are well formed: their fields keep apart inside the frame, and the numbers
of an accepted command fit in them. So every field reads back, and all other bits are
zero.
-/

namespace ServoFleet

open BitCodec

/-- Fields that keep apart inside the first `len` bytes. -/
def FieldsFit (len : Byte) (fields : List Bits) : Prop :=
  len.toNat ≤ maxCanDataLen ∧ (∀ field ∈ fields, field.offset + field.len ≤ 8 * len.toNat) ∧
    fields.Pairwise fun field other => field.offset + field.len ≤ other.offset ∨
      other.offset + other.len ≤ field.offset

instance (len : Byte) (fields : List Bits) : Decidable (FieldsFit len fields) :=
  inferInstanceAs (Decidable (_ ∧ _))

/-- The fields of the layout, without the numbers. -/
def Layout.fields (layout : Layout) : List Bits := layout.values.map FieldValue.field

theorem Layout.apart_of_fields {layout : Layout} (h : FieldsFit layout.len layout.fields) :
    layout.values.Pairwise FieldValue.Apart := by
  have hpairs := h.2.2
  rw [Layout.fields, List.pairwise_map] at hpairs
  exact hpairs

theorem Layout.fits_of_fields {layout : Layout} (h : FieldsFit layout.len layout.fields)
    (frame : CanFrame) (hlen : frame.len = layout.len) :
    ∀ value ∈ layout.values, frame.Fits value.field := by
  intro value member
  obtain ⟨hmax, hinside, _⟩ := h
  rw [CanFrame.Fits, hlen]
  exact ⟨hmax, hinside value.field (List.mem_map_of_mem member)⟩

theorem Layout.laidOut {layout : Layout} (h : FieldsFit layout.len layout.fields)
    (hsmall : ∀ value ∈ layout.values, value.Small) (address : CanAddr) :
    CanFrame.LaidOut { port := address.canPort, id := address.canId, len := layout.len }
      layout.values where
  fits := Layout.fits_of_fields h _ rfl
  small := hsmall
  apart := Layout.apart_of_fields h

theorem Layout.get_frame {layout : Layout} (h : FieldsFit layout.len layout.fields)
    (hsmall : ∀ value ∈ layout.values, value.Small) (address : CanAddr) {value : FieldValue}
    (member : value ∈ layout.values) : (layout.frame address).get value.field = value.raw :=
  CanFrame.get_fill (Layout.laidOut h hsmall address) member

namespace CanCodec

open CanField

/-! ## Fields -/

theorem pvtLayout_fits (command : PvtCommand) :
    FieldsFit (pvtLayout command).len (pvtLayout command).fields :=
  (by decide : FieldsFit 8
    [Pvt.mode, Pvt.kp, Pvt.kd, Pvt.position, Pvt.velocity, Pvt.torque])

theorem positionLayout_fits (command : PositionCommand) (position : BitVec 32) :
    FieldsFit (positionLayout command position).len (positionLayout command position).fields :=
  (by decide : FieldsFit 8
    [PositionControl.mode, PositionControl.positionDeg, PositionControl.velocityRpmX10,
      PositionControl.currentAmpX10, PositionControl.reply])

theorem velocityLayout_fits (command : VelocityCommand) (rpm : BitVec 32) :
    FieldsFit (velocityLayout command rpm).len (velocityLayout command rpm).fields :=
  (by decide : FieldsFit 7
    [VelocityControl.mode, VelocityControl.reserved, VelocityControl.reply, VelocityControl.rpm,
      VelocityControl.currentAmpX10])

theorem torqueControlLayout_fits (state : TorqueControlMode) (value : F32) (reply : ReplyMode) :
    FieldsFit (torqueControlLayout state value reply).len
      (torqueControlLayout state value reply).fields :=
  (by decide : FieldsFit 3
    [TorqueControl.mode, TorqueControl.state, TorqueControl.reply, TorqueControl.value])

theorem engageLayout_fits (isOpen : Bool) :
    FieldsFit (engageLayout isOpen).len (engageLayout isOpen).fields :=
  (by decide : FieldsFit 2
    [CanField.BrakeControl.mode, CanField.BrakeControl.reserved, CanField.BrakeControl.engaged])

theorem configModeLayout_fits (code : ConfigSetCode) (mode : Byte) :
    FieldsFit (configModeLayout code mode).len (configModeLayout code mode).fields :=
  (by decide : FieldsFit 3 [Config.mode, Config.key, .u8 16])

theorem configValueLayout_fits (code : ConfigSetCode) (value : BitVec 16) :
    FieldsFit (configValueLayout code value).len (configValueLayout code value).fields :=
  (by decide : FieldsFit 4 [Config.mode, Config.key, Config.value])

theorem configRangeLayout_fits (code : ConfigSetCode) (min max : BitVec 16) :
    FieldsFit (configRangeLayout code min max).len (configRangeLayout code min max).fields :=
  (by decide : FieldsFit 6 [Config.mode, Config.key, Config.min, Config.max])

theorem configQueryLayout_fits (code : ConfigQueryCode) :
    FieldsFit (configQueryLayout code).len (configQueryLayout code).fields :=
  (by decide : FieldsFit 2 [ConfigQuery.mode, ConfigQuery.key])

theorem configLayout_fits (code : ConfigSetCode) (value : ConfigSetValue) :
    FieldsFit (configLayout code value).len (configLayout code value).fields := by
  cases value with
  | float value => exact configValueLayout_fits _ _
  | mode value => exact configModeLayout_fits _ _
  | double value => exact configValueLayout_fits _ _
  | rangeU16 range => exact configRangeLayout_fits _ _ _
  | rangeFloat range =>
      simp only [configLayout]
      cases rangeScale code with
      | none => exact (by decide : FieldsFit 0 [])
      | some scale => exact configRangeLayout_fits _ _ _
  | milliseconds count => exact configValueLayout_fits _ _
  | gains gains =>
      simp only [configLayout]
      cases gainsScale code gains with
      | none => exact (by decide : FieldsFit 0 [])
      | some pair => exact configRangeLayout_fits _ _ _

theorem layoutWith_fits (pattern : F32 → BitVec 32) (energyState : TorqueControlMode)
    (command : MotorCommand) :
    FieldsFit (layoutWith pattern energyState command).len
      (layoutWith pattern energyState command).fields := by
  cases command with
  | pvt command => exact pvtLayout_fits command
  | position command => exact positionLayout_fits _ _
  | velocity command => exact velocityLayout_fits _ _
  | torque command => exact torqueControlLayout_fits _ _ _
  | current command => exact torqueControlLayout_fits _ _ _
  | brake command =>
      obtain ⟨deviceId, control, reply⟩ := command
      cases control with
      | damping => exact torqueControlLayout_fits _ _ _
      | energy threshold => exact torqueControlLayout_fits _ _ _
      | regen threshold => exact torqueControlLayout_fits _ _ _
      | engage isOpen => exact engageLayout_fits isOpen
  | configSet command => exact configLayout_fits _ _
  | configQuery command => exact configQueryLayout_fits _

/-! ## Numbers -/

theorem nearestValue_small {field : Bits} {quantity : Option ℚ} {high : Int}
    (h : RoundsInto quantity 0 high) (hhigh : high < 2 ^ field.len) (hmax : high ≤ 0xFFFF) :
    (nearestValue field quantity).Small :=
  nearest_lt h field.len hhigh hmax

/-- Sixteen bits hold any rounded number. -/
theorem wide_small {w : Nat} (field : Bits) (raw : BitVec w) (h : w ≤ field.len) :
    ({ field, raw := raw.setWidth 32 } : FieldValue).Small := by
  have hle := field.le
  change (raw.setWidth 32).toNat < 2 ^ field.len
  rw [BitVec.toNat_setWidth_of_le (by omega)]
  exact Nat.lt_of_lt_of_le raw.isLt (Nat.pow_le_pow_right (by decide) h)

theorem replyValue_small (field : Bits) (reply : ReplyMode) (h : field.len = 2) :
    (replyValue field reply).Small ↔ reply.Declared := by
  change (reply.raw.setWidth 32).toNat < 2 ^ field.len ↔ _
  rw [BitVec.toNat_setWidth_of_le (by decide), h, ReplyMode.Declared]
  omega

/-! ### Layouts of accepted commands -/

theorem pvtLayout_small {command : PvtCommand} (h : Accepted (.pvt command)) :
    ∀ value ∈ (pvtLayout command).values, value.Small := by
  obtain ⟨hkp, hkd, hposition, hvelocity, htorque⟩ := h
  simp only [pvtLayout, List.forall_mem_cons]
  exact ⟨by decide, nearestValue_small hkp (by decide) (by decide),
    nearestValue_small hkd (by decide) (by decide),
    nearestValue_small hposition (by decide) (by decide),
    nearestValue_small hvelocity (by decide) (by decide),
    nearestValue_small htorque (by decide) (by decide), nofun⟩

theorem positionLayout_small {command : PositionCommand} (h : Accepted (.position command))
    (position : BitVec 32) : ∀ value ∈ (positionLayout command position).values, value.Small := by
  obtain ⟨hvelocity, hcurrent, hreply⟩ := h
  simp only [positionLayout, List.forall_mem_cons]
  exact ⟨by decide, position.isLt, nearestValue_small hvelocity (by decide) (by decide),
    nearestValue_small hcurrent (by decide) (by decide), (replyValue_small _ _ rfl).mpr hreply,
    nofun⟩

theorem velocityLayout_small {command : VelocityCommand} (h : Accepted (.velocity command))
    (rpm : BitVec 32) : ∀ value ∈ (velocityLayout command rpm).values, value.Small := by
  obtain ⟨hcurrent, hreply⟩ := h
  simp only [velocityLayout, List.forall_mem_cons]
  exact ⟨by decide, by decide, (replyValue_small _ _ rfl).mpr hreply, rpm.isLt,
    nearestValue_small hcurrent (by decide) (by decide), nofun⟩

theorem torqueControlLayout_small (state : TorqueControlMode) (value : F32) {reply : ReplyMode}
    (h : reply.Declared) :
    ∀ entry ∈ (torqueControlLayout state value reply).values, entry.Small := by
  have hstate : state.raw.toNat < 2 ^ TorqueControl.state.len := by
    cases state <;> decide
  simp only [torqueControlLayout, List.forall_mem_cons]
  exact ⟨by decide, hstate, (replyValue_small _ _ rfl).mpr h, wide_small _ _ (le_refl 16), nofun⟩

theorem engageLayout_small (isOpen : Bool) :
    ∀ value ∈ (engageLayout isOpen).values, value.Small := by
  simp only [engageLayout, List.forall_mem_cons]
  cases isOpen <;> decide

theorem configModeLayout_small (code : ConfigSetCode) (mode : Byte) :
    ∀ value ∈ (configModeLayout code mode).values, value.Small := by
  simp only [configModeLayout, configHead, List.cons_append, List.nil_append, List.forall_mem_cons]
  exact ⟨by decide, wide_small _ _ (le_refl 8), wide_small _ _ (le_refl 8), nofun⟩

theorem configValueLayout_small (code : ConfigSetCode) (value : BitVec 16) :
    ∀ entry ∈ (configValueLayout code value).values, entry.Small := by
  simp only [configValueLayout, configHead, List.cons_append, List.nil_append,
    List.forall_mem_cons]
  exact ⟨by decide, wide_small _ _ (le_refl 8), wide_small _ _ (le_refl 16), nofun⟩

theorem configRangeLayout_small (code : ConfigSetCode) (min max : BitVec 16) :
    ∀ value ∈ (configRangeLayout code min max).values, value.Small := by
  simp only [configRangeLayout, configHead, List.cons_append, List.nil_append,
    List.forall_mem_cons]
  exact ⟨by decide, wide_small _ _ (le_refl 8), wide_small _ _ (le_refl 16),
    wide_small _ _ (le_refl 16), nofun⟩

theorem configQueryLayout_small (code : ConfigQueryCode) :
    ∀ value ∈ (configQueryLayout code).values, value.Small := by
  simp only [configQueryLayout, List.forall_mem_cons]
  exact ⟨by decide, wide_small _ _ (le_refl 8), nofun⟩

theorem configLayout_small (code : ConfigSetCode) (value : ConfigSetValue) :
    ∀ entry ∈ (configLayout code value).values, entry.Small := by
  cases value with
  | float value => exact configValueLayout_small _ _
  | mode value => exact configModeLayout_small _ _
  | double value => exact configValueLayout_small _ _
  | rangeU16 range => exact configRangeLayout_small _ _ _
  | rangeFloat range =>
      simp only [configLayout]
      cases rangeScale code with
      | none => exact nofun
      | some scale => exact configRangeLayout_small _ _ _
  | milliseconds count => exact configValueLayout_small _ _
  | gains gains =>
      simp only [configLayout]
      cases gainsScale code gains with
      | none => exact nofun
      | some pair => exact configRangeLayout_small _ _ _

theorem layoutWith_small (pattern : F32 → BitVec 32) (energyState : TorqueControlMode)
    {command : MotorCommand} (h : Accepted command) :
    ∀ value ∈ (layoutWith pattern energyState command).values, value.Small := by
  cases command with
  | pvt command => exact pvtLayout_small h
  | position command => exact positionLayout_small h _
  | velocity command => exact velocityLayout_small h _
  | torque command => exact torqueControlLayout_small _ _ h.2
  | current command => exact torqueControlLayout_small _ _ h.2
  | brake command =>
      obtain ⟨deviceId, control, reply⟩ := command
      cases control with
      | damping => exact torqueControlLayout_small _ _ h
      | energy threshold => exact torqueControlLayout_small _ _ h.2
      | regen threshold => exact torqueControlLayout_small _ _ h.2
      | engage isOpen => exact engageLayout_small isOpen
  | configSet command => exact configLayout_small _ _
  | configQuery command => exact configQueryLayout_small _

/-- The fields of an accepted command are laid out in the cleared frame. -/
theorem layoutWith_laidOut (pattern : F32 → BitVec 32) (energyState : TorqueControlMode)
    {command : MotorCommand} (h : Accepted command) (address : CanAddr) :
    CanFrame.LaidOut
      { port := address.canPort, id := address.canId,
        len := (layoutWith pattern energyState command).len }
      (layoutWith pattern energyState command).values :=
  Layout.laidOut (layoutWith_fits pattern energyState command)
    (layoutWith_small pattern energyState h) address

end CanCodec

end ServoFleet
