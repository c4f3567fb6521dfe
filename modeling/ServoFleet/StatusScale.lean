import Mathlib.Tactic.FieldSimp
import ServoFleet.CommandEncode
import ServoFleet.QueryResponse

/-!
Position and velocity on the way to a motor and back. A command is scaled around a
centre, a status over the whole raw range, so the two scales drift apart towards the
upper end; the drift stays below one and a half steps. The scales are those of
`make_pvt` and of `parse_status1_response`, field by field.

Values are exact rationals, and the rounding of the floats themselves is left out.
-/

namespace ServoFleet.CanCodec

/-- The quantities that a PVT command sets and a status reports. -/
inductive SymmetricField where
  | position
  | velocity

namespace SymmetricField

/-- The arguments of `checked_symmetric` in `make_pvt`. -/
def range : SymmetricField → ℚ
  | .position => 25 / 2
  | .velocity => 18

def center : SymmetricField → Int
  | .position => 32767
  | .velocity => 2047

def max : SymmetricField → Int
  | .position => 0xFFFF
  | .velocity => 0x0FFF

def bits : SymmetricField → Nat
  | .position => 16
  | .velocity => 12

/-- `checked_symmetric` on the exact value of a number. -/
def encodeExact (field : SymmetricField) (x : ℚ) : Result (BitVec 16) :=
  if field.range ≤ 0 then .error .invalidArgument
  else checkedLlround (x / field.range * field.center + field.center) field.max

/-- `decode_symmetric` as `parse_status1_response` calls it. -/
def decode (field : SymmetricField) (F : Type) [FloatArith F] (raw : BitVec 32) : F :=
  match field with
  | .position => decodeSymmetric raw (FloatArith.ofRat (25 / 2)) (FloatArith.ofRat 65535)
  | .velocity => decodeSymmetric raw (FloatArith.ofRat 18) (FloatArith.ofRat 4095)

/-- The float of a PVT command that goes into the field. -/
def commanded (field : SymmetricField) (command : PvtCommand) : F32 :=
  match field with
  | .position => command.positionR
  | .velocity => command.velocityRadps

/-- The command with another float in the field. -/
def replaced (field : SymmetricField) (command : PvtCommand) (value : F32) : PvtCommand :=
  match field with
  | .position => { command with positionR := value }
  | .velocity => { command with velocityRadps := value }

def pvtField : SymmetricField → BitCodec.Bits
  | .position => CanField.Pvt.position
  | .velocity => CanField.Pvt.velocity

def statusField : SymmetricField → BitCodec.Bits
  | .position => CanField.Feedback1.position
  | .velocity => CanField.Feedback1.velocity

def reported {F : Type} (field : SymmetricField) (status : StatusFeedback F) : F :=
  match field with
  | .position => status.positionR
  | .velocity => status.velocityRadps

variable (field : SymmetricField)

theorem range_pos : 0 < field.range := by
  cases field <;> norm_num [range]

theorem center_pos : 0 < field.center := by
  cases field <;> decide

/-- The raw range is one longer than the two halves around the centre. -/
theorem max_eq : field.max = 2 * field.center + 1 := by
  cases field <;> rfl

theorem max_le : field.max ≤ 0xFFFF := by
  cases field <;> decide

theorem fullScale : (2 : ℚ) ^ field.bits - 1 = field.max := by
  cases field <;> norm_num [bits, max]

theorem decode_exact (raw : BitVec 32) :
    field.decode (Option ℚ) raw =
      some ((raw.toNat : ℚ) / field.max * (2 * field.range) - field.range) := by
  cases field <;> rfl

/-! ## The two maps -/

theorem ratio_bounds {x : ℚ} (hlow : -field.range ≤ x) (hhigh : x ≤ field.range) :
    -1 ≤ x / field.range ∧ x / field.range ≤ 1 := by
  have hrange := field.range_pos
  rw [le_div_iff₀ hrange, div_le_iff₀ hrange]
  constructor <;> linarith

/-- A value of the range lies between the ends of the scale. -/
theorem scaled_bounds {x : ℚ} (hlow : -field.range ≤ x) (hhigh : x ≤ field.range) :
    0 ≤ x / field.range * field.center + field.center ∧
      x / field.range * field.center + field.center ≤ (2 * field.center : ℤ) := by
  have hcenter : (0 : ℚ) < field.center := by exact_mod_cast field.center_pos
  obtain ⟨hleft, hright⟩ := field.ratio_bounds hlow hhigh
  push_cast
  constructor <;> nlinarith

theorem encodeExact_judges (x : ℚ) :
    Judges (field.encodeExact x) (some (x / field.range * field.center + field.center)) 0
      field.max := by
  rw [encodeExact, if_neg (not_le.mpr field.range_pos)]
  exact checkedLlround_judges _ field.max field.max_le

theorem encodeExact_ok {x : ℚ} (hlow : -field.range ≤ x) (hhigh : x ≤ field.range) :
    ∃ raw, field.encodeExact x = .ok raw ∧
      (raw.toNat : ℤ) = Rounding.halfAway (x / field.range * field.center + field.center) := by
  obtain ⟨hzero, htop⟩ := field.scaled_bounds hlow hhigh
  have hnonneg := Rounding.halfAway_nonneg hzero
  have hmono := Rounding.halfAway_mono htop
  rw [Rounding.halfAway_intCast] at hmono
  have hle : Rounding.halfAway (x / field.range * field.center + field.center) ≤ field.max := by
    rw [field.max_eq]
    omega
  exact ⟨_, (field.encodeExact_judges x).ok (roundsInto_some.mpr ⟨hnonneg, hle⟩),
    toNat_rounded hnonneg (hle.trans field.max_le)⟩

/-- Rounding adds at most half a step, the drift at most another one. -/
theorem decoded_close (x : ℚ) (n : ℤ) (hlow : -field.range ≤ x) (hhigh : x ≤ field.range)
    (hn : |(n : ℚ) - (x / field.range * field.center + field.center)| ≤ 1 / 2) :
    |(n : ℚ) / field.max * (2 * field.range) - field.range - x| ≤
      3 / 2 * (2 * field.range / field.max) := by
  have hrange := field.range_pos
  have hcenter : (0 : ℚ) < field.center := by exact_mod_cast field.center_pos
  have hmax : (field.max : ℚ) = 2 * field.center + 1 := by exact_mod_cast field.max_eq
  have hmaxPos : (0 : ℚ) < field.max := by linarith
  obtain ⟨hn₁, hn₂⟩ := abs_le.mp hn
  obtain ⟨hleft, hright⟩ := field.ratio_bounds hlow hhigh
  -- twice the rounding, less the distance from the lower end
  have hdrift : (n : ℚ) / field.max * (2 * field.range) - field.range - x =
      field.range / field.max * (2 * ((n : ℚ) - (x / field.range * field.center + field.center)) -
        (1 + x / field.range)) := by
    field_simp
    rw [hmax]
    ring
  have hstep : 3 / 2 * (2 * field.range / field.max) = field.range / field.max * 3 := by
    ring
  rw [hdrift, hstep, abs_mul, abs_of_pos (div_pos hrange hmaxPos)]
  apply mul_le_mul_of_nonneg_left _ (div_pos hrange hmaxPos).le
  rw [abs_le]
  constructor <;> linarith

/-! ## The two ends -/

/-- The quantity that `make_pvt` rounds for the field. -/
def scaled (value : F32) : Option ℚ := aroundCenter value field.range field.center

theorem roundsInto_of_accepted {command : PvtCommand} (h : Accepted (.pvt command)) :
    RoundsInto (field.scaled (field.commanded command)) 0 field.max := by
  obtain ⟨_, _, hposition, hvelocity, _⟩ := h
  cases field with
  | position => exact hposition
  | velocity => exact hvelocity

theorem accepted_replaced {command : PvtCommand} {value : F32} (h : Accepted (.pvt command))
    (hvalue : RoundsInto (field.scaled value) 0 field.max) :
    Accepted (.pvt (field.replaced command value)) := by
  obtain ⟨hkp, hkd, hposition, hvelocity, htorque⟩ := h
  cases field with
  | position => exact ⟨hkp, hkd, hvalue, hvelocity, htorque⟩
  | velocity => exact ⟨hkp, hkd, hposition, hvalue, htorque⟩

/-- The layout of a command writes the rounded quantity into the field. -/
theorem pvtLayout_read {command : PvtCommand} (h : Accepted (.pvt command)) (address : CanAddr) :
    ((pvtLayout command).frame address).read field.pvtField =
      some (.ok ((nearest (field.scaled (field.commanded command))).setWidth 32)) := by
  have member : nearestValue field.pvtField (field.scaled (field.commanded command)) ∈
      (pvtLayout command).values := by
    cases field with
    | position => exact .tail _ (.tail _ (.tail _ (.head _)))
    | velocity => exact .tail _ (.tail _ (.tail _ (.tail _ (.head _))))
  have hget := Layout.get_frame (pvtLayout_fits command) (pvtLayout_small h) address member
  have hfits : ((pvtLayout command).frame address).Fits field.pvtField :=
    CanFrame.fits_of_len 8 (CanFrame.fill_address _ _).2.2.2 (by cases field <;> decide)
  rw [CanFrame.read_eq _ _ hfits]
  exact congrArg (fun raw => some (Except.ok raw)) hget

/-- What `make_pvt` writes into the field is the raw number of the commanded value. -/
theorem makePvt_read {address : CanAddr} {command : PvtCommand} {start frame : CanFrame} {x : ℚ}
    (hx : (field.commanded command).value = some x)
    (hrun : makePvt address command start = some (.ok (), frame)) :
    ∃ raw, field.encodeExact x = .ok raw ∧
      frame.read field.pvtField = some (.ok (raw.setWidth 32)) := by
  obtain ⟨haccepted, rfl⟩ := (makePvt_does address start command).of_ok hrun
  have hrounds := field.roundsInto_of_accepted haccepted
  have hread := field.pvtLayout_read haccepted address
  rw [scaled, aroundCenter, hx, Option.map_some] at hrounds hread
  exact ⟨_, (field.encodeExact_judges x).ok hrounds, hread⟩

theorem makePvt_replaced {address : CanAddr} {command : PvtCommand} {start frame : CanFrame}
    {value : F32} {x : ℚ} (hrun : makePvt address command start = some (.ok (), frame))
    (hvalue : value.value = some x) (hlow : -field.range ≤ x) (hhigh : x ≤ field.range) :
    ∃ made, makePvt address (field.replaced command value) start = some (.ok (), made) := by
  obtain ⟨haccepted, _⟩ := (makePvt_does address start command).of_ok hrun
  obtain ⟨raw, hraw, _⟩ := field.encodeExact_ok hlow hhigh
  have hrounds : RoundsInto (field.scaled value) 0 field.max := by
    rw [scaled, aroundCenter, hvalue, Option.map_some]
    exact ((field.encodeExact_judges x).of_ok hraw).1
  exact ⟨_, (makePvt_does address start _).ok (field.accepted_replaced haccepted hrounds)⟩

/-- What `parse_status1_response` reports is the decoded raw number of the field. -/
theorem parseStatus1Response_reports {F : Type} [FloatArith F] {frame : CanFrame}
    (hlen : frame.len = 8) (error : MotorErr) (range : Option (Range F)) :
    ∃ status raw, (parseStatus1Response frame error range).run = some (.ok (.status status)) ∧
      frame.read field.statusField = some (.ok raw) ∧
      field.reported status = field.decode F raw := by
  have hread : ∀ bits : BitCodec.Bits, bits.offset + bits.len ≤ 64 →
      readField bits frame = pure (frame.get bits) := fun bits hbits =>
    readField_eq bits frame (CanFrame.fits_of_len 8 hlen ⟨by decide, hbits⟩)
  have hguard : requireFrameLen frame 8 = pure () := by
    rw [requireFrameLen, hlen]
    rfl
  have hfits : frame.Fits field.statusField :=
    CanFrame.fits_of_len 8 hlen (by cases field <;> decide)
  have hrun : ∃ status, parseStatus1Response frame error range = pure (.status status) ∧
      field.reported status = field.decode F (frame.get field.statusField) := by
    rw [parseStatus1Response, hguard, hread _ (by decide), hread _ (by decide),
      hread _ (by decide), hread _ (by decide), hread _ (by decide)]
    cases field <;> exact ⟨_, rfl, rfl⟩
  obtain ⟨status, hstatus, hreported⟩ := hrun
  exact ⟨status, _, by rw [hstatus]; rfl, CanFrame.read_eq _ _ hfits, hreported⟩

/-! ## Both together -/

/-- The scales of command and status match on the whole range of the field. -/
structure ScalesMatch (field : SymmetricField) : Prop where
  /-- Every value is accepted, and what a status makes of its raw number is at most one and a
  half steps away. -/
  close : ∀ x : ℚ, -field.range ≤ x → x ≤ field.range →
    ∃ raw decoded, field.encodeExact x = .ok raw ∧
      field.decode (Option ℚ) (raw.setWidth 32) = some decoded ∧
      |decoded - x| ≤ 3 / 2 * (2 * field.range / (2 ^ field.bits - 1))
  /-- The raw numbers keep the order. -/
  ordered : ∀ x y : ℚ, -field.range ≤ x → x ≤ y → y ≤ field.range →
    ∀ raw raw', field.encodeExact x = .ok raw → field.encodeExact y = .ok raw' → raw ≤ raw'
  /-- `make_pvt` accepts every value in place of one that it accepts. -/
  accepts : ∀ (address : CanAddr) (command : PvtCommand) (start frame : CanFrame) (value : F32)
    (x : ℚ), makePvt address command start = some (.ok (), frame) → value.value = some x →
      -field.range ≤ x → x ≤ field.range →
        ∃ made, makePvt address (field.replaced command value) start = some (.ok (), made)
  /-- Its frame holds the raw number of the value. -/
  made : ∀ (address : CanAddr) (command : PvtCommand) (start frame : CanFrame) (x : ℚ),
    (field.commanded command).value = some x →
      makePvt address command start = some (.ok (), frame) →
        ∃ raw, field.encodeExact x = .ok raw ∧
          frame.read field.pvtField = some (.ok (raw.setWidth 32))
  /-- `parse_status1_response` decodes the raw number that a frame of eight bytes holds. -/
  reports : ∀ (frame : CanFrame) (error : MotorErr) (range : Option (Range (Option ℚ))),
    frame.len = 8 → ∃ status raw,
      (parseStatus1Response frame error range).run = some (.ok (.status status)) ∧
      frame.read field.statusField = some (.ok raw) ∧
      field.reported status = field.decode (Option ℚ) raw

/-- The scales of command and status match for position and for velocity: every value of
the range is accepted, raw numbers keep the order, and decoding the raw number of a value
gives one at most one and a half steps away. They are those of the frames of `make_pvt`
and the reports of `parse_status1_response`. -/
theorem command_status_scales_match : field.ScalesMatch where
  close x hlow hhigh := by
    obtain ⟨raw, hraw, hnat⟩ := field.encodeExact_ok hlow hhigh
    have hcast : ((raw.setWidth 32).toNat : ℚ) =
        Rounding.halfAway (x / field.range * field.center + field.center) := by
      rw [BitVec.toNat_setWidth_of_le (by decide)]
      exact_mod_cast hnat
    refine ⟨raw, _, hraw, field.decode_exact _, ?_⟩
    rw [field.fullScale, hcast]
    exact field.decoded_close x _ hlow hhigh (Rounding.abs_halfAway_sub_le _)
  ordered x y hlow hle hhigh raw raw' hx hy := by
    obtain ⟨_, hx', hraw⟩ := field.encodeExact_ok hlow (hle.trans hhigh)
    obtain ⟨_, hy', hraw'⟩ := field.encodeExact_ok (hlow.trans hle) hhigh
    obtain rfl := Except.ok.inj (hx.symm.trans hx')
    obtain rfl := Except.ok.inj (hy.symm.trans hy')
    have hcenter : (0 : ℚ) ≤ field.center := by exact_mod_cast field.center_pos.le
    have hscaled : x / field.range * field.center + field.center ≤
        y / field.range * field.center + field.center := by
      have hdiv : x / field.range ≤ y / field.range :=
        div_le_div_of_nonneg_right hle field.range_pos.le
      have := mul_le_mul_of_nonneg_right hdiv hcenter
      linarith
    have hmono := Rounding.halfAway_mono hscaled
    rw [← hraw, ← hraw'] at hmono
    exact_mod_cast hmono
  accepts _ _ _ _ _ _ hrun hvalue hlow hhigh := field.makePvt_replaced hrun hvalue hlow hhigh
  made _ _ _ _ _ hx hrun := field.makePvt_read hx hrun
  reports _ error range hlen := field.parseStatus1Response_reports hlen error range

end SymmetricField

end ServoFleet.CanCodec
