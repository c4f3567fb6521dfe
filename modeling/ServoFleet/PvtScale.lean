import ServoFleet.CommandEncode
import ServoFleet.SendPackets
import Mathlib.Tactic.FieldSimp
import Mathlib.Tactic.LinearCombination
import Mathlib.Tactic.Positivity
import Mathlib.Tactic.Ring

/-!
PVT commands against the protocol ranges of the motor models. The encoder scales
the derivative gain by 5 and the torque by 30 for every model, while the models
have ranges of their own.
-/

namespace ServoFleet

def Range.Contains (range : Range ℚ) (value : ℚ) : Prop := range.min ≤ value ∧ value ≤ range.max

/-- A raw field of `width` bits on the line from the least to the largest value. -/
def Range.mapBack (range : Range ℚ) (width : Nat) (raw : ℚ) : ℚ :=
  range.min + raw * ((range.max - range.min) / (2 ^ width - 1))

/-- The raw field stands for the value up to two steps of the field. -/
def Range.Approximates (range : Range ℚ) (width : Nat) (raw value : ℚ) : Prop :=
  |range.mapBack width raw - value| ≤ 2 * ((range.max - range.min) / (2 ^ width - 1))

namespace PvtScale

open Rounding

/-! ## Rounding against a range -/

/-- A gain on the encoder's own scale. -/
theorem gain_approximates (top : ℚ) (maxRaw : Int) (width : Nat) {v : ℚ}
    (hwidth : (maxRaw : ℚ) = 2 ^ width - 1) (hmax : 0 < maxRaw) (hv : 0 ≤ v) (htop : 0 < top)
    (hle : v ≤ top) :
    (0 ≤ halfAway (v / top * maxRaw) ∧ halfAway (v / top * maxRaw) ≤ maxRaw) ∧
      ({ min := 0, max := top } : Range ℚ).Approximates width (halfAway (v / top * maxRaw)) v := by
  have hmaxRat : (0 : ℚ) < maxRaw := by exact_mod_cast hmax
  have hnonneg : 0 ≤ v / top * maxRaw := by positivity
  have hfull : v / top * maxRaw ≤ maxRaw := by
    have : v / top ≤ 1 := (div_le_one htop).mpr hle
    nlinarith
  refine ⟨⟨halfAway_nonneg hnonneg, ?_⟩, ?_⟩
  · have := halfAway_mono hfull
    rwa [halfAway_intCast] at this
  · have hround := abs_le.mp (abs_halfAway_sub_le (v / top * maxRaw))
    set n : ℚ := (halfAway (v / top * maxRaw) : ℚ)
    have hstep : 0 < top / maxRaw := by positivity
    have hv' : v = v / top * maxRaw * (top / maxRaw) := by field_simp
    rw [Range.Approximates, Range.mapBack, ← hwidth, abs_le]
    simp only [sub_zero, zero_add]
    constructor <;> nlinarith

/-- A quantity of either sign on the encoder's own scale. -/
theorem symmetric_approximates (top : ℚ) (center : Int) (width : Nat) {v : ℚ}
    (hwidth : 2 * (center : ℚ) + 1 = 2 ^ width - 1) (hcenter : 0 < center) (htop : 0 < top)
    (hlow : -top ≤ v) (hhigh : v ≤ top) :
    (0 ≤ halfAway (v / top * center + center) ∧
      halfAway (v / top * center + center) ≤ 2 * center + 1) ∧
      ({ min := -top, max := top } : Range ℚ).Approximates width
        (halfAway (v / top * center + center)) v := by
  have hc : (0 : ℚ) < center := by exact_mod_cast hcenter
  have hup : v / top ≤ 1 := (div_le_one htop).mpr hhigh
  have hdown : -1 ≤ v / top := by
    rw [le_div_iff₀ htop]
    linarith
  have hback : v = v / top * top := by field_simp
  set t := v / top
  have hnonneg : 0 ≤ t * center + center := by nlinarith
  have hfull : t * center + center ≤ ((2 * center + 1 : Int) : ℚ) := by
    push_cast
    nlinarith
  refine ⟨⟨halfAway_nonneg hnonneg, ?_⟩, ?_⟩
  · have hmono := halfAway_mono hfull
    rwa [halfAway_intCast] at hmono
  · obtain ⟨hround, hround'⟩ := abs_le.mp (abs_halfAway_sub_le (t * center + center))
    set n : ℚ := (halfAway (t * center + center) : ℚ)
    rw [Range.Approximates, Range.mapBack, ← hwidth, abs_le]
    dsimp only
    set step := (top - -top) / (2 * (center : ℚ) + 1) with hstep
    have hpos : 0 < step := by
      rw [hstep]
      apply div_pos <;> linarith
    have hspan : step * (2 * center + 1) = 2 * top := by
      rw [hstep, div_mul_cancel₀ _ (by linarith)]
      ring
    have hdiff : -top + n * step - v = step * (n - (t * center + center) - 1 / 2 - t / 2) := by
      rw [hback]
      linear_combination (1 / 2 + t / 2) * hspan
    rw [hdiff]
    constructor <;> nlinarith

/-! ## The two scales that are not the model's -/

/-- Torques in the tolerance of a model of torque range `top`: in the cell the encoder
rounds to its step `j`, counted from the centre, and within two steps of the model's own. -/
def TorqueInStep (top v : ℚ) (j : Int) : Prop :=
  ((2 * j - 1) * (15 / 2047) ≤ v ∧ v < (2 * j + 1) * (15 / 2047)) ∧
    (2 * j - 5) * (top / 4095) ≤ v ∧ v ≤ (2 * j + 3) * (top / 4095)

/-- The torques in the tolerance of a model whose range is not the encoder's are small, on
either side of it: the two scales part with every step away from the centre. -/
theorem torqueInStep_small {top v : ℚ} {j : Int} (htop : top = 12 ∨ 45 ≤ top)
    (h : TorqueInStep top v j) : |v| < 1 / 7 := by
  obtain ⟨⟨hcell, hcell'⟩, hwindow, hwindow'⟩ := h
  rw [abs_lt]
  rcases htop with rfl | htop
  · constructor <;> linarith
  constructor
  · by_contra hv
    have hneg : 2 * (j : ℚ) + 3 ≤ 0 := by linarith
    have hscale := mul_le_mul_of_nonpos_left htop hneg
    linarith
  · by_contra hv
    have hpos : 0 ≤ 2 * (j : ℚ) - 5 := by linarith
    have hscale := mul_le_mul_of_nonneg_left htop hpos
    linarith

/-- The model's tolerance, with the step counted from the centre. -/
private theorem torque_window (top v n : ℚ) :
    ({ min := -top, max := top } : Range ℚ).Approximates 12 n v ↔
      (2 * (n - 2047) - 5) * (top / 4095) ≤ v ∧ v ≤ (2 * (n - 2047) + 3) * (top / 4095) := by
  rw [Range.Approximates, Range.mapBack, abs_le]
  norm_num
  constructor <;> rintro ⟨hlow, hhigh⟩ <;> constructor <;> linarith

theorem torque_approximates_iff {top v : ℚ} (htop : top = 12 ∨ top = 30 ∨ 45 ≤ top)
    (hlow : -top ≤ v) (hhigh : v ≤ top) :
    ((0 ≤ halfAway (v / 30 * (2047 : Int) + (2047 : Int)) ∧
        halfAway (v / 30 * (2047 : Int) + (2047 : Int)) ≤ 0x0FFF) ∧
      ({ min := -top, max := top } : Range ℚ).Approximates 12
        (halfAway (v / 30 * (2047 : Int) + (2047 : Int))) v) ↔
    ∃ j, TorqueInStep top v j := by
  rw [torque_window]
  push_cast
  set n := halfAway (v / 30 * 2047 + 2047) with hn
  obtain ⟨hround, hround'⟩ := abs_le.mp (abs_halfAway_sub_le (v / 30 * 2047 + 2047))
  rw [← hn] at hround hround'
  constructor
  · rintro ⟨⟨hzero, _⟩, hwindow, hwindow'⟩
    have hzero' : (0 : ℚ) ≤ n := by exact_mod_cast hzero
    have hnonneg : 0 ≤ v / 30 * 2047 + 2047 := by
      rcases htop with rfl | rfl | htop
      · linarith
      · linarith
      · by_contra hneg
        have hlast : n < 1 := by
          by_contra hone
          have hone' : (1 : ℚ) ≤ n := by exact_mod_cast not_lt.mp hone
          linarith
        have hn0 : n = 0 := by omega
        rw [hn0, Int.cast_zero] at hround' hwindow'
        linarith
    obtain ⟨hcell, hcell'⟩ := (halfAway_eq_iff hnonneg n).mp hn.symm
    refine ⟨n - 2047, ⟨?_, ?_⟩, ?_⟩
    · push_cast
      linarith
    · push_cast
      linarith
    · push_cast
      exact ⟨hwindow, hwindow'⟩
  · rintro ⟨j, hstep⟩
    have hinside : -30 ≤ v ∧ v ≤ 30 := by
      rcases htop with rfl | rfl | htop
      · constructor <;> linarith
      · exact ⟨hlow, hhigh⟩
      · obtain ⟨_, _⟩ := abs_lt.mp (torqueInStep_small (.inr htop) hstep)
        constructor <;> linarith
    obtain ⟨⟨hcell, hcell'⟩, hwindow⟩ := hstep
    have hnonneg : 0 ≤ v / 30 * 2047 + 2047 := by linarith
    have hj : n = j + 2047 := by
      rw [hn, halfAway_eq_iff hnonneg]
      push_cast
      constructor <;> linarith
    refine ⟨⟨halfAway_nonneg hnonneg, ?_⟩, ?_⟩
    · have hmono := halfAway_mono (p := v / 30 * 2047 + 2047) (q := ((4094 : Int) : ℚ))
        (by push_cast; linarith)
      rw [halfAway_intCast] at hmono
      omega
    · rw [hj]
      push_cast
      simpa using hwindow

/-- On the encoder's own range every torque is in the model's tolerance. -/
theorem torqueInStep_matching {v : ℚ} (hlow : -30 ≤ v) (hhigh : v ≤ 30) :
    ∃ j, TorqueInStep 30 v j := by
  refine ⟨⌊v * (2047 / 30) + 1 / 2⌋, ?_⟩
  have hfloor := Int.floor_le (v * (2047 / 30) + 1 / 2)
  have hfloor' := Int.lt_floor_add_one (v * (2047 / 30) + 1 / 2)
  refine ⟨⟨?_, ?_⟩, ?_, ?_⟩ <;> linarith

/-- Derivative gains up to 50 on the encoder's scale up to 5. -/
theorem wide_kd_approximates_iff {v : ℚ} (hlow : 0 ≤ v) :
    ((0 ≤ halfAway (v / 5 * (511 : Int)) ∧ halfAway (v / 5 * (511 : Int)) ≤ 511) ∧
      ({ min := 0, max := 50 } : Range ℚ).Approximates 9 (halfAway (v / 5 * (511 : Int))) v) ↔
    v < 25 / 1022 := by
  rw [Range.Approximates, Range.mapBack, abs_le]
  push_cast
  set n := halfAway (v / 5 * 511) with hn
  have hnonneg : 0 ≤ v / 5 * 511 := by positivity
  obtain ⟨hround, hround'⟩ := (halfAway_eq_iff hnonneg n).mp hn.symm
  norm_num
  constructor
  · rintro ⟨_, _, happrox⟩
    by_contra hwide
    have hthree : 2 < n := by
      by_contra htwo
      have htwo' : (n : ℚ) ≤ 2 := by exact_mod_cast not_lt.mp htwo
      linarith
    have hthree' : (3 : ℚ) ≤ n := by exact_mod_cast hthree
    linarith
  · intro hsmall
    have htwo : n < 3 := by
      by_contra hthree
      have hthree' : (3 : ℚ) ≤ n := by exact_mod_cast not_lt.mp hthree
      linarith
    have htwo' : (n : ℚ) ≤ 2 := by exact_mod_cast Int.lt_add_one_iff.mp htwo
    have hzero : 0 ≤ n := halfAway_nonneg hnonneg
    have hzero' : (0 : ℚ) ≤ n := by exact_mod_cast hzero
    refine ⟨⟨hzero, by omega⟩, ?_, ?_⟩ <;> linarith

/-! ## Commands inside the ranges of a model -/

/-- The five quantities of a command, when they are finite. -/
structure Quantities where
  kp : ℚ
  kd : ℚ
  position : ℚ
  velocity : ℚ
  torque : ℚ

structure Quantities.Of (command : PvtCommand) (q : Quantities) : Prop where
  kp : command.gains.kp.value = some q.kp
  kd : command.gains.kd.value = some q.kd
  position : command.positionR.value = some q.position
  velocity : command.velocityRadps.value = some q.velocity
  torque : command.torqueFfNm.value = some q.torque

/-- Every quantity lies inside the model's own range. -/
structure InRange (spec : MotorEcSpec) (q : Quantities) : Prop where
  kp : spec.kp.Contains q.kp
  kd : spec.kd.Contains q.kd
  position : spec.posRad.Contains q.position
  velocity : spec.speedRad.Contains q.velocity
  torque : spec.torqueNm.Contains q.torque

/-- Every raw field of the frame, mapped back onto the model's own range, is
within two steps of the commanded quantity. -/
structure Faithful (spec : MotorEcSpec) (q : Quantities) (frame : CanFrame) : Prop where
  kp : spec.kp.Approximates 12 (frame.get CanField.Pvt.kp).toNat q.kp
  kd : spec.kd.Approximates 9 (frame.get CanField.Pvt.kd).toNat q.kd
  position : spec.posRad.Approximates 16 (frame.get CanField.Pvt.position).toNat q.position
  velocity : spec.speedRad.Approximates 12 (frame.get CanField.Pvt.velocity).toNat q.velocity
  torque : spec.torqueNm.Approximates 12 (frame.get CanField.Pvt.torque).toNat q.torque

/-- Raw numbers on the encoder's fixed scales stand for the gain and the torque up to the
model's tolerance. -/
def OnScale (spec : MotorEcSpec) (q : Quantities) : Prop :=
  (spec.kd.max = 5 ∨ q.kd < 25 / 1022) ∧ ∃ j, TorqueInStep spec.torqueNm.max q.torque j

/-- What all rows of the table have in common. -/
theorem ecMotorTable_ranges : ∀ spec ∈ ecMotorTable,
    spec.kp = { min := 0, max := 500 } ∧
    (spec.kd = { min := 0, max := 5 } ∨ spec.kd = { min := 0, max := 50 }) ∧
    spec.posRad = { min := -(25 / 2), max := 25 / 2 } ∧
    spec.speedRad = { min := -18, max := 18 } ∧
    spec.torqueNm.min = -spec.torqueNm.max ∧
    (spec.torqueNm.max = 12 ∨ spec.torqueNm.max = 30 ∨ 45 ≤ spec.torqueNm.max) := by
  decide +kernel

open CanCodec

private theorem raw_toNat {frame : CanFrame} {value : FieldValue} {quantity : Option ℚ}
    (hget : frame.get value.field = value.raw)
    (hraw : value.raw = (nearest quantity).setWidth 32) {x : ℚ} (hx : quantity = some x)
    {max : Int} (hround : RoundsInto quantity 0 max) (hmax : max ≤ 0xFFFF) :
    ((frame.get value.field).toNat : ℚ) = halfAway x := by
  subst hx
  obtain ⟨hlow, hhigh⟩ := roundsInto_some.mp hround
  rw [hget, hraw, BitVec.toNat_setWidth_of_le (by decide)]
  exact toNat_ofInt16 hlow (hhigh.trans hmax)

section Fields

variable {command : PvtCommand} {q : Quantities} (hof : q.Of command)

include hof

theorem accepted_iff : Accepted (.pvt command) ↔
    (0 ≤ halfAway (q.kp / 500 * (4095 : Int)) ∧ halfAway (q.kp / 500 * (4095 : Int)) ≤ 4095) ∧
    (0 ≤ halfAway (q.kd / 5 * (511 : Int)) ∧ halfAway (q.kd / 5 * (511 : Int)) ≤ 511) ∧
    (0 ≤ halfAway (q.position / (25 / 2) * (32767 : Int) + (32767 : Int)) ∧
      halfAway (q.position / (25 / 2) * (32767 : Int) + (32767 : Int)) ≤ 0xFFFF) ∧
    (0 ≤ halfAway (q.velocity / 18 * (2047 : Int) + (2047 : Int)) ∧
      halfAway (q.velocity / 18 * (2047 : Int) + (2047 : Int)) ≤ 0x0FFF) ∧
    (0 ≤ halfAway (q.torque / 30 * (2047 : Int) + (2047 : Int)) ∧
      halfAway (q.torque / 30 * (2047 : Int) + (2047 : Int)) ≤ 0x0FFF) := by
  simp only [Accepted, ofMaximum, aroundCenter, hof.kp, hof.kd, hof.position, hof.velocity,
    hof.torque, Option.map_some, roundsInto_some]

/-- Every field of the frame reads back as its rounded quantity. -/
theorem pvtLayout_get (h : Accepted (.pvt command)) (address : CanAddr) :
    let frame := (pvtLayout command).frame address
    ((frame.get CanField.Pvt.kp).toNat : ℚ) = halfAway (q.kp / 500 * (4095 : Int)) ∧
      ((frame.get CanField.Pvt.kd).toNat : ℚ) = halfAway (q.kd / 5 * (511 : Int)) ∧
      ((frame.get CanField.Pvt.position).toNat : ℚ) =
        halfAway (q.position / (25 / 2) * (32767 : Int) + (32767 : Int)) ∧
      ((frame.get CanField.Pvt.velocity).toNat : ℚ) =
        halfAway (q.velocity / 18 * (2047 : Int) + (2047 : Int)) ∧
      ((frame.get CanField.Pvt.torque).toNat : ℚ) =
        halfAway (q.torque / 30 * (2047 : Int) + (2047 : Int)) := by
  have hget : ∀ value ∈ (pvtLayout command).values, _ := fun value =>
    Layout.get_frame (pvtLayout_fits command) (pvtLayout_small h) address
  simp only [pvtLayout, List.forall_mem_cons] at hget
  obtain ⟨_, hgetKp, hgetKd, hgetPosition, hgetVelocity, hgetTorque, _⟩ := hget
  obtain ⟨hkp, hkd, hposition, hvelocity, htorque⟩ := h
  refine ⟨raw_toNat hgetKp rfl ?_ hkp (by decide), raw_toNat hgetKd rfl ?_ hkd (by decide),
    raw_toNat hgetPosition rfl ?_ hposition (by decide),
    raw_toNat hgetVelocity rfl ?_ hvelocity (by decide),
    raw_toNat hgetTorque rfl ?_ htorque (by decide)⟩
  · rw [ofMaximum, hof.kp, Option.map_some]
  · rw [ofMaximum, hof.kd, Option.map_some]
  · rw [aroundCenter, hof.position, Option.map_some]
  · rw [aroundCenter, hof.velocity, Option.map_some]
  · rw [aroundCenter, hof.torque, Option.map_some]

end Fields

section Model

variable {spec : MotorEcSpec} (hspec : spec ∈ ecMotorTable) {command : PvtCommand} {q : Quantities}
  (hof : q.Of command) (hrange : InRange spec q)

include hspec hrange

theorem kd_iff :
    ((0 ≤ halfAway (q.kd / 5 * (511 : Int)) ∧ halfAway (q.kd / 5 * (511 : Int)) ≤ 511) ∧
      spec.kd.Approximates 9 (halfAway (q.kd / 5 * (511 : Int))) q.kd) ↔
    spec.kd.max = 5 ∨ q.kd < 25 / 1022 := by
  obtain ⟨_, hkd, _⟩ := ecMotorTable_ranges spec hspec
  obtain ⟨hlow, hhigh⟩ := hrange.kd
  rcases hkd with hkd | hkd <;> rw [hkd] at hlow hhigh ⊢
  · have happrox := gain_approximates 5 511 9 (by norm_num) (by decide) hlow (by norm_num) hhigh
    simpa using happrox
  · rw [wide_kd_approximates_iff hlow]
    norm_num

theorem torque_iff :
    ((0 ≤ halfAway (q.torque / 30 * (2047 : Int) + (2047 : Int)) ∧
        halfAway (q.torque / 30 * (2047 : Int) + (2047 : Int)) ≤ 0x0FFF) ∧
      spec.torqueNm.Approximates 12
        (halfAway (q.torque / 30 * (2047 : Int) + (2047 : Int))) q.torque) ↔
    ∃ j, TorqueInStep spec.torqueNm.max q.torque j := by
  obtain ⟨_, _, _, _, hmin, htop⟩ := ecMotorTable_ranges spec hspec
  obtain ⟨hlow, hhigh⟩ := hrange.torque
  obtain ⟨model, kp, kd, speedRad, posRad, ⟨min, max⟩, currentA⟩ := spec
  dsimp only at hmin htop hlow hhigh ⊢
  subst hmin
  exact torque_approximates_iff htop hlow hhigh

include hof

/-- The encoder makes a frame that is faithful to the model exactly for the
commands its fixed scales serve. -/
theorem makePvt_faithful_iff (address : CanAddr) :
    (∃ frame, (∀ start, makePvt address command start = some (.ok (), frame)) ∧
      Faithful spec q frame) ↔ OnScale spec q := by
  obtain ⟨hkpRange, _, hpositionRange, hvelocityRange, _⟩ := ecMotorTable_ranges spec hspec
  constructor
  · rintro ⟨frame, hrun, hfaithful⟩
    obtain ⟨haccepted, rfl⟩ := (makePvt_does address {} command).of_ok (hrun {})
    obtain ⟨_, hkdBounds, _, _, htorqueBounds⟩ := (accepted_iff hof).mp haccepted
    obtain ⟨_, hgetKd, _, _, hgetTorque⟩ := pvtLayout_get hof haccepted address
    have hkd := hfaithful.kd
    have htorque := hfaithful.torque
    rw [hgetKd] at hkd
    rw [hgetTorque] at htorque
    exact ⟨(kd_iff hspec hrange).mp ⟨hkdBounds, hkd⟩,
      (torque_iff hspec hrange).mp ⟨htorqueBounds, htorque⟩⟩
  · rintro ⟨hkdScale, htorqueScale⟩
    obtain ⟨hkdBounds, hkd⟩ := (kd_iff hspec hrange).mpr hkdScale
    obtain ⟨htorqueBounds, htorque⟩ := (torque_iff hspec hrange).mpr htorqueScale
    obtain ⟨hkpMin, hkpMax⟩ := hkpRange ▸ hrange.kp
    obtain ⟨hpositionMin, hpositionMax⟩ := hpositionRange ▸ hrange.position
    obtain ⟨hvelocityMin, hvelocityMax⟩ := hvelocityRange ▸ hrange.velocity
    obtain ⟨hkpBounds, hkp⟩ :=
      gain_approximates 500 4095 12 (by norm_num) (by decide) hkpMin (by norm_num) hkpMax
    obtain ⟨hpositionBounds, hposition⟩ := symmetric_approximates (25 / 2) 32767 16
      (by norm_num) (by decide) (by norm_num) hpositionMin hpositionMax
    obtain ⟨hvelocityBounds, hvelocity⟩ := symmetric_approximates 18 2047 12
      (by norm_num) (by decide) (by norm_num) hvelocityMin hvelocityMax
    have haccepted := (accepted_iff hof).mpr
      ⟨hkpBounds, hkdBounds, hpositionBounds, hvelocityBounds, htorqueBounds⟩
    obtain ⟨hgetKp, hgetKd, hgetPosition, hgetVelocity, hgetTorque⟩ :=
      pvtLayout_get hof haccepted address
    refine ⟨_, fun start => (makePvt_does address start command).ok haccepted, ?_, ?_, ?_, ?_, ?_⟩
    · rw [hkpRange, hgetKp]
      exact hkp
    · rw [hgetKd]
      exact hkd
    · rw [hpositionRange, hgetPosition]
      exact hposition
    · rw [hvelocityRange, hgetVelocity]
      exact hvelocity
    · rw [hgetTorque]
      exact htorque

end Model

/-! ## Models on the encoder's scales -/

theorem onScale_of_matching {spec : MotorEcSpec} (hspec : spec ∈ ecMotorTable) {q : Quantities}
    (hrange : InRange spec q) (hkd : spec.kd.max = 5) (htorque : spec.torqueNm.max = 30) :
    OnScale spec q := by
  obtain ⟨_, _, _, _, hmin, _⟩ := ecMotorTable_ranges spec hspec
  obtain ⟨hlow, hhigh⟩ := hrange.torque
  rw [hmin, htorque] at hlow
  rw [htorque] at hhigh
  refine ⟨.inl hkd, ?_⟩
  rw [htorque]
  exact torqueInStep_matching hlow hhigh

/-- Off the encoder's scales only small quantities are in the model's tolerance. -/
theorem not_onScale {spec : MotorEcSpec} (hspec : spec ∈ ecMotorTable) {q : Quantities}
    (h : spec.kd.max ≠ 5 ∧ 25 / 1022 ≤ q.kd ∨ spec.torqueNm.max ≠ 30 ∧ 1 / 7 ≤ |q.torque|) :
    ¬ OnScale spec q := by
  rintro ⟨hkd, j, htorque⟩
  rcases h with ⟨hwide, hlarge⟩ | ⟨hother, hlarge⟩
  · rcases hkd with hkd | hkd
    · exact hwide hkd
    · linarith
  · obtain ⟨_, _, _, _, _, htop⟩ := ecMotorTable_ranges spec hspec
    have hsmall := torqueInStep_small
      (htop.imp_right fun htop => htop.resolve_left hother) htorque
    linarith

/-- A derivative gain of 1 and a torque of 1 N·m, which every model admits. -/
def unitCommand : PvtCommand where
  deviceId := 0
  gains := { kp := {}, kd := { bits := 0x3F800000 }, ki := {} }
  positionR := {}
  velocityRadps := {}
  torqueFfNm := { bits := 0x3F800000 }

def unitQuantities : Quantities :=
  { kp := 0, kd := 1, position := 0, velocity := 0, torque := 1 }

theorem unitQuantities_of : unitQuantities.Of unitCommand := by
  have hzero : F32.value {} = some 0 := by decide +kernel
  have hone : F32.value { bits := 0x3F800000 } = some 1 := by decide +kernel
  exact ⟨hzero, hone, hzero, hzero, hone⟩

theorem unitQuantities_inRange {spec : MotorEcSpec} (hspec : spec ∈ ecMotorTable) :
    InRange spec unitQuantities := by
  obtain ⟨hkp, hkd, hposition, hvelocity, hmin, htop⟩ := ecMotorTable_ranges spec hspec
  constructor
  · rw [hkp]
    norm_num [Range.Contains, unitQuantities]
  · rcases hkd with hkd | hkd <;> rw [hkd] <;> norm_num [Range.Contains, unitQuantities]
  · rw [hposition]
    norm_num [Range.Contains, unitQuantities]
  · rw [hvelocity]
    norm_num [Range.Contains, unitQuantities]
  · rw [Range.Contains, hmin, unitQuantities]
    rcases htop with htop | htop | htop <;> constructor <;> linarith

/-- All commands of a model are on the encoder's scales only for a model of its ranges. -/
theorem onScale_all_iff {spec : MotorEcSpec} (hspec : spec ∈ ecMotorTable) :
    (∀ (command : PvtCommand) (q : Quantities), q.Of command → InRange spec q →
      OnScale spec q) ↔ spec.kd.max = 5 ∧ spec.torqueNm.max = 30 := by
  constructor
  · intro hall
    by_contra hother
    refine not_onScale hspec ?_
      (hall unitCommand unitQuantities unitQuantities_of (unitQuantities_inRange hspec))
    rcases not_and_or.mp hother with hkd | htorque
    · exact .inl ⟨hkd, by norm_num [unitQuantities]⟩
    · exact .inr ⟨htorque, by norm_num [unitQuantities]⟩
  · rintro ⟨hkd, htorque⟩ command q _ hrange
    exact onScale_of_matching hspec hrange hkd htorque

end PvtScale

end ServoFleet
