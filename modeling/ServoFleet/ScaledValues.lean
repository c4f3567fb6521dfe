import ServoFleet.CanEncode

/-!
The checks of the encoders: which quantities they refuse, and the raw numbers they make
of the others.
-/

namespace ServoFleet.CanCodec

theorem toNat_rounded {n : Int} (hlow : 0 ≤ n) (hhigh : n ≤ 0xFFFF) :
    ((BitVec.ofInt 16 n).toNat : Int) = n := by
  rw [BitVec.toNat_ofInt, Int.toNat_of_nonneg (Int.emod_nonneg _ (by decide))]
  exact Int.emod_eq_of_lt hlow (by omega)

theorem toNat_ofInt16 {n : Int} (hlow : 0 ≤ n) (hhigh : n ≤ 0xFFFF) :
    ((BitVec.ofInt 16 n).toNat : ℚ) = n := by
  exact_mod_cast congrArg (Int.cast (R := ℚ)) (toNat_rounded hlow hhigh)

theorem toInt_ofInt16 {n : Int} (hlow : -32768 ≤ n) (hhigh : n ≤ 32767) :
    ((BitVec.ofInt 16 n).toInt : ℚ) = n := by
  have hint : (BitVec.ofInt 16 n).toInt = n := by
    rw [BitVec.toInt_ofInt, Int.bmod_eq_of_le (by omega) (by omega)]
  rw [hint]

/-- The quantity is a number that rounds into the bounds of its field. -/
def RoundsInto (quantity : Option ℚ) (low high : Int) : Prop :=
  ∃ q, quantity = some q ∧ low ≤ Rounding.halfAway q ∧ Rounding.halfAway q ≤ high

theorem roundsInto_some {q : ℚ} {low high : Int} :
    RoundsInto (some q) low high ↔ low ≤ Rounding.halfAway q ∧ Rounding.halfAway q ≤ high := by
  constructor
  · rintro ⟨_, hq, hbounds⟩
    obtain rfl := Option.some.inj hq
    exact hbounds
  · exact fun hbounds => ⟨q, rfl, hbounds⟩

/-- The nearest integer, ties away from zero, in two's complement. -/
def nearest (quantity : Option ℚ) : BitVec 16 :=
  BitVec.ofInt 16 (Rounding.halfAway (quantity.getD 0))

def scaledBy (value : F32) (scale : ℚ) : Option ℚ := value.value.map (· * scale)

/-- The range from `-range` to `range` around a center. -/
def aroundCenter (value : F32) (range : ℚ) (center : Int) : Option ℚ :=
  value.value.map fun v => v / range * center + center

def ofMaximum (value : F32) (maxValue : ℚ) (maxRaw : Int) : Option ℚ :=
  value.value.map fun v => v / maxValue * maxRaw

/-- A check hands out the nearest integer if it is in bounds and refuses otherwise. -/
structure Judges (check : Result (BitVec 16)) (quantity : Option ℚ) (low high : Int) : Prop where
  ok : RoundsInto quantity low high → check = .ok (nearest quantity)
  refuses : ¬ RoundsInto quantity low high → check = .error .invalidArgument

theorem Judges.of_ok {check : Result (BitVec 16)} {quantity : Option ℚ} {low high : Int}
    {raw : BitVec 16} (h : Judges check quantity low high) (hok : check = .ok raw) :
    RoundsInto quantity low high ∧ raw = nearest quantity := by
  by_cases hround : RoundsInto quantity low high
  · exact ⟨hround, Except.ok.inj (hok.symm.trans (h.ok hround))⟩
  · cases hok.symm.trans (h.refuses hround)

theorem checkedScaled_judges (value : F32) (scale : ℚ) (low high : Int) :
    Judges (checkedScaled value scale low high) (scaledBy value scale) low high := by
  unfold checkedScaled scaledBy
  cases value.value with
  | none => exact ⟨nofun, fun _ => rfl⟩
  | some v =>
      dsimp only
      split_ifs with hbounds
      · refine ⟨fun hround => ?_, fun _ => rfl⟩
        have hinside : low ≤ Rounding.halfAway (v * scale) ∧
            Rounding.halfAway (v * scale) ≤ high := roundsInto_some.mp hround
        omega
      · rw [not_or, not_lt, not_lt] at hbounds
        exact ⟨fun _ => rfl, fun h => absurd (roundsInto_some.mpr hbounds) h⟩

/-- The bounds of `long long` play no part for a raw field of at most 16 bits. -/
theorem checkedLlround_judges (scaled : ℚ) (max : Int) (hmax : max ≤ 0xFFFF) :
    Judges (checkedLlround scaled max) (some scaled) 0 max := by
  have hclose := abs_le.mp (Rounding.abs_halfAway_sub_le scaled)
  unfold checkedLlround
  dsimp only
  split_ifs with hwide hbounds
  · refine ⟨fun hround => ?_, fun _ => rfl⟩
    obtain ⟨hlow, hhigh⟩ := roundsInto_some.mp hround
    have hlow' : (0 : ℚ) ≤ Rounding.halfAway scaled := by exact_mod_cast hlow
    have hhigh' : (Rounding.halfAway scaled : ℚ) ≤ 0xFFFF := by exact_mod_cast hhigh.trans hmax
    rcases hwide with h | h <;> norm_num at h <;> linarith
  · refine ⟨fun hround => ?_, fun _ => rfl⟩
    have hinside := roundsInto_some.mp hround
    omega
  · rw [not_or, not_lt, not_lt] at hbounds
    exact ⟨fun _ => rfl, fun h => absurd (roundsInto_some.mpr hbounds) h⟩

theorem checkedSymmetric_judges (value : F32) (range : ℚ) (center max : Int) (hrange : 0 < range)
    (hmax : max ≤ 0xFFFF) :
    Judges (checkedSymmetric value range center max) (aroundCenter value range center) 0 max := by
  unfold checkedSymmetric aroundCenter
  cases value.value with
  | none => exact ⟨nofun, fun _ => rfl⟩
  | some v =>
      dsimp only
      rw [if_neg (not_le.mpr hrange)]
      exact checkedLlround_judges _ max hmax

theorem checkedPvtGain_judges (value : F32) (maxValue : ℚ) (maxRaw : Int) (hvalue : 0 < maxValue)
    (hmax : maxRaw ≤ 0xFFFF) :
    Judges (checkedPvtGain value maxValue maxRaw) (ofMaximum value maxValue maxRaw) 0 maxRaw := by
  unfold checkedPvtGain ofMaximum
  cases value.value with
  | none => exact ⟨nofun, fun _ => rfl⟩
  | some v =>
      dsimp only
      rw [if_neg (not_le.mpr hvalue)]
      exact checkedLlround_judges _ maxRaw hmax

/-- A quantity in bounds takes the bits of its field and no more. -/
theorem nearest_lt {quantity : Option ℚ} {high : Int} (h : RoundsInto quantity 0 high) (n : Nat)
    (hhigh : high < 2 ^ n) (hmax : high ≤ 0xFFFF) :
    ((nearest quantity).setWidth 32).toNat < 2 ^ n := by
  obtain ⟨q, rfl, hlow, hle⟩ := h
  have hnat := toNat_rounded hlow (hle.trans hmax)
  rw [BitVec.toNat_setWidth_of_le (by decide), nearest, Option.getD_some]
  have hlt : ((BitVec.ofInt 16 (Rounding.halfAway q)).toNat : Int) < 2 ^ n := by
    rw [hnat]
    exact lt_of_le_of_lt hle hhigh
  exact_mod_cast hlt

/-! ## Steps of a scale -/

/-- A value rounded to the steps of a scale. -/
def rounded (value scale : ℚ) : ℚ := Rounding.halfAway (value * scale) / scale

theorem scaledBy_eq_some {value : F32} {scale q : ℚ} (h : scaledBy value scale = some q) :
    ∃ v, value.value = some v ∧ q = v * scale := by
  obtain ⟨v, hvalue, hq⟩ := Option.map_eq_some_iff.mp h
  exact ⟨v, hvalue, hq.symm⟩

theorem checkedU16Scaled_ok {value : F32} {scale : ℚ} {raw : BitVec 16}
    (h : checkedU16Scaled value scale uint16Max = .ok raw) :
    ∃ v, value.value = some v ∧ (raw.toNat : ℚ) / scale = rounded v scale := by
  obtain ⟨⟨q, hq, hlow, hhigh⟩, rfl⟩ := (checkedScaled_judges value scale 0 uint16Max).of_ok h
  obtain ⟨v, hvalue, rfl⟩ := scaledBy_eq_some hq
  refine ⟨v, hvalue, ?_⟩
  rw [hq, nearest, Option.getD_some, toNat_ofInt16 hlow hhigh, rounded]

theorem checkedI16Scaled_ok {value : F32} {scale : ℚ} {raw : BitVec 16}
    (h : checkedI16Scaled value scale = .ok raw) :
    ∃ v, value.value = some v ∧ (raw.toInt : ℚ) / scale = rounded v scale := by
  obtain ⟨⟨q, hq, hlow, hhigh⟩, rfl⟩ := (checkedScaled_judges value scale (-32768) 32767).of_ok h
  obtain ⟨v, hvalue, rfl⟩ := scaledBy_eq_some hq
  refine ⟨v, hvalue, ?_⟩
  rw [hq, nearest, Option.getD_some, toInt_ofInt16 hlow hhigh, rounded]

end ServoFleet.CanCodec
