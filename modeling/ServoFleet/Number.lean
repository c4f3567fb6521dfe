import ServoFleet.Theory.FloatFormat

/-!
Floating-point numbers of the interface. Commands carry bit patterns; an
encoder looks at the exact value of a finite one. Decoded quantities live in
any arithmetic with the operations the decoders use.
-/

namespace ServoFleet

def binary32 : FloatFormat := { expBits := 8, fracBits := 23 }
def binary64 : FloatFormat := { expBits := 11, fracBits := 52 }

/-- `float` -/
structure F32 where
  bits : BitVec 32 := 0
  deriving DecidableEq, Repr

/-- `double` -/
structure F64 where
  bits : BitVec 64 := 0
  deriving DecidableEq, Repr

/-- The exact value, unless the number is not finite. -/
def F32.value (x : F32) : Option ℚ := binary32.value x.bits.toNat

def F64.value (x : F64) : Option ℚ := binary64.value x.bits.toNat

/-- An exponent of ones and a fraction other than zero. -/
def F32.isNan (x : F32) : Bool := binary32.infinity < x.bits.toNat % binary32.signBit

/-- A NaN whose first fraction bit is clear. -/
def F32.isSignalling (x : F32) : Bool := x.isNan && !x.bits.getLsbD 22

/-- What a build makes of a `float` that is passed as a `double` and cast back. A build that
folds the two conversions keeps every pattern; one that runs them makes a signalling NaN
quiet, with some payload of the processor's, and keeps every other pattern. -/
structure FloatBuild where
  folds : Bool
  detour : F32 → BitVec 32
  kept : ∀ x, folds = true ∨ x.isSignalling = false → detour x = x.bits
  quiet : folds = false → ∀ x, (F32.mk (detour x)).isSignalling = false

/-- `f32_to_bits` -/
def f32ToBits (build : FloatBuild) (x : F32) : BitVec 32 := build.detour x

/-- `operator<` of `float` -/
def F32.lt (x y : F32) : Bool :=
  !x.isNan && !y.isNan && binary32.order x.bits.toNat < binary32.order y.bits.toNat

/-- `std::clamp` -/
def F32.clamp (x low high : F32) : F32 :=
  if x.lt low then low else if high.lt x then high else x

theorem F32.not_nan_of_value {x : F32} {q : ℚ} (h : x.value = some q) : x.isNan = false := by
  simp only [F32.value, FloatFormat.value, Option.ite_none_right_eq_some] at h
  simp only [F32.isNan, decide_eq_false_iff_not]
  omega

theorem F32.le_of_not_lt {x y : F32} {p q : ℚ} (hx : x.value = some p) (hy : y.value = some q)
    (h : x.lt y = false) : q ≤ p := by
  simp only [F32.lt, not_nan_of_value hx, not_nan_of_value hy, Bool.not_false, Bool.true_and,
    decide_eq_false_iff_not, not_lt] at h
  exact binary32.value_le_of_order hy hx h

/-- A clamped number that is finite lies between the bounds. -/
theorem F32.clamp_bounds {x low high : F32} {p q v : ℚ} (hlow : low.value = some p)
    (hhigh : high.value = some q) (hle : p ≤ q) (h : (x.clamp low high).value = some v) :
    p ≤ v ∧ v ≤ q := by
  unfold F32.clamp at h
  split_ifs at h with hbelow habove
  · obtain rfl := Option.some.inj (hlow.symm.trans h)
    exact ⟨le_rfl, hle⟩
  · obtain rfl := Option.some.inj (hhigh.symm.trans h)
    exact ⟨hle, le_rfl⟩
  · exact ⟨le_of_not_lt h hlow (by simpa using hbelow),
      le_of_not_lt hhigh h (by simpa using habove)⟩

/-! ## Builds -/

/-- An optimised build folds the conversions, as the release presets do. -/
def FloatBuild.folded : FloatBuild where
  folds := true
  detour := F32.bits
  kept _ _ := rfl
  quiet hruns := absurd hruns (by decide)

theorem getLsbD_quieted (bits : BitVec 32) (i : Nat) :
    (bits ||| 0x00400000).getLsbD i = (bits.getLsbD i || decide (22 = i)) := by
  rw [show (0x00400000 : BitVec 32) = BitVec.twoPow 32 22 by decide, BitVec.getLsbD_or,
    BitVec.getLsbD_twoPow]
  simp

/-- A build that runs the conversions sets the first fraction bit of a NaN. -/
def FloatBuild.quieting : FloatBuild where
  folds := false
  detour x := if x.isNan then x.bits ||| 0x00400000 else x.bits
  kept x hkept := by
    have hquiet : x.isSignalling = false := hkept.resolve_left (by decide)
    split_ifs with hnan
    · rw [F32.isSignalling, hnan, Bool.true_and, Bool.not_eq_false'] at hquiet
      apply BitVec.eq_of_getLsbD_eq
      intro i hi
      rw [getLsbD_quieted]
      by_cases hi22 : 22 = i
      · subst hi22
        simp [hquiet]
      · simp [hi22]
    · rfl
  quiet _ x := by
    split_ifs with hnan
    · rw [F32.isSignalling, getLsbD_quieted]
      simp
    · rw [F32.isSignalling, Bool.eq_false_of_not_eq_true hnan, Bool.false_and]

/-- Only a build that runs the conversions changes a pattern, and only that of a signalling
NaN. -/
theorem f32ToBits_kept_iff (build : FloatBuild) (x : F32) :
    f32ToBits build x = x.bits ↔ ¬ (build.folds = false ∧ x.isSignalling = true) := by
  constructor
  · rintro hsame ⟨hruns, hsignalling⟩
    have hquiet := build.quiet hruns x
    change (F32.mk (f32ToBits build x)).isSignalling = false at hquiet
    rw [hsame] at hquiet
    exact Bool.noConfusion (hsignalling.symm.trans hquiet)
  · intro h
    apply build.kept x
    cases hfolds : build.folds with
    | true => exact .inl rfl
    | false => exact .inr (Bool.eq_false_of_not_eq_true fun hsignalling =>
        h ⟨hfolds, hsignalling⟩)

/-- `static_cast<float>`: round to nearest, ties to even; zeros, infinities and
what is not a number keep their sign. -/
def F64.toF32 (x : F64) : F32 :=
  let sign : BitVec 32 := (x.bits >>> 32).setWidth 32 &&& 0x80000000
  let payload : BitVec 32 := (x.bits >>> 29).setWidth 32 &&& 0x003FFFFF
  match x.value with
  | some q =>
      if q = 0 then { bits := sign } else { bits := BitVec.ofNat 32 (binary32.round q) }
  | none =>
      if x.bits <<< 12 = 0 then { bits := sign ||| 0x7F800000 }
      else { bits := sign ||| 0x7FC00000 ||| payload }

/-- The arithmetic of decoded quantities. `ofRat` gives literals and converted
integers, `ofBits` a received bit pattern. -/
class FloatArith (F : Type) extends Add F, Sub F, Mul F, Div F where
  ofRat : ℚ → F
  ofBits : BitVec 32 → F

/-- Exact rational arithmetic, where what is not finite has no value. -/
instance : FloatArith (Option ℚ) where
  add := Option.map₂ (· + ·)
  sub := Option.map₂ (· - ·)
  mul := Option.map₂ (· * ·)
  div := Option.map₂ (· / ·)
  ofRat := some
  ofBits bits := (F32.mk bits).value

/-! ## Conversion of representable doubles -/

theorem binary32_round_lt (q : ℚ) : binary32.round q < 2 ^ 32 := by
  have hmag : binary32.roundMagnitude |q| ≤ binary32.infinity := by
    unfold FloatFormat.roundMagnitude
    split_ifs
    · exact Nat.zero_le _
    · exact Nat.min_le_left _ _
  have hinf : binary32.infinity = 0x7F800000 := rfl
  have hsign : binary32.signBit = 0x80000000 := rfl
  unfold FloatFormat.round
  split_ifs <;> omega

/-- A double that some float equals is converted exactly. -/
theorem toF32_value (x : F64) (y : F32) (q : ℚ) (hx : x.value = some q) (hy : y.value = some q) :
    x.toF32.value = some q := by
  simp only [F64.toF32, hx]
  split_ifs with hzero
  · subst hzero
    have hsign : (x.bits >>> 32).setWidth 32 &&& 0x80000000 = (0 : BitVec 32) ∨
        (x.bits >>> 32).setWidth 32 &&& 0x80000000 = (0x80000000 : BitVec 32) := by
      have hpow : (0x80000000 : BitVec 32) = BitVec.twoPow 32 31 := by decide
      rw [hpow, BitVec.and_twoPow]
      split_ifs <;> simp
    rcases hsign with h | h <;> rw [h] <;> decide +kernel
  · have hnat : (BitVec.ofNat 32 (binary32.round q)).toNat = binary32.round q := by
      rw [BitVec.toNat_ofNat, Nat.mod_eq_of_lt (binary32_round_lt q)]
    rw [F32.value, hnat]
    exact binary32.value_round _ q hy

/-- An exponent of ones is not finite, whatever else is set. -/
private theorem value_or_infinity (sign rest : BitVec 32) :
    (F32.mk (sign ||| 0x7F800000 ||| rest)).value = none := by
  have hmod : (sign ||| 0x7F800000 ||| rest).toNat % 2 ^ 31 =
      ((sign ||| 0x7F800000 ||| rest).setWidth 31).toNat := (BitVec.toNat_setWidth 31 _).symm
  have hlow : 0x7F800000 ≤ (sign ||| 0x7F800000 ||| rest).toNat % 2 ^ 31 := by
    rw [hmod, BitVec.setWidth_or, BitVec.setWidth_or, BitVec.toNat_or, BitVec.toNat_or]
    exact Nat.le_trans Nat.right_le_or Nat.left_le_or
  have hsign : binary32.signBit = 2 ^ 31 := rfl
  have hinf : binary32.infinity = 0x7F800000 := rfl
  simp only [F32.value, FloatFormat.value, hsign, hinf]
  rw [if_neg (by omega)]

theorem toF32_value_none (x : F64) (h : x.value = none) : x.toF32.value = none := by
  simp only [F64.toF32, h]
  split_ifs
  · have hplain := value_or_infinity ((x.bits >>> 32).setWidth 32 &&& 0x80000000) 0
    have hzero : ∀ r : BitVec 32, r ||| 0 = r := fun _ => BitVec.or_zero
    rwa [hzero] at hplain
  · have hquiet : ∀ sign rest : BitVec 32,
        sign ||| 0x7FC00000 ||| rest = sign ||| 0x7F800000 ||| (0x00400000 ||| rest) := by
      intro sign rest
      rw [← BitVec.or_assoc (sign ||| 0x7F800000), BitVec.or_assoc sign 0x7F800000]
      rfl
    rw [hquiet]
    exact value_or_infinity _ _

end ServoFleet
