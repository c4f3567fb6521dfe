import ServoFleet.ConfigFrame
import ServoFleet.QueryResponse

/-!
Parameters of one component. The torque ratio and the timeout agree between set and
query; the acceleration is set in hundredths and reported unscaled.

As for the pairs, the drive is assumed to answer with the bytes it was set to.
-/

namespace ServoFleet.CanCodec

open CanField

inductive ScalarParam where
  | accel
  | torqueRatio
  | canTimeout
  deriving DecidableEq

namespace ScalarParam

def setCode : ScalarParam → ConfigSetCode
  | .accel => .accel
  | .torqueRatio => .torqueRatio
  | .canTimeout => .canTimeout

def queryCode : ScalarParam → ConfigQueryCode
  | .accel => .acceleration
  | .torqueRatio => .torqueRatio
  | .canTimeout => .canTimeout

/-- Steps in a unit. -/
def scale : ScalarParam → ℚ
  | .accel => 100
  | .torqueRatio => 100
  | .canTimeout => 1

/-- The commanded quantity. -/
def Commanded : ScalarParam → ConfigSetValue → ℚ → Prop
  | .accel, .float value, q => value.value = some q
  | .torqueRatio, .double value, q => value.value = some q
  | .canTimeout, .milliseconds count, q => q = count
  | _, _, _ => False

/-- The value reports the parameter, as the quantity `q`. -/
def Reports : ScalarParam → QueryValue (Option ℚ) → ℚ → Prop
  | .accel, .accelerationRadps2 value, q => value = some q
  | .torqueRatio, .torqueRatio value, q => value = some q
  | .canTimeout, .canTimeout count, q => (count : ℚ) = q
  | _, _, _ => False

/-- The response reports the commanded quantity rounded to the step of the
parameter, which is at most half a step away. -/
def Agrees (param : ScalarParam) (value : ConfigSetValue) (response : CanFrame)
    (range : Option (Range (Option ℚ))) : Prop :=
  ∃ commanded feedback, param.Commanded value commanded ∧
    parseFeedback response range = pure (.query feedback) ∧
    param.Reports feedback.value (rounded commanded param.scale) ∧
    |rounded commanded param.scale - commanded| ≤ 1 / (2 * param.scale)

end ScalarParam

theorem abs_rounded_sub_le (value scale : ℚ) (h : 0 < scale) :
    |rounded value scale - value| ≤ 1 / (2 * scale) := by
  have hround := Rounding.abs_halfAway_sub_le (value * scale)
  have hdiv : rounded value scale - value =
      ((Rounding.halfAway (value * scale) : ℚ) - value * scale) / scale := by
    rw [rounded]
    field_simp
  rw [hdiv, abs_div, abs_of_pos h, div_le_div_iff₀ h (by linarith)]
  nlinarith

theorem makeConfigValue_ok {address : CanAddr} {code : ConfigSetCode} {raw : Result (BitVec 16)}
    {start frame : CanFrame}
    (h : (FrameM.check raw >>= makeConfigValue address code 4) start = some (.ok (), frame)) :
    raw = .ok (BigEndian.join16 (frame.byte 2) (frame.byte 3)) := by
  cases raw with
  | error err => cases h
  | ok raw => exact congrArg Except.ok (@makeConfigValue_bytes _ _ _ start _ h).symm

section Sent

variable {address : CanAddr} {start frame : CanFrame}

theorem sent_accel (command : ConfigSetCommand) (hcode : command.code = .accel)
    (h : makeConfig address command start = some (.ok (), frame)) :
    ∃ x v, command.value = .float x ∧ x.value = some v ∧
      ((BigEndian.join16 (frame.byte 2) (frame.byte 3)).toNat : ℚ) / 100 = rounded v 100 := by
  obtain ⟨deviceId, code, value⟩ := command
  dsimp only at hcode
  subst hcode
  cases value with
  | float x =>
      obtain ⟨v, hvalue, hraw⟩ := checkedU16Scaled_ok (makeConfigValue_ok h)
      exact ⟨x, v, rfl, hvalue, hraw⟩
  | _ => exact (not_fail h).elim

theorem sent_torqueRatio (command : ConfigSetCommand) (hcode : command.code = .torqueRatio)
    (h : makeConfig address command start = some (.ok (), frame)) :
    ∃ x v, command.value = .double x ∧ x.toF32.value = some v ∧
      ((BigEndian.join16 (frame.byte 2) (frame.byte 3)).toNat : ℚ) / 100 = rounded v 100 := by
  obtain ⟨deviceId, code, value⟩ := command
  dsimp only at hcode
  subst hcode
  cases value with
  | double x =>
      obtain ⟨v, hvalue, hraw⟩ := checkedU16Scaled_ok (makeConfigValue_ok h)
      exact ⟨x, v, rfl, hvalue, hraw⟩
  | _ => exact (not_fail h).elim

theorem sent_canTimeout (command : ConfigSetCommand) (hcode : command.code = .canTimeout)
    (h : makeConfig address command start = some (.ok (), frame)) :
    ∃ count : Int, command.value = .milliseconds count ∧
      ((BigEndian.join16 (frame.byte 2) (frame.byte 3)).toNat : ℚ) = count := by
  obtain ⟨deviceId, code, value⟩ := command
  dsimp only at hcode
  subst hcode
  cases value with
  | milliseconds count =>
      have hrun : encodeConfigTimeout address .canTimeout count start = some (.ok (), frame) := h
      simp only [encodeConfigTimeout, ne_eq, not_true_eq_false, if_false] at hrun
      split_ifs at hrun with hbounds
      · exact (not_fail hrun).elim
      · rw [not_or, not_lt, not_lt] at hbounds
        refine ⟨count, rfl, ?_⟩
        rw [makeConfigValue_bytes hrun, toNat_ofInt16 hbounds.1 hbounds.2]
  | _ => exact (not_fail h).elim

end Sent

/-- The condition under which the two sides agree: the acceleration is too
small to be distinguished from zero, or another parameter is set. -/
def ScalarParam.Unaffected (param : ScalarParam) (value : ConfigSetValue) : Prop :=
  param ≠ .accel ∨ ∃ acceleration, param.Commanded value acceleration ∧ |acceleration| < 1 / 200

/-- How a response with the payload `raw` is decoded. -/
def ScalarParam.decoded (param : ScalarParam) (raw : BitVec 16) : QueryValue (Option ℚ) :=
  match param with
  | .accel => .accelerationRadps2 (some raw.toNat)
  | .torqueRatio => .torqueRatio (some (raw.toNat / 100))
  | .canTimeout => .canTimeout raw.toNat

theorem parseFeedback_scalar (param : ScalarParam) (sent response : CanFrame)
    (range : Option (Range (Option ℚ)))
    (hresponse : QueryResponse response sent param.queryCode 2) :
    parseFeedback response range = pure (.query {
      error := parseError (response.get Feedback.error)
      value := param.decoded (BigEndian.join16 (sent.byte 2) (sent.byte 3)) }) := by
  have hraw := readU16Be_payload response sent _ 2 0 hresponse (by decide) (by decide)
  have hvalue : decodeQueryValue (F := Option ℚ) param.queryCode (queryPayload response) =
      pure (param.decoded (BigEndian.join16 (sent.byte 2) (sent.byte 3))) := by
    cases param with
    | accel =>
        change decodeU16 _ _ = _
        rw [decodeU16, readU16BeFloat, hraw]
        rfl
    | torqueRatio =>
        change decodeU16 _ _ = _
        rw [decodeU16, readU16BeFloat, hraw]
        rfl
    | canTimeout =>
        change decodeCanTimeout _ = _
        rw [decodeCanTimeout, hraw]
        rfl
  rw [parseFeedback_query response sent _ 2 range hresponse, decodeQueryResult, hvalue]
  rfl

/-- Agreement is a matter of the decoded value alone. -/
theorem agrees_iff (param : ScalarParam) (value : ConfigSetValue) (sent response : CanFrame)
    (range : Option (Range (Option ℚ))) (commanded : ℚ)
    (hcommanded : ∀ q, param.Commanded value q ↔ q = commanded)
    (hresponse : QueryResponse response sent param.queryCode 2) :
    param.Agrees value response range ↔
      param.Reports (param.decoded (BigEndian.join16 (sent.byte 2) (sent.byte 3)))
        (rounded commanded param.scale) := by
  have hparse := parseFeedback_scalar param sent response range hresponse
  constructor
  · rintro ⟨q, feedback, hq, hrun, hreports, _⟩
    rw [(hcommanded q).mp hq] at hreports
    rw [hparse] at hrun
    have hfeedback := ServoFleet.Feedback.query.inj (Except.ok.inj (Option.some.inj hrun))
    rw [← hfeedback] at hreports
    exact hreports
  · intro hreports
    refine ⟨commanded, _, (hcommanded _).mpr rfl, hparse, hreports, abs_rounded_sub_le _ _ ?_⟩
    cases param <;> norm_num [ScalarParam.scale]

theorem rounded_eq_zero_iff (value : ℚ) : rounded value 100 = 0 ↔ |value| < 1 / 200 := by
  have hscale : |value * 100| = |value| * 100 := by
    rw [abs_mul, abs_of_pos (by norm_num : (0 : ℚ) < 100)]
  rw [rounded, div_eq_zero_iff, or_iff_left (by norm_num), Int.cast_eq_zero,
    Rounding.halfAway_eq_zero_iff, hscale]
  constructor <;> intro h <;> linarith

/-- The float a double is converted to has its value, if any float has. -/
theorem toF32_value_iff {x : F64} {y : F32} {v : ℚ} (hy : y.value = x.value)
    (hx : x.toF32.value = some v) (q : ℚ) : x.value = some q ↔ q = v := by
  cases hfinite : x.value with
  | none =>
      rw [toF32_value_none x hfinite] at hx
      cases hx
  | some p =>
      rw [toF32_value x y p hfinite (hy.trans hfinite), Option.some.injEq] at hx
      rw [hx, Option.some.injEq, eq_comm]

section RoundTrip

variable {address : CanAddr} {command : ConfigSetCommand} {start sent response : CanFrame}
  {range : Option (Range (Option ℚ))}

/-- What is sent in hundredths and read back in units differs, except for zero. -/
theorem accel_agrees_iff (hcode : command.code = .accel)
    (haccepted : makeConfig address command start = some (.ok (), sent))
    (hresponse : QueryResponse response sent (ScalarParam.queryCode .accel) 2) :
    ScalarParam.Agrees .accel command.value response range ↔
      ScalarParam.Unaffected .accel command.value := by
  obtain ⟨x, v, hvalue, hx, hraw⟩ := sent_accel command hcode haccepted
  have hcommanded : ∀ q, ScalarParam.Commanded .accel command.value q ↔ q = v := by
    intro q
    rw [hvalue]
    change x.value = some q ↔ _
    rw [hx, Option.some.injEq, eq_comm]
  rw [agrees_iff .accel command.value sent response range v hcommanded hresponse]
  change some ((BigEndian.join16 (sent.byte 2) (sent.byte 3)).toNat : ℚ) =
    some (rounded v 100) ↔ _
  rw [Option.some.injEq, ← hraw]
  constructor
  · intro hsame
    refine .inr ⟨v, (hcommanded v).mpr rfl, (rounded_eq_zero_iff v).mp ?_⟩
    rw [← hraw]
    linarith
  · rintro (hne | ⟨q, hq, hsmall⟩)
    · exact absurd rfl hne
    · rw [(hcommanded q).mp hq, ← rounded_eq_zero_iff, ← hraw] at hsmall
      linarith

theorem torqueRatio_agrees (hcode : command.code = .torqueRatio)
    (hratio : ∀ ratio : F64, command.value = .double ratio → ∃ y : F32, y.value = ratio.value)
    (haccepted : makeConfig address command start = some (.ok (), sent))
    (hresponse : QueryResponse response sent (ScalarParam.queryCode .torqueRatio) 2) :
    ScalarParam.Agrees .torqueRatio command.value response range := by
  obtain ⟨x, v, hvalue, hx, hraw⟩ := sent_torqueRatio command hcode haccepted
  obtain ⟨y, hy⟩ := hratio x hvalue
  have hcommanded : ∀ q, ScalarParam.Commanded .torqueRatio command.value q ↔ q = v := by
    intro q
    rw [hvalue]
    exact toF32_value_iff hy hx q
  rw [agrees_iff .torqueRatio command.value sent response range v hcommanded hresponse]
  exact congrArg some hraw

theorem canTimeout_agrees (hcode : command.code = .canTimeout)
    (haccepted : makeConfig address command start = some (.ok (), sent))
    (hresponse : QueryResponse response sent (ScalarParam.queryCode .canTimeout) 2) :
    ScalarParam.Agrees .canTimeout command.value response range := by
  obtain ⟨count, hvalue, hraw⟩ := sent_canTimeout command hcode haccepted
  have hcommanded : ∀ q, ScalarParam.Commanded .canTimeout command.value q ↔ q = count := by
    intro q
    rw [hvalue]
    rfl
  rw [agrees_iff .canTimeout command.value sent response range count hcommanded hresponse]
  change (((BigEndian.join16 (sent.byte 2) (sent.byte 3)).toNat : Int) : ℚ) = rounded count 1
  rw [rounded, mul_one, Rounding.halfAway_intCast, div_one, Int.cast_natCast, hraw]

end RoundTrip

/-- Set and query agree on a parameter of one component exactly when it is not an
acceleration of half a step or more. Of ratios, which the encoder takes as doubles, those
are meant that are floats. -/
theorem config_scalar_round_trip_iff (param : ScalarParam) (address : CanAddr)
    (command : ConfigSetCommand) (start sent response : CanFrame)
    (range : Option (Range (Option ℚ))) (hcode : command.code = param.setCode)
    (hratio : ∀ ratio : F64, command.value = .double ratio → ∃ y : F32, y.value = ratio.value)
    (haccepted : makeConfig address command start = some (.ok (), sent))
    (hresponse : QueryResponse response sent param.queryCode 2) :
    param.Agrees command.value response range ↔ param.Unaffected command.value := by
  cases param with
  | accel => exact accel_agrees_iff hcode haccepted hresponse
  | torqueRatio =>
      exact iff_of_true (torqueRatio_agrees hcode hratio haccepted hresponse) (.inl (by decide))
  | canTimeout =>
      exact iff_of_true (canTimeout_agrees hcode haccepted hresponse) (.inl (by decide))

/-- An acceleration of 1 rad/s² is reported as 100 rad/s². -/
theorem accel_reported_unscaled :
    ∃ sent response : CanFrame,
      makeConfig { canId := 1 } { deviceId := 0, code := .accel, value := .float ⟨0x3F800000⟩ } {} =
        some (.ok (), sent) ∧
      QueryResponse response sent .acceleration 2 ∧
      parseFeedback (F := Option ℚ) response none = pure (.query {
        error := .none, value := .accelerationRadps2 (some 100) }) ∧
      ¬ ScalarParam.Agrees .accel (.float ⟨0x3F800000⟩) response none := by
  refine ⟨{ id := 1, len := 4, data := #v[0xC0, 0x01, 0, 100, 0, 0, 0, 0] },
    { id := 1, len := 4, data := #v[0xA0, 0x05, 0, 100, 0, 0, 0, 0] }, ?_, ?_, ?_, ?_⟩
  · decide +kernel
  · exact ⟨by decide +kernel, rfl, by decide, by decide, by decide, .inl (by decide)⟩
  · rfl
  · rintro ⟨commanded, feedback, hcommanded, hrun, hreports, -⟩
    have hone : (F32.mk 0x3F800000).value = some 1 := by decide +kernel
    have hq : commanded = 1 := by
      change (F32.mk 0x3F800000).value = some commanded at hcommanded
      rw [hone, Option.some.injEq] at hcommanded
      exact hcommanded.symm
    have hrun' : parseFeedback (F := Option ℚ)
        { id := 1, len := 4, data := #v[0xA0, 0x05, 0, 100, 0, 0, 0, 0] } none =
        pure (.query { error := .none, value := .accelerationRadps2 (some 100) }) := rfl
    rw [hrun'] at hrun
    have hfeedback := ServoFleet.Feedback.query.inj (Except.ok.inj (Option.some.inj hrun))
    rw [← hfeedback, hq] at hreports
    change some (100 : ℚ) = some (rounded 1 100) at hreports
    revert hreports
    decide +kernel

/-- A torque ratio of 0.75 comes back as it was set. -/
theorem torque_ratio_agrees :
    ScalarParam.Agrees .torqueRatio (.double ⟨0x3FE8000000000000⟩)
        { id := 1, len := 4, data := #v[0xA0, 0x16, 0, 75, 0, 0, 0, 0] } none ↔
      ScalarParam.Unaffected .torqueRatio (.double ⟨0x3FE8000000000000⟩) := by
  refine config_scalar_round_trip_iff .torqueRatio { canId := 1 }
    { deviceId := 0, code := .torqueRatio, value := .double ⟨0x3FE8000000000000⟩ } {}
    { id := 1, len := 4, data := #v[0xC0, 0x04, 0, 75, 0, 0, 0, 0] } _ none rfl ?_ ?_ ?_
  · rintro ratio hratio
    obtain rfl := ConfigSetValue.double.inj hratio
    exact ⟨⟨0x3F400000⟩, by decide +kernel⟩
  · decide +kernel
  · exact ⟨by decide +kernel, rfl, by decide, by decide, by decide, .inl (by decide)⟩

end ServoFleet.CanCodec
