import ServoFleet.ConfigFrame
import ServoFleet.QueryResponse

/-!
Parameters of two components, ranges and loop gains. What the setter puts on the bus
is placed in the response to a query, and the reported components are compared with
the commanded ones.

That the drive answers with the bytes it was set to is the assumption on the other
end of the bus. All nine parameters are of one shape and share one proof.
-/

namespace ServoFleet.CanCodec

open CanField

inductive PairParam where
  | pvtKp
  | pvtKd
  | pvtPositionLimitR
  | pvtVelocityLimitRadps
  | pvtTorqueLimitNm
  | pvtCurrentLimit
  | currentLoopPi
  | velocityLoopPi
  | positionLoopPd

namespace PairParam

def setCode : PairParam → ConfigSetCode
  | .pvtKp => .pvtKp
  | .pvtKd => .pvtKd
  | .pvtPositionLimitR => .pvtPositionLimitR
  | .pvtVelocityLimitRadps => .pvtVelocityLimitRadps
  | .pvtTorqueLimitNm => .pvtTorqueLimitNm
  | .pvtCurrentLimit => .pvtCurrentLimit
  | .currentLoopPi => .currentLoopPi
  | .velocityLoopPi => .velocityLoopPi
  | .positionLoopPd => .positionLoopPd

def queryCode : PairParam → ConfigQueryCode
  | .pvtKp => .pvtKpRange
  | .pvtKd => .pvtKdRange
  | .pvtPositionLimitR => .pvtPositionLimitR
  | .pvtVelocityLimitRadps => .pvtVelocityLimitRadps
  | .pvtTorqueLimitNm => .pvtTorqueLimitNm
  | .pvtCurrentLimit => .pvtCurrentLimit
  | .currentLoopPi => .currentLoopPi
  | .velocityLoopPi => .velocityLoopPi
  | .positionLoopPd => .positionLoopPd

/-- Steps in a unit, of the first and of the second component. -/
def scales : PairParam → ℚ × ℚ
  | .pvtKp => (1, 1)
  | .pvtKd => (1, 1)
  | .pvtPositionLimitR => (100, 100)
  | .pvtVelocityLimitRadps => (100, 100)
  | .pvtTorqueLimitNm => (10, 10)
  | .pvtCurrentLimit => (10, 10)
  | .currentLoopPi => (10000, 10)
  | .velocityLoopPi => (100000, 100000)
  | .positionLoopPd => (100000, 100000)

/-- The two commanded components: bounds of a range, or the gains of the loop. -/
def Commanded (param : PairParam) (value : ConfigSetValue) (first second : ℚ) : Prop :=
  match value with
  | .rangeU16 range => first = range.min.toNat ∧ second = range.max.toNat
  | .rangeFloat range => range.min.value = some first ∧ range.max.value = some second
  | .gains gains => gains.kp.value = some first ∧
      match param with
      | .positionLoopPd => gains.kd.value = some second
      | _ => gains.ki.value = some second
  | _ => False

/-- The report of two components, in their order. -/
def reported (param : PairParam) {F : Type} [FloatArith F] (first second : F) : QueryValue F :=
  match param with
  | .pvtKp => .pvtKpRange { min := first, max := second }
  | .pvtKd => .pvtKdRange { min := first, max := second }
  | .pvtPositionLimitR => .pvtPositionLimitR { min := first, max := second }
  | .pvtVelocityLimitRadps => .pvtVelocityLimitRadps { min := first, max := second }
  | .pvtTorqueLimitNm => .pvtTorqueLimitNm { min := first, max := second }
  | .pvtCurrentLimit => .pvtCurrentLimit { min := first, max := second }
  | .currentLoopPi => .currentLoopPi { kp := first, kd := FloatArith.ofRat 0, ki := second }
  | .velocityLoopPi => .velocityLoopPi { kp := first, kd := FloatArith.ofRat 0, ki := second }
  | .positionLoopPd => .positionLoopPd { kp := first, kd := second, ki := FloatArith.ofRat 0 }

/-- Limits travel in two's complement, gains and gain ranges unsigned. -/
def signed : PairParam → Bool
  | .pvtPositionLimitR | .pvtVelocityLimitRadps | .pvtTorqueLimitNm | .pvtCurrentLimit => true
  | _ => false

def component (param : PairParam) (raw : BitVec 16) : ℚ :=
  if param.signed then raw.toInt else raw.toNat

theorem decodeQueryValue_eq (param : PairParam) (payload : List Byte) (raw₁ raw₂ : BitVec 16)
    (h₁ : readU16Be payload 0 = pure raw₁) (h₂ : readU16Be payload 2 = pure raw₂) :
    decodeQueryValue (F := Option ℚ) param.queryCode payload =
      pure (param.reported (some (param.component raw₁ / param.scales.1))
        (some (param.component raw₂ / param.scales.2))) := by
  have hrange : ∀ member : Range (Option ℚ) → QueryValue (Option ℚ),
      decodeU16Range payload member =
        pure (member { min := some raw₁.toNat, max := some raw₂.toNat }) := by
    intro member
    rw [decodeU16Range, readU16BeFloat, readU16BeFloat, h₁, h₂]
    rfl
  have hlimit : ∀ (scale : ℚ) (member : Range (Option ℚ) → QueryValue (Option ℚ)),
      decodeI16Range payload scale member =
        pure (member { min := some (raw₁.toInt / scale), max := some (raw₂.toInt / scale) }) := by
    intro scale member
    rw [decodeI16Range, readI16BeScaled, readI16BeScaled, h₁, h₂]
    rfl
  have hgains : ∀ (s₁ s₂ : ℚ) (member : Option ℚ → Option ℚ → QueryValue (Option ℚ)),
      decodeGains payload s₁ s₂ member =
        pure (member (some (raw₁.toNat / s₁)) (some (raw₂.toNat / s₂))) := by
    intro s₁ s₂ member
    rw [decodeGains, readU16BeFloat, readU16BeFloat, h₁, h₂]
    rfl
  cases param with
  | pvtKp =>
      refine (hrange .pvtKpRange).trans ?_
      simp [reported, component, signed, scales]
  | pvtKd =>
      refine (hrange .pvtKdRange).trans ?_
      simp [reported, component, signed, scales]
  | pvtPositionLimitR => exact hlimit 100 .pvtPositionLimitR
  | pvtVelocityLimitRadps => exact hlimit 100 .pvtVelocityLimitRadps
  | pvtTorqueLimitNm => exact hlimit 10 .pvtTorqueLimitNm
  | pvtCurrentLimit => exact hlimit 10 .pvtCurrentLimit
  | currentLoopPi =>
      exact hgains 10000 10 fun kp ki => .currentLoopPi { kp, kd := FloatArith.ofRat 0, ki }
  | velocityLoopPi =>
      exact hgains 100000 100000 fun kp ki => .velocityLoopPi { kp, kd := FloatArith.ofRat 0, ki }
  | positionLoopPd =>
      exact hgains 100000 100000 fun kp kd => .positionLoopPd { kp, kd, ki := FloatArith.ofRat 0 }

section Sent

variable {address : CanAddr} {start frame : CanFrame} (param : PairParam)

/-- What the two fields of an accepted frame hold. -/
def Sent (param : PairParam) (frame : CanFrame) (value : ConfigSetValue) : Prop :=
  ∃ first second, param.Commanded value first second ∧
    param.component (BigEndian.join16 (frame.byte 2) (frame.byte 3)) / param.scales.1 =
      rounded first param.scales.1 ∧
    param.component (BigEndian.join16 (frame.byte 4) (frame.byte 5)) / param.scales.2 =
      rounded second param.scales.2

theorem sent_rangeU16 (range : Range (BitVec 16))
    (h : encodeConfigRangeU16 address param.setCode range start = some (.ok (), frame)) :
    param.Sent frame (.rangeU16 range) := by
  have hint : ∀ raw : BitVec 16, (raw.toNat : ℚ) / 1 = rounded raw.toNat 1 := by
    intro raw
    rw [rounded, mul_one, Rounding.halfAway_natCast, Int.cast_natCast]
  have hgain : param = .pvtKp ∨ param = .pvtKd →
      makeConfigRange address param.setCode range.min range.max start = some (.ok (), frame) →
        param.Sent frame (.rangeU16 range) := by
    intro hparam hrun
    obtain ⟨hmin, hmax⟩ := makeConfigRange_bytes hrun
    refine ⟨_, _, ⟨rfl, rfl⟩, ?_, ?_⟩
    · rw [hmin]
      rcases hparam with rfl | rfl <;> exact hint _
    · rw [hmax]
      rcases hparam with rfl | rfl <;> exact hint _
  cases param with
  | pvtKp => exact hgain (.inl rfl) h
  | pvtKd => exact hgain (.inr rfl) h
  | _ => exact (not_fail h).elim

/-- Two floats that went through the checks of a parameter. -/
theorem sent_pair {value : ConfigSetValue} {x y : F32} {raw₁ raw₂ : Result (BitVec 16)}
    (h : makeConfigPair address param.setCode raw₁ raw₂ start = some (.ok (), frame))
    (hcommanded : ∀ first second, x.value = some first → y.value = some second →
      param.Commanded value first second)
    (hfirst : ∀ raw, raw₁ = .ok raw → ∃ v, x.value = some v ∧
      param.component raw / param.scales.1 = rounded v param.scales.1)
    (hsecond : ∀ raw, raw₂ = .ok raw → ∃ v, y.value = some v ∧
      param.component raw / param.scales.2 = rounded v param.scales.2) :
    param.Sent frame value := by
  obtain ⟨hraw₁, hraw₂⟩ := makeConfigPair_ok h
  obtain ⟨first, hx, hdecoded⟩ := hfirst _ hraw₁
  obtain ⟨second, hy, hdecoded'⟩ := hsecond _ hraw₂
  exact ⟨first, second, hcommanded first second hx hy, hdecoded, hdecoded'⟩

theorem sent_rangeFloat (range : Range F32)
    (h : encodeConfigRange address param.setCode range start = some (.ok (), frame)) :
    param.Sent frame (.rangeFloat range) := by
  have hcommanded : ∀ first second, range.min.value = some first → range.max.value = some second →
      param.Commanded (.rangeFloat range) first second :=
    fun first second hmin hmax => ⟨hmin, hmax⟩
  cases param with
  | pvtKp =>
      exact sent_pair .pvtKp h hcommanded (fun _ => checkedU16Scaled_ok)
        fun _ => checkedU16Scaled_ok
  | pvtKd =>
      exact sent_pair .pvtKd h hcommanded (fun _ => checkedU16Scaled_ok)
        fun _ => checkedU16Scaled_ok
  | pvtPositionLimitR =>
      exact sent_pair .pvtPositionLimitR h hcommanded (fun _ => checkedI16Scaled_ok)
        fun _ => checkedI16Scaled_ok
  | pvtVelocityLimitRadps =>
      exact sent_pair .pvtVelocityLimitRadps h hcommanded (fun _ => checkedI16Scaled_ok)
        fun _ => checkedI16Scaled_ok
  | pvtTorqueLimitNm =>
      exact sent_pair .pvtTorqueLimitNm h hcommanded (fun _ => checkedI16Scaled_ok)
        fun _ => checkedI16Scaled_ok
  | pvtCurrentLimit =>
      exact sent_pair .pvtCurrentLimit h hcommanded (fun _ => checkedI16Scaled_ok)
        fun _ => checkedI16Scaled_ok
  | currentLoopPi => exact (not_fail h).elim
  | velocityLoopPi => exact (not_fail h).elim
  | positionLoopPd => exact (not_fail h).elim

theorem sent_gains (gains : PidGains F32)
    (h : encodeConfigGains address param.setCode gains start = some (.ok (), frame)) :
    param.Sent frame (.gains gains) := by
  cases param with
  | currentLoopPi =>
      exact sent_pair .currentLoopPi h (fun _ _ hkp hki => ⟨hkp, hki⟩)
        (fun _ => checkedU16Scaled_ok) fun _ => checkedU16Scaled_ok
  | velocityLoopPi =>
      exact sent_pair .velocityLoopPi h (fun _ _ hkp hki => ⟨hkp, hki⟩)
        (fun _ => checkedU16Scaled_ok) fun _ => checkedU16Scaled_ok
  | positionLoopPd =>
      exact sent_pair .positionLoopPd h (fun _ _ hkp hkd => ⟨hkp, hkd⟩)
        (fun _ => checkedU16Scaled_ok) fun _ => checkedU16Scaled_ok
  | _ => exact (not_fail h).elim

/-- Only the variant alternatives of two components are accepted. -/
theorem sent_of_makeConfig (command : ConfigSetCommand) (hcode : command.code = param.setCode)
    (h : makeConfig address command start = some (.ok (), frame)) :
    param.Sent frame command.value := by
  obtain ⟨deviceId, code, value⟩ := command
  dsimp only at hcode
  subst hcode
  cases value with
  | rangeU16 range => exact sent_rangeU16 param range h
  | rangeFloat range => exact sent_rangeFloat param range h
  | gains gains => exact sent_gains param gains h
  | float value => cases param <;> exact (not_fail h).elim
  | mode value => cases param <;> exact (not_fail h).elim
  | double value => cases param <;> exact (not_fail h).elim
  | milliseconds count => cases param <;> exact (not_fail h).elim

end Sent

end PairParam

/-- Setting a parameter of two components and querying it agree: the reported components
are the commanded ones rounded to the steps of the parameter, for every value that the
encoder accepts. The error bits of the response are free. -/
theorem config_pair_round_trip (param : PairParam) (address : CanAddr)
    (command : ConfigSetCommand) (start sent response : CanFrame)
    (range : Option (Range (Option ℚ))) (hcode : command.code = param.setCode)
    (haccepted : makeConfig address command start = some (.ok (), sent))
    (hresponse : QueryResponse response sent param.queryCode 4) :
    ∃ first second, param.Commanded command.value first second ∧
      parseFeedback response range = pure (.query {
        error := parseError (response.get Feedback.error)
        value := param.reported (some (rounded first param.scales.1))
          (some (rounded second param.scales.2)) }) := by
  obtain ⟨first, second, hcommanded, hfirst, hsecond⟩ :=
    param.sent_of_makeConfig command hcode haccepted
  refine ⟨first, second, hcommanded, ?_⟩
  have hvalue := param.decodeQueryValue_eq (queryPayload response) _ _
    (readU16Be_payload response sent _ 4 0 hresponse (by decide) (by decide))
    (readU16Be_payload response sent _ 4 2 hresponse (by decide) (by decide))
  simp only [Nat.zero_add, Nat.reduceAdd, hfirst, hsecond] at hvalue
  rw [parseFeedback_query response sent _ 4 range hresponse, decodeQueryResult, hvalue]
  rfl

/-- Torque limits of -12.25 and 30 Nm come back as -12.3 and 30 Nm. -/
theorem config_torque_limit_round_trip :
    ∃ first second, PairParam.Commanded .pvtTorqueLimitNm
      (.rangeFloat { min := ⟨0xC1440000⟩, max := ⟨0x41F00000⟩ }) first second ∧
      parseFeedback (F := Option ℚ)
          { id := 1, len := 6, data := #v[0xA0, 0x1B, 0xFF, 0x85, 0x01, 0x2C, 0, 0] } none =
        pure (.query {
          error := .none
          value := PairParam.reported .pvtTorqueLimitNm (some (rounded first 10))
            (some (rounded second 10)) }) := by
  refine config_pair_round_trip .pvtTorqueLimitNm { canId := 1 }
    { deviceId := 0, code := .pvtTorqueLimitNm
      value := .rangeFloat { min := ⟨0xC1440000⟩, max := ⟨0x41F00000⟩ } } {}
    { id := 1, len := 6, data := #v[0xC0, 0x09, 0xFF, 0x85, 0x01, 0x2C, 0, 0] }
    { id := 1, len := 6, data := #v[0xA0, 0x1B, 0xFF, 0x85, 0x01, 0x2C, 0, 0] } none rfl ?_ ?_
  · decide +kernel
  · exact ⟨by decide +kernel, rfl, by decide, by decide, by decide, .inl (by decide)⟩

end ServoFleet.CanCodec
