import ServoFleet.MotorDevice
import ServoFleet.Theory.LastWrite
import Mathlib.Data.List.Sigma

/-!
A motor as a store of last values. Every quantity has a sample, every feedback
reports some quantities, and a history of feedbacks leaves in each sample what the
latest feedback with that quantity reported. The identity of the chip, which
comes in fragments, is not among them.
-/

namespace ServoFleet

/-- What a single feedback replaces as a whole. -/
inductive Quantity where
  | motorError
  | positionDeg
  | velocityRpm
  | accelerationRadps2
  | current
  | power
  | motorTempC
  | mosfetTempC
  | fluxObserverGain
  | disturbanceCompensationCoeff
  | feedbackCompensationCoeff
  | dampingCoeff
  | torqueRatio
  | pvtKpRange
  | pvtKdRange
  | pvtPositionLimitR
  | pvtVelocityLimitRadps
  | pvtTorqueLimitNm
  | pvtCurrentLimit
  | version
  | canTimeout
  | currentLoopPi
  | velocityLoopPi
  | positionLoopPd
  | brakeStatus
  deriving DecidableEq, Repr

def Quantity.Value (F : Type) : Quantity → Type
  | .motorError => MotorErr
  | .pvtKpRange | .pvtKdRange | .pvtPositionLimitR | .pvtVelocityLimitRadps
  | .pvtTorqueLimitNm | .pvtCurrentLimit => Range F
  | .version => VersionInfo
  | .canTimeout => Int
  | .currentLoopPi | .velocityLoopPi | .positionLoopPd => PidGains F
  | .brakeStatus => Bool
  | _ => F

variable {F : Type}

/-- The member of the state that keeps a quantity. -/
def MotorDevice.sample (device : MotorDevice F) : (quantity : Quantity) → Sample (quantity.Value F)
  | .motorError => device.error.motorError
  | .positionDeg => device.motion.positionDeg
  | .velocityRpm => device.motion.velocityRpm
  | .accelerationRadps2 => device.motion.accelerationRadps2
  | .current => device.electrical.current
  | .power => device.electrical.power
  | .motorTempC => device.thermal.motorTempC
  | .mosfetTempC => device.thermal.mosfetTempC
  | .fluxObserverGain => device.config.fluxObserverGain
  | .disturbanceCompensationCoeff => device.config.disturbanceCompensationCoeff
  | .feedbackCompensationCoeff => device.config.feedbackCompensationCoeff
  | .dampingCoeff => device.config.dampingCoeff
  | .torqueRatio => device.config.torqueRatio
  | .pvtKpRange => device.config.pvtKpRange
  | .pvtKdRange => device.config.pvtKdRange
  | .pvtPositionLimitR => device.config.pvtPositionLimitR
  | .pvtVelocityLimitRadps => device.config.pvtVelocityLimitRadps
  | .pvtTorqueLimitNm => device.config.pvtTorqueLimitNm
  | .pvtCurrentLimit => device.config.pvtCurrentLimit
  | .version => device.config.version
  | .canTimeout => device.config.canTimeout
  | .currentLoopPi => device.config.currentLoopPi
  | .velocityLoopPi => device.config.velocityLoopPi
  | .positionLoopPd => device.config.positionLoopPd
  | .brakeStatus => device.brake.status

/-- The quantity that a query feedback reports besides the error. A fragment
of the identity is none. -/
def QueryValue.field : QueryValue F → Option (Sigma (Quantity.Value F))
  | .positionDeg value => some ⟨.positionDeg, value⟩
  | .velocityRpm value => some ⟨.velocityRpm, value⟩
  | .current value => some ⟨.current, value⟩
  | .power value => some ⟨.power, value⟩
  | .accelerationRadps2 value => some ⟨.accelerationRadps2, value⟩
  | .fluxObserverGain value => some ⟨.fluxObserverGain, value⟩
  | .disturbanceCompensationCoeff value => some ⟨.disturbanceCompensationCoeff, value⟩
  | .feedbackCompensationCoeff value => some ⟨.feedbackCompensationCoeff, value⟩
  | .dampingCoeff value => some ⟨.dampingCoeff, value⟩
  | .torqueRatio value => some ⟨.torqueRatio, value⟩
  | .pvtKpRange value => some ⟨.pvtKpRange, value⟩
  | .pvtKdRange value => some ⟨.pvtKdRange, value⟩
  | .pvtPositionLimitR value => some ⟨.pvtPositionLimitR, value⟩
  | .pvtVelocityLimitRadps value => some ⟨.pvtVelocityLimitRadps, value⟩
  | .pvtTorqueLimitNm value => some ⟨.pvtTorqueLimitNm, value⟩
  | .pvtCurrentLimit value => some ⟨.pvtCurrentLimit, value⟩
  | .mcuUuidFragment _ => none
  | .version value => some ⟨.version, value⟩
  | .canTimeout count => some ⟨.canTimeout, count⟩
  | .currentLoopPi value => some ⟨.currentLoopPi, value⟩
  | .velocityLoopPi value => some ⟨.velocityLoopPi, value⟩
  | .positionLoopPd value => some ⟨.positionLoopPd, value⟩
  | .brakeStatus value => some ⟨.brakeStatus, value⟩

section Fields

variable [FloatArith F]

open MotorDevice (radToDeg radpsToRpm)

/-- The quantities of a feedback, in the units a motor keeps them in. -/
def Feedback.fields : Feedback F → List (Sigma (Quantity.Value F))
  | .status value =>
      [⟨.motorError, value.error⟩, ⟨.positionDeg, value.positionR * radToDeg⟩,
        ⟨.velocityRpm, value.velocityRadps * radpsToRpm⟩, ⟨.current, value.current⟩,
        ⟨.motorTempC, value.motorTempC⟩, ⟨.mosfetTempC, value.mosfetTempC⟩]
  | .position value =>
      [⟨.motorError, value.error⟩, ⟨.positionDeg, value.position⟩, ⟨.current, value.current⟩,
        ⟨.motorTempC, value.motorTempC⟩]
  | .velocity value =>
      [⟨.motorError, value.error⟩, ⟨.velocityRpm, value.velocity⟩, ⟨.current, value.current⟩,
        ⟨.motorTempC, value.motorTempC⟩]
  | .configAck _ => []
  | .query value => ⟨.motorError, value.error⟩ :: value.value.field.toList
  | .brakeStatus value => [⟨.motorError, value.error⟩, ⟨.brakeStatus, value.engaged⟩]

def Feedback.carried (response : Feedback F) (quantity : Quantity) :
    Option (quantity.Value F) :=
  response.fields.dlookup quantity

end Fields

section History

variable [FloatArith F]

/-- `received`: the sequence numbers start at one. -/
def Sample.received {α : Type} (sample : Sample α) : Bool := sample.seq ≠ 0

namespace MotorDevice

/-- `apply` on one feedback of a history after the other. -/
def applyAll (device : MotorDevice F) (history : List (Feedback F × TimePoint)) : MotorDevice F :=
  history.foldl (fun device event => (device.apply event.1 event.2).1) device

/-- What a feedback stores in a sample, by its number in the history. -/
def stored (quantity : Quantity) (n : Nat) (event : Feedback F × TimePoint) :
    Option (Sample (quantity.Value F)) :=
  (event.1.carried quantity).map fun value =>
    { time := event.2, seq := BitVec.ofNat 64 n, value }

theorem stored_eq_none {quantity : Quantity} {event : Feedback F × TimePoint} :
    (∀ n, stored quantity n event = none) ↔ event.1.carried quantity = none := by
  simp [stored]

theorem sample_query (device : MotorDevice F) (value : QueryFeedback F) (time : TimePoint)
    (seq : BitVec 64) (quantity : Quantity) :
    (device.applyQuery value time seq).sample quantity =
      (((Feedback.query value).carried quantity).map fun value =>
        ({ time, seq, value } : Sample (quantity.Value F))).getD (device.sample quantity) := by
  obtain ⟨error, value⟩ := value
  cases value <;> cases quantity <;> rfl

/-- One call replaces the samples of the quantities its feedback carries. -/
theorem sample_apply (device : MotorDevice F) (response : Feedback F) (now : TimePoint)
    (quantity : Quantity) :
    (device.apply response now).1.sample quantity =
      ((response.carried quantity).map fun value =>
        ({ time := now, seq := device.sampleSeq + 1, value } : Sample (quantity.Value F))).getD
          (device.sample quantity) := by
  cases response with
  | query value =>
      exact sample_query { device with sampleSeq := device.sampleSeq + 1 } value now _ quantity
  | _ => cases quantity <;> rfl

/-- Every sample is a register of the history. -/
theorem sample_register (quantity : Quantity) :
    LastWrite.Register (fun (device : MotorDevice F) event => (device.apply event.1 event.2).1)
      (fun n device => device.sampleSeq = BitVec.ofNat 64 n) (sample · quantity)
      (stored quantity) where
  counts {n device} event hcount := by
    rw [(device.apply_identity event.1 event.2).1, hcount]
    exact (BitVec.ofNat_add n 1).symm
  view_step {n device} event hcount := by
    have hseq : device.sampleSeq + 1 = BitVec.ofNat 64 (n + 1) := by
      rw [hcount]
      exact (BitVec.ofNat_add n 1).symm
    rw [sample_apply, hseq]
    rfl

theorem init_sampleSeq (id : DeviceId) (name : String) (addr : CanAddr)
    (ecSpec : Option MotorEcSpec) :
    (MotorDevice.init (F := F) id name addr ecSpec).sampleSeq = BitVec.ofNat 64 0 := rfl

theorem init_received (id : DeviceId) (name : String) (addr : CanAddr)
    (ecSpec : Option MotorEcSpec) (quantity : Quantity) :
    ((MotorDevice.init (F := F) id name addr ecSpec).sample quantity).received = false := by
  cases quantity <;> rfl

section Histories

variable (id : DeviceId) (name : String) (addr : CanAddr) (ecSpec : Option MotorEcSpec)

/-- No feedback of the history carries the quantity. -/
theorem sample_silent (history : List (Feedback F × TimePoint)) (quantity : Quantity)
    (hsilent : ∀ event ∈ history, event.1.carried quantity = none) :
    ((MotorDevice.init id name addr ecSpec).applyAll history).sample quantity =
      (MotorDevice.init id name addr ecSpec).sample quantity := by
  apply (sample_register quantity).view_silent history (init_sampleSeq id name addr ecSpec)
  intro event member
  exact stored_eq_none.mpr (hsilent event member)

/-- The latest feedback with the quantity is what the sample shows. -/
theorem sample_last (before after : List (Feedback F × TimePoint)) (response : Feedback F)
    (time : TimePoint) (quantity : Quantity) (value : quantity.Value F)
    (hcarried : response.carried quantity = some value)
    (hsilent : ∀ later ∈ after, later.1.carried quantity = none) :
    ((MotorDevice.init id name addr ecSpec).applyAll
        (before ++ (response, time) :: after)).sample quantity =
      { time, seq := BitVec.ofNat 64 (before.length + 1), value } := by
  apply (sample_register quantity).view_last before after (response, time) _
    (init_sampleSeq id name addr ecSpec)
  · rw [stored, hcarried, Nat.zero_add, Option.map_some]
  · intro later member
    exact stored_eq_none.mpr (hsilent later member)

/-- After a history a motor shows for every quantity the value, time and number of the
latest feedback with it, or that there was none. An acknowledgement only takes a number.
Histories are meant that 64 bits can count. -/
theorem last_value_store (history : List (Feedback F × TimePoint))
    (hlength : history.length < 2 ^ 64) :
    let device := (MotorDevice.init id name addr ecSpec).applyAll history
    (∀ quantity before response time after value,
        history = before ++ (response, time) :: after →
        response.carried quantity = some value →
        (∀ later ∈ after, later.1.carried quantity = none) →
        (device.sample quantity).value = value ∧ (device.sample quantity).time = time ∧
          (device.sample quantity).seq.toNat = before.length + 1) ∧
      (∀ quantity, (∀ event ∈ history, event.1.carried quantity = none) →
        device.sample quantity = (MotorDevice.init id name addr ecSpec).sample quantity ∧
          (device.sample quantity).received = false) ∧
      device.sampleSeq.toNat = history.length ∧
      ∀ ack now, (device.apply (.configAck ack) now).1 =
        { device with sampleSeq := device.sampleSeq + 1 } := by
  refine ⟨?_, ?_, ?_, fun ack now => rfl⟩
  · rintro quantity before response time after value rfl hcarried hsilent
    have hbound : before.length + 1 < 2 ^ 64 := by
      rw [List.length_append, List.length_cons] at hlength
      omega
    rw [sample_last id name addr ecSpec before after response time quantity value hcarried hsilent]
    exact ⟨rfl, rfl, (BitVec.toNat_ofNat _ _).trans (Nat.mod_eq_of_lt hbound)⟩
  · intro quantity hsilent
    rw [sample_silent id name addr ecSpec history quantity hsilent]
    exact ⟨rfl, init_received id name addr ecSpec quantity⟩
  · have hcount := (sample_register (F := F) .motorError).counts_foldl history
      (init_sampleSeq id name addr ecSpec)
    rw [Nat.zero_add] at hcount
    rw [applyAll, hcount, BitVec.toNat_ofNat, Nat.mod_eq_of_lt hlength]

end Histories

/-- A position, an acknowledgement and the state of the brake. -/
def mixedHistory : List (Feedback (Option ℚ) × TimePoint) :=
  [(.position { position := some 3, current := some 1, motorTempC := some 40 }, 5),
    (.configAck { accepted := true }, 6), (.brakeStatus { engaged := true }, 7)]

/-- The position is the one of the first feedback, the error the third one's, and
nothing is known of the velocity. -/
theorem mixed_history_samples :
    let device := (MotorDevice.init 0 "motor" { canPort := 0, canId := 1 } none).applyAll
      mixedHistory
    (device.sample .positionDeg).value = some 3 ∧ (device.sample .motorError).seq.toNat = 3 ∧
      (device.sample .velocityRpm).received = false ∧ device.sampleSeq.toNat = 3 := by
  obtain ⟨hlast, hsilent, hcount, _⟩ := last_value_store (F := Option ℚ) 0 "motor"
    { canPort := 0, canId := 1 } none mixedHistory (by decide)
  refine ⟨(hlast .positionDeg [] _ 5 _ (some 3) rfl rfl ?_).1,
    (hlast .motorError (mixedHistory.take 2) _ 7 [] .none rfl rfl ?_).2.2,
    (hsilent .velocityRpm ?_).2, hcount⟩
  · intro later member
    rcases List.mem_pair.mp member with rfl | rfl <;> rfl
  · intro later member
    exact absurd member List.not_mem_nil
  · intro event member
    rcases List.mem_cons.mp member with rfl | member
    · rfl
    · rcases List.mem_pair.mp member with rfl | rfl <;> rfl

end MotorDevice

end History

end ServoFleet
