import ServoFleet.MotorSamples

/-!
The snapshot a controller reads: four samples that claim to come from one feedback
when their numbers and times agree. Only a status carries all four, so the claim is
true exactly when a status was the last feedback with data.

Whether that status is still young is for the reader of the snapshot to judge.
-/

namespace ServoFleet

variable {F : Type}

/-- `pvt_feedback_snapshot` -/
structure PvtFeedbackSnapshot (F : Type) where
  error : Sample MotorErr
  positionDeg : Sample F
  velocityRpm : Sample F
  current : Sample F

def PvtFeedbackSnapshot.received (snapshot : PvtFeedbackSnapshot F) : Bool :=
  snapshot.error.received && snapshot.positionDeg.received && snapshot.velocityRpm.received &&
    snapshot.current.received

def PvtFeedbackSnapshot.coherent (snapshot : PvtFeedbackSnapshot F) : Bool :=
  snapshot.received && snapshot.error.seq = snapshot.positionDeg.seq &&
    snapshot.error.seq = snapshot.velocityRpm.seq && snapshot.error.seq = snapshot.current.seq &&
    snapshot.error.time = snapshot.positionDeg.time &&
    snapshot.error.time = snapshot.velocityRpm.time && snapshot.error.time = snapshot.current.time

/-- `pvt_feedback` -/
def MotorDevice.pvtFeedback (device : MotorDevice F) : PvtFeedbackSnapshot F where
  error := device.error.motorError
  positionDeg := device.motion.positionDeg
  velocityRpm := device.motion.velocityRpm
  current := device.electrical.current

/-- A snapshot that is coherent has been received and has one number. -/
theorem PvtFeedbackSnapshot.coherent_seq {snapshot : PvtFeedbackSnapshot F}
    (h : snapshot.coherent = true) :
    snapshot.error.received = true ∧ snapshot.positionDeg.seq = snapshot.error.seq ∧
      snapshot.velocityRpm.seq = snapshot.error.seq := by
  simp only [coherent, received, Bool.and_eq_true, decide_eq_true_eq] at h
  exact ⟨h.1.1.1.1.1.1.1.1.1, h.1.1.1.1.1.2.symm, h.1.1.1.1.2.symm⟩

section Carried

variable [FloatArith F]

/-- Whatever is not an acknowledgement carries the error. -/
theorem Feedback.carried_error {response : Feedback F} (h : response.isAck ≠ true) :
    ∃ error, response.carried .motorError = some error := by
  cases response with
  | configAck ack => exact absurd rfl h
  | _ => exact ⟨_, rfl⟩

theorem Feedback.carried_ack {response : Feedback F} (h : response.isAck = true)
    (quantity : Quantity) : response.carried quantity = none := by
  cases response with
  | configAck ack => rfl
  | _ => cases h

/-- Position and velocity come together in a status only. -/
theorem Feedback.status_of_carried {response : Feedback F}
    (hposition : response.carried .positionDeg ≠ none)
    (hvelocity : response.carried .velocityRpm ≠ none) : ∃ value, response = .status value := by
  cases response with
  | status value => exact ⟨value, rfl⟩
  | position _ => exact absurd rfl hvelocity
  | velocity _ => exact absurd rfl hposition
  | configAck _ => exact absurd rfl hposition
  | query value =>
      obtain ⟨error, value⟩ := value
      cases value with
      | positionDeg _ => exact absurd rfl hvelocity
      | _ => exact absurd rfl hposition
  | brakeStatus _ => exact absurd rfl hposition

end Carried

namespace MotorDevice

variable [FloatArith F]

variable (id : DeviceId) (name : String) (addr : CanAddr) (ecSpec : Option MotorEcSpec)

/-- No sample has a number that was not given yet. -/
theorem sample_seq_le (history : List (Feedback F × TimePoint))
    (hlength : history.length < 2 ^ 64) (quantity : Quantity) :
    (((init id name addr ecSpec).applyAll history).sample quantity).seq.toNat ≤ history.length := by
  rcases LastWrite.last_cases (fun event => event.1.carried quantity ≠ none) history with
    hnone | ⟨before, ⟨response, time⟩, after, rfl, hcarried, hafter⟩
  · have hreceived := init_received (F := F) id name addr ecSpec quantity
    rw [Sample.received, decide_eq_false_iff_not, not_not] at hreceived
    rw [sample_silent id name addr ecSpec history quantity
      fun event member => not_not.mp (hnone event member), hreceived]
    exact Nat.zero_le _
  · obtain ⟨value, hvalue⟩ := Option.ne_none_iff_exists'.mp hcarried
    rw [sample_last id name addr ecSpec before after response time quantity value hvalue
      fun later member => not_not.mp (hafter later member)]
    rw [BitVec.toNat_ofNat, List.length_append, List.length_cons]
    have hmod := Nat.mod_le (before.length + 1) (2 ^ 64)
    omega

variable (before after : List (Feedback F × TimePoint)) (response : Feedback F) (time : TimePoint)

/-- A sample with the number of a feedback that nothing replaced since is that
feedback's. -/
theorem carried_of_seq (hlength : (before ++ (response, time) :: after).length < 2 ^ 64)
    (quantity : Quantity) (hsilent : ∀ later ∈ after, later.1.carried quantity = none)
    (hseq : (((init id name addr ecSpec).applyAll
      (before ++ (response, time) :: after)).sample quantity).seq =
        BitVec.ofNat 64 (before.length + 1)) :
    response.carried quantity ≠ none := by
  intro hnone
  rw [List.length_append, List.length_cons] at hlength
  have hcounts := (sample_register (F := F) quantity).counts_foldl before
    (init_sampleSeq id name addr ecSpec)
  have hsame : ((init id name addr ecSpec).applyAll
      (before ++ (response, time) :: after)).sample quantity =
        ((init id name addr ecSpec).applyAll before).sample quantity := by
    rw [applyAll, List.foldl_append]
    apply (sample_register quantity).view_silent _ hcounts
    intro event member
    apply stored_eq_none.mpr
    rcases List.mem_cons.mp member with rfl | member
    · exact hnone
    · exact hsilent event member
  have hle := sample_seq_le id name addr ecSpec before (by omega) quantity
  rw [← hsame, hseq, BitVec.toNat_ofNat, Nat.mod_eq_of_lt (by omega)] at hle
  omega

/-- After a status, and whatever acknowledgements followed, the four samples are
the ones of that status. -/
theorem pvtFeedback_status (value : StatusFeedback F)
    (hacks : ∀ later ∈ after, later.1.isAck = true) :
    let seq := BitVec.ofNat 64 (before.length + 1)
    ((init id name addr ecSpec).applyAll
        (before ++ (.status value, time) :: after)).pvtFeedback =
      { error := { time, seq, value := value.error }
        positionDeg := { time, seq, value := value.positionR * radToDeg }
        velocityRpm := { time, seq, value := value.velocityRadps * radpsToRpm }
        current := { time, seq, value := value.current } } := by
  have hsample : ∀ quantity carried, (Feedback.status value).carried quantity = some carried →
      ((init id name addr ecSpec).applyAll
        (before ++ (.status value, time) :: after)).sample quantity =
          { time, seq := BitVec.ofNat 64 (before.length + 1), value := carried } := by
    intro quantity carried hcarried
    exact sample_last id name addr ecSpec before after _ time quantity carried hcarried
      fun later member => Feedback.carried_ack (hacks later member) quantity
  have herror := hsample .motorError _ rfl
  have hposition := hsample .positionDeg _ rfl
  have hvelocity := hsample .velocityRpm _ rfl
  have hcurrent := hsample .current _ rfl
  simp only [sample] at herror hposition hvelocity hcurrent
  rw [pvtFeedback, herror, hposition, hvelocity, hcurrent]
  rfl

/-- Equal numbers can only come from a status. -/
theorem status_of_coherent (history : List (Feedback F × TimePoint))
    (hlength : history.length < 2 ^ 64)
    (hcoherent : ((init id name addr ecSpec).applyAll history).pvtFeedback.coherent = true) :
    ∃ before value time after, history = before ++ (.status value, time) :: after ∧
      ∀ later ∈ after, later.1.isAck = true := by
  obtain ⟨hreceived, hposition, hvelocity⟩ := PvtFeedbackSnapshot.coherent_seq hcoherent
  rcases LastWrite.last_cases (fun event => event.1.isAck ≠ true) history with
    hacks | ⟨before, ⟨response, time⟩, after, rfl, hdata, hafter⟩
  · have hsilent := sample_silent id name addr ecSpec history .motorError
      fun event member => Feedback.carried_ack (not_not.mp (hacks event member)) _
    have hnone := init_received (F := F) id name addr ecSpec .motorError
    rw [← hsilent] at hnone
    cases hreceived.symm.trans hnone
  · have hacks := fun later member => not_not.mp (hafter later member)
    have hsilent : ∀ quantity, ∀ later ∈ after, later.1.carried quantity = none :=
      fun quantity later member => Feedback.carried_ack (hacks later member) quantity
    obtain ⟨error, herror⟩ := Feedback.carried_error hdata
    have hseq : ((init id name addr ecSpec).applyAll
        (before ++ (response, time) :: after)).pvtFeedback.error.seq =
          BitVec.ofNat 64 (before.length + 1) :=
      congrArg Sample.seq (sample_last id name addr ecSpec before after response time
        .motorError error herror (hsilent _))
    obtain ⟨value, rfl⟩ := Feedback.status_of_carried
      (carried_of_seq id name addr ecSpec before after response time hlength .positionDeg
        (hsilent _) (hposition.trans hseq))
      (carried_of_seq id name addr ecSpec before after response time hlength .velocityRpm
        (hsilent _) (hvelocity.trans hseq))
    exact ⟨before, value, time, after, rfl, hacks⟩

/-- A snapshot is coherent if and only if a status was the last feedback with data, and
shows that status. Acknowledgements after it carry no data. Histories are meant that 64
bits can count. -/
theorem coherent_iff_last_status (history : List (Feedback F × TimePoint))
    (hlength : history.length < 2 ^ 64) :
    let snapshot := ((init id name addr ecSpec).applyAll history).pvtFeedback
    (snapshot.coherent = true ↔
        ∃ before value time after, history = before ++ (.status value, time) :: after ∧
          ∀ later ∈ after, later.1.isAck = true) ∧
      (∀ before value time after, history = before ++ (.status value, time) :: after →
        (∀ later ∈ after, later.1.isAck = true) →
        let seq := BitVec.ofNat 64 (before.length + 1)
        snapshot =
          { error := { time, seq, value := value.error }
            positionDeg := { time, seq, value := value.positionR * radToDeg }
            velocityRpm := { time, seq, value := value.velocityRadps * radpsToRpm }
            current := { time, seq, value := value.current } }) ∧
      ((∀ event ∈ history, ∀ value, event.1 ≠ .status value) → snapshot.coherent = false) := by
  refine ⟨⟨status_of_coherent id name addr ecSpec history hlength, ?_⟩, ?_, ?_⟩
  · rintro ⟨before, value, time, after, rfl, hacks⟩
    rw [pvtFeedback_status id name addr ecSpec before after time value hacks]
    have hbound : before.length + 1 < 2 ^ 64 := by
      rw [List.length_append, List.length_cons] at hlength
      omega
    have hseq : BitVec.ofNat 64 (before.length + 1) ≠ 0 := by
      intro hzero
      have hnat := congrArg BitVec.toNat hzero
      rw [BitVec.toNat_ofNat, Nat.mod_eq_of_lt hbound] at hnat
      exact Nat.succ_ne_zero _ hnat
    generalize BitVec.ofNat 64 (before.length + 1) = seq at hseq ⊢
    simpa [PvtFeedbackSnapshot.coherent, PvtFeedbackSnapshot.received, Sample.received] using hseq
  · rintro before value time after rfl hacks
    exact pvtFeedback_status id name addr ecSpec before after time value hacks
  · intro hnone
    rw [Bool.eq_false_iff]
    intro hcoherent
    obtain ⟨before, value, time, after, rfl, _⟩ :=
      status_of_coherent id name addr ecSpec history hlength hcoherent
    exact hnone (.status value, time) (by simp) value rfl

/-- A status that an acknowledgement followed, then a position. -/
theorem snapshot_of_short_histories :
    let motor : MotorDevice (Option ℚ) := .init 0 "motor" { canPort := 0, canId := 1 } none
    let status : StatusFeedback (Option ℚ) :=
      { positionR := some 1, velocityRadps := some 2, current := some 3, motorTempC := some 40,
        mosfetTempC := some 50 }
    let acked := [(Feedback.status status, 5), (.configAck {}, 6)]
    let position : PositionFeedback (Option ℚ) :=
      { position := some 1, current := some 3, motorTempC := some 40 }
    (motor.applyAll acked).pvtFeedback.coherent = true ∧
      (motor.applyAll [(.position position, 5)]).pvtFeedback.coherent = false := by
  refine ⟨(coherent_iff_last_status 0 "motor" { canPort := 0, canId := 1 } none _
      (by decide)).1.mpr ⟨[], _, 5, [(.configAck {}, 6)], rfl, ?_⟩,
    (coherent_iff_last_status 0 "motor" { canPort := 0, canId := 1 } none _
      (by decide)).2.2 ?_⟩
  · intro later member
    obtain rfl := List.mem_singleton.mp member
    rfl
  · intro event member value
    obtain rfl := List.mem_singleton.mp member
    intro h
    cases h

end MotorDevice

end ServoFleet
