import Mathlib.Data.Rat.Floor
import ServoFleet.TokenBucket

/-!
How long a request waits. A turn of `wait` that finds too little sleeps for what is
missing at the rate of the bucket, rounded down to a tick of the clock and to one
tick at least; so the second sleep makes up for the rounding of the first.

Nothing is promised on a clock that goes back, or when a sleep is cut short.
-/

namespace ServoFleet

namespace TokenBucket

/-- `steady_clock::duration` counts nanoseconds. -/
def ticksPerSec : ℚ := 10 ^ 9

/-- `duration_cast`: towards zero. -/
def durationCast (secs : ℚ) : Int := Int.tdiv (secs * ticksPerSec).num (secs * ticksPerSec).den

/-- `wait_duration`, in seconds. -/
def waitDuration (bucket : TokenBucket) (missingBytes : ℚ) : ℚ :=
  let wait := durationCast (missingBytes / bucket.limitBytesPerSec)
  let wait := if wait ≤ 0 then 1 else wait
  wait / ticksPerSec

/-- Readings of a clock that goes on, by at least `wait_duration` from every turn
that finds too little to the next. -/
def Paced (bucket : TokenBucket) (bytes : Nat) : List Reading → Prop
  | .now time :: .now next :: rest =>
      let bucket := bucket.refill time
      (bytes ≤ bucket.availableBytes ∨
        time + bucket.waitDuration (bytes - bucket.availableBytes) ≤ next) ∧
        Paced bucket bytes (.now next :: rest)
  | _ => True

section Sleep

variable {burst : Nat} {rate : ℚ} {bucket : TokenBucket}

theorem durationCast_spec {secs : ℚ} (h : 0 ≤ secs) :
    0 ≤ durationCast secs ∧ secs * ticksPerSec < durationCast secs + 1 := by
  have hticks : 0 ≤ secs * ticksPerSec := mul_nonneg h (by norm_num [ticksPerSec])
  have hfloor : durationCast secs = ⌊secs * ticksPerSec⌋ := by
    rw [durationCast, Int.tdiv_eq_ediv_of_nonneg (Rat.num_nonneg.mpr hticks), Rat.floor_def']
  rw [hfloor]
  exact ⟨Int.floor_nonneg.mpr hticks, Int.lt_floor_add_one _⟩

/-- A sleep lasts a tick at least, and falls short of what is missing by less than one. -/
theorem waitDuration_spec {missing : ℚ} (hrate : 0 < bucket.limitBytesPerSec)
    (hmissing : 0 ≤ missing) :
    1 / ticksPerSec ≤ bucket.waitDuration missing ∧
      missing < (bucket.waitDuration missing + 1 / ticksPerSec) * bucket.limitBytesPerSec := by
  obtain ⟨hnonneg, hlt⟩ := durationCast_spec (div_nonneg hmissing hrate.le)
  have hticks : (0 : ℚ) < ticksPerSec := by norm_num [ticksPerSec]
  obtain ⟨wait, hwait, hpos, hge⟩ : ∃ wait : Int,
      bucket.waitDuration missing = wait / ticksPerSec ∧ 1 ≤ wait ∧
        durationCast (missing / bucket.limitBytesPerSec) ≤ wait := by
    refine ⟨_, rfl, ?_, ?_⟩ <;> split_ifs <;> omega
  have hpos' : (1 : ℚ) ≤ wait := by exact_mod_cast hpos
  have hge' : (durationCast (missing / bucket.limitBytesPerSec) : ℚ) ≤ wait := by
    exact_mod_cast hge
  rw [hwait, ← add_div]
  refine ⟨by gcongr, ?_⟩
  rw [← div_lt_iff₀ hrate, lt_div_iff₀ hticks]
  linarith

theorem refill_lastRefill {now : ℚ} (h : bucket.lastRefill ≤ now) :
    (bucket.refill now).lastRefill = now := by
  unfold refill
  dsimp only
  split_ifs with hsecs
  · linarith
  · rfl

/-- A refill after some time brings what accrues meanwhile, up to the burst. -/
theorem refill_available {now sleep : ℚ} (h : Within burst rate bucket) (hrate : 0 ≤ rate)
    (hsleep : 0 < sleep) (hnow : bucket.lastRefill + sleep ≤ now) :
    min (burst : ℚ) (bucket.availableBytes + sleep * rate) ≤
      (bucket.refill now).availableBytes := by
  obtain ⟨rfl, rfl, _, _⟩ := h
  unfold refill
  dsimp only
  rw [if_neg (by linarith)]
  dsimp only
  gcongr
  linarith

/-- What a sleep leaves missing: less than accrues in a tick, and less by a tick than before. -/
theorem sleep_missing {time now missing : ℚ} {bytes : Nat} (h : Within burst rate bucket)
    (hrate : 0 < rate) (hfits : bytes ≤ burst)
    (hmissing : missing = bytes - bucket.availableBytes) (hpos : 0 < missing)
    (htime : bucket.lastRefill = time) (hnow : time + bucket.waitDuration missing ≤ now) :
    bytes ≤ (bucket.refill now).availableBytes ∨
      (bytes - (bucket.refill now).availableBytes < rate / ticksPerSec ∧
        bytes - (bucket.refill now).availableBytes ≤ missing - rate / ticksPerSec) := by
  have hbucket : 0 < bucket.limitBytesPerSec := h.sameRate ▸ hrate
  obtain ⟨htick, hsleep⟩ := waitDuration_spec hbucket hpos.le
  have hticks : (0 : ℚ) < 1 / ticksPerSec := by norm_num [ticksPerSec]
  have havailable := refill_available h hrate.le (hticks.trans_le htick) (htime ▸ hnow)
  rw [h.sameRate, add_mul, one_div_mul_eq_div] at hsleep
  have htick' : rate / ticksPerSec ≤ bucket.waitDuration missing * rate := by
    rw [← one_div_mul_eq_div]
    gcongr
  rcases min_le_iff.mp havailable with hfull | haccrued
  · left
    exact (Nat.cast_le.mpr hfits).trans hfull
  · right
    constructor <;> linarith

end Sleep

/-- The turn of a clock that goes on. -/
theorem waitLoop_now {bucket : TokenBucket} {bytes : Nat} {time : ℚ} {rest : List Reading} :
    (bucket.waitLoop bytes (.now time :: rest)).1 =
      if bytes ≤ (bucket.refill time).availableBytes then some (.ok ())
      else ((bucket.refill time).waitLoop bytes rest).1 := by
  simp only [waitLoop]
  split_ifs <;> rfl

section Turns

variable {burst : Nat} {rate : ℚ} {bucket : TokenBucket} {bytes : Nat}

theorem waitLoop_granted (h : Within burst rate bucket) (hrate : 0 < rate) (hfits : bytes ≤ burst)
    {first second third : ℚ} {rest : List Reading} (hclock : bucket.lastRefill ≤ first)
    (hpaced : Paced bucket bytes (.now first :: .now second :: .now third :: rest)) :
    (bucket.waitLoop bytes (.now first :: .now second :: .now third :: rest)).1 =
      some (.ok ()) := by
  obtain ⟨hfirst, hsecond, -⟩ := hpaced
  have hwithin₁ := (refill_paid hrate.le h first).within
  have hwithin₂ := (refill_paid hrate.le hwithin₁ second).within
  have hclock₁ := refill_lastRefill hclock
  rw [waitLoop_now]
  split_ifs with henough₁
  · rfl
  have hsleep₁ := hfirst.resolve_left henough₁
  have hmissing₁ : (0 : ℚ) < bytes - (bucket.refill first).availableBytes :=
    sub_pos.mpr (not_le.mp henough₁)
  have hticks : (0 : ℚ) < 1 / ticksPerSec := by norm_num [ticksPerSec]
  have htick₁ := (waitDuration_spec (hwithin₁.sameRate ▸ hrate) hmissing₁.le).1
  have hclock₂ : ((bucket.refill first).refill second).lastRefill = second :=
    refill_lastRefill (by linarith)
  rw [waitLoop_now]
  split_ifs with henough₂
  · rfl
  have hsleep₂ := hsecond.resolve_left henough₂
  have hmissing₂ : (0 : ℚ) < bytes - ((bucket.refill first).refill second).availableBytes :=
    sub_pos.mpr (not_le.mp henough₂)
  have hshort := ((sleep_missing hwithin₁ hrate hfits rfl hmissing₁ hclock₁
    hsleep₁).resolve_left henough₂).1
  rw [waitLoop_now]
  rcases sleep_missing hwithin₂ hrate hfits rfl hmissing₂ hclock₂ hsleep₂ with
    henough₃ | ⟨-, hless⟩
  · rw [if_pos henough₃]
  · rw [if_pos (by linarith)]

/-- What exceeds the burst is never there. -/
theorem waitLoop_refuses (h : Within burst rate bucket) (hrate : 0 ≤ rate) (hover : burst < bytes)
    (readings : List Reading) : (bucket.waitLoop bytes readings).1 ≠ some (.ok ()) := by
  induction readings generalizing bucket with
  | nil => exact nofun
  | cons reading rest ih =>
      cases reading with
      | stopRequested => exact nofun
      | now time =>
          have hwithin := (refill_paid hrate h time).within
          have hlt : (burst : ℚ) < bytes := Nat.cast_lt.mpr hover
          rw [waitLoop_now, if_neg (not_le.mpr (hwithin.le_burst.trans_lt hlt))]
          exact ih hwithin

end Turns

/-- Whatever was requested before, a request that fits into the burst is granted at the
third turn at the latest, on a clock that goes on and with sleeps that last as long as
they are to; one that does not fit is never granted. -/
theorem wait_granted_iff (maxBandwidthBps burst : Nat) (hbandwidth : 0 < maxBandwidthBps)
    (hburst : 0 < burst) (start : ℚ) (requests : List WaitRequest) (bytes : Nat) :
    let bucket := requests.foldl serve (init maxBandwidthBps burst start)
    (bytes ≤ burst → ∀ (first second third : ℚ) (rest : List Reading), bucket.lastRefill ≤ first →
      Paced bucket bytes (.now first :: .now second :: .now third :: rest) →
      (bucket.wait bytes (.now first :: .now second :: .now third :: rest)).1 = some (.ok ())) ∧
    (burst < bytes → ∀ readings, (bucket.wait bytes readings).1 ≠ some (.ok ())) := by
  intro bucket
  have hrate : (0 : ℚ) < maxBandwidthBps / 8 := by positivity
  have hwithin : Within burst (maxBandwidthBps / 8) bucket :=
    (meter burst hrate.le).foldl_good requests (init_within maxBandwidthBps burst start)
  have hserves : ¬ (bucket.limitBytesPerSec < 1 / 10 ^ 12 ∨ bucket.burstBytes = 0) := by
    rw [hwithin.sameRate, hwithin.sameBurst, not_or, not_lt]
    have hone : (1 : ℚ) ≤ maxBandwidthBps := by exact_mod_cast hbandwidth
    refine ⟨?_, hburst.ne'⟩
    calc (1 : ℚ) / 10 ^ 12 ≤ 1 / 8 := by norm_num
      _ ≤ maxBandwidthBps / 8 := by gcongr
  constructor
  · intro hfits first second third rest hclock hpaced
    rw [wait, if_neg hserves]
    split_ifs
    · rfl
    · exact waitLoop_granted hwithin hrate hfits hclock hpaced
  · intro hover readings
    rw [wait, if_neg hserves, if_neg (by omega)]
    exact waitLoop_refuses hwithin hrate.le hover readings

/-- At one byte a second, a byte requested of an empty bucket is there after a second. -/
theorem empty_bucket_grants :
    ((init 8 2 0).serve { bytes := 2, readings := [.now 0] }).availableBytes = 0 ∧
      (((init 8 2 0).serve { bytes := 2, readings := [.now 0] }).wait 1
        [.now 0, .now 1, .now 2]).1 = some (.ok ()) := by
  have hgranted := (wait_granted_iff 8 2 (by decide) (by decide) 0
    [{ bytes := 2, readings := [.now 0] }] 1).1 (by decide) 0 1 2 [] (by decide +kernel)
  refine ⟨by decide +kernel, hgranted ⟨.inr ?_, .inl ?_, trivial⟩⟩
  · decide +kernel
  · decide +kernel

end TokenBucket

end ServoFleet
