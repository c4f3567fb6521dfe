import ServoFleet.Theory.RateBound
import ServoFleet.Device

/-!
The rate limiter of the UDP channel. Amounts are bytes and times are seconds, both
exact; the readings of a wait are what its loop sees of the stop token and the
clock. The clock may stand still or go back.

The rounding of the doubles of the source is left out.
-/

namespace ServoFleet

open RateBound

/-- `token_bucket` -/
structure TokenBucket where
  limitBytesPerSec : ℚ
  burstBytes : Nat
  availableBytes : ℚ
  lastRefill : ℚ
  deriving DecidableEq

/-- What one turn of the loop in `wait` finds: a requested stop, or the time. -/
inductive Reading where
  | stopRequested
  | now (time : ℚ)

namespace TokenBucket

def init (maxBandwidthBps burstBytes : Nat) (now : ℚ) : TokenBucket where
  limitBytesPerSec := maxBandwidthBps / 8
  burstBytes := burstBytes
  availableBytes := burstBytes
  lastRefill := now

def refill (bucket : TokenBucket) (now : ℚ) : TokenBucket :=
  let secs := now - bucket.lastRefill
  if secs ≤ 0 then bucket
  else
    { bucket with
      availableBytes :=
        min bucket.burstBytes (bucket.availableBytes + secs * bucket.limitBytesPerSec)
      lastRefill := now }

/-- The loop of `wait`. It has no result while it still waits. -/
def waitLoop (bucket : TokenBucket) (bytes : Nat) : List Reading → Option ErrCode × TokenBucket
  | [] => (none, bucket)
  | .stopRequested :: _ => (some (.error .cancelled), bucket)
  | .now time :: rest =>
      let bucket := bucket.refill time
      if bytes ≤ bucket.availableBytes then
        (some (.ok ()), { bucket with availableBytes := max 0 (bucket.availableBytes - bytes) })
      else waitLoop bucket bytes rest

def wait (bucket : TokenBucket) (bytes : Nat) (readings : List Reading) :
    Option ErrCode × TokenBucket :=
  if bytes = 0 then (some (.ok ()), bucket)
  else if bucket.limitBytesPerSec < 1 / 10 ^ 12 ∨ bucket.burstBytes = 0 then
    (some (.error .invalidArgument), bucket)
  else bucket.waitLoop bytes readings

end TokenBucket

/-- A call of `wait`. A call whose readings end too early is left waiting. -/
structure WaitRequest where
  bytes : Nat
  readings : List Reading

namespace TokenBucket

def serve (bucket : TokenBucket) (request : WaitRequest) : TokenBucket :=
  (bucket.wait request.bytes request.readings).2

/-- What a result of `wait` lets through. -/
def passed (result : Option ErrCode) (bytes : Nat) : Option ℚ :=
  match result with
  | some (.ok _) => some bytes
  | _ => none

def granted (bucket : TokenBucket) (request : WaitRequest) : Option ℚ :=
  passed (bucket.wait request.bytes request.readings).1 request.bytes

/-- The granted requests of a run, each with the last refill at its grant. -/
def grants (bucket : TokenBucket) (requests : List WaitRequest) : List (Grant ℚ) :=
  RateBound.grants serve granted lastRefill bucket requests

/-- The amount stays between zero and the burst. -/
structure Within (burst : Nat) (rate : ℚ) (bucket : TokenBucket) : Prop where
  sameBurst : bucket.burstBytes = burst
  sameRate : bucket.limitBytesPerSec = rate
  nonneg : 0 ≤ bucket.availableBytes
  le_burst : bucket.availableBytes ≤ burst

/-- A bucket that has handed out an amount and accrued no faster than its rate. -/
structure Paid (burst : Nat) (rate : ℚ) (before after : TokenBucket) (amount : ℚ) : Prop where
  within : Within burst rate after
  accrues : after.availableBytes + amount ≤
    before.availableBytes + rate * (after.lastRefill - before.lastRefill)
  capped : after.availableBytes + amount ≤ burst

section Waits

variable {burst : Nat} {rate : ℚ} {bucket : TokenBucket}

theorem paid_nothing (h : Within burst rate bucket) : Paid burst rate bucket bucket 0 where
  within := h
  accrues := by simp
  capped := by
    rw [add_zero]
    exact h.le_burst

theorem refill_paid (hrate : 0 ≤ rate) (h : Within burst rate bucket) (now : ℚ) :
    Paid burst rate bucket (bucket.refill now) 0 := by
  obtain ⟨rfl, rfl, hnonneg, hle⟩ := h
  unfold refill
  dsimp only
  split_ifs with hsecs
  · exact paid_nothing ⟨rfl, rfl, hnonneg, hle⟩
  · have haccrued : 0 ≤ (now - bucket.lastRefill) * bucket.limitBytesPerSec :=
      mul_nonneg (le_of_lt (not_le.mp hsecs)) hrate
    refine ⟨⟨rfl, rfl, ?_, min_le_left _ _⟩, ?_, ?_⟩
    · exact le_min (Nat.cast_nonneg _) (add_nonneg hnonneg haccrued)
    · rw [add_zero, mul_comm bucket.limitBytesPerSec]
      exact min_le_right _ _
    · rw [add_zero]
      exact min_le_left _ _

/-- What is taken after a refill is taken out of what was there. -/
theorem take_paid (hrate : 0 ≤ rate) (h : Within burst rate bucket) (now : ℚ) (bytes : Nat)
    (hbytes : bytes ≤ (bucket.refill now).availableBytes) :
    Paid burst rate bucket { bucket.refill now with
      availableBytes := max 0 ((bucket.refill now).availableBytes - bytes) } bytes := by
  have hrefill := refill_paid hrate h now
  have hleft : max 0 ((bucket.refill now).availableBytes - bytes) =
      (bucket.refill now).availableBytes - bytes := max_eq_right (sub_nonneg.mpr hbytes)
  rw [hleft]
  obtain ⟨⟨hburst, hlimit, hnonneg, hle⟩, haccrues, hcapped⟩ := hrefill
  have hpos : (0 : ℚ) ≤ bytes := Nat.cast_nonneg _
  refine ⟨⟨hburst, hlimit, sub_nonneg.mpr hbytes, ?_⟩, ?_, ?_⟩
  · dsimp only
    linarith
  · dsimp only
    linarith
  · dsimp only
    linarith

theorem paid_after_refill (hrate : 0 ≤ rate) (h : Within burst rate bucket) (now : ℚ)
    {after : TokenBucket} {amount : ℚ}
    (hafter : Paid burst rate (bucket.refill now) after amount) :
    Paid burst rate bucket after amount where
  within := hafter.within
  accrues := by
    have hrefill := (refill_paid hrate h now).accrues
    have hrest := hafter.accrues
    linarith
  capped := hafter.capped

theorem waitLoop_paid (hrate : 0 ≤ rate) (h : Within burst rate bucket) (bytes : Nat)
    (readings : List Reading) :
    Paid burst rate bucket (bucket.waitLoop bytes readings).2
      ((passed (bucket.waitLoop bytes readings).1 bytes).getD 0) := by
  induction readings generalizing bucket with
  | nil => exact paid_nothing h
  | cons reading rest ih =>
      cases reading with
      | stopRequested => exact paid_nothing h
      | now time =>
          simp only [waitLoop]
          split_ifs with hbytes
          · exact take_paid hrate h time bytes hbytes
          · exact paid_after_refill hrate h time (ih (refill_paid hrate h time).within)

theorem serve_paid (hrate : 0 ≤ rate) (h : Within burst rate bucket) (request : WaitRequest) :
    Paid burst rate bucket (bucket.serve request) ((bucket.granted request).getD 0) := by
  unfold serve granted wait
  split_ifs with hzero
  · rw [hzero]
    simpa [passed] using paid_nothing h
  · exact paid_nothing h
  · exact waitLoop_paid hrate h _ _

end Waits

theorem init_within (maxBandwidthBps burst : Nat) (start : ℚ) :
    Within burst (maxBandwidthBps / 8) (init maxBandwidthBps burst start) where
  sameBurst := rfl
  sameRate := rfl
  nonneg := Nat.cast_nonneg _
  le_burst := le_refl _

/-- The bucket is a meter whose cap is the burst. -/
theorem meter (burst : Nat) {rate : ℚ} (hrate : 0 ≤ rate) :
    Meter serve granted availableBytes lastRefill (burst : ℚ) rate (Within burst rate) where
  good request h := (serve_paid hrate h request).within
  nonneg h := h.nonneg
  accrues request h := (serve_paid hrate h request).accrues
  capped request amount h hgranted := by
    have hcapped := (serve_paid hrate h request).capped
    rwa [hgranted, Option.getD_some] at hcapped

/-- In every run, whatever the clock shows, the amount stays within the burst, and from
one grant to another no more than the burst and what accrues between them is let through.
-/
theorem rate_limited (maxBandwidthBps burst : Nat) (start : ℚ) (requests : List WaitRequest) :
    let bucket := init maxBandwidthBps burst start
    let rate : ℚ := maxBandwidthBps / 8
    (Within burst rate (requests.foldl serve bucket) ∧
      ∀ now, Within burst rate ((requests.foldl serve bucket).refill now)) ∧
    ∀ i j, ∀ hij : i ≤ j, ∀ hj : j < (bucket.grants requests).length,
      total (((bucket.grants requests).drop i).take (j + 1 - i)) ≤
        burst + rate * ((bucket.grants requests)[j].time - (bucket.grants requests)[i].time) := by
  intro bucket rate
  have hrate : 0 ≤ rate := div_nonneg (Nat.cast_nonneg _) (by norm_num)
  have hstart : Within burst rate bucket := init_within maxBandwidthBps burst start
  have hrun := (meter burst hrate).foldl_good requests hstart
  refine ⟨⟨hrun, ?_⟩, ?_⟩
  · intro now
    exact (refill_paid hrate hrun now).within
  · intro i j hij hj
    exact (meter burst hrate).total_le requests hstart i j hij hj

/-- One byte a second and a burst of two: the third byte waits for a second. -/
def waitingRequests : List WaitRequest :=
  [{ bytes := 2, readings := [.now 0] },
    { bytes := 1, readings := [.now 0, .now (1 / 2), .now 1] },
    { bytes := 2, readings := [.now (3 / 2), .stopRequested] }]

theorem waiting_rate_limited :
    (init 8 2 0).grants waitingRequests = [{ amount := 2, time := 0 }, { amount := 1, time := 1 }] ∧
      total (((init 8 2 0).grants waitingRequests).take 2) ≤
        (2 : Nat) + ((8 : Nat) : ℚ) / 8 * (1 - 0) := by
  have hgrants : (init 8 2 0).grants waitingRequests =
      [{ amount := 2, time := 0 }, { amount := 1, time := 1 }] := by
    decide +kernel
  have hlimited := (rate_limited 8 2 0 waitingRequests).2 0 1 (by decide) (by
    rw [hgrants]
    decide)
  simp only [hgrants] at hlimited ⊢
  exact ⟨trivial, hlimited⟩

end TokenBucket

end ServoFleet
