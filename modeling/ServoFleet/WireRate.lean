import ServoFleet.LimiterTurns
import ServoFleet.SentPayloads

/-!
The real-time channel with its rate limiter: a turn of `wait` is a step of the
transmit thread, at a time of the clock that all steps share. However the threads
interleave, what goes out in a window of time is bounded by its length.

Bytes are those of the payloads, without the headers of the layers below.
-/

namespace ServoFleet

open RateBound

namespace TokenBucket

end TokenBucket

/-- A real-time channel, its limiter and the time. -/
structure LimitedChannel (slotCount : Nat) where
  system : ChannelSystem slotCount
  bucket : TokenBucket
  now : ℚ

/-- A step of a thread, or a turn of the limiter for the packet in the hands of the
transmit thread. -/
inductive LimitedAction where
  | act (action : Action)
  | turn

namespace LimitedChannel

/-- The constructor of `realtime_udp_channel`; the burst is two packets. -/
def openLimited (sendQueueSlots : BitVec 32) (maxBandwidthBps : Nat) (now : ℚ) :
    Option (LimitedChannel sendQueueSlots.toNat) := do
  let system ← ChannelSystem.openRealtime sendQueueSlots
  return { system, bucket := .init maxBandwidthBps (motorUdpPacketCap * 2) now, now }

variable {slotCount : Nat}

/-- One turn of `limit.wait(size, stop_token)`. -/
def turn (state : LimitedChannel slotCount) (now : ℚ) : Option (LimitedChannel slotCount) :=
  match state.system.tx with
  | .limiting _ size _ =>
      let reading := if state.system.channel.stopRequested then .stopRequested else .now now
      match state.bucket.wait size.toNat [reading] with
      | (none, bucket) => some { state with bucket, now }
      | (some code, bucket) => do
          let system ← state.system.step (.tx (.limited code))
          return { system, bucket, now }
  | _ => none

/-- A step at some time, which never goes back. -/
def step (state : LimitedChannel slotCount) (timed : ℚ × LimitedAction) :
    Option (LimitedChannel slotCount) :=
  if timed.1 < state.now then none
  else
    match timed.2 with
    | .act (.tx (.limited _)) => none
    | .act action => do
        let system ← state.system.step action
        return { state with system, now := timed.1 }
    | .turn => state.turn timed.1

end LimitedChannel

/-- The bytes of a packet that the limiter has let through and that is not yet sent. -/
def TxPc.admittedBytes : TxPc → Nat
  | .admitted _ size _ => size.toNat
  | .sending _ size _ _ => size.toNat
  | _ => 0

namespace UdpChannel

variable {slotCount : Nat} {channel : UdpChannel slotCount} {pc : TxPc}

/-- The bytes of all datagrams sent. -/
def sentBytes (channel : UdpChannel slotCount) : Nat := (channel.sent.map List.length).sum

theorem txAdvance_admitted {after : UdpChannel slotCount × TxPc}
    (h : channel.txAdvance pc = some after) : after.2.admittedBytes = 0 := by
  cases pc with
  | loop =>
      obtain rfl := Option.some.inj h
      dsimp only
      split <;> rfl
  | waiting =>
      obtain rfl := Option.some.inj h
      dsimp only
      split <;> rfl
  | popping =>
      rw [txAdvance] at h
      split at h <;> obtain rfl := Option.some.inj h <;> rfl
  | sizing slot index =>
      rw [txAdvance, Option.bind_eq_bind, Option.bind_eq_some_iff] at h
      obtain ⟨size, _, h⟩ := h
      obtain rfl := Option.some.inj h
      rfl
  | guarding =>
      obtain rfl := Option.some.inj h
      dsimp only
      split <;> rfl
  | checking =>
      obtain rfl := Option.some.inj h
      dsimp only
      split <;> rfl
  | blocking =>
      rw [txAdvance] at h
      split_ifs at h <;> obtain rfl := Option.some.inj h <;> rfl
  | blocked =>
      rw [txAdvance] at h
      split_ifs at h
      obtain rfl := Option.some.inj h
      rfl
  | releasing slot =>
      rw [txAdvance, Option.bind_eq_bind, Option.bind_eq_some_iff] at h
      obtain ⟨pool, _, h⟩ := h
      obtain rfl := Option.some.inj h
      rfl
  | limiting slot size index => cases h
  | admitted slot size index => cases h
  | sending slot size index attempt => cases h
  | finished => cases h
  | _ =>
      obtain rfl := Option.some.inj h
      rfl

/-- What the limiter has let through is sent at most once. -/
theorem txStep_spends {action : TxAction} {after : UdpChannel slotCount × TxPc}
    (h : channel.txStep pc action = some after) (hlimited : ∀ code, action ≠ .limited code) :
    after.1.sentBytes + after.2.admittedBytes ≤ channel.sentBytes + pc.admittedBytes := by
  unfold txStep at h
  split at h
  · rw [sentBytes, txAdvance_sent h, txAdvance_admitted h]
    exact Nat.le_add_right _ _
  · exact absurd rfl (hlimited _)
  · split_ifs at h <;> obtain rfl := Option.some.inj h
    · exact Nat.le_add_right _ _
    · exact Nat.le_refl _
  · rename_i slot size index attempt outcome
    split at h
    · rw [Option.bind_eq_bind, Option.bind_eq_some_iff] at h
      obtain ⟨bytes, hbytes, h⟩ := h
      cases outcome with
      | sent =>
          obtain rfl := Option.some.inj h
          simp only [sentBytes, TxPc.admittedBytes, List.map_append, List.sum_append,
            List.map_singleton, List.sum_singleton, subspan_length hbytes]
          exact Nat.le_refl _
      | wouldBlock =>
          dsimp only at h
          split_ifs at h <;> obtain rfl := Option.some.inj h
          · exact Nat.le_add_right _ _
          · exact Nat.le_refl _
      | _ =>
          obtain rfl := Option.some.inj h
          exact Nat.le_add_right _ _
    · obtain rfl := Option.some.inj h
      exact Nat.le_add_right _ _
  · obtain rfl := Option.some.inj h
    exact Nat.le_refl _
  · cases h

end UdpChannel

namespace TokenBucket

/-- A turn at a later time sets the clock of the bucket to it, or lets nothing through. -/
theorem wait_turn {bucket : TokenBucket} {bytes : Nat} {time : ℚ}
    (hclock : bucket.lastRefill ≤ time) {reading : Reading}
    (hreading : reading = .stopRequested ∨ reading = .now time) :
    (bucket.wait bytes [reading]).2.lastRefill = time ∨
      ((bucket.wait bytes [reading]).2.lastRefill = bucket.lastRefill ∧
        (passed (bucket.wait bytes [reading]).1 bytes).getD 0 = 0) := by
  unfold wait
  split_ifs with hzero
  · exact .inr ⟨rfl, by rw [hzero]; rfl⟩
  · exact .inr ⟨rfl, rfl⟩
  · rcases hreading with rfl | rfl
    · exact .inr ⟨rfl, rfl⟩
    · left
      simp only [waitLoop]
      split_ifs <;> exact refill_lastRefill hclock

end TokenBucket

namespace ChannelSystem

variable {slotCount : Nat}

/-- No step takes back a datagram. -/
theorem step_sent_prefix (system : ChannelSystem slotCount) (action : Action)
    (next : ChannelSystem slotCount) (hstep : system.step action = some next) :
    system.channel.sent <+: next.channel.sent := by
  cases step_moves hstep with
  | client taken => exact (UdpChannel.clientStep_effect taken).sent ▸ List.prefix_rfl
  | tx taken =>
      rcases UdpChannel.txStep_sent taken with hsame | ⟨_, _, _, bytes, _, _, hsent, _⟩
      · exact hsame ▸ List.prefix_rfl
      · exact hsent ▸ List.prefix_append _ _
  | stop => exact List.prefix_rfl
  | requestStop => exact List.prefix_rfl
  | cancelWait => exact List.prefix_rfl

/-- The bytes sent, and those that are about to be. -/
def letThrough (system : ChannelSystem slotCount) : Nat :=
  system.channel.sentBytes + system.tx.admittedBytes

theorem step_letThrough {system next : ChannelSystem slotCount} {action : Action}
    (hlimited : ∀ code, action ≠ .tx (.limited code)) (hstep : system.step action = some next) :
    next.letThrough ≤ system.letThrough := by
  cases step_moves hstep with
  | client taken =>
      have hsent := (UdpChannel.clientStep_effect taken).sent
      dsimp only at hsent
      rw [letThrough, UdpChannel.sentBytes, hsent]
      exact Nat.le_refl _
  | tx taken =>
      exact UdpChannel.txStep_spends taken
        fun code hsame => hlimited code (congrArg Action.tx hsame)
  | stop => exact Nat.le_refl _
  | requestStop => exact Nat.le_refl _
  | cancelWait => exact Nat.le_refl _

/-- What the transmit thread is about to send fits into a slot. -/
theorem admitted_le {system : ChannelSystem slotCount} (h : system.Valid) (fits : system.Fits) :
    system.tx.admittedBytes ≤ motorUdpPacketCap := by
  have htaken : ∀ slot size index, system.tx.hand = .taken slot size index →
      size.toNat ≤ motorUdpPacketCap := by
    intro slot size index hhand
    have hrelies := h.ledger.relies .tx
    change system.ledger.Relies system.tx.hand at hrelies
    rw [hhand] at hrelies
    exact fits.commits (slot, size) (List.mem_of_getElem? hrelies)
  cases hpc : system.tx with
  | admitted slot size index => exact htaken slot size index (by rw [hpc]; rfl)
  | sending slot size index attempt => exact htaken slot size index (by rw [hpc]; rfl)
  | _ => exact Nat.zero_le _

end ChannelSystem

namespace LimitedChannel

variable {slotCount : Nat}

/-- What a step does: a thread takes its own, or the limiter takes a turn, which may
end the wait of the transmit thread. -/
inductive Moves (state : LimitedChannel slotCount) (time : ℚ) :
    LimitedChannel slotCount → Prop where
  | act {action : Action} {system : ChannelSystem slotCount}
      (unlimited : ∀ code, action ≠ .tx (.limited code))
      (taken : state.system.step action = some system) :
      Moves state time { state with system, now := time }
  | wait {slot : Slot} {size : BitVec 32} {index : Nat} {reading : Reading} {bucket : TokenBucket}
      (limiting : state.system.tx = .limiting slot size index)
      (reads : reading = .stopRequested ∨ reading = .now time)
      (waited : state.bucket.wait size.toNat [reading] = (none, bucket)) :
      Moves state time { state with bucket, now := time }
  | answer {slot : Slot} {size : BitVec 32} {index : Nat} {reading : Reading}
      {bucket : TokenBucket} {code : ErrCode} {system : ChannelSystem slotCount}
      (limiting : state.system.tx = .limiting slot size index)
      (reads : reading = .stopRequested ∨ reading = .now time)
      (waited : state.bucket.wait size.toNat [reading] = (some code, bucket))
      (taken : state.system.step (.tx (.limited code)) = some system) :
      Moves state time { system, bucket, now := time }

theorem step_moves {state next : LimitedChannel slotCount} {timed : ℚ × LimitedAction}
    (h : state.step timed = some next) : state.now ≤ timed.1 ∧ state.Moves timed.1 next := by
  obtain ⟨time, action⟩ := timed
  rw [step] at h
  split_ifs at h with hback
  refine ⟨not_lt.mp hback, ?_⟩
  dsimp only at h ⊢
  split at h
  · cases h
  · rename_i action hlimited
    rw [Option.bind_eq_bind, Option.bind_eq_some_iff] at h
    obtain ⟨system, htaken, h⟩ := h
    obtain rfl := Option.some.inj h
    exact .act hlimited htaken
  · rw [turn] at h
    split at h
    · rename_i slot size index hlimiting
      have hreads : (if state.system.channel.stopRequested then Reading.stopRequested
          else .now time) = .stopRequested ∨ (if state.system.channel.stopRequested then
            Reading.stopRequested else .now time) = .now time := by
        split_ifs
        · exact .inl rfl
        · exact .inr rfl
      dsimp only at h
      split at h
      · rename_i bucket hwaited
        obtain rfl := Option.some.inj h
        exact .wait hlimiting hreads hwaited
      · rename_i code bucket hwaited
        rw [Option.bind_eq_bind, Option.bind_eq_some_iff] at h
        obtain ⟨system, htaken, h⟩ := h
        obtain rfl := Option.some.inj h
        exact .answer hlimiting hreads hwaited htaken
    · cases h

/-- The invariant of the channel and of its limiter. -/
structure Sound (burst : Nat) (rate : ℚ) (state : LimitedChannel slotCount) : Prop where
  valid : state.system.Valid
  arena : state.system.Arena
  fits : state.system.Fits
  within : TokenBucket.Within burst rate state.bucket
  clock : state.bucket.lastRefill ≤ state.now

/-- A step of the channel pays for what it lets through. -/
structure Pays (burst : Nat) (rate : ℚ) (time : ℚ) (state next : LimitedChannel slotCount)
    (amount : ℚ) : Prop where
  paid : TokenBucket.Paid burst rate state.bucket next.bucket amount
  clock : next.bucket.lastRefill = time ∨
    (next.bucket.lastRefill = state.bucket.lastRefill ∧ amount = 0)
  spends : (next.system.letThrough : ℚ) ≤ state.system.letThrough + amount

section Step

variable {burst : Nat} {rate : ℚ} {state next : LimitedChannel slotCount} {time : ℚ}

/-- A wait for the packet in hand pays for what it lets through. -/
theorem Sound.waits (hrate : 0 ≤ rate) (h : state.Sound burst rate) (htime : state.now ≤ time)
    {bytes : Nat} {reading : Reading} {result : Option ErrCode} {bucket : TokenBucket}
    (hreads : reading = .stopRequested ∨ reading = .now time)
    (hwaited : state.bucket.wait bytes [reading] = (result, bucket)) :
    TokenBucket.Paid burst rate state.bucket bucket ((TokenBucket.passed result bytes).getD 0) ∧
      (bucket.lastRefill = time ∨ (bucket.lastRefill = state.bucket.lastRefill ∧
        (TokenBucket.passed result bytes).getD 0 = 0)) := by
  have hpaid := TokenBucket.serve_paid hrate h.within { bytes, readings := [reading] }
  have hturn : (state.bucket.wait bytes [reading]).2.lastRefill = time ∨ _ :=
    TokenBucket.wait_turn (h.clock.trans htime) hreads
  rw [TokenBucket.serve, TokenBucket.granted, hwaited] at hpaid
  rw [hwaited] at hturn
  exact ⟨hpaid, hturn⟩

theorem Moves.pays (hrate : 0 ≤ rate) (h : state.Sound burst rate) (htime : state.now ≤ time)
    (hmoves : state.Moves time next) : ∃ amount, Pays burst rate time state next amount := by
  cases hmoves with
  | act unlimited taken =>
      have hspends := ChannelSystem.step_letThrough unlimited taken
      refine ⟨0, TokenBucket.paid_nothing h.within, .inr ⟨rfl, rfl⟩, ?_⟩
      rw [add_zero]
      exact_mod_cast hspends
  | wait limiting reads waited =>
      obtain ⟨hpaid, hclock⟩ := h.waits hrate htime reads waited
      exact ⟨0, hpaid, hclock.imp_right fun hsame => ⟨hsame.1, rfl⟩, by rw [add_zero]⟩
  | @answer slot size index reading bucket code system limiting reads waited taken =>
      obtain ⟨hpaid, hclock⟩ := h.waits hrate htime reads waited
      refine ⟨_, hpaid, hclock, ?_⟩
      rw [ChannelSystem.step, limiting] at taken
      cases code with
      | error err =>
          obtain rfl := Option.some.inj taken
          simp [ChannelSystem.letThrough, TokenBucket.passed, TxPc.admittedBytes]
      | ok _ =>
          obtain rfl := Option.some.inj taken
          simp [ChannelSystem.letThrough, TokenBucket.passed, TxPc.admittedBytes, limiting]

theorem Moves.sound (hrate : 0 ≤ rate) (h : state.Sound burst rate) (htime : state.now ≤ time)
    (hmoves : state.Moves time next) : next.Sound burst rate := by
  obtain ⟨amount, hpaid, hclock, _⟩ := hmoves.pays hrate h htime
  have hnow : next.now = time := by cases hmoves <;> rfl
  have hrefill : next.bucket.lastRefill ≤ next.now := by
    rw [hnow]
    rcases hclock with hlast | ⟨hlast, _⟩
    · exact hlast.le
    · exact hlast ▸ h.clock.trans htime
  cases hmoves with
  | act unlimited taken =>
      exact ⟨ChannelSystem.step_valid _ _ _ h.valid taken,
        ChannelSystem.step_arena _ _ _ h.arena taken,
        ChannelSystem.step_fits _ _ _ h.fits h.arena taken, hpaid.within, hrefill⟩
  | wait limiting reads waited => exact ⟨h.valid, h.arena, h.fits, hpaid.within, hrefill⟩
  | answer limiting reads waited taken =>
      exact ⟨ChannelSystem.step_valid _ _ _ h.valid taken,
        ChannelSystem.step_arena _ _ _ h.arena taken,
        ChannelSystem.step_fits _ _ _ h.fits h.arena taken, hpaid.within, hrefill⟩

end Step

/-- What has been let through since some time, at which it was `base` bytes. -/
structure Since (burst : Nat) (rate : ℚ) (start : ℚ) (base : Nat)
    (state : LimitedChannel slotCount) : Prop where
  idle : state.bucket.lastRefill < start → state.system.letThrough ≤ base
  paid : start ≤ state.bucket.lastRefill →
    state.system.letThrough + state.bucket.availableBytes ≤
      base + burst + rate * (state.bucket.lastRefill - start)

section Window

variable {burst : Nat} {rate start : ℚ} {base : Nat} {state next : LimitedChannel slotCount}
  {time : ℚ}

theorem Since.pays {amount : ℚ} (h : Since burst rate start base state) (hstart : start ≤ time)
    (hrate : 0 ≤ rate) (hpays : Pays burst rate time state next amount) :
    Since burst rate start base next := by
  obtain ⟨⟨_, haccrues, hcapped⟩, hclock, hspends⟩ := hpays
  rcases lt_or_ge state.bucket.lastRefill start with hbefore | hafter
  · have hidle : (state.system.letThrough : ℚ) ≤ base := by exact_mod_cast h.idle hbefore
    refine ⟨fun hlast => ?_, fun hlast => ?_⟩
    · rcases hclock with hnow | ⟨_, hzero⟩
      · rw [hnow] at hlast
        exact absurd hstart (not_le.mpr hlast)
      · have hle : (next.system.letThrough : ℚ) ≤ base := by linarith
        exact_mod_cast hle
    · have hlong : 0 ≤ rate * (next.bucket.lastRefill - start) :=
        mul_nonneg hrate (sub_nonneg.mpr hlast)
      linarith
  · have hpaid := h.paid hafter
    refine ⟨fun hlast => ?_, fun _ => ?_⟩
    · rcases hclock with hnow | ⟨hsame, _⟩
      · rw [hnow] at hlast
        exact absurd hstart (not_le.mpr hlast)
      · rw [hsame] at hlast
        exact absurd hafter (not_le.mpr hlast)
    · have hsplit : rate * (next.bucket.lastRefill - start) =
          rate * (next.bucket.lastRefill - state.bucket.lastRefill) +
            rate * (state.bucket.lastRefill - start) := by ring
      linarith

/-- A window that has lasted until now. -/
theorem Since.bound (h : Since burst rate start base state) (hsound : state.Sound burst rate)
    (hrate : 0 ≤ rate) (hstart : start ≤ state.now) :
    (state.system.letThrough : ℚ) ≤ base + burst + rate * (state.now - start) := by
  have hlong : 0 ≤ rate * (state.now - start) := mul_nonneg hrate (sub_nonneg.mpr hstart)
  have hburst : (0 : ℚ) ≤ burst := Nat.cast_nonneg _
  rcases lt_or_ge state.bucket.lastRefill start with hbefore | hafter
  · have hidle : (state.system.letThrough : ℚ) ≤ base := by exact_mod_cast h.idle hbefore
    linarith
  · have hpaid := h.paid hafter
    have hnonneg := hsound.within.nonneg
    have hclock : rate * (state.bucket.lastRefill - start) ≤ rate * (state.now - start) :=
      mul_le_mul_of_nonneg_left (sub_le_sub_right hsound.clock start) hrate
    linarith

end Window

/-! ## Runs -/

theorem openLimited_sound {sendQueueSlots : BitVec 32} {maxBandwidthBps : Nat} {now : ℚ}
    {state : LimitedChannel sendQueueSlots.toNat}
    (hopen : openLimited sendQueueSlots maxBandwidthBps now = some state) :
    state.Sound (motorUdpPacketCap * 2) (maxBandwidthBps / 8) := by
  rw [openLimited, Option.bind_eq_bind, Option.bind_eq_some_iff] at hopen
  obtain ⟨system, hsystem, hopen⟩ := hopen
  obtain rfl := Option.some.inj hopen
  have hdelivers := ChannelSystem.openRealtime_delivers hsystem
  exact ⟨hdelivers.valid, hdelivers.arena, hdelivers.fits,
    TokenBucket.init_within maxBandwidthBps (motorUdpPacketCap * 2) now, le_refl _⟩

theorem step_sound {burst : Nat} {rate : ℚ} (hrate : 0 ≤ rate)
    (state : LimitedChannel slotCount) (timed : ℚ × LimitedAction)
    (next : LimitedChannel slotCount) (h : state.Sound burst rate)
    (hstep : state.step timed = some next) : next.Sound burst rate :=
  (step_moves hstep).2.sound hrate h (step_moves hstep).1

/-- What holds all through a window that starts at some state. -/
structure Lasts (burst : Nat) (rate : ℚ) (first state : LimitedChannel slotCount) : Prop where
  sound : state.Sound burst rate
  clock : first.now ≤ state.now
  since : Since burst rate first.now first.system.letThrough state
  sent : first.system.channel.sent <+: state.system.channel.sent

theorem step_lasts {burst : Nat} {rate : ℚ} (hrate : 0 ≤ rate)
    {first : LimitedChannel slotCount} (state : LimitedChannel slotCount)
    (timed : ℚ × LimitedAction) (next : LimitedChannel slotCount)
    (h : Lasts burst rate first state) (hstep : state.step timed = some next) :
    Lasts burst rate first next := by
  obtain ⟨htime, hmoves⟩ := step_moves hstep
  obtain ⟨amount, hpays⟩ := hmoves.pays hrate h.sound htime
  have hnow : next.now = timed.1 := by cases hmoves <;> rfl
  refine ⟨hmoves.sound hrate h.sound htime, hnow ▸ h.clock.trans htime,
    h.since.pays (h.clock.trans htime) hrate hpays, h.sent.trans ?_⟩
  cases hmoves with
  | act _ taken => exact ChannelSystem.step_sent_prefix _ _ _ taken
  | wait _ _ _ => exact List.prefix_rfl
  | answer _ _ _ taken => exact ChannelSystem.step_sent_prefix _ _ _ taken

/-- In every interleaving and for every window of it, the datagrams that the channel sends
in the window have no more bytes than three packets and what the bandwidth allows in that
time. -/
theorem wire_rate (sendQueueSlots : BitVec 32) (maxBandwidthBps : Nat) (opened : ℚ)
    (start : LimitedChannel sendQueueSlots.toNat)
    (hopen : openLimited sendQueueSlots maxBandwidthBps opened = some start)
    (before : List (ℚ × LimitedAction)) (state : LimitedChannel sendQueueSlots.toNat)
    (hbefore : Steps.run step start before = some state)
    (window : List (ℚ × LimitedAction)) (later : LimitedChannel sendQueueSlots.toNat)
    (hwindow : Steps.run step state window = some later) :
    ∃ datagrams, later.system.channel.sent = state.system.channel.sent ++ datagrams ∧
      ((datagrams.map List.length).sum : ℚ) ≤
        3 * motorUdpPacketCap + maxBandwidthBps / 8 * (later.now - state.now) := by
  have hrate : (0 : ℚ) ≤ maxBandwidthBps / 8 := by positivity
  have hsound : state.Sound (motorUdpPacketCap * 2) (maxBandwidthBps / 8) :=
    Steps.run_invariant (step_sound hrate) hbefore (openLimited_sound hopen)
  have hadmitted := ChannelSystem.admitted_le hsound.valid hsound.fits
  have hfirst : Lasts (motorUdpPacketCap * 2) (maxBandwidthBps / 8) state state := by
    refine ⟨hsound, le_refl _, ⟨fun _ => Nat.le_refl _, fun hlast => ?_⟩, List.prefix_rfl⟩
    have hfull := hsound.within.le_burst
    have hlong := mul_nonneg hrate (sub_nonneg.mpr hlast)
    linarith
  have hlasts := Steps.run_invariant (step_lasts hrate) hwindow hfirst
  obtain ⟨datagrams, hdatagrams⟩ := hlasts.sent
  refine ⟨datagrams, hdatagrams.symm, ?_⟩
  have hbound := hlasts.since.bound hlasts.sound hrate hlasts.clock
  have hsplit : later.system.channel.sentBytes =
      state.system.channel.sentBytes + (datagrams.map List.length).sum := by
    rw [UdpChannel.sentBytes, ← hdatagrams, List.map_append, List.sum_append]
    rfl
  simp only [ChannelSystem.letThrough, hsplit] at hbound
  have hadmitted' : (state.system.tx.admittedBytes : ℚ) ≤ motorUdpPacketCap := by
    exact_mod_cast hadmitted
  have hlater : (0 : ℚ) ≤ later.system.tx.admittedBytes := Nat.cast_nonneg _
  simp only [Nat.cast_add, Nat.cast_mul, Nat.cast_ofNat] at hbound
  linarith

/-- A packet of three bytes waits for the limiter and goes out. -/
def limitedRun : List (ℚ × LimitedAction) :=
  [.client 0 (.prepare 0), .client 0 .advance, .client 0 (.fillBuffer 0 [1, 2, 3]),
    .client 0 (.commit 0 3), .client 0 .advance, .client 0 .advance, .tx .advance, .tx .advance,
    .tx .advance, .tx .advance].map (fun action => (0, .act action)) ++
  [(1 / 2, .turn), (1, .act (.tx (.checkSocket true))), (1, .act (.tx (.attempt .sent)))]

theorem three_bytes_limited : ∃ start later, openLimited 1 8000 0 = some start ∧
    Steps.run step start limitedRun = some later ∧
    later.system.channel.sent = [[1, 2, 3]] ∧
    ((([[1, 2, 3]] : List (List Byte)).map List.length).sum : ℚ) ≤
      3 * motorUdpPacketCap + (8000 : Nat) / 8 * (later.now - start.now) := by
  obtain ⟨start, hopen, hsends⟩ : ∃ start, openLimited 1 8000 0 = some start ∧
      start.system.channel.sent = [] ∧
      (Steps.run step start limitedRun).map (fun state => state.system.channel.sent) =
        some [[1, 2, 3]] := ⟨_, rfl, rfl, by decide +kernel⟩
  obtain ⟨later, hrun, hsent⟩ := Option.map_eq_some_iff.mp hsends.2
  obtain ⟨datagrams, hdatagrams, hbound⟩ :=
    wire_rate 1 8000 0 start hopen [] start rfl limitedRun later hrun
  rw [hsends.1, List.nil_append, hsent] at hdatagrams
  subst hdatagrams
  exact ⟨start, later, hopen, hrun, hsent, hbound⟩

end LimitedChannel

end ServoFleet
