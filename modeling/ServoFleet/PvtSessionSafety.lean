import ServoFleet.PvtControlSafety
import ServoFleet.PvtSession
import ServoFleet.RuntimeBinding
import ServoFleet.Theory.Steps

/-!
The program seen from the drives. A call that is refused reaches no drive, and one
that is accepted is taken to reach it. The program keeps every drive from being
driven before its current limit is lowered and its brake is open, or while another
drive was moved and has not been sent its stop command, and it puts back the limit
the drive had reported. It claims success only after all four went through their
loops with every PVT command accepted.

It does not look at the outcome of the stop command, so a drive whose stop command
was refused may go on moving.
-/

namespace ServoFleet.PvtControl

/-- A drive by the calls of `command` for it: the current limits in order with the outcomes
of setting them, whether its brake is open, the motion command that was accepted last, the
one that was refused last after it, and the outcomes of the PVT commands. -/
structure Drive where
  limits : List (Range F32 × ErrCode) := []
  brakeOpen : Bool := false
  motion : Option MotorCommand := none
  refused : Option MotorCommand := none
  pvtCommands : List ErrCode := []

/-- The limit that was accepted last. -/
def Drive.currentLimit (drive : Drive) : Option (Range F32) :=
  (drive.limits.filter fun limit => limit.2 = .ok ()).getLast?.map Prod.fst

/-- A motion command reaches the drive only if it is accepted. -/
def Drive.move (drive : Drive) (call : Call) : Drive :=
  if call.result = .ok () then { drive with motion := some call.command, refused := none }
  else { drive with refused := some call.command }

def Drive.after (drive : Drive) (call : Call) : Drive :=
  match call.command with
  | .configSet { code, value := .rangeFloat limit, .. } =>
      if code = .pvtCurrentLimit then
        { drive with limits := drive.limits ++ [(limit, call.result)] }
      else drive
  | .brake { control := .engage isOpen, .. } =>
      if call.result = .ok () then { drive with brakeOpen := isOpen } else drive
  | .pvt _ => { drive.move call with pvtCommands := drive.pvtCommands ++ [call.result] }
  | .position _ | .velocity _ | .torque _ | .current _ => drive.move call
  | _ => drive

/-- A drive that was never moved, or took its stop command since. -/
def Drive.Stopped (drive : Drive) (device : DeviceId) : Prop :=
  drive.motion = none ∨ drive.motion = some (stopCommand device)

/-- A drive that stands still, or one whose stop command was refused: the program is done with
it either way. -/
def Drive.Dismissed (drive : Drive) (device : DeviceId) : Prop :=
  drive.Stopped device ∨ drive.refused = some (stopCommand device)

/-- A drive that may be moved. -/
structure Drive.Ready (drive : Drive) : Prop where
  limit : drive.currentLimit = some pvtCurrentLimit
  brake : drive.brakeOpen = true

/-- The gains are those of the program, there is no torque on top, and position and
velocity are within their bounds. -/
structure Gentle (command : PvtCommand) : Prop where
  gains : command.gains = { kp := { bits := 0x41900000 }, kd := { bits := 0x3ECCCCCD }, ki := {} }
  torque : command.torqueFfNm = {}
  position : validPvtPosition command.positionR = true
  velocity : ∀ v, command.velocityRadps.value = some v → |v| ≤ 7 / 20

/-- All drives. -/
abbrev Drives := DeviceId → Drive

def watch (drives : Drives) (call : Call) : Option Drives :=
  some (Function.update drives call.command.deviceId
    ((drives call.command.deviceId).after call))

/-- A PVT command goes to a drive that is ready for it, and the program is done with all the
others it has moved. -/
def MayMove (drives : Drives) (call : Call) : Prop :=
  ∀ command, call.command = .pvt command →
    (drives command.deviceId).Ready ∧ Gentle command ∧
      ∀ other, other ≠ command.deviceId → (drives other).Dismissed other

/-! ## The loop -/

/-- The commands of a loop are its targets, each checked. -/
def Checked (loop : World) (sent : Sent) : Prop :=
  sent.command = pvtCommand loop.motor (target loop sent.cycle) ∧
    validPvtPosition (target loop sent.cycle).positionR = true

section Loop

variable (loop : World)

theorem sendPvt_checked (cycle : Option Nat) (err : ErrCode) :
    (sendPvt loop.motor cycle (target loop cycle) err).2.length ≤ 1 ∧
      ∀ sent ∈ (sendPvt loop.motor cycle (target loop cycle) err).2, Checked loop sent := by
  unfold sendPvt
  cases hvalid : validPvtPosition (target loop cycle).positionR with
  | false => exact ⟨Nat.zero_le 1, by simp⟩
  | true =>
      refine ⟨Nat.le_refl 1, fun sent member => ?_⟩
      obtain rfl := List.mem_singleton.mp member
      exact ⟨rfl, hvalid⟩

theorem runCycle_checked (state : LoopState) :
    ∃ calls : List Sent, (runCycle loop state).1.sent = state.sent ++ calls ∧
      calls.length ≤ 1 ∧ ∀ sent ∈ calls, Checked loop sent := by
  have hsend := sendPvt_checked loop (some state.stats.cycles)
    (loop.cycle state.stats.cycles).commandErr
  simp only [runCycle]
  split_ifs
  · exact ⟨[], (List.append_nil _).symm, Nat.zero_le 1, by simp⟩
  · exact ⟨[], (List.append_nil _).symm, Nat.zero_le 1, by simp⟩
  · exact ⟨[], (List.append_nil _).symm, Nat.zero_le 1, by simp⟩
  · exact ⟨_, rfl, hsend⟩
  · exact ⟨_, rfl, hsend⟩

/-- At most one command for every turn. -/
theorem loop_checked (deadline : Int) (state : LoopState) (hcount : state.sent.length ≤
      state.stats.cycles + 1) (hsent : ∀ sent ∈ state.sent, Checked loop sent) :
    (PvtControl.loop loop deadline state).1.sent.length ≤
        (PvtControl.loop loop deadline state).1.stats.cycles + 1 ∧
      ∀ sent ∈ (PvtControl.loop loop deadline state).1.sent, Checked loop sent := by
  have hstep : ∀ state : LoopState, state.sent.length ≤ state.stats.cycles + 1 →
      (∀ sent ∈ state.sent, Checked loop sent) →
      (runCycle loop state).1.sent.length ≤ (runCycle loop state).1.stats.cycles + 1 ∧
        ∀ sent ∈ (runCycle loop state).1.sent, Checked loop sent := by
    intro state hcount hsent
    obtain ⟨calls, hcalls, hlength, hchecked⟩ := runCycle_checked loop state
    rw [hcalls, (runCycle_counts loop state).1, List.length_append]
    refine ⟨by omega, fun sent member => ?_⟩
    exact (List.mem_append.mp member).elim (hsent sent) (hchecked sent)
  fun_induction PvtControl.loop loop deadline state with
  | case1 state hguard next ok hrun => simpa only [hrun] using hstep state hcount hsent
  | case2 state hguard next hrun ih =>
      have h := hstep state hcount hsent
      rw [hrun] at h
      exact ih h.1 h.2
  | case3 state hguard => exact ⟨hcount, hsent⟩

/-- A loop that ran to its end had every command accepted. -/
theorem Finished.accepted {loop : World} {deadline : Int} {state : LoopState}
    (finished : Finished loop deadline state true) (hseed : ¬ SendFails loop none) {sent : Sent}
    (member : sent ∈ state.sent) : commandErr loop sent.cycle = .ok () := by
  have hsends : ¬ SendFails loop sent.cycle := by
    obtain ⟨i, hi⟩ := List.mem_iff_getElem?.mp member
    rcases finished.sent.at_index hi with ⟨_, hnone⟩ | ⟨_, k, hk, hcycle, good⟩
    · rw [hnone]
      exact hseed
    · rw [hcycle]
      intro hfails
      cases (finished.failure k hk good hfails).1
  by_contra hrefused
  exact hsends (.inr hrefused)

/-- The commands of the whole function, at most one for every period and the seed. If it
returns true there are some, and all of them were accepted. -/
theorem runStablePvtLoop_checked (runDuration : Int) (totalStats : PvtLoopStats) :
    let outcome := runStablePvtLoop loop runDuration totalStats
    outcome.sent.length ≤ (runDuration / commandPeriod).toNat + 1 ∧
      (outcome.ok = true → outcome.sent ≠ [] ∧
        ∀ sent ∈ outcome.sent, commandErr loop sent.cycle = .ok ()) ∧
      ∀ sent ∈ outcome.sent, Checked loop sent := by
  intro outcome
  have hcount : outcome.sent.length ≤ outcome.stats.cycles + 1 ∧
      ∀ sent ∈ outcome.sent, Checked loop sent := by
    obtain ⟨hlength, hchecked⟩ := sendPvt_checked loop none loop.seedErr
    simp only [outcome, runStablePvtLoop]
    change (sendPvt loop.motor none (loop.targetAt 0) loop.seedErr).2.length ≤ 1 at hlength
    change ∀ sent ∈ (sendPvt loop.motor none (loop.targetAt 0) loop.seedErr).2, _ at hchecked
    generalize sendPvt loop.motor none (loop.targetAt 0) loop.seedErr = result at *
    obtain ⟨ok, sent⟩ := result
    cases ok with
    | false => exact ⟨hlength, hchecked⟩
    | true => exact loop_checked loop _ _ hlength hchecked
  obtain ⟨_, ⟨_, hok, hstats, _⟩ | ⟨hseed, state, hstats, hsent, finished⟩⟩ :=
    runStablePvtLoop_cases loop runDuration totalStats
  · refine ⟨hcount.1.trans ?_, fun htrue => ?_, hcount.2⟩
    · simp only [outcome, hstats]
      exact Nat.le_add_left _ _
    · rw [show outcome.ok = false from hok] at htrue
      cases htrue
  · refine ⟨hcount.1.trans ?_, fun htrue => ⟨?_, fun sent member => ?_⟩, hcount.2⟩
    · simp only [outcome, hstats]
      exact Nat.succ_le_succ finished.cycles_le
    · obtain ⟨first, rest, hfirst, _⟩ := finished.sent
      rw [show outcome.sent = state.sent from hsent, hfirst]
      exact List.cons_ne_nil _ _
    · rw [show outcome.sent = state.sent from hsent] at member
      rw [show (runStablePvtLoop loop runDuration totalStats).ok = true from htrue] at finished
      exact finished.accepted hseed member

end Loop

/-! ## The calls to one drive -/

/-- A call to a motor that may be made with its drive as it is. -/
def Allowed (motor : DeviceId) (drive : Drive) (call : Call) : Prop :=
  call.command.deviceId = motor ∧
    ∀ command, call.command = .pvt command → drive.Ready ∧ Gentle command

/-- The calls since `calls` are all to one motor; its drive was `drive` before them and
is `drive'` after them. -/
def Told (motor : DeviceId) (calls calls' : List Call) (drive drive' : Drive) : Prop :=
  ∃ more, calls' = calls ++ more ∧
    Steps.Along (fun drive call => some (Drive.after drive call)) (Allowed motor) drive more drive'

/-- The drive got some PVT commands, with these outcomes, and nothing else. -/
structure Driven (drive drive' : Drive) (outcomes : List ErrCode) : Prop where
  limits : drive'.limits = drive.limits
  brakeOpen : drive'.brakeOpen = drive.brakeOpen
  pvtCommands : drive'.pvtCommands = drive.pvtCommands ++ outcomes

theorem Driven.refl (drive : Drive) : Driven drive drive [] :=
  ⟨rfl, rfl, (List.append_nil _).symm⟩

theorem Driven.trans {drive mid drive' : Drive} {outcomes outcomes' : List ErrCode}
    (h : Driven drive mid outcomes) (h' : Driven mid drive' outcomes') :
    Driven drive drive' (outcomes ++ outcomes') :=
  ⟨h'.limits.trans h.limits, h'.brakeOpen.trans h.brakeOpen,
    by rw [h'.pvtCommands, h.pvtCommands, List.append_assoc]⟩

theorem driven_pvt (drive : Drive) {call : Call} {command : PvtCommand}
    (hpvt : call.command = .pvt command) : Driven drive (drive.after call) [call.result] := by
  rw [Drive.after, hpvt, Drive.move]
  split_ifs <;> exact ⟨rfl, rfl, rfl⟩

/-- At least so many commands, all of them accepted. -/
structure Accepts (count : Nat) (outcomes : List ErrCode) : Prop where
  many : count ≤ outcomes.length
  accepted : ∀ outcome ∈ outcomes, outcome = .ok ()

theorem Accepts.append {m n : Nat} {outcomes outcomes' : List ErrCode} (h : Accepts m outcomes)
    (h' : Accepts n outcomes') : Accepts (m + n) (outcomes ++ outcomes') where
  many := by
    rw [List.length_append]
    exact Nat.add_le_add h.many h'.many
  accepted outcome member :=
    (List.mem_append.mp member).elim (h.accepted outcome) (h'.accepted outcome)

theorem Driven.ready {drive drive' : Drive} {outcomes : List ErrCode}
    (h : Driven drive drive' outcomes) (ready : drive.Ready) : drive'.Ready where
  limit := by rw [Drive.currentLimit, h.limits]; exact ready.limit
  brake := h.brakeOpen.trans ready.brake

section Told

variable {world : Surroundings} {path : Trajectory} {motor : DeviceId}
variable {calls calls' calls'' : List Call} {drive drive' drive'' : Drive}

theorem Told.refl : Told motor calls calls drive drive :=
  ⟨[], (List.append_nil calls).symm, .nil drive⟩

theorem Told.trans (h : Told motor calls calls' drive drive')
    (h' : Told motor calls' calls'' drive' drive'') : Told motor calls calls'' drive drive'' := by
  obtain ⟨more, rfl, halong⟩ := h
  obtain ⟨rest, rfl, hrest⟩ := h'
  exact ⟨more ++ rest, List.append_assoc calls more rest, halong.append hrest⟩

theorem Told.isPrefix (h : Told motor calls calls' drive drive') : calls <+: calls' := by
  obtain ⟨more, rfl, _⟩ := h
  exact List.prefix_append calls more

variable (drive) in
theorem command_told {request : MotorCommand} (hown : request.deviceId = motor)
    (hpvt : ∀ command, request = .pvt command → drive.Ready ∧ Gentle command) :
    Told motor calls (command world calls request).2 drive
      (drive.after { command := request, result := world.commandErr calls request }) :=
  ⟨_, rfl, .single ⟨hown, hpvt⟩ rfl⟩

theorem sendQuery_told (code : ConfigQueryCode) :
    Told motor calls (sendQuery world motor calls code).2 drive drive :=
  command_told drive rfl (by simp)

theorem queryAll_told (codes : List ConfigQueryCode) :
    Told motor calls (queryAll world motor calls codes) drive drive := by
  induction codes generalizing calls with
  | nil => exact .refl
  | cons code rest ih => exact (sendQuery_told code).trans ih

/-- Right before the limit was lowered, the drive had reported its own. -/
def Reported (world : Surroundings) (motor : DeviceId) (original : Range F32)
    (calls : List Call) : Prop :=
  ∃ before,
    before ++ [{ command := limitCommand motor pvtCurrentLimit, result := .ok () }] <+: calls ∧
    fresh (world.currentLimit before motor) (world.now before) feedbackMaxAge = true ∧
    original = (world.currentLimit before motor).value

theorem Reported.later {original : Range F32} (h : Reported world motor original calls)
    (hlonger : calls <+: calls') : Reported world motor original calls' := by
  obtain ⟨before, hbefore, hfresh, hvalue⟩ := h
  exact ⟨before, hbefore.trans hlonger, hfresh, hvalue⟩

variable (world motor calls drive) in
/-- Without the lowered limit either nothing was set or setting it failed. -/
theorem setPvtCurrentLimit_told :
    ∃ limits, Told motor calls (setPvtCurrentLimit world motor calls).2 drive
        { drive with limits := drive.limits ++ limits } ∧
      ((setPvtCurrentLimit world motor calls).1 = none →
        limits = [] ∨ ∃ err, limits = [(pvtCurrentLimit, .error err)]) ∧
      ∀ original, (setPvtCurrentLimit world motor calls).1 = some original →
        limits = [(pvtCurrentLimit, .ok ())] ∧
          Reported world motor original (setPvtCurrentLimit world motor calls).2 := by
  have hquery : Told motor calls (sendQuery world motor calls .pvtCurrentLimit).2 drive drive :=
    sendQuery_told _
  simp only [setPvtCurrentLimit]
  generalize (sendQuery world motor calls .pvtCurrentLimit).2 = before at hquery ⊢
  have hset : Told motor before (command world before (limitCommand motor pvtCurrentLimit)).2
      drive _ := command_told drive rfl (by simp [limitCommand])
  cases hfresh : fresh (world.currentLimit before motor) (world.now before) feedbackMaxAge with
  | false =>
      refine ⟨[], ?_, fun _ => .inl rfl, by simp⟩
      rw [List.append_nil]
      exact hquery
  | true =>
      refine ⟨[(pvtCurrentLimit, world.commandErr before (limitCommand motor pvtCurrentLimit))],
        ?_, ?_, ?_⟩
      · simp only [Bool.not_true, Bool.false_eq_true, if_false]
        split_ifs <;> exact hquery.trans hset
      · intro hnone
        simp only [command] at hnone
        cases herr : world.commandErr before (limitCommand motor pvtCurrentLimit) with
        | error err => exact .inr ⟨err, rfl⟩
        | ok _ => simp [herr] at hnone
      · intro original hsome
        have herr : world.commandErr before (limitCommand motor pvtCurrentLimit) = .ok () := by
          by_contra hne
          simp [command, hne] at hsome
        have hvalue : original = (world.currentLimit before motor).value := by
          simpa [command, herr, eq_comm] using hsome
        refine ⟨by rw [herr], before, ?_, hfresh, hvalue⟩
        simp [command, herr]

theorem releaseBrake_told :
    Told motor calls (releaseBrake world motor calls).2 drive
      { drive with brakeOpen := (releaseBrake world motor calls).1 || drive.brakeOpen } := by
  have h : Told motor calls (releaseBrake world motor calls).2 drive _ :=
    command_told drive rfl (by simp [brakeCommand])
  simp only [Drive.after, brakeCommand] at h
  simp only [releaseBrake, command, brakeCommand] at h ⊢
  split_ifs at h with herr <;> simpa [herr] using h

/-! ## Driving -/

variable (calls) in
theorem sent_told {loop : World} (ready : drive.Ready) {sent : List Sent}
    (hchecked : ∀ call ∈ sent, Checked loop call)
    (hslow : ∀ elapsed v, (loop.targetAt elapsed).velocityRadps.value = some v → |v| ≤ 7 / 20) :
    ∃ drive', Told loop.motor calls (calls ++ sent.map (Sent.call loop)) drive drive' ∧
      Driven drive drive' (sent.map fun sent => (sent.call loop).result) := by
  induction sent generalizing calls drive with
  | nil => exact ⟨drive, ⟨[], rfl, .nil drive⟩, .refl drive⟩
  | cons first rest ih =>
      obtain ⟨⟨hcommand, hvalid⟩, hrest⟩ := List.forall_mem_cons.mp hchecked
      have hdriven : Driven drive (drive.after (first.call loop)) [(first.call loop).result] :=
        driven_pvt drive rfl
      obtain ⟨drive', htold, hdriven'⟩ :=
        ih (calls ++ [first.call loop]) (hdriven.ready ready) hrest
      have hfirst : Told loop.motor calls (calls ++ [first.call loop]) drive
          (drive.after (first.call loop)) := by
        refine ⟨_, rfl, .single ⟨?_, ?_⟩ rfl⟩
        · exact congrArg PvtCommand.deviceId hcommand
        · rintro command ⟨⟩
          refine ⟨ready, ?_⟩
          rw [hcommand]
          refine ⟨rfl, rfl, hvalid, ?_⟩
          cases hcycle : first.cycle <;> exact hslow _
      refine ⟨drive', ?_, ?_⟩
      · rw [List.map_cons, List.append_cons]
        exact hfirst.trans htold
      · exact hdriven.trans hdriven'

theorem Sent.call_result (loop : World) (sent : Sent) :
    (sent.call loop).result = commandErr loop sent.cycle := by
  cases h : sent.cycle <;> simp only [Sent.call, commandErr, h]

variable (world motor calls) in
theorem runLoop_told (ready : drive.Ready) (runDuration : Int) {targetAt : Int → PvtTarget}
    (hslow : ∀ elapsed v, (targetAt elapsed).velocityRadps.value = some v → |v| ≤ 7 / 20)
    (stats : PvtLoopStats) :
    let result := runLoop world motor calls runDuration targetAt stats
    ∃ drive' outcomes, Told motor calls result.2.2 drive drive' ∧ Driven drive drive' outcomes ∧
      outcomes.length ≤ (runDuration / commandPeriod).toNat + 1 ∧
      (result.1 = true → Accepts 1 outcomes) := by
  intro result
  let loop := loopWorld world motor calls targetAt
  obtain ⟨hlength, haccepted, hchecked⟩ := runStablePvtLoop_checked loop runDuration stats
  obtain ⟨drive', htold, hdriven⟩ := sent_told calls ready hchecked hslow
  refine ⟨drive', _, htold, hdriven, by rwa [List.length_map], fun hok => ⟨?_, ?_⟩⟩
  · rw [List.length_map]
    exact List.length_pos_iff.mpr (haccepted hok).1
  · intro outcome member
    obtain ⟨sent, hsent, rfl⟩ := List.mem_map.mp member
    exact (Sent.call_result loop sent).trans ((haccepted hok).2 sent hsent)

theorem hold_slow (positionR : F32) (v : ℚ)
    (h : (({ positionR } : PvtTarget)).velocityRadps.value = some v) : |v| ≤ 7 / 20 := by
  obtain rfl := Option.some.inj (h.symm.trans (show F32.value {} = some 0 by decide +kernel))
  norm_num

theorem tuneTarget_slow (path : Trajectory) (originR : F32) (elapsed : Int) (v : ℚ)
    (h : (tuneTarget path originR elapsed).velocityRadps.value = some v) : |v| ≤ 7 / 20 := by
  have hlow : maxVelocityRadps.min.value = some (-(11744051 / 33554432)) := by decide +kernel
  have hhigh : maxVelocityRadps.max.value = some (11744051 / 33554432) := by decide +kernel
  have hbounds := F32.clamp_bounds hlow hhigh (by norm_num) h
  rw [abs_le]
  constructor <;> linarith

variable (world path motor calls) in
/-- The three loops; each is entered only if the one before ran to its end. -/
theorem runPvtTuning_told (ready : drive.Ready) :
    let result := runPvtTuning world path motor calls
    ∃ drive' outcomes, Told motor calls result.2 drive drive' ∧ Driven drive drive' outcomes ∧
      outcomes.length ≤ 6003 ∧ (result.1 = true → Accepts 3 outcomes) := by
  have hsettle : (settleDuration / commandPeriod).toNat = 600 := by decide
  have htune : (tuneDuration / commandPeriod).toNat = 4800 := by decide
  have horigin : Told motor calls (currentPositionR world path motor calls).2 drive drive :=
    sendQuery_told _
  simp only [runPvtTuning, holdPosition]
  rcases hposition : currentPositionR world path motor calls with ⟨_ | originR, before⟩ <;>
    rw [hposition] at horigin
  · exact ⟨drive, [], horigin, .refl drive, Nat.zero_le _, by simp⟩
  obtain ⟨settled, first, hto, hsettled, hfirst, hfirstok⟩ := runLoop_told world motor before ready
    settleDuration (fun _ => hold_slow originR) {}
  have hto := horigin.trans hto
  rcases hrun : runLoop world motor before settleDuration (fun _ => { positionR := originR }) {}
    with ⟨ok, stats, settling⟩
  simp only [hrun] at hto hfirstok ⊢
  cases ok with
  | false => exact ⟨settled, first, hto, hsettled, by omega, by simp⟩
  | true =>
      have hfirstok := hfirstok rfl
      obtain ⟨tuned, second, hon, htuned, hsecond, hsecondok⟩ := runLoop_told world motor settling
        (hsettled.ready ready) tuneDuration (tuneTarget_slow path originR) stats
      have hto := hto.trans hon
      have htuned := hsettled.trans htuned
      rcases hrun : runLoop world motor settling tuneDuration (tuneTarget path originR) stats
        with ⟨ok, stats, tuning⟩
      simp only [hrun] at hto hsecondok ⊢
      cases ok with
      | false =>
          refine ⟨tuned, first ++ second, hto, htuned, ?_, by simp⟩
          rw [List.length_append]
          omega
      | true =>
          have hsecondok := hsecondok rfl
          obtain ⟨final, third, hback, hfinal, hthird, hthirdok⟩ := runLoop_told world motor tuning
            (htuned.ready ready) settleDuration (fun _ => hold_slow originR) stats
          refine ⟨final, first ++ second ++ third, hto.trans hback, htuned.trans hfinal, ?_,
            fun hok => (hfirstok.append hsecondok).append (hthirdok hok)⟩
          rw [List.length_append, List.length_append]
          omega

end Told

/-! ## One motor -/

/-- What the program leaves behind at a drive that it found untouched. The number of PVT commands
counts the refused ones too. -/
structure Left (world : Surroundings) (motor : DeviceId) (calls : List Call) (drive : Drive) :
    Prop where
  dismissed : drive.Dismissed motor
  limits : drive.limits = [] ∨ (∃ err, drive.limits = [(pvtCurrentLimit, .error err)]) ∨
    ∃ original result, drive.limits = [(pvtCurrentLimit, .ok ()), (original, result)] ∧
      Reported world motor original calls
  few : drive.pvtCommands.length ≤ 6003

/-- A drive that went through all three loops, with every command of theirs accepted. -/
structure Tuned (drive : Drive) : Prop where
  limits : ∃ original result, drive.limits = [(pvtCurrentLimit, .ok ()), (original, result)]
  brake : drive.brakeOpen = true
  driven : Accepts 3 drive.pvtCommands

theorem Left.later {calls calls' : List Call} {drive : Drive} {world : Surroundings}
    {motor : DeviceId} (h : Left world motor calls drive) (hlonger : calls <+: calls') :
    Left world motor calls' drive where
  dismissed := h.dismissed
  limits := h.limits.imp_right (Or.imp_right fun ⟨original, result, hlimits, hreported⟩ =>
    ⟨original, result, hlimits, hreported.later hlonger⟩)
  few := h.few

section Motor

variable {world : Surroundings} {path : Trajectory} {motor : DeviceId}
variable {calls : List Call} {drive : Drive}

variable (drive) in
/-- The stop command is accepted or refused, and nothing else changes. -/
theorem stop_dismisses (result : ErrCode) :
    let stopped := drive.move { command := stopCommand motor, result }
    Driven drive stopped [] ∧ stopped.Dismissed motor := by
  intro stopped
  have hstopped : stopped = drive.move { command := stopCommand motor, result } := rfl
  rw [Drive.move] at hstopped
  split_ifs at hstopped with haccepted <;> rw [hstopped]
  · exact ⟨⟨rfl, rfl, (List.append_nil _).symm⟩, .inl (.inr rfl)⟩
  · exact ⟨⟨rfl, rfl, (List.append_nil _).symm⟩, .inr rfl⟩

variable (world motor calls drive) in
/-- The end of the body: stop, put the limit back, look once more. -/
theorem cleanUp_told (original : Option (Range F32)) :
    ∃ stopped restored, Told motor calls
        (printFeedback world motor
          (restorePvtCurrentLimit world motor (stopMotor world motor calls) original)) drive
        { stopped with limits := stopped.limits ++ restored } ∧
      Driven drive stopped [] ∧ stopped.Dismissed motor ∧ (original = none → restored = []) ∧
      ∀ limit, original = some limit → ∃ result, restored = [(limit, result)] := by
  have hstop : Told motor calls (stopMotor world motor calls) drive
      (drive.move ⟨stopCommand motor, world.commandErr calls (stopCommand motor)⟩) :=
    command_told drive rfl (by simp [stopCommand])
  obtain ⟨hsame, hdismissed⟩ :=
    stop_dismisses drive (world.commandErr calls (stopCommand motor))
  generalize drive.move _ = stopped at hstop hsame hdismissed
  cases original with
  | none =>
      refine ⟨stopped, [], ?_, hsame, hdismissed, fun _ => rfl, by simp⟩
      rw [List.append_nil]
      exact hstop.trans (queryAll_told _)
  | some limit =>
      have hrestore : Told motor (stopMotor world motor calls)
          (restorePvtCurrentLimit world motor (stopMotor world motor calls) (some limit))
          stopped _ := command_told _ rfl (by simp [limitCommand])
      refine ⟨stopped, _, (hstop.trans hrestore).trans (queryAll_told _), hsame, hdismissed,
        by simp, fun same heq => ?_⟩
      obtain rfl := Option.some.inj heq
      exact ⟨_, rfl⟩

variable (world path motor calls) in
/-- The middle of the body: without the lowered limit or the open brake the drive is
not moved. -/
theorem driving_told (original : Option (Range F32)) {limits : List (Range F32 × ErrCode)}
    (hlimits : original.isSome = true → limits = [(pvtCurrentLimit, .ok ())]) :
    let released := releaseBrake world motor calls
    let result := if original.isSome && released.1 then runPvtTuning world path motor released.2
      else (false, released.2)
    ∃ drive, Told motor calls result.2 { limits } drive ∧ drive.limits = limits ∧
      drive.pvtCommands.length ≤ 6003 ∧ (result.1 = true →
        original.isSome = true ∧ drive.brakeOpen = true ∧ Accepts 3 drive.pvtCommands) := by
  intro released result
  have hrelease : Told motor calls released.2 { limits } _ := releaseBrake_told
  by_cases hmove : (original.isSome && released.1) = true
  · have hresult : result = runPvtTuning world path motor released.2 := if_pos hmove
    rw [Bool.and_eq_true] at hmove
    have ready : Drive.Ready { limits, brakeOpen := released.1 || false } := by
      refine ⟨?_, by rw [hmove.2]; rfl⟩
      rw [Drive.currentLimit, hlimits hmove.1]
      rfl
    obtain ⟨drive, outcomes, htold, hdriven, hfew, hok⟩ :=
      runPvtTuning_told world path motor released.2 ready
    have houtcomes : drive.pvtCommands = outcomes := hdriven.pvtCommands
    rw [hresult]
    refine ⟨drive, hrelease.trans htold, hdriven.limits, houtcomes ▸ hfew, fun htrue => ?_⟩
    exact ⟨hmove.1, hdriven.brakeOpen.trans ready.brake, houtcomes ▸ hok htrue⟩
  · have hresult : result = (false, released.2) := if_neg hmove
    rw [hresult]
    exact ⟨_, hrelease, rfl, Nat.zero_le _, by simp⟩

variable (world path motor calls) in
/-- The whole body of the loop over the motors. -/
theorem tuneMotor_told :
    let result := tuneMotor world path motor calls
    ∃ drive, Told motor calls result.2 {} drive ∧ Left world motor result.2 drive ∧
      (result.1 = true → Tuned drive) := by
  intro result
  let looked := printPvtLimits world motor calls
  let lowered := setPvtCurrentLimit world motor looked
  let before := printFeedback world motor lowered.2
  let released := releaseBrake world motor before
  let moved := if lowered.1.isSome && released.1 then runPvtTuning world path motor released.2
    else (false, released.2)
  have hlook : Told motor calls looked {} {} := queryAll_told _
  obtain ⟨limits, hset, hnone, hsome⟩ :=
    setPvtCurrentLimit_told world motor looked {}
  have hfeedback : Told motor lowered.2 before { limits } { limits } := queryAll_told _
  obtain ⟨drive, hmoved, hlimits, hfew, hok⟩ := driving_told world path motor before
    lowered.1 fun hsomeone => by
      obtain ⟨original, horiginal⟩ := Option.isSome_iff_exists.mp hsomeone
      exact (hsome original horiginal).1
  obtain ⟨stopped, restored, hclean, hsame, hdismissed, hrestnone, hrestsome⟩ :=
    cleanUp_told world motor moved.2 drive lowered.1
  have hcommands : stopped.pvtCommands = drive.pvtCommands :=
    hsame.pvtCommands.trans (List.append_nil _)
  have hstopped : stopped.limits = limits := hsame.limits.trans hlimits
  have htail : Told motor lowered.2 result.2 { limits } _ :=
    (hfeedback.trans hmoved).trans hclean
  refine ⟨_, (hlook.trans hset).trans htail, ⟨hdismissed, ?_, hcommands ▸ hfew⟩,
    fun htrue => ?_⟩
  · simp only [hstopped]
    rcases horiginal : lowered.1 with _ | original
    · rw [hrestnone horiginal, List.append_nil]
      exact (hnone horiginal).imp_right .inl
    · obtain ⟨hlowered, hreported⟩ := hsome original horiginal
      obtain ⟨outcome, hrestored⟩ := hrestsome original horiginal
      rw [hlowered, hrestored]
      exact .inr (.inr ⟨original, outcome, rfl, hreported.later htail.isPrefix⟩)
  · obtain ⟨hsomeone, hbrake, hdriven⟩ := hok htrue
    obtain ⟨original, horiginal⟩ := Option.isSome_iff_exists.mp hsomeone
    obtain ⟨outcome, hrestored⟩ := hrestsome original horiginal
    refine ⟨⟨original, outcome, ?_⟩, hsame.brakeOpen.trans hbrake, hcommands ▸ hdriven⟩
    simp only [hstopped, hrestored, (hsome original horiginal).1]
    rfl

end Motor

/-! ## All motors -/

/-- The calls to one motor, seen from all drives. -/
theorem Told.watched {motor : DeviceId} {calls calls' : List Call} (drives : Drives)
    {drive' : Drive} (h : Told motor calls calls' (drives motor) drive')
    (hothers : ∀ other, other ≠ motor → (drives other).Dismissed other) :
    ∃ more, calls' = calls ++ more ∧
      Steps.Along watch MayMove drives more (Function.update drives motor drive') := by
  obtain ⟨more, hcalls, halong⟩ := h
  refine ⟨more, hcalls, ?_⟩
  clear hcalls
  generalize hdrive : drives motor = drive at halong
  induction halong generalizing drives with
  | nil drive =>
      rw [← hdrive, Function.update_eq_self]
      exact .nil drives
  | @cons drive next final call rest allowed taken _ ih =>
      obtain ⟨rfl, hpvt⟩ := allowed
      obtain rfl := Option.some.inj taken
      have hrest := ih (Function.update drives call.command.deviceId (drive.after call))
        (fun other hother => by rw [Function.update_of_ne hother]; exact hothers other hother)
        (Function.update_self ..)
      rw [Function.update_idem] at hrest
      refine .cons ?_ (by rw [watch, hdrive]) hrest
      intro command hcommand
      have hown : call.command.deviceId = command.deviceId := by rw [hcommand]; rfl
      rw [← hown]
      obtain ⟨ready, hgentle⟩ := hpvt command hcommand
      exact ⟨hdrive ▸ ready, hgentle, hothers⟩

/-- After some of the motors: they are left in order, and no other was touched. -/
structure Watched (world : Surroundings) (done : List DeviceId) (ok : Bool) (calls : List Call)
    (drives : Drives) : Prop where
  along : Steps.Along watch MayMove (fun _ => {}) calls drives
  left : ∀ motor ∈ done, Left world motor calls (drives motor)
  untouched : ∀ motor, motor ∉ done → drives motor = {}
  tuned : ok = true → ∀ motor ∈ done, Tuned (drives motor)

section Motors

variable {world : Surroundings} {path : Trajectory} {done : List DeviceId} {ok : Bool}
variable {calls : List Call} {drives : Drives}

theorem Watched.dismissed (h : Watched world done ok calls drives) (motor : DeviceId) :
    (drives motor).Dismissed motor := by
  by_cases hdone : motor ∈ done
  · exact (h.left motor hdone).dismissed
  · exact .inl (.inl (by rw [h.untouched motor hdone]))

variable (path) in
theorem Watched.next (h : Watched world done ok calls drives) {motor : DeviceId}
    (hnew : motor ∉ done) :
    let result := tuneMotor world path motor calls
    ∃ drives', Watched world (done ++ [motor]) (ok && result.1) result.2 drives' := by
  intro result
  obtain ⟨drive, htold, hleft, htuned⟩ :=
    tuneMotor_told world path motor calls
  have hlonger := htold.isPrefix
  rw [← h.untouched motor hnew] at htold
  obtain ⟨more, hcalls, halong⟩ := htold.watched drives fun other _ => h.dismissed other
  have hold : ∀ old ∈ done, Function.update drives motor drive old = drives old := by
    intro old hmem
    rw [Function.update_of_ne (ne_of_mem_of_not_mem hmem hnew)]
  refine ⟨Function.update drives motor drive, ?_, ?_, ?_, ?_⟩
  · rw [show result.2 = calls ++ more from hcalls]
    exact h.along.append halong
  · intro other hmem
    rcases List.mem_append.mp hmem with hmem | hmem
    · rw [hold other hmem]
      exact (h.left other hmem).later hlonger
    · obtain rfl := List.mem_singleton.mp hmem
      rw [Function.update_self]
      exact hleft
  · intro other hmem
    rw [List.mem_append, List.mem_singleton, not_or] at hmem
    rw [Function.update_of_ne hmem.2]
    exact h.untouched other hmem.1
  · intro hok other hmem
    rw [Bool.and_eq_true] at hok
    rcases List.mem_append.mp hmem with hmem | hmem
    · rw [hold other hmem]
      exact h.tuned hok.1 other hmem
    · obtain rfl := List.mem_singleton.mp hmem
      rw [Function.update_self]
      exact htuned hok.2

variable (path) in
theorem tuneMotors_watched (rest : List DeviceId) (hnodup : (done ++ rest).Nodup)
    (h : Watched world done ok calls drives) :
    let result := rest.foldl (fun (ok, calls) motor =>
      let (motorOk, calls) := tuneMotor world path motor calls
      (ok && motorOk, calls)) (ok, calls)
    ∃ drives', Watched world (done ++ rest) result.1 result.2 drives' := by
  induction rest generalizing done ok calls drives with
  | nil =>
      rw [List.append_nil]
      exact ⟨drives, h⟩
  | cons motor rest ih =>
      have hnew : motor ∉ done := fun hmem =>
        List.disjoint_of_nodup_append hnodup hmem List.mem_cons_self
      obtain ⟨drives', hnext⟩ := h.next path hnew
      rw [List.append_cons] at hnodup ⊢
      exact ih hnodup hnext

end Motors

/-- The motors of the program, by their identifiers. -/
theorem pvtConfig_ids {F : Type} [FloatArith F] {opens : ChannelConfig → Bool}
    {runtime : Runtime F} (h : Runtime.init pvtConfig opens = .ok runtime) :
    runtime.motors.map MotorDevice.id = [0, 1, 2, 3] := by
  rw [(Runtime.init_ok h).2.1.motors]
  rfl

/-- Whatever the surroundings do, the program sends a PVT command only to a drive whose
limit is the lowered one and whose brake is open, and only while every other drive was
never moved, took its stop command last, or had it refused. It leaves every drive so, with
an attempt to set the reported limit again unless the lowered one was never accepted. -/
theorem pvt_drives_guarded (F : Type) [FloatArith F] (opens : ChannelConfig → Bool)
    (startErr : ErrCode) (world : Surroundings) (path : Trajectory) :
    let result := run F opens startErr world path
    ∃ drives, Steps.Along watch MayMove (fun _ => {}) result.2 drives ∧
      (∀ motor, Left world motor result.2 (drives motor)) ∧
      (result.1 = 0 → ∀ motor ∈ ([0, 1, 2, 3] : List DeviceId), Tuned (drives motor)) := by
  have hquiet : ∀ calls motor, Left world motor calls {} := fun calls motor =>
    ⟨.inl (.inl rfl), .inl rfl, Nat.zero_le _⟩
  have hidle : ∃ drives, Steps.Along watch MayMove (fun _ => {}) [] drives ∧
      (∀ motor, Left world motor [] (drives motor)) ∧
      ((1 : Int) = 0 → ∀ motor ∈ ([0, 1, 2, 3] : List DeviceId), Tuned (drives motor)) :=
    ⟨fun _ => {}, .nil _, hquiet [], by simp⟩
  simp only [run]
  cases hinit : (Runtime.init pvtConfig opens : Result (Runtime F)) with
  | error err => exact hidle
  | ok runtime =>
      have hids := pvtConfig_ids hinit
      by_cases hfail : startErr ≠ .ok () ∨ runtime.motors.length ≠ pvtConfig.motors.length
      · simp only [if_pos hfail]
        exact hidle
      · simp only [if_neg hfail, hids]
        have hstart : Watched world [] true [] fun _ => {} :=
          ⟨.nil _, by simp, fun _ _ => rfl, by simp⟩
        obtain ⟨drives, h⟩ := tuneMotors_watched path [0, 1, 2, 3] (by decide) hstart
        refine ⟨drives, h.along, fun motor => ?_, fun hcode => ?_⟩
        · by_cases hmem : motor ∈ ([0, 1, 2, 3] : List DeviceId)
          · exact h.left motor hmem
          · rw [h.untouched motor hmem]
            exact hquiet _ motor
        · refine h.tuned ?_
          by_contra hok
          rw [Bool.not_eq_true] at hok
          change (if (tuneMotors world path [0, 1, 2, 3]).1 then (0 : Int) else 1) = 0 at hcode
          rw [show (tuneMotors world path [0, 1, 2, 3]).1 = false from hok] at hcode
          cases hcode

end ServoFleet.PvtControl
