import ServoFleet.PvtScale
import ServoFleet.SendCommands

/-!
Pushing a PVT command for a motor of a known model, at any address and onto a batch
with room, as every batch is between two calls. The drive is taken to read a field
by the range of its model, as the table of models is headed, while the encoder
scales derivative gains and torques by the same two ranges for all of them.

What the channel does with the packet is left out, and so is the rounding of the
floats of the drive.
-/

namespace ServoFleet.PvtScale

open BatchCommands CanCodec

variable {F : Type}

/-- `push` takes the command in, as one more frame, and that frame is faithful to the model. -/
def PushesFaithfully (driver : MotorDriver) (motors : Motors F) (replies : Nat → ChannelReply)
    (batch : BatchCommands) (deviceSlot : Nat) (spec : MotorEcSpec) (command : PvtCommand)
    (q : Quantities) : Prop :=
  ∃ frame code next,
    batch.push driver motors replies deviceSlot (.pvt command) = some (code, next) ∧
    next.taken = batch.taken ++ [frame] ∧ Faithful spec q frame

theorem findMotorEcSpec_mem {model : String} {spec : MotorEcSpec}
    (h : findMotorEcSpec model = some spec) : spec ∈ ecMotorTable := by
  rw [findMotorEcSpec] at h
  split_ifs at h
  exact List.mem_of_find?_eq_some h

/-! ## What a push takes in -/

/-- A driver offers its frames to the channel and comes back, whether they are valid or not. -/
theorem send_frames (reply : ChannelReply) (frames : List CanFrame) :
    ∃ offer, MotorDriver.send reply frames = some offer ∧ offer.frames = frames := by
  unfold MotorDriver.send
  split_ifs with hnone
  · exact ⟨_, rfl, rfl⟩
  cases reply.prepare with
  | error refusal => exact ⟨_, rfl, rfl⟩
  | ok buffer =>
      by_cases hchecks : MotorCodec.Encodable buffer.toList frames
      · simp only [hchecks.run, Option.bind_eq_bind, Option.bind_some]
        cases reply.commitSend (8 + 14 * frames.length) with
        | error err => exact ⟨_, rfl, rfl⟩
        | ok _ => exact ⟨_, rfl, rfl⟩
      · obtain ⟨err, hrefused⟩ :=
          MotorCodec.encodeInto_refuses buffer.toList MotorCodec.typeUdp2can frames hchecks
        simp only [hrefused, Option.bind_eq_bind, Option.bind_some]
        exact ⟨_, rfl, rfl⟩

section Push

variable {driver : MotorDriver} {motors : Motors F} (replies : Nat → ChannelReply)
  {batch : BatchCommands} (hcount : batch.frameCount < maxFramesPerPacket) {deviceSlot : Nat}
  {ref : DeviceRef} (href : driver.devices[deviceSlot]? = some ref) {device : MotorDevice F}
  (hdevice : motors[ref]? = some device)

include hcount href hdevice

theorem push_takes {command : MotorCommand} {frame : CanFrame}
    (hrun : ∀ start, encode device.addr command start = some (.ok (), frame)) :
    ∃ code next, batch.push driver motors replies deviceSlot command = some (code, next) ∧
      next.taken = batch.taken ++ [frame] := by
  have hheld := take_set_succ batch.frames batch.frameCount hcount frame
  simp only [push, href, hdevice, Option.bind_eq_bind, Option.bind_some, dif_pos hcount, hrun]
  split_ifs with hfull
  · obtain ⟨offer, hsend, hframes⟩ := send_frames (replies batch.offers.length)
      ((batch.frames.set batch.frameCount frame hcount).toList.take (batch.frameCount + 1))
    simp only [flush, if_neg (Nat.succ_ne_zero _), hsend, Option.bind_eq_bind, Option.bind_some]
    refine ⟨_, _, rfl, ?_⟩
    rw [taken, taken, List.map_append, List.map_singleton, List.flatten_append,
      List.flatten_singleton, hframes, hheld, List.take_zero, List.append_nil, List.append_assoc]
  · refine ⟨_, _, rfl, ?_⟩
    rw [taken, taken, hheld, List.append_assoc]

theorem push_refuses {command : MotorCommand} {err : FleetErr}
    (hrun : ∀ start, ∃ after, encode device.addr command start = some (.error err, after)) :
    ∃ next, batch.push driver motors replies deviceSlot command = some (.error err, next) ∧
      next.taken = batch.taken := by
  obtain ⟨after, hafter⟩ := hrun batch.frames[batch.frameCount]
  simp only [push, href, hdevice, Option.bind_eq_bind, Option.bind_some, dif_pos hcount, hafter]
  refine ⟨_, rfl, ?_⟩
  rw [taken, taken, Vector.toList_set, List.take_set_of_le (Nat.le_refl _)]

/-- What `push` takes in is what the encoder makes. -/
theorem pushesFaithfully_iff_makePvt (spec : MotorEcSpec) (command : PvtCommand)
    (q : Quantities) :
    PushesFaithfully driver motors replies batch deviceSlot spec command q ↔
      ∃ frame, (∀ start, makePvt device.addr command start = some (.ok (), frame)) ∧
        Faithful spec q frame := by
  cases encode_encodes device.addr (.pvt command) with
  | frame frame port id standard len hencode =>
      obtain ⟨code, next, hpush, htaken⟩ :=
        push_takes replies hcount href hdevice hencode
      constructor
      · rintro ⟨frame', code', next', hpush', htaken', hfaithful⟩
        rw [hpush] at hpush'
        obtain ⟨_, rfl⟩ := Prod.mk.inj (Option.some.inj hpush')
        rw [htaken] at htaken'
        have hsame := List.append_cancel_left htaken'
        rw [List.cons.injEq] at hsame
        exact ⟨frame, hencode, hsame.1 ▸ hfaithful⟩
      · rintro ⟨frame', hmake, hfaithful⟩
        have hsame := hencode {}
        change makePvt device.addr command {} = _ at hsame
        rw [hmake {}] at hsame
        have hframe := (Prod.mk.inj (Option.some.inj hsame)).2
        exact ⟨frame, code, next, hpush, htaken, hframe ▸ hfaithful⟩
  | error err hencode =>
      obtain ⟨next, hpush, htaken⟩ :=
        push_refuses replies hcount href hdevice hencode
      constructor
      · rintro ⟨frame', code', next', hpush', htaken', _⟩
        rw [hpush] at hpush'
        obtain ⟨_, rfl⟩ := Prod.mk.inj (Option.some.inj hpush')
        rw [htaken] at htaken'
        have hlen := congrArg List.length htaken'
        rw [List.length_append, List.length_singleton] at hlen
        omega
      · rintro ⟨frame', hmake, _⟩
        obtain ⟨after, hafter⟩ := hencode {}
        change makePvt device.addr command {} = _ at hafter
        rw [hmake {}] at hafter
        cases hafter

/-- A motor of a known model gets every command inside the ranges of its model, up to two
steps in every field, exactly when the model has the ranges the encoder is written for:
derivative gains up to 5 and torques up to 30 N·m. For any other model all commands go
wrong but those of a small gain or torque. -/
theorem pushesFaithfully_iff {model : String} (hmodel : device.ecSpec = findMotorEcSpec model)
    {spec : MotorEcSpec} (hspec : device.ecSpec = some spec) :
    ((∀ (command : PvtCommand) (q : Quantities), q.Of command → InRange spec q →
        PushesFaithfully driver motors replies batch deviceSlot spec command q) ↔
      spec.kd.max = 5 ∧ spec.torqueNm.max = 30) ∧
    ∀ (command : PvtCommand) (q : Quantities), q.Of command → InRange spec q →
      spec.kd.max ≠ 5 ∧ 25 / 1022 ≤ q.kd ∨ spec.torqueNm.max ≠ 30 ∧ 1 / 7 ≤ |q.torque| →
        ¬ PushesFaithfully driver motors replies batch deviceSlot spec command q := by
  have hrow : spec ∈ ecMotorTable := findMotorEcSpec_mem (hmodel ▸ hspec)
  have hscale : ∀ (command : PvtCommand) (q : Quantities), q.Of command → InRange spec q →
      (PushesFaithfully driver motors replies batch deviceSlot spec command q ↔
        OnScale spec q) := by
    intro command q hof hrange
    rw [pushesFaithfully_iff_makePvt replies hcount href hdevice]
    exact makePvt_faithful_iff hrow hof hrange device.addr
  constructor
  · rw [← onScale_all_iff hrow]
    exact forall₄_congr hscale
  · intro command q hof hrange hoff hfaithful
    exact not_onScale hrow hoff ((hscale command q hof hrange).mp hfaithful)

end Push

/-! ## Two motors -/

def smallSpec : MotorEcSpec :=
  ecSpec "EC-A2806-P2-36" (0, 500) (0, 5) (-18, 18) (-25 / 2, 25 / 2) (-12, 12) (-10, 10)

def middleSpec : MotorEcSpec :=
  ecSpec "EC-A4310-P2-36" (0, 500) (0, 5) (-18, 18) (-25 / 2, 25 / 2) (-30, 30) (-30, 30)

def pvtMotor (model : String) : MotorDevice (Option ℚ) :=
  .init 0 "motor" { canPort := 0, canId := 1 } (findMotorEcSpec model)

def pvtDriver (model : String) : MotorDriver :=
  MotorDriver.bindAll { channelName := "can" } [(0, pvtMotor model)]

/-- A command of 6 N·m and nothing else. -/
def torqueCommand : PvtCommand where
  deviceId := 0
  gains := { kp := {}, kd := {}, ki := {} }
  positionR := {}
  velocityRadps := {}
  torqueFfNm := { bits := 0x40C00000 }

def torqueQuantities : Quantities :=
  { kp := 0, kd := 0, position := 0, velocity := 0, torque := 6 }

theorem torqueQuantities_of : torqueQuantities.Of torqueCommand := by
  have hzero : F32.value {} = some 0 := by decide +kernel
  exact ⟨hzero, hzero, hzero, hzero, by decide +kernel⟩

theorem torqueQuantities_inRange : ∀ spec ∈ [smallSpec, middleSpec],
    InRange spec torqueQuantities := by
  intro spec member
  simp only [List.mem_cons, List.not_mem_nil, or_false] at member
  rcases member with rfl | rfl <;> constructor <;>
    norm_num [Range.Contains, smallSpec, middleSpec, ecSpec, torqueQuantities]

/-- The smallest model gets another torque than the commanded one, half of its range. -/
theorem small_model_torque_rescaled :
    findMotorEcSpec "EC-A2806-P2-36" = some smallSpec ∧
      torqueQuantities.Of torqueCommand ∧ InRange smallSpec torqueQuantities ∧
      ¬ PushesFaithfully (pvtDriver "EC-A2806-P2-36") [pvtMotor "EC-A2806-P2-36"]
        (fun _ => Runtime.acceptingReply) {} 0 smallSpec torqueCommand torqueQuantities := by
  have hspec : findMotorEcSpec "EC-A2806-P2-36" = some smallSpec := by decide +kernel
  have hrange := torqueQuantities_inRange smallSpec (by simp)
  refine ⟨hspec, torqueQuantities_of, hrange, ?_⟩
  rw [pushesFaithfully_iff_makePvt _ (by decide) rfl rfl,
    makePvt_faithful_iff (findMotorEcSpec_mem hspec) torqueQuantities_of hrange]
  rintro ⟨_, j, ⟨hcell, _⟩, _, hwindow⟩
  norm_num [smallSpec, ecSpec, torqueQuantities] at hcell hwindow
  linarith

/-- A model of the encoder's own ranges gets the commanded torque. -/
theorem middle_model_torque_kept :
    PushesFaithfully (pvtDriver "EC-A4310-P2-36") [pvtMotor "EC-A4310-P2-36"]
      (fun _ => Runtime.acceptingReply) {} 0 middleSpec torqueCommand torqueQuantities := by
  have hspec : findMotorEcSpec "EC-A4310-P2-36" = some middleSpec := by decide +kernel
  have hmodel : (pvtMotor "EC-A4310-P2-36").ecSpec = findMotorEcSpec "EC-A4310-P2-36" := rfl
  have hall : ∀ (command : PvtCommand) (q : Quantities), q.Of command → InRange middleSpec q →
      PushesFaithfully (pvtDriver "EC-A4310-P2-36") [pvtMotor "EC-A4310-P2-36"]
        (fun _ => Runtime.acceptingReply) {} 0 middleSpec command q :=
    Iff.mpr (And.left (pushesFaithfully_iff _ (by decide) rfl rfl hmodel (hmodel.trans hspec)))
      ⟨rfl, rfl⟩
  exact hall torqueCommand torqueQuantities torqueQuantities_of
    (torqueQuantities_inRange middleSpec (by simp))

end ServoFleet.PvtScale
