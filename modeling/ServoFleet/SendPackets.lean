import ServoFleet.Theory.Chunk
import ServoFleet.MotorSend
import ServoFleet.RuntimeInit

/-!
The packets a call of `send_motor_commands` offers to the channels, against the
list of frames each driver should send.
-/

namespace ServoFleet

/-- What the channel answers to a packet that fits its buffer. -/
def ChannelReply.code (reply : ChannelReply) : ErrCode :=
  match reply.prepare with
  | .error refusal => .error refusal.err
  | .ok _ => reply.commit.mapError Refusal.err

/-- The channel decides: it takes the packet of the frames or refuses it. -/
structure Offer.Sound (reply : ChannelReply) (offer : Offer) : Prop where
  code : offer.code = reply.code
  outcome : (offer.code = .ok () ∧ ∃ bytes, offer.committed = some bytes ∧
      MotorCodec.Writes MotorCodec.typeUdp2can offer.frames bytes) ∨
    ∃ refusal : Refusal, offer.code = .error refusal.err ∧ offer.committed = none

theorem MotorDriver.send_sound (reply : ChannelReply) (frames : List CanFrame)
    (hsome : frames ≠ []) (hcount : frames.length ≤ maxFramesPerPacket)
    (hvalid : ∀ frame ∈ frames, frame.valid = true) :
    ∃ offer, send reply frames = some offer ∧ offer.frames = frames ∧ offer.Sound reply := by
  rw [send, if_neg hsome]
  cases hprepare : reply.prepare with
  | error refusal =>
      refine ⟨_, rfl, rfl, ?_, .inr ⟨refusal, rfl, rfl⟩⟩
      rw [ChannelReply.code, hprepare]
  | ok buffer =>
      have hsize : MotorCodec.packetSize (MotorCodec.payloadLenFor frames.length) ≤
          motorUdpPacketCap := by
        simp only [MotorCodec.packetSize, MotorCodec.payloadLenFor, MotorCodec.headerSz,
          MotorCodec.msgCntSz, MotorCodec.canEntrySz, MotorCodec.crcSz, MotorCodec.trailerSz,
          maxFramesPerPacket, motorUdpPacketCap] at hcount ⊢
        omega
      have hencode := MotorCodec.encodeInto_ok buffer.toList MotorCodec.typeUdp2can frames hcount
        hvalid (by simpa using hsize)
      have hcode : reply.code = reply.commit.mapError Refusal.err := by
        rw [ChannelReply.code, hprepare]
      have hcommit : reply.commitSend (MotorCodec.packetSize
          (MotorCodec.payloadLenFor frames.length)) = reply.commit.mapError Refusal.err := by
        rw [ChannelReply.commitSend, if_neg (by omega)]
      simp only [hencode, Option.bind_eq_bind, Option.bind_some, hcommit]
      cases hrefuse : reply.commit with
      | error refusal =>
          refine ⟨_, rfl, rfl, ?_, .inr ⟨refusal, rfl, rfl⟩⟩
          rw [hcode, hrefuse]
          rfl
      | ok _ =>
          refine ⟨_, rfl, rfl, ?_, .inl ⟨rfl, _, rfl, _, _, _, hencode, rfl⟩⟩
          rw [hcode, hrefuse]
          rfl

namespace BatchCommands

/-- Every frame the batch has taken in: those it has offered and those it holds. -/
def taken (batch : BatchCommands) : List CanFrame :=
  (batch.offers.map Offer.frames).flatten ++ batch.frames.toList.take batch.frameCount

/-- The batch has taken in `queued`: the first frames have been offered, 32 at a
time, and the others wait. -/
structure Queues (replies : Nat → ChannelReply) (batch : BatchCommands) (queued : List CanFrame) :
    Prop where
  count : batch.frameCount < maxFramesPerPacket
  full : ∀ offer ∈ batch.offers, offer.frames.length = maxFramesPerPacket
  sound : ∀ (j : Nat) (offer : Offer), batch.offers[j]? = some offer → offer.Sound (replies j)
  valid : ∀ frame ∈ batch.frames.toList.take batch.frameCount, frame.valid = true
  queued : batch.taken = queued

/-- What a step of a batch adds to its offers, and the code it returns for them. -/
def Adds (batch next : BatchCommands) (code : ErrCode) : Prop :=
  ∃ added, next.offers = batch.offers ++ added ∧
    (code = .ok () ↔ ∀ offer ∈ added, offer.code = .ok ())

variable {replies : Nat → ChannelReply} {batch : BatchCommands} {queued : List CanFrame}

theorem queues_empty : Queues replies {} [] where
  count := by decide
  full := by simp
  sound := by simp
  valid := by simp
  queued := rfl

private theorem sound_concat {offers : List Offer} {last : Offer}
    (h : ∀ (j : Nat) (offer : Offer), offers[j]? = some offer → offer.Sound (replies j))
    (hlast : last.Sound (replies offers.length)) (j : Nat) (offer : Offer)
    (hj : (offers ++ [last])[j]? = some offer) : offer.Sound (replies j) := by
  rcases getElem?_concat_cases hj with hold | ⟨rfl, rfl⟩
  · exact h j offer hold
  · exact hlast

/-- An encoding failure leaves no trace in what the batch will send. -/
theorem queues_scratch (h : Queues replies batch queued) (frame : CanFrame) :
    Queues replies { batch with frames := batch.frames.set batch.frameCount frame h.count }
      queued := by
  have htake : (batch.frames.set batch.frameCount frame h.count).toList.take batch.frameCount =
      batch.frames.toList.take batch.frameCount := by
    rw [Vector.toList_set, List.take_set_of_le (Nat.le_refl _)]
  exact {
    count := h.count
    full := h.full
    sound := h.sound
    valid := by simpa only [htake] using h.valid
    queued := by simpa only [taken, htake] using h.queued }

/-- The frames a batch holds once one more has been encoded into it. -/
theorem take_set_succ (frames : Vector CanFrame maxFramesPerPacket) (count : Nat)
    (h : count < maxFramesPerPacket) (frame : CanFrame) :
    (frames.set count frame).toList.take (count + 1) = frames.toList.take count ++ [frame] := by
  rw [Vector.toList_set, List.take_add_one, List.take_set_of_le (Nat.le_refl _),
    List.getElem?_set_self (by simpa using h)]
  rfl

/-- A batch that is flushed offers what it holds as one packet. -/
theorem flush_spec (replies : Nat → ChannelReply) (batch : BatchCommands)
    (hpos : 0 < batch.frameCount) (hcount : batch.frameCount ≤ maxFramesPerPacket)
    (hvalid : ∀ frame ∈ batch.frames.toList.take batch.frameCount, frame.valid = true) :
    ∃ offer, batch.flush replies = some (offer.code,
        { batch with frameCount := 0, offers := batch.offers ++ [offer] }) ∧
      offer.frames = batch.frames.toList.take batch.frameCount ∧
      offer.Sound (replies batch.offers.length) := by
  have hsome : 0 < (batch.frames.toList.take batch.frameCount).length := by
    rw [List.length_take, Vector.length_toList]
    exact Nat.lt_min.mpr ⟨hpos, by decide⟩
  obtain ⟨offer, hsend, hframes, hsound⟩ := MotorDriver.send_sound
    (replies batch.offers.length) (batch.frames.toList.take batch.frameCount)
    (List.ne_nil_of_length_pos hsome) (by simp [hcount]) hvalid
  refine ⟨offer, ?_, hframes, hsound⟩
  simp only [flush, if_neg (Nat.ne_of_gt hpos), hsend, Option.bind_eq_bind, Option.bind_some]
  rfl

/-- The step of a batch for a command that encodes: its frame is queued, and a
full batch is offered at once. -/
theorem push_frame {F : Type} {driver : MotorDriver} {motors : Motors F} {deviceSlot : Nat}
    {ref : DeviceRef} {device : MotorDevice F} {command : MotorCommand} {frame : CanFrame}
    (h : Queues replies batch queued) (href : driver.devices[deviceSlot]? = some ref)
    (hdevice : motors[ref]? = some device) (hvalid : frame.valid = true)
    (hrun : ∀ start, CanCodec.encode device.addr command start = some (.ok (), frame)) :
    ∃ code next, batch.push driver motors replies deviceSlot command = some (code, next) ∧
      Queues replies next (queued ++ [frame]) ∧ Adds batch next code := by
  have hheld := take_set_succ batch.frames batch.frameCount h.count frame
  have hqueued : ∀ held ∈ batch.frames.toList.take batch.frameCount ++ [frame],
      held.valid = true := by
    intro held member
    rcases List.mem_append.mp member with hold | hnew
    · exact h.valid held hold
    · rwa [List.mem_singleton.mp hnew]
  simp only [push, href, hdevice, Option.bind_eq_bind, Option.bind_some, dif_pos h.count, hrun]
  by_cases hfull : batch.frameCount + 1 = maxFramesPerPacket
  · rw [if_pos hfull]
    obtain ⟨offer, hflush, hframes, hsound⟩ := flush_spec replies
      { batch with
        frames := batch.frames.set batch.frameCount frame h.count
        frameCount := batch.frameCount + 1 }
      (Nat.succ_pos _) (Nat.le_of_eq hfull) (by rwa [hheld])
    rw [hheld] at hframes
    refine ⟨_, _, hflush, ?_, [offer], rfl, by simp⟩
    exact {
      count := by
        change 0 < maxFramesPerPacket
        decide
      full := by
        intro other member
        rcases List.mem_append.mp member with hold | hnew
        · exact h.full other hold
        · rw [List.mem_singleton.mp hnew, hframes, List.length_append, List.length_take,
            Vector.length_toList, List.length_singleton]
          omega
      sound := sound_concat h.sound hsound
      valid := by simp
      queued := by
        rw [taken, List.map_append, List.map_singleton, List.flatten_append,
          List.flatten_singleton, hframes, List.take_zero, List.append_nil, ← List.append_assoc]
        exact congrArg (· ++ [frame]) h.queued }
  · rw [if_neg hfull]
    refine ⟨_, _, rfl, ?_, [], (List.append_nil _).symm, by simp⟩
    exact {
      count := by
        have hlt := h.count
        change batch.frameCount + 1 < maxFramesPerPacket
        omega
      full := h.full
      sound := h.sound
      valid := by rwa [hheld]
      queued := by
        rw [taken, hheld, ← List.append_assoc]
        exact congrArg (· ++ [frame]) h.queued }

/-- The step of a batch for a command that does not encode. -/
theorem push_error {F : Type} {driver : MotorDriver} {motors : Motors F} {deviceSlot : Nat}
    {ref : DeviceRef} {device : MotorDevice F} {command : MotorCommand} {err : FleetErr}
    (h : Queues replies batch queued) (href : driver.devices[deviceSlot]? = some ref)
    (hdevice : motors[ref]? = some device)
    (hrun : ∀ start, ∃ after,
      CanCodec.encode device.addr command start = some (.error err, after)) :
    ∃ next, batch.push driver motors replies deviceSlot command = some (.error err, next) ∧
      Queues replies next queued ∧ next.offers = batch.offers := by
  have hcount := h.count
  obtain ⟨after, hafter⟩ := hrun batch.frames[batch.frameCount]
  simp only [push, href, hdevice, Option.bind_eq_bind, Option.bind_some, dif_pos hcount, hafter]
  exact ⟨_, rfl, queues_scratch h after, rfl⟩

/-- The last flush: the offers are the queued frames in packets of 32. -/
theorem flush_queues (h : Queues replies batch queued) :
    ∃ code next, batch.flush replies = some (code, next) ∧ Adds batch next code ∧
      next.offers.map Offer.frames = queued.toChunks maxFramesPerPacket ∧
      ∀ (j : Nat) (offer : Offer), next.offers[j]? = some offer → offer.Sound (replies j) := by
  have hfull : ∀ piece ∈ batch.offers.map Offer.frames, piece.length = maxFramesPerPacket := by
    intro piece member
    obtain ⟨offer, hoffer, rfl⟩ := List.mem_map.mp member
    exact h.full offer hoffer
  by_cases hzero : batch.frameCount = 0
  · refine ⟨.ok (), batch, if_pos hzero, ⟨[], (List.append_nil _).symm, by simp⟩, ?_, h.sound⟩
    rw [← h.queued, taken, hzero, List.take_zero, List.append_nil,
      Chunk.toChunks_flatten (by decide) _ hfull]
  · obtain ⟨offer, hflush, hframes, hsound⟩ := flush_spec replies batch
      (Nat.pos_of_ne_zero hzero) (Nat.le_of_lt h.count) h.valid
    refine ⟨_, _, hflush, ⟨[offer], rfl, by simp⟩, ?_, sound_concat h.sound hsound⟩
    have hlen : (batch.frames.toList.take batch.frameCount).length = batch.frameCount := by
      rw [List.length_take, Vector.length_toList]
      exact Nat.min_eq_left (Nat.le_of_lt h.count)
    rw [List.map_append, List.map_singleton, hframes, ← h.queued, taken,
      Chunk.toChunks_flatten_append (by decide) _ hfull]
    · intro hnil
      rw [hnil] at hlen
      exact hzero hlen.symm
    · rw [hlen]
      exact Nat.le_of_lt h.count

end BatchCommands

end ServoFleet
