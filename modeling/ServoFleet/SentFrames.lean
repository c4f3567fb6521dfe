import ServoFleet.ChannelCalls
import ServoFleet.DriverSends
import ServoFleet.ReceivedFeedback
import ServoFleet.SentPayloads

/-!
From the calls of `motor_driver::send` to the wire. However the threads interleave,
with the transmit thread and those that stop the channel too, what is encoded in a
packet stays until it is sent, so every datagram decodes to the frames of one call.
No thread is ever stuck in a call.
-/

namespace ServoFleet

open PacketPool UdpChannel

/-- The calls of the channel that a thread may be in. -/
def DriverPc.Calls (id : ClientId) : DriverPc → ClientPc → Prop
  | _, .idle => True
  | .preparing _, .preparing buffer => buffer = id
  | .returning _, .storing .. | .returning _, .pushing .. | .returning _, .notifying => True
  | .returning _, .releasing _ .busy | .returning _, .freeing _ .busy => True
  | .dropping .., .releasing _ (.destroy buffer) | .dropping .., .freeing _ (.destroy buffer) =>
      buffer = id
  | .discarding, .discarding | .discarding, .dropping .. => True
  | .discarding, .releasing _ .discard | .discarding, .freeing _ .discard => True
  | _, _ => False

/-- What a thread knows of its packet. -/
def DriverPc.Keeps (client : Client) (packet : Option PacketBuffer) : DriverPc → Prop
  | .idle | .discarding => packet = none
  | .preparing _ => client.pc = .idle →
      (client.result = .ok () ∧ ∃ owned ∈ packet, owned.owner = .this) ∨
        (client.result ≠ .ok () ∧ packet = none)
  | .encoding _ | .committing .. | .failing .. => ∃ owned ∈ packet, owned.owner = .this
  | .returning _ => packet.isSome
  | .dropping .. => client.pc = .idle → packet = none

/-- The packet a thread has encoded and not pushed yet. -/
def DriverPc.loads (client : Client) (packet : Option PacketBuffer) :
    DriverPc → Option (Slot × BitVec 32)
  | .committing _ size => packet.map fun owned => (owned.slot, BitVec.ofNat 32 size)
  | .returning _ => client.pc.offers
  | _ => none

/-- The frames of a call that has been pushed and has not returned yet. -/
def DriverPc.ahead (client : Client) : DriverPc → List (List CanFrame)
  | .returning frames =>
      if client.pc = .notifying ∨ (client.pc = .idle ∧ client.result = .ok ()) then [frames] else []
  | .dropping frames code => if code = .ok () then [frames] else []
  | _ => []

/-- The slot of the packet holds the frames as they go out. -/
def Loaded {slotCount : Nat} (pool : PacketPool slotCount) (packet : Slot × BitVec 32)
    (frames : List CanFrame) : Prop :=
  packet.2.toNat ≤ motorUdpPacketCap ∧
    ∃ bytes, pool.slotStart packet = some bytes ∧ MotorCodec.Carries bytes frames

/-! ## The steps of one thread -/

section Thread

variable {slotCount : Nat} {channel next : UdpChannel slotCount} {buffers after : Buffers}
  {id : ClientId} {client client' : Client} {pc pc' : DriverPc}

/-- A step of the channel that takes a thread from `pc` to `pc'`. -/
structure Acts (id : ClientId) (channel : UdpChannel slotCount) (buffers : Buffers)
    (client : Client) (pc : DriverPc) (next : UdpChannel slotCount) (after : Buffers)
    (client' : Client) (pc' : DriverPc) : Prop where
  calls : pc'.Calls id client'.pc
  keeps : pc'.Keeps client' (own after id id)
  others : after = buffers ∨ ∃ packet : Option PacketBuffer,
    after = Function.update buffers id (packet.map fun packet => { user := id, packet })
  loaded : ∀ packet, pc'.loads client' (own after id id) = some packet →
    pc'.frames = pc.frames ∧ (Loaded next.pool packet pc.frames ∨
      (pc.loads client (own buffers id id) = some packet ∧
        next.pool.slotStart = channel.pool.slotStart))
  ahead : pc'.ahead client' = pc.ahead client ++
    (next.commits.drop channel.commits.length).map fun _ => pc.frames

theorem own_remove (buffers : Buffers) (id : ClientId) :
    own (Function.update buffers id none) id id = none := by
  rw [own, Function.update_self]

/-- A step of a thread that commits nothing and has nothing to push after it. -/
theorem Acts.quiet (calls : pc'.Calls id client'.pc) (keeps : pc'.Keeps client' (own after id id))
    (others : after = buffers ∨ ∃ packet : Option PacketBuffer,
      after = Function.update buffers id (packet.map fun packet => { user := id, packet }))
    (commits : next.commits = channel.commits)
    (loads : pc'.loads client' (own after id id) = none)
    (ahead : pc'.ahead client' = pc.ahead client) :
    Acts id channel buffers client pc next after client' pc' where
  calls := calls
  keeps := keeps
  others := others
  loaded packet hloads := by
    rw [loads] at hloads
    cases hloads
  ahead := by rw [commits, List.drop_length, List.map_nil, List.append_nil, ahead]

theorem prepare_acts {frames : List CanFrame}
    (h : channel.clientStep buffers id .idle (.prepare id) = some (next, after, client')) :
    Acts id channel buffers client .idle next after client' (.preparing frames) := by
  change channel.prepareSend buffers id id = _ at h
  rw [prepareSend] at h
  split_ifs at h with hlive hstopped
  · obtain ⟨rfl, rfl, rfl⟩ := Prod.mk.inj (Option.some.inj h) |>.imp_right Prod.mk.inj
    refine .quiet trivial (fun _ => .inr ⟨by simp, ?_⟩) (.inl rfl) rfl rfl rfl
    rw [own]
    simp only [Option.isSome_iff_ne_none, not_not] at hlive
    rw [hlive]
  · obtain ⟨rfl, rfl, rfl⟩ := Prod.mk.inj (Option.some.inj h) |>.imp_right Prod.mk.inj
    exact .quiet rfl (by simp [DriverPc.Keeps]) (.inr ⟨some {}, rfl⟩) rfl rfl rfl

theorem discard_acts (hnone : own buffers id id = none)
    (h : channel.clientStep buffers id .idle .discard = some (next, after, client')) :
    Acts id channel buffers client .idle next after client' .discarding := by
  obtain ⟨rfl, rfl, rfl⟩ := Prod.mk.inj (Option.some.inj h) |>.imp_right Prod.mk.inj
  exact .quiet trivial hnone (.inl rfl) rfl rfl rfl

theorem commit_acts {frames : List CanFrame} {size : Nat}
    (hkeeps : ∃ owned ∈ own buffers id id, owned.owner = .this)
    (h : channel.clientStep buffers id .idle (.commit id (BitVec.ofNat 32 size)) =
      some (next, after, client')) :
    Acts id channel buffers client (.committing frames size) next after client'
      (.returning frames) := by
  obtain ⟨owned, hown, howner⟩ := hkeeps
  change channel.commitSend buffers id id _ = _ at h
  rw [commitSend, hown, Option.bind_eq_bind, Option.bind_some] at h
  split_ifs at h with hrefused hstopped
  · obtain ⟨rfl, rfl, rfl⟩ := Prod.mk.inj (Option.some.inj h) |>.imp_right Prod.mk.inj
    exact .quiet trivial (by rw [DriverPc.Keeps, hown]; rfl) (.inl rfl) rfl rfl
      (by simp [DriverPc.ahead])
  · obtain ⟨rfl, rfl, rfl⟩ := Prod.mk.inj (Option.some.inj h) |>.imp_right Prod.mk.inj
    exact .quiet trivial (by rw [DriverPc.Keeps, hown]; rfl) (.inl rfl) rfl rfl
      (by simp [DriverPc.ahead])
  · obtain ⟨rfl, rfl, rfl⟩ := Prod.mk.inj (Option.some.inj h) |>.imp_right Prod.mk.inj
    refine ⟨trivial, ?_, .inr ⟨some owned.clear, rfl⟩,
      fun packet hloads => ⟨rfl, .inr ⟨?_, rfl⟩⟩, ?_⟩
    · rw [DriverPc.Keeps, own_put_self]
      rfl
    · rw [DriverPc.loads, hown]
      exact hloads
    · rw [List.drop_length, List.map_nil, List.append_nil]
      simp [DriverPc.ahead]

/-- What `encode_into` leaves in the buffer it is given. -/
theorem encoded_packet {out written : List Byte} {frames : List CanFrame} {size : Nat}
    (h : MotorCodec.encodeInto out MotorCodec.typeUdp2can frames = some (.ok size, written)) :
    size ≤ out.length ∧ written.length = out.length ∧
      MotorCodec.Carries (written.take size) frames := by
  obtain ⟨hcount, hvalid, hroom⟩ := MotorCodec.encodeInto_checks out _ frames size written h
  rw [MotorCodec.encodeInto_ok out _ frames hcount hvalid hroom] at h
  simp only [Option.some.injEq, Prod.mk.injEq, Except.ok.injEq] at h
  obtain ⟨rfl, rfl⟩ := h
  have hlength := MotorCodec.packetBytes_length MotorCodec.typeUdp2can frames
  refine ⟨hroom, ?_, ?_⟩
  · rw [List.length_append, hlength, List.length_drop]
    omega
  · rw [← hlength, List.take_left]
    exact (MotorCodec.carries_iff _ frames).mpr ⟨_, by decide, hcount, hvalid, rfl⟩

theorem fill_keeps {owned : PacketBuffer} {bytes : List Byte}
    (hown : own buffers id id = some owned)
    (h : channel.clientStep buffers id .idle (.fillBuffer id bytes) = some (next, after, client')) :
    ∃ pool, channel.pool.fill owned.buffer bytes = some pool ∧
      next = { channel with pool } ∧ after = buffers ∧ client' = {} := by
  change (do
    let packet ← own buffers id id
    let pool ← channel.pool.fill packet.buffer bytes
    return ({ channel with pool }, buffers, {}) :
      Option (UdpChannel slotCount × Buffers × Client)) = _ at h
  rw [hown, Option.bind_eq_bind, Option.bind_some, Option.bind_eq_bind,
    Option.bind_eq_some_iff] at h
  obtain ⟨pool, hfill, h⟩ := h
  obtain ⟨rfl, rfl, rfl⟩ := Prod.mk.inj (Option.some.inj h) |>.imp_right Prod.mk.inj
  exact ⟨pool, hfill, rfl, rfl, rfl⟩

/-- The packet is encoded in its slot. -/
theorem encode_acts {owned : PacketBuffer} {frames : List CanFrame} {out written : List Byte}
    {size : Nat} (hcap : channel.pool.packetCap.toNat = motorUdpPacketCap)
    (haligned : AllAligned channel.pool.packetCap buffers)
    (hown : own buffers id id = some owned) (howner : owned.owner = .this)
    (hout : subspan channel.pool.storage owned.buffer.offset owned.buffer.length = some out)
    (hencode : MotorCodec.encodeInto out MotorCodec.typeUdp2can frames =
      some (.ok size, written))
    (h : channel.clientStep buffers id .idle (.fillBuffer id written) =
      some (next, after, client')) :
    Acts id channel buffers client (.encoding frames) next after client'
      (.committing frames size) := by
  obtain ⟨pool, hfill, rfl, rfl, rfl⟩ := fill_keeps hown h
  obtain ⟨hsize, hwritten, hcarries⟩ := encoded_packet hencode
  have hbuffer : owned.buffer = channel.pool.slotBuffer owned.slot :=
    (haligned.own hown).1 howner
  have hlength : out.length = motorUdpPacketCap := by
    rw [subspan_length hout, hbuffer, ← hcap]
    rfl
  have hfits : (BitVec.ofNat 32 size).toNat = size := by
    rw [BitVec.toNat_ofNat]
    refine Nat.mod_eq_of_lt ?_
    simp only [motorUdpPacketCap] at hlength
    omega
  refine ⟨trivial, ⟨owned, hown, howner⟩, .inl rfl, fun packet hloads => ⟨rfl, .inl ?_⟩, ?_⟩
  · rw [DriverPc.loads, hown] at hloads
    obtain rfl := Option.some.inj hloads
    have hstart : pool.slotStart (owned.slot, BitVec.ofNat 32 size) = some _ :=
      slotStart_first (by omega) (hbuffer ▸ hfill)
    refine ⟨by dsimp only; omega, _, hstart, ?_⟩
    rw [hfits]
    exact hcarries
  · rw [List.drop_length]
    rfl

theorem refuse_acts {owned : PacketBuffer} {frames : List CanFrame} {bytes : List Byte}
    {err : FleetErr} (hown : own buffers id id = some owned) (howner : owned.owner = .this)
    (h : channel.clientStep buffers id .idle (.fillBuffer id bytes) =
      some (next, after, client')) :
    Acts id channel buffers client (.encoding frames) next after client' (.failing frames err) := by
  obtain ⟨pool, _, rfl, rfl, rfl⟩ := fill_keeps hown h
  exact .quiet trivial ⟨owned, hown, howner⟩ (.inl rfl) rfl rfl rfl

/-- The packet goes out of scope, with its slot if it still has one. -/
theorem destroy_acts {frames : List CanFrame} {code : ErrCode}
    (hahead : pc.ahead client = if code = .ok () then [frames] else [])
    (h : channel.clientStep buffers id .idle (.destroy id) = some (next, after, client')) :
    Acts id channel buffers client pc next after client' (.dropping frames code) := by
  change channel.destroy buffers id id = _ at h
  rw [destroy, Option.bind_eq_bind, Option.bind_eq_some_iff] at h
  obtain ⟨owned, _, h⟩ := h
  split_ifs at h
  · obtain ⟨rfl, rfl, rfl⟩ := Prod.mk.inj (Option.some.inj h) |>.imp_right Prod.mk.inj
    exact .quiet rfl (by simp [DriverPc.Keeps]) (.inl rfl) rfl rfl hahead.symm
  · obtain ⟨rfl, rfl, rfl⟩ := Prod.mk.inj (Option.some.inj h) |>.imp_right Prod.mk.inj
    exact .quiet trivial (fun _ => own_remove buffers id) (.inr ⟨none, rfl⟩) rfl rfl hahead.symm

/-- `prepare_send` ends with a slot in the packet, or without the packet. -/
theorem slot_acts {frames : List CanFrame} {result : ErrCode}
    (h : channel.prepareSlot buffers id id = (next, after, client')) :
    Acts id channel buffers { pc := .preparing id, result } (.preparing frames) next after client'
      (.preparing frames) := by
  rw [prepareSlot] at h
  split at h <;> obtain ⟨rfl, rfl, rfl⟩ := Prod.mk.inj h |>.imp_right Prod.mk.inj
  · exact .quiet trivial (fun _ => .inl ⟨rfl, _, own_put_self .., rfl⟩) (.inr ⟨some _, rfl⟩)
      rfl rfl rfl
  · exact .quiet trivial (fun _ => .inr ⟨by simp, own_remove buffers id⟩) (.inr ⟨none, rfl⟩)
      rfl rfl rfl

/-- The push of a packet is where its call gets ahead of its return. -/
theorem push_acts {frames : List CanFrame} {slot : Slot} {size : BitVec 32} {result : ErrCode}
    (hsome : (own buffers id id).isSome) :
    Acts id channel buffers { pc := .pushing slot size, result } (.returning frames)
      (channel.pushSlot buffers slot size).1 (channel.pushSlot buffers slot size).2.1
      (channel.pushSlot buffers slot size).2.2 (.returning frames) := by
  rw [pushSlot]
  split
  · refine ⟨trivial, hsome, .inl rfl, fun packet hloads => ?_, ?_⟩
    · cases hloads
    · dsimp only
      rw [List.drop_left]
      simp [DriverPc.ahead, DriverPc.frames]
  · exact .quiet trivial hsome (.inl rfl) rfl rfl (by simp [DriverPc.ahead])

/-- A thread goes on in its call of the channel. -/
theorem advance_acts (hcalls : pc.Calls id client.pc) (hbusy : client.pc ≠ .idle)
    (hkeeps : pc.Keeps client (own buffers id id))
    (h : channel.advance buffers id client.pc = some (next, after, client')) :
    Acts id channel buffers client pc next after client' pc := by
  obtain ⟨position, result⟩ := client
  cases position with
  | idle => exact absurd rfl hbusy
  | acquired slot => cases h
  | taking target other => cases pc <;> cases hcalls
  | preparing buffer =>
      cases pc with
      | preparing frames =>
          obtain rfl : buffer = id := hcalls
          exact slot_acts (Option.some.inj h)
      | _ => cases hcalls
  | storing slot size =>
      cases pc with
      | returning frames =>
          rw [advance, Option.bind_eq_bind, Option.bind_eq_some_iff] at h
          obtain ⟨pool, hstore, h⟩ := h
          obtain ⟨rfl, rfl, rfl⟩ := Prod.mk.inj (Option.some.inj h) |>.imp_right Prod.mk.inj
          refine ⟨trivial, hkeeps, .inl rfl, fun packet hloads => ⟨rfl, .inr ⟨hloads, ?_⟩⟩, ?_⟩
          · exact (storeSize_storage hstore).slotStart
          rw [List.drop_length]
          simp [DriverPc.ahead]
      | _ => cases hcalls
  | pushing slot size =>
      cases pc with
      | returning frames =>
          obtain ⟨rfl, rfl, rfl⟩ := Prod.mk.inj (Option.some.inj h) |>.imp_right Prod.mk.inj
          exact push_acts hkeeps
      | _ => cases hcalls
  | notifying =>
      cases pc with
      | returning frames =>
          obtain ⟨rfl, rfl, rfl⟩ := Prod.mk.inj (Option.some.inj h) |>.imp_right Prod.mk.inj
          exact .quiet trivial hkeeps (.inl rfl) rfl rfl (by simp [DriverPc.ahead])
      | _ => cases hcalls
  | releasing slot continuation =>
      rw [advance, Option.bind_eq_bind, Option.bind_eq_some_iff] at h
      obtain ⟨pool, _, h⟩ := h
      obtain ⟨rfl, rfl, rfl⟩ := Prod.mk.inj (Option.some.inj h) |>.imp_right Prod.mk.inj
      cases pc <;> cases continuation <;>
        first
        | exact .quiet hcalls (fun hidle => by cases hidle) (.inl rfl) rfl rfl rfl
        | exact .quiet hcalls hkeeps (.inl rfl) rfl rfl (by simp [DriverPc.ahead])
        | cases hcalls
  | freeing slot continuation =>
      rw [advance, Option.bind_eq_bind, Option.bind_eq_some_iff] at h
      obtain ⟨⟨buffers', client''⟩, hreleased, h⟩ := h
      obtain ⟨rfl, rfl, rfl⟩ := Prod.mk.inj (Option.some.inj h) |>.imp_right Prod.mk.inj
      cases continuation with
      | assign target other => cases pc <;> cases hcalls
      | destroy buffer =>
          obtain ⟨rfl, rfl⟩ := Prod.mk.inj (Option.some.inj hreleased)
          cases pc with
          | dropping frames code =>
              obtain rfl : buffer = id := hcalls
              exact .quiet trivial (fun _ => own_remove buffers buffer) (.inr ⟨none, rfl⟩)
                rfl rfl rfl
          | _ => cases hcalls
      | busy =>
          obtain ⟨rfl, rfl⟩ := Prod.mk.inj (Option.some.inj hreleased)
          cases pc with
          | returning frames =>
              exact .quiet trivial hkeeps (.inl rfl) rfl rfl (by simp [DriverPc.ahead])
          | _ => cases hcalls
      | discard =>
          obtain ⟨rfl, rfl⟩ := Prod.mk.inj (Option.some.inj hreleased)
          cases pc with
          | discarding => exact .quiet trivial hkeeps (.inl rfl) rfl rfl rfl
          | _ => cases hcalls
  | discarding =>
      cases pc with
      | discarding =>
          have h : channel.discardSlot buffers = _ := Option.some.inj h
          rw [discardSlot] at h
          split at h <;> obtain ⟨rfl, rfl, rfl⟩ := Prod.mk.inj h |>.imp_right Prod.mk.inj
          · exact .quiet trivial hkeeps (.inl rfl) rfl rfl rfl
          · exact .quiet trivial hkeeps (.inl rfl) rfl rfl rfl
      | _ => cases hcalls
  | dropping slot index =>
      cases pc with
      | discarding =>
          rw [advance, Option.bind_eq_bind, Option.bind_eq_some_iff] at h
          obtain ⟨size, _, h⟩ := h
          obtain ⟨rfl, rfl, rfl⟩ := Prod.mk.inj (Option.some.inj h) |>.imp_right Prod.mk.inj
          exact .quiet trivial hkeeps (.inl rfl) rfl rfl rfl
      | _ => cases hcalls

end Thread

namespace DriverChannel

variable {slotCount : Nat}

/-- The packets of a thread that came into the pending queue. -/
def pushedBy (state : DriverChannel slotCount) (id : ClientId) : List (List CanFrame) :=
  (state.pushed.filter fun entry => entry.1 = id).map Prod.snd

/-- The calls of a thread that returned success. -/
def succeeded (state : DriverChannel slotCount) (id : ClientId) : List (List CanFrame) :=
  (state.returned.filter fun entry => entry.1 = id ∧ entry.2.2 = .ok ()).map fun entry => entry.2.1

def ahead (state : DriverChannel slotCount) (id : ClientId) : List (List CanFrame) :=
  (state.sends id).ahead (state.system.clients id)

def packetOf (state : DriverChannel slotCount) (id : ClientId) : Option PacketBuffer :=
  own state.system.buffers id id

/-- The packet a thread has encoded and not pushed yet. -/
def loads (state : DriverChannel slotCount) (id : ClientId) : Option (Slot × BitVec 32) :=
  (state.sends id).loads (state.system.clients id) (state.packetOf id)

/-- The invariant of a driver's channel, with the payloads committed so far. -/
structure Sound (state : DriverChannel slotCount) (payloads : Payloads) : Prop where
  delivers : state.system.Delivers payloads
  users : ∀ buffer object, state.system.buffers buffer = some object → object.user = buffer
  calls : ∀ id, (state.sends id).Calls id (state.system.clients id).pc
  keeps : ∀ id, (state.sends id).Keeps (state.system.clients id) (state.packetOf id)
  loaded : ∀ id packet, state.loads id = some packet →
    Loaded state.system.channel.pool packet (state.sends id).frames
  decodes : ∀ payload ∈ payloads.committed,
    ∃ bytes, payload = some bytes ∧ MotorCodec.Carries bytes (MotorCodec.framesOf bytes)
  carried : payloads.committed.map (fun payload => MotorCodec.framesOf (payload.getD [])) =
    state.pushed.map Prod.snd
  settled : ∀ id, state.pushedBy id = state.succeeded id ++ state.ahead id

section Step

variable {state next : DriverChannel slotCount} {payloads : Payloads} {id : ClientId}

/-- Only a thread that returns has a packet to push. -/
theorem loads_of_offers {pc : DriverPc} {client : Client} {buffers : Option PacketBuffer}
    {packet : Slot × BitVec 32} (hcalls : pc.Calls id client.pc)
    (hoffers : client.pc.offers = some packet) : pc.loads client buffers = some packet := by
  obtain ⟨position, result⟩ := client
  cases position with
  | storing slot size =>
      cases pc with
      | returning frames => exact hoffers
      | _ => cases hcalls
  | pushing slot size =>
      cases pc with
      | returning frames => exact hoffers
      | _ => cases hcalls
  | _ => cases hoffers

/-- A step of one thread leaves what another has encoded. -/
theorem Sound.kept (h : state.Sound payloads) {other : ClientId} (hne : other ≠ id)
    {action : ClientAction} {channel : UdpChannel slotCount} {buffers : Buffers} {client : Client}
    (hclient : state.system.channel.clientStep state.system.buffers id
      (state.system.clients id).pc action = some (channel, buffers, client))
    {packet : Slot × BitVec 32} (hloads : state.loads other = some packet) :
    channel.pool.slotStart packet = state.system.channel.pool.slotStart packet := by
  have hnoted := ChannelSystem.client_noted h.delivers hclient
  have hfits := (h.loaded other packet hloads).1
  have hkeeps := h.keeps other
  rw [loads] at hloads
  cases hpc : state.sends other with
  | returning frames =>
      rw [hpc] at hloads
      obtain ⟨hslot, hacquired, hbuffered⟩ := ChannelSystem.offered_apart h.delivers hne hloads
      exact hnoted.kept packet hslot hfits hacquired hbuffered
  | committing frames size =>
      rw [hpc] at hloads hkeeps
      obtain ⟨owned, hown, howner⟩ := hkeeps
      rw [DriverPc.loads, hown] at hloads
      obtain rfl := Option.some.inj hloads
      have hat : state.system.ledger.At owned.slot (.buffer other) :=
        (held_of_own hown).trans (held_of_this howner)
      refine hnoted.kept _ (h.delivers.valid.ledger.placed.isValid _ _ hat) hfits
        (fun hacquired => ?_) fun buffer held hmine hheld => ?_
      · have hcalls := h.calls id
        rw [hacquired] at hcalls
        cases hid : state.sends id <;> rw [hid] at hcalls <;> cases hcalls
      · -- a slot is in one packet only, and every packet is of its own thread
        cases h.delivers.valid.ledger.placed.unique _ _ (.buffer buffer) hat
          ((held_of_own hmine).trans hheld)
        exact hne (h.users other _ (own_eq_some.mp hmine)).symm
  | _ =>
      rw [hpc] at hloads
      cases hloads

/-- What a thread pushes carries the frames of its call. -/
theorem Sound.pushes (h : state.Sound payloads) {action : ClientAction}
    {channel : UdpChannel slotCount} {buffers : Buffers} {client : Client}
    (hclient : state.system.channel.clientStep state.system.buffers id
      (state.system.clients id).pc action = some (channel, buffers, client)) :
    channel.commits.drop state.system.channel.commits.length = [] ∨
      ∃ bytes, payloads.offered id = some bytes ∧
        MotorCodec.Carries bytes (state.sends id).frames := by
  rcases (ChannelSystem.client_noted h.delivers hclient).commits with
    hsame | ⟨packet, hoffers, _, _⟩
  · rw [hsame]
    exact .inl List.drop_length
  · obtain ⟨_, bytes, hstart, hcarries⟩ :=
      h.loaded id packet (loads_of_offers (h.calls id) hoffers)
    exact .inr ⟨bytes, (h.delivers.offered id packet hoffers).trans hstart, hcarries⟩

/-- A step of a thread in the channel keeps the invariant if it is one of the thread's own. -/
theorem Sound.act (h : state.Sound payloads) {action : ClientAction} {pc : DriverPc}
    (hact : state.act id action pc = some next) (hout : action.StaysOut)
    (hacts : ∀ channel buffers client,
      state.system.channel.clientStep state.system.buffers id (state.system.clients id).pc action =
        some (channel, buffers, client) →
      Acts id state.system.channel state.system.buffers (state.system.clients id) (state.sends id)
        channel buffers client pc) : ∃ payloads', next.Sound payloads' := by
  rw [DriverChannel.act, Option.bind_eq_bind, Option.bind_eq_some_iff] at hact
  obtain ⟨system, hstep, hact⟩ := hact
  obtain rfl := Option.some.inj hact
  have hwatched : ChannelSystem.watchedStep (state.system, payloads) (.client id action) =
      some (system, state.system.note system payloads (.client id action)) := by
    rw [ChannelSystem.watchedStep, hstep]
    rfl
  have hdelivers := ChannelSystem.watchedStep_delivers (state.system, payloads)
    (.client id action) _ h.delivers hout hwatched
  rw [ChannelSystem.step, Option.bind_eq_bind, Option.bind_eq_some_iff] at hstep
  obtain ⟨⟨channel, buffers, client⟩, hclient, hstep⟩ := hstep
  obtain rfl := Option.some.inj hstep
  have acts := hacts channel buffers client hclient
  have hpackets : ∀ other, other ≠ id → own buffers other other = state.packetOf other := by
    intro other hother
    rcases acts.others with rfl | ⟨packet, rfl⟩
    · rfl
    · rw [packetOf, own, own, Function.update_of_ne hother]
  refine ⟨_, hdelivers, fun buffer object hobject => ?_, fun other => ?_, fun other => ?_,
    fun other packet hloads => ?_, fun payload member => ?_, ?_, fun other => ?_⟩
  · rcases acts.others with rfl | ⟨packet, rfl⟩
    · exact h.users buffer object hobject
    · dsimp only at hobject
      by_cases hbuffer : buffer = id
      · subst hbuffer
        rw [Function.update_self, Option.map_eq_some_iff] at hobject
        obtain ⟨_, _, rfl⟩ := hobject
        rfl
      · rw [Function.update_of_ne hbuffer] at hobject
        exact h.users buffer object hobject
  · by_cases hother : other = id
    · subst hother
      simpa only [Function.update_self] using acts.calls
    · simpa only [Function.update_of_ne hother] using h.calls other
  · by_cases hother : other = id
    · subst hother
      simpa only [packetOf, Function.update_self] using acts.keeps
    · simpa only [packetOf, Function.update_of_ne hother, hpackets other hother] using h.keeps other
  · by_cases hother : other = id
    · subst hother
      simp only [loads, packetOf, Function.update_self] at hloads ⊢
      obtain ⟨hframes, hloaded | ⟨hbefore, hstart⟩⟩ := acts.loaded packet hloads
      · rw [hframes]
        exact hloaded
      · rw [hframes, Loaded, hstart]
        exact h.loaded other packet hbefore
    · simp only [loads, packetOf, Function.update_of_ne hother, hpackets other hother] at hloads ⊢
      rw [Loaded, h.kept hother hclient hloads]
      exact h.loaded other packet hloads
  · rcases List.mem_append.mp member with hold | hnew
    · exact h.decodes payload hold
    · obtain ⟨packet, hpacket, rfl⟩ := List.mem_map.mp hnew
      rcases h.pushes hclient with hnone | ⟨bytes, hbytes, hcarries⟩
      · rw [hnone] at hpacket
        cases hpacket
      · refine ⟨bytes, hbytes, ?_⟩
        rwa [MotorCodec.framesOf_carries hcarries]
  · simp only [ChannelSystem.note, List.map_append, h.carried, List.map_map]
    refine congrArg (state.pushed.map Prod.snd ++ ·) (List.map_congr_left fun packet member => ?_)
    rcases h.pushes hclient with hnone | ⟨bytes, hbytes, hcarries⟩
    · rw [hnone] at member
      cases member
    · simp only [Function.comp_apply, hbytes, Option.getD_some]
      exact MotorCodec.framesOf_carries hcarries
  · by_cases hother : other = id
    · subst hother
      have hpushed := h.settled other
      simp only [pushedBy, succeeded, ahead, Function.update_self] at hpushed ⊢
      rw [acts.ahead, ← List.append_assoc, ← hpushed, List.filter_append, List.map_append]
      simp
    · have hpushed := h.settled other
      simp only [pushedBy, succeeded, ahead, Function.update_of_ne hother] at hpushed ⊢
      rw [← hpushed, List.filter_append, List.map_append]
      simp [Ne.symm hother]

/-- A step of the others leaves the threads and what they have encoded. -/
theorem Sound.beside (h : state.Sound payloads) {action : Action}
    {system : ChannelSystem slotCount} (hstep : state.system.step action = some system)
    (hout : action.StaysOut)
    (hnote : state.system.note system payloads action = payloads)
    (hclients : system.clients = state.system.clients)
    (hbuffers : system.buffers = state.system.buffers)
    (hstart : system.channel.pool.slotStart = state.system.channel.pool.slotStart) :
    Sound { state with system } payloads := by
  have hwatched : ChannelSystem.watchedStep (state.system, payloads) action =
      some (system, payloads) := by
    rw [ChannelSystem.watchedStep, hstep, Option.bind_eq_bind, Option.bind_some, hnote]
    rfl
  have hpacket : packetOf { state with system } = state.packetOf := by
    funext id
    rw [packetOf, packetOf, hbuffers]
  refine ⟨ChannelSystem.watchedStep_delivers (state.system, payloads) action _ h.delivers hout
    hwatched, by rw [hbuffers]; exact h.users, by rw [hclients]; exact h.calls, fun id => ?_,
    fun id packet hloads => ?_, h.decodes, h.carried, fun id => ?_⟩
  · rw [hpacket, hclients]
    exact h.keeps id
  · rw [loads, hpacket, hclients] at hloads
    rw [Loaded, hstart]
    exact h.loaded id packet hloads
  · have hsettled := h.settled id
    rw [ahead] at hsettled ⊢
    rw [hclients]
    exact hsettled

/-- A step that a thread takes by itself, at the end of which it may have returned. -/
theorem Sound.goTo (h : state.Sound payloads) {pc : DriverPc}
    {returned : List (ClientId × List CanFrame × ErrCode)}
    (hidle : (state.system.clients id).pc = .idle)
    (hkeeps : pc.Keeps (state.system.clients id) (state.packetOf id))
    (hloads : pc.loads (state.system.clients id) (state.packetOf id) = none)
    (hothers : ∀ other, other ≠ id →
      succeeded { state with returned } other = state.succeeded other)
    (hsettled : succeeded { state with returned } id ++ pc.ahead (state.system.clients id) =
      state.succeeded id ++ state.ahead id) :
    Sound { state with sends := Function.update state.sends id pc, returned } payloads := by
  refine ⟨h.delivers, h.users, fun other => ?_, fun other => ?_, fun other packet hother => ?_,
    h.decodes, h.carried, fun other => ?_⟩
  · by_cases hsame : other = id
    · subst hsame
      dsimp only
      rw [Function.update_self, hidle]
      cases pc <;> trivial
    · simpa only [Function.update_of_ne hsame] using h.calls other
  · by_cases hsame : other = id
    · subst hsame
      simpa only [packetOf, Function.update_self] using hkeeps
    · simpa only [packetOf, Function.update_of_ne hsame] using h.keeps other
  · by_cases hsame : other = id
    · subst hsame
      simp only [loads, Function.update_self] at hother
      exact absurd (hloads.symm.trans hother) (by simp)
    · simp only [loads, packetOf, Function.update_of_ne hsame] at hother ⊢
      exact h.loaded other packet hother
  · by_cases hsame : other = id
    · subst hsame
      have hpushed := h.settled other
      simp only [ahead, Function.update_self] at hpushed ⊢
      exact hpushed.trans hsettled.symm
    · have hpushed := h.settled other
      simp only [ahead, Function.update_of_ne hsame] at hpushed ⊢
      exact hpushed.trans (congrArg (· ++ _) (hothers other hsame).symm)

theorem succeeded_returned (other : ClientId) (frames : List CanFrame) (code : ErrCode) :
    succeeded { state with returned := state.returned ++ [(id, frames, code)] } other =
      state.succeeded other ++ if id = other ∧ code = .ok () then [frames] else [] := by
  simp only [succeeded, List.filter_append, List.map_append]
  split_ifs with hmine <;> simp [hmine]

/-- A call returns what it has been ahead of. -/
theorem Sound.finish (h : state.Sound payloads) {frames : List CanFrame} {code : ErrCode}
    (hidle : (state.system.clients id).pc = .idle) (hnone : state.packetOf id = none)
    (hahead : state.ahead id = if code = .ok () then [frames] else []) :
    (state.finish id frames code).Sound payloads := by
  refine h.goTo hidle hnone rfl (fun other hother => ?_) ?_
  · rw [succeeded_returned, if_neg fun hmine => hother hmine.1.symm, List.append_nil]
  · rw [succeeded_returned, hahead]
    simp [DriverPc.ahead]

theorem Sound.encode (h : state.Sound payloads) {frames : List CanFrame}
    (hidle : (state.system.clients id).pc = .idle) (hpc : state.sends id = .encoding frames)
    (hencode : state.encode id frames = some next) : ∃ payloads', next.Sound payloads' := by
  have hkeeps := h.keeps id
  rw [hpc] at hkeeps
  obtain ⟨owned, hown, howner⟩ := hkeeps
  have hown : own state.system.buffers id id = some owned := hown
  rw [DriverChannel.encode, hown, Option.bind_eq_bind, Option.bind_some, Option.bind_eq_bind,
    Option.bind_eq_some_iff] at hencode
  obtain ⟨out, hout, hencode⟩ := hencode
  rw [Option.bind_eq_bind, Option.bind_eq_some_iff] at hencode
  obtain ⟨⟨encodedSize, written⟩, hwritten, hencode⟩ := hencode
  cases encodedSize with
  | error err =>
      refine h.act hencode trivial fun channel buffers client hclient => ?_
      rw [hidle] at hclient
      exact hpc ▸ refuse_acts hown howner hclient
  | ok size =>
      refine h.act hencode trivial fun channel buffers client hclient => ?_
      rw [hidle] at hclient
      exact hpc ▸ encode_acts h.delivers.arena.cap_toNat h.delivers.aligned hown howner hout
        hwritten hclient

theorem Sound.advance (h : state.Sound payloads) (hadvance : state.advance id = some next) :
    ∃ payloads', next.Sound payloads' := by
  have hkeeps := h.keeps id
  by_cases hidle : (state.system.clients id).pc = .idle
  · simp only [DriverChannel.advance, hidle, ne_eq, not_true_eq_false, if_false] at hadvance
    cases hpc : state.sends id with
    | idle =>
        rw [hpc] at hadvance
        cases hadvance
    | preparing frames =>
        rw [hpc] at hadvance hkeeps
        have hahead : state.ahead id = [] := by rw [ahead, hpc]; rfl
        rcases hkeeps hidle with ⟨hok, owned, hown, howner⟩ | ⟨herr, hnone⟩
        · simp only [hok, Option.some.injEq] at hadvance
          subst hadvance
          exact ⟨payloads, h.goTo hidle ⟨owned, hown, howner⟩ rfl (fun _ _ => rfl)
            (by rw [hahead]; rfl)⟩
        · cases hresult : (state.system.clients id).result with
          | ok _ => exact absurd hresult herr
          | error err =>
              simp only [hresult, Option.some.injEq] at hadvance
              subst hadvance
              exact ⟨payloads, h.finish hidle hnone (by rw [hahead]; simp)⟩
    | encoding frames =>
        rw [hpc] at hadvance
        exact h.encode hidle hpc hadvance
    | committing frames size =>
        rw [hpc] at hadvance hkeeps
        refine h.act hadvance trivial fun channel buffers client hclient => ?_
        rw [hidle] at hclient
        exact hpc ▸ commit_acts hkeeps hclient
    | returning frames =>
        rw [hpc] at hadvance
        refine h.act hadvance trivial fun channel buffers client hclient => ?_
        rw [hidle] at hclient
        exact hpc ▸ destroy_acts (by simp [DriverPc.ahead, hidle]) hclient
    | failing frames err =>
        rw [hpc] at hadvance
        refine h.act hadvance trivial fun channel buffers client hclient => ?_
        rw [hidle] at hclient
        exact hpc ▸ destroy_acts (by simp [DriverPc.ahead]) hclient
    | dropping frames code =>
        rw [hpc] at hadvance hkeeps
        obtain rfl := Option.some.inj hadvance
        exact ⟨payloads, h.finish hidle (hkeeps hidle) (by rw [ahead, hpc]; rfl)⟩
    | discarding =>
        rw [hpc] at hadvance hkeeps
        obtain rfl := Option.some.inj hadvance
        exact ⟨payloads, h.goTo hidle hkeeps rfl (fun _ _ => rfl) (by rw [ahead, hpc]; rfl)⟩
  · rw [DriverChannel.advance] at hadvance
    simp only [ne_eq, hidle, not_false_eq_true, if_true] at hadvance
    refine h.act hadvance trivial fun channel buffers client hclient => ?_
    rw [ChannelSystem.clientStep_advance] at hclient
    exact advance_acts (h.calls id) hidle hkeeps hclient

theorem Sound.idle (h : state.Sound payloads) (hpc : state.sends id = .idle) :
    (state.system.clients id).pc = .idle := by
  have hcalls := h.calls id
  rw [hpc] at hcalls
  generalize (state.system.clients id).pc = position at hcalls
  cases position with
  | idle => rfl
  | releasing slot continuation => cases continuation <;> cases hcalls
  | freeing slot continuation => cases continuation <;> cases hcalls
  | _ => cases hcalls

theorem Sound.step (h : state.Sound payloads) (action : DriverAction)
    (hstep : state.step action = some next) : ∃ payloads', next.Sound payloads' := by
  cases action with
  | send id frames =>
      rw [DriverChannel.step] at hstep
      split_ifs at hstep with hbusy hnone
      · exact ⟨payloads, Option.some.inj hstep ▸ h⟩
      · have hpc := not_not.mp hbusy
        refine h.act hstep trivial fun channel buffers client hclient => ?_
        rw [h.idle hpc] at hclient
        exact hpc ▸ prepare_acts hclient
  | discard id =>
      rw [DriverChannel.step] at hstep
      split_ifs at hstep with hbusy
      have hpc := not_not.mp hbusy
      have hkeeps := h.keeps id
      rw [hpc] at hkeeps
      refine h.act hstep trivial fun channel buffers client hclient => ?_
      rw [h.idle hpc] at hclient
      exact hpc ▸ discard_acts hkeeps hclient
  | advance id => exact h.advance hstep
  | tx action =>
      rw [DriverChannel.step, Option.bind_eq_bind, Option.bind_eq_some_iff] at hstep
      obtain ⟨system, hsystem, hstep⟩ := hstep
      obtain rfl := Option.some.inj hstep
      cases ChannelSystem.step_moves hsystem with
      | tx htx =>
          exact ⟨payloads,
            h.beside hsystem trivial rfl rfl rfl (txStep_moves htx).storage.slotStart⟩
  | stop taken =>
      rw [DriverChannel.step, Option.bind_eq_bind, Option.bind_eq_some_iff] at hstep
      obtain ⟨system, hsystem, hstep⟩ := hstep
      obtain rfl := Option.some.inj hstep
      refine ⟨payloads, ?_⟩
      cases taken with
      | stop =>
          cases ChannelSystem.step_moves hsystem
          exact h.beside hsystem trivial rfl rfl rfl rfl
      | requestStop =>
          cases ChannelSystem.step_moves hsystem
          exact h.beside hsystem trivial rfl rfl rfl rfl
      | cancelWait =>
          cases ChannelSystem.step_moves hsystem
          exact h.beside hsystem trivial rfl rfl rfl rfl

end Step

/-! ## No thread gets stuck -/

section Progress

variable {state : DriverChannel slotCount} {payloads : Payloads} {id : ClientId}

/-- The slot in the hands of a thread is one of the channel. -/
theorem slot_in_hand {system : ChannelSystem slotCount} (valid : system.Valid) {position : ClientPc}
    (hpc : (system.clients id).pc = position) {slot : Slot}
    (hitem : position.hand.item = some slot) : slot.toNat < slotCount := by
  refine valid.ledger.placed.isValid slot (.hands (.client id)) ?_
  change (system.clients id).pc.hand.item = some slot
  rw [hpc, hitem]

/-- A thread in a call of the channel can go on in it. -/
theorem Sound.advances (h : state.Sound payloads)
    (hbusy : (state.system.clients id).pc ≠ .idle) :
    (state.system.channel.advance state.system.buffers id (state.system.clients id).pc).isSome := by
  have hvalid := h.delivers.valid
  have hcalls := h.calls id
  have hknows := hvalid.clients id
  cases hpc : (state.system.clients id).pc with
  | idle => exact absurd hpc hbusy
  | acquired slot =>
      rw [hpc] at hcalls
      cases hsend : state.sends id <;> rw [hsend] at hcalls <;> cases hcalls
  | taking target other =>
      rw [hpc] at hcalls
      cases hsend : state.sends id <;> rw [hsend] at hcalls <;> cases hcalls
  | preparing buffer => rfl
  | pushing slot size => rfl
  | notifying => rfl
  | discarding => rfl
  | storing slot size =>
      obtain ⟨pool, hstore⟩ := Option.isSome_iff_exists.mp
        (state.system.channel.pool.storeSize_isSome slot size (slot_in_hand hvalid hpc rfl))
      rw [UdpChannel.advance, hstore]
      rfl
  | dropping slot index =>
      obtain ⟨size, hsize⟩ := Option.isSome_iff_exists.mp
        (state.system.channel.pool.packetSize_isSome slot (slot_in_hand hvalid hpc rfl))
      rw [UdpChannel.advance, hsize]
      rfl
  | releasing slot continuation =>
      rw [hpc] at hcalls hknows
      have hslot : slot.toNat < slotCount := by
        cases continuation with
        | busy => exact slot_in_hand hvalid hpc rfl
        | discard => exact slot_in_hand hvalid hpc rfl
        | destroy buffer =>
            obtain ⟨packet, hown, hheld⟩ := hknows
            exact hvalid.ledger.placed.isValid slot (.buffer buffer)
              ((held_of_own hown).trans hheld)
        | assign target other =>
            cases hsend : state.sends id <;> rw [hsend] at hcalls <;> cases hcalls
      obtain ⟨pool, hstore⟩ := Option.isSome_iff_exists.mp
        (state.system.channel.pool.storeSize_isSome slot 0 hslot)
      rw [UdpChannel.advance, hstore]
      rfl
  | freeing slot continuation =>
      cases continuation with
      | assign target other =>
          rw [hpc] at hcalls
          cases hsend : state.sends id <;> rw [hsend] at hcalls <;> cases hcalls
      | _ => rfl

theorem act_isSome {action : ClientAction} {pc : DriverPc}
    (h : (state.system.channel.clientStep state.system.buffers id (state.system.clients id).pc
      action).isSome) : (state.act id action pc).isSome := by
  obtain ⟨after, hafter⟩ := Option.isSome_iff_exists.mp h
  rw [DriverChannel.act, ChannelSystem.step, hafter]
  rfl

theorem Sound.encodes (h : state.Sound payloads) {frames : List CanFrame}
    (hidle : (state.system.clients id).pc = .idle) (hpc : state.sends id = .encoding frames) :
    (state.encode id frames).isSome := by
  have hkeeps := h.keeps id
  rw [hpc] at hkeeps
  obtain ⟨owned, hown, howner⟩ := hkeeps
  have hown : own state.system.buffers id id = some owned := hown
  have hat : state.system.ledger.At owned.slot (.buffer id) :=
    (held_of_own hown).trans (held_of_this howner)
  have hslot := h.delivers.valid.ledger.placed.isValid _ _ hat
  have hbuffer : owned.buffer = state.system.channel.pool.slotBuffer owned.slot :=
    (h.delivers.aligned.own hown).1 howner
  have hstart : ∃ out, state.system.channel.pool.slotStart
      (owned.slot, state.system.channel.pool.packetCap) = some out ∧ out.length = _ :=
    ChannelSystem.slotStart_isSome h.delivers.arena hslot h.delivers.arena.cap_toNat.le
  obtain ⟨out, hout, hlength⟩ := hstart
  have hout : subspan state.system.channel.pool.storage owned.buffer.offset owned.buffer.length =
      some out := hbuffer ▸ hout
  obtain ⟨encodedSize, written, hencode, hwritten⟩ : ∃ encodedSize written,
      MotorCodec.encodeInto out MotorCodec.typeUdp2can frames = some (encodedSize, written) ∧
        written.length = out.length := by
    by_cases hchecks : MotorCodec.Encodable out frames
    · have hencode := hchecks.run MotorCodec.typeUdp2can
      exact ⟨_, _, hencode, (encoded_packet hencode).2.1⟩
    · obtain ⟨err, hencode⟩ :=
        MotorCodec.encodeInto_refuses out MotorCodec.typeUdp2can frames hchecks
      exact ⟨_, _, hencode, rfl⟩
  have hfill : ∀ pc, (state.act id (.fillBuffer id written) pc).isSome := by
    intro pc
    refine act_isSome ?_
    have hinside := state.system.channel.pool.slotBuffer_inside
      (h.delivers.arena.cap_toNat ▸ h.delivers.arena.fits) hslot
    rw [← hbuffer, h.delivers.arena.cap_toNat, ← h.delivers.arena.storage] at hinside
    have hspan : owned.buffer.length = written.length := by
      rw [hwritten, subspan_length hout]
    rw [hidle]
    simp only [clientStep, hown, Option.bind_eq_bind, Option.bind_some]
    rw [PacketPool.fill, if_pos ⟨hspan.ge, hspan ▸ hinside⟩]
    rfl
  rw [DriverChannel.encode, hown, Option.bind_eq_bind, Option.bind_some, hout, Option.bind_eq_bind,
    Option.bind_some, hencode, Option.bind_eq_bind, Option.bind_some]
  cases encodedSize with
  | ok size => exact hfill _
  | error err => exact hfill _

theorem commit_isSome {channel : UdpChannel slotCount} {buffers : Buffers} {owned : PacketBuffer}
    (hown : own buffers id id = some owned) (size : BitVec 32) :
    (channel.clientStep buffers id .idle (.commit id size)).isSome := by
  change (channel.commitSend buffers id id size).isSome
  rw [commitSend, hown, Option.bind_eq_bind, Option.bind_some]
  split_ifs <;> rfl

theorem destroy_isSome {channel : UdpChannel slotCount} {buffers : Buffers} {owned : PacketBuffer}
    (hown : own buffers id id = some owned) :
    (channel.clientStep buffers id .idle (.destroy id)).isSome := by
  change (channel.destroy buffers id id).isSome
  rw [destroy, hown, Option.bind_eq_bind, Option.bind_some]
  split_ifs <;> rfl

/-- A thread in a call can take its next step, and one in none can begin one. -/
theorem Sound.ready (h : state.Sound payloads) (id : ClientId) :
    (state.sends id ≠ .idle → (state.step (.advance id)).isSome) ∧
      (state.sends id = .idle → (state.step (.discard id)).isSome ∧
        ∀ frames, (state.step (.send id frames)).isSome) := by
  have hkeeps := h.keeps id
  refine ⟨fun hbusy => ?_, fun hpc => ⟨?_, fun frames => ?_⟩⟩
  · by_cases hidle : (state.system.clients id).pc = .idle
    · simp only [DriverChannel.step, DriverChannel.advance, hidle, ne_eq, not_true_eq_false,
        if_false]
      cases hpc : state.sends id with
      | idle => exact absurd hpc hbusy
      | preparing frames => cases (state.system.clients id).result <;> rfl
      | encoding frames => exact h.encodes hidle hpc
      | dropping frames code => rfl
      | discarding => rfl
      | committing frames size =>
          rw [hpc] at hkeeps
          obtain ⟨owned, hown, _⟩ := hkeeps
          exact act_isSome (hidle ▸ commit_isSome hown _)
      | returning frames =>
          rw [hpc] at hkeeps
          obtain ⟨owned, hown⟩ := Option.isSome_iff_exists.mp hkeeps
          exact act_isSome (hidle ▸ destroy_isSome hown)
      | failing frames err =>
          rw [hpc] at hkeeps
          obtain ⟨owned, hown, _⟩ := hkeeps
          exact act_isSome (hidle ▸ destroy_isSome hown)
    · simp only [DriverChannel.step, DriverChannel.advance, ne_eq, hidle, not_false_eq_true,
        if_true]
      refine act_isSome ?_
      rw [ChannelSystem.clientStep_advance]
      exact h.advances hidle
  · simp only [DriverChannel.step, hpc, ne_eq, not_true_eq_false, if_false]
    refine act_isSome ?_
    rw [h.idle hpc]
    rfl
  · simp only [DriverChannel.step, hpc, ne_eq, not_true_eq_false, if_false]
    split_ifs
    · rfl
    · refine act_isSome ?_
      rw [h.idle hpc]
      change (state.system.channel.prepareSend state.system.buffers id id).isSome
      have hfresh : ¬ (state.system.buffers id).isSome = true := by
        intro hlive
        obtain ⟨⟨user, packet⟩, hobject⟩ := Option.isSome_iff_exists.mp hlive
        obtain rfl : user = id := h.users id _ hobject
        rw [hpc] at hkeeps
        exact absurd (hkeeps.symm.trans (own_eq_some.mpr hobject)) (by simp)
      rw [prepareSend, if_neg hfresh]
      split_ifs <;> rfl

end Progress

/-! ## Runs -/

theorem Sound.sent_pushed {state : DriverChannel slotCount} {payloads : Payloads}
    (h : state.Sound payloads) :
    (state.system.channel.sent.map MotorCodec.framesOf).Sublist (state.pushed.map Prod.snd) := by
  have hsent : (state.system.channel.sent.map some).Sublist payloads.committed :=
    h.delivers.sent.trans (List.take_sublist _ _)
  have hframes := hsent.map fun payload => MotorCodec.framesOf (payload.getD [])
  rw [h.carried, List.map_map] at hframes
  exact hframes

theorem Sound.sent_carries {state : DriverChannel slotCount} {payloads : Payloads}
    (h : state.Sound payloads) {bytes : List Byte} (member : bytes ∈ state.system.channel.sent) :
    MotorCodec.Carries bytes (MotorCodec.framesOf bytes) := by
  have hsent : (state.system.channel.sent.map some).Sublist payloads.committed :=
    h.delivers.sent.trans (List.take_sublist _ _)
  obtain ⟨same, hsame, hcarries⟩ :=
    h.decodes (some bytes) (hsent.subset (List.mem_map_of_mem member))
  obtain rfl := Option.some.inj hsame
  exact hcarries

theorem open_sound {sendQueueSlots : BitVec 32} {system : ChannelSystem sendQueueSlots.toNat}
    (hopen : ChannelSystem.openRealtime sendQueueSlots = some system) :
    Sound { system } ({} : Payloads) := by
  have hdelivers := ChannelSystem.openRealtime_delivers hopen
  rw [ChannelSystem.openRealtime, Option.bind_eq_bind, Option.bind_eq_some_iff] at hopen
  obtain ⟨storage, _, hopen⟩ := hopen
  obtain rfl := Option.some.inj hopen
  refine ⟨hdelivers, by simp [ChannelSystem.init], fun _ => trivial, fun _ => rfl,
    fun _ _ hloads => ?_, by simp, rfl, fun _ => rfl⟩
  cases hloads

/-- However the threads of a driver interleave, every datagram sent decodes without an
error, and what the datagrams decode to are the frames of calls of `send`, in the order in
which their packets were pushed and none twice. The packets a thread has pushed are those
of its calls that returned success and of the one that is about to. -/
theorem wire_carries_sends (sendQueueSlots : BitVec 32)
    (system : ChannelSystem sendQueueSlots.toNat)
    (hopen : ChannelSystem.openRealtime sendQueueSlots = some system)
    (actions : List DriverAction) (final : DriverChannel sendQueueSlots.toNat)
    (hrun : Steps.run step { system } actions = some final) :
    (∀ bytes ∈ final.system.channel.sent,
        MotorCodec.Carries bytes (MotorCodec.framesOf bytes)) ∧
      (final.system.channel.sent.map MotorCodec.framesOf).Sublist
        (final.pushed.map Prod.snd) ∧
      ∀ id, final.pushedBy id = final.succeeded id ++ final.ahead id ∧
        (final.sends id ≠ .idle → (final.step (.advance id)).isSome) ∧
        (final.sends id = .idle → (final.step (.discard id)).isSome ∧
          ∀ frames, (final.step (.send id frames)).isSome) := by
  have hsound : ∃ payloads, final.Sound payloads := by
    refine Steps.run_invariant (P := fun state => ∃ payloads, Sound state payloads) ?_ hrun
      ⟨{}, open_sound hopen⟩
    rintro state action next ⟨payloads, h⟩ hstep
    exact h.step action hstep
  obtain ⟨payloads, h⟩ := hsound
  exact ⟨fun bytes member => h.sent_carries member, h.sent_pushed,
    fun id => ⟨h.settled id, h.ready id⟩⟩

/-- Two threads send at the same time; the one that began last pushes first. -/
def crossingRun : List DriverAction :=
  let go := DriverAction.advance
  let sent : List DriverAction := [.tx .advance, .tx .advance, .tx .advance, .tx .advance,
    .tx (.limited (.ok ())), .tx (.checkSocket true), .tx (.attempt .sent), .tx .advance,
    .tx .advance]
  [.send 0 [{ id := 1, len := 2 }], go 0, .send 1 [{ id := 2 }, { id := 3 }], go 0, go 1, go 1,
    go 1, go 0, go 1, go 0, go 1, go 1, go 1, go 1, go 1] ++ sent ++ [go 0, go 0, go 0] ++ sent

theorem crossing_sends_arrive : ∃ system final, ChannelSystem.openRealtime 2 = some system ∧
    Steps.run step { system } crossingRun = some final ∧
    final.system.channel.sent.length = 2 ∧
    (final.system.channel.sent.map MotorCodec.framesOf).Sublist
      [[{ id := 2 }, { id := 3 }], [{ id := 1, len := 2 }]] ∧
    [[{ id := 2 }, { id := 3 }]] = final.succeeded 1 := by
  obtain ⟨system, hopen, hcrossing⟩ : ∃ system, ChannelSystem.openRealtime 2 = some system ∧
      (Steps.run step { system } crossingRun).map (fun state =>
        (state.system.channel.sent.length, state.pushed.map Prod.snd, state.succeeded 1)) =
      some (2, [[{ id := 2 }, { id := 3 }], [{ id := 1, len := 2 }]],
        [[{ id := 2 }, { id := 3 }]]) := ⟨_, rfl, by decide +kernel⟩
  obtain ⟨final, hrun, hfinal⟩ := Option.map_eq_some_iff.mp hcrossing
  rw [Prod.mk.injEq, Prod.mk.injEq] at hfinal
  obtain ⟨hsent, hpushed, hsucceeded⟩ := hfinal
  have hwire := (wire_carries_sends 2 system hopen crossingRun final hrun).2.1
  rw [hpushed] at hwire
  exact ⟨system, final, hopen, hrun, hsent, hwire, hsucceeded.symm⟩

end DriverChannel

end ServoFleet
