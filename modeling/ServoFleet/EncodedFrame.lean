import ServoFleet.CommandEncode

/-!
What every encoder shares: it starts from a cleared frame, so its outcome does
not depend on the caller's, and what it hands out is a standard frame of the
addressed motor.
-/

namespace ServoFleet.CanCodec

/-- The outcome is one frame for the address, or one error code, whatever the
caller's frame held before. -/
inductive Encodes (address : CanAddr) (step : FrameM Unit) : Prop
  | frame (frame : CanFrame) (port : frame.port = address.canPort) (id : frame.id = address.canId)
      (standard : frame.extended = false) (len : frame.len.toNat ≤ maxCanDataLen)
      (run : ∀ start, step start = some (.ok (), frame))
  | error (err : FleetErr) (run : ∀ start, ∃ after, step start = some (.error err, after))

/-- Every command type encodes into a standard frame of its motor or fails,
independently of the frame it is given. -/
theorem encode_encodes (address : CanAddr) (command : MotorCommand) :
    Encodes address (encode address command) := by
  have hdoes := fun start => encodeWith_does address start .folded command
  by_cases haccepted : Accepted command
  · obtain ⟨hport, hid, hstandard, hlen⟩ := CanFrame.fill_address
      { port := address.canPort, id := address.canId, len := (sent .folded command).len }
      (sent .folded command).values
    apply Encodes.frame ((sent .folded command).frame address) hport hid hstandard
    · have hfits := layoutWith_fits F32.bits .regenerativeBrake command
      exact hlen ▸ hfits.1
    · exact fun start => (hdoes start).ok haccepted
  · exact .error .invalidArgument fun start => (hdoes start).refuses haccepted

end ServoFleet.CanCodec
