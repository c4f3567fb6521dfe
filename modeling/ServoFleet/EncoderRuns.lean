import ServoFleet.FrameLayout
import ServoFleet.ScaledValues

/-!
Runs of encoders. An encoder clears the frame, rounds its quantities and writes its
fields; whether it accepts and which frame it makes follow from the list of its checks
and the list of its fields.
-/

namespace ServoFleet.CanCodec

open BitCodec

/-- The writes of an encoder. -/
def writes : List FieldValue → FrameM Unit
  | [] => pure ()
  | [value] => write value.field value.raw
  | value :: next :: rest => do
      write value.field value.raw
      writes (next :: rest)

/-- From a frame the encoder makes another one or refuses its input. -/
structure Does (step : FrameM Unit) (start : CanFrame) (accepted : Prop) (frame : CanFrame) :
    Prop where
  ok : accepted → step start = some (.ok (), frame)
  refuses : ¬ accepted → ∃ after, step start = some (.error .invalidArgument, after)

section Does

variable {start frame : CanFrame} {accepted : Prop}

theorem Does.of_ok {step : FrameM Unit} {made : CanFrame} (h : Does step start accepted frame)
    (hrun : step start = some (.ok (), made)) : accepted ∧ made = frame := by
  by_cases haccepted : accepted
  · have hsame := hrun.symm.trans (h.ok haccepted)
    exact ⟨haccepted, (Prod.mk.inj (Option.some.inj hsame)).2⟩
  · obtain ⟨after, hrefused⟩ := h.refuses haccepted
    cases hrun.symm.trans hrefused

theorem does_congr {step : FrameM Unit} {accepted' : Prop} (h : Does step start accepted frame)
    (hiff : accepted ↔ accepted') : Does step start accepted' frame := by
  obtain rfl := propext hiff
  exact h

theorem does_fail : Does (FrameM.fail .invalidArgument) start False frame :=
  ⟨nofun, fun _ => ⟨start, rfl⟩⟩

theorem does_init (id : CanId) (port : CanPort) (len : Byte) {rest : FrameM Unit}
    (hrest : Does rest { port, id, len } accepted frame) :
    Does (initFrame id port len >>= fun _ => rest) start accepted frame :=
  ⟨hrest.ok, hrest.refuses⟩

theorem does_check {check : Result (BitVec 16)} {quantity : Option ℚ} {low high : Int}
    {next : BitVec 16 → FrameM Unit} (hcheck : Judges check quantity low high)
    (hnext : Does (next (nearest quantity)) start accepted frame) :
    Does (FrameM.check check >>= next) start (RoundsInto quantity low high ∧ accepted) frame := by
  by_cases hround : RoundsInto quantity low high
  · rw [hcheck.ok hround]
    exact does_congr hnext (and_iff_right hround).symm
  · rw [hcheck.refuses hround]
    exact ⟨fun h => absurd h.1 hround, fun _ => ⟨start, rfl⟩⟩

theorem does_write (value : FieldValue) (hfit : start.Fits value.field) :
    Does (write value.field value.raw) start value.Small (start.put value.field value.raw) :=
  ⟨start.write_eq value.field value.raw hfit,
    fun h => ⟨start, start.write_error value.field value.raw hfit.1 h⟩⟩

theorem does_bind {first rest : FrameM Unit} {middle : CanFrame} {accepted' : Prop}
    (hfirst : Does first start accepted middle) (hrest : Does rest middle accepted' frame) :
    Does (first >>= fun _ => rest) start (accepted ∧ accepted') frame := by
  constructor
  · rintro ⟨haccepted, haccepted'⟩
    rw [FrameM.bind_ok _ _ _ _ _ (hfirst.ok haccepted)]
    exact hrest.ok haccepted'
  · intro hrefused
    by_cases haccepted : accepted
    · rw [FrameM.bind_ok _ _ _ _ _ (hfirst.ok haccepted)]
      exact hrest.refuses fun h => hrefused ⟨haccepted, h⟩
    · obtain ⟨after, hrun⟩ := hfirst.refuses haccepted
      refine ⟨after, ?_⟩
      change FrameM.bind first _ start = _
      rw [FrameM.bind, hrun]

/-- Fields inside the frame are all written unless a number does not fit. -/
theorem does_writes (values : List FieldValue) (start : CanFrame)
    (hfits : ∀ value ∈ values, start.Fits value.field) :
    Does (writes values) start (∀ value ∈ values, value.Small) (start.fill values) := by
  induction values generalizing start with
  | nil => exact ⟨fun _ => rfl, fun h => absurd (by simp) h⟩
  | cons value rest ih =>
      obtain ⟨hvalue, hrest⟩ := List.forall_mem_cons.mp hfits
      have hwrite := does_write value hvalue
      have htail := ih (start.put value.field value.raw) hrest
      cases rest with
      | nil => exact does_congr hwrite (by simp)
      | cons next rest =>
          exact does_congr (does_bind hwrite htail) List.forall_mem_cons.symm

end Does

end ServoFleet.CanCodec
