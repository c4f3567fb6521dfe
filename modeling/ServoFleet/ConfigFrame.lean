import ServoFleet.CommandEncode

/-!
The payload bytes of an accepted set frame.
-/

namespace ServoFleet.CanCodec

open CanField

theorem not_fail {err : FleetErr} {start frame : CanFrame}
    (h : FrameM.fail err start = some (.ok (), frame)) : False := by
  cases h

/-- The two bytes of a field that holds `raw`. -/
theorem bytes_of_get {frame : CanFrame} {k : Nat} (hk : k + 1 < 8) {raw : BitVec 16}
    (h : frame.get (.u16 (8 * k)) = raw.setWidth 32) :
    BigEndian.join16 (frame.byte k) (frame.byte (k + 1)) = raw := by
  rw [frame.get_u16 k hk, ← frame.byte_eq, ← frame.byte_eq] at h
  have hback := congrArg (BitVec.setWidth 16) h
  rwa [BitVec.setWidth_setWidth_of_le _ (by decide), BitVec.setWidth_setWidth_of_le _ (by decide),
    BitVec.setWidth_eq, BitVec.setWidth_eq] at hback

theorem makeConfigValue_bytes {address : CanAddr} {code : ConfigSetCode} {value : BitVec 16}
    {start frame : CanFrame}
    (h : makeConfigValue address code 4 value start = some (.ok (), frame)) :
    BigEndian.join16 (frame.byte 2) (frame.byte 3) = value := by
  obtain ⟨_, rfl⟩ := (makeConfigValue_does address start code value).of_ok h
  have member : { field := Config.value, raw := value.setWidth 32 } ∈
      (configValueLayout code value).values := List.mem_append_right _ List.mem_cons_self
  exact bytes_of_get (by decide) (Layout.get_frame (configValueLayout_fits code value)
    (configValueLayout_small code value) address member)

theorem makeConfigRange_bytes {address : CanAddr} {code : ConfigSetCode} {min max : BitVec 16}
    {start frame : CanFrame}
    (h : makeConfigRange address code min max start = some (.ok (), frame)) :
    BigEndian.join16 (frame.byte 2) (frame.byte 3) = min ∧
      BigEndian.join16 (frame.byte 4) (frame.byte 5) = max := by
  obtain ⟨_, rfl⟩ := (makeConfigRange_does address start code min max).of_ok h
  have hmin : { field := Config.min, raw := min.setWidth 32 } ∈
      (configRangeLayout code min max).values := List.mem_append_right _ List.mem_cons_self
  have hmax : { field := Config.max, raw := max.setWidth 32 } ∈
      (configRangeLayout code min max).values :=
    List.mem_append_right _ (List.mem_cons_of_mem _ List.mem_cons_self)
  have hfits := configRangeLayout_fits code min max
  have hsmall := configRangeLayout_small code min max
  exact ⟨bytes_of_get (by decide) (Layout.get_frame hfits hsmall address hmin),
    bytes_of_get (by decide) (Layout.get_frame hfits hsmall address hmax)⟩

/-- Only two accepted components make a frame. -/
theorem makeConfigPair_ok {address : CanAddr} {code : ConfigSetCode}
    {min max : Result (BitVec 16)} {start frame : CanFrame}
    (h : makeConfigPair address code min max start = some (.ok (), frame)) :
    min = .ok (BigEndian.join16 (frame.byte 2) (frame.byte 3)) ∧
      max = .ok (BigEndian.join16 (frame.byte 4) (frame.byte 5)) := by
  cases min with
  | error err => exact absurd h (by rw [makeConfigPair, FrameM.bind_check_error]; simp)
  | ok min =>
      cases max with
      | error err =>
          rw [makeConfigPair, FrameM.bind_check_ok, FrameM.bind_check_error] at h
          simp at h
      | ok max =>
          obtain ⟨hmin, hmax⟩ := @makeConfigRange_bytes _ _ _ _ start _ h
          exact ⟨congrArg Except.ok hmin.symm, congrArg Except.ok hmax.symm⟩

end ServoFleet.CanCodec
