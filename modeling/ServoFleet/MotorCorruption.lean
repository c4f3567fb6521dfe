import ServoFleet.MotorRoundTrip

/-!
Damaged packets. An error pattern that leaves the header fields alone is judged by
the checksum, and the checksum of a difference is the difference of the checksums.

Corruptions that change the number of bytes are left out, and so are even numbers of
bits, from four on, that lie further apart than a burst.
-/

namespace ServoFleet.MotorCodec

open Checksum

/-! ## The generator -/

theorem crc16CcittPoly_odd : crc16CcittPoly.getLsbD 0 = true := by
  decide

theorem crc16CcittPoly_parity : Crc.parity crc16CcittPoly = 1 := by
  decide +kernel

/-- The powers of `x` do not repeat within the bits of the largest packet. -/
theorem crc16CcittPoly_aperiodic : Crc.Aperiodic crc16CcittPoly 4096 := by
  apply Crc.aperiodic_of_apart
  decide +kernel

/-! ## Flipped bits -/

/-- Which bits differ, in the order the checksum consumes them. -/
def flipped (sent received : List Byte) : List Bool :=
  List.zipWith (· ^^ ·) (bits sent) (bits received)

theorem flipped_append (sent₁ sent₂ received₁ received₂ : List Byte)
    (h : sent₁.length = received₁.length) :
    flipped (sent₁ ++ sent₂) (received₁ ++ received₂) =
      flipped sent₁ received₁ ++ flipped sent₂ received₂ := by
  rw [flipped, bits_append, bits_append, List.zipWith_append (by simp [h])]
  rfl

theorem flipped_length (sent received : List Byte) (h : sent.length = received.length) :
    (flipped sent received).length = 8 * sent.length := by
  simp [flipped, h]

theorem flipped_self (bytes : List Byte) :
    flipped bytes bytes = List.replicate (8 * bytes.length) false := by
  rw [flipped, List.zipWith_self, ← bits_length]
  simp

/-- The differences that must be noticed: an odd number of bits, two bits, or
some bits inside sixteen consecutive ones of the checksummed bytes. -/
inductive Corrupts (sent received : List Byte) : Prop
  | odd (h : Odd (Crc.weight (flipped sent received)))
  | pair (h : Crc.weight (flipped sent received) = 2)
  | burst (start : Nat) (hset : true ∈ flipped sent received)
      (h : ∀ i, (flipped sent received)[i]? = some true →
        start ≤ i ∧ i < start + 16 ∧ 8 ≤ i ∧ i < 8 * (sent.length - 3))

/-! ## The bits of the check field -/

private theorem byte_parity (byte : Byte) :
    (Crc.weight (byteBits byte) : ZMod 2) = Crc.parity byte := by
  revert byte
  decide +kernel

private theorem byte_weight_zero (byte : Byte) : Crc.weight (byteBits byte) = 0 → byte = 0 := by
  revert byte
  decide +kernel

private theorem byte_weight_one (byte : Byte) :
    Crc.weight (byteBits byte) = 1 → ∃ i : Fin 8, byte = BitVec.twoPow 8 i := by
  revert byte
  decide +kernel

private theorem byte_flipped (a b : Byte) :
    List.zipWith (· ^^ ·) (byteBits a) (byteBits b) = byteBits (a ^^^ b) := by
  apply List.ext_getElem
  · simp
  · intro i hi _
    simp [byteBits]

private theorem parity_join16 (b0 b1 : Byte) :
    Crc.parity (BigEndian.join16 b0 b1) = Crc.parity b0 + Crc.parity b1 := by
  have hsplit : Crc.parity (BigEndian.join16 b0 b1) = _ :=
    Crc.parity_split (a := 8) (b := 8) (BigEndian.join16 b0 b1)
  rw [hsplit, add_comm]
  refine congrArg₂ (· + ·) ?_ ?_
  · apply Finset.sum_congr rfl
    intro i _
    simp [BigEndian.join16, (by omega : 8 + i.val < 16)]
  · apply Finset.sum_congr rfl
    intro i _
    simp [BigEndian.join16, (by omega : i.val < 16)]

private theorem low_twoPow :
    ∀ i : Fin 8, BigEndian.join16 0 (BitVec.twoPow 8 i) = BitVec.twoPow 16 i := by
  decide +kernel

private theorem high_twoPow :
    ∀ i : Fin 8, BigEndian.join16 (BitVec.twoPow 8 i) 0 = BitVec.twoPow 16 (i + 8) := by
  decide +kernel

section CheckField

variable (d0 d1 : Byte)

private theorem weight_pair :
    Crc.weight (bits [d0, d1]) = Crc.weight (byteBits d0) + Crc.weight (byteBits d1) := by
  simp [Crc.weight]

private theorem check_parity :
    Crc.parity (BigEndian.join16 d1 d0) = (Crc.weight (bits [d0, d1]) : ZMod 2) := by
  rw [parity_join16, weight_pair, Nat.cast_add, byte_parity, byte_parity, add_comm]

private theorem check_weight_zero (h : Crc.weight (bits [d0, d1]) = 0) :
    BigEndian.join16 d1 d0 = 0 := by
  rw [weight_pair] at h
  rw [byte_weight_zero d0 (by omega), byte_weight_zero d1 (by omega)]
  rfl

private theorem check_weight_one (h : Crc.weight (bits [d0, d1]) = 1) :
    ∃ i, i < 16 ∧ BigEndian.join16 d1 d0 = BitVec.twoPow 16 i := by
  rw [weight_pair] at h
  rcases (by omega : (Crc.weight (byteBits d0) = 1 ∧ Crc.weight (byteBits d1) = 0) ∨
    (Crc.weight (byteBits d0) = 0 ∧ Crc.weight (byteBits d1) = 1)) with ⟨h0, h1⟩ | ⟨h0, h1⟩
  · obtain ⟨i, hi⟩ := byte_weight_one d0 h0
    refine ⟨i, by omega, ?_⟩
    rw [hi, byte_weight_zero d1 h1]
    exact low_twoPow i
  · obtain ⟨i, hi⟩ := byte_weight_one d1 h1
    refine ⟨i + 8, by omega, ?_⟩
    rw [hi, byte_weight_zero d0 h0]
    exact high_twoPow i

end CheckField

/-! ## Undetected differences -/

/-- Two checked bodies with matching check fields: the difference of the fields
is the remainder of the difference of the bodies. -/
theorem remainder_flipped (sent received : List Byte) (c0 c1 c0' c1' : Byte)
    (hlen : sent.length = received.length)
    (hsent : bodyCrc sent = BigEndian.join16 c1 c0)
    (hreceived : bodyCrc received = BigEndian.join16 c1' c0') :
    Crc.remainder crc16CcittPoly (flipped sent received) =
      BigEndian.join16 (c1 ^^^ c1') (c0 ^^^ c0') := by
  rw [bodyCrc] at hsent hreceived
  rw [flipped, Crc.remainder_xor _ _ _ (by simp [hlen]), hsent, hreceived]
  exact BigEndian.join16_xor c1 c0 c1' c0'

section Undetected

variable (error : List Bool) (d0 d1 : Byte)

/-- No error pattern of the listed kinds is a multiple of the generator. -/
theorem undetected_weight (hlen : error.length + 15 ≤ 4096)
    (h : Crc.remainder crc16CcittPoly error = BigEndian.join16 d1 d0) :
    ¬ Odd (Crc.weight error + Crc.weight (bits [d0, d1])) ∧
      Crc.weight error + Crc.weight (bits [d0, d1]) ≠ 2 := by
  constructor
  · intro hodd
    have hparity := Crc.parity_remainder crc16CcittPoly (by decide) crc16CcittPoly_parity error
    rw [h, check_parity] at hparity
    have hsum : ((Crc.weight error + Crc.weight (bits [d0, d1]) : Nat) : ZMod 2) = 0 := by
      rw [Nat.cast_add, hparity, CharTwo.add_self_eq_zero]
    rw [ZMod.natCast_eq_zero_iff_even] at hsum
    exact (Nat.not_even_iff_odd.mpr hodd) hsum
  · intro htwo
    rcases (by omega : Crc.weight error = 0 ∧ Crc.weight (bits [d0, d1]) = 2 ∨
      Crc.weight error = 1 ∧ Crc.weight (bits [d0, d1]) = 1 ∨
      Crc.weight error = 2 ∧ Crc.weight (bits [d0, d1]) = 0) with
      ⟨herror, hcheck⟩ | ⟨herror, hcheck⟩ | ⟨herror, hcheck⟩
    · rw [Crc.remainder_weight_zero _ _ herror] at h
      have hbytes := BigEndian.split16_join d1 d0
      rw [← h] at hbytes
      have hzero : d1 = 0 ∧ d0 = 0 := by
        simp only [BigEndian.split16, List.cons.injEq, and_true] at hbytes
        exact ⟨hbytes.1.symm, hbytes.2.symm⟩
      rw [hzero.1, hzero.2] at hcheck
      revert hcheck
      decide
    · obtain ⟨i, hi, hfield⟩ := check_weight_one d0 d1 hcheck
      exact Crc.remainder_weight_one_ne_twoPow _ crc16CcittPoly_aperiodic error hlen herror i hi
        (h.trans hfield)
    · refine Crc.remainder_weight_two _ crc16CcittPoly_odd crc16CcittPoly_aperiodic error
        (by omega) herror ?_
      rw [h, check_weight_zero d0 d1 hcheck]

end Undetected

section DecodeEach

variable {σ : Type} (handler : σ → CanFrame → σ)

theorem flipped_layout (first type len0 len1 : Byte) (payload : List Byte)
    (crc0 crc1 last : Byte) (type' len0' len1' : Byte) (payload' : List Byte)
    (crc0' crc1' : Byte) (hlen : payload.length = payload'.length) :
    flipped (layout first type len0 len1 payload crc0 crc1 last)
        (layout first type' len0' len1' payload' crc0' crc1' last) =
      List.replicate 8 false ++
        flipped (type :: len0 :: len1 :: payload) (type' :: len0' :: len1' :: payload') ++
        bits [crc0 ^^^ crc0', crc1 ^^^ crc1'] ++ List.replicate 8 false := by
  have hcut : ∀ (t l0 l1 : Byte) (p : List Byte) (c0 c1 : Byte),
      layout first t l0 l1 p c0 c1 last =
        [first] ++ (t :: l0 :: l1 :: p) ++ [c0, c1] ++ [last] := by
    intro t l0 l1 p c0 c1
    simp [layout]
  have hcheck : flipped [crc0, crc1] [crc0', crc1'] = bits [crc0 ^^^ crc0', crc1 ^^^ crc1'] := by
    simp only [flipped, bits_cons, bits_nil, List.append_nil]
    rw [List.zipWith_append (by simp), byte_flipped, byte_flipped]
  rw [hcut, hcut, flipped_append _ _ _ _ (by simp [hlen]), flipped_append _ _ _ _ (by simp [hlen]),
    flipped_append _ _ _ _ (by simp), flipped_self, flipped_self, hcheck]
  rfl

/-- Where the flipped bits of the body and of the checksum stand in the packet. -/
private theorem flip_positions (error check : List Bool) (i : Nat) (hi : i < error.length) :
    (List.replicate 8 false ++ error ++ check ++ List.replicate 8 false)[8 + i]? = error[i]? := by
  rw [List.append_assoc, List.append_assoc, List.getElem?_append_right (by simp),
    List.length_replicate, Nat.add_sub_cancel_left, List.getElem?_append_left hi]

private theorem check_positions (error check : List Bool) (j : Nat) (hj : j < check.length) :
    (List.replicate 8 false ++ error ++ check ++ List.replicate 8 false)[8 + error.length + j]? =
      check[j]? := by
  have hlength : (List.replicate 8 false ++ error).length = 8 + error.length := by
    rw [List.length_append, List.length_replicate]
  rw [List.getElem?_append_left (by rw [List.length_append, hlength]; omega),
    List.getElem?_append_right (by omega), hlength, Nat.add_sub_cancel_left]

/-- Two packets that both pass the header and the checksum do not differ by a
listed corruption. -/
theorem not_corrupts_layout (type len0 len1 : Byte) (payload : List Byte) (crc0 crc1 : Byte)
    (type' len0' len1' : Byte) (payload' : List Byte) (crc0' crc1' : Byte)
    (hlen : payload.length = payload'.length) (hmax : payload.length ≤ 449)
    (hcheck : bodyCrc (type :: len0 :: len1 :: payload) = BigEndian.join16 crc1 crc0)
    (hcheck' : bodyCrc (type' :: len0' :: len1' :: payload') = BigEndian.join16 crc1' crc0') :
    ¬ Corrupts (layout stx type len0 len1 payload crc0 crc1 etx)
      (layout stx type' len0' len1' payload' crc0' crc1' etx) := by
  have hflipped := flipped_layout stx type len0 len1 payload crc0 crc1 etx type' len0' len1'
    payload' crc0' crc1' hlen
  have hrem := remainder_flipped (type :: len0 :: len1 :: payload)
    (type' :: len0' :: len1' :: payload') crc0 crc1 crc0' crc1' (by simp [hlen]) hcheck hcheck'
  have herror := flipped_length (type :: len0 :: len1 :: payload)
    (type' :: len0' :: len1' :: payload') (by simp [hlen])
  simp only [List.length_cons] at herror
  generalize flipped (type :: len0 :: len1 :: payload)
    (type' :: len0' :: len1' :: payload') = error at hflipped hrem herror
  obtain ⟨hodd, htwo⟩ := undetected_weight error _ _ (by omega) hrem
  have hcheckZero := check_weight_zero (crc0 ^^^ crc0') (crc1 ^^^ crc1')
  generalize bits [crc0 ^^^ crc0', crc1 ^^^ crc1'] = check at hflipped hodd htwo hcheckZero
  have hweight : Crc.weight (List.replicate 8 false ++ error ++ check ++ List.replicate 8 false) =
      Crc.weight error + Crc.weight check := by
    simp [Crc.weight]
  intro hcorrupt
  cases hcorrupt with
  | odd h =>
      rw [hflipped, hweight] at h
      exact hodd h
  | pair h =>
      rw [hflipped, hweight] at h
      exact htwo h
  | burst start hset h =>
      rw [hflipped] at hset h
      rw [layout_length] at h
      simp only [packetSize, headerSz, crcSz, trailerSz] at h
      have hinside : ∀ i, error[i]? = some true → start - 8 ≤ i ∧ i < start - 8 + 16 := by
        intro i hi
        have hlt := (List.getElem?_eq_some_iff.mp hi).1
        have hindex := h (8 + i) ((flip_positions error check i hlt).trans hi)
        omega
      have houtside : true ∉ check := by
        intro member
        obtain ⟨j, hj⟩ := List.mem_iff_getElem?.mp member
        have hlt := (List.getElem?_eq_some_iff.mp hj).1
        have hindex := h (8 + error.length + j) ((check_positions error check j hlt).trans hj)
        omega
      have hbody : true ∈ error := by simpa [houtside] using hset
      have hfield : BigEndian.join16 (crc1 ^^^ crc1') (crc0 ^^^ crc0') = 0 :=
        hcheckZero (List.count_eq_zero.mpr houtside)
      exact Crc.remainder_window _ crc16CcittPoly_odd error (start - 8) hbody hinside
        (hrem.trans hfield)

/-- Every listed corruption of an encoded packet is an error, and the handler never runs.
Odd numbers of bits and pairs of bits may lie anywhere in the packet, bursts in the
checksummed bytes. Which of the errors it is, is left open. -/
theorem decodeEach_rejects_corruption (type : Byte) (frames : List CanFrame)
    (sent received : List Byte) (context : σ) (htype : type = typeCan2udp ∨ type = typeUdp2can)
    (hsent : Writes type frames sent) (hlen : received.length = sent.length)
    (hcorrupt : Corrupts sent received) :
    ∃ err, decodeEach received context (some handler) = some (.error err, context) := by
  obtain ⟨hcount, _, rfl⟩ := (writes_iff type frames sent).mp hsent
  have hframed := packetBytes_framed type frames ((supportedType_iff type).mpr htype) hcount
  rcases decodeEach_cases received with
    ⟨err, hrun⟩ | ⟨kind, len0, len1, count, entries, crc0, crc1, hframed', rfl⟩
  · exact ⟨err, hrun σ handler context⟩
  rw [packetBytes_layout, layout_length, layout_length] at hlen
  simp only [packetSize, Nat.add_right_cancel_iff, Nat.add_left_cancel_iff] at hlen
  have hmax : (count :: entries).length ≤ 449 := by
    have hle := hframed'.countLe
    simp only [List.length_cons, hframed'.entriesLen, canEntrySz, maxFramesPerPacket] at hle ⊢
    omega
  rw [packetBytes_layout] at hcorrupt
  exact absurd hcorrupt (not_corrupts_layout _ _ _ _ _ _ kind len0 len1 _ crc0 crc1 hlen.symm
    (hlen ▸ hmax) hframed.crc hframed'.crc)

/-- Two swapped payload bits of a packet with one frame. -/
theorem decodeEach_rejects_swapped_bits :
    ∃ err, decodeEach [0xAA, 1, 0, 15, 1, 1, 0, 0, 0, 6, 8, 0, 0, 0, 0, 0, 0, 0, 0, 57, 183, 0xBB]
      0 (some fun calls _ => calls + 1) = some (.error err, 0) := by
  refine decodeEach_rejects_corruption (fun calls _ => calls + 1) typeUdp2can
    [{ port := 1, id := 5, len := 8 }]
    [0xAA, 1, 0, 15, 1, 1, 0, 0, 0, 5, 8, 0, 0, 0, 0, 0, 0, 0, 0, 57, 183, 0xBB] _ 0 (.inr rfl)
    ((writes_iff _ _ _).mpr ⟨by decide, by decide, ?_⟩) rfl (.pair ?_)
  · decide +kernel
  · decide +kernel

end DecodeEach

end ServoFleet.MotorCodec
