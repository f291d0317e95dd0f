import JuanSfu.RtcBase.Crc32
import JuanSfu.Safety.StunFingerprint

/-!
# What the fingerprint of a STUN message is good for

`validate_fingerprint` takes `ComputeCrc32` of all but the last eight bytes, which
hold the checksum. A burst that hits the message, the checksum or both is found
out, as long as the last eight bytes still begin like a FINGERPRINT: only there
does the check look at nothing.
-/

namespace JuanSfu

open Crc StunPacket StunMessage

namespace StunPacket

variable {env : Env} {data data' : Bytes}

theorem validate_of_parse {sp : StunPacket} (h : parse env data = .ok (some sp)) :
    isStun data = true ∧ validateFingerprint env data = true := by
  unfold parse at h
  split at h
  · cases h
  · next hstun =>
      split at h
      · cases h
      · split at h
        · cases h
        · next hfp => exact ⟨by simpa using hstun, by simpa using hfp⟩

theorem parse_of_not_validate (h : ¬ validateFingerprint env data = true) :
    parse env data = .ok none := by
  unfold parse
  split
  · rfl
  · split
    · rfl
    · rw [if_pos (by simpa using h)]

/-! ## Words at the end of a datagram -/

/-- A word says what its bytes are. -/
theorem getBE16_inj {i : ℕ} (h : getBE16 data i = getBE16 data' i) :
    data.getD i 0 = data'.getD i 0 ∧ data.getD (i + 1) 0 = data'.getD (i + 1) 0 := by
  unfold getBE16 at h
  refine ⟨?_, ?_⟩
  · rw [← high_byte (data.getD i 0), h, high_byte]
  · rw [← low_byte (data.getD i 0) (data.getD (i + 1) 0), h, low_byte]

theorem high_half (c d : UInt16) : ((c.toUInt32 <<< 16 ||| d.toUInt32) >>> 16).toUInt16 = c := by
  have hd : d.toNat >>> 16 = 0 := by
    rw [Nat.shiftRight_eq_div_pow]
    exact Nat.div_eq_of_lt d.toNat_lt
  apply UInt16.toNat_inj.mp
  simp only [UInt32.toNat_toUInt16, UInt32.toNat_shiftRight, UInt32.toNat_or,
    UInt32.toNat_shiftLeft, UInt16.toNat_toUInt32]
  have hc := c.toNat_lt
  rw [Nat.shiftRight_or_distrib]
  simp only [UInt32.reduceToNat, Nat.reduceMod, hd, Nat.or_zero]
  rw [Nat.shiftRight_eq_div_pow, Nat.shiftLeft_eq]
  omega

theorem low_half (c d : UInt16) : (c.toUInt32 <<< 16 ||| d.toUInt32).toUInt16 = d := by
  apply UInt16.toBitVec_inj.mp
  ext i hi
  simp

theorem getBE32_inj {i : ℕ} (h : getBE32 data i = getBE32 data' i) :
    getBE16 data i = getBE16 data' i ∧ getBE16 data (i + 2) = getBE16 data' (i + 2) := by
  unfold getBE32 at h
  refine ⟨?_, ?_⟩
  · rw [← high_half (getBE16 data i), h, high_half]
  · rw [← low_half (getBE16 data i) (getBE16 data (i + 2)), h, low_half]

/-- The last eight bytes are what the check reads of them. -/
theorem tail_ext {k : ℕ} (hk : data.length = k + 8) (hk' : data'.length = k + 8)
    (htype : getBE16 data k = getBE16 data' k)
    (hlen : getBE16 data (k + 2) = getBE16 data' (k + 2))
    (hvalue : getBE32 data (k + 4) = getBE32 data' (k + 4)) : data.drop k = data'.drop k := by
  obtain ⟨h0, h1⟩ := getBE16_inj htype
  obtain ⟨h2, h3⟩ := getBE16_inj hlen
  obtain ⟨hhigh, hlow⟩ := getBE32_inj hvalue
  obtain ⟨h4, h5⟩ := getBE16_inj hhigh
  obtain ⟨h6, h7⟩ := getBE16_inj hlow
  have hbyte : ∀ i < 8, data.getD (k + i) 0 = data'.getD (k + i) 0 := by
    intro i hi
    match i, hi with
    | 0, _ => exact h0
    | 1, _ => exact h1
    | 2, _ => exact h2
    | 3, _ => exact h3
    | 4, _ => exact h4
    | 5, _ => exact h5
    | 6, _ => exact h6
    | 7, _ => exact h7
  apply List.ext_getElem
  · rw [List.length_drop, List.length_drop, hk, hk']
  · intro i hi hi'
    have hlt : i < 8 := by
      rw [List.length_drop, hk] at hi
      omega
    rw [List.getElem_drop, List.getElem_drop]
    have heq := hbyte i hlt
    rwa [List.getD_eq_getElem?_getD, List.getD_eq_getElem?_getD,
      List.getElem?_eq_getElem (by omega), List.getElem?_eq_getElem (by omega)] at heq

/-- A word is the same in two datagrams that end alike from there on. -/
theorem getBE32_of_drop {k : ℕ} (h : data.drop k = data'.drop k) (hk : k ≤ data.length)
    (hk' : k ≤ data'.length) : getBE32 data k = getBE32 data' k := by
  have hdata := getBE32_append (data.take k) (data.drop k) 0
  have hdata' := getBE32_append (data'.take k) (data'.drop k) 0
  rw [List.take_append_drop, List.length_take, Nat.min_eq_left hk] at hdata
  rw [List.take_append_drop, List.length_take, Nat.min_eq_left hk'] at hdata'
  exact hdata.trans ((congrArg (getBE32 · 0) h).trans hdata'.symm)

end StunPacket

/-! ## The check -/

namespace StunMessage

variable {env : Env} {data data' : Bytes}

/-- Two datagrams of the same length that both pass, with what begins like a
FINGERPRINT, are the same or differ by more than a burst. -/
theorem not_burst_of_endsRight (henv : env.crc32 = computeCrc32) (hsize : 8 ≤ data.length)
    (hlike : EndsLike data) (hlike' : EndsLike data') (hright : EndsRight env data)
    (hright' : EndsRight env data') : ¬ Burst 32 (bits data) (bits data') := by
  intro h
  have hlength : data'.length = data.length := by
    have heq := h.length_eq
    rw [length_bits, length_bits] at heq
    omega
  unfold EndsLike at hlike hlike'
  unfold EndsRight at hright hright'
  rw [hlength] at hlike' hright'
  rw [henv] at hright hright'
  obtain ⟨k, hk⟩ : ∃ k, data.length = k + fingerPrintAttriSize :=
    ⟨data.length - 8, (Nat.sub_add_cancel hsize).symm⟩
  rw [hk, Nat.add_sub_cancel] at hlike hlike' hright hright'
  obtain ⟨hlen, hvalue⟩ := hright
  obtain ⟨hlen', hvalue'⟩ := hright'
  by_cases hfront : data.take k = data'.take k
  · -- the checksum is that of the same bytes, so the burst has left all of it
    have htail : data.drop k = data'.drop k := by
      apply tail_ext hk (hlength.trans hk)
      · exact hlike.trans hlike'.symm
      · exact hlen.trans hlen'.symm
      · rw [hvalue, hvalue', hfront]
    refine h.ne ?_
    rw [← List.take_append_drop k data, hfront, htail, List.take_append_drop]
  · -- the burst is over before the checksum begins
    have hbits : (bits data).take (8 * k) ≠ (bits data').take (8 * k) := by
      rw [← bits_take, ← bits_take]
      exact fun heq => hfront (bits_injective heq)
    have hcrc : computeCrc32 (data.take k) ≠ computeCrc32 (data'.take k) := by
      refine computeCrc32_burst ?_
      rw [bits_take, bits_take]
      exact h.take hbits
    have hsame : data.drop (k + 4) = data'.drop (k + 4) := by
      apply bits_injective
      rw [bits_drop, bits_drop]
      exact h.drop hbits
    have hfour : k + 4 ≤ data.length := by
      rw [hk]
      exact Nat.add_le_add_left (by decide) k
    have hword := getBE32_of_drop hsame hfour (hlength ▸ hfour)
    rw [hvalue, hvalue'] at hword
    exact hcrc ((UInt32.xor_left_inj _).mp hword)

/-- **No burst gets past the fingerprint**: of a datagram that is parsed and has one
in its last eight bytes, no burst of up to 32 bits, wherever it hits, makes another
that is parsed, unless the last eight bytes begin like a FINGERPRINT no longer. The
bits of each byte count from the least significant one on. -/
theorem parse_burst (henv : env.crc32 = computeCrc32) {sp : StunPacket}
    (hparse : parse env data = .ok (some sp)) (hlike : EndsLike data) (hlike' : EndsLike data')
    (h : Burst 32 (bits data) (bits data')) : parse env data' = .ok none := by
  obtain ⟨hstun, hfp⟩ := validate_of_parse hparse
  have hsize := length_of_isStun hstun
  refine parse_of_not_validate fun hfp' => ?_
  exact not_burst_of_endsRight henv (by omega) hlike hlike'
    (validateFingerprint_iff.mp hfp hlike) (validateFingerprint_iff.mp hfp' hlike') h

/-- A binding request that has a FINGERPRINT only; `first` is the first byte of its
transaction id, and the checksum is that for 7. -/
def fingerprinted (first : UInt8) : Bytes :=
  putBE16 1 ++ putBE16 8 ++ putBE32 kStunMagicCookie ++ (first :: List.replicate 11 7) ++
    putBE16 stunFingerprint ++ putBE16 4 ++ putBE32 (320524387 ^^^ stunFingerprintXorValue)

theorem parse_burst_fingerprinted :
    parse { Sample.env with crc32 := computeCrc32 } (fingerprinted 0xF8) = .ok none := by
  have hparse : parse { Sample.env with crc32 := computeCrc32 } (fingerprinted 7) =
      .ok (some ⟨List.replicate 12 7, .request, binding, []⟩) := by decide +kernel
  have hne : bits (fingerprinted 7) ≠ bits (fingerprinted 0xF8) := by decide
  refine parse_burst rfl hparse (by unfold EndsLike; decide) (by unfold EndsLike; decide) ?_
  exact ⟨⟨bits ((fingerprinted 7).take 8), byteBits 7, byteBits 0xF8,
    bits ((fingerprinted 7).drop 9), rfl, rfl, rfl, by decide⟩, hne⟩

end StunMessage

end JuanSfu
