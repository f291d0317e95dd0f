import JuanSfu.Sdp.SslFingerprint

/-!
# The text of a fingerprint

An offer states the digest of a certificate in hexadecimal. A text is accepted
exactly when it is, up to the case of its letters, the text of the fingerprint
that is made of it, so a digest has one text and a text one digest.
-/

namespace JuanSfu

/-- `toupper` in the C locale. -/
def toUpper (ch : UInt8) : UInt8 := if 97 ≤ ch ∧ ch ≤ 122 then ch - 32 else ch

/-! ## Digits -/

theorem hexDecode_eq_some_iff {ch v : UInt8} :
    hexDecode ch = some v ↔ v < 16 ∧ toUpper ch = hexDigit v := by
  unfold hexDecode toUpper hexDigit
  grind

theorem toUpper_hexDigit {v : UInt8} (h : v < 16) : toUpper (hexDigit v) = hexDigit v := by
  unfold toUpper hexDigit
  grind

theorem toUpper_eq_colon {ch : UInt8} : toUpper ch = 58 ↔ ch = 58 := by
  unfold toUpper
  grind

/-! ## Octets -/

theorem toNat_highHalf (b : UInt8) : (b >>> 4).toNat = b.toNat / 16 := by
  rw [UInt8.toNat_shiftRight, Nat.shiftRight_eq_div_pow]
  rfl

theorem toNat_lowHalf (b : UInt8) : (b &&& 15).toNat = b.toNat % 16 := by
  rw [UInt8.toNat_and]
  exact Nat.and_two_pow_sub_one_eq_mod b.toNat 4

theorem toNat_octet {h l : UInt8} (hh : h < 16) (hl : l < 16) :
    (h <<< 4 ||| l).toNat = h.toNat * 16 + l.toNat := by
  have hh' : h.toNat < 16 := UInt8.lt_iff_toNat_lt.mp hh
  have hl' : l.toNat < 2 ^ 4 := UInt8.lt_iff_toNat_lt.mp hl
  have hshift : (h <<< 4).toNat = h.toNat <<< 4 := by
    rw [UInt8.toNat_shiftLeft]
    refine Nat.mod_eq_of_lt ?_
    rw [Nat.shiftLeft_eq]
    show h.toNat * 16 < 256
    omega
  rw [UInt8.toNat_or, hshift, ← Nat.shiftLeft_add_eq_or_of_lt hl', Nat.shiftLeft_eq]

theorem highHalf_lt (b : UInt8) : b >>> 4 < 16 := by
  rw [UInt8.lt_iff_toNat_lt, toNat_highHalf]
  have := b.toNat_lt
  show b.toNat / 16 < 16
  omega

theorem lowHalf_lt (b : UInt8) : b &&& 15 < 16 := by
  rw [UInt8.lt_iff_toNat_lt, toNat_lowHalf]
  exact Nat.mod_lt _ (by decide)

/-- Two halves make the octet they are the halves of. -/
theorem octet_eq_iff {h l b : UInt8} (hh : h < 16) (hl : l < 16) :
    h <<< 4 ||| l = b ↔ h = b >>> 4 ∧ l = b &&& 15 := by
  have hl' : l.toNat < 16 := UInt8.lt_iff_toNat_lt.mp hl
  rw [← UInt8.toNat_inj, toNat_octet hh hl, ← UInt8.toNat_inj, ← UInt8.toNat_inj, toNat_highHalf,
    toNat_lowHalf]
  omega

/-- What two characters are decoded to. -/
theorem octet_decoded {a b c : UInt8} :
    (∃ h, hexDecode a = some h ∧ ∃ l, hexDecode b = some l ∧ h <<< 4 ||| l = c) ↔
      toUpper a = hexDigit (c >>> 4) ∧ toUpper b = hexDigit (c &&& 15) := by
  constructor
  · rintro ⟨h, ha, l, hb, hc⟩
    obtain ⟨hh, ha⟩ := hexDecode_eq_some_iff.mp ha
    obtain ⟨hl, hb⟩ := hexDecode_eq_some_iff.mp hb
    obtain ⟨rfl, rfl⟩ := (octet_eq_iff hh hl).mp hc
    exact ⟨ha, hb⟩
  · rintro ⟨ha, hb⟩
    exact ⟨c >>> 4, hexDecode_eq_some_iff.mpr ⟨highHalf_lt c, ha⟩, c &&& 15,
      hexDecode_eq_some_iff.mpr ⟨lowHalf_lt c, hb⟩,
      (octet_eq_iff (highHalf_lt c) (lowHalf_lt c)).mpr ⟨rfl, rfl⟩⟩

/-! ## Texts -/

/-- The text of a digest, whatever the algorithm. -/
def digestText (digest : Bytes) : Str := getRfc4572Fingerprint ⟨[], digest⟩

theorem digestText_digest (fp : SSLFingerprint) :
    digestText fp.digest = getRfc4572Fingerprint fp := rfl

@[simp] theorem digestText_nil : digestText [] = [] := rfl

@[simp] theorem digestText_singleton (b : UInt8) :
    digestText [b] = [hexDigit (b >>> 4), hexDigit (b &&& 15)] := rfl

@[simp] theorem digestText_cons_cons (b c : UInt8) (rest : Bytes) :
    digestText (b :: c :: rest) =
      hexDigit (b >>> 4) :: hexDigit (b &&& 15) :: 58 :: digestText (c :: rest) := rfl

theorem digestText_eq_nil_iff {digest : Bytes} : digestText digest = [] ↔ digest = [] := by
  match digest with
  | [] => simp
  | [b] => simp
  | b :: c :: rest => simp

theorem length_digestText (b : UInt8) (rest : Bytes) :
    (digestText (b :: rest)).length = 3 * rest.length + 2 := by
  induction rest generalizing b with
  | nil => rfl
  | cons c rest ih =>
    rw [digestText_cons_cons, List.length_cons, List.length_cons, List.length_cons, ih,
      List.length_cons]
    omega

theorem map_toUpper_digestText (digest : Bytes) :
    (digestText digest).map toUpper = digestText digest := by
  induction digest with
  | nil => rfl
  | cons b rest ih =>
    have hhigh := toUpper_hexDigit (highHalf_lt b)
    have hlow := toUpper_hexDigit (lowHalf_lt b)
    cases rest with
    | nil => simp [hhigh, hlow]
    | cons c rest =>
      rw [digestText_cons_cons, List.map_cons, List.map_cons, List.map_cons, ih, hhigh, hlow,
        toUpper_eq_colon.mpr rfl]

/-- The decoder inverts the encoder, and accepts nothing else. -/
theorem hexDecodeWithDelimiter_eq_some_iff {text : Str} {digest : Bytes} :
    hexDecodeWithDelimiter text = some digest ↔ text.map toUpper = digestText digest := by
  induction text using hexDecodeWithDelimiter.induct generalizing digest with
  | case1 =>
    rw [hexDecodeWithDelimiter, Option.some_inj, List.map_nil, eq_comm, digestText_eq_nil_iff.symm,
      eq_comm]
  | case2 ch =>
    match digest with
    | [] => simp [hexDecodeWithDelimiter]
    | [b] => simp [hexDecodeWithDelimiter]
    | b :: c :: rest => simp [hexDecodeWithDelimiter]
  | case3 a b =>
    -- the last octet, with nothing after it
    have hdec : hexDecodeWithDelimiter [a, b] = some digest ↔
        ∃ c, digest = [c] ∧ toUpper a = hexDigit (c >>> 4) ∧ toUpper b = hexDigit (c &&& 15) := by
      simp only [← octet_decoded, hexDecodeWithDelimiter, Option.bind_eq_bind,
        Option.bind_eq_some_iff, Option.some_inj]
      constructor
      · rintro ⟨h, ha, l, hb, rfl⟩
        exact ⟨_, rfl, h, ha, l, hb, rfl⟩
      · rintro ⟨c, rfl, h, ha, l, hb, rfl⟩
        exact ⟨h, ha, l, hb, rfl⟩
    rw [hdec]
    match digest with
    | [] => simp
    | [c] => simp
    | b :: c :: rest => simp
  | case4 a b c =>
    match digest with
    | [] => simp [hexDecodeWithDelimiter]
    | [b] => simp [hexDecodeWithDelimiter]
    | [b, c] => simp [hexDecodeWithDelimiter]
    | b :: c :: d :: rest => simp [hexDecodeWithDelimiter]
  | case5 a b d c rest ih =>
    -- an octet, a colon and at least one more character
    have hdec : hexDecodeWithDelimiter (a :: b :: d :: c :: rest) = some digest ↔
        ∃ o os, digest = o :: os ∧ toUpper a = hexDigit (o >>> 4) ∧
          toUpper b = hexDigit (o &&& 15) ∧ d = 58 ∧
          hexDecodeWithDelimiter (c :: rest) = some os := by
      simp only [hexDecodeWithDelimiter, Option.bind_eq_bind, Option.bind_eq_some_iff]
      constructor
      · rintro ⟨h, ha, l, hb, hif⟩
        by_cases hd : d = 58
        · rw [if_pos hd, Option.bind_eq_some_iff] at hif
          obtain ⟨os, hos, hdig⟩ := hif
          obtain ⟨ha, hb⟩ := octet_decoded.mp ⟨h, ha, l, hb, rfl⟩
          exact ⟨_, os, (Option.some_inj.mp hdig).symm, ha, hb, hd, hos⟩
        · rw [if_neg hd] at hif
          exact absurd hif (by simp)
      · rintro ⟨o, os, rfl, ha, hb, hd, hos⟩
        obtain ⟨h, ha', l, hb', rfl⟩ := octet_decoded.mpr ⟨ha, hb⟩
        refine ⟨h, ha', l, hb', ?_⟩
        rw [if_pos hd, Option.bind_eq_some_iff]
        exact ⟨os, hos, rfl⟩
    simp only [hdec, ih]
    match digest with
    | [] => simp
    | [o] => simp
    | o :: p :: os =>
      simp only [digestText_cons_cons, List.map_cons, List.cons.injEq, toUpper_eq_colon]
      constructor
      · rintro ⟨_, _, ⟨rfl, rfl⟩, ha, hb, hd, hos⟩
        exact ⟨ha, hb, hd, hos⟩
      · rintro ⟨ha, hb, hd, hos⟩
        exact ⟨o, p :: os, ⟨rfl, rfl⟩, ha, hb, hd, hos⟩

/-- The number of octets is the one that the bounds check expects. -/
theorem octets_of_text {text : Str} {b : UInt8} {rest : Bytes}
    (h : text.map toUpper = digestText (b :: rest)) :
    text ≠ [] ∧ (text.length + 1) / 3 = (b :: rest).length := by
  have hlen : text.length = 3 * rest.length + 2 := by
    rw [← List.length_map toUpper, h, length_digestText]
  refine ⟨List.ne_nil_of_length_pos (by omega), ?_⟩
  rw [List.length_cons]
  omega

/-- **A fingerprint and its text**: a text is accepted for an algorithm exactly when it
is the text of a fingerprint with it, of 1 to 64 bytes, in letters of either case; and
it is accepted as that fingerprint. -/
theorem createUniqueFromRfc4572_eq_some_iff {alg text : Str} {fp : SSLFingerprint} :
    createUniqueFromRfc4572 alg text = some fp ↔
      fp.algorithm = alg ∧ isFips180DigestAlgorithm alg = true ∧ fp.digest ≠ [] ∧
        fp.digest.length ≤ 64 ∧ text.map toUpper = getRfc4572Fingerprint fp := by
  rcases fp with ⟨alg', digest⟩
  rw [← digestText_digest]
  unfold createUniqueFromRfc4572
  by_cases halg : isFips180DigestAlgorithm alg = true
  case neg => simp [halg]
  rw [halg, Bool.not_true, if_neg Bool.false_ne_true]
  constructor
  · intro h
    obtain ⟨hbound, h⟩ := Option.ite_none_left_eq_some.mp h
    rw [not_or, not_lt] at hbound
    split at h
    case h_2 => exact absurd h (by simp)
    case h_1 b rest hdec =>
      obtain ⟨rfl, rfl⟩ := SSLFingerprint.mk.inj (Option.some_inj.mp h)
      have htext := hexDecodeWithDelimiter_eq_some_iff.mp hdec
      exact ⟨rfl, rfl, List.cons_ne_nil _ _, (octets_of_text htext).2 ▸ hbound.2, htext⟩
  · rintro ⟨rfl, -, hne, hlen, htext⟩
    obtain ⟨b, rest, rfl⟩ := List.exists_cons_of_ne_nil hne
    obtain ⟨htext_ne, hoctets⟩ := octets_of_text htext
    rw [if_neg (not_or.mpr ⟨htext_ne, not_lt.mpr (hoctets ▸ hlen)⟩),
      hexDecodeWithDelimiter_eq_some_iff.mpr htext]

/-- What is written is read back. -/
theorem createUniqueFromRfc4572_getRfc4572Fingerprint {fp : SSLFingerprint}
    (halg : isFips180DigestAlgorithm fp.algorithm = true) (hne : fp.digest ≠ [])
    (hlen : fp.digest.length ≤ 64) :
    createUniqueFromRfc4572 fp.algorithm (getRfc4572Fingerprint fp) = some fp :=
  createUniqueFromRfc4572_eq_some_iff.mpr
    ⟨rfl, halg, hne, hlen, map_toUpper_digestText fp.digest⟩

end JuanSfu
