import JuanSfu.System
import JuanSfu.Udp.StunAttributes

/-!
# What the STUN parser and the check of its credentials read

A value is copied with the length its attribute declares, and `memcmp` compares
20 bytes with whatever length a MESSAGE-INTEGRITY has. Neither is checked
against what is there. Whether a datagram leads past its end, or past the end of
a value, can be read off the declared lengths, except that the check of the
credentials stops at the first attribute that fails.
-/

namespace JuanSfu

namespace StunPacket

/-- `validateLoop`, with the values that `memcmp` is called with. -/
def comparedLoop (env : Env) (param : IceParameter) :
    List StunAttribute → Bytes → Result (Bool × Bytes) × List Bytes
  | [], data => (.ok (true, data), [])
  | .username _ remoteUfrag _ :: attris, data =>
      if remoteUfrag ≠ param.ufrag then (.ok (false, data), [])
      else comparedLoop env param attris data
  | .integrity _ endpos hmacSha1 :: attris, data =>
      let written := setMsgLen data (integrityLen endpos)
      let hmac := env.hmacSha1 param.passwd (written.take endpos)
      if hmac.length ≠ kStunMessageIntegritySize then (.ok (false, written), [])
      else
        match sameIntegrity hmac hmacSha1 with
        | .error e => (.error e, [hmacSha1])
        | .ok false => (.ok (false, written), [hmacSha1])
        | .ok true =>
            let (verdict, values) :=
              comparedLoop env param attris (setMsgLen written (getBE16 data 2))
            (verdict, hmacSha1 :: values)
  | _ :: attris, data => comparedLoop env param attris data

/-- The values are only written down. -/
theorem comparedLoop_fst (env : Env) (param : IceParameter) (attris : List StunAttribute) :
    ∀ data, (comparedLoop env param attris data).1 = validateLoop env param attris data := by
  induction attris with
  | nil => exact fun _ => rfl
  | cons a attris ih =>
      intro data
      cases a with
      | username len remoteUfrag localUfrag =>
          unfold comparedLoop validateLoop
          split
          · rfl
          · exact ih data
      | integrity len endpos hmacSha1 =>
          unfold comparedLoop validateLoop
          dsimp only
          split
          · rfl
          · cases sameIntegrity (env.hmacSha1 param.passwd
                ((setMsgLen data (integrityLen endpos)).take endpos)) hmacSha1 with
            | error e => rfl
            | ok same =>
                cases same with
                | false => rfl
                | true => exact ih _
      | iceControlling => exact ih data
      | useCandidate => exact ih data
      | priority => exact ih data
      | xorAddress => exact ih data

/-- `parse` stays in the datagram, and `validate` compares with no value of less
than 20 bytes. -/
def StaysInside (env : Env) (param : IceParameter) (data : Bytes) : Prop :=
  ∃ sp, parse env data = .ok sp ∧ ∀ packet ∈ sp,
    ∀ value ∈ (comparedLoop env param packet.attris data).2,
      kStunMessageIntegritySize ≤ value.length

/-! ## Which values are compared -/

section Compared

variable {env : Env} {param : IceParameter} {data : Bytes}

/-- The HMAC under which the MESSAGE-INTEGRITY at `endpos` is checked. -/
def hmacAt (env : Env) (param : IceParameter) (data : Bytes) (endpos : ℕ) : Bytes :=
  env.hmacSha1 param.passwd (signedPrefix data endpos)

/-- If this attribute is compared, its value is long enough. -/
def LongEnough (env : Env) (param : IceParameter) (data : Bytes) : StunAttribute → Prop
  | .integrity _ endpos hmacSha1 =>
      (hmacAt env param data endpos).length = kStunMessageIntegritySize →
        kStunMessageIntegritySize ≤ hmacSha1.length
  | _ => True

/-- Every attribute that the check gets to is long enough. -/
def Sheltered (env : Env) (param : IceParameter) (data : Bytes) : List StunAttribute → Prop
  | [] => True
  | a :: attris => LongEnough env param data a ∧
      (Checks env param data a → Sheltered env param data attris)

/-- A MESSAGE-INTEGRITY is compared if the HMAC has its size, and only one that
passes lets the check go on. -/
theorem comparedLoop_integrity (hlen : 4 ≤ data.length) (len : UInt16) (endpos : ℕ)
    (hmacSha1 : Bytes) (attris : List StunAttribute) :
    (comparedLoop env param (.integrity len endpos hmacSha1 :: attris) data).2 =
      if (hmacAt env param data endpos).length = kStunMessageIntegritySize then
        hmacSha1 ::
          if hmacAt env param data endpos = (hmacSha1 ++ [0]).take kStunMessageIntegritySize then
            (comparedLoop env param attris data).2
          else []
      else [] := by
  have hmac : env.hmacSha1 param.passwd ((setMsgLen data (integrityLen endpos)).take endpos) =
      hmacAt env param data endpos := rfl
  rw [comparedLoop]
  dsimp only
  rw [setMsgLen_restore hlen, hmac]
  by_cases hsize : (hmacAt env param data endpos).length = kStunMessageIntegritySize
  · rw [if_neg (not_not.mpr hsize), if_pos hsize]
    unfold sameIntegrity
    by_cases hshort : hmacSha1.length + 1 < kStunMessageIntegritySize
    · have hne : hmacAt env param data endpos ≠
          (hmacSha1 ++ [0]).take kStunMessageIntegritySize := by
        intro heq
        rw [heq, List.length_take, List.length_append, List.length_singleton] at hsize
        omega
      rw [if_pos hshort, if_neg hne]
    · rw [if_neg hshort]
      by_cases heq : hmacAt env param data endpos =
          (hmacSha1 ++ [0]).take kStunMessageIntegritySize
      · rw [if_pos heq, beq_iff_eq.mpr heq]
      · rw [if_neg heq, beq_eq_false_iff_ne.mpr heq]
  · rw [if_pos hsize, if_neg hsize]

theorem sheltered_iff (hlen : 4 ≤ data.length) {attris : List StunAttribute} :
    (∀ value ∈ (comparedLoop env param attris data).2,
      kStunMessageIntegritySize ≤ value.length) ↔ Sheltered env param data attris := by
  induction attris with
  | nil => simp [comparedLoop, Sheltered]
  | cons a attris ih =>
      cases a with
      | username len remoteUfrag localUfrag =>
          unfold comparedLoop Sheltered
          by_cases hu : remoteUfrag = param.ufrag
          · simpa [hu, LongEnough, Checks] using ih
          · simp [hu, LongEnough, Checks]
      | integrity len endpos hmacSha1 =>
          have hchecks : Checks env param data (.integrity len endpos hmacSha1) ↔
              (hmacAt env param data endpos).length = kStunMessageIntegritySize ∧
                hmacAt env param data endpos =
                  (hmacSha1 ++ [0]).take kStunMessageIntegritySize := Iff.rfl
          rw [comparedLoop_integrity hlen, Sheltered, LongEnough, hchecks]
          by_cases hsize : (hmacAt env param data endpos).length = kStunMessageIntegritySize
          · rw [if_pos hsize, List.forall_mem_cons]
            by_cases heq : hmacAt env param data endpos =
                (hmacSha1 ++ [0]).take kStunMessageIntegritySize
            · rw [if_pos heq, ih]
              exact ⟨fun h => ⟨fun _ => h.1, fun _ => h.2⟩,
                fun h => ⟨h.1 hsize, h.2 ⟨hsize, heq⟩⟩⟩
            · simp [hsize, heq]
          · simp [hsize]
      | iceControlling => simpa [comparedLoop, Sheltered, LongEnough, Checks] using ih
      | useCandidate => simpa [comparedLoop, Sheltered, LongEnough, Checks] using ih
      | priority => simpa [comparedLoop, Sheltered, LongEnough, Checks] using ih
      | xorAddress => simpa [comparedLoop, Sheltered, LongEnough, Checks] using ih

/-! ## Read off the datagram -/

/-- The attribute at a place passes its check. -/
def PassesAt (env : Env) (param : IceParameter) (data : Bytes) (pos : ℕ) : Prop :=
  (attriType data pos = stunUsername →
    (usernameParts (attriValue data pos)).1 = param.ufrag) ∧
  (attriType data pos = stunMessageIntegrity →
    (hmacAt env param data (pos + stunHeaderSize)).length = kStunMessageIntegritySize ∧
      hmacAt env param data (pos + stunHeaderSize) =
        (attriValue data pos ++ [0]).take kStunMessageIntegritySize)

/-- A MESSAGE-INTEGRITY at this place is not compared, or declares 20 bytes. -/
def LongAt (env : Env) (param : IceParameter) (data : Bytes) (pos : ℕ) : Prop :=
  attriType data pos = stunMessageIntegrity →
    (hmacAt env param data (pos + stunHeaderSize)).length = kStunMessageIntegritySize →
      kStunMessageIntegritySize ≤ (attriLen data pos).toNat

/-- **When nothing is read that is not there**: what the attributes declare is in
the datagram, and a MESSAGE-INTEGRITY of less than 20 bytes comes behind an
attribute that fails. -/
def DeclaresInside (env : Env) (param : IceParameter) (data : Bytes) : Prop :=
  isStun data = true → accepts env data = true →
    ∀ pos ∈ attriPositions data 20 0, ReadsInside data pos ∧
      (LongAt env param data pos ∨
        ∃ pos' ∈ attriPositions data 20 0, pos' < pos ∧ ¬ PassesAt env param data pos')

theorem length_attriValue {pos : ℕ} (h : ReadsInside data pos)
    (htype : attriType data pos = stunMessageIntegrity) :
    (attriValue data pos).length = (attriLen data pos).toNat := by
  have hfits := h.1 (by simp [htype])
  rw [attriValue, substr, List.length_take, List.length_drop]
  omega

/-- What is kept of a place is checked as the place is. -/
theorem attriAt_checks (env : Env) (param : IceParameter) {pos : ℕ} (h : ReadsInside data pos) :
    ((∀ a ∈ attriAt data pos, LongEnough env param data a) ↔ LongAt env param data pos) ∧
      ((∀ a ∈ attriAt data pos, Checks env param data a) ↔ PassesAt env param data pos) := by
  unfold attriAt LongAt PassesAt
  dsimp only
  by_cases h1 : attriType data pos = stunUsername
  · have hno : stunUsername ≠ stunMessageIntegrity := by decide
    simp [h1, hno, LongEnough, Checks]
  by_cases h2 : attriType data pos = stunMessageIntegrity
  · have hno : stunMessageIntegrity ≠ stunUsername := by decide
    simp [h2, hno, LongEnough, Checks, length_attriValue h h2, hmacAt]
  rw [if_neg h1, if_neg h2]
  simp only [h1, h2, false_implies, true_and, iff_true]
  by_cases h3 : attriType data pos = stunIceControlling
  · simp [h3, LongEnough, Checks]
  by_cases h4 : attriType data pos = stunUseCandidate
  · rw [if_neg h3, if_pos h4]
    simp [LongEnough, Checks]
  by_cases h5 : attriType data pos = stunPriority
  · rw [if_neg h3, if_neg h4, if_pos h5]
    simp [LongEnough, Checks]
  · simp [h3, h4, h5]

/-- The walk goes forward. -/
theorem attriPositions_sorted (data : Bytes) (counter pos : ℕ) :
    (attriPositions data counter pos).Pairwise (· < ·) ∧
      ∀ p ∈ attriPositions data counter pos, pos ≤ p := by
  induction counter generalizing pos with
  | zero => simp [attriPositions]
  | succ counter ih =>
      rw [attriPositions]
      split
      · obtain ⟨hsorted, hfrom⟩ := ih (nextAttri data pos)
        have hnext : pos < nextAttri data pos := by
          unfold nextAttri
          split <;> omega
        refine ⟨List.pairwise_cons.mpr ⟨?_, hsorted⟩, List.forall_mem_cons.mpr ⟨le_rfl, ?_⟩⟩
        · exact fun p hp => Nat.lt_of_lt_of_le hnext (hfrom p hp)
        · exact fun p hp => Nat.le_of_lt (Nat.lt_of_lt_of_le hnext (hfrom p hp))
      · simp

/-- The check gets to an attribute if all in front of it pass. -/
theorem sheltered_positions (env : Env) (param : IceParameter) {positions : List ℕ}
    (hsorted : positions.Pairwise (· < ·))
    (hread : ∀ pos ∈ positions, ReadsInside data pos) :
    Sheltered env param data (positions.filterMap (attriAt data)) ↔
      ∀ pos ∈ positions, LongAt env param data pos ∨
        ∃ pos' ∈ positions, pos' < pos ∧ ¬ PassesAt env param data pos' := by
  induction positions with
  | nil => simp [Sheltered]
  | cons pos positions ih =>
      rw [List.pairwise_cons] at hsorted
      rw [List.forall_mem_cons] at hread
      obtain ⟨hlong, hpasses⟩ := attriAt_checks env param hread.1
      have hhead : Sheltered env param data ((pos :: positions).filterMap (attriAt data)) ↔
          LongAt env param data pos ∧ (PassesAt env param data pos →
            Sheltered env param data (positions.filterMap (attriAt data))) := by
        rw [← hlong, ← hpasses, List.filterMap_cons]
        cases attriAt data pos <;> simp [Sheltered]
      have hfirst : ¬ ∃ pos' ∈ pos :: positions,
          pos' < pos ∧ ¬ PassesAt env param data pos' := by
        rintro ⟨pos', hmem, hlt, -⟩
        rcases List.mem_cons.mp hmem with rfl | hmem
        · exact Nat.lt_irrefl _ hlt
        · exact Nat.lt_asymm hlt (hsorted.1 pos' hmem)
      have hrest : ∀ p ∈ positions, (∃ pos' ∈ pos :: positions, pos' < p ∧
          ¬ PassesAt env param data pos') ↔ ¬ PassesAt env param data pos ∨
            ∃ pos' ∈ positions, pos' < p ∧ ¬ PassesAt env param data pos' := by
        intro p hp
        simp [hsorted.1 p hp]
      rw [hhead, ih hsorted.2 hread.2, List.forall_mem_cons, or_iff_left hfirst]
      refine and_congr_right fun _ => ?_
      constructor
      · intro h p hp
        rw [hrest p hp]
        by_cases hpass : PassesAt env param data pos
        · exact (h hpass p hp).imp_right Or.inr
        · exact Or.inr (Or.inl hpass)
      · intro h hpass p hp
        refine (h p hp).imp_right fun hex => ?_
        exact ((hrest p hp).mp hex).resolve_left (not_not.mpr hpass)

/-- **The parser and the check stay inside exactly then**, for every datagram
and whatever the credentials and the HMAC. -/
theorem staysInside_iff (env : Env) (param : IceParameter) (data : Bytes) :
    StaysInside env param data ↔ DeclaresInside env param data := by
  unfold StaysInside DeclaresInside
  by_cases hstun : isStun data = true
  · rw [parse_eq env hstun]
    by_cases hacc : accepts env data = true
    · have hlen : 4 ≤ data.length := Nat.le_trans (by decide) (length_of_isStun hstun)
      rw [if_pos hacc, parseAttri, parseAttriLoop_eq]
      by_cases hread : ∀ pos ∈ attriPositions data 20 0, ReadsInside data pos
      · have hsheltered := sheltered_positions env param
          (attriPositions_sorted data 20 0).1 hread
        rw [← sheltered_iff hlen] at hsheltered
        rw [if_pos hread]
        constructor
        · rintro ⟨sp, hsp, hlong⟩ - - pos hpos
          cases hsp
          exact ⟨hread pos hpos, hsheltered.mp (hlong _ rfl) pos hpos⟩
        · intro h
          refine ⟨_, rfl, ?_⟩
          rintro packet ⟨⟩
          exact hsheltered.mpr fun pos hpos => (h hstun hacc pos hpos).2
      · rw [if_neg hread]
        constructor
        · rintro ⟨sp, hsp, -⟩
          cases hsp
        · exact fun h => absurd (fun pos hpos => (h hstun hacc pos hpos).1) hread
    · rw [if_neg hacc]
      exact ⟨fun _ _ h => absurd h hacc, fun _ => ⟨none, rfl, by simp⟩⟩
  · have hnull : parse env data = .ok none := by
      unfold parse
      rw [if_pos (by simpa using hstun)]
    exact ⟨fun _ h => absurd h hstun, fun _ => ⟨none, hnull, by simp⟩⟩

/-- A USERNAME of 4 bytes that declares 100. -/
def longUsername : Bytes :=
  [0, 1, 0, 8, 0x21, 0x12, 0xA4, 0x42] ++ List.replicate 12 0 ++ [0, 6, 0, 100] ++ str "a:bc"

theorem longUsername_leaves : ¬ StaysInside Sample.env {} longUsername := by
  rintro ⟨sp, hparse, -⟩
  rw [parse_eq _ (by decide), if_pos (by decide), parseAttri, parseAttriLoop_eq,
    if_neg (by decide)] at hparse
  cases hparse

end Compared

end StunPacket

end JuanSfu
