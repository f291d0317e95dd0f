import JuanSfu.System
import JuanSfu.Udp.StunAttributes

/-!
# The check of the credentials

`validate` writes another length into the datagram for each MESSAGE-INTEGRITY,
computes the HMAC over the result and writes the old length back. So each HMAC is
computed over the datagram as it came, and the verdict depends on the entries
alone, not on their order or number.
-/

namespace JuanSfu

namespace StunPacket

variable {env : Env} {param : IceParameter} {data : Bytes} {attris : List StunAttribute}

/-- The values of the MESSAGE-INTEGRITY entries have the size of an HMAC. -/
def FullIntegrity (attris : List StunAttribute) : Prop :=
  ∀ len endpos hmacSha1, .integrity len endpos hmacSha1 ∈ attris →
    hmacSha1.length = kStunMessageIntegritySize

/-- A value of the size of an HMAC is compared as it is. -/
theorem integrity_take {hmacSha1 : Bytes} (hsize : hmacSha1.length = kStunMessageIntegritySize) :
    (hmacSha1 ++ [0]).take kStunMessageIntegritySize = hmacSha1 := by
  rw [← hsize, List.take_left]

theorem checks_integrity_iff {len : UInt16} {endpos : ℕ} {hmacSha1 : Bytes}
    (hmac : ∀ key input, (env.hmacSha1 key input).length = kStunMessageIntegritySize)
    (hsize : hmacSha1.length = kStunMessageIntegritySize) :
    Checks env param data (.integrity len endpos hmacSha1) ↔
      env.hmacSha1 param.passwd (signedPrefix data endpos) = hmacSha1 := by
  rw [Checks, integrity_take hsize]
  exact and_iff_right (hmac _ _)

/-- The verdict: every entry passes its check, each over the same datagram. -/
theorem validateLoop_verdict (param : IceParameter) (hlen : 4 ≤ data.length)
    (hfull : FullIntegrity attris) :
    ∃ verdict data', validateLoop env param attris data = .ok (verdict, data') ∧
      (verdict = true ↔ ∀ a ∈ attris, Checks env param data a) ∧
      (verdict = true → data' = data) := by
  induction attris with
  | nil => exact ⟨true, data, rfl, by simp, fun _ => rfl⟩
  | cons a attris ih =>
      obtain ⟨verdict, data', hloop, hverdict, hdata⟩ :=
        ih fun len endpos hmacSha1 h => hfull len endpos hmacSha1 (List.mem_cons_of_mem _ h)
      rw [List.forall_mem_cons, ← hverdict]
      by_cases hchecks : Checks env param data a
      · refine ⟨verdict, data', ?_, (and_iff_right hchecks).symm, hdata⟩
        rw [validateLoop_passes hlen hchecks, hloop]
      · obtain ⟨data'', hstop⟩ : ∃ data'', stopsAt env param data a = .ok (false, data'') := by
          cases a with
          | integrity len endpos hmacSha1 =>
              have hsize := hfull len endpos hmacSha1 (List.mem_cons_self ..)
              refine ⟨_, if_neg fun hshort => ?_⟩
              have hlt := hshort.2
              omega
          | _ => exact ⟨data, rfl⟩
        refine ⟨false, data'', ?_, by simp [hchecks], nofun⟩
        rw [validateLoop_fails hchecks, hstop]

/-- The entries match the credentials: the names are the ufrag, and each value is
the HMAC of the datagram up to its entry, the length field counting up to the end
of the entry. -/
def MatchesCredentials (env : Env) (param : IceParameter) (data : Bytes)
    (attris : List StunAttribute) : Prop :=
  (∀ len remoteUfrag localUfrag, .username len remoteUfrag localUfrag ∈ attris →
    remoteUfrag = param.ufrag) ∧
  ∀ len endpos hmacSha1, .integrity len endpos hmacSha1 ∈ attris →
    hmacSha1 = env.hmacSha1 param.passwd
      ((setMsgLen data (UInt16.ofNat (endpos + 4))).take endpos)

theorem matchesCredentials_iff
    (hmac : ∀ key input, (env.hmacSha1 key input).length = kStunMessageIntegritySize)
    (hfull : FullIntegrity attris) :
    (∀ a ∈ attris, Checks env param data a) ↔ MatchesCredentials env param data attris := by
  have hprefix : ∀ endpos, signedPrefix data endpos =
      (setMsgLen data (UInt16.ofNat (endpos + 4))).take endpos := fun _ => rfl
  have hintegrity : ∀ len endpos hmacSha1, .integrity len endpos hmacSha1 ∈ attris →
      (Checks env param data (.integrity len endpos hmacSha1) ↔
        hmacSha1 = env.hmacSha1 param.passwd (signedPrefix data endpos)) := by
    intro len endpos hmacSha1 h
    rw [checks_integrity_iff hmac (hfull len endpos hmacSha1 h)]
    exact eq_comm
  constructor
  · intro h
    refine ⟨fun len remoteUfrag localUfrag ha => h _ ha, fun len endpos hmacSha1 ha => ?_⟩
    rw [← hprefix]
    exact (hintegrity len endpos hmacSha1 ha).mp (h _ ha)
  · rintro ⟨husername, hmatches⟩ a ha
    cases a with
    | username len remoteUfrag localUfrag => exact husername len remoteUfrag localUfrag ha
    | integrity len endpos hmacSha1 =>
        rw [hintegrity len endpos hmacSha1 ha, hprefix]
        exact hmatches len endpos hmacSha1 ha
    | iceControlling => trivial
    | useCandidate => trivial
    | priority => trivial
    | xorAddress => trivial

/-- **What `validate` says of a packet**, and of any packet with the same
entries, in whatever order and number: it accepts exactly those that match the
credentials, and leaves the datagram of these as it was. -/
theorem validate_iff_matchesCredentials {sp : StunPacket}
    (hmac : ∀ key input, (env.hmacSha1 key input).length = kStunMessageIntegritySize)
    (hparse : parse env data = .ok (some sp))
    (hfull : FullIntegrity sp.attris) (param : IceParameter) :
    ∃ verdict data', sp.validate env param data = .ok (verdict, data') ∧
      (verdict = true ↔ MatchesCredentials env param data sp.attris) ∧
      (verdict = true → data' = data) ∧
      ∀ sp' : StunPacket, (∀ a, a ∈ sp'.attris ↔ a ∈ sp.attris) →
        ∃ data'', sp'.validate env param data = .ok (verdict, data'') := by
  have hstun : isStun data = true := by
    by_contra hno
    rw [parse, if_pos (by simpa using hno)] at hparse
    cases hparse
  have hlen : 4 ≤ data.length := Nat.le_trans (by decide) (length_of_isStun hstun)
  obtain ⟨verdict, data', hloop, hverdict, hdata⟩ :=
    validateLoop_verdict param hlen hfull
  rw [matchesCredentials_iff hmac hfull] at hverdict
  refine ⟨verdict, data', hloop, hverdict, hdata, fun sp' hsame => ?_⟩
  have hfull' : FullIntegrity sp'.attris :=
    fun len endpos hmacSha1 h => hfull len endpos hmacSha1 ((hsame _).mp h)
  obtain ⟨verdict', data'', hloop', hverdict', -⟩ :=
    validateLoop_verdict param hlen hfull'
  have hmatches : MatchesCredentials env param data sp'.attris ↔
      MatchesCredentials env param data sp.attris := by
    simp only [MatchesCredentials, hsame]
  rw [matchesCredentials_iff hmac hfull', hmatches, ← hverdict, Bool.coe_iff_coe] at hverdict'
  rw [hverdict'] at hloop'
  exact ⟨data'', hloop'⟩

/-- A binding request with a USERNAME and a MESSAGE-INTEGRITY. -/
def signedRequest : Bytes :=
  [0, 1, 0, 32, 0x21, 0x12, 0xA4, 0x42] ++ List.replicate 12 0 ++
    [0, 6, 0, 3] ++ str "a:b" ++ [0] ++ [0, 8, 0, 20] ++ List.replicate 20 7

theorem validate_iff_matchesCredentials_signedRequest :
    ∃ verdict data', (⟨List.replicate 12 0, .request, binding,
        [.username 3 (str "a") (str "b"), .integrity 20 28 (List.replicate 20 7)]⟩ :
          StunPacket).validate Sample.env { ufrag := str "a" } signedRequest =
        .ok (verdict, data') ∧
      (verdict = true ↔ MatchesCredentials Sample.env { ufrag := str "a" } signedRequest
        [.username 3 (str "a") (str "b"), .integrity 20 28 (List.replicate 20 7)]) ∧
      (verdict = true → data' = signedRequest) ∧
      ∀ sp' : StunPacket, (∀ a, a ∈ sp'.attris ↔
          a ∈ [.username 3 (str "a") (str "b"), .integrity 20 28 (List.replicate 20 7)]) →
        ∃ data'', sp'.validate Sample.env { ufrag := str "a" } signedRequest =
          .ok (verdict, data'') := by
  refine validate_iff_matchesCredentials (fun _ _ => rfl) rfl ?_ { ufrag := str "a" }
  intro len endpos hmacSha1 h
  rcases List.mem_cons.mp h with h | h
  · cases h
  · obtain ⟨rfl, rfl, rfl⟩ := StunAttribute.integrity.inj (List.mem_singleton.mp h)
    rfl

end StunPacket

end JuanSfu
