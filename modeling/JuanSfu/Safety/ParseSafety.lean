import JuanSfu.Sdp.BrokenLines

/-!
# Which offers are parsed safely

Each line parser asks how many pieces `split` has left before it indexes them;
`parse_ssrcs` asks the wrong vector. An offer is parsed safely if the parse
returns, and returns `false` where a line has not the grammar of its kind. That
is so unless the parse comes, with a section open, to a line that `parse_ssrcs`
indexes past its end; and whether it comes to it is a matter of the grammar of
the lines before.
-/

namespace JuanSfu

/-! ## Lines before a line -/

/-- A section is open behind lines with an `m=` line among them. -/
def opens (lines : List Str) : Bool := lines.any (kindOf · = .media)

/-- The line is given to a parser and has not the grammar of its kind. -/
def Malformed (isOpen : Bool) (line : Str) : Prop :=
  (kindOf line).looksAt isOpen = true ∧ writeOf (kindOf line) line = none

def HasMalformed (isOpen : Bool) (lines : List Str) : Prop :=
  ∃ before line after, lines = before ++ line :: after ∧
    Malformed (isOpen || opens before) line

/-- The parse goes on behind these lines: the first sets the flag, and none of
them is malformed. -/
def GoesBeyond (lines : List Str) : Prop :=
  (∃ first rest, lines = first :: rest ∧ kindOf first ∈ [.version, .origin, .rtpmap]) ∧
    ¬ HasMalformed false lines

/-- The parse returns, and a malformed line leads to the result `false`. -/
structure ParsesSafely (sd : SessionDescription) (lines : List Str) : Prop where
  returns : ∃ flag sd', sd.parseSdp lines = .ok (flag, sd')
  rejects : HasMalformed false lines → ∃ sd', sd.parseSdp lines = .ok (false, sd')

/-- The parse comes to an `a=ssrc:` line with two parts, the first of less than
two words, behind an `m=` line. -/
def ReachesBroken (lines : List Str) : Prop :=
  ∃ before line after, lines = before ++ line :: after ∧ GoesBeyond before ∧
    opens before = true ∧ kindOf line = .ssrc ∧ BrokenSsrc line

/-! ## Reading by the grammar -/

variable {isOpen : Bool} {line : Str} {lines : List Str}

/-- A line that is read is read as its grammar says. -/
theorem readLine_ok_eq {r : Reading} (h : readLine isOpen line = .ok r) :
    r = if (kindOf line).looksAt isOpen then
      readingOf (kindOf line) (writeOf (kindOf line) line) else .kept none := by
  by_cases hwords : kindOf line = .ssrc → SsrcWords line
  · rw [readLine_eq hwords] at h
    exact (Except.ok.inj h).symm
  · obtain ⟨hk, hno⟩ := Classical.not_imp.mp hwords
    cases isOpen with
    | false =>
        rw [readLine, hk] at h
        rw [hk]
        exact (Except.ok.inj h).symm
    | true =>
        rw [readLine_error_iff.mpr ⟨rfl, rfl, hk, brokenSsrc_iff.mpr hno⟩] at h
        cases h

/-- A line that is indexed past its end has not the grammar either. -/
theorem BrokenSsrc.malformed (h : BrokenSsrc line) (hk : kindOf line = .ssrc) :
    Malformed true line := by
  obtain ⟨head, value, hfields, hlen⟩ := brokenSsrc_iff_fields.mp h
  refine ⟨by rw [hk]; rfl, ?_⟩
  rw [hk, writeOf, ssrcOf, hfields]
  dsimp only
  generalize fieldsAt 32 head = words at hlen ⊢
  match words, hlen with
  | [], _ => rfl
  | [_], _ => rfl

theorem Malformed.rejected (h : Malformed isOpen line) {r : Reading}
    (hr : readLine isOpen line = .ok r) : r = .rejected := by
  rw [readLine_ok_eq hr, if_pos h.1, h.2]
  rfl

/-- Every other line is read, and keeps a flag that is set. -/
theorem not_malformed_iff : ¬ Malformed isOpen line ↔
    ∃ r, readLine isOpen line = .ok r ∧ r.flag true = true := by
  constructor
  · intro h
    cases hr : readLine isOpen line with
    | error e =>
        obtain ⟨-, rfl, hk, hb⟩ := readLine_error_iff.mp hr
        exact absurd (hb.malformed hk) h
    | ok r =>
        refine ⟨r, rfl, ?_⟩
        rw [readLine_ok_eq hr]
        split
        · next hlook =>
            rw [readingOf_flag, Option.isSome_iff_ne_none]
            exact fun hnone => h ⟨hlook, hnone⟩
        · rfl
  · rintro ⟨r, hr, hflag⟩ h
    rw [h.rejected hr] at hflag
    cases hflag

/-- The lines that set the flag of the parse are those of three kinds. -/
theorem sets_flag_iff : (∃ r, readLine false line = .ok r ∧ r.flag false = true) ↔
    kindOf line ∈ [.version, .origin, .rtpmap] ∧ ¬ Malformed false line := by
  constructor
  · rintro ⟨r, hr, hflag⟩
    have hout := readLine_outcome hr
    refine ⟨?_, fun h => ?_⟩
    · cases hout with
      | rejected => cases hflag
      | media => cases hflag
      | @stored w hm hk ho =>
          rw [← hk] at hm ho ⊢
          cases w with
          | version => simp [SdpWrite.kind]
          | origin => simp [SdpWrite.kind]
          | desc => simp [SdpWrite.kind]
          | media => exact absurd rfl hm
          | _ => cases ho rfl
      | skipped => cases hflag
    · rw [h.rejected hr] at hflag
      cases hflag
  · rintro ⟨hk, hno⟩
    obtain ⟨r, hr, -⟩ := not_malformed_iff.mp hno
    have hlook : (kindOf line).looksAt false = true ∧ kindOf line ≠ .media := by
      revert hk
      cases kindOf line <;> decide
    refine ⟨r, hr, ?_⟩
    rw [readLine_ok_eq hr, if_pos hlook.1]
    cases hw : writeOf (kindOf line) line with
    | none => exact absurd ⟨hlook.1, hw⟩ hno
    | some w => rw [readingOf, if_neg hlook.2, Reading.flag]

/-! ## Where the parse goes wrong -/

theorem hasMalformed_cons : HasMalformed isOpen (line :: lines) ↔
    Malformed isOpen line ∨ HasMalformed (isOpen || kindOf line = .media) lines := by
  constructor
  · rintro ⟨before, line', after, heq, h⟩
    rcases before with - | ⟨first, before⟩
    · obtain ⟨rfl, rfl⟩ := List.cons.inj heq
      left
      simpa [opens] using h
    · obtain ⟨rfl, rfl⟩ := List.cons.inj heq
      right
      refine ⟨before, line', after, rfl, ?_⟩
      rwa [Bool.or_assoc]
  · rintro (h | ⟨before, line', after, rfl, h⟩)
    · exact ⟨[], line, lines, rfl, by simpa [opens] using h⟩
    · refine ⟨line :: before, line', after, rfl, ?_⟩
      rwa [Bool.or_assoc] at h

theorem not_hasMalformed_nil : ¬ HasMalformed isOpen [] := by
  rintro ⟨before, line, after, heq, -⟩
  simp at heq

/-- From a set flag on. -/
theorem meetsBroken_iff : MeetsBroken true isOpen lines ↔
    ∃ before line after, lines = before ++ line :: after ∧ ¬ HasMalformed isOpen before ∧
      (isOpen || opens before) = true ∧ kindOf line = .ssrc ∧ BrokenSsrc line := by
  constructor
  · intro h
    generalize hflag : true = flag at h
    induction h with
    | @here flag line lines hk hb =>
        subst hflag
        exact ⟨[], line, lines, rfl, not_hasMalformed_nil, rfl, hk, hb⟩
    | @later flag isOpen first lines r hr hf hm ih =>
        subst hflag
        obtain ⟨before, line, after, rfl, hgood, hopen, hk, hb⟩ := ih rfl
        refine ⟨first :: before, line, after, rfl, ?_, ?_, hk, hb⟩
        · rw [hasMalformed_cons, not_or]
          exact ⟨not_malformed_iff.mpr ⟨r, hr, hf⟩, hgood⟩
        · rwa [Bool.or_assoc] at hopen
  · rintro ⟨before, line, after, rfl, hgood, hopen, hk, hb⟩
    induction before generalizing isOpen with
    | nil =>
        obtain rfl : isOpen = true := by simpa [opens] using hopen
        exact .here hk hb
    | cons first before ih =>
        rw [hasMalformed_cons, not_or] at hgood
        obtain ⟨r, hr, hf⟩ := not_malformed_iff.mp hgood.1
        refine .later hr hf (ih hgood.2 ?_)
        rwa [Bool.or_assoc]

/-- The first line has to set the flag. -/
theorem reachesBroken_iff : MeetsBroken false false lines ↔ ReachesBroken lines := by
  constructor
  · intro h
    cases h with
    | @later _ _ first lines r hr hf hm =>
        obtain ⟨hfirst, hno⟩ := sets_flag_iff.mp ⟨r, hr, hf⟩
        obtain ⟨before, line, after, rfl, hgood, hopen, hk, hb⟩ := meetsBroken_iff.mp hm
        refine ⟨first :: before, line, after, rfl, ⟨⟨first, before, rfl, hfirst⟩, ?_⟩, hopen, hk, hb⟩
        rw [hasMalformed_cons, not_or]
        exact ⟨hno, hgood⟩
  · rintro ⟨-, line, after, rfl, ⟨⟨first, before, rfl, hfirst⟩, hgood⟩, hopen, hk, hb⟩
    rw [hasMalformed_cons, not_or] at hgood
    obtain ⟨r, hr, hf⟩ := sets_flag_iff.mpr ⟨hfirst, hgood.1⟩
    refine .later hr hf (meetsBroken_iff.mpr ?_)
    exact ⟨before, line, after, rfl, hgood.2, hopen, hk, hb⟩

/-- Whatever is malformed, and wherever it stands, ends in `false`. -/
theorem Reads.rejects {flag verdict : Bool} {ws : List SdpWrite}
    (h : Reads flag isOpen lines verdict ws) (hbad : HasMalformed isOpen lines) :
    verdict = false := by
  induction h with
  | done =>
      obtain ⟨before, line, after, heq, -⟩ := hbad
      simp at heq
  | stops => rfl
  | goes h hf hr ih =>
      rcases hasMalformed_cons.mp hbad with hline | hlines
      · rw [hline.rejected h] at hf
        cases hf
      · exact ih hlines

/-- **An offer is parsed safely** if and only if the parse does not come to a line
that `parse_ssrcs` indexes past its end. -/
theorem parsesSafely_iff (sd : SessionDescription) (lines : List Str) :
    ParsesSafely sd lines ↔ ¬ ReachesBroken lines := by
  rw [← reachesBroken_iff]
  constructor
  · rintro ⟨⟨flag, sd', hok⟩, -⟩ hbroken
    rw [SessionDescription.parseSdp_error_iff.mpr ⟨rfl, hbroken⟩] at hok
    cases hok
  · intro hno
    cases hparse : sd.parseSdp lines with
    | error e => exact absurd (SessionDescription.parseSdp_error_iff.mp hparse).2 hno
    | ok p =>
        obtain ⟨flag, sd'⟩ := p
        refine ⟨⟨flag, sd', hparse⟩, fun hbad => ⟨sd', ?_⟩⟩
        obtain ⟨ws, hread, -⟩ := parseSdp_ok_iff.mp hparse
        rw [hparse, (reads_of_readLines hread).rejects hbad]

/-- A section with an `a=ssrc:` line of one word before its colon. -/
def oneWordOffer : List Str :=
  [str "v=0", str "m=audio 9 UDP/TLS/RTP/SAVPF 111", str "a=ssrc:1:x"]

theorem oneWordOffer_unsafe : ({} : SessionDescription).parseSdp oneWordOffer =
    .error .indexOutOfRange ∧ ¬ ParsesSafely {} oneWordOffer := by
  have hfault : ({} : SessionDescription).parseSdp oneWordOffer = .error .indexOutOfRange := rfl
  refine ⟨hfault, ?_⟩
  rintro ⟨⟨flag, sd', hok⟩, -⟩
  rw [hfault] at hok
  cases hok

end JuanSfu
