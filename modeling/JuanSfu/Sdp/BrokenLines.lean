import JuanSfu.Sdp.Grammar

/-!
# The one line that cannot be read

`parse_ssrcs` cuts a line at the colons and the first part at the blanks, and
then checks the size of the first cut twice. A first part of one word is
indexed past its end. Every other line is read or rejected, so the parse goes
wrong exactly where it comes to such a line.
-/

namespace JuanSfu

/-- Two parts with a colon between them, the first with less than two words. -/
def BrokenSsrc (line : Str) : Prop :=
  ∃ head value words, split (afterColon line) (str ":") [] = .ok [head, value] ∧
    split head (str " ") [] = .ok words ∧ words.length < 2

/-- The loop of `parse_sdp` comes to a broken line with a section open. -/
inductive MeetsBroken : Bool → Bool → List Str → Prop where
  | here {flag : Bool} {line : Str} {lines : List Str} (hk : kindOf line = .ssrc)
      (hb : BrokenSsrc line) : MeetsBroken flag true (line :: lines)
  | later {flag isOpen : Bool} {line : Str} {lines : List Str} {r : Reading}
      (h : readLine isOpen line = .ok r) (hf : r.flag flag = true)
      (hm : MeetsBroken true (isOpen || kindOf line = .media) lines) :
      MeetsBroken flag isOpen (line :: lines)

/-! ## The reader that may not return -/

variable {isOpen : Bool} {line : Str} {e : Fault}

theorem brokenSsrc_iff_fields : BrokenSsrc line ↔ ∃ head value,
    fieldsAt 58 (afterColon line) = [head, value] ∧ (fieldsAt 32 head).length < 2 := by
  have hcolons : ∀ text, split text (str ":") [] = .ok (fieldsAt 58 text) := split_eq_fieldsAt 58
  have hblanks : ∀ text, split text (str " ") [] = .ok (fieldsAt 32 text) := split_eq_fieldsAt 32
  constructor
  · rintro ⟨head, value, words, hvecs, hwords, hlen⟩
    rw [hcolons] at hvecs
    rw [hblanks] at hwords
    cases hwords
    exact ⟨head, value, Except.ok.inj hvecs, hlen⟩
  · rintro ⟨head, value, hfields, hlen⟩
    exact ⟨head, value, fieldsAt 32 head, by rw [hcolons, hfields], hblanks head, hlen⟩

/-- The broken lines are those without the words that are indexed. -/
theorem brokenSsrc_iff : BrokenSsrc line ↔ ¬ SsrcWords line := by
  rw [brokenSsrc_iff_fields, SsrcWords]
  push Not
  exact Iff.rfl

theorem BrokenSsrc.readSsrcs_eq (h : BrokenSsrc line) :
    readSsrcs line = .error .indexOutOfRange := by
  obtain ⟨head, value, words, hvecs, hwords, hlen⟩ := h
  rw [readSsrcs, hvecs]
  show (split head (str " ") [] >>= _) = _
  rw [hwords]
  show (index words 1 >>= _) = _
  rw [index_of_ge (by omega)]
  rfl

theorem readSsrcs_error_iff :
    readSsrcs line = .error e ↔ e = .indexOutOfRange ∧ BrokenSsrc line := by
  by_cases hb : BrokenSsrc line
  · rw [hb.readSsrcs_eq]
    simp [hb, eq_comm]
  · rw [readSsrcs_eq (not_not.mp (mt brokenSsrc_iff.mpr hb))]
    simp [hb]

/-- Every other line is read as its grammar says. -/
theorem readLine_error_iff : readLine isOpen line = .error e ↔
    e = .indexOutOfRange ∧ isOpen = true ∧ kindOf line = .ssrc ∧ BrokenSsrc line := by
  by_cases hk : kindOf line = .ssrc
  · rw [readLine, hk]
    cases isOpen with
    | false => simp
    | true => simp [readSsrcs_error_iff]
  · rw [readLine_eq fun h => absurd h hk]
    simp [hk]

/-- **When the parse goes wrong**, and it is by an index out of range then. -/
theorem readLines_error_iff {flag : Bool} {lines : List Str} :
    readLines flag isOpen lines = .error e ↔
      e = .indexOutOfRange ∧ MeetsBroken flag isOpen lines := by
  induction lines generalizing flag isOpen with
  | nil =>
      simp only [readLines, reduceCtorEq, false_iff, not_and]
      rintro - ⟨⟩
  | cons line lines ih =>
      unfold readLines
      constructor
      · intro h
        rcases bind_error h with h | ⟨r, hr, h⟩
        · obtain ⟨he, rfl, hk, hb⟩ := readLine_error_iff.mp h
          exact ⟨he, .here hk hb⟩
        · cases hf : r.flag flag with
          | false =>
              rw [hf] at h
              cases h
          | true =>
              rw [hf] at h
              rcases bind_error h with h | ⟨p, -, h⟩
              · obtain ⟨he, hm⟩ := ih.mp h
                exact ⟨he, .later hr hf hm⟩
              · cases h
      · rintro ⟨rfl, hm⟩
        cases hm with
        | here hk hb =>
            rw [readLine_error_iff.mpr ⟨rfl, rfl, hk, hb⟩]
            rfl
        | later hr hf hm =>
            rw [hr]
            show (if !Reading.flag flag _ then _ else _) = _
            rw [hf]
            show (readLines true _ lines >>= _) = _
            rw [ih.mpr ⟨rfl, hm⟩]
            rfl

theorem SessionDescription.parseSdp_error_iff {sd : SessionDescription} {lines : List Str} :
    sd.parseSdp lines = .error e ↔ e = .indexOutOfRange ∧ MeetsBroken false false lines := by
  rw [parseSdp_eq, ← readLines_error_iff]
  cases readLines false false lines with
  | error e' => simp [Except.map]
  | ok p => simp [Except.map]

end JuanSfu
