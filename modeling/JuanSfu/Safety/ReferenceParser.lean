import JuanSfu.Sdp.Grammar
import JuanSfu.Sdp.PlainLines
import JuanSfu.Sdp.Sections
import Mathlib.Data.List.Find

/-!
# `parse_sdp` against a parser that works section by section

For lines with their tags at the start, what an offer is can be said without a
loop: which lines there may be, what grammar each of them has, and that a
section is what stands between an `m=` line and the next one. The loop of
`parse_sdp`, with its running flag and its section pointer, comes to the same.
-/

namespace JuanSfu

/-! ## The reference -/

/-- The tags occur at the start of the line or not at all. -/
def TagsAtStart (line : Str) : Prop := ∀ p ∈ tags, ¬ p.2 <:+: line.tail

instance (line : Str) : Decidable (TagsAtStart line) :=
  inferInstanceAs (Decidable (∀ p ∈ tags, ¬ p.2 <:+: line.tail))

/-- An `a=ssrc:` line has two words between its tag and the next colon. -/
def TwoWords (line : Str) : Prop :=
  ∀ body, line = str "a=ssrc:" ++ body → 58 ∈ body →
    2 ≤ (fieldsAt 32 (body.takeWhile (· ≠ 58))).length

/-- The kind of a line, by what it starts with. -/
def startKind (line : Str) : LineKind :=
  ((tags.find? fun p => p.2.isPrefixOf line).map (·.1)).getD .other

/-- The line has the grammar of its kind. -/
def Grammatical (line : Str) : Prop := (writeOf (startKind line) line).isSome = true

structure WellFormed (lines : List Str) : Prop where
  first : ∃ line rest, lines = line :: rest ∧
    startKind line ∈ [.version, .origin, .rtpmap] ∧ Grammatical line
  everywhere : ∀ line ∈ lines, startKind line ∈ [.version, .origin, .media, .rtpmap] →
    Grammatical line
  /-- From the first `m=` line on. -/
  inSections : ∀ line ∈ lines.dropWhile (startKind · ≠ .media),
    startKind line ∈ [.fingerprint, .ssrc, .ssrcGroup] → Grammatical line

/-- Each `m=` line with the lines up to the next one. -/
def sectionsIn : List Str → List (Str × List Str)
  | [] => []
  | line :: lines =>
      if startKind line = .media then
        (line, lines.takeWhile (startKind · ≠ .media)) :: sectionsIn lines
      else sectionsIn lines

def ssrcsIn (body : List Str) : List SsrcParameter :=
  (body.filter (startKind · = .ssrc)).filterMap ssrcOf

def ssrcGroupsIn (body : List Str) : List SsrcGroup :=
  (body.filter (startKind · = .ssrcGroup)).filterMap ssrcGroupOf

def fingerprintsIn (body : List Str) : List DtlsParameter :=
  (body.filter (startKind · = .fingerprint)).filterMap fingerprintOf

/-- The media content of a section. -/
structure IsContent (s : Str × List Str) (m : MediaContent) : Prop where
  type : (mediaOf s.1).map (·.1) = some m.type
  ssrcs : m.ssrcs = ssrcsIn s.2
  ssrcGroups : m.ssrcGroups = ssrcGroupsIn s.2
  dtls : m.dtls = (fingerprintsIn s.2).getLast?

/-! ## Tags at the start -/

theorem TagsAtStart.kindOf_eq {line : Str} (h : TagsAtStart line) :
    kindOf line = startKind line := by
  have htag : ∀ p ∈ tags, contains line p.2 = p.2.isPrefixOf line := by
    intro p hp
    rw [Bool.eq_iff_iff, contains_iff, List.isPrefixOf_iff_prefix]
    refine ⟨fun hin => ?_, List.IsPrefix.isInfix⟩
    cases line with
    | nil => exact List.infix_nil.mp hin ▸ List.nil_prefix
    | cons c line => exact (List.infix_cons_iff.mp hin).resolve_right (h p hp)
  rw [JuanSfu.kindOf_eq, startKind]
  congr 2
  exact List.find?_congr htag

theorem prefix_of_startKind {line : Str} {kind : LineKind} (h : startKind line = kind)
    (hk : kind ≠ .other) : ∃ p ∈ tags, p.1 = kind ∧ p.2 <+: line := by
  unfold startKind at h
  cases hfind : tags.find? fun p => p.2.isPrefixOf line with
  | none =>
      rw [hfind] at h
      exact absurd h.symm hk
  | some p =>
      rw [hfind] at h
      have hprefix : p.2.isPrefixOf line = true := by simpa using List.find?_some hfind
      exact ⟨p, List.mem_of_find?_eq_some hfind, h, List.isPrefixOf_iff_prefix.mp hprefix⟩

/-- The two words are what `parse_ssrcs` indexes. -/
theorem TwoWords.ssrcWords {line : Str} (h : TwoWords line) (hk : startKind line = .ssrc) :
    SsrcWords line := by
  obtain ⟨p, hp, hpk, body, rfl⟩ := prefix_of_startKind hk (by decide)
  have htags : ∀ p ∈ tags, p.1 = .ssrc → p.2 = str "a=ssrc:" := by decide
  rw [htags p hp hpk] at h ⊢
  have hcolon : afterColon (str "a=ssrc:" ++ body) = body :=
    afterColon_append (str "a=ssrc") (by decide) body
  intro head value hfields
  rw [hcolon] at hfields
  -- the first colon behind the tag ends the first part
  by_cases hmem : 58 ∈ body
  · have htwo := h body rfl hmem
    obtain ⟨first, rest, rfl, hfirst⟩ := List.eq_append_cons_of_mem hmem
    rw [takeWhile_first hfirst] at htwo
    have hne : first ≠ [] := by
      rintro rfl
      exact absurd htwo (by decide)
    rw [fieldsAt_append_cons hfirst hne] at hfields
    exact (List.cons.inj hfields).1 ▸ htwo
  · have hone := fieldsAt_of_notMem hmem
    rw [hfields] at hone
    simp at hone

/-! ## What the loop accepts and stores -/

/-- Every line that is looked at has its grammar. -/
def AllRead : Bool → List Str → Prop
  | _, [] => True
  | isOpen, line :: lines =>
      ((startKind line).looksAt isOpen = true → Grammatical line) ∧
        AllRead (isOpen || startKind line = .media) lines

/-- What the lines that are looked at store. -/
def writesOf : Bool → List Str → List SdpWrite
  | _, [] => []
  | isOpen, line :: lines =>
      (if (startKind line).looksAt isOpen then (writeOf (startKind line) line).toList else []) ++
        writesOf (isOpen || startKind line = .media) lines

/-- The kind is that of the first characters, and no index is out of range. -/
def Plain (line : Str) : Prop :=
  kindOf line = startKind line ∧ (startKind line = .ssrc → SsrcWords line)

theorem Plain.readLine_eq {line : Str} (h : Plain line) (isOpen : Bool) :
    readLine isOpen line = .ok (if (startKind line).looksAt isOpen then
      readingOf (startKind line) (writeOf (startKind line) line) else .kept none) := by
  rw [← h.1]
  exact JuanSfu.readLine_eq fun hk => h.2 (h.1 ▸ hk)

/-- Once the flag is set, it stays set while the lines have their grammar. -/
theorem readLines_open (isOpen : Bool) {lines : List Str} (h : ∀ line ∈ lines, Plain line) :
    ∃ verdict ws, readLines true isOpen lines = .ok (verdict, ws) ∧
      (verdict = true ↔ AllRead isOpen lines) ∧
      (verdict = true → ws = writesOf isOpen lines) := by
  induction lines generalizing isOpen with
  | nil => exact ⟨true, [], rfl, by simp [AllRead], fun _ => rfl⟩
  | cons line lines ih =>
      rw [List.forall_mem_cons] at h
      obtain ⟨verdict, ws, hrest, hverdict, hws⟩ :=
        ih (isOpen || startKind line = .media) h.2
      rw [readLines, h.1.readLine_eq, h.1.1, AllRead, writesOf]
      cases hlook : (startKind line).looksAt isOpen with
      | false =>
          refine ⟨verdict, ws, ?_, by simpa using hverdict, by simpa using hws⟩
          show (readLines true _ lines >>= _) = _
          rw [hrest]
          rfl
      | true =>
          simp only [if_true, forall_const]
          unfold Grammatical
          cases hw : writeOf (startKind line) line with
          | none => exact ⟨false, [], rfl, by simp, by simp⟩
          | some w =>
              refine ⟨verdict, w :: ws, ?_, by simpa using hverdict, ?_⟩
              · have hflag := readingOf_flag (startKind line) (some w)
                have hwrites := readingOf_writes (startKind line) (some w)
                show (if !(readingOf (startKind line) (some w)).flag true then _ else _) = _
                rw [hflag, hrest, hwrites]
                rfl
              · intro hv
                rw [hws hv]
                rfl

/-- The first line has to set the flag. -/
theorem readLines_first {lines : List Str} (h : ∀ line ∈ lines, Plain line) :
    ∃ verdict ws, readLines false false lines = .ok (verdict, ws) ∧
      (verdict = true ↔ (∃ line rest, lines = line :: rest ∧
        startKind line ∈ [.version, .origin, .rtpmap] ∧ Grammatical line) ∧
          AllRead false lines) ∧
      (verdict = true → ws = writesOf false lines) := by
  cases lines with
  | nil => exact ⟨false, [], rfl, by simp, by simp⟩
  | cons line lines =>
      have hline := (List.forall_mem_cons.mp h).1
      have hread := hline.readLine_eq false
      by_cases hfirst : startKind line ∈ [.version, .origin, .rtpmap]
      · have hmedia : startKind line ≠ .media := by
          rintro hk
          simp [hk] at hfirst
        have hlook : (startKind line).looksAt false = true := by
          revert hfirst
          cases startKind line <;> decide
        -- such a line sets the flag or clears it, whatever it was
        have hsame : readLines false false (line :: lines) =
            readLines true false (line :: lines) := by
          rw [readLines, readLines, hread, hlook, if_pos rfl]
          cases writeOf (startKind line) line with
          | none => rfl
          | some w =>
              rw [readingOf, if_neg hmedia]
              rfl
        obtain ⟨verdict, ws, hlines, hverdict, hws⟩ := readLines_open false h
        refine ⟨verdict, ws, hsame.trans hlines, hverdict.trans ?_, hws⟩
        exact ⟨fun hall => ⟨⟨line, lines, rfl, hfirst, hall.1 hlook⟩, hall⟩, fun hall => hall.2⟩
      · have hstop : ∃ ws, readLines false false (line :: lines) = .ok (false, ws) := by
          rw [readLines, hread]
          cases hk : startKind line with
          | version => simp [hk] at hfirst
          | origin => simp [hk] at hfirst
          | rtpmap => simp [hk] at hfirst
          | media => cases writeOf .media line <;> exact ⟨_, rfl⟩
          | _ => exact ⟨_, rfl⟩
        obtain ⟨ws, hstop⟩ := hstop
        refine ⟨false, ws, hstop, ?_, by simp⟩
        simp only [Bool.false_eq_true, false_iff, not_and]
        rintro ⟨line', lines', heq, hin, -⟩
        obtain ⟨rfl, -⟩ := List.cons.inj heq
        exact absurd hin hfirst

/-! ## The lines that are looked at -/

theorem allRead_open {lines : List Str} :
    AllRead true lines ↔ ∀ line ∈ lines, startKind line ≠ .other → Grammatical line := by
  induction lines with
  | nil => simp [AllRead]
  | cons line lines ih =>
      have hlook : (startKind line).looksAt true = true ↔ startKind line ≠ .other := by
        cases startKind line <;> decide
      rw [AllRead, Bool.true_or, ih, List.forall_mem_cons, hlook]

/-- Before the first `m=` line the lines of a section are passed over. -/
theorem allRead_closed {lines : List Str} : AllRead false lines ↔
    (∀ line ∈ lines, startKind line ∈ [.version, .origin, .media, .rtpmap] →
      Grammatical line) ∧
    ∀ line ∈ lines.dropWhile (startKind · ≠ .media),
      startKind line ∈ [.fingerprint, .ssrc, .ssrcGroup] → Grammatical line := by
  induction lines with
  | nil => simp [AllRead]
  | cons line lines ih =>
      have hlook : (startKind line).looksAt false = true ↔
          startKind line ∈ [.version, .origin, .media, .rtpmap] := by
        cases startKind line <;> decide
      rw [AllRead, List.forall_mem_cons, hlook, Bool.false_or]
      by_cases hm : startKind line = .media
      · rw [decide_eq_true hm, allRead_open, List.dropWhile_cons_of_neg (by simp [hm]),
          List.forall_mem_cons]
        have hkinds : ∀ kind : LineKind, kind ≠ .other ↔
            kind ∈ [.version, .origin, .media, .rtpmap] ∨
              kind ∈ [.fingerprint, .ssrc, .ssrcGroup] := by
          intro kind
          cases kind <;> decide
        have hno : startKind line ∉ [.fingerprint, .ssrc, .ssrcGroup] := by
          rw [hm]
          decide
        simp only [hkinds, or_imp, forall_and, hno, false_implies, true_and, and_assoc]
      · rw [decide_eq_false hm, ih, List.dropWhile_cons_of_pos (by simpa using hm), and_assoc]

/-! ## The sections -/

theorem writeOf_kind {kind : LineKind} {line : Str} {w : SdpWrite}
    (h : writeOf kind line = some w) : w.kind = kind := by
  cases kind <;> simp only [writeOf, Option.map_eq_some_iff, reduceCtorEq] at h
  all_goals
    obtain ⟨x, -, rfl⟩ := h
    rfl

/-- A media content with the lines of its section added. -/
def MediaContent.extend (m : MediaContent) (body : List Str) : MediaContent :=
  { m with
    ssrcs := m.ssrcs ++ ssrcsIn body
    ssrcGroups := m.ssrcGroups ++ ssrcGroupsIn body
    dtls := (fingerprintsIn body).getLast?.or m.dtls }

theorem MediaContent.extend_nil (m : MediaContent) : m.extend [] = m := by
  simp [extend, ssrcsIn, ssrcGroupsIn, fingerprintsIn]

/-- What the lines of one kind have, with one line more in front. -/
theorem filterMap_kind_cons {β : Type} (kind : LineKind) (f : Str → Option β) (line : Str)
    (body : List Str) : ((line :: body).filter (startKind · = kind)).filterMap f =
      (if startKind line = kind then (f line).toList else []) ++
        (body.filter (startKind · = kind)).filterMap f := by
  by_cases hk : startKind line = kind
  · rw [List.filter_cons_of_pos (by simpa using hk), if_pos hk, List.filterMap_cons]
    cases f line <;> rfl
  · rw [List.filter_cons_of_neg (by simpa using hk), if_neg hk, List.nil_append]

theorem MediaContent.write_other (m : MediaContent) {w : SdpWrite}
    (hw : w.kind.isSection = false) : m.write w = m := by
  cases w with
  | version => rfl
  | origin => rfl
  | media => rfl
  | desc => rfl
  | dtls => cases hw
  | ssrc => cases hw
  | ssrcGroup => cases hw

/-- One line of a section more, in front. -/
theorem MediaContent.extend_cons (m : MediaContent) (line : Str) (body : List Str) :
    m.extend (line :: body) =
      ((writeOf (startKind line) line).toList.foldl write m).extend body := by
  unfold extend ssrcsIn ssrcGroupsIn fingerprintsIn
  simp only [filterMap_kind_cons]
  by_cases hs : (startKind line).isSection = true
  · cases hk : startKind line with
    | fingerprint =>
        cases hf : fingerprintOf line with
        | none => simp [writeOf, hf]
        | some d => simp [writeOf, hf, write, List.getLast?_cons, Option.or_of_isSome]
    | ssrc => cases hp : ssrcOf line <;> simp [writeOf, hp, write]
    | ssrcGroup => cases hg : ssrcGroupOf line <;> simp [writeOf, hg, write]
    | _ => simp [hk, LineKind.isSection] at hs
  · have hkept : (writeOf (startKind line) line).toList.foldl write m = m := by
      cases hw : writeOf (startKind line) line with
      | none => rfl
      | some w =>
          refine m.write_other ?_
          rw [writeOf_kind hw]
          simpa using hs
    have hno : ∀ kind : LineKind, kind.isSection = true → startKind line ≠ kind := by
      rintro kind hkind rfl
      exact hs hkind
    rw [hkept, if_neg (hno .ssrc rfl), if_neg (hno .ssrcGroup rfl), if_neg (hno .fingerprint rfl)]
    rfl

/-- An `m=` line opens a section of its type. -/
theorem exists_media {line : Str} (hm : startKind line = .media) (h : Grammatical line) :
    ∃ type sup, mediaOf line = some (type, sup) ∧
      writeOf (startKind line) line = some (.media type sup) := by
  unfold Grammatical at h
  rw [hm] at h ⊢
  cases hline : mediaOf line with
  | none => simp [writeOf, hline] at h
  | some p => exact ⟨p.1, p.2, rfl, by simp [writeOf, hline]⟩

theorem isContent_extend {line : Str} {type : MediaType} {sup : MediaCodecSupport}
    (h : mediaOf line = some (type, sup)) (body : List Str) :
    IsContent (line, body) (({ type := type } : MediaContent).extend body) :=
  ⟨by simp [h, MediaContent.extend], rfl, rfl, by simp [MediaContent.extend]⟩

/-- What is stored in an open section, up to the next `m=` line, and after it. -/
theorem foldl_writesOf_open {lines : List Str} (h : AllRead true lines) (m : MediaContent) :
    ∃ rest, (writesOf true lines).foldl addSection [m] =
        m.extend (lines.takeWhile (startKind · ≠ .media)) :: rest ∧
      List.Forall₂ IsContent (sectionsIn lines) rest := by
  induction lines generalizing m with
  | nil => exact ⟨[], by simp [writesOf, MediaContent.extend_nil], .nil⟩
  | cons line lines ih =>
      rw [AllRead, Bool.true_or] at h
      rw [writesOf, Bool.true_or, sectionsIn, List.foldl_append]
      by_cases hm : startKind line = .media
      · have hgram : Grammatical line := h.1 (by rw [hm]; rfl)
        obtain ⟨type, sup, hmedia, hw⟩ := exists_media hm hgram
        obtain ⟨rest, hfold, hrest⟩ := ih h.2 { type := type }
        have hopened : ({ type := type } : MediaContent).extend
            (lines.takeWhile (startKind · ≠ .media)) :: rest =
              (writesOf true lines).foldl addSection [{ type := type }] := hfold.symm
        refine ⟨({ type := type } : MediaContent).extend
          (lines.takeWhile (startKind · ≠ .media)) :: rest, ?_, ?_⟩
        · rw [List.takeWhile_cons_of_neg (by simp [hm]), m.extend_nil, hw, hm, hopened]
          exact foldl_addSection_append [m] (List.cons_ne_nil _ _) _
        · rw [if_pos hm]
          exact .cons (isContent_extend hmedia _) hrest
      · rw [if_neg hm, List.takeWhile_cons_of_pos (by simpa using hm), m.extend_cons]
        have hwrites : (if (startKind line).looksAt true then
            (writeOf (startKind line) line).toList else []) =
              (writeOf (startKind line) line).toList := by
          cases hk : startKind line <;> rfl
        have hstored : (writeOf (startKind line) line).toList.foldl addSection [m] =
            [(writeOf (startKind line) line).toList.foldl MediaContent.write m] := by
          cases hw : writeOf (startKind line) line with
          | none => rfl
          | some w => exact addSection_singleton m ((writeOf_kind hw).symm ▸ hm)
        rw [hwrites, hstored]
        exact ih h.2 _

theorem foldl_writesOf_closed {lines : List Str} (h : AllRead false lines) :
    List.Forall₂ IsContent (sectionsIn lines) (sectionsOf (writesOf false lines)) := by
  unfold sectionsOf
  induction lines with
  | nil => exact .nil
  | cons line lines ih =>
      rw [AllRead, Bool.false_or] at h
      rw [writesOf, Bool.false_or, sectionsIn, List.foldl_append]
      by_cases hm : startKind line = .media
      · have hgram : Grammatical line := h.1 (by rw [hm]; rfl)
        obtain ⟨type, sup, hmedia, hw⟩ := exists_media hm hgram
        rw [decide_eq_true hm] at h
        obtain ⟨rest, hfold, hrest⟩ := foldl_writesOf_open h.2 { type := type }
        rw [if_pos hm, decide_eq_true hm, hw, hm]
        change List.Forall₂ IsContent _ ((writesOf true lines).foldl addSection [{ type := type }])
        rw [hfold]
        exact .cons (isContent_extend hmedia _) hrest
      · rw [decide_eq_false hm] at h
        rw [if_neg hm, decide_eq_false hm]
        have hstored : (if (startKind line).looksAt false then
            (writeOf (startKind line) line).toList else []).foldl addSection [] = [] := by
          by_cases hlook : (startKind line).looksAt false = true
          · rw [if_pos hlook]
            cases hw : writeOf (startKind line) line with
            | none => rfl
            | some w =>
                have hkind := writeOf_kind hw
                refine addSection_other [] (hkind.symm ▸ hm) ?_
                rw [hkind]
                revert hlook
                cases startKind line <;> decide
          · rw [if_neg hlook]
            rfl
        rw [hstored]
        exact ih h.2

/-- **`parse_sdp` agrees with the reference**: it returns, it accepts exactly the
well-formed lines, and then the media contents are the sections, one by one. -/
theorem SessionDescription.parseSdp_reference {lines : List Str}
    (htags : ∀ line ∈ lines, TagsAtStart line) (hwords : ∀ line ∈ lines, TwoWords line) :
    ∃ verdict sd, ({} : SessionDescription).parseSdp lines = .ok (verdict, sd) ∧
      (verdict = true ↔ WellFormed lines) ∧
      (verdict = true → List.Forall₂ IsContent (sectionsIn lines) sd.mediaContents) := by
  have hplain : ∀ line ∈ lines, Plain line := fun line hline =>
    ⟨(htags line hline).kindOf_eq, (hwords line hline).ssrcWords⟩
  obtain ⟨verdict, ws, hread, hverdict, hws⟩ := readLines_first hplain
  refine ⟨verdict, _, parseSdp_ok_iff.mpr ⟨ws, hread, rfl⟩, ?_, ?_⟩
  · rw [hverdict, allRead_closed]
    exact ⟨fun h => ⟨h.1, h.2.1, h.2.2⟩, fun h => ⟨h.first, h.everywhere, h.inSections⟩⟩
  · intro hv
    rw [writeAll_mediaContents, hws hv]
    exact foldl_writesOf_closed (hverdict.mp hv).2

/-- An offer with one section. -/
def shortOffer : List Str :=
  [str "v=0", str "m=audio 9 RTP/SAVPF 111", str "a=ssrc:1 cname:x", str "a=inactive"]

theorem SessionDescription.parseSdp_reference_shortOffer :
    ∃ verdict sd, ({} : SessionDescription).parseSdp shortOffer = .ok (verdict, sd) ∧
      (verdict = true ↔ WellFormed shortOffer) ∧
      (verdict = true → List.Forall₂ IsContent (sectionsIn shortOffer) sd.mediaContents) := by
  refine parseSdp_reference (by decide) fun line hline body heq _ => ?_
  have hdrop : body = line.drop 7 := by rw [heq]; rfl
  have htag : str "a=ssrc:" <+: line := ⟨body, heq.symm⟩
  have hall : ∀ line ∈ shortOffer, str "a=ssrc:" <+: line →
      2 ≤ (fieldsAt 32 ((line.drop 7).takeWhile (· ≠ 58))).length := by decide
  rw [hdrop]
  exact hall line hline htag

end JuanSfu
