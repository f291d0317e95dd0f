import JuanSfu.Sdp.Lines

/-!
# The sections of an offer

An `m=` line opens a section and the lines after it go to it, so what one parse
does to the sections is to append its own. Of these the first is the one the
media path reads, and it has a fingerprint if and only if its lines have one.
-/

namespace JuanSfu

/-- What a write does to the sections. -/
def addSection (cs : List MediaContent) : SdpWrite → List MediaContent
  | .media type _ => cs ++ [{ type }]
  | w => cs.modifyLast (·.write w)

/-- The sections that writes make when there are none before them. -/
def sectionsOf (ws : List SdpWrite) : List MediaContent := ws.foldl addSection []

theorem modifyLast_same {α : Type} {f : α → α} (h : ∀ a, f a = a) (l : List α) :
    l.modifyLast f = l := by
  rcases List.eq_nil_or_concat l with rfl | ⟨init, a, rfl⟩
  · rfl
  · rw [List.concat_eq_append, List.modifyLast_concat, h]

theorem SessionDescription.write_mediaContents (sd : SessionDescription) (w : SdpWrite) :
    (sd.write w).mediaContents = addSection sd.mediaContents w := by
  cases w with
  | version => exact (modifyLast_same (fun _ => rfl) _).symm
  | origin => exact (modifyLast_same (fun _ => rfl) _).symm
  | media type sup => cases type <;> rfl
  | desc id desc =>
      obtain ⟨video, audio, heq⟩ := sd.setDesc_frame id desc
      rw [write, heq]
      exact (modifyLast_same (fun _ => rfl) _).symm
  | dtls => rfl
  | ssrc => rfl
  | ssrcGroup => rfl

theorem SessionDescription.writeAll_mediaContents (sd : SessionDescription)
    (ws : List SdpWrite) :
    (sd.writeAll ws).mediaContents = ws.foldl addSection sd.mediaContents := by
  induction ws generalizing sd with
  | nil => rfl
  | cons w ws ih => rw [writeAll_cons, ih, write_mediaContents, List.foldl_cons]

/-- Writes to no section leave the sections alone. -/
theorem addSection_other (cs : List MediaContent) {w : SdpWrite} (hm : w.kind ≠ .media)
    (hs : w.kind.isSection ≠ true) : addSection cs w = cs := by
  cases w with
  | media => exact absurd rfl hm
  | version => exact modifyLast_same (fun _ => rfl) cs
  | origin => exact modifyLast_same (fun _ => rfl) cs
  | desc => exact modifyLast_same (fun _ => rfl) cs
  | dtls => exact absurd rfl hs
  | ssrc => exact absurd rfl hs
  | ssrcGroup => exact absurd rfl hs

/-! ## What one parse appends -/

/-- Section writes come after a section was opened. -/
def SectionsOpen : Bool → List SdpWrite → Prop
  | _, [] => True
  | isOpen, w :: ws =>
      (w.kind.isSection → isOpen = true) ∧ SectionsOpen (isOpen || w.kind = .media) ws

theorem Reads.sectionsOpen {flag isOpen verdict : Bool} {lines : List Str}
    {ws : List SdpWrite} (h : Reads flag isOpen lines verdict ws) : SectionsOpen isOpen ws := by
  induction h with
  | done => exact trivial
  | @stops flag isOpen line lines r hr hf =>
      cases readLine_outcome hr with
      | rejected => exact trivial
      | media => exact ⟨nofun, trivial⟩
      | stored hm hk ho => exact ⟨hk ▸ ho, trivial⟩
      | skipped => exact trivial
  | @goes flag isOpen verdict line lines r ws hr hf _ ih =>
      cases readLine_outcome hr with
      | rejected => cases hf
      | media hk =>
          rw [hk] at ih
          exact ⟨nofun, ih⟩
      | @stored w hm hk ho =>
          rw [← hk] at ih ho
          exact ⟨ho, ih⟩
      | skipped hk =>
          have hm := LineKind.not_media hk
          simpa [hm, Reading.writes] using ih

/-- Only the last of the sections is written to. -/
theorem addSection_append (cs : List MediaContent) {ds : List MediaContent} (hds : ds ≠ [])
    (w : SdpWrite) : addSection (cs ++ ds) w = cs ++ addSection ds w ∧ addSection ds w ≠ [] := by
  rcases List.eq_nil_or_concat ds with rfl | ⟨init, d, rfl⟩
  · exact absurd rfl hds
  rw [List.concat_eq_append]
  cases w <;> simp only [addSection, ← List.append_assoc, List.modifyLast_concat] <;> simp

theorem eq_nil_of_addSection {cs : List MediaContent} {w : SdpWrite}
    (h : addSection cs w = []) : cs = [] := by
  by_contra hne
  exact (addSection_append [] hne w).2 h

/-- Sections that are already there stay in front, as they are. -/
theorem foldl_addSection_append (cs : List MediaContent) {ds : List MediaContent}
    (hds : ds ≠ []) (ws : List SdpWrite) :
    ws.foldl addSection (cs ++ ds) = cs ++ ws.foldl addSection ds := by
  induction ws generalizing ds with
  | nil => rfl
  | cons w ws ih =>
      obtain ⟨happ, hne⟩ := addSection_append cs hds w
      rw [List.foldl_cons, List.foldl_cons, happ, ih hne]

/-- **A parse appends its own sections**, whatever is there before. -/
theorem foldl_addSection {ws : List SdpWrite} (h : SectionsOpen false ws)
    (cs : List MediaContent) : ws.foldl addSection cs = cs ++ sectionsOf ws := by
  induction ws with
  | nil => exact (List.append_nil cs).symm
  | cons w ws ih =>
      obtain ⟨hs, hws⟩ := h
      by_cases hm : w.kind = .media
      · cases w with
        | media type sup => exact foldl_addSection_append cs (List.cons_ne_nil _ _) ws
        | _ => cases hm
      · have hs : w.kind.isSection ≠ true := fun h => Bool.false_ne_true (hs h)
        rw [decide_eq_false hm, Bool.or_false] at hws
        rw [sectionsOf, List.foldl_cons, List.foldl_cons, addSection_other cs hm hs,
          addSection_other [] hm hs]
        exact ih hws

/-- Without an `m=` line there is no section, and with one there is. -/
theorem sectionsOf_eq_nil_iff {ws : List SdpWrite} (h : SectionsOpen false ws) :
    sectionsOf ws = [] ↔ ∀ w ∈ ws, w.kind ≠ .media := by
  constructor
  · have hnil : ∀ cs : List MediaContent, ws.foldl addSection cs = [] →
        cs = [] ∧ ∀ w ∈ ws, w.kind ≠ .media := by
      clear h
      induction ws with
      | nil => exact fun cs hcs => ⟨hcs, by simp⟩
      | cons w ws ih =>
          intro cs hcs
          obtain ⟨hw, hws⟩ := ih _ hcs
          refine ⟨eq_nil_of_addSection hw, List.forall_mem_cons.mpr ⟨?_, hws⟩⟩
          intro hm
          cases w with
          | media => simp [addSection] at hw
          | _ => cases hm
    exact fun hs => (hnil [] hs).2
  · intro hno
    induction ws with
    | nil => rfl
    | cons w ws ih =>
        rw [List.forall_mem_cons] at hno
        obtain ⟨hs, hws⟩ := h
        rw [decide_eq_false hno.1, Bool.or_false] at hws
        rw [sectionsOf, List.foldl_cons,
          addSection_other [] hno.1 fun h => Bool.false_ne_true (hs h)]
        exact ih hws hno.2

theorem SessionDescription.parseSdp_contents {sd sd' : SessionDescription} {lines : List Str}
    {flag : Bool} (h : sd.parseSdp lines = .ok (flag, sd')) :
    ∃ ws, readLines false false lines = .ok (flag, ws) ∧
      sd'.mediaContents = sd.mediaContents ++ sectionsOf ws := by
  obtain ⟨ws, hr, rfl⟩ := parseSdp_ok_iff.mp h
  refine ⟨ws, hr, ?_⟩
  rw [writeAll_mediaContents, foldl_addSection (reads_of_readLines hr).sectionsOpen]

/-! ## The fingerprint of the first section -/

/-- The lines after the first `m=` line, up to the next one. -/
def firstSectionLines (lines : List Str) : List Str :=
  ((lines.dropWhile (kindOf · ≠ .media)).tail).takeWhile (kindOf · ≠ .media)

/-- One of them is a fingerprint line. -/
def OffersFingerprint (lines : List Str) : Prop :=
  ∃ line ∈ firstSectionLines lines, kindOf line = .fingerprint

instance (lines : List Str) : Decidable (OffersFingerprint lines) :=
  inferInstanceAs (Decidable (∃ line ∈ _, _))

/-- What the DTLS branch of `on_udp_receive` dereferences. -/
def DtlsReady (contents : List MediaContent) : Prop :=
  ∃ m rest, contents = m :: rest ∧ m.dtls.isSome = true

theorem DtlsReady.append {contents : List MediaContent} (h : DtlsReady contents)
    (more : List MediaContent) : DtlsReady (contents ++ more) := by
  obtain ⟨m, rest, rfl, hm⟩ := h
  exact ⟨m, rest ++ more, List.cons_append, hm⟩

theorem MediaContent.write_dtls (m : MediaContent) (w : SdpWrite) :
    (m.write w).dtls.isSome = true ↔ m.dtls.isSome = true ∨ w.kind = .fingerprint := by
  cases w <;> simp [write, SdpWrite.kind]

theorem addSection_singleton (m : MediaContent) {w : SdpWrite} (hw : w.kind ≠ .media) :
    addSection [m] w = [m.write w] := by
  cases w with
  | media => exact absurd rfl hw
  | _ => rfl

/-- In an open section, up to the end of accepted lines. -/
theorem Reads.dtlsReady_open {flag isOpen verdict : Bool} {lines : List Str}
    {ws : List SdpWrite} (h : Reads flag isOpen lines verdict ws) (ho : isOpen = true)
    (hv : verdict = true) (m : MediaContent) :
    DtlsReady (ws.foldl addSection [m]) ↔ m.dtls.isSome = true ∨
      ∃ line ∈ lines.takeWhile (kindOf · ≠ .media), kindOf line = .fingerprint := by
  induction h generalizing m with
  | done => simp [DtlsReady]
  | stops => cases hv
  | @goes flag isOpen verdict line lines r ws hr hf _ ih =>
      have ih := ih (by rw [ho, Bool.true_or]) hv
      cases readLine_outcome hr with
      | rejected => cases hf
      | @media type sup hk =>
          -- the next section: what follows does not reach the first one
          have hrest : ws.foldl addSection [m, { type := type }] =
              m :: ws.foldl addSection [{ type := type }] :=
            foldl_addSection_append [m] (List.cons_ne_nil _ _) ws
          rw [List.takeWhile_cons_of_neg (by simp [hk])]
          change DtlsReady (ws.foldl addSection [m, { type := type }]) ↔ _
          rw [hrest]
          simp [DtlsReady]
      | @stored w hm hk _ =>
          rw [← hk] at hm
          rw [List.takeWhile_cons_of_pos (by simpa [hk] using hm)]
          change DtlsReady (ws.foldl addSection (addSection [m] w)) ↔ _
          rw [addSection_singleton m hm, ih, MediaContent.write_dtls, List.exists_mem_cons_iff, hk,
            or_assoc]
      | skipped hk =>
          have hother : kindOf line = .other := by
            rcases hk with hk | ⟨-, hk⟩
            · exact hk
            · rw [ho] at hk
              cases hk
          rw [List.takeWhile_cons_of_pos (by simp [hother])]
          change DtlsReady (ws.foldl addSection [m]) ↔ _
          rw [ih, List.exists_mem_cons_iff, hother]
          simp

/-- Before any section is open, up to the end of accepted lines. -/
theorem Reads.dtlsReady {flag isOpen verdict : Bool} {lines : List Str}
    {ws : List SdpWrite} (h : Reads flag isOpen lines verdict ws) (ho : isOpen = false)
    (hv : verdict = true) : DtlsReady (sectionsOf ws) ↔ OffersFingerprint lines := by
  have hskip : ∀ {line lines}, kindOf line ≠ .media →
      (OffersFingerprint (line :: lines) ↔ OffersFingerprint lines) := by
    intro line lines hm
    unfold OffersFingerprint firstSectionLines
    rw [List.dropWhile_cons_of_pos (by simpa using hm)]
  induction h with
  | done => simp [DtlsReady, sectionsOf, OffersFingerprint, firstSectionLines]
  | stops => cases hv
  | @goes flag isOpen verdict line lines r ws hr hf hrest ih =>
      cases readLine_outcome hr with
      | rejected => cases hf
      | @media type sup hk =>
          have hopen := hrest.dtlsReady_open (by simp [hk]) hv { type := type }
          change DtlsReady (ws.foldl addSection [{ type := type }]) ↔ _
          rw [hopen]
          unfold OffersFingerprint firstSectionLines
          rw [List.dropWhile_cons_of_neg (by simp [hk]), List.tail_cons]
          simp
      | @stored w hm hk hs =>
          have hclosed : w.kind.isSection ≠ true := by
            intro h
            rw [hs (hk ▸ h)] at ho
            cases ho
          change DtlsReady (ws.foldl addSection (addSection [] w)) ↔ _
          rw [addSection_other [] (hk ▸ hm) hclosed, hskip hm]
          exact ih (by simp [ho, hm]) hv
      | skipped hk =>
          have hm := LineKind.not_media hk
          rw [hskip hm]
          exact ih (by simp [ho, hm]) hv

/-- **Which accepted offers are enough for DTLS**. -/
theorem SessionDescription.parseSdp_dtlsReady {lines : List Str} {sd : SessionDescription}
    (h : ({} : SessionDescription).parseSdp lines = .ok (true, sd)) :
    DtlsReady sd.mediaContents ↔ OffersFingerprint lines := by
  obtain ⟨ws, hr, hc⟩ := parseSdp_contents h
  rw [hc]
  exact (reads_of_readLines hr).dtlsReady rfl rfl

end JuanSfu
