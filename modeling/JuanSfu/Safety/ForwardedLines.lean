import JuanSfu.Signaling.Answers
import JuanSfu.System

/-!
# What a publisher can write into an answer

An offer is cut at the four characters `\r\n`, still escaped, so a field of an
`a=ssrc:` line may have a carriage return and a line feed in it. The entry is
stored as it is and written into the answer of everybody who pulls: there its
line feed ends a line, and what follows is a line of the publisher's choice.
-/

namespace JuanSfu

/-! ## Forwarded entries and their lines -/

/-- **One line for each entry**, with the beginning of such a line: what a
section writes after its fixed lines. -/
def OneLineEach (m : MediaContent) : Prop :=
  ∃ lines, Cuts crlf m.forwardedLines.flatten (lines ++ [[]]) ∧
    lines.length = m.ssrcGroups.length + m.ssrcs.length ∧
    ∀ line ∈ lines, str "a=ssrc:" <+: line ∨ str "a=ssrc-group:" <+: line

/-- No entry has a line end in it. -/
def NoLineEnds (gs : List SsrcGroup) (ps : List SsrcParameter) : Prop :=
  (∀ g ∈ gs, ¬ crlf <:+: g.semantic) ∧
    ∀ p ∈ ps, ¬ crlf <:+: p.attri ∧ ¬ crlf <:+: p.value

instance (gs : List SsrcGroup) (ps : List SsrcParameter) : Decidable (NoLineEnds gs ps) :=
  inferInstanceAs (Decidable ((∀ g ∈ gs, _) ∧ ∀ p ∈ ps, _))

theorem crlf_not_infix_natToStr (n : ℕ) (before : Str) (h : 13 ∉ before) :
    ¬ crlf <:+: before ++ natToStr n := by
  apply Cuts.not_infix_of_notMem (List.mem_cons_self ..)
  rw [List.mem_append, not_or]
  exact ⟨h, fun hin => absurd (isDigit_natToStr hin) (by decide)⟩

theorem crlf_infix_ssrcLine (p : SsrcParameter) :
    crlf <:+: unended (ssrcLine p) ↔ crlf <:+: p.attri ∨ crlf <:+: p.value := by
  have hblank : (32 : UInt8) ∉ crlf := by decide
  have hcolon : (58 : UInt8) ∉ crlf := by decide
  have hhead := crlf_not_infix_natToStr p.ssrc.toNat (str "a=ssrc:") (by decide)
  have htail : crlf <:+: p.attri ++ (if p.value = [] then [] else str ":" ++ p.value) ↔
      crlf <:+: p.attri ∨ crlf <:+: p.value := by
    by_cases hv : p.value = []
    · have hnil : ¬ crlf <:+: ([] : Str) := by decide
      simp [hv, hnil]
    · rw [if_neg hv]
      exact Cuts.infix_append_cons_iff hcolon
  rw [ssrcLine, unended_append, List.append_assoc, List.append_assoc,
    show str " " ++ (p.attri ++ (if p.value = [] then [] else str ":" ++ p.value)) =
      32 :: (p.attri ++ (if p.value = [] then [] else str ":" ++ p.value)) from rfl,
    Cuts.infix_append_cons_iff hblank, htail]
  exact or_iff_right hhead

theorem crlf_infix_ssrcGroupLine (g : SsrcGroup) :
    crlf <:+: unended (ssrcGroupLine g) ↔ crlf <:+: g.semantic := by
  have hcolon : (58 : UInt8) ∉ crlf := by decide
  have hblank : (32 : UInt8) ∉ crlf := by decide
  have hname : ¬ crlf <:+: str "a=ssrc-group" := by decide
  have hnums : ∀ ssrcs : List UInt32,
      (13 : UInt8) ∉ (ssrcs.map fun s => str " " ++ natToStr s.toNat).flatten := by
    intro ssrcs hin
    obtain ⟨l, hl, hin⟩ := List.mem_flatten.mp hin
    obtain ⟨s, -, rfl⟩ := List.mem_map.mp hl
    rcases List.mem_append.mp hin with hin | hin
    · exact absurd hin (by decide)
    · exact absurd (isDigit_natToStr hin) (by decide)
  have htail : crlf <:+: g.semantic ++ (g.ssrcs.map fun s => str " " ++ natToStr s.toNat).flatten ↔
      crlf <:+: g.semantic := by
    cases g.ssrcs with
    | nil => rw [List.map_nil, List.flatten_nil, List.append_nil]
    | cons s ssrcs =>
        have hrest : ¬ crlf <:+: natToStr s.toNat ++
            (ssrcs.map fun s => str " " ++ natToStr s.toNat).flatten := by
          apply Cuts.not_infix_of_notMem (List.mem_cons_self ..)
          rw [List.mem_append, not_or]
          exact ⟨fun hin => absurd (isDigit_natToStr hin) (by decide), hnums ssrcs⟩
        rw [List.map_cons, List.flatten_cons, List.append_assoc]
        exact (Cuts.infix_append_cons_iff hblank).trans (or_iff_left hrest)
  rw [ssrcGroupLine, unended_append, List.append_assoc]
  exact (Cuts.infix_append_cons_iff hcolon).trans ((or_iff_right hname).trans htail)

theorem MediaContent.forwardedLines_ended (m : MediaContent) :
    ∀ line ∈ m.forwardedLines, Ended line := by
  simp only [forwardedLines, List.forall_mem_append, List.forall_mem_map]
  exact ⟨fun g _ => ssrcGroupLine_ended g, fun p _ => ssrcLine_ended p⟩

/-- **The lines of a section are as many as its entries** if and only if no entry
has a line end in it. -/
theorem oneLineEach_iff (m : MediaContent) :
    OneLineEach m ↔ NoLineEnds m.ssrcGroups m.ssrcs := by
  have hsep : Unbordered crlf := by decide
  have hbodies : (∀ body ∈ m.forwardedLines.map unended, ¬ crlf <:+: body) ↔
      NoLineEnds m.ssrcGroups m.ssrcs := by
    simp only [MediaContent.forwardedLines, List.map_append, List.forall_mem_append,
      List.forall_mem_map, crlf_infix_ssrcGroupLine, crlf_infix_ssrcLine, NoLineEnds, not_or]
  have hlen : (m.forwardedLines.map unended).length = m.ssrcGroups.length + m.ssrcs.length := by
    simp only [MediaContent.forwardedLines, List.length_map, List.length_append]
  rw [← hbodies, OneLineEach, ← flatten_unended m.forwardedLines_ended, ← hlen]
  constructor
  · rintro ⟨lines, hcut, hlines, -⟩
    exact (Cuts.terminated_iff hsep (by decide)).mp ⟨lines, hcut, hlines⟩
  · intro h
    have hcut := Cuts.of_lines hsep h (by decide : ¬ crlf <:+: ([] : Str))
    rw [List.append_nil] at hcut
    refine ⟨_, hcut, rfl, ?_⟩
    simp only [MediaContent.forwardedLines, List.map_append, List.forall_mem_append,
      List.forall_mem_map]
    refine ⟨fun g _ => Or.inr ?_, fun p _ => Or.inl ?_⟩
    · rw [ssrcGroupLine, unended_append, List.append_assoc]
      exact List.prefix_append _ _
    · rw [ssrcLine, unended_append, List.append_assoc, List.append_assoc, List.append_assoc]
      exact List.prefix_append _ _

/-- What a pull takes from the peer's offer has no line end in it. -/
def ForwardsPlainly (contents : List MediaContent) : Prop :=
  NoLineEnds [] (forwardedAudio contents) ∧
    NoLineEnds (forwardedGroups contents) (forwardedVideo contents)

instance (contents : List MediaContent) : Decidable (ForwardsPlainly contents) :=
  inferInstanceAs (Decidable (_ ∧ _))

namespace Server

variable {env : Env} {cfg : Config} {s s' : Server}

/-- The sections of an answer to a pull forward what they took. -/
theorem answer_oneLineEach_iff {offer peer : SessionDescription} {addr : BindAddress}
    {rnd : IceCredentials} :
    (∀ m ∈ (answerSdp env offer (some peer) pullOptions addr rnd).mediaContents, OneLineEach m) ↔
      env.certificateFingerprint = none ∨ ForwardsPlainly peer.mediaContents := by
  cases hfp : env.certificateFingerprint with
  | none => simp [answerSdp_none hfp]
  | some fp =>
      have hsections : (∀ m ∈ (answerSdp env offer (some peer) pullOptions addr rnd).mediaContents,
          OneLineEach m) ↔ ForwardsPlainly peer.mediaContents := by
        rw [answerSdp_some hfp]
        simp only [List.forall_mem_cons, List.not_mem_nil, false_imp_iff, implies_true, and_true,
          oneLineEach_iff, Option.map_some, audio_ssrcs]
        exact Iff.rfl
      simp [hsections]

/-! ## Over a run -/

/-- The text has the session lines and then, for each section, the fixed lines
and one line for each entry that is forwarded. -/
structure Linewise (env : Env) (answer : SessionDescription) (text : Str) : Prop where
  parts : text = (answer.sessionLines.map (· ++ crlf)).flatten ++
    (answer.mediaContents.map fun m =>
      (answer.mediaLines env m.bare).flatten ++ m.forwardedLines.flatten).flatten
  each : ∀ m ∈ answer.mediaContents, OneLineEach m

/-- **What a pull is sent** has no line of the publisher's choice. -/
def AnswersLinewise (env : Env) (s : Server) (l : Event × List Effect) : Prop :=
  ∀ c msg rnd sroomid r u m lines t flag offerSdp port portMgr, l.1 = .message c msg rnd →
    s.Requests msg sroomid r u m lines (some t) →
    m.offerSdp.parseSdp lines = .ok (flag, offerSdp) →
    s.portMgr.allocatePort = .ok (port, portMgr) →
      ∃ text, .reply c (sdpReply (str "resp-pullstream") sroomid u text) ∈ l.2 ∧
        Linewise env (s.answerOf env r u offerSdp (some t) port rnd) text

/-- The offer that a pull is answered from, as it is when the answer is made, has
no line end in what is forwarded of it. -/
def PullsPlainly (env : Env) (s : Server) (l : Event × List Effect) : Prop :=
  ∀ c msg rnd sroomid r u m lines t flag offerSdp peer, l.1 = .message c msg rnd →
    s.Requests msg sroomid r u m lines (some t) →
    m.offerSdp.parseSdp lines = .ok (flag, offerSdp) →
    s.peerOffer r u offerSdp (some t) = some peer →
      env.certificateFingerprint = none ∨ ForwardsPlainly peer.mediaContents

/-- A pull has an offer to be answered from. -/
theorem exists_peerOffer {msg : Json} {sroomid : Str} {r : ℤ} {u : Str} {m : RoomMember}
    {lines : List Str} {t : Str} (h : s.Requests msg sroomid r u m lines (some t))
    (offerSdp : SessionDescription) : ∃ peer, s.peerOffer r u offerSdp (some t) = some peer := by
  cases h with
  | pull _ _ _ _ hpeer =>
      obtain ⟨m', hm'⟩ := Option.isSome_iff_exists.mp hpeer
      by_cases ht : t = u
      · exact ⟨offerSdp, if_pos ht⟩
      · exact ⟨m'.offerSdp, by rw [peerOffer, if_neg ht, hm']; rfl⟩

theorem answersLinewise_iff_step {l : Event × List Effect}
    (hstep : (system env cfg).step s l s') : AnswersLinewise env s l ↔ PullsPlainly env s l := by
  obtain ⟨e, effects⟩ := l
  obtain ⟨-, hexec⟩ := hstep
  constructor
  · rintro hlines c msg rnd sroomid r u m lines t flag offerSdp peer rfl hreq hparse hpeer
    cases handle_outcome_of_requests hreq hexec with
    | @answered _ _ _ port portMgr hparse' hgo halloc =>
        obtain ⟨text, -, hlinewise⟩ :=
          hlines c msg rnd sroomid r u m lines t flag offerSdp port portMgr rfl hreq hparse halloc
        have heach := hlinewise.each
        rw [answerOf, hpeer] at heach
        exact answer_oneLineEach_iff.mp heach
  · rintro hplain c msg rnd sroomid r u m lines t flag offerSdp port portMgr rfl hreq hparse halloc
    obtain ⟨peer, hpeer⟩ := exists_peerOffer hreq offerSdp
    have hpeerPlain := hplain c msg rnd sroomid r u m lines t flag offerSdp peer rfl hreq hparse
      hpeer
    cases handle_outcome_of_requests hreq hexec with
    | answered hparse' hgo halloc' =>
        rw [hparse] at hparse'
        cases hparse'
        rw [halloc] at halloc'
        cases halloc'
        refine ⟨_, List.mem_cons_of_mem _ (List.mem_cons_self ..),
          SessionDescription.toString_eq env _, ?_⟩
        rw [answerOf, hpeer]
        exact answer_oneLineEach_iff.mpr hpeerPlain

/-- **When answers are free of the publisher's lines**: every pull of a run is
answered line by line if and only if every one is answered from a plain offer. -/
theorem answersLinewise_iff {tr : List (Server × (Event × List Effect))}
    (run : Lts.Run (system env cfg) tr s) :
    Lts.Guarded (AnswersLinewise env) tr ↔ Lts.Guarded (PullsPlainly env) tr :=
  run.guarded_congr fun _ _ _ _ hstep => answersLinewise_iff_step hstep

end Server

/-! ## A line of the publisher's choice -/

namespace Sample

/-- The value of the last line goes on behind a line end. -/
def brokenLines : List Str :=
  [str "v=0", str "o=- 1 2 IN IP4 0.0.0.0", str "s=-", str "t=0 0",
    str "m=audio 9 UDP/TLS/RTP/SAVPF 111", str "a=ssrc:1 cname:x\r\na=inactive"]

/-- A group and an entry that fit on lines of their own. -/
def groupedLines : List Str :=
  [str "v=0", str "o=- 1 2 IN IP4 0.0.0.0", str "s=-", str "t=0 0",
    str "m=video 9 UDP/TLS/RTP/SAVPF 96", str "a=ssrc-group:FID 1 2", str "a=ssrc:1 cname:x"]

def pullMsg : Json :=
  requestOf (str "pullstream") (str "1") bob
    [(str "remote_uid", .string alice), (str "sdp", .string sdp)]

end Sample

namespace Server

open Sample

/-- What Bob is sent has the group and the entry in it. -/
theorem answersLinewise_iff_pull :
    ∃ tr s, Lts.Run (system Sample.env cfg) tr s ∧
      (∃ m answer, s.member 1 bob = some m ∧ m.answerSdp = some answer ∧
        answer.mediaContents.map (·.forwardedLines.length) = [0, 2]) ∧
      (Lts.Guarded (AnswersLinewise Sample.env) tr ↔
        Lts.Guarded (PullsPlainly Sample.env) tr) := by
  obtain ⟨s, ⟨tr, run⟩, hv⟩ := exists_reachable_of_runEvents Sample.env cfg
    [join 1 (str "1") alice, publishOf 1 (str "1") alice groupedLines,
      join 2 (str "1") bob [alice], pull 2 (str "1") bob alice]
    (fun s => ((s.member 1 bob).bind (·.answerSdp)).map fun answer =>
      answer.mediaContents.map (·.forwardedLines.length)) (some [0, 2]) (by decide +kernel)
  obtain ⟨answer, hanswer, hlines⟩ := Option.map_eq_some_iff.mp hv
  obtain ⟨m, hm, hanswer⟩ := Option.bind_eq_some_iff.mp hanswer
  exact ⟨tr, s, run, ⟨m, answer, hm, hanswer, hlines⟩, answersLinewise_iff run⟩

/-- The publish is accepted, and whoever pulls is sent `a=inactive`. -/
theorem broken_publish_forwarded :
    ∃ tr s, Lts.Run (system Sample.env cfg) tr s ∧
      ¬ Lts.Guarded (AnswersLinewise Sample.env) tr := by
  obtain ⟨tr, s, s', effects, run, hstep, hv⟩ := exists_step_of_runEvents Sample.env cfg
    [join 1 (str "1") alice, publishOf 1 (str "1") alice brokenLines,
      join 2 (str "1") bob [alice]] (.message 2 pullMsg rnd)
    (fun s _ _ => ((s.member 1 bob).isSome,
      (s.member 1 alice).map fun m => forwardedAudio m.offerSdp.mediaContents))
    (true, some [⟨1, str "cname", str "x\r\na=inactive"⟩]) (by decide +kernel)
  obtain ⟨hbob, halice⟩ := Prod.mk.inj hv
  obtain ⟨m, hm⟩ := Option.isSome_iff_exists.mp hbob
  obtain ⟨m', hm', hforwarded⟩ := Option.map_eq_some_iff.mp halice
  refine ⟨_, s', run.snoc hstep, ?_⟩
  intro hlines
  have hreq : s.Requests pullMsg (str "1") 1 bob m offerLines (some alice) :=
    .pull rfl ⟨by decide, by decide, by decide, by decide, by decide, hm, by decide +kernel⟩
      (by decide) (by decide) (by rw [hm']; rfl)
  have hplain := (answersLinewise_iff_step hstep).mp (hlines _ (List.mem_cons_self ..))
  cases handle_outcome_of_requests hreq hstep.2 with
  | @answered flag offerSdp _ port portMgr hparse hgo halloc =>
      have hpeer : s.peerOffer 1 bob offerSdp (some alice) = some m'.offerSdp := by
        rw [peerOffer, if_neg (by decide), hm']
        rfl
      rcases hplain 2 pullMsg rnd _ _ _ m _ _ flag offerSdp _ rfl hreq hparse hpeer with h | h
      · cases h
      · have haudio := h.1
        rw [hforwarded] at haudio
        exact absurd haudio (by decide)

end Server

end JuanSfu
