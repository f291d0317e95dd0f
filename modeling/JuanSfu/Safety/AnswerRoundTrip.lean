import JuanSfu.Sdp.PlainLines
import JuanSfu.Sdp.Sections
import JuanSfu.Signaling.Answers
import JuanSfu.System

/-!
# Reading the answer to a pull

A client, or this server, that splits the answer at its line ends and parses it
gets back what the answer was built from: the puller's session, the server's
codecs and fingerprint, and what the publisher's sections had to forward.
-/

namespace JuanSfu

/-! ## What makes a line plain -/

/-- A version or session id with none of the characters lines are cut at. -/
structure PlainSession (sd : SessionDescription) : Prop where
  version : FreeOf (str " =\r\n") sd.session.version
  version_ne : sd.session.version ≠ []
  sessionId : FreeOf (str " =\r\n") sd.session.sessionId
  sessionId_ne : sd.session.sessionId ≠ []

structure PlainSsrc (p : SsrcParameter) : Prop where
  attri : FreeOf (str " :=\r\n") p.attri
  attri_ne : p.attri ≠ []
  value : FreeOf (str ":=\r\n") p.value
  value_ne : p.value ≠ []

structure PlainGroup (g : SsrcGroup) : Prop where
  semantic : FreeOf (str " =\r\n") g.semantic
  semantic_ne : g.semantic ≠ []
  ssrcs_ne : g.ssrcs ≠ []

/-- The entries that a pull forwards are plain. -/
structure PlainForwarded (contents : List MediaContent) : Prop where
  audio : ∀ p ∈ forwardedAudio contents, PlainSsrc p
  video : ∀ p ∈ forwardedVideo contents, PlainSsrc p
  groups : ∀ g ∈ forwardedGroups contents, PlainGroup g

/-- The names `OpenSSLCertificate::GetSignatureDigestAlgorithm` gives. -/
def digestAlgorithms : List Str :=
  [str "md5", str "sha-1", str "sha-224", str "sha-256", str "sha-384", str "sha-512"]

/-- A fingerprint made from a certificate. -/
structure OfCertificate (fp : SSLFingerprint) : Prop where
  algorithm : fp.algorithm ∈ digestAlgorithms
  digest_ne : fp.digest ≠ []

/-- A line that splitting at the line ends gives back. -/
def Printable (line : Str) : Prop := FreeOf (str "\r") line ∧ line ≠ []

instance (line : Str) : Decidable (Printable line) :=
  inferInstanceAs (Decidable (FreeOf (str "\r") line ∧ line ≠ []))

theorem Printable.append {a b : Str} (ha : Printable a) (hb : FreeOf (str "\r") b) :
    Printable (a ++ b) :=
  ⟨freeOf_append.mpr ⟨ha.1, hb⟩, List.append_ne_nil_of_left_ne_nil ha.2 b⟩

theorem split_printable {lines : List Str} (h : ∀ line ∈ lines, Printable line) :
    split (lines.map (· ++ crlf)).flatten crlf [] = .ok lines := by
  have hnil : ¬ crlf <:+: ([] : Str) := by decide
  have hno : ∀ line ∈ lines, ¬ crlf <:+: line := fun line hl =>
    Cuts.not_infix_of_notMem (List.mem_cons_self ..) ((h line hl).1 13 (by decide))
  have hcut := Cuts.of_lines (by decide) hno hnil
  rw [List.append_nil] at hcut
  rw [split_cuts hcut, List.filter_append, List.filter_eq_self.mpr]
  · rw [List.filter_cons_of_neg (by simp), List.filter_nil, List.append_nil]
  · exact fun line hl => decide_eq_true (h line hl).2

/-! ## The fingerprint's text -/

theorem hexDigit_toNat {v : UInt8} (h : v.toNat < 16) :
    (hexDigit v).toNat = if v.toNat < 10 then 48 + v.toNat else 55 + v.toNat := by
  unfold hexDigit
  simp only [UInt8.lt_iff_toNat_lt, UInt8.reduceToNat]
  split <;> rw [UInt8.toNat_add] <;> simp only [UInt8.reduceToNat] <;> omega

/-- A hexadecimal digit is none of the characters that stand between fields. -/
theorem hexDigit_plain {v : UInt8} (h : v.toNat < 16) : hexDigit v ∉ str " =\r" := by
  have hv := hexDigit_toNat h
  have hmem : ∀ c ∈ str " =\r", c.toNat ≠ (hexDigit v).toNat := by
    rw [hv]
    intro c hc
    have hc : c = 32 ∨ c = 61 ∨ c = 13 := by
      simpa using (show c ∈ [32, 61, 13] from hc)
    rcases hc with rfl | rfl | rfl <;> simp only [UInt8.reduceToNat] <;> split <;> omega
  exact fun hin => hmem _ hin rfl

theorem mem_of_mem_intersperse {α : Type} {sep x : α} :
    ∀ {l : List α}, x ∈ l.intersperse sep → x = sep ∨ x ∈ l
  | [], h => absurd h List.not_mem_nil
  | [_], h => Or.inr h
  | a :: b :: l, h => by
      rw [List.intersperse_cons_cons, List.mem_cons, List.mem_cons] at h
      rcases h with rfl | rfl | h
      · exact Or.inr (List.mem_cons_self ..)
      · exact Or.inl rfl
      · rcases mem_of_mem_intersperse h with rfl | h
        · exact Or.inl rfl
        · exact Or.inr (List.mem_cons_of_mem _ h)

theorem freeOf_fingerprint (fp : SSLFingerprint) :
    FreeOf (str " =\r") (getRfc4572Fingerprint fp) := by
  intro c hc hin
  obtain ⟨octet, ho, hin⟩ := List.mem_flatten.mp hin
  rcases mem_of_mem_intersperse ho with rfl | ho
  · rw [List.mem_singleton] at hin
    subst hin
    exact absurd hc (by decide)
  · obtain ⟨b, -, rfl⟩ := List.mem_map.mp ho
    have hhigh : (b >>> 4).toNat < 16 := by
      have := b.toNat_lt
      rw [UInt8.toNat_shiftRight, Nat.shiftRight_eq_div_pow]
      exact Nat.div_lt_of_lt_mul this
    have hlow : (b &&& 15).toNat < 16 := by
      rw [UInt8.toNat_and]
      exact Nat.lt_succ_of_le Nat.and_le_right
    rcases List.mem_pair.mp hin with rfl | rfl
    · exact hexDigit_plain hhigh hc
    · exact hexDigit_plain hlow hc

theorem fingerprint_ne_nil {fp : SSLFingerprint} (h : fp.digest ≠ []) :
    getRfc4572Fingerprint fp ≠ [] := by
  obtain ⟨b, digest, hd⟩ := List.exists_cons_of_ne_nil h
  unfold getRfc4572Fingerprint
  rw [hd]
  cases digest <;> exact List.cons_ne_nil _ _

/-! ## Reading the fixed lines -/

variable {env : Env} {fp : SSLFingerprint} {offer : SessionDescription} {addr : BindAddress}
  {rnd : IceCredentials} {isOpen : Bool}

/-- The fingerprint as a parser stores it. -/
def dtlsOf (fp : SSLFingerprint) : DtlsParameter where
  alg := fp.algorithm
  fingerPrint := getRfc4572Fingerprint fp
  identityFp := createUniqueFromRfc4572 fp.algorithm (getRfc4572Fingerprint fp)

/-- What the lines about the codecs store. -/
def codecWrites : MediaType → List SdpWrite
  | .audio =>
      [.media .audio { port := 9, dtls := true, codecIds := codecIdsOf [str "111"] },
        .desc 111 (str "opus/48000/2")]
  | .video =>
      [.media .video { port := 9, dtls := true, codecIds := codecIdsOf [str "108", str "109"] },
        .desc 108 (str "H264/90000"), .desc 109 (str "rtx/90000")]

theorem goes_codecLines (type : MediaType) : Goes isOpen (codecLines type) true
    (codecWrites type) := by
  cases type with
  | audio =>
      have hmedia : Goes isOpen [str "m=audio 9 UDP/TLS/RTP/SAVPF 111"] true [.media .audio
          { port := 9, dtls := true, codecIds := codecIdsOf [str "111"] }] := .media rfl rfl
      have hconn : Goes true [str "c=IN IP4 0.0.0.0", str "a=rtcp:9 IN IP4 0.0.0.0"] true [] :=
        .other (by decide +kernel)
      have hopus : Goes true [str "a=rtpmap:111 opus/48000/2"] true
          [.desc 111 (str "opus/48000/2")] := .accepted rfl
      have hrest : Goes true [str "a=fmtp:111 useinbandfec=1;minptime=10",
          str "a=rtcp-fb:111 transport-cc"] true [] := .other (by decide +kernel)
      exact ((hmedia.append hconn).append hopus).append hrest
  | video =>
      have hmedia : Goes isOpen [str "m=video 9 UDP/TLS/RTP/SAVPF 108 109"] true [.media .video
          { port := 9, dtls := true, codecIds := codecIdsOf [str "108", str "109"] }] :=
        .media rfl rfl
      have hconn : Goes true [str "c=IN IP4 0.0.0.0", str "a=rtcp:9 IN IP4 0.0.0.0"] true [] :=
        .other (by decide +kernel)
      have hh264 : Goes true [str "a=rtpmap:108 H264/90000"] true
          [.desc 108 (str "H264/90000")] := .accepted rfl
      have hrtx : Goes true [str "a=rtpmap:109 rtx/90000"] true
          [.desc 109 (str "rtx/90000")] := .accepted rfl
      have hrest : ∀ line ∈ (codecLines .video).drop 5, kindOf line = .other := by
        decide +kernel
      exact (((hmedia.append hconn).append hh264).append hrtx).append (.other hrest)

/-- What the candidate line has besides its name. -/
theorem candidate_text (h : FreeOf (str "=\r") (env.hostAsUriString addr.ip))
    (rnd : IceCredentials) :
    ∃ text, unended (candidateLine env (candidateOf env addr rnd)) =
      str "a=candidate:" ++ text ∧ FreeOf (str "=\r") text := by
  have hnat : ∀ n, FreeOf (str "=\r") (natToStr n) := freeOf_natToStr (by decide)
  have hudp : FreeOf (str "=\r") (str "udp") := by decide
  have hhostType : FreeOf (str "=\r") (str "host") := by decide
  unfold candidateLine
  rw [unended_append]
  simp only [List.append_assoc]
  refine ⟨_, rfl, ?_⟩
  simp only [freeOf_append]
  exact ⟨hnat _, by decide, hnat _, by decide, hudp, by decide, hnat _, by decide, h,
    by decide, hnat _, by decide, hhostType⟩

theorem goes_transportLines (hcert : OfCertificate fp) (hufrag : FreeOf (str "=") rnd.ufrag)
    (hpasswd : FreeOf (str "=") rnd.passwd)
    (hhost : FreeOf (str "=\r") (env.hostAsUriString addr.ip)) {mid : Str}
    (hmid : FreeOf (str "=") mid) :
    Goes true (transportLines env fp addr rnd mid) true [.dtls (dtlsOf fp)] := by
  -- an attribute that no parser looks at, told by its name
  have hother : ∀ name value : Str, FreeOf (str "=") (name ++ value) →
      attrKind (name ++ value) = .other → kindOf (str "a=" ++ name ++ value) = .other := by
    intro name value hfree hkind
    rw [List.append_assoc, kindOf_attr (hfree 61 (by decide)), hkind]
  obtain ⟨text, hcand, htext⟩ := candidate_text hhost rnd
  have halg : FreeOf (str " =") fp.algorithm ∧ fp.algorithm ≠ [] := by
    have hall : ∀ alg ∈ digestAlgorithms, FreeOf (str " =") alg ∧ alg ≠ [] := by decide
    exact hall _ hcert.algorithm
  have hbefore : ∀ line ∈ [str "a=rtcp-mux", str "a=ice-lite", str "a=ice-ufrag:" ++ rnd.ufrag,
      str "a=ice-pwd:" ++ rnd.passwd], kindOf line = .other := by
    simp only [List.forall_mem_cons]
    refine ⟨hother (str "rtcp-mux") [] (by decide) rfl, hother (str "ice-lite") [] (by decide) rfl,
      ?_, ?_, by simp⟩
    · exact hother (str "ice-ufrag:") _ (freeOf_append.mpr ⟨by decide, hufrag⟩) rfl
    · exact hother (str "ice-pwd:") _ (freeOf_append.mpr ⟨by decide, hpasswd⟩) rfl
  have hline := readLine_fingerprint halg.1 halg.2
    ((freeOf_fingerprint fp).mono (by decide)) (fingerprint_ne_nil hcert.digest_ne)
  have hafter : ∀ line ∈ [str "a=setup:passive", str "a=mid:" ++ mid, str "a=sendonly",
      unended (candidateLine env (candidateOf env addr rnd))], kindOf line = .other := by
    simp only [List.forall_mem_cons]
    refine ⟨hother (str "setup:passive") [] (by decide) rfl, ?_,
      hother (str "sendonly") [] (by decide) rfl, ?_, by simp⟩
    · exact hother (str "mid:") _ (freeOf_append.mpr ⟨by decide, hmid⟩) rfl
    · rw [hcand]
      exact hother (str "candidate:") _
        (freeOf_append.mpr ⟨by decide, htext.mono (by decide)⟩) rfl
  exact ((Goes.other hbefore).append (.accepted hline)).append (.other hafter)

/-! ## Reading the forwarded lines -/

theorem PlainSsrc.readLine {p : SsrcParameter} (h : PlainSsrc p) :
    readLine true (unended (ssrcLine p)) = .ok (.accepted (.ssrc p)) := by
  rw [ssrcLine, unended_append, if_neg h.value_ne]
  exact readLine_ssrc (h.attri.mono (by decide)) h.attri_ne (h.value.mono (by decide)) h.value_ne

theorem PlainGroup.readLine {g : SsrcGroup} (h : PlainGroup g) :
    readLine true (unended (ssrcGroupLine g)) = .ok (.accepted (.ssrcGroup g)) := by
  rw [ssrcGroupLine, unended_append]
  exact readLine_ssrcGroup (h.semantic.mono (by decide)) h.semantic_ne h.ssrcs_ne

theorem goes_ssrcs {ps : List SsrcParameter} (h : ∀ p ∈ ps, PlainSsrc p) :
    Goes true ((ps.map ssrcLine).map unended) true (ps.map .ssrc) := by
  rw [List.map_map]
  exact .stored fun p hp => (h p hp).readLine

theorem goes_ssrcGroups {gs : List SsrcGroup} (h : ∀ g ∈ gs, PlainGroup g) :
    Goes true ((gs.map ssrcGroupLine).map unended) true (gs.map .ssrcGroup) := by
  rw [List.map_map]
  exact .stored fun g hg => (h g hg).readLine

/-! ## Reading the whole answer -/

/-- What the environment and the generator give an answer to print. -/
structure PlainAnswer (env : Env) (fp : SSLFingerprint) (addr : BindAddress)
    (rnd : IceCredentials) : Prop where
  fingerprint : OfCertificate fp
  host : FreeOf (str "=\r") (env.hostAsUriString addr.ip)
  ufrag : FreeOf (str "=\r") rnd.ufrag
  passwd : FreeOf (str "=\r") rnd.passwd

/-- The lines of one section of the answer to a pull. -/
def sectionLines (env : Env) (fp : SSLFingerprint) (addr : BindAddress) (rnd : IceCredentials)
    (type : MediaType) (mid : Str) (gs : List SsrcGroup) (ps : List SsrcParameter) : List Str :=
  codecLines type ++ transportLines env fp addr rnd mid ++
    (gs.map ssrcGroupLine).map unended ++ (ps.map ssrcLine).map unended

/-- What reading them stores. -/
def sectionWrites (fp : SSLFingerprint) (type : MediaType) (gs : List SsrcGroup)
    (ps : List SsrcParameter) : List SdpWrite :=
  codecWrites type ++ [.dtls (dtlsOf fp)] ++ gs.map .ssrcGroup ++ ps.map .ssrc

theorem goes_sectionLines (h : PlainAnswer env fp addr rnd) {mid : Str}
    (hmid : FreeOf (str "=") mid) (type : MediaType) {gs : List SsrcGroup}
    {ps : List SsrcParameter} (hgs : ∀ g ∈ gs, PlainGroup g) (hps : ∀ p ∈ ps, PlainSsrc p) :
    Goes isOpen (sectionLines env fp addr rnd type mid gs ps) true
      (sectionWrites fp type gs ps) :=
  (((goes_codecLines type).append (goes_transportLines h.fingerprint (h.ufrag.mono (by decide))
    (h.passwd.mono (by decide)) h.host hmid)).append (goes_ssrcGroups hgs)).append
      (goes_ssrcs hps)

/-- The lines of the answer to a pull. -/
def pullLines (env : Env) (fp : SSLFingerprint) (offer : SessionDescription)
    (contents : List MediaContent) (addr : BindAddress) (rnd : IceCredentials) : List Str :=
  [str "v=" ++ offer.session.version,
    str "o=" ++ (str "-" ++ ((offer.session.sessionId ::
      [str "2", str "IN", str "IP4", str "0.0.0.0"]).map (32 :: ·)).flatten),
    str "s=-", str "t=0 0", str "a=msid-semantic: WMS", str "a=group:BUNDLE 0 1"] ++
  sectionLines env fp addr rnd .audio (str "0") [] (forwardedAudio contents) ++
  sectionLines env fp addr rnd .video (str "1") (forwardedGroups contents)
    (forwardedVideo contents)

/-- What reading them stores. -/
def pullWrites (fp : SSLFingerprint) (offer : SessionDescription)
    (contents : List MediaContent) : List SdpWrite :=
  [.version offer.session.version, .origin (str "-") offer.session.sessionId] ++
    sectionWrites fp .audio [] (forwardedAudio contents) ++
    sectionWrites fp .video (forwardedGroups contents) (forwardedVideo contents)

theorem pullAnswer_lines (h : env.certificateFingerprint = some fp) (peer : SessionDescription) :
    (Server.answerSdp env offer (some peer) Server.pullOptions addr rnd).toString env =
      ((pullLines env fp offer peer.mediaContents addr rnd).map (· ++ crlf)).flatten := by
  have hssrcs : ∀ ps : List SsrcParameter, (ps.map ssrcLine).flatten =
      (((ps.map ssrcLine).map unended).map (· ++ crlf)).flatten := fun ps =>
    (flatten_unended (List.forall_mem_map.mpr fun p _ => ssrcLine_ended p)).symm
  have hgroups : ∀ gs : List SsrcGroup, (gs.map ssrcGroupLine).flatten =
      (((gs.map ssrcGroupLine).map unended).map (· ++ crlf)).flatten := fun gs =>
    (flatten_unended (List.forall_mem_map.mpr fun g _ => ssrcGroupLine_ended g)).symm
  have hsession : (Server.answerSdp env offer (some peer) Server.pullOptions addr
      rnd).sessionLines = [str "v=" ++ offer.session.version,
        str "o=" ++ (str "-" ++ ((offer.session.sessionId ::
          [str "2", str "IN", str "IP4", str "0.0.0.0"]).map (32 :: ·)).flatten),
        str "s=-", str "t=0 0", str "a=msid-semantic: WMS", str "a=group:BUNDLE 0 1"] := by
    rw [Server.answerSdp_some h, SessionDescription.sessionLines]
    simp only [List.append_assoc]
    rfl
  rw [Server.pullAnswer_text h, List.flatten_append, hssrcs, hssrcs, hgroups, hsession]
  simp only [pullLines, sectionLines, List.map_append, List.flatten_append, List.map_nil,
    List.append_nil, List.append_assoc]

/-- **Every line of the answer is read as what it was written from.** -/
theorem readLines_pullLines (h : PlainAnswer env fp addr rnd) (hoffer : PlainSession offer)
    {contents : List MediaContent} (hpeer : PlainForwarded contents) :
    readLines false false (pullLines env fp offer contents addr rnd) =
      .ok (true, pullWrites fp offer contents) := by
  have hfields : ∀ f ∈ [str "-", offer.session.sessionId, str "2", str "IN", str "IP4",
      str "0.0.0.0"], FreeOf (str " =") f ∧ f ≠ [] := by
    simp only [List.forall_mem_cons]
    exact ⟨by decide, ⟨hoffer.sessionId.mono (by decide), hoffer.sessionId_ne⟩, by decide,
      by decide, by decide, by decide, by simp⟩
  have hother : ∀ line ∈ [str "s=-", str "t=0 0", str "a=msid-semantic: WMS",
      str "a=group:BUNDLE 0 1"], kindOf line = .other := by decide +kernel
  have hzero : FreeOf (str "=") (str "0") := by decide
  have hone : FreeOf (str "=") (str "1") := by decide
  have hsession : Goes false _ false _ :=
    (Goes.accepted (readLine_origin rfl hfields)).append (.other hother)
  have hnone : ∀ g ∈ ([] : List SsrcGroup), PlainGroup g := List.forall_mem_nil _
  have hall := (hsession.append (goes_sectionLines h hzero .audio hnone hpeer.audio)).append
    (goes_sectionLines h hone .video hpeer.groups hpeer.video)
  exact readLines_of_goes
    (readLine_version (hoffer.version.mono (by decide)) hoffer.version_ne) hall

/-! ## Splitting the answer -/

theorem printable_transportLines (h : PlainAnswer env fp addr rnd) {mid : Str}
    (hmid : FreeOf (str "\r") mid) :
    ∀ line ∈ transportLines env fp addr rnd mid, Printable line := by
  have halg : FreeOf (str "\r") fp.algorithm := by
    have hall : ∀ alg ∈ digestAlgorithms, FreeOf (str "\r") alg := by decide
    exact hall _ h.fingerprint.algorithm
  have hfinger : Printable (str "a=fingerprint:" ++ fp.algorithm ++ str " " ++
      getRfc4572Fingerprint fp) := by
    apply Printable.append _ ((freeOf_fingerprint fp).mono (by decide))
    apply Printable.append _ (by decide)
    exact Printable.append (by decide) halg
  obtain ⟨text, hcand, htext⟩ := candidate_text h.host rnd
  have hcandidate : Printable (unended (candidateLine env (candidateOf env addr rnd))) := by
    rw [hcand]
    exact Printable.append (by decide) (htext.mono (by decide))
  simp only [transportLines, List.forall_mem_cons]
  exact ⟨by decide, by decide, Printable.append (by decide) (h.ufrag.mono (by decide)),
    Printable.append (by decide) (h.passwd.mono (by decide)), hfinger, by decide,
    Printable.append (by decide) hmid, by decide, hcandidate, by simp⟩

theorem PlainSsrc.printable {p : SsrcParameter} (h : PlainSsrc p) :
    Printable (unended (ssrcLine p)) := by
  rw [ssrcLine, unended_append, if_neg h.value_ne]
  apply Printable.append _ (freeOf_append.mpr ⟨by decide, h.value.mono (by decide)⟩)
  apply Printable.append _ (h.attri.mono (by decide))
  apply Printable.append _ (by decide)
  exact Printable.append (by decide) (freeOf_natToStr (by decide) _)

theorem PlainGroup.printable {g : SsrcGroup} (h : PlainGroup g) :
    Printable (unended (ssrcGroupLine g)) := by
  have hssrcs : FreeOf (str "\r") (g.ssrcs.map fun s => str " " ++ natToStr s.toNat).flatten := by
    intro c hc hin
    obtain ⟨l, hl, hin⟩ := List.mem_flatten.mp hin
    obtain ⟨s, -, rfl⟩ := List.mem_map.mp hl
    exact freeOf_append.mpr ⟨by decide, freeOf_natToStr (by decide) s.toNat⟩ c hc hin
  rw [ssrcGroupLine, unended_append]
  exact (Printable.append (by decide) (h.semantic.mono (by decide))).append hssrcs

theorem printable_sectionLines (h : PlainAnswer env fp addr rnd) {mid : Str}
    (hmid : FreeOf (str "\r") mid) (type : MediaType) {gs : List SsrcGroup}
    {ps : List SsrcParameter} (hgs : ∀ g ∈ gs, PlainGroup g) (hps : ∀ p ∈ ps, PlainSsrc p) :
    ∀ line ∈ sectionLines env fp addr rnd type mid gs ps, Printable line := by
  have hcodecs : ∀ line ∈ codecLines type, Printable line := by
    cases type with
    | audio => decide +kernel
    | video => decide +kernel
  simp only [sectionLines, List.forall_mem_append, List.forall_mem_map]
  exact ⟨⟨⟨hcodecs, printable_transportLines h hmid⟩, fun g hg => (hgs g hg).printable⟩,
    fun p hp => (hps p hp).printable⟩

theorem split_pullLines (h : PlainAnswer env fp addr rnd) (hoffer : PlainSession offer)
    {contents : List MediaContent} (hpeer : PlainForwarded contents) :
    split ((pullLines env fp offer contents addr rnd).map (· ++ crlf)).flatten crlf [] =
      .ok (pullLines env fp offer contents addr rnd) := by
  have hzero : FreeOf (str "\r") (str "0") := by decide
  have hone : FreeOf (str "\r") (str "1") := by decide
  have hnone : ∀ g ∈ ([] : List SsrcGroup), PlainGroup g := List.forall_mem_nil _
  have horigin : Printable (str "o=" ++ (str "-" ++ ((offer.session.sessionId ::
      [str "2", str "IN", str "IP4", str "0.0.0.0"]).map (32 :: ·)).flatten)) := by
    refine ⟨?_, by simp [str]⟩
    intro c hc
    obtain rfl : c = 13 := List.mem_singleton.mp hc
    rw [List.mem_append, not_or]
    refine ⟨by decide, notMem_fields (by decide) (by decide) ?_⟩
    simp only [List.forall_mem_cons]
    exact ⟨hoffer.sessionId 13 (by decide), by decide, by decide, by decide, by decide, by simp⟩
  apply split_printable
  simp only [pullLines, List.forall_mem_append, List.forall_mem_cons]
  refine ⟨⟨⟨?_, horigin, by decide, by decide, by decide, by decide, by simp⟩, ?_⟩, ?_⟩
  · exact Printable.append (by decide) (hoffer.version.mono (by decide))
  · exact printable_sectionLines h hzero .audio hnone hpeer.audio
  · exact printable_sectionLines h hone .video hpeer.groups hpeer.video

/-! ## What was stored -/

/-- Writes to the section that is open. -/
theorem SessionDescription.writeAll_section (sd : SessionDescription) {ws : List SdpWrite}
    {init : List MediaContent} {m : MediaContent} (hm : sd.mediaContents = init ++ [m])
    (h : ∀ w ∈ ws, w.kind.isSection = true) :
    sd.writeAll ws = { sd with mediaContents := init ++ [ws.foldl MediaContent.write m] } := by
  induction ws generalizing sd m with
  | nil =>
      rw [writeAll_nil, List.foldl_nil, ← hm]
  | cons w ws ih =>
      rw [List.forall_mem_cons] at h
      have hw : sd.write w = { sd with mediaContents := init ++ [m.write w] } := by
        rw [sd.write_section h.1, hm, List.modifyLast_concat]
      rw [writeAll_cons, hw, ih _ rfl h.2, List.foldl_cons]

theorem foldl_write_ssrcs (m : MediaContent) (ps : List SsrcParameter) :
    (ps.map SdpWrite.ssrc).foldl MediaContent.write m = { m with ssrcs := m.ssrcs ++ ps } := by
  induction ps generalizing m with
  | nil => rw [List.map_nil, List.foldl_nil, List.append_nil]
  | cons p ps ih =>
      rw [List.map_cons, List.foldl_cons, ih]
      simp only [MediaContent.write, List.append_assoc, List.singleton_append]

theorem foldl_write_ssrcGroups (m : MediaContent) (gs : List SsrcGroup) :
    (gs.map SdpWrite.ssrcGroup).foldl MediaContent.write m =
      { m with ssrcGroups := m.ssrcGroups ++ gs } := by
  induction gs generalizing m with
  | nil => rw [List.map_nil, List.foldl_nil, List.append_nil]
  | cons g gs ih =>
      rw [List.map_cons, List.foldl_cons, ih]
      simp only [MediaContent.write, List.append_assoc, List.singleton_append]

/-- The codecs that the lines of a section leave behind. -/
def codecsOf : MediaType → UnorderedMap ℤ CodecInfo
  | .audio =>
      (codecIdsOf [str "111"]).insert 111 { payloadType := 111, desc := str "opus/48000/2" }
  | .video =>
      ((codecIdsOf [str "108", str "109"]).insert 108
        { payloadType := 108, desc := str "H264/90000" }).insert 109
          { payloadType := 109, desc := str "rtx/90000" }

/-- A description is looked for among the video codecs first. -/
theorem writeAll_codecWrites_audio (sd : SessionDescription)
    (hv : sd.videoSup.codecIds = ∅) : sd.writeAll (codecWrites .audio) =
      { sd with
        audioSup := { port := 9, dtls := true, codecIds := codecsOf .audio }
        mediaContents := sd.mediaContents ++ [{ type := .audio }] } := by
  cases sd with
  | mk session contents videoSup =>
    cases videoSup with
    | mk name port dtls codecIds =>
      obtain rfl : codecIds = ∅ := hv
      rfl

theorem writeAll_codecWrites_video (sd : SessionDescription) :
    sd.writeAll (codecWrites .video) =
      { sd with
        videoSup := { port := 9, dtls := true, codecIds := codecsOf .video }
        mediaContents := sd.mediaContents ++ [{ type := .video }] } := rfl

/-- A section as it is read back. -/
def readBack (fp : SSLFingerprint) (type : MediaType) (gs : List SsrcGroup)
    (ps : List SsrcParameter) : MediaContent :=
  { type, dtls := some (dtlsOf fp), ssrcs := ps, ssrcGroups := gs }

/-- What is stored in a section that has just been opened. -/
theorem writeAll_sectionWrites {sd sd' : SessionDescription} {init : List MediaContent}
    {type : MediaType} (hcodecs : sd.writeAll (codecWrites type) = sd')
    (hm : sd'.mediaContents = init ++ [{ type := type }]) (gs : List SsrcGroup)
    (ps : List SsrcParameter) : sd.writeAll (sectionWrites fp type gs ps) =
      { sd' with mediaContents := init ++ [readBack fp type gs ps] } := by
  have hsection : ∀ w ∈ [.dtls (dtlsOf fp)] ++ gs.map SdpWrite.ssrcGroup ++
      ps.map SdpWrite.ssrc, w.kind.isSection = true := by
    simp only [List.forall_mem_append, List.forall_mem_singleton, List.forall_mem_map]
    exact ⟨⟨rfl, fun _ _ => rfl⟩, fun _ _ => rfl⟩
  rw [sectionWrites, List.append_assoc (codecWrites type), List.append_assoc (codecWrites type),
    sd.writeAll_append, hcodecs, sd'.writeAll_section hm hsection, List.foldl_append,
    List.foldl_append, foldl_write_ssrcGroups, foldl_write_ssrcs]
  rfl

theorem writeAll_pullWrites (contents : List MediaContent) :
    ({} : SessionDescription).writeAll (pullWrites fp offer contents) =
      { session :=
          { version := offer.session.version
            username := str "-"
            sessionId := offer.session.sessionId }
        audioSup := { port := 9, dtls := true, codecIds := codecsOf .audio }
        videoSup := { port := 9, dtls := true, codecIds := codecsOf .video }
        mediaContents :=
          [readBack fp .audio [] (forwardedAudio contents),
            readBack fp .video (forwardedGroups contents) (forwardedVideo contents)] } := by
  rw [pullWrites, SessionDescription.writeAll_append, SessionDescription.writeAll_append,
    writeAll_sectionWrites (writeAll_codecWrites_audio _ rfl) rfl,
    writeAll_sectionWrites (writeAll_codecWrites_video _) rfl]
  rfl

/-! ## The round trip -/

/-- The codecs of a table and their descriptions are those of a section. -/
def SameCodecs (sup : MediaCodecSupport) (m : MediaContent) : Prop :=
  ∀ id, (sup.codecIds.lookup id).map (fun c => (c.payloadType, c.desc)) =
    (m.rtpmaps.find? (·.payloadType == id)).map fun c => (c.payloadType, c.desc)

/-- `sd` has what the answer was built from. -/
structure Recovers (answer offer peer sd : SessionDescription) : Prop where
  version : sd.session.version = offer.session.version
  sessionId : sd.session.sessionId = offer.session.sessionId
  kinds : sd.mediaContents.map (·.type) = [.audio, .video]
  codecs : ∃ audio video, answer.mediaContents = [audio, video] ∧ audio.type = .audio ∧
    video.type = .video ∧ SameCodecs sd.audioSup audio ∧ SameCodecs sd.videoSup video
  fingerprint : ∃ fp, answer.fingerprint = some fp ∧ ∀ m ∈ sd.mediaContents,
    ∃ d, m.dtls = some d ∧ d.alg = fp.algorithm ∧ d.fingerPrint = getRfc4572Fingerprint fp
  ssrcs : sd.mediaContents.map (·.ssrcs) =
    [forwardedAudio peer.mediaContents, forwardedVideo peer.mediaContents]
  ssrcGroups : sd.mediaContents.getLast?.map (·.ssrcGroups) =
    some (forwardedGroups peer.mediaContents)

theorem sameCodecs_audio {sup : MediaCodecSupport} (h : sup.codecIds = codecsOf .audio)
    (contents : Option (List MediaContent)) : SameCodecs sup
      (finishAnswer env addr rnd (audioAnswer Server.pullOptions contents)) := by
  intro id
  have hid : atoi (str "111") = 111 := rfl
  rw [h]
  by_cases h111 : id = 111
  · subst h111
    rfl
  · simp [codecsOf, codecIdsOf, hid, h111, finishAnswer, audioAnswer, Ne.symm h111]

theorem sameCodecs_video {sup : MediaCodecSupport} (h : sup.codecIds = codecsOf .video)
    (contents : Option (List MediaContent)) : SameCodecs sup
      (finishAnswer env addr rnd (videoAnswer Server.pullOptions contents)) := by
  intro id
  have hid : atoi (str "108") = 108 ∧ atoi (str "109") = 109 := ⟨rfl, rfl⟩
  rw [h]
  by_cases h108 : id = 108
  · subst h108
    rfl
  · by_cases h109 : id = 109
    · subst h109
      rfl
    · simp [codecsOf, codecIdsOf, hid, h108, h109, finishAnswer, videoAnswer, Ne.symm h108,
        Ne.symm h109]

theorem freeOf_createRandomString (bytes : Bytes) :
    FreeOf (str "=\r") (createRandomString bytes) := by
  have htable : FreeOf (str "=\r") kBase64 := by decide +kernel
  exact fun c hc hin => htable c hc (mem_createRandomString hin)

/-- The answer that `handle_pull` builds, from the bytes its random strings are
made of. -/
def pullAnswer (env : Env) (offer peer : SessionDescription) (port : UInt32)
    (ufrag passwd : Bytes) : SessionDescription :=
  Server.answerSdp env offer (some peer) Server.pullOptions { ip := env.ipstr, port }
    ⟨createRandomString ufrag, createRandomString passwd⟩

/-- **Reading the answer to a pull recovers what it was built from.** -/
theorem answer_round_trip (hfp : env.certificateFingerprint = some fp) (hcert : OfCertificate fp)
    (hhost : FreeOf (str "=\r") (env.hostAsUriString env.ipstr)) (hoffer : PlainSession offer)
    {peer : SessionDescription} (hpeer : PlainForwarded peer.mediaContents) (port : UInt32)
    (ufrag passwd : Bytes) :
    ∃ vecs sd, split ((pullAnswer env offer peer port ufrag passwd).toString env) crlf [] =
        .ok vecs ∧
      ({} : SessionDescription).parseSdp vecs = .ok (true, sd) ∧
      Recovers (pullAnswer env offer peer port ufrag passwd) offer peer sd := by
  have hplain : PlainAnswer env fp { ip := env.ipstr, port }
      ⟨createRandomString ufrag, createRandomString passwd⟩ :=
    ⟨hcert, hhost, freeOf_createRandomString ufrag, freeOf_createRandomString passwd⟩
  have hanswer : pullAnswer env offer peer port ufrag passwd = _ := Server.answerSdp_some hfp
  have hsplit := split_pullLines hplain hoffer hpeer
  have hread := readLines_pullLines hplain hoffer hpeer
  rw [← pullAnswer_lines hfp] at hsplit
  refine ⟨_, ({} : SessionDescription).writeAll (pullWrites fp offer peer.mediaContents),
    hsplit, ?_, ?_⟩
  · exact parseSdp_ok_iff.mpr ⟨_, hread, rfl⟩
  · rw [writeAll_pullWrites]
    refine ⟨rfl, rfl, rfl, ?_, ?_, rfl, rfl⟩
    · rw [hanswer]
      exact ⟨_, _, rfl, rfl, rfl, sameCodecs_audio rfl _, sameCodecs_video rfl _⟩
    · rw [hanswer]
      refine ⟨fp, rfl, ?_⟩
      simp only [List.forall_mem_cons]
      exact ⟨⟨_, rfl, rfl, rfl⟩, ⟨_, rfl, rfl, rfl⟩, by simp⟩

/-- A puller's session and a publisher with audio and retransmitted video. -/
def Sample.puller : SessionDescription :=
  { session := { version := str "0", sessionId := str "4611" } }

def Sample.publisher : SessionDescription :=
  { mediaContents :=
      [{ type := .audio, ssrcs := [⟨1, str "cname", str "mic"⟩] },
        { type := .video, ssrcs := [⟨4294967295, str "msid", str "cam 0"⟩],
          ssrcGroups := [⟨str "FID", [2, 3]⟩] }] }

theorem answer_round_trip_sample :
    ∃ vecs sd, split ((pullAnswer Sample.env Sample.puller Sample.publisher 7000 [1, 2, 3, 4]
        [5, 6]).toString Sample.env) crlf [] = .ok vecs ∧
      ({} : SessionDescription).parseSdp vecs = .ok (true, sd) ∧
      Recovers (pullAnswer Sample.env Sample.puller Sample.publisher 7000 [1, 2, 3, 4] [5, 6])
        Sample.puller Sample.publisher sd := by
  have hcert : OfCertificate ⟨str "sha-1", [1]⟩ := ⟨by decide, by decide⟩
  have hoffer : PlainSession Sample.puller := ⟨by decide, by decide, by decide, by decide⟩
  have hpeer : PlainForwarded Sample.publisher.mediaContents := by
    refine ⟨?_, ?_, ?_⟩
    · exact List.forall_mem_singleton.mpr ⟨by decide, by decide, by decide, by decide⟩
    · exact List.forall_mem_singleton.mpr ⟨by decide, by decide, by decide, by decide⟩
    · exact List.forall_mem_singleton.mpr ⟨by decide, by decide, by decide⟩
  exact answer_round_trip rfl hcert (by decide) hoffer hpeer 7000 [1, 2, 3, 4] [5, 6]

end JuanSfu
