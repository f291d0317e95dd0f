import JuanSfu.Signaling.SignalingHandle

/-!
# The text of an answer

`to_string` writes the session lines and then, section by section, lines that
the server makes up and lines that it forwards from the peer's offer. Here the
two are told apart, and the lines that every answer to a pull has are listed.
-/

namespace JuanSfu

/-! ## Random strings -/

def kBase64 : Str := str "ABCDEFGHIJKLMNOPQRSTUVWXYZabcdefghijklmnopqrstuvwxyz0123456789+/"

/-- `rtc::CreateRandomString`, from the bytes its generator gives. -/
def createRandomString (bytes : Bytes) : Str :=
  bytes.map fun b => kBase64.getD (b.toNat % 64) 0

theorem mem_createRandomString {bytes : Bytes} {c : UInt8}
    (h : c ∈ createRandomString bytes) : c ∈ kBase64 := by
  obtain ⟨b, -, rfl⟩ := List.mem_map.mp h
  have hlt : b.toNat % 64 < kBase64.length := Nat.mod_lt _ (by decide)
  rw [List.getD, List.getElem?_eq_getElem hlt]
  exact List.getElem_mem hlt

/-! ## Lines and their ends -/

/-- The line without its end. -/
def unended (line : Str) : Str := line.take (line.length - crlf.length)

theorem unended_append (body : Str) : unended (body ++ crlf) = body := by
  rw [unended, List.length_append, Nat.add_sub_cancel, List.take_left]

def Ended (line : Str) : Prop := ∃ body, line = body ++ crlf

theorem Ended.eq {line : Str} (h : Ended line) : unended line ++ crlf = line := by
  obtain ⟨body, rfl⟩ := h
  rw [unended_append]

theorem flatten_unended {lines : List Str} (h : ∀ line ∈ lines, Ended line) :
    ((lines.map unended).map (· ++ crlf)).flatten = lines.flatten := by
  have hmap : (lines.map unended).map (· ++ crlf) = lines := by
    rw [List.map_map]
    exact (List.map_congr_left fun line hl => (h line hl).eq).trans (List.map_id' lines)
  rw [hmap]

theorem candidateLine_ended (env : Env) (c : IceCandidate) : Ended (candidateLine env c) := ⟨_, rfl⟩

theorem ssrcGroupLine_ended (g : SsrcGroup) : Ended (ssrcGroupLine g) := ⟨_, rfl⟩

theorem ssrcLine_ended (p : SsrcParameter) : Ended (ssrcLine p) := ⟨_, rfl⟩

/-! ## Fixed and forwarded lines -/

/-- The section with nothing to forward. -/
def MediaContent.bare (m : MediaContent) : MediaContent :=
  { m with ssrcs := [], ssrcGroups := [] }

/-- The lines `add_media_content` ends with. -/
def MediaContent.forwardedLines (m : MediaContent) : List Str :=
  m.ssrcGroups.map ssrcGroupLine ++ m.ssrcs.map ssrcLine

namespace SessionDescription

/-- The lines before the first section, without their ends. -/
def sessionLines (sd : SessionDescription) : List Str :=
  [str "v=" ++ sd.session.version,
    str "o=" ++ sd.session.username ++ str " " ++ sd.session.sessionId ++ str " " ++
      sd.session.sessionVersion ++ str " " ++ sd.session.nettType ++ str " " ++
      sd.session.addrType ++ str " " ++ sd.session.uniAddr,
    str "s=" ++ sd.session.sessionName,
    str "t=" ++ sd.session.ts,
    sd.session.attr,
    str "a=group:BUNDLE 0 1"]

/-- The lines of a section are its fixed ones and then the forwarded ones. -/
theorem mediaLines_eq (env : Env) (sd : SessionDescription) (m : MediaContent) :
    sd.mediaLines env m = sd.mediaLines env m.bare ++ m.forwardedLines := by
  have hbare : sd.mediaLines env m.bare ++ [] ++ [] = sd.mediaLines env m.bare := by
    rw [List.append_nil, List.append_nil]
  rw [← hbare, MediaContent.forwardedLines, mediaLines, List.append_assoc]
  simp only [mediaLines, MediaContent.bare, List.map_nil, List.append_nil]
  rfl

/-- **The text of an answer**, section by section. -/
theorem toString_eq (env : Env) (sd : SessionDescription) :
    sd.toString env = (sd.sessionLines.map (· ++ crlf)).flatten ++
      (sd.mediaContents.map fun m =>
        (sd.mediaLines env m.bare).flatten ++ m.forwardedLines.flatten).flatten := by
  have hsection : ∀ m : MediaContent, (sd.mediaLines env m).flatten =
      (sd.mediaLines env m.bare).flatten ++ m.forwardedLines.flatten := by
    intro m
    rw [mediaLines_eq, List.flatten_append]
  unfold SessionDescription.toString
  rw [List.map_congr_left fun m _ => hsection m]
  simp only [sessionLines, List.map_cons, List.map_nil, List.flatten_cons, List.flatten_nil,
    List.append_assoc, List.append_nil]

end SessionDescription

/-! ## The answer to a pull -/

/-- What `create_answer` adds to either section. -/
def finishAnswer (env : Env) (addr : BindAddress) (rnd : IceCredentials) (m : MediaContent) :
    MediaContent :=
  { m with
    ice := { ufrag := rnd.ufrag, mode := str "ice-lite", passwd := rnd.passwd }
    connectionRole := str "passive"
    cands := m.cands ++ [candidateOf env addr rnd] }

variable {env : Env} {fp : SSLFingerprint} {offer : SessionDescription}
  {peer : Option SessionDescription} {o : RTCOfferAnswerOptions} {addr : BindAddress}
  {rnd : IceCredentials}

namespace Server

theorem answerSdp_none (h : env.certificateFingerprint = none) :
    (answerSdp env offer peer o addr rnd).mediaContents = [] := by
  cases peer <;> simp only [answerSdp, SessionDescription.createAnswer, h] <;> rfl

theorem answerSdp_some (h : env.certificateFingerprint = some fp) :
    answerSdp env offer peer o addr rnd =
      { session :=
          { version := offer.session.version
            sessionId := offer.session.sessionId
            uniAddr := str "0.0.0.0"
            username := str "-" }
        fingerprint := some fp
        peerOfferSdp := peer.map (·.mediaContents)
        mediaContents :=
          [finishAnswer env addr rnd (audioAnswer o (peer.map (·.mediaContents))),
            finishAnswer env addr rnd (videoAnswer o (peer.map (·.mediaContents)))] } := by
  cases peer <;> simp only [answerSdp, SessionDescription.createAnswer, h] <;> rfl

end Server

/-- The lines about a section's codecs, which are the same in every answer. -/
def codecLines : MediaType → List Str
  | .audio =>
      [str "m=audio 9 UDP/TLS/RTP/SAVPF 111", str "c=IN IP4 0.0.0.0",
        str "a=rtcp:9 IN IP4 0.0.0.0", str "a=rtpmap:111 opus/48000/2",
        str "a=fmtp:111 useinbandfec=1;minptime=10", str "a=rtcp-fb:111 transport-cc"]
  | .video =>
      [str "m=video 9 UDP/TLS/RTP/SAVPF 108 109", str "c=IN IP4 0.0.0.0",
        str "a=rtcp:9 IN IP4 0.0.0.0", str "a=rtpmap:108 H264/90000",
        str "a=rtpmap:109 rtx/90000",
        str "a=fmtp:108 profile-level-id=42e01f;packetization-mode=1;level-asymmetry-allowed=1",
        str "a=fmtp:109 apt=108", str "a=rtcp-fb:108 goog-remb", str "a=rtcp-fb:108 nack",
        str "a=rtcp-fb:108 nack pli"]

/-- The lines about a section's transport in the answer to a pull. -/
def transportLines (env : Env) (fp : SSLFingerprint) (addr : BindAddress)
    (rnd : IceCredentials) (mid : Str) : List Str :=
  [str "a=rtcp-mux", str "a=ice-lite", str "a=ice-ufrag:" ++ rnd.ufrag,
    str "a=ice-pwd:" ++ rnd.passwd,
    str "a=fingerprint:" ++ fp.algorithm ++ str " " ++ getRfc4572Fingerprint fp,
    str "a=setup:passive", str "a=mid:" ++ mid, str "a=sendonly",
    unended (candidateLine env (candidateOf env addr rnd))]

theorem audio_fixedLines {sd : SessionDescription} (h : sd.fingerprint = some fp)
    (contents : Option (List MediaContent)) :
    sd.mediaLines env (finishAnswer env addr rnd
      (audioAnswer Server.pullOptions contents)).bare =
        (codecLines .audio ++ transportLines env fp addr rnd (str "0")).map (· ++ crlf) := by
  have hcand := (candidateLine_ended env (candidateOf env addr rnd)).eq
  simp only [SessionDescription.mediaLines, h, transportLines, List.map_append, List.map_cons,
    List.map_nil, hcand]
  rfl

theorem video_fixedLines {sd : SessionDescription} (h : sd.fingerprint = some fp)
    (contents : Option (List MediaContent)) :
    sd.mediaLines env (finishAnswer env addr rnd
      (videoAnswer Server.pullOptions contents)).bare =
        (codecLines .video ++ transportLines env fp addr rnd (str "1")).map (· ++ crlf) := by
  have hcand := (candidateLine_ended env (candidateOf env addr rnd)).eq
  simp only [SessionDescription.mediaLines, h, transportLines, List.map_append, List.map_cons,
    List.map_nil, hcand]
  rfl

/-! ## What a pull forwards -/

/-- Of the peer's first audio section. -/
def forwardedAudio (contents : List MediaContent) : List SsrcParameter :=
  ((SessionDescription.getMediaContent contents .audio).map (·.ssrcs)).getD []

/-- Of the peer's first video section. -/
def forwardedVideo (contents : List MediaContent) : List SsrcParameter :=
  ((SessionDescription.getMediaContent contents .video).map (·.ssrcs)).getD []

def forwardedGroups (contents : List MediaContent) : List SsrcGroup :=
  ((SessionDescription.getMediaContent contents .video).map (·.ssrcGroups)).getD []

theorem audio_ssrcs (contents : List MediaContent) :
    (finishAnswer env addr rnd (audioAnswer Server.pullOptions (some contents))).ssrcs =
      forwardedAudio contents := by
  unfold forwardedAudio finishAnswer audioAnswer
  rw [Option.bind_some]
  cases SessionDescription.getMediaContent contents .audio <;> rfl

theorem audio_forwardedLines (contents : List MediaContent) :
    (finishAnswer env addr rnd (audioAnswer Server.pullOptions (some contents))).forwardedLines =
      (forwardedAudio contents).map ssrcLine := by
  rw [MediaContent.forwardedLines, audio_ssrcs]
  rfl

theorem video_forwardedLines (contents : List MediaContent) :
    (finishAnswer env addr rnd (videoAnswer Server.pullOptions (some contents))).forwardedLines =
      (forwardedGroups contents).map ssrcGroupLine ++ (forwardedVideo contents).map ssrcLine := rfl

/-- **The text of the answer to a pull**: the session, then for each kind the
fixed lines and the forwarded ones. -/
theorem Server.pullAnswer_text (h : env.certificateFingerprint = some fp)
    (peer : SessionDescription) :
    (answerSdp env offer (some peer) pullOptions addr rnd).toString env =
      ((answerSdp env offer (some peer) pullOptions addr rnd).sessionLines.map
        (· ++ crlf)).flatten ++
      ((codecLines .audio ++ transportLines env fp addr rnd (str "0")).map (· ++ crlf)).flatten ++
      ((forwardedAudio peer.mediaContents).map ssrcLine).flatten ++
      ((codecLines .video ++ transportLines env fp addr rnd (str "1")).map (· ++ crlf)).flatten ++
      ((forwardedGroups peer.mediaContents).map ssrcGroupLine ++
        (forwardedVideo peer.mediaContents).map ssrcLine).flatten := by
  rw [SessionDescription.toString_eq]
  generalize hA : answerSdp env offer (some peer) pullOptions addr rnd = A
  have hsome := hA
  rw [answerSdp_some h] at hsome
  have hfp : A.fingerprint = some fp := by rw [← hsome]
  have hcontents : A.mediaContents =
      [finishAnswer env addr rnd (audioAnswer pullOptions (some peer.mediaContents)),
        finishAnswer env addr rnd (videoAnswer pullOptions (some peer.mediaContents))] := by
    rw [← hsome]
    rfl
  rw [hcontents, List.map_cons, List.map_singleton, List.flatten_cons, List.flatten_singleton,
    audio_fixedLines hfp, video_fixedLines hfp, audio_forwardedLines, video_forwardedLines]
  simp only [List.append_assoc]

end JuanSfu
