import JuanSfu.Sdp.SslFingerprint

/-!
# `sdp/session_description.cpp`

The parser of the offers the browsers send and the writer of the server's
answers. `parseSdp` stores line by line into the object it is called on and
stops at the first line that leaves its flag false; what earlier lines stored
stays. A section pointer (`ptr` in the source) is the index of a media content.
-/

namespace JuanSfu

structure SessionSdp where
  version : Str := []
  username : Str := []
  sessionId : Str := []
  sessionVersion : Str := str "2"
  nettType : Str := str "IN"
  addrType : Str := str "IP4"
  uniAddr : Str := []
  sessionName : Str := str "-"
  ts : Str := str "0 0"
  attr : Str := str "a=msid-semantic: WMS"
deriving DecidableEq

inductive MediaType where
  | audio
  | video
deriving DecidableEq

structure FeedbackParameter where
  id : Str
  param : Str := []
deriving DecidableEq

structure CodecInfo where
  payloadType : ℤ
  desc : Str := []
  fbs : List FeedbackParameter := []
deriving DecidableEq

structure MediaCodecSupport where
  name : Str := []
  port : ℤ := 0
  dtls : Bool := false
  codecIds : UnorderedMap ℤ CodecInfo := ∅

structure RTCOfferAnswerOptions where
  sendAudio : Bool := true
  sendVideo : Bool := true
  recvAudio : Bool := true
  recvVideo : Bool := true
  useRtcpMux : Bool := true

structure FormatParameter where
  codecId : ℤ
  params : UnorderedMap Str Str := ∅

inductive RtcDirection where
  | sendRecv
  | sendOnly
  | recvOnly
  | inactive
deriving DecidableEq

structure IceParameter where
  mode : Str := []
  ufrag : Str := []
  passwd : Str := []
deriving DecidableEq

structure DtlsParameter where
  alg : Str
  fingerPrint : Str
  identityFp : Option SSLFingerprint := none
deriving DecidableEq

structure SsrcParameter where
  ssrc : UInt32
  attri : Str
  value : Str
deriving DecidableEq

structure SsrcGroup where
  semantic : Str
  ssrcs : List UInt32
deriving DecidableEq

structure IceCandidate where
  component : ℕ
  protocol : Str
  address : Str
  port : UInt32
  priority : UInt32
  username : Str
  password : Str
  type : Str
  foundation : Str
deriving DecidableEq

/-- `AudioContentDesc` and `VideoContentDesc`, told apart by `type`. -/
structure MediaContent where
  type : MediaType
  connectionInfo : Str := str "IN IP4 0.0.0.0"
  fixAttr1 : Str := str "rtcp:9 IN IP4 0.0.0.0"
  rtpmaps : List CodecInfo := []
  fmtps : List FormatParameter := []
  useDtls : Bool := true
  rtcpMux : Bool := true
  direct : RtcDirection := .inactive
  ice : IceParameter := {}
  connectionRole : Str := []
  cands : List IceCandidate := []
  dtls : Option DtlsParameter := none
  ssrcs : List SsrcParameter := []
  ssrcGroups : List SsrcGroup := []

def MediaContent.mid (m : MediaContent) : Str :=
  match m.type with
  | .audio => str "0"
  | .video => str "1"

def MediaContent.name (m : MediaContent) : Str :=
  match m.type with
  | .audio => str "audio"
  | .video => str "video"

/-- `_peer_offer_sdp` is kept as the peer's media contents, all that is read
of it. -/
structure SessionDescription where
  session : SessionSdp := {}
  mediaContents : List MediaContent := []
  videoSup : MediaCodecSupport := { name := str "video" }
  audioSup : MediaCodecSupport := { name := str "audio" }
  fingerprint : Option SSLFingerprint := none
  peerOfferSdp : Option (List MediaContent) := none

/-! ## The line parsers -/

def mediaProtoDtlsSavpf : Str := str "UDP/TLS/RTP/SAVPF"

def mediaProtoSavpf : Str := str "RTP/SAVPF"

/-- `sdp.substr(sdp.find(":") + 1)`, which is the whole line without a colon. -/
def afterColon (sdp : Str) : Str :=
  match find sdp (str ":") 0 with
  | some pos => sdp.drop (pos + 1)
  | none => sdp

def parseSsrcGroups (m : MediaContent) (sdp : Str) : Result (Bool × MediaContent) := do
  let vecs ← split (afterColon sdp) (str " ") []
  if vecs.length < 2 then
    return (false, m)
  let semantic ← index vecs 0
  let ssrcs := (vecs.drop 1).map fun v => UInt32.ofInt (atoll v)
  return (true, { m with ssrcGroups := m.ssrcGroups ++ [⟨semantic, ssrcs⟩] })

/-- The second size check of the source looks at `vecs` again, so `vecs2` is
indexed unchecked. -/
def parseSsrcs (m : MediaContent) (sdp : Str) : Result (Bool × MediaContent) := do
  let vecs ← split (afterColon sdp) (str ":") []
  if vecs.length ≠ 2 then
    return (false, m)
  let value ← index vecs 1
  let head ← index vecs 0
  let vecs2 ← split head (str " ") []
  if vecs.length ≠ 2 then
    return (false, m)
  let attri ← index vecs2 1
  let ssrc ← index vecs2 0
  return (true,
    { m with ssrcs := m.ssrcs ++ [⟨UInt32.ofInt (atoll ssrc), attri, value⟩] })

def SessionDescription.parseVersion (sd : SessionDescription) (sdp : Str) :
    Result (Bool × SessionDescription) := do
  let vecs ← split sdp (str "=") []
  if vecs.length ≠ 2 then
    return (false, sd)
  let version ← index vecs 1
  return (true, { sd with session.version := version })

def SessionDescription.parseOrigin (sd : SessionDescription) (sdp : Str) :
    Result (Bool × SessionDescription) := do
  let vecs ← split sdp (str "=") []
  if vecs.length ≠ 2 then
    return (false, sd)
  let vecs2 ← split (← index vecs 1) (str " ") []
  if vecs2.length ≠ 6 then
    return (false, sd)
  let username ← index vecs2 0
  let sessionId ← index vecs2 1
  return (true,
    { sd with session.username := username, session.sessionId := sessionId })

/-- `for (i = 3; ...) sup.codec_ids[atoi(vecs2[i])] = info`. -/
def codecIdsOf (pts : List Str) : UnorderedMap ℤ CodecInfo :=
  pts.foldl (fun m v => m.insert (atoi v) { payloadType := atoi v }) ∅

/-- The new section's index, or `none` for the source's `nullptr`. -/
def SessionDescription.parseMedia (sd : SessionDescription) (sdp : Str) :
    Result (Option ℕ × SessionDescription) := do
  let vecs ← split sdp (str "=") []
  if vecs.length ≠ 2 then
    return (none, sd)
  let vecs2 ← split (← index vecs 1) (str " ") []
  if vecs2.length < 4 then
    return (none, sd)
  let port := atoi (← index vecs2 1)
  let proto ← index vecs2 2
  if proto ≠ mediaProtoDtlsSavpf ∧ proto ≠ mediaProtoSavpf then
    return (none, sd)
  let sup : MediaCodecSupport :=
    { port, dtls := proto == mediaProtoDtlsSavpf, codecIds := codecIdsOf (vecs2.drop 3) }
  let kind ← index vecs2 0
  if kind = str "video" then
    return (some sd.mediaContents.length,
      { sd with videoSup := sup,
                mediaContents := sd.mediaContents ++ [{ type := .video }] })
  else if kind = str "audio" then
    return (some sd.mediaContents.length,
      { sd with audioSup := sup,
                mediaContents := sd.mediaContents ++ [{ type := .audio }] })
  else
    return (none, sd)

def SessionDescription.parseRtpmap (sd : SessionDescription) (sdp : Str) :
    Result (Bool × SessionDescription) := do
  let vecs ← split sdp (str "=") []
  if vecs.length ≠ 2 then
    return (false, sd)
  let vecs2 ← split (← index vecs 1) (str " ") []
  if vecs2.length ≠ 2 then
    return (false, sd)
  let head ← index vecs2 0
  let desc ← index vecs2 1
  match find head (str ":") 0 with
  | none => return (false, sd)
  | some pos =>
    let id := atoi (head.drop (pos + 1))
    match sd.videoSup.codecIds.lookup id with
    | some info =>
      return (true, { sd with
        videoSup.codecIds := sd.videoSup.codecIds.insert id { info with desc } })
    | none =>
      match sd.audioSup.codecIds.lookup id with
      | some info =>
        return (true, { sd with
          audioSup.codecIds := sd.audioSup.codecIds.insert id { info with desc } })
      | none => return (true, sd)

def parseDtls (m : MediaContent) (sdp : Str) : Result (Bool × MediaContent) := do
  match find sdp (str ":") 0 with
  | none => return (false, m)
  | some pos =>
    let vecs ← split (sdp.drop (pos + 1)) (str " ") []
    if vecs.length ≠ 2 then
      return (false, m)
    let alg ← index vecs 0
    let fingerPrint ← index vecs 1
    return (true, { m with dtls := some { alg, fingerPrint } })

/-- `identity_fp = CreateUniqueFromRfc4572(alg, finger_print)`. -/
def MediaContent.setIdentityFp (m : MediaContent) : MediaContent :=
  { m with dtls := m.dtls.map fun d =>
      { d with identityFp := createUniqueFromRfc4572 d.alg d.fingerPrint } }

/-! ## `parse_sdp` -/

/-- What the loop of `parse_sdp` carries from line to line. -/
structure ParseState where
  flag : Bool
  ptr : Option ℕ
  sd : SessionDescription

/-- Runs a section parser on the section `ptr` points at. -/
def ParseState.onSection (ps : ParseState) (i : ℕ)
    (f : MediaContent → Result (Bool × MediaContent)) : Result ParseState := do
  let m ← index ps.sd.mediaContents i
  let (flag, m) ← f m
  return { ps with flag,
                   sd := { ps.sd with mediaContents := ps.sd.mediaContents.set i m } }

/-- One turn of the loop: the first of seven substring tests that succeeds
picks the line parser; a line that passes none leaves the flag alone. -/
def parseLine (ps : ParseState) (line : Str) : Result ParseState := do
  if contains line (str "v=") then
    let (flag, sd) ← ps.sd.parseVersion line
    return { ps with flag, sd }
  else if contains line (str "o=") then
    let (flag, sd) ← ps.sd.parseOrigin line
    return { ps with flag, sd }
  else if contains line (str "m=") then
    let (ptr, sd) ← ps.sd.parseMedia line
    return { flag := if ptr.isNone then false else ps.flag, ptr, sd }
  else if contains line (str "a=rtpmap") then
    let (flag, sd) ← ps.sd.parseRtpmap line
    return { ps with flag, sd }
  else
    match ps.ptr with
    | none => return ps
    | some i =>
      if contains line (str "a=fingerprint:") then
        ps.onSection i fun m => do
          let (flag, m) ← parseDtls m line
          return (flag, if flag then m.setIdentityFp else m)
      else if contains line (str "a=ssrc:") then
        ps.onSection i fun m => parseSsrcs m line
      else if contains line (str "a=ssrc-group:") then
        ps.onSection i fun m => parseSsrcGroups m line
      else
        return ps

def parseLines : List Str → ParseState → Result (Bool × SessionDescription)
  | [], ps => .ok (ps.flag, ps.sd)
  | line :: vecs, ps => do
      let ps ← parseLine ps line
      if !ps.flag then
        return (false, ps.sd)
      parseLines vecs ps

/-- `SessionDescription::parse_sdp`: the verdict and the object afterwards. -/
def SessionDescription.parseSdp (sd : SessionDescription) (vecs : List Str) :
    Result (Bool × SessionDescription) :=
  parseLines vecs { flag := false, ptr := none, sd }

/-! ## Answers -/

def SessionDescription.getMediaContent (contents : List MediaContent)
    (mt : MediaType) : Option MediaContent :=
  contents.find? (·.type == mt)

def SessionDescription.setPeerSdp (sd peer : SessionDescription) :
    SessionDescription :=
  { sd with peerOfferSdp := some peer.mediaContents }

def SessionDescription.build (sd offer : SessionDescription) :
    SessionDescription :=
  { sd with session :=
      { sd.session with
        version := offer.session.version
        sessionId := offer.session.sessionId
        uniAddr := str "0.0.0.0"
        username := str "-" } }

/-- `IceCandidate::get_priority` for a host candidate's preference. -/
def getPriority (env : Env) (address : Str) (typePreference component : ℕ) :
    UInt32 :=
  UInt32.ofNat typePreference <<< 24 |||
    UInt32.ofNat (env.ipAddressPrecedence address) <<< 8 |||
    UInt32.ofNat (256 - component)

/-- `IceCandidate::compute_foundation`. -/
def computeFoundation (env : Env) (type protocol address : Str) : Str :=
  natToStr (env.crc32 (type ++ env.hostAsUriString address ++ protocol)).toNat

/-- The random strings one `create_answer` draws. -/
structure IceCredentials where
  ufrag : Str
  passwd : Str

def directionOf (o : RTCOfferAnswerOptions) : RtcDirection :=
  if (o.recvAudio || o.recvVideo) && (o.sendAudio || o.sendVideo) then .sendRecv
  else if (o.sendAudio || o.sendVideo) && !o.recvAudio && !o.recvVideo then .sendOnly
  else if !o.sendAudio && !o.sendVideo && (o.recvAudio || o.recvVideo) then .recvOnly
  else .inactive

def candidateOf (env : Env) (addr : BindAddress) (rnd : IceCredentials) :
    IceCandidate where
  component := 1
  protocol := str "udp"
  address := addr.ip
  port := addr.port
  priority := getPriority env addr.ip 126 1
  username := rnd.ufrag
  password := rnd.passwd
  type := str "host"
  foundation := computeFoundation env (str "host") (str "udp") addr.ip

def audioAnswer (o : RTCOfferAnswerOptions) (peer : Option (List MediaContent)) :
    MediaContent :=
  { type := .audio
    direct := directionOf o
    rtpmaps := [{ payloadType := 111, desc := str "opus/48000/2",
                  fbs := [{ id := str "transport-cc" }] }]
    fmtps := [{ codecId := 111,
                params := (AList.insert (str "useinbandfec") (str "1")
                  (AList.insert (str "minptime") (str "10") ∅)) }]
    ssrcs :=
      match peer.bind (SessionDescription.getMediaContent · .audio) with
      | some offer => if o.sendAudio then offer.ssrcs else []
      | none => [] }

def videoAnswer (o : RTCOfferAnswerOptions) (peer : Option (List MediaContent)) :
    MediaContent :=
  let offer := if o.sendVideo
    then peer.bind (SessionDescription.getMediaContent · .video) else none
  { type := .video
    direct := directionOf o
    rtpmaps :=
      [{ payloadType := 108, desc := str "H264/90000",
         fbs := [{ id := str "goog-remb" }, { id := str "nack" },
                 { id := str "nack", param := str "pli" }] },
       { payloadType := 109, desc := str "rtx/90000" }]
    fmtps :=
      [{ codecId := 108,
         params := (AList.insert (str "profile-level-id") (str "42e01f")
           (AList.insert (str "packetization-mode") (str "1")
             (AList.insert (str "level-asymmetry-allowed") (str "1") ∅))) },
       { codecId := 109, params := AList.insert (str "apt") (str "108") ∅ }]
    ssrcs := (offer.map (·.ssrcs)).getD []
    ssrcGroups := (offer.map (·.ssrcGroups)).getD [] }

/-- Without a certificate fingerprint no media content is added. -/
def SessionDescription.createAnswer (env : Env) (sd : SessionDescription)
    (o : RTCOfferAnswerOptions) (addr : BindAddress) (rnd : IceCredentials) :
    SessionDescription :=
  match env.certificateFingerprint with
  | none => { sd with fingerprint := none }
  | some fp =>
    let ice : IceParameter :=
      { ufrag := rnd.ufrag, mode := str "ice-lite", passwd := rnd.passwd }
    let finish (m : MediaContent) : MediaContent :=
      { m with ice, connectionRole := str "passive",
               cands := m.cands ++ [candidateOf env addr rnd] }
    { sd with
      fingerprint := some fp
      mediaContents := sd.mediaContents ++
        [finish (audioAnswer o sd.peerOfferSdp), finish (videoAnswer o sd.peerOfferSdp)] }

/-! ## `to_string` -/

def crlf : Str := [13, 10]

def directionLine : RtcDirection → Str
  | .recvOnly => str "a=recvonly" ++ crlf
  | .sendRecv => str "a=sendrecv" ++ crlf
  | .sendOnly => str "a=sendonly" ++ crlf
  | .inactive => str "a=inactive" ++ crlf

def fmtpLine (f : FormatParameter) : Str :=
  str "a=fmtp:" ++ intToStr f.codecId ++ str " " ++
    ((f.params.entries.map fun e => e.1 ++ str "=" ++ e.2).intersperse
      (str ";")).flatten ++ crlf

def rtcpFbLine (payloadType : ℤ) (fb : FeedbackParameter) : Str :=
  str "a=rtcp-fb:" ++ intToStr payloadType ++ str " " ++ fb.id ++
    (if fb.param = [] then [] else str " " ++ fb.param) ++ crlf

def candidateLine (env : Env) (c : IceCandidate) : Str :=
  str "a=candidate:" ++ c.foundation ++ str " " ++ natToStr c.component ++
    str " " ++ c.protocol ++ str " " ++ natToStr c.priority.toNat ++ str " " ++
    env.hostAsUriString c.address ++ str " " ++ natToStr c.port.toNat ++
    str " typ " ++ c.type ++ crlf

def ssrcGroupLine (g : SsrcGroup) : Str :=
  str "a=ssrc-group:" ++ g.semantic ++
    (g.ssrcs.map fun s => str " " ++ natToStr s.toNat).flatten ++ crlf

def ssrcLine (p : SsrcParameter) : Str :=
  str "a=ssrc:" ++ natToStr p.ssrc.toNat ++ str " " ++ p.attri ++
    (if p.value = [] then [] else str ":" ++ p.value) ++ crlf

/-- The lines `add_media_content` writes for one section, in order. -/
def SessionDescription.mediaLines (env : Env) (sd : SessionDescription)
    (m : MediaContent) : List Str :=
  [str "m=" ++ m.name ++ str " 9 " ++
      (if m.useDtls then mediaProtoDtlsSavpf else mediaProtoSavpf) ++
      (m.rtpmaps.map fun c => str " " ++ intToStr c.payloadType).flatten ++ crlf,
    str "c=" ++ m.connectionInfo ++ crlf,
    str "a=" ++ m.fixAttr1 ++ crlf] ++
  (m.rtpmaps.map fun c =>
    str "a=rtpmap:" ++ intToStr c.payloadType ++ str " " ++ c.desc ++ crlf) ++
  m.fmtps.map fmtpLine ++
  (m.rtpmaps.map fun c => c.fbs.map (rtcpFbLine c.payloadType)).flatten ++
  (if m.rtcpMux then [str "a=rtcp-mux" ++ crlf] else []) ++
  [str "a=" ++ m.ice.mode ++ crlf,
    str "a=ice-ufrag:" ++ m.ice.ufrag ++ crlf,
    str "a=ice-pwd:" ++ m.ice.passwd ++ crlf] ++
  (match sd.fingerprint with
    | some fp =>
      if m.useDtls then
        [str "a=fingerprint:" ++ fp.algorithm ++ str " " ++
            getRfc4572Fingerprint fp ++ crlf,
          str "a=setup:" ++ m.connectionRole ++ crlf]
      else []
    | none => []) ++
  [str "a=mid:" ++ m.mid ++ crlf, directionLine m.direct] ++
  m.cands.map (candidateLine env) ++
  m.ssrcGroups.map ssrcGroupLine ++
  m.ssrcs.map ssrcLine

def SessionDescription.toString (env : Env) (sd : SessionDescription) : Str :=
  str "v=" ++ sd.session.version ++ crlf ++
  str "o=" ++ sd.session.username ++ str " " ++ sd.session.sessionId ++ str " " ++
    sd.session.sessionVersion ++ str " " ++ sd.session.nettType ++ str " " ++
    sd.session.addrType ++ str " " ++ sd.session.uniAddr ++ crlf ++
  str "s=" ++ sd.session.sessionName ++ crlf ++
  str "t=" ++ sd.session.ts ++ crlf ++
  sd.session.attr ++ crlf ++
  str "a=group:BUNDLE 0 1" ++ crlf ++
  (sd.mediaContents.map fun m => (sd.mediaLines env m).flatten).flatten

end JuanSfu
