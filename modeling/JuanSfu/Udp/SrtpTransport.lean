import JuanSfu.Sdp.SslFingerprint

/-!
# `udp/srtp_session.cpp` and `udp/srtp_transport.cpp`

libsrtp is outside the repository. That a session exists, and which policy it
was created from, is state of the model; what one `srtp_protect` or
`srtp_unprotect` returns is chosen by the environment, call by call (`Srtp`).
A transport holds its subscribers by reference: the objects are cells of a
heap, which `rtc_stream_mgr` keeps.
-/

namespace JuanSfu

/-- The results of the libsrtp calls one datagram causes. -/
structure Srtp where
  /-- `srtp_unprotect` and `srtp_unprotect_rtcp`: the plain packet. -/
  unprotect : Option Bytes := none
  /-- `srtp_protect` and `srtp_protect_rtcp` in a subscriber's session. -/
  protect : TransportId → Option Bytes := fun _ => none

/-! ## Sessions -/

/-- `srtpSession` is the policy of the libsrtp context, if there is one. -/
structure SrtpSession where
  srtpSession : Option SrtpPolicy := none
  rtpAuthTagLen : ℕ := 0
  rtcpAuthTagLen : ℕ := 0
deriving DecidableEq

namespace SrtpSession

/-- `set_key`: on a failure the session keeps the context it had. -/
def setKey (env : Env) (s : SrtpSession) (type : SrtpDirection) (cs : ℤ)
    (key : Bytes) : Bool × SrtpSession :=
  match env.srtpProfile cs with
  | none => (false, s)
  | some rtp =>
      let policy : SrtpPolicy := { direction := type, suite := cs, key }
      if key.length ≠ rtp.cipherKeyLen then (false, s)
      else if s.srtpSession = none ∧ !env.srtpCreate policy then (false, s)
      else if s.srtpSession ≠ none ∧ !env.srtpUpdate policy then (false, s)
      else (true,
        { srtpSession := some policy
          rtpAuthTagLen := rtp.rtpAuthTagLen
          rtcpAuthTagLen := rtp.rtcpAuthTagLen })

def setSend (env : Env) (s : SrtpSession) (cs : ℤ) (key : Bytes) :
    Bool × SrtpSession :=
  s.setKey env .outbound cs key

def setRecv (env : Env) (s : SrtpSession) (cs : ℤ) (key : Bytes) :
    Bool × SrtpSession :=
  s.setKey env .inbound cs key

/-- `get_auth_tag_len`, for the kind of packet; 0 is what the callers set. -/
def getAuthTagLen (s : SrtpSession) (rtcp : Bool) : ℕ :=
  if s.srtpSession = none then 0
  else if rtcp then s.rtcpAuthTagLen else s.rtpAuthTagLen

/-- `protect_rtp` and `protect_rtcp`: RTCP needs a word more for its index. -/
def protect (s : SrtpSession) (rtcp : Bool) (inLen maxLen : ℕ)
    (result : Option Bytes) : Option Bytes :=
  if s.srtpSession = none then none
  else if maxLen < inLen + (if rtcp then s.rtcpAuthTagLen + 4 else s.rtpAuthTagLen)
  then none
  else result

end SrtpSession

/-! ## Transports -/

/-- What a packet makes the transports do. -/
inductive MediaEffect where
  /-- libsrtp is asked to decrypt a packet in the session `policy`. -/
  | unprotect (policy : SrtpPolicy) (data : Bytes)
  /-- `on_rtp_packet` or `on_rtcp_packet` of the subscriber `dst`. -/
  | forward (src dst : TransportId) (data : Bytes)
  /-- `Udp::send2`. -/
  | send (udp : UdpId) (addr : IpAddress) (data : Bytes)
deriving DecidableEq

structure SrtpTransport where
  udp : UdpId
  addr : IpAddress
  subsMap : UnorderedMap Str TransportId := ∅
  sendSession : Option SrtpSession := none
  recvSession : Option SrtpSession := none

namespace SrtpTransport

def addSubscriber (st : SrtpTransport) (uid : Str) (sber : TransportId) :
    SrtpTransport :=
  { st with subsMap := st.subsMap.insert uid sber }

def removeSubscriber (st : SrtpTransport) (uid : Str) : SrtpTransport :=
  { st with subsMap := st.subsMap.erase uid }

/-- `set_srtp_param`, on the static flag `_srtp_init` and the transport. The
results of `set_send` and `set_recv` are not looked at. -/
def setSrtpParam (env : Env) (srtpInit : Bool) (st : SrtpTransport)
    (sendCs : ℤ) (sendKey : Bytes) (recvCs : ℤ) (recvKey : Bytes) :
    Bool × Bool × SrtpTransport :=
  if !srtpInit && !env.srtpInit then (false, false, st)
  else if !srtpInit && !env.srtpInstallEventHandler then (false, true, st)
  else
    let sendSession := st.sendSession.getD {}
    let recvSession := st.recvSession.getD {}
    (true, true,
      { st with
        sendSession := some (sendSession.setSend env sendCs sendKey).2
        recvSession := some (recvSession.setRecv env recvCs recvKey).2 })

/-- `on_rtp_packet` and `on_rtcp_packet` of a subscriber. -/
def onPacket (srtpInit : Bool) (st : SrtpTransport) (rtcp : Bool) (data : Bytes)
    (result : Option Bytes) : Result (List MediaEffect) :=
  if !srtpInit then .ok []
  else
    match st.sendSession with
    | none => .error .nullSrtpSession
    | some s =>
        let capacity := data.length + s.getAuthTagLen rtcp + if rtcp then 4 else 0
        match s.protect rtcp data.length capacity result with
        | some packet => .ok [.send st.udp st.addr packet]
        | none => .ok []

/-- Only the transport a packet came in at forwards it. -/
theorem onPacket_no_forward {srtpInit rtcp : Bool} {st : SrtpTransport} {data : Bytes}
    {result : Option Bytes} {sent : List MediaEffect}
    (h : st.onPacket srtpInit rtcp data result = .ok sent) {src dst : TransportId}
    {plain : Bytes} : .forward src dst plain ∉ sent := by
  unfold onPacket at h
  split at h
  · cases h
    simp
  · split at h
    · cases h
    · dsimp only at h
      split at h
      · cases h
        simp
      · cases h
        simp

theorem setSrtpParam_subsMap (env : Env) (srtpInit : Bool) (st : SrtpTransport)
    (sendCs : ℤ) (sendKey : Bytes) (recvCs : ℤ) (recvKey : Bytes) :
    (st.setSrtpParam env srtpInit sendCs sendKey recvCs recvKey).2.2.subsMap = st.subsMap := by
  unfold setSrtpParam
  split
  · rfl
  · split <;> rfl

end SrtpTransport

end JuanSfu
