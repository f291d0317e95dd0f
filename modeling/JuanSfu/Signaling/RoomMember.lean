import JuanSfu.Udp.RtcDtls
import JuanSfu.Udp.RtcStreamMgr
import JuanSfu.Udp.Stun

/-!
# `signaling/room_member.cpp`

A member owns one receiver and, for each remote address, up to three objects
made on demand: an `IceConnection`, an `RtcDtls` and an SRTP transport.
`onUdpReceive` is one datagram: it sorts the bytes into STUN, RTP or RTCP, and
DTLS, and each kind has its branch below.

A datagram comes in at the member's current receiver. A receiver that was
replaced without being stopped leaves its socket open, but the object behind
its callback is gone.
-/

namespace JuanSfu

/-- `is_rtcp` of `rtprtcp_pub.hpp`. -/
def isRtcp (data : Bytes) : Bool :=
  4 ≤ data.length && (127 < data.getD 0 0 && data.getD 0 0 < 192) &&
    data.getD 0 0 >>> (6 : UInt8) == 2 && (192 ≤ data.getD 1 0 && data.getD 1 0 ≤ 223)

/-- `is_rtp` of `rtprtcp_pub.hpp`. -/
def isRtp (data : Bytes) : Bool :=
  12 ≤ data.length && (127 < data.getD 0 0 && data.getD 0 0 < 192) &&
    data.getD 0 0 >>> (6 : UInt8) == 2

/-- What the libraries do while one datagram is handled. -/
structure Oracle where
  srtp : Srtp := {}
  adapter : Adapter := {}

inductive MemberEffect where
  | bindingResponse (addr : IpAddress) (data : Bytes)
  | dtlsRecord (addr : IpAddress) (data : Bytes)
  | media (e : MediaEffect)
deriving DecidableEq

structure MemberUdpPorts where
  iceConnection : Option IceConnection := none
  dtlsConnection : Option RtcDtls := none
  srtp : Option TransportId := none

/-- `UdpReceiver`, once it is started: the socket it opened. -/
structure UdpReceiver where
  udp : UdpId
deriving DecidableEq

structure RoomMember where
  uid : Str
  offerSdp : SessionDescription := {}
  answerSdp : Option SessionDescription := none
  udpReceiver : Option UdpReceiver := none
  udpHandles : UnorderedMap IpAddress MemberUdpPorts := ∅
  addr : BindAddress := { ip := [], port := 0 }

namespace RoomMember

/-- The receiver that was there before is dropped, not stopped. -/
def startRecv (m : RoomMember) (addr : BindAddress) (udp : UdpId) : RoomMember :=
  { m with addr, udpReceiver := some { udp } }

/-- `stop_recv`: the port it gives back and the socket it closes, if the
member has a receiver. -/
def stopRecv (m : RoomMember) : Option (UInt32 × UdpId) × RoomMember :=
  match m.udpReceiver with
  | none => (none, m)
  | some r => (some (m.addr.port, r.udp), { m with udpReceiver := none })

/-- `destory`, on the shared state; the member's own DTLS connections go
silent, and then go with the member. -/
def destory (media : Media) (m : RoomMember) : Media × RoomMember :=
  (media.removeSubscriber m.uid,
    { m with udpHandles := m.udpHandles.entries.foldl (fun handles e =>
        handles.insert e.1
          { e.2 with dtlsConnection := e.2.dtlsConnection.map RtcDtls.destory }) ∅ })

/-! ## `on_udp_receive` -/

/-- The objects of one address, made empty when it is new. -/
def ports (m : RoomMember) (addr : IpAddress) : MemberUdpPorts :=
  (m.udpHandles.lookup addr).getD {}

/-- The check of a first request, by the first section of the answer. -/
def checkFirst (env : Env) (answerSdp : SessionDescription) (sp : Option StunPacket)
    (data : Bytes) : Result Bool :=
  match answerSdp.mediaContents with
  | [] => .ok true
  | content :: _ =>
      match sp with
      | none => .error .nullStunPacket
      | some sp => do
          let (flag, _) ← sp.validate env content.ice (env.readAfterReset data)
          return flag

/-- The STUN branch for an address that has no connection yet. -/
def onFirstStun (env : Env) (m : RoomMember) (addr : IpAddress) (data : Bytes) :
    Result (Option (IceConnection × Bytes)) := do
  let sp ← StunPacket.parse env data
  let some answerSdp := m.answerSdp | .error .nullSdp
  let flag ← checkFirst env answerSdp sp data
  if flag then
    let content ← index answerSdp.mediaContents 0
    let ptr : IceConnection :=
      { remoteAddr := addr, localAddr := m.addr, icePwd := content.ice.passwd }
    let reply ← ptr.sendBindingResponse env sp
    return some (ptr, reply)
  else
    return none

def onStun (env : Env) (m : RoomMember) (addr : IpAddress) (up : MemberUdpPorts)
    (data : Bytes) : Result (MemberUdpPorts × List MemberEffect) :=
  match up.iceConnection with
  | some ice => do
      let reply ← ice.onUdpData env data
      return (up, reply.toList.map (.bindingResponse ice.remoteAddr))
  | none => do
      match ← m.onFirstStun env addr data with
      | some (ice, reply) =>
          return ({ up with iceConnection := some ice }, [.bindingResponse addr reply])
      | none => return (up, [])

/-- The transport of an address; a new one is stored before it has keys. The
flag is false when the source returns early. -/
def openSrtp (env : Env) (media : Media) (udp : UdpId) (addr : IpAddress)
    (up : MemberUdpPorts) (dtls : RtcDtls) :
    TransportId × Bool × Media × MemberUdpPorts :=
  match up.srtp with
  | some st => (st, true, media, up)
  | none =>
      let (st, media) := media.newTransport udp addr
      let up := { up with srtp := some st }
      match dtls.extractSrtpKeys with
      | some (cs, sendKey, recvKey) =>
          (st, true, media.setSrtpParam env st cs sendKey recvKey, up)
      | none => (st, false, media, up)

def onRtp (env : Env) (media : Media) (m : RoomMember) (udp : UdpId)
    (addr : IpAddress) (up : MemberUdpPorts) (data : Bytes) (srtp : Srtp) :
    Result (Media × MemberUdpPorts × List MemberEffect) :=
  match up.dtlsConnection with
  | none => .ok (media, up, [])
  | some dtls =>
      let (st, flag, media, up) := openSrtp env media udp addr up dtls
      if !flag then .ok (media, up, [])
      else do
        let media := media.addStream m.uid st
        let sent ← media.handleData st (isRtcp data) data srtp
        return (media, up, sent.map .media)

/-- The DTLS connection of an address, made with the fingerprint of the
offer's first section. -/
def openDtls (env : Env) (m : RoomMember) (udp : UdpId) (addr : IpAddress)
    (up : MemberUdpPorts) : Result MemberUdpPorts :=
  match up.dtlsConnection with
  | some _ => .ok up
  | none => do
      let content ← index m.offerSdp.mediaContents 0
      let some dtls := content.dtls | .error .nullDtlsParameter
      match dtls.identityFp with
      | none => return up
      | some fp =>
          let ptr : RtcDtls := { udp, remoteAddr := addr }
          let ptr := ptr.setRemoteDtls fp.algorithm fp.digest
          return if ptr.setupDtls env then { up with dtlsConnection := some ptr } else up

def onDtls (env : Env) (m : RoomMember) (udp : UdpId) (addr : IpAddress)
    (up : MemberUdpPorts) (data : Bytes) (adapter : Adapter) :
    Result (MemberUdpPorts × List MemberEffect) := do
  let up ← m.openDtls env udp addr up
  match up.dtlsConnection with
  | none => return (up, [])
  | some dtls =>
      let (dtls, sent) := dtls.handleDtls data adapter
      return ({ up with dtlsConnection := some dtls },
        sent.map (.dtlsRecord dtls.remoteAddr))

def onUdpReceive (env : Env) (media : Media) (m : RoomMember) (udp : UdpId)
    (addr : IpAddress) (data : Bytes) (o : Oracle) :
    Result (Media × RoomMember × List MemberEffect) := do
  let up := m.ports addr
  if StunPacket.isStun data then
    let (up, sent) ← m.onStun env addr up data
    return (media, { m with udpHandles := m.udpHandles.insert addr up }, sent)
  else if isRtcp data || isRtp data then
    let (media, up, sent) ← m.onRtp env media udp addr up data o.srtp
    return (media, { m with udpHandles := m.udpHandles.insert addr up }, sent)
  else if RtcDtls.isDtls data then
    let (up, sent) ← m.onDtls env udp addr up data o.adapter
    return (media, { m with udpHandles := m.udpHandles.insert addr up }, sent)
  else
    return (media, { m with udpHandles := m.udpHandles.insert addr up }, [])

/-- The adapter of one address acts by itself, when its timer runs out. -/
def onAdapter (m : RoomMember) (addr : IpAddress) (acts : List AdapterAct) :
    RoomMember × List MemberEffect :=
  match (m.ports addr).dtlsConnection with
  | none => (m, [])
  | some dtls =>
      let (dtls, sent) := dtls.runActs acts
      ({ m with udpHandles :=
          m.udpHandles.insert addr { m.ports addr with dtlsConnection := some dtls } },
        sent.map (.dtlsRecord dtls.remoteAddr))

/-! ## What one datagram does -/

/-- The cases of an RTP or RTCP datagram that returns. -/
inductive RtpOutcome (env : Env) (media : Media) (uid : Str) (udp : UdpId)
    (addr : IpAddress) (up : MemberUdpPorts) (data : Bytes) (srtp : Srtp) :
    Media → MemberUdpPorts → List MemberEffect → Prop where
  | noDtls (hd : up.dtlsConnection = none) :
      RtpOutcome env media uid udp addr up data srtp media up []
  /-- The transport is stored, and nothing else happens to it. -/
  | unkeyed {dtls : RtcDtls} (hd : up.dtlsConnection = some dtls)
      (hs : up.srtp = none) (hk : dtls.extractSrtpKeys = none) :
      RtpOutcome env media uid udp addr up data srtp
        (media.newTransport udp addr).2
        { up with srtp := some media.nextTransport } []
  | keyed {dtls : RtcDtls} {media₁ : Media} {cs : ℤ} {sendKey recvKey : Bytes}
      {sent : List MediaEffect} (hd : up.dtlsConnection = some dtls)
      (hs : up.srtp = none) (hk : dtls.extractSrtpKeys = some (cs, sendKey, recvKey))
      (hm : media₁ = (media.newTransport udp addr).2.setSrtpParam env media.nextTransport
        cs sendKey recvKey)
      (hh : (media₁.addStream uid media.nextTransport).handleData media.nextTransport
        (isRtcp data) data srtp = .ok sent) :
      RtpOutcome env media uid udp addr up data srtp
        (media₁.addStream uid media.nextTransport)
        { up with srtp := some media.nextTransport } (sent.map .media)
  | reused {dtls : RtcDtls} {st : TransportId} {sent : List MediaEffect}
      (hd : up.dtlsConnection = some dtls) (hs : up.srtp = some st)
      (hh : (media.addStream uid st).handleData st (isRtcp data) data srtp = .ok sent) :
      RtpOutcome env media uid udp addr up data srtp (media.addStream uid st) up
        (sent.map .media)

variable {env : Env} {media media' : Media} {m m' : RoomMember} {udp : UdpId}
  {addr : IpAddress} {up up' : MemberUdpPorts} {data : Bytes} {srtp : Srtp}
  {sent : List MemberEffect}

theorem onRtp_outcome (h : m.onRtp env media udp addr up data srtp = .ok (media', up', sent)) :
    RtpOutcome env media m.uid udp addr up data srtp media' up' sent := by
  unfold onRtp at h
  split at h
  · next hd =>
      cases h
      exact .noDtls hd
  · next dtls hd =>
      unfold openSrtp at h
      cases hs : up.srtp with
      | some st =>
          rw [hs] at h
          obtain ⟨effects, hh, h⟩ := bind_ok h
          cases h
          exact .reused hd hs hh
      | none =>
          rw [hs] at h
          cases hk : dtls.extractSrtpKeys with
          | none =>
              simp only [Media.newTransport, hk] at h
              cases h
              exact .unkeyed hd hs hk
          | some keys =>
              obtain ⟨cs, sendKey, recvKey⟩ := keys
              simp only [Media.newTransport, hk] at h
              obtain ⟨effects, hh, h⟩ := bind_ok h
              cases h
              exact .keyed hd hs hk rfl hh

/-- The cases of a datagram that returns: of the member only the objects of the
sender's address change, and the shared state changes for RTP and RTCP alone. -/
inductive Received (env : Env) (media : Media) (m : RoomMember) (udp : UdpId)
    (addr : IpAddress) (data : Bytes) (o : Oracle) :
    Media → MemberUdpPorts → List MemberEffect → Prop where
  | stun {up : MemberUdpPorts} {sent : List MemberEffect}
      (hk : StunPacket.isStun data = true)
      (h : m.onStun env addr (m.ports addr) data = .ok (up, sent)) :
      Received env media m udp addr data o media up sent
  | rtp {media' : Media} {up : MemberUdpPorts} {sent : List MemberEffect}
      (hstun : StunPacket.isStun data = false)
      (hk : (isRtcp data || isRtp data) = true)
      (h : RtpOutcome env media m.uid udp addr (m.ports addr) data o.srtp media' up sent) :
      Received env media m udp addr data o media' up sent
  | dtls {up : MemberUdpPorts} {sent : List MemberEffect}
      (hstun : StunPacket.isStun data = false)
      (hrtp : (isRtcp data || isRtp data) = false) (hk : RtcDtls.isDtls data = true)
      (h : m.onDtls env udp addr (m.ports addr) data o.adapter = .ok (up, sent)) :
      Received env media m udp addr data o media up sent
  | unknown (hstun : StunPacket.isStun data = false)
      (hrtp : (isRtcp data || isRtp data) = false) (hk : RtcDtls.isDtls data = false) :
      Received env media m udp addr data o media (m.ports addr) []

theorem onUdpReceive_outcome {o : Oracle}
    (h : m.onUdpReceive env media udp addr data o = .ok (media', m', sent)) :
    ∃ up, m' = { m with udpHandles := m.udpHandles.insert addr up } ∧
      Received env media m udp addr data o media' up sent := by
  unfold onUdpReceive at h
  dsimp only at h
  split at h
  · next hstun =>
      obtain ⟨⟨up, sent₁⟩, hs, h⟩ := bind_ok h
      cases h
      exact ⟨up, rfl, .stun hstun hs⟩
  · next hstun =>
      rw [Bool.not_eq_true] at hstun
      split at h
      · next hrtp =>
          obtain ⟨⟨media₁, up, sent₁⟩, hr, h⟩ := bind_ok h
          cases h
          exact ⟨up, rfl, .rtp hstun hrtp (onRtp_outcome hr)⟩
      · next hrtp =>
          rw [Bool.not_eq_true] at hrtp
          split at h
          · next hdtls =>
              obtain ⟨⟨up, sent₁⟩, hd, h⟩ := bind_ok h
              cases h
              exact ⟨up, rfl, .dtls hstun hrtp hdtls hd⟩
          · next hdtls =>
              rw [Bool.not_eq_true] at hdtls
              cases h
              exact ⟨_, rfl, .unknown hstun hrtp hdtls⟩

/-- The object of an address after one of the addresses was served. -/
theorem ports_insert (m : RoomMember) (addr a : IpAddress) (up : MemberUdpPorts) :
    ({ m with udpHandles := m.udpHandles.insert addr up } : RoomMember).ports a =
      if a = addr then up else m.ports a := by
  unfold ports
  rw [UnorderedMap.lookup_insert_ite]
  by_cases h : a = addr
  · rw [if_pos h, if_pos h, Option.getD_some]
  · rw [if_neg h, if_neg h]

/-- STUN makes or uses an ICE connection and nothing else. -/
theorem onStun_frame (h : m.onStun env addr up data = .ok (up', sent)) :
    up'.dtlsConnection = up.dtlsConnection ∧ up'.srtp = up.srtp := by
  unfold onStun at h
  split at h
  · obtain ⟨reply, -, h⟩ := bind_ok h
    cases h
    exact ⟨rfl, rfl⟩
  · obtain ⟨first, -, h⟩ := bind_ok h
    split at h
    · cases h
      exact ⟨rfl, rfl⟩
    · cases h
      exact ⟨rfl, rfl⟩

/-- The other branches leave the ICE connection alone. -/
theorem RtpOutcome.iceConnection {uid : Str}
    (h : RtpOutcome env media uid udp addr up data srtp media' up' sent) :
    up'.iceConnection = up.iceConnection := by
  cases h <;> rfl

theorem onDtls_frame {adapter : Adapter}
    (h : m.onDtls env udp addr up data adapter = .ok (up', sent)) :
    up'.iceConnection = up.iceConnection ∧ up'.srtp = up.srtp := by
  unfold onDtls at h
  obtain ⟨up₁, hopen, h⟩ := bind_ok h
  have hup₁ : up₁.iceConnection = up.iceConnection ∧ up₁.srtp = up.srtp := by
    unfold openDtls at hopen
    split at hopen
    · cases hopen
      exact ⟨rfl, rfl⟩
    · obtain ⟨content, -, hopen⟩ := bind_ok hopen
      split at hopen
      · split at hopen
        · cases hopen
          exact ⟨rfl, rfl⟩
        · cases hopen
          split <;> exact ⟨rfl, rfl⟩
      · cases hopen
  split at h
  · cases h
    exact hup₁
  · cases h
    exact hup₁

theorem onStun_remoteAddr (h : m.onStun env addr up data = .ok (up', sent))
    (hold : ∀ ice, up.iceConnection = some ice → ice.remoteAddr = addr)
    {ice : IceConnection} (hi : up'.iceConnection = some ice) : ice.remoteAddr = addr := by
  unfold onStun at h
  split at h
  · obtain ⟨reply, -, h⟩ := bind_ok h
    cases h
    exact hold ice hi
  · next hnone =>
      obtain ⟨first, hfirst, h⟩ := bind_ok h
      split at h
      · cases h
        cases hi
        unfold onFirstStun at hfirst
        obtain ⟨sp, -, hfirst⟩ := bind_ok hfirst
        split at hfirst
        · obtain ⟨flag, -, hfirst⟩ := bind_ok hfirst
          split at hfirst
          · obtain ⟨content, -, hfirst⟩ := bind_ok hfirst
            obtain ⟨reply, -, hfirst⟩ := bind_ok hfirst
            cases hfirst
            rfl
          · cases hfirst
        · cases hfirst
      · cases h
        rw [hnone] at hi
        cases hi

theorem Received.iceConnection_remoteAddr {o : Oracle}
    (h : Received env media m udp addr data o media' up' sent)
    (hold : ∀ ice, (m.ports addr).iceConnection = some ice → ice.remoteAddr = addr)
    {ice : IceConnection} (hi : up'.iceConnection = some ice) : ice.remoteAddr = addr := by
  cases h with
  | stun _ h => exact onStun_remoteAddr h hold hi
  | rtp _ _ h => exact hold ice (by rwa [h.iceConnection] at hi)
  | dtls _ _ _ h => exact hold ice (by rwa [(onDtls_frame h).1] at hi)
  | unknown => exact hold ice hi

/-- A timer changes the DTLS connection of one address. -/
theorem onAdapter_ports (m : RoomMember) (addr a : IpAddress) (acts : List AdapterAct) :
    ((m.onAdapter addr acts).1.ports a).iceConnection = (m.ports a).iceConnection ∧
      ((m.onAdapter addr acts).1.ports a).srtp = (m.ports a).srtp := by
  unfold onAdapter
  cases hd : (m.ports addr).dtlsConnection with
  | none => exact ⟨rfl, rfl⟩
  | some dtls =>
      dsimp only
      rw [ports_insert]
      split
      · next h =>
          subst h
          exact ⟨rfl, rfl⟩
      · exact ⟨rfl, rfl⟩

theorem onAdapter_frame (m : RoomMember) (addr : IpAddress) (acts : List AdapterAct) :
    (m.onAdapter addr acts).1 =
      { m with udpHandles := (m.onAdapter addr acts).1.udpHandles } := by
  unfold onAdapter
  cases (m.ports addr).dtlsConnection <;> rfl

theorem onDtls_keying {adapter : Adapter}
    (h : m.onDtls env udp addr up data adapter = .ok (up', sent)) {dtls : RtcDtls}
    {k : Keying} (hd : up.dtlsConnection = some dtls) (hk : dtls.keying = some k) :
    ∃ dtls', up'.dtlsConnection = some dtls' ∧ dtls'.keying = some k := by
  unfold onDtls openDtls at h
  rw [hd] at h
  obtain ⟨up₁, hopen, h⟩ := bind_ok h
  cases hopen
  rw [hd] at h
  cases h
  exact ⟨_, rfl, RtcDtls.handleDtls_keying hk data adapter⟩

theorem onAdapter_keying (m : RoomMember) (addr a : IpAddress) (acts : List AdapterAct)
    {dtls : RtcDtls} {k : Keying} (hd : (m.ports a).dtlsConnection = some dtls)
    (hk : dtls.keying = some k) :
    ∃ dtls', ((m.onAdapter addr acts).1.ports a).dtlsConnection = some dtls' ∧
      dtls'.keying = some k := by
  unfold onAdapter
  cases haddr : (m.ports addr).dtlsConnection with
  | none => exact ⟨dtls, hd, hk⟩
  | some dtls₁ =>
      dsimp only
      rw [ports_insert]
      split
      · next heq =>
          subst heq
          rw [haddr] at hd
          cases hd
          exact ⟨_, rfl, RtcDtls.runActs_keying hk acts⟩
      · exact ⟨dtls, hd, hk⟩

/-! ### Who makes the media move -/

theorem onStun_no_media (h : m.onStun env addr up data = .ok (up', sent)) (e : MediaEffect) :
    .media e ∉ sent := by
  unfold onStun at h
  split at h
  · obtain ⟨reply, -, h⟩ := bind_ok h
    cases h
    simp
  · obtain ⟨first, -, h⟩ := bind_ok h
    split at h
    · cases h
      simp
    · cases h
      simp

theorem onDtls_no_media {adapter : Adapter}
    (h : m.onDtls env udp addr up data adapter = .ok (up', sent)) (e : MediaEffect) :
    .media e ∉ sent := by
  unfold onDtls at h
  obtain ⟨up₁, -, h⟩ := bind_ok h
  split at h
  · cases h
    simp
  · cases h
    simp

theorem onAdapter_no_media (m : RoomMember) (addr : IpAddress) (acts : List AdapterAct)
    (e : MediaEffect) : .media e ∉ (m.onAdapter addr acts).2 := by
  unfold onAdapter
  cases (m.ports addr).dtlsConnection <;> simp

/-! ### Where a null pointer can be followed -/

theorem onStun_ne_error {e : Fault} (he : e.isNull) (hp : e ≠ .nullStunPacket)
    (hs : e ≠ .nullSdp) : m.onStun env addr up data ≠ .error e := by
  have hparse := StunPacket.parse_ne_null env data he
  have hsend : ∀ (c : IceConnection) sp, c.sendBindingResponse env sp ≠ .error e := by
    intro c sp
    cases sp with
    | none => exact fun h => hp (Except.error.inj h).symm
    | some sp => exact ok_ne_error _ _
  unfold onStun
  split
  · refine bind_ne_error ?_ fun _ _ => ok_ne_error _ _
    unfold IceConnection.onUdpData
    split
    · exact ok_ne_error _ _
    · refine bind_ne_error hparse fun sp _ => ?_
      exact bind_ne_error (hsend _ sp) fun _ _ => ok_ne_error _ _
  · refine bind_ne_error ?_ fun first _ => ?_
    · refine bind_ne_error hparse fun sp _ => ?_
      split
      · refine bind_ne_error ?_ fun flag _ => ?_
        · unfold checkFirst
          split
          · exact ok_ne_error _ _
          · split
            · exact fun h => hp (Except.error.inj h).symm
            · exact bind_ne_error (StunPacket.validateLoop_ne_null env _ he _ _)
                fun _ _ => ok_ne_error _ _
        · split
          · refine bind_ne_error (index_ne_null _ _ he) fun content _ => ?_
            exact bind_ne_error (hsend _ sp) fun _ _ => ok_ne_error _ _
          · exact ok_ne_error _ _
      · exact fun h => hs (Except.error.inj h).symm
    · split <;> exact ok_ne_error _ _

theorem onRtp_ne_error {o : Srtp} {e : Fault} (he : e ≠ .nullSrtpSession) :
    m.onRtp env media udp addr up data o ≠ .error e := by
  unfold onRtp
  split
  · exact ok_ne_error _ _
  · dsimp only
    split
    · exact ok_ne_error _ _
    · exact bind_ne_error (Media.handleData_ne_error _ _ _ _ _ he) fun _ _ => ok_ne_error _ _

theorem onDtls_ne_error {adapter : Adapter} {e : Fault} (he : e.isNull)
    (hd : e ≠ .nullDtlsParameter) : m.onDtls env udp addr up data adapter ≠ .error e := by
  unfold onDtls
  refine bind_ne_error ?_ fun up' _ => ?_
  · unfold openDtls
    split
    · exact ok_ne_error _ _
    · refine bind_ne_error (index_ne_null _ _ he) fun content _ => ?_
      split
      · split
        · exact ok_ne_error _ _
        · exact ok_ne_error _ _
      · exact fun h => hd (Except.error.inj h).symm
  · split <;> exact ok_ne_error _ _

/-- A null session can only be met with RTP and RTCP. -/
theorem onUdpReceive_ne_nullSrtpSession {o : Oracle}
    (hrtp : m.onRtp env media udp addr (m.ports addr) data o.srtp ≠ .error .nullSrtpSession) :
    m.onUdpReceive env media udp addr data o ≠ .error .nullSrtpSession := by
  unfold onUdpReceive
  dsimp only
  split
  · exact bind_ne_error (onStun_ne_error rfl (by decide) (by decide)) fun _ _ => ok_ne_error _ _
  · split
    · exact bind_ne_error hrtp fun _ _ => ok_ne_error _ _
    · split
      · exact bind_ne_error (onDtls_ne_error rfl (by decide)) fun _ _ => ok_ne_error _ _
      · exact ok_ne_error _ _

theorem onUdpReceive_rtp {o : Oracle} (hstun : StunPacket.isStun data = false)
    (hk : (isRtcp data || isRtp data) = true)
    (h : m.onRtp env media udp addr (m.ports addr) data o.srtp = .ok (media', up', sent)) :
    m.onUdpReceive env media udp addr data o =
      .ok (media', { m with udpHandles := m.udpHandles.insert addr up' }, sent) := by
  unfold onUdpReceive
  dsimp only
  rw [hstun, if_neg Bool.false_ne_true, if_pos hk, h]
  rfl

end RoomMember

end JuanSfu
