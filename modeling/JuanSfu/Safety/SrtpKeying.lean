import JuanSfu.Safety.Ownership

/-!
# Which transports have keys

A transport is stored under its address before it is keyed, and keyed only
while it is made. A packet that comes before the end of the handshake leaves
one there that is never keyed; the next packet registers it with the manager.
Its sessions are missing for good, and the static `_srtp_init`, once somebody
else has set it, no longer hides that.
-/

namespace JuanSfu

/-- libsrtp starts up, knows the suites the program asks for and takes keys of
the length it documents for them. -/
structure Env.SrtpWorks (env : Env) : Prop where
  init : env.srtpInit = true
  install : env.srtpInstallEventHandler = true
  profile (suite : ℤ) (keyLen saltLen : ℕ)
    (h : getSrtpKeyAndSaltLengths suite = some (keyLen, saltLen)) :
    ∃ p, env.srtpProfile suite = some p ∧ p.cipherKeyLen = keyLen + saltLen
  create (policy : SrtpPolicy) (p : SrtpProfile) (h : env.srtpProfile policy.suite = some p)
    (hlen : policy.key.length = p.cipherKeyLen) : env.srtpCreate policy = true

variable {env : Env}

/-! ## Keyed transports -/

namespace SrtpTransport

/-- Both sessions exist, with the keys of a completed handshake. -/
structure KeyedBy (t : SrtpTransport) (k : Keying) : Prop where
  recv : ∃ s, t.recvSession = some s ∧ s.srtpSession = some ⟨.inbound, k.suite, k.recvKey⟩
  send : ∃ s, t.sendSession = some s ∧ s.srtpSession = some ⟨.outbound, k.suite, k.sendKey⟩

end SrtpTransport

theorem SrtpSession.setKey_new (hw : env.SrtpWorks) (k : Keying) (type : SrtpDirection)
    {key : Bytes} (hlen : key.length = k.keyLen + k.saltLen) :
    (({} : SrtpSession).setKey env type k.suite key).2.srtpSession =
      some ⟨type, k.suite, key⟩ := by
  obtain ⟨p, hp, hcipher⟩ := hw.profile k.suite k.keyLen k.saltLen k.lengths
  have hcreate : env.srtpCreate ⟨type, k.suite, key⟩ = true :=
    hw.create _ p hp (hlen.trans hcipher.symm)
  simp [setKey, hp, hlen, hcipher, hcreate]

/-- `set_srtp_param` keys a transport that has no sessions. -/
theorem SrtpTransport.setSrtpParam_keyed (hw : env.SrtpWorks) (k : Keying)
    {t : SrtpTransport} (hsend : t.sendSession = none) (hrecv : t.recvSession = none)
    (srtpInit : Bool) :
    (t.setSrtpParam env srtpInit k.suite k.sendKey k.suite k.recvKey).2.1 = true ∧
      (t.setSrtpParam env srtpInit k.suite k.sendKey k.suite k.recvKey).2.2.KeyedBy k := by
  unfold setSrtpParam
  rw [hw.init, hw.install, hsend, hrecv]
  simp only [Bool.not_true, Bool.and_false, Bool.false_eq_true, if_false, Option.getD_none]
  refine ⟨trivial, ⟨_, rfl, ?_⟩, ⟨_, rfl, ?_⟩⟩
  · exact SrtpSession.setKey_new hw k .inbound k.recvKey_length
  · exact SrtpSession.setKey_new hw k .outbound k.sendKey_length

namespace Media

/-- libsrtp is initialised and the transport is keyed. -/
structure KeyedBy (m : Media) (st : TransportId) (k : Keying) : Prop where
  init : m.srtpInit = true
  transport : (m.transports st).KeyedBy k

/-- `m'` has the sessions of `m`. -/
structure SameSessions (m m' : Media) : Prop where
  init : m'.srtpInit = m.srtpInit
  recv (st : TransportId) : (m'.transports st).recvSession = (m.transports st).recvSession
  send (st : TransportId) : (m'.transports st).sendSession = (m.transports st).sendSession

variable {m m' : Media} {st : TransportId} {k : Keying}

theorem KeyedBy.same (h : m.KeyedBy st k) (hs : SameSessions m m') : m'.KeyedBy st k := by
  refine ⟨hs.init.trans h.init, ?_, ?_⟩
  · rw [hs.recv]
    exact h.transport.recv
  · rw [hs.send]
    exact h.transport.send

theorem SameSessions.refl (m : Media) : SameSessions m m := ⟨rfl, fun _ => rfl, fun _ => rfl⟩

theorem SameSessions.trans {m'' : Media} (h : SameSessions m m') (h' : SameSessions m' m'') :
    SameSessions m m'' :=
  ⟨h'.init.trans h.init, fun st => (h'.recv st).trans (h.recv st),
    fun st => (h'.send st).trans (h.send st)⟩

/-- Subscribers come and go without a change of sessions. -/
theorem sameSessions_onTransport (m : Media) (st : TransportId)
    {f : SrtpTransport → SrtpTransport} (hr : ∀ t, (f t).recvSession = t.recvSession)
    (hs : ∀ t, (f t).sendSession = t.sendSession) : SameSessions m (m.onTransport st f) := by
  refine ⟨rfl, ?_, ?_⟩
  · intro x
    by_cases hx : x = st
    · subst hx
      simp [onTransport, hr]
    · simp [onTransport, hx]
  · intro x
    by_cases hx : x = st
    · subst hx
      simp [onTransport, hs]
    · simp [onTransport, hx]

theorem sameSessions_addStream (m : Media) (uid : Str) (st : TransportId) :
    SameSessions m (m.addStream uid st) := by
  rw [addStream_eq]
  dsimp only
  split
  · exact ⟨rfl, fun _ => rfl, fun _ => rfl⟩
  · have h₀ : SameSessions m { m with mgr.streams := m.mgr.streams.insert uid st } :=
      ⟨rfl, fun _ => rfl, fun _ => rfl⟩
    refine (h₀.trans (sameSessions_onTransport _ _ ?_ ?_)).trans
      (sameSessions_onTransport _ _ ?_ ?_)
    all_goals exact fun _ => rfl

theorem sameSessions_removeSubscriber (m : Media) (uid : Str) :
    SameSessions m (m.removeSubscriber uid) := by
  unfold removeSubscriber
  split
  · exact .refl m
  · have hon : ∀ (m : Media) st v, SameSessions m (m.onTransport st (·.removeSubscriber v)) :=
      fun m st v => sameSessions_onTransport m st (fun _ => rfl) fun _ => rfl
    dsimp only
    split
    · split
      · exact (hon _ _ _).trans (hon _ _ _)
      · exact hon _ _ _
    · split
      · exact hon _ _ _
      · exact .refl m

/-- What a member does for a transport that has just been made. -/
def keyNew (env : Env) (m : Media) (udp : UdpId) (addr : IpAddress) (k : Keying) : Media :=
  (m.newTransport udp addr).2.setSrtpParam env m.nextTransport k.suite k.sendKey k.recvKey

theorem keyNew_keyed (hw : env.SrtpWorks) (m : Media) (udp : UdpId) (addr : IpAddress)
    (k : Keying) : (m.keyNew env udp addr k).KeyedBy m.nextTransport k := by
  have hnew : (m.newTransport udp addr).2.transports m.nextTransport = { udp, addr } := by
    simp [newTransport]
  obtain ⟨hinit, hkeyed⟩ := SrtpTransport.setSrtpParam_keyed hw k
    (t := (m.newTransport udp addr).2.transports m.nextTransport) (by rw [hnew]) (by rw [hnew])
    (m.newTransport udp addr).2.srtpInit
  refine ⟨hinit, ?_⟩
  simpa [keyNew, setSrtpParam, onTransport] using hkeyed

/-- Nor does it concern the others. -/
theorem KeyedBy.keyNew (hw : env.SrtpWorks) (h : m.KeyedBy st k) (hlt : st < m.nextTransport)
    (udp : UdpId) (addr : IpAddress) (k' : Keying) :
    (m.keyNew env udp addr k').KeyedBy st k := by
  have hother : (m.keyNew env udp addr k').transports st = m.transports st := by
    simp [Media.keyNew, setSrtpParam, onTransport, newTransport, hlt.ne]
  refine ⟨(keyNew_keyed hw m udp addr k').init, ?_⟩
  rw [hother]
  exact h.transport

theorem subscriberOf_keyNew (m : Media) (udp : UdpId) (addr : IpAddress) (k : Keying)
    {x y : TransportId} {v : Str} (h : (m.keyNew env udp addr k).subscriberOf x v = some y) :
    m.subscriberOf x v = some y := by
  rw [keyNew, subscriberOf_setSrtpParam, subscriberOf_newTransport] at h
  split at h
  · cases h
  · exact h

/-- Every transport that somebody's packets may go to is keyed. -/
structure AllKeyed (m : Media) : Prop where
  streams (uid : Str) (st : TransportId) (h : m.mgr.streams.lookup uid = some st) :
    ∃ k, m.KeyedBy st k
  links (x : TransportId) (v : Str) (st : TransportId) (h : m.subscriberOf x v = some st) :
    ∃ k, m.KeyedBy st k

theorem AllKeyed.addSubscriber (h : m.AllKeyed) (uid targetUid : Str) :
    (m.addSubscriber uid targetUid).AllKeyed := by
  have hs : SameSessions m (m.addSubscriber uid targetUid) :=
    ⟨rfl, fun _ => rfl, fun _ => rfl⟩
  constructor
  · intro u x hx
    obtain ⟨k, hk⟩ := h.streams u x hx
    exact ⟨k, hk.same hs⟩
  · intro x v y hy
    obtain ⟨k, hk⟩ := h.links x v y hy
    exact ⟨k, hk.same hs⟩

theorem AllKeyed.addStream (h : m.AllKeyed) (hst : m.KeyedBy st k) (uid : Str) :
    (m.addStream uid st).AllKeyed := by
  have hs := sameSessions_addStream m uid st
  have hstream : ∀ u x, (m.mgr.streams.insert uid st).lookup u = some x →
      ∃ k, m.KeyedBy x k := by
    intro u x hx
    rw [UnorderedMap.lookup_insert_ite] at hx
    split at hx
    · cases hx
      exact ⟨k, hst⟩
    · exact h.streams u x hx
  constructor
  · intro u x hx
    rw [addStream_mgr] at hx
    obtain ⟨k, hk⟩ := hstream u x hx
    exact ⟨k, hk.same hs⟩
  · intro x v y hy
    rw [subscriberOf_addStream] at hy
    have hlink : ∃ k, m.KeyedBy y k := by
      unfold peerOf at hy
      cases ht : m.target uid with
      | none =>
          rw [ht] at hy
          exact h.links x v y hy
      | some t =>
          rw [ht, Option.bind_some] at hy
          cases hp : (m.mgr.streams.insert uid st).lookup t with
          | none =>
              rw [hp] at hy
              exact h.links x v y hy
          | some peer =>
              rw [hp] at hy
              dsimp only [Option.map_some] at hy
              split at hy
              · cases hy
                exact hstream t _ hp
              · split at hy
                · cases hy
                  exact ⟨k, hst⟩
                · exact h.links x v y hy
    obtain ⟨k, hk⟩ := hlink
    exact ⟨k, hk.same hs⟩

theorem AllKeyed.removeSubscriber (h : m.AllKeyed) (uid : Str) :
    (m.removeSubscriber uid).AllKeyed := by
  have hs := sameSessions_removeSubscriber m uid
  constructor
  · intro u x hx
    rw [removeSubscriber_mgr] at hx
    obtain ⟨k, hk⟩ := h.streams u x hx
    exact ⟨k, hk.same hs⟩
  · intro x v y hy
    rw [subscriberOf_removeSubscriber] at hy
    have hold : m.subscriberOf x v = some y := by
      split at hy
      · exact hy
      · split at hy
        · cases hy
        · exact hy
    obtain ⟨k, hk⟩ := h.links x v y hold
    exact ⟨k, hk.same hs⟩

theorem AllKeyed.keyNew (hw : env.SrtpWorks) (h : m.AllKeyed)
    (hstreams : ∀ u x, m.mgr.streams.lookup u = some x → x < m.nextTransport)
    (hlinks : ∀ x v y, m.subscriberOf x v = some y → y < m.nextTransport) (udp : UdpId)
    (addr : IpAddress) (k : Keying) : (m.keyNew env udp addr k).AllKeyed := by
  constructor
  · intro u x hx
    obtain ⟨k', hk'⟩ := h.streams u x hx
    exact ⟨k', hk'.keyNew hw (hstreams u x hx) udp addr k⟩
  · intro x v y hy
    have hold := m.subscriberOf_keyNew udp addr k hy
    obtain ⟨k', hk'⟩ := h.links x v y hold
    exact ⟨k', hk'.keyNew hw (hlinks x v y hold) udp addr k⟩

/-- A packet of a keyed transport with keyed subscribers is decrypted with the
transport's key, and nothing goes wrong. -/
theorem AllKeyed.handleData (h : m.AllKeyed) (hst : m.KeyedBy st k) (rtcp : Bool)
    (data : Bytes) (srtp : Srtp) : ∃ sent, m.handleData st rtcp data srtp = .ok sent ∧
      .unprotect ⟨.inbound, k.suite, k.recvKey⟩ data ∈ sent := by
  obtain ⟨session, hrecv, hpolicy⟩ := hst.transport.recv
  have hloop : ∀ (plain : Bytes) (sub : Sigma fun _ : Str => TransportId),
      sub ∈ (m.transports st).subsMap.entries → ∃ sent, (do
        let sent ← (m.transports sub.2).onPacket m.srtpInit rtcp plain (srtp.protect sub.2)
        return .forward st sub.2 plain :: sent : Result (List MediaEffect)) = .ok sent := by
    rintro plain ⟨uid, x⟩ hx
    obtain ⟨k', hk'⟩ := h.links st uid x (UnorderedMap.mem_entries_iff.mp hx)
    obtain ⟨s, hsend, -⟩ := hk'.transport.send
    unfold SrtpTransport.onPacket
    rw [hk'.init, hsend]
    dsimp only
    split
    · exact ⟨_, rfl⟩
    · split <;> exact ⟨_, rfl⟩
  rw [hst.init] at hloop
  unfold Media.handleData
  rw [hst.init, hrecv]
  dsimp only
  rw [if_neg (by decide), hpolicy]
  dsimp only
  split
  · exact ⟨_, rfl, by simp⟩
  · exact ⟨_, rfl, by simp⟩
  · next plain _ _ =>
      obtain ⟨turns, hturns⟩ := exists_mapM_ok (hloop plain)
      rw [hturns]
      exact ⟨_, rfl, List.mem_cons_self ..⟩

end Media

/-- If an address has a transport, it has a DTLS connection that has completed
its handshake, and the transport has the keys. -/
def MemberUdpPorts.Keyed (media : Media) (up : MemberUdpPorts) : Prop :=
  ∀ st, up.srtp = some st → ∃ dtls k, up.dtlsConnection = some dtls ∧
    dtls.keying = some k ∧ media.KeyedBy st k

/-- What keeps the transports made so far keyed keeps an address keyed. -/
theorem MemberUdpPorts.Keyed.keep {up : MemberUdpPorts} {media media' : Media}
    (h : up.Keyed media)
    (hkeep : ∀ st k, media.KeyedBy st k → st < media.nextTransport → media'.KeyedBy st k)
    (hlt : ∀ st, up.srtp = some st → st < media.nextTransport) : up.Keyed media' := by
  intro st hst
  obtain ⟨dtls, k, hd, hk, hkeyed⟩ := h st hst
  exact ⟨dtls, k, hd, hk, hkeep st k hkeyed (hlt st hst)⟩

/-- A DTLS connection may go on, as long as it keeps its keys. -/
theorem MemberUdpPorts.Keyed.dtls {up up' : MemberUdpPorts} {media : Media}
    (h : up.Keyed media) (hs : up'.srtp = up.srtp)
    (hd : ∀ dtls k, up.dtlsConnection = some dtls → dtls.keying = some k →
      ∃ dtls', up'.dtlsConnection = some dtls' ∧ dtls'.keying = some k) :
    up'.Keyed media := by
  intro st hst
  rw [hs] at hst
  obtain ⟨dtls, k, hdtls, hk, hkeyed⟩ := h st hst
  obtain ⟨dtls', hdtls', hk'⟩ := hd dtls k hdtls hk
  exact ⟨dtls', k, hdtls', hk', hkeyed⟩

namespace RoomMember

variable {m : RoomMember} {media : Media} {udp : UdpId} {addr : IpAddress}
  {up : MemberUdpPorts} {data : Bytes} {srtp : Srtp}

/-- **A packet after the handshake is decrypted**, whether its transport is there
already or is made for it. -/
theorem onRtp_decrypts (hw : env.SrtpWorks) (hall : media.AllKeyed)
    (hstreams : ∀ u x, media.mgr.streams.lookup u = some x → x < media.nextTransport)
    (hlinks : ∀ x v y, media.subscriberOf x v = some y → y < media.nextTransport)
    (hup : up.Keyed media) {dtls : RtcDtls} {k : Keying} (hd : up.dtlsConnection = some dtls)
    (hk : dtls.keying = some k) : ∃ media' up' sent,
      m.onRtp env media udp addr up data srtp = .ok (media', up', sent) ∧
      .media (.unprotect ⟨.inbound, k.suite, k.recvKey⟩ data) ∈ sent := by
  unfold onRtp
  rw [hd]
  dsimp only
  unfold openSrtp
  cases hs : up.srtp with
  | some st =>
      obtain ⟨dtls', k', hd', hk', hst⟩ := hup st hs
      rw [hd] at hd'
      cases hd'
      rw [hk] at hk'
      cases hk'
      obtain ⟨sent, hsent, hin⟩ := (hall.addStream hst m.uid).handleData
        (hst.same (media.sameSessions_addStream m.uid st)) (isRtcp data) data srtp
      dsimp only
      rw [hsent]
      exact ⟨_, _, _, rfl, List.mem_map_of_mem hin⟩
  | none =>
      have hkeys : dtls.extractSrtpKeys = some (k.suite, k.sendKey, k.recvKey) := by
        rw [RtcDtls.extractSrtpKeys_eq, hk]
        rfl
      have hst := media.keyNew_keyed hw udp addr k
      have hall' := hall.keyNew hw hstreams hlinks udp addr k
      obtain ⟨sent, hsent, hin⟩ := (hall'.addStream hst m.uid).handleData
        (hst.same (Media.sameSessions_addStream _ m.uid _)) (isRtcp data) data srtp
      rw [hkeys]
      have hsent' : (((media.newTransport udp addr).2.setSrtpParam env media.nextTransport
          k.suite k.sendKey k.recvKey).addStream m.uid media.nextTransport).handleData
            media.nextTransport (isRtcp data) data srtp = .ok sent := hsent
      simp only [Media.newTransport] at hsent' ⊢
      rw [hsent']
      exact ⟨_, _, _, rfl, List.mem_map_of_mem hin⟩

/-- **A packet before the end of the handshake** leaves a transport without keys. -/
theorem onRtp_early {dtls : RtcDtls} (hd : up.dtlsConnection = some dtls)
    (hs : up.srtp = none) (hk : dtls.keying = none) :
    m.onRtp env media udp addr up data srtp =
      .ok ((media.newTransport udp addr).2, { up with srtp := some media.nextTransport }, []) := by
  have hopen : openSrtp env media udp addr up dtls =
      (media.nextTransport, false, (media.newTransport udp addr).2,
        { up with srtp := some media.nextTransport }) := by
    have hkeys : dtls.extractSrtpKeys = none := by
      rw [RtcDtls.extractSrtpKeys_eq, hk]
      rfl
    unfold openSrtp
    rw [hs]
    dsimp only
    rw [hkeys]
    rfl
  unfold onRtp
  split
  · next hnone =>
      rw [hd] at hnone
      cases hnone
  · next dtls' hd' =>
      obtain rfl : dtls' = dtls := Option.some.inj (hd'.symm.trans hd)
      rw [hopen]
      rfl

/-- Without a completed handshake there is no transport yet. -/
theorem srtp_eq_none_of_keyed (hup : up.Keyed media) {dtls : RtcDtls}
    (hd : up.dtlsConnection = some dtls) (hk : dtls.keying = none) : up.srtp = none := by
  by_contra hs
  obtain ⟨st, hs⟩ := Option.ne_none_iff_exists'.mp hs
  obtain ⟨dtls', k, hd', hk', -⟩ := hup st hs
  obtain rfl : dtls' = dtls := Option.some.inj (hd'.symm.trans hd)
  rw [hk] at hk'
  cases hk'

end RoomMember

namespace Server

variable {cfg : Config} {s s' : Server} {effects : List Effect}

/-! ## The law -/

/-- **The SRTP keying invariant**: stored and registered transports are keyed, no
datagram follows a null session, and a packet from an address that has completed
its handshake is decrypted with its key. -/
structure SrtpKeyed (env : Env) (s : Server) : Prop where
  stored (r : ℤ) (u : Str) (m : RoomMember) (addr : IpAddress) (h : s.member r u = some m) :
    (m.ports addr).Keyed s.media
  registered (uid : Str) (st : TransportId) (h : s.media.mgr.streams.lookup uid = some st) :
    ∃ k, s.media.KeyedBy st k
  nullFree (r : ℤ) (u : Str) (addr : IpAddress) (data : Bytes) (o : Oracle) :
    s.exec env (.datagram r u addr data o) ≠ .error .nullSrtpSession
  decrypts (r : ℤ) (u : Str) (addr : IpAddress) (data : Bytes) (o : Oracle)
    (up : MemberUdpPorts) (dtls : RtcDtls) (k : Keying)
    (h : s.RtpFor (.datagram r u addr data o) (r, u) up dtls) (hk : dtls.keying = some k) :
    ∃ s' effects, s.exec env (.datagram r u addr data o) = .ok (s', effects) ∧
      .member r u (.media (.unprotect ⟨.inbound, k.suite, k.recvKey⟩ data)) ∈ effects

/-- RTP and RTCP come from an address without a DTLS connection, or with one
that has completed its handshake. -/
def WaitsForKeys (s : Server) (l : Event × List Effect) : Prop :=
  ∀ p up dtls, s.RtpFor l.1 p up dtls → dtls.keying.isSome

/-- What the guarded runs keep. -/
structure Keys (env : Env) (cfg : Config) (s : Server) : Prop where
  reachable : Lts.Reachable (system env cfg) s
  stored (r : ℤ) (u : Str) (m : RoomMember) (addr : IpAddress) (h : s.member r u = some m) :
    (m.ports addr).Keyed s.media
  media : s.media.AllKeyed

variable {r : ℤ} {u : Str} {m : RoomMember} {rcv : UdpReceiver} {addr : IpAddress}
  {data : Bytes} {o : Oracle}

theorem Keys.stream_lt (h : Keys env cfg s) {uid : Str} {st : TransportId}
    (hst : s.media.mgr.streams.lookup uid = some st) : st < s.media.nextTransport :=
  (reachable_sound h.reachable).stream_lt uid st hst

theorem Keys.link_lt (h : Keys env cfg s) {x st : TransportId} {v : Str}
    (hst : s.media.subscriberOf x v = some st) : st < s.media.nextTransport :=
  (reachable_sound h.reachable).sub_lt x v st hst

/-- Whatever RTP or RTCP packet comes in, handling it goes well. -/
theorem Keys.onRtp_ok (hw : env.SrtpWorks) (h : Keys env cfg s) (hmem : s.member r u = some m)
    (rcv : UdpReceiver) (addr : IpAddress) (data : Bytes) (o : Oracle) :
    ∃ media' up' sent, m.onRtp env s.media rcv.udp addr (m.ports addr) data o.srtp =
      .ok (media', up', sent) := by
  have hup := h.stored r u m addr hmem
  cases hd : (m.ports addr).dtlsConnection with
  | none =>
      unfold RoomMember.onRtp
      rw [hd]
      exact ⟨_, _, _, rfl⟩
  | some dtls =>
      cases hk : dtls.keying with
      | none =>
          exact ⟨_, _, _, RoomMember.onRtp_early hd (RoomMember.srtp_eq_none_of_keyed hup hd hk) hk⟩
      | some k =>
          obtain ⟨media', up', sent, hok, -⟩ := RoomMember.onRtp_decrypts hw h.media
            (fun _ _ => h.stream_lt) (fun _ _ _ => h.link_lt) hup hd hk
          exact ⟨media', up', sent, hok⟩

theorem Keys.srtpKeyed (hw : env.SrtpWorks) (h : Keys env cfg s) : SrtpKeyed env s := by
  refine ⟨h.stored, h.media.streams, ?_, ?_⟩
  · intro r u addr data o
    cases hmem : s.member r u with
    | none =>
        rw [exec, receive, hmem]
        exact ok_ne_error _ _
    | some m =>
        cases hrcv : m.udpReceiver with
        | none =>
            rw [exec, receive, hmem]
            dsimp only
            rw [hrcv]
            exact ok_ne_error _ _
        | some rcv =>
            rw [ne_eq, exec_datagram_error hmem hrcv]
            apply RoomMember.onUdpReceive_ne_nullSrtpSession
            obtain ⟨media', up', sent, hok⟩ := h.onRtp_ok hw hmem rcv addr data o
            rw [hok]
            exact ok_ne_error _ _
  · rintro r u addr data o up dtls k ⟨addr', data', o', m, he, hmem, hrcv, hstun, hrtp, rfl, hd⟩ hk
    cases he
    obtain ⟨rcv, hrcv⟩ := Option.isSome_iff_exists.mp hrcv
    obtain ⟨media', up', sent, hok, hin⟩ := RoomMember.onRtp_decrypts hw h.media
      (fun _ _ => h.stream_lt) (fun _ _ _ => h.link_lt) (h.stored r u m addr hmem) hd hk
    refine ⟨_, _, exec_datagram_ok hmem hrcv (RoomMember.onUdpReceive_rtp hstun hrtp hok), ?_⟩
    exact List.mem_map_of_mem hin

/-! ## One step -/

/-- Sessions that stay keep their keys. -/
def KeepsKeys (media media' : Media) : Prop :=
  ∀ st k, media.KeyedBy st k → st < media.nextTransport → media'.KeyedBy st k

theorem keepsKeys_of_same {media media' : Media} (hs : Media.SameSessions media media') :
    KeepsKeys media media' := fun _ _ h _ => h.same hs

theorem Keys.owned_lt (h : Keys env cfg s) (hmem : s.member r u = some m) {a : IpAddress}
    {st : TransportId} (hst : (m.ports a).srtp = some st) : st < s.media.nextTransport :=
  (reachable_sound h.reachable).owned_lt (r, u) st ⟨m, a, hmem, hst⟩

theorem Keys.kept (h : Keys env cfg s) {media : Media} (hkeep : KeepsKeys s.media media)
    (hmem : s.member r u = some m) (a : IpAddress) : (m.ports a).Keyed media :=
  (h.stored r u m a hmem).keep hkeep fun _ hst => h.owned_lt hmem hst

/-- A step that changes one member, and the sessions of no transport that was
there before. -/
theorem Keys.setsMember (h : Keys env cfg s) (hr : Lts.Reachable (system env cfg) s')
    {m' : Option RoomMember} (hm : SetsMember s s' r u m')
    (hkeep : KeepsKeys s.media s'.media)
    (hnew : ∀ m, m' = some m → ∀ a, (m.ports a).Keyed s'.media)
    (hall : s'.media.AllKeyed) : Keys env cfg s' := by
  refine ⟨hr, ?_, hall⟩
  intro r' u' m₁ a hmem
  rw [hm] at hmem
  split at hmem
  · exact hnew m₁ hmem a
  · exact h.kept hkeep hmem a

theorem Keys.sameMembers (h : Keys env cfg s) (hr : Lts.Reachable (system env cfg) s')
    (hm : SameMembers s s') (hmedia : s'.media = s.media) : Keys env cfg s' := by
  refine ⟨hr, ?_, ?_⟩
  · intro r u m a hmem
    rw [hm.member] at hmem
    rw [hmedia]
    exact h.stored r u m a hmem
  · rw [hmedia]
    exact h.media

/-- RTP and RTCP that is not too early: the transport it makes is keyed, and
those that were stay so. -/
theorem Keys.rtp (hw : env.SrtpWorks) (h : Keys env cfg s) {uid : Str} {udp : UdpId}
    {up up' : MemberUdpPorts} {srtp : Srtp} {media' : Media} {sent : List MemberEffect}
    (hup : up.Keyed s.media) (hlt : ∀ st, up.srtp = some st → st < s.media.nextTransport)
    (hg : ∀ dtls, up.dtlsConnection = some dtls → dtls.keying.isSome)
    (hout : RoomMember.RtpOutcome env s.media uid udp addr up data srtp media' up' sent) :
    KeepsKeys s.media media' ∧ up'.Keyed media' ∧ media'.AllKeyed := by
  cases hout with
  | noDtls hd => exact ⟨keepsKeys_of_same (.refl _), hup, h.media⟩
  | @unkeyed dtls hd hs hk =>
      -- the guard leaves this case out
      rw [RtcDtls.extractSrtpKeys_eq, Option.map_eq_none_iff] at hk
      have hkeys := hg dtls hd
      rw [hk] at hkeys
      cases hkeys
  | @keyed dtls media₁ cs sendKey recvKey sent hd hs hk hm₁ hh =>
      rw [RtcDtls.extractSrtpKeys_eq, Option.map_eq_some_iff] at hk
      obtain ⟨k, hk, heq⟩ := hk
      obtain ⟨rfl, hkeys⟩ := Prod.mk.inj heq
      obtain ⟨rfl, rfl⟩ := Prod.mk.inj hkeys
      replace hm₁ : media₁ = s.media.keyNew env udp addr k := hm₁
      have hst : media₁.KeyedBy s.media.nextTransport k := by
        rw [hm₁]
        exact s.media.keyNew_keyed hw udp addr k
      have hall : media₁.AllKeyed := by
        rw [hm₁]
        exact h.media.keyNew hw (fun _ _ => h.stream_lt) (fun _ _ _ => h.link_lt) _ _ k
      have hsessions := media₁.sameSessions_addStream uid s.media.nextTransport
      refine ⟨?_, ?_, hall.addStream hst uid⟩
      · intro x k' hx hlt
        apply Media.KeyedBy.same _ hsessions
        rw [hm₁]
        exact hx.keyNew hw hlt udp addr k
      · rintro st ⟨⟩
        exact ⟨dtls, k, hd, hk, hst.same hsessions⟩
  | @reused dtls st sent hd hs hh =>
      obtain ⟨dtls', k, hd', hk, hst⟩ := hup st hs
      have hkeep := keepsKeys_of_same (s.media.sameSessions_addStream uid st)
      exact ⟨hkeep, hup.keep hkeep hlt, h.media.addStream hst uid⟩

/-- A datagram that is not too early. -/
theorem Keys.received (hw : env.SrtpWorks) (h : Keys env cfg s)
    (hr : Lts.Reachable (system env cfg) s') {m' : RoomMember} {sent : List MemberEffect}
    (hg : ∀ up dtls, s.RtpFor (.datagram r u addr data o) (r, u) up dtls → dtls.keying.isSome)
    (hmem : s.member r u = some m) (hrcv : m.udpReceiver = some rcv)
    (hrecv : m.onUdpReceive env s.media rcv.udp addr data o = .ok (s'.media, m', sent))
    (hm : SetsMember s s' r u (some m')) : Keys env cfg s' := by
  obtain ⟨up, rfl, hreceived⟩ := RoomMember.onUdpReceive_outcome hrecv
  have hstored := h.stored r u m addr hmem
  -- enough to look at the address of the sender
  suffices hone : KeepsKeys s.media s'.media ∧ up.Keyed s'.media ∧ s'.media.AllKeyed by
    obtain ⟨hkeep, hup, hall⟩ := hone
    refine h.setsMember hr hm hkeep ?_ hall
    rintro _ ⟨⟩ a
    rw [RoomMember.ports_insert]
    split
    · exact hup
    · exact h.kept hkeep hmem a
  have hrefl : KeepsKeys s.media s.media := keepsKeys_of_same (.refl _)
  generalize s'.media = media' at hreceived ⊢
  cases hreceived with
  | stun hk hstun =>
      obtain ⟨hd, hs⟩ := RoomMember.onStun_frame hstun
      refine ⟨hrefl, hstored.dtls hs ?_, h.media⟩
      intro dtls k hdtls hk
      exact ⟨dtls, by rw [hd, hdtls], hk⟩
  | dtls hstun hrtp hk hdtls =>
      refine ⟨hrefl, hstored.dtls (RoomMember.onDtls_frame hdtls).2 ?_, h.media⟩
      intro dtls k hd hk
      exact RoomMember.onDtls_keying hdtls hd hk
  | unknown => exact ⟨hrefl, hstored, h.media⟩
  | rtp hstun hrtp hout =>
      refine h.rtp hw hstored (fun _ hst => h.owned_lt hmem hst) ?_ hout
      intro dtls hd
      have hrun : m.udpReceiver.isSome := by rw [hrcv]; rfl
      exact hg _ dtls ⟨addr, data, o, m, rfl, hmem, hrun, hstun, hrtp, rfl, hd⟩

/-- **One step that meets the guard.** -/
theorem Keys.step (hw : env.SrtpWorks) {l : Event × List Effect} (h : Keys env cfg s)
    (hg : s.WaitsForKeys l) (hstep : (system env cfg).step s l s') : Keys env cfg s' := by
  obtain ⟨e, effects⟩ := l
  have hr := h.reachable.snoc hstep
  have hwf := reachable_wellFormed h.reachable
  have hrefl := keepsKeys_of_same (.refl s.media)
  cases step_outcome hwf hstep with
  | unknown => exact h
  | quiet _ hm _ ho | unlisted _ _ hm _ ho => exact h.sameMembers hr hm ho.media
  | joined hcmd hn hnew hm hof hc ho =>
      refine h.setsMember hr hm (by rwa [ho.media]) ?_ (by rw [ho.media]; exact h.media)
      rintro _ ⟨⟩ a st hst
      cases hst
  | @offered c msg rnd _ r u m offerSdp hn hmem hm hc ho =>
      refine h.setsMember hr hm (by rwa [ho.media]) ?_ (by rw [ho.media]; exact h.media)
      rintro _ ⟨⟩ a
      rw [ho.media]
      exact h.stored r u m a hmem
  | @served c msg rnd _ r u m offerSdp answerSdp pull port reply hadm hn hmem hpull halloc hm hc
      hmedia hnext =>
      have hsessions : Media.SameSessions s.media (s.mediaAfterPull u pull) := by
        cases pull <;> exact ⟨rfl, fun _ => rfl, fun _ => rfl⟩
      have hall : (s.mediaAfterPull u pull).AllKeyed := by
        cases pull with
        | none => exact h.media
        | some t => exact h.media.addSubscriber u t
      rw [← hmedia] at hsessions hall
      refine h.setsMember hr hm (keepsKeys_of_same hsessions) ?_ hall
      rintro _ ⟨⟩ a
      exact h.kept (keepsKeys_of_same hsessions) hmem a
  | @parted c _ r u m hlast hentry hmem hm hof hc hport hmedia hnext =>
      have hsessions := s.media.sameSessions_removeSubscriber m.uid
      have hall := h.media.removeSubscriber m.uid
      rw [← hmedia] at hsessions hall
      refine h.setsMember hr hm (keepsKeys_of_same hsessions) ?_ hall
      rintro _ ⟨⟩
  | @acted r u addr acts _ m hmem hm hc ho =>
      refine h.setsMember hr hm (by rwa [ho.media]) ?_ (by rw [ho.media]; exact h.media)
      rintro _ ⟨⟩ a
      rw [ho.media]
      apply (h.stored _ _ _ a hmem).dtls (m.onAdapter_ports addr a acts).2
      intro dtls k hd hk
      exact m.onAdapter_keying addr a acts hd hk
  | received hmem hrcv hrecv hm => exact h.received hw hr (fun _ _ => hg _ _ _) hmem hrcv hrecv hm

/-- **Only such steps do**: a packet that is too early leaves a transport behind
that has no keys. -/
theorem Keys.waitsForKeys {l : Event × List Effect} (h : Keys env cfg s)
    (hstep : (system env cfg).step s l s') (hlaw : SrtpKeyed env s') : s.WaitsForKeys l := by
  rintro ⟨r, u⟩ up dtls ⟨addr, data, o, m, he, hmem, hrcv, hstun, hrtp, rfl, hd⟩
  obtain ⟨rcv, hrcv⟩ := Option.isSome_iff_exists.mp hrcv
  have hexec : s.receive env r u addr data o = .ok (s', l.2) := by
    have hok := hstep.2
    rwa [he] at hok
  obtain ⟨m', sent, hrecv, -, hm, -⟩ := receive_ok hmem hrcv hexec
  by_contra hnone
  rw [Option.not_isSome_iff_eq_none] at hnone
  have hs := RoomMember.srtp_eq_none_of_keyed (h.stored r u m addr hmem) hd hnone
  rw [RoomMember.onUdpReceive_rtp hstun hrtp (RoomMember.onRtp_early hd hs hnone)] at hrecv
  obtain ⟨-, hrest⟩ := Prod.mk.inj (Except.ok.inj hrecv)
  obtain ⟨rfl, -⟩ := Prod.mk.inj hrest
  -- the transport is stored all the same, and the law asks for keys
  have hmem' := hm r u
  rw [if_pos ⟨rfl, rfl⟩] at hmem'
  have hkeyed := hlaw.stored r u _ addr hmem'
  rw [RoomMember.ports_insert, if_pos rfl] at hkeyed
  have hlater := RoomMember.srtp_eq_none_of_keyed hkeyed hd hnone
  cases hlater

/-- **SRTP keying over a run**: the invariant holds in every state if and only if
no RTP or RTCP packet comes from an address whose handshake has begun and is not
complete. -/
theorem srtpKeyed_iff (hw : env.SrtpWorks) {tr : List (Server × (Event × List Effect))}
    (run : Lts.Run (system env cfg) tr s) :
    Lts.Visits (SrtpKeyed env) tr s ↔ Lts.Guarded WaitsForKeys tr := by
  refine run.visits_iff_guarded (I := Keys env cfg) ?_ ?_ ?_ ?_
  · rintro s rfl
    refine ⟨.start rfl, ?_, ?_, ?_⟩
    · intro r u m a hmem
      simp [initial, member, findRoom] at hmem
    · intro uid st h
      cases h
    · intro x v st h
      cases h
  · exact fun s h => h.srtpKeyed hw
  · exact fun s l s' h hg hstep => h.step hw hg hstep
  · exact fun s l s' h hstep hlaw => h.waitsForKeys hstep hlaw

end Server

/-! ## A handshake, and a packet before its end -/

namespace Server

open Sample

theorem srtpWorks_sample : Sample.env.SrtpWorks := by
  refine ⟨rfl, rfl, ?_, fun _ _ _ _ => rfl⟩
  intro suite keyLen saltLen h
  refine ⟨⟨keyLen + saltLen, 10, 10⟩, ?_, rfl⟩
  show (getSrtpKeyAndSaltLengths suite).map _ = _
  rw [h]
  rfl

/-- Alice publishes, and sends when her handshake is complete. -/
theorem srtpKeyed_iff_sent :
    ∃ tr s, Lts.Run (system Sample.env cfg) tr s ∧ s.media.srtpInit = true ∧
      (Lts.Visits (SrtpKeyed Sample.env) tr s ↔ Lts.Guarded WaitsForKeys tr) := by
  obtain ⟨s, ⟨tr, run⟩, hv⟩ := exists_reachable_of_runEvents Sample.env cfg
    [join 1 (str "1") alice, publish 1 (str "1") alice, hello 1 alice ⟨1, 1⟩ [keying],
      rtp 1 alice ⟨1, 1⟩]
    (fun s => s.media.srtpInit) true (by decide +kernel)
  exact ⟨tr, s, run, hv, srtpKeyed_iff srtpWorks_sample run⟩

/-- Alice sends before the end of her handshake, and again after it: once Bob has
made the library start, her packets follow a null session. -/
theorem early_packet_null :
    ∃ tr s, Lts.Run (system Sample.env cfg) tr s ∧
      s.exec Sample.env (rtp 1 alice ⟨1, 1⟩) = .error .nullSrtpSession ∧
      ¬ Lts.Visits (SrtpKeyed Sample.env) tr s := by
  obtain ⟨s, ⟨tr, run⟩, hv⟩ := exists_reachable_of_runEvents Sample.env cfg
    [join 1 (str "1") alice, publish 1 (str "1") alice, hello 1 alice ⟨1, 1⟩ [],
      rtp 1 alice ⟨1, 1⟩, hello 1 alice ⟨1, 1⟩ [keying], join 2 (str "1") bob [alice],
      publish 2 (str "1") bob, hello 1 bob ⟨2, 2⟩ [keying], rtp 1 bob ⟨2, 2⟩]
    (fun s => faultOf (s.exec Sample.env (rtp 1 alice ⟨1, 1⟩))) (some .nullSrtpSession)
    (by decide +kernel)
  have hnull := faultOf_eq_some.mp hv
  exact ⟨tr, s, run, hnull, fun hlaw => hlaw.1.nullFree 1 alice _ _ _ hnull⟩

end Server

end JuanSfu
