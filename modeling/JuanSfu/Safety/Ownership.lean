import JuanSfu.Lib.Wiring
import JuanSfu.System

/-!
# Who owns which transport

The transports are reached on three ways: from the addresses of a member, from
`_streams` and `_subs_map` of the manager, and from the `_subs_map` of each
other. Read together they are a `Wiring`, in which the parties are the members,
each under its uid, and a step of the server is a step of the wiring. The
library's laws of wirings are then laws of the server's runs.
-/

namespace JuanSfu

/-! ## The manager's calls, as wiring -/

namespace Media

variable {P : Type} (owns : P → TransportId → Prop) (m : Media)

/-- The manager and the transports, with what the parties own. -/
def wiring : Wiring.State P Str where
  owns := owns
  streams := fun uid => m.mgr.streams.lookup uid
  target := m.target
  subs := m.subscriberOf
  next := m.nextTransport

theorem wiring_addSubscriber (uid targetUid : Str) :
    (m.addSubscriber uid targetUid).wiring owns = (m.wiring owns).subscribe uid targetUid := by
  ext1
  · rfl
  · rfl
  · funext u
    show (m.addSubscriber uid targetUid).target u = Function.update m.target uid _ u
    rw [Function.update_apply, target, addSubscriber]
    dsimp only
    rw [UnorderedMap.lookup_insert_ite]
    split <;> rfl
  · rfl
  · rfl

theorem wiring_newTransport (udp : UdpId) (addr : IpAddress) (p : P) :
    (m.newTransport udp addr).2.wiring (fun q x => owns q x ∨ q = p ∧ x = m.nextTransport) =
      (m.wiring owns).openFor p := by
  ext1
  · rfl
  · rfl
  · rfl
  · funext x v
    show (m.newTransport udp addr).2.subscriberOf x v =
      Function.update m.subscriberOf m.nextTransport (fun _ => none) x v
    rw [subscriberOf_newTransport, Function.update_apply]
    split <;> rfl
  · rfl

theorem wiring_setSrtpParam (env : Env) (st : TransportId) (cs : ℤ) (sendKey recvKey : Bytes) :
    (m.setSrtpParam env st cs sendKey recvKey).wiring owns = m.wiring owns := by
  ext1
  · rfl
  · rfl
  · rfl
  · funext x v
    exact m.subscriberOf_setSrtpParam env st cs sendKey recvKey x v
  · rfl

theorem wiring_peerOf (uid : Str) (st : TransportId) :
    (m.wiring owns).peerOf uid st = m.peerOf uid st := by
  show (m.target uid).bind _ = (m.target uid).bind _
  congr 1
  funext t
  show (Function.update (fun u => m.mgr.streams.lookup u) uid (some st) t).map _ = _
  rw [Function.update_apply, UnorderedMap.lookup_insert_ite]

theorem wiring_addStream (uid : Str) (st : TransportId) :
    (m.addStream uid st).wiring owns = (m.wiring owns).register uid st := by
  ext1
  · rfl
  · funext u
    show (m.addStream uid st).mgr.streams.lookup u =
      Function.update (fun u => m.mgr.streams.lookup u) uid (some st) u
    rw [addStream_mgr, Function.update_apply]
    exact UnorderedMap.lookup_insert_ite ..
  · funext u
    show (m.addStream uid st).target u = m.target u
    rw [target, addStream_mgr]
    rfl
  · funext x v
    show (m.addStream uid st).subscriberOf x v = _
    rw [subscriberOf_addStream, Wiring.State.register, wiring_peerOf]
    dsimp only
    cases m.peerOf uid st <;> rfl
  · exact m.addStream_nextTransport uid st

theorem wiring_removeSubscriber (p : P) (uid : Str) :
    (m.removeSubscriber uid).wiring (fun q x => owns q x ∧ q ≠ p) =
      (m.wiring owns).part p uid := by
  ext1
  · rfl
  · funext u
    show (m.removeSubscriber uid).mgr.streams.lookup u = _
    rw [removeSubscriber_mgr]
    rfl
  · funext u
    show (m.removeSubscriber uid).target u = m.target u
    rw [target, removeSubscriber_mgr]
    rfl
  · funext x v
    show (m.removeSubscriber uid).subscriberOf x v = _
    have htarget : (m.wiring owns).target uid = m.target uid := rfl
    rw [subscriberOf_removeSubscriber, Wiring.State.part]
    dsimp only
    rw [htarget]
    cases m.target uid <;> rfl
  · exact m.removeSubscriber_nextTransport uid

end Media

namespace Server

/-! ## Owners -/

/-- `st` is the transport of one of the addresses of member `p.2` of room `p.1`. -/
def Owns (s : Server) (p : ℤ × Str) (st : TransportId) : Prop :=
  ∃ m a, s.member p.1 p.2 = some m ∧ (m.ports a).srtp = some st

def wiring (s : Server) : Wiring.State (ℤ × Str) Str := s.media.wiring s.Owns

variable {env : Env} {cfg : Config} {s s' : Server} {effects : List Effect} {r : ℤ} {u : Str}

theorem SetsMember.owns {m' : Option RoomMember} (hm : SetsMember s s' r u m')
    (q : ℤ × Str) (x : TransportId) : s'.Owns q x ↔
      if q = (r, u) then ∃ m a, m' = some m ∧ (m.ports a).srtp = some x else s.Owns q x := by
  unfold Owns
  rw [hm]
  by_cases hq : q = (r, u)
  · subst hq
    rw [if_pos ⟨rfl, rfl⟩, if_pos rfl]
  · have hne : ¬ (q.1 = r ∧ q.2 = u) := fun h => hq (Prod.ext h.1 h.2)
    rw [if_neg hne, if_neg hq]

/-- A member whose transports stay keeps what it owns. -/
theorem SetsMember.owns_same {m m' : RoomMember} (hmem : s.member r u = some m)
    (hm : SetsMember s s' r u (some m')) (hsrtp : ∀ a, (m'.ports a).srtp = (m.ports a).srtp) :
    s'.Owns = s.Owns := by
  ext q x
  rw [hm.owns]
  split
  · next heq =>
      subst heq
      simp only [Owns, hmem, Option.some.injEq, exists_and_left, exists_eq_left', hsrtp]
  · exact Iff.rfl

/-- A member that is new has no addresses yet. -/
theorem SetsMember.owns_fresh (hnew : s.member r u = none)
    (hm : SetsMember s s' r u (some { uid := u })) : s'.Owns = s.Owns := by
  ext q x
  rw [hm.owns]
  split
  · next hq =>
      subst hq
      simp [Owns, hnew, RoomMember.ports]
  · exact Iff.rfl

/-- A member that leaves owns nothing any more. -/
theorem SetsMember.owns_left (hm : SetsMember s s' r u none) :
    s'.Owns = fun q x => s.Owns q x ∧ q ≠ (r, u) := by
  ext q x
  rw [hm.owns]
  split
  · next hq => simp [hq]
  · next hq => simp [hq]

theorem SameMembers.owns (hm : SameMembers s s') : s'.Owns = s.Owns := by
  ext q x
  simp only [Owns, hm.member]

theorem wiring_same (howns : s'.Owns = s.Owns) (hmedia : s'.media = s.media) :
    s'.wiring = s.wiring := by
  rw [wiring, wiring, howns, hmedia]

/-! ## What an event does to the wiring -/

/-- An RTP or RTCP datagram for member `p`, from an address with the objects
`up` and the DTLS connection `dtls`. -/
def RtpFor (s : Server) (e : Event) (p : ℤ × Str) (up : MemberUdpPorts) (dtls : RtcDtls) :
    Prop :=
  ∃ addr data o m, e = .datagram p.1 p.2 addr data o ∧ s.member p.1 p.2 = some m ∧
    m.udpReceiver.isSome ∧ StunPacket.isStun data = false ∧
    (isRtcp data || isRtp data) = true ∧ up = m.ports addr ∧ up.dtlsConnection = some dtls

/-- A datagram for `p` that `on_udp_receive` passes on to `add_stream`, with the
transport `st`: the one of its address, or a new one if there are keys. -/
def Feeds (s : Server) (e : Event) (p : ℤ × Str) (st : TransportId) : Prop :=
  ∃ up dtls, s.RtpFor e p up dtls ∧
    (up.srtp = some st ∨
      up.srtp = none ∧ dtls.keying.isSome ∧ st = s.media.nextTransport)

/-- A close on which `remove` drops member `p`. -/
def Leaves (s : Server) (e : Event) (p : ℤ × Str) : Prop :=
  ∃ c, e = .close c (some p.2) ∧ s.connections.lookup c = some p.1

/-- A packet for member `p` goes from one transport to another. -/
def Forwards (effects : List Effect) (p : ℤ × Str) (src dst : TransportId) : Prop :=
  ∃ data, .member p.1 p.2 (.media (.forward src dst data)) ∈ effects

/-- **The cases of one event**, by what it does to the wiring. -/
inductive Wires (s : Server) (e : Event) (effects : List Effect) :
    Wiring.State (ℤ × Str) Str → Prop where
  | idle (hfeed : ∀ p st, ¬ s.Feeds e p st) (hleave : ∀ p, ¬ s.Leaves e p)
      (hf : ∀ p src dst, ¬ Forwards effects p src dst) : Wires s e effects s.wiring
  | subscribed {c : ConnId} {msg : Json} {rnd : MessageOracle} {u t : Str}
      (he : e = .message c msg rnd) (hf : ∀ p src dst, ¬ Forwards effects p src dst) :
      Wires s e effects (s.wiring.subscribe u t)
  /-- A transport is made and left without keys. -/
  | opened {p : ℤ × Str} (hfeed : ∀ p st, ¬ s.Feeds e p st) (hleave : ∀ p, ¬ s.Leaves e p)
      (hf : ∀ p src dst, ¬ Forwards effects p src dst) :
      Wires s e effects (s.wiring.openFor p)
  | fed {p : ℤ × Str} {st : TransportId} (he : s.Feeds e p st) (ho : s.Owns p st)
      (hf : ∀ q src dst, Forwards effects q src dst → q = p ∧ src = st ∧
        ∃ v, (s.wiring.register p.2 st).subs st v = some dst) :
      Wires s e effects (s.wiring.register p.2 st)
  | first {p : ℤ × Str} (he : s.Feeds e p s.media.nextTransport)
      (hf : ∀ q src dst, Forwards effects q src dst → q = p ∧ src = s.media.nextTransport ∧
        ∃ v, ((s.wiring.openFor p).register p.2 s.wiring.next).subs s.wiring.next v =
          some dst) :
      Wires s e effects ((s.wiring.openFor p).register p.2 s.wiring.next)
  | parted {p : ℤ × Str} (he : s.Leaves e p)
      (hf : ∀ q src dst, ¬ Forwards effects q src dst) :
      Wires s e effects (s.wiring.part p p.2)

/-! ### Case by case -/

theorem not_feeds_message {c : ConnId} {msg : Json} {rnd : MessageOracle} (p : ℤ × Str)
    (st : TransportId) : ¬ s.Feeds (.message c msg rnd) p st := by
  rintro ⟨up, dtls, ⟨addr, data, o, m, he, -⟩, -⟩
  cases he

theorem not_feeds_close {c : ConnId} {first : Option Str} (p : ℤ × Str)
    (st : TransportId) : ¬ s.Feeds (.close c first) p st := by
  rintro ⟨up, dtls, ⟨addr, data, o, m, he, -⟩, -⟩
  cases he

theorem not_feeds_adapter {a : IpAddress} {acts : List AdapterAct} (p : ℤ × Str)
    (st : TransportId) : ¬ s.Feeds (.adapter r u a acts) p st := by
  rintro ⟨up, dtls, ⟨addr, data, o, m, he, -⟩, -⟩
  cases he

theorem Leaves.isClose {e : Event} {p : ℤ × Str} (h : s.Leaves e p) : e.isClose = true := by
  obtain ⟨c, rfl, -⟩ := h
  rfl

theorem not_leaves {e : Event} (he : e.isClose = false) (p : ℤ × Str) : ¬ s.Leaves e p := by
  intro h
  rw [h.isClose] at he
  cases he

theorem Feeds.not_leaves {e : Event} {p q : ℤ × Str} {st : TransportId}
    (h : s.Feeds e p st) : ¬ s.Leaves e q := by
  rintro ⟨c, he, -⟩
  rw [he] at h
  exact not_feeds_close p st h

/-- A datagram is for one member, and from one address. -/
theorem Feeds.unique {e : Event} {p q : ℤ × Str} {st x : TransportId} (h : s.Feeds e p st)
    (h' : s.Feeds e q x) : q = p ∧ x = st := by
  obtain ⟨up, dtls, ⟨addr, data, o, m, rfl, hmem, -, -, -, rfl, hd⟩, hs⟩ := h
  obtain ⟨up', dtls', ⟨addr', data', o', m', he, hmem', -, -, -, rfl, hd'⟩, hs'⟩ := h'
  obtain ⟨hr, hu, rfl, -, -⟩ := Event.datagram.inj he
  obtain rfl : q = p := (Prod.ext hr hu).symm
  rw [hmem] at hmem'
  cases hmem'
  refine ⟨rfl, ?_⟩
  rcases hs with hs | ⟨hs, -, rfl⟩
  · rcases hs' with hs' | ⟨hs', -, -⟩
    · exact Option.some.inj (hs'.symm.trans hs)
    · cases hs.symm.trans hs'
  · rcases hs' with hs' | ⟨-, -, rfl⟩
    · cases hs.symm.trans hs'
    · rfl

/-- Effects of one member concern that member. -/
theorem forwards_member {sent : List MemberEffect} {q : ℤ × Str} {src dst : TransportId}
    (h : Forwards (sent.map (.member r u)) q src dst) :
    q = (r, u) ∧ ∃ data, .media (.forward src dst data) ∈ sent := by
  obtain ⟨data, h⟩ := h
  obtain ⟨e, he, heq⟩ := List.mem_map.mp h
  cases heq
  exact ⟨rfl, data, he⟩

theorem no_forwards_member {sent : List MemberEffect} (h : ∀ e, .media e ∉ sent)
    (q : ℤ × Str) (src dst : TransportId) : ¬ Forwards (sent.map (.member r u)) q src dst := by
  intro hf
  obtain ⟨-, data, hf⟩ := forwards_member hf
  exact h _ hf

/-- What goes out of a transport is what the wiring has linked with it. -/
theorem forwards_handleData {m : Media} {st : TransportId} {rtcp : Bool} {data : Bytes}
    {srtp : Srtp} {sent : List MediaEffect} (h : m.handleData st rtcp data srtp = .ok sent)
    {q : ℤ × Str} {src dst : TransportId}
    (hf : Forwards ((sent.map .media).map (.member r u)) q src dst) :
    q = (r, u) ∧ src = st ∧ ∃ v, m.subscriberOf st v = some dst := by
  obtain ⟨hq, plain, hf⟩ := forwards_member hf
  obtain ⟨e, he, heq⟩ := List.mem_map.mp hf
  cases heq
  obtain ⟨hsrc, v, hv⟩ := Media.handleData_forward h he
  exact ⟨hq, hsrc, v, hv⟩

/-- A datagram that leaves the transport of its address leaves the owners. -/
theorem owns_received_same {m : RoomMember} {addr : IpAddress} {up : MemberUdpPorts}
    (hmem : s.member r u = some m)
    (hm : SetsMember s s' r u (some { m with udpHandles := m.udpHandles.insert addr up }))
    (hsrtp : up.srtp = (m.ports addr).srtp) : s'.Owns = s.Owns := by
  apply hm.owns_same hmem
  intro a
  rw [RoomMember.ports_insert]
  split
  · next ha => rw [ha, hsrtp]
  · rfl

theorem wiring_received_same {m : RoomMember} {addr : IpAddress} {up : MemberUdpPorts}
    (hmem : s.member r u = some m)
    (hm : SetsMember s s' r u (some { m with udpHandles := m.udpHandles.insert addr up }))
    (hmedia : s'.media = s.media) (hsrtp : up.srtp = (m.ports addr).srtp) :
    s'.wiring = s.wiring :=
  wiring_same (owns_received_same hmem hm hsrtp) hmedia

/-- A new transport for an address is the member's. -/
theorem owns_received_new {m : RoomMember} {addr : IpAddress} {up : MemberUdpPorts}
    {st : TransportId} (hmem : s.member r u = some m)
    (hm : SetsMember s s' r u (some { m with udpHandles := m.udpHandles.insert addr up }))
    (hnone : (m.ports addr).srtp = none) (hsrtp : up.srtp = some st) :
    s'.Owns = fun q x => s.Owns q x ∨ q = (r, u) ∧ x = st := by
  ext q x
  rw [hm.owns]
  split
  · next hq =>
      subst hq
      constructor
      · rintro ⟨m', a, hm', ha⟩
        cases hm'
        rw [RoomMember.ports_insert] at ha
        split at ha
        · rw [hsrtp] at ha
          cases ha
          exact Or.inr ⟨rfl, rfl⟩
        · exact Or.inl ⟨m, a, hmem, ha⟩
      · rintro (⟨m', a, hm', ha⟩ | ⟨-, rfl⟩)
        · rw [hmem] at hm'
          cases hm'
          refine ⟨_, a, rfl, ?_⟩
          rw [RoomMember.ports_insert, if_neg, ha]
          rintro rfl
          rw [hnone] at ha
          cases ha
        · refine ⟨_, addr, rfl, ?_⟩
          rw [RoomMember.ports_insert, if_pos rfl, hsrtp]
  · next hq => simp [hq]

/-- Only an RTP datagram with a DTLS connection and a transport, or the keys for
one, is passed on. -/
theorem not_feeds_datagram {m : RoomMember} {addr : IpAddress} {data : Bytes} {o : Oracle}
    (hmem : s.member r u = some m)
    (h : ∀ dtls, StunPacket.isStun data = false → (isRtcp data || isRtp data) = true →
      (m.ports addr).dtlsConnection = some dtls →
      (m.ports addr).srtp = none ∧ dtls.keying = none)
    (p : ℤ × Str) (st : TransportId) : ¬ s.Feeds (.datagram r u addr data o) p st := by
  rintro ⟨up, dtls, ⟨addr', data', o', m', he, hmem', -, hstun, hrtp, rfl, hd⟩, hs⟩
  cases he
  rw [hmem] at hmem'
  cases hmem'
  obtain ⟨hnone, hk⟩ := h dtls hstun hrtp hd
  rw [hnone, hk] at hs
  simp at hs

/-- RTP and RTCP: an address without keys is left alone or given a transport; one
with keys or a transport feeds it. -/
theorem rtp_wires {m : RoomMember} {udp : UdpId} {addr : IpAddress} {data : Bytes}
    {o : Oracle} {up : MemberUdpPorts} {sent : List MemberEffect}
    (hmem : s.member r u = some m) (hnamed : m.uid = u) (hrun : m.udpReceiver.isSome)
    (hstun : StunPacket.isStun data = false) (hk : (isRtcp data || isRtp data) = true)
    (h : RoomMember.RtpOutcome env s.media m.uid udp addr (m.ports addr) data o.srtp s'.media
      up sent)
    (hm : SetsMember s s' r u (some { m with udpHandles := m.udpHandles.insert addr up })) :
    s.Wires (.datagram r u addr data o) (sent.map (.member r u)) s'.wiring := by
  have hleave := not_leaves (s := s) (e := .datagram r u addr data o) rfl
  have hrtp : ∀ dtls, (m.ports addr).dtlsConnection = some dtls →
      s.RtpFor (.datagram r u addr data o) (r, u) (m.ports addr) dtls :=
    fun dtls hd => ⟨addr, data, o, m, rfl, hmem, hrun, hstun, hk, rfl, hd⟩
  generalize hmedia : s'.media = media' at h
  cases h with
  | noDtls hd =>
      rw [wiring_received_same hmem hm hmedia rfl]
      refine .idle (not_feeds_datagram hmem ?_) hleave (no_forwards_member (by simp))
      intro dtls _ _ hd'
      rw [hd] at hd'
      cases hd'
  | @unkeyed dtls hd hs hk =>
      rw [RtcDtls.extractSrtpKeys_eq, Option.map_eq_none_iff] at hk
      have howns := owns_received_new hmem hm hs rfl
      rw [wiring, howns, hmedia, Media.wiring_newTransport]
      refine .opened (not_feeds_datagram hmem ?_) hleave (no_forwards_member (by simp))
      intro dtls' _ _ hd'
      rw [hd] at hd'
      cases hd'
      exact ⟨hs, hk⟩
  | @keyed dtls media₁ cs sendKey recvKey sent hd hs hk hm₁ hh =>
      have howns := owns_received_new hmem hm hs rfl
      have hkeys : dtls.keying.isSome := by
        rw [RtcDtls.extractSrtpKeys_eq] at hk
        exact Option.isSome_map.symm.trans (by rw [hk]; rfl)
      have hwired : (media₁.addStream m.uid s.media.nextTransport).wiring s'.Owns =
          (s.wiring.openFor (r, u)).register u s.wiring.next := by
        rw [Media.wiring_addStream, hm₁, Media.wiring_setSrtpParam, howns,
          Media.wiring_newTransport, hnamed]
        rfl
      rw [wiring, hmedia, hwired]
      refine .first (p := (r, u)) ⟨_, dtls, hrtp dtls hd, Or.inr ⟨hs, hkeys, rfl⟩⟩ ?_
      intro q src dst hf
      rw [← hwired]
      exact forwards_handleData hh hf
  | @reused dtls st sent hd hs hh =>
      have howns := owns_received_same hmem hm rfl
      have hwired : (s.media.addStream m.uid st).wiring s'.Owns =
          s.wiring.register u st := by
        rw [Media.wiring_addStream, howns, hnamed]
        rfl
      rw [wiring, hmedia, hwired]
      refine .fed (p := (r, u)) ⟨_, dtls, hrtp dtls hd, Or.inl hs⟩ ⟨m, addr, hmem, hs⟩ ?_
      intro q src dst hf
      rw [← hwired]
      exact forwards_handleData hh hf

theorem received_wires {m m' : RoomMember} {rcv : UdpReceiver} {addr : IpAddress}
    {data : Bytes} {o : Oracle} {sent : List MemberEffect} (hmem : s.member r u = some m)
    (hnamed : m.uid = u) (hrcv : m.udpReceiver = some rcv)
    (hrecv : m.onUdpReceive env s.media rcv.udp addr data o = .ok (s'.media, m', sent))
    (hm : SetsMember s s' r u (some m')) :
    s.Wires (.datagram r u addr data o) (sent.map (.member r u)) s'.wiring := by
  obtain ⟨up, rfl, hr⟩ := RoomMember.onUdpReceive_outcome hrecv
  have hleave := not_leaves (s := s) (e := .datagram r u addr data o) rfl
  generalize hmedia : s'.media = media' at hr
  cases hr with
  | stun hk h =>
      rw [wiring_received_same hmem hm hmedia (RoomMember.onStun_frame h).2]
      refine .idle (not_feeds_datagram hmem ?_) hleave
        (no_forwards_member (RoomMember.onStun_no_media h))
      intro dtls hstun
      rw [hk] at hstun
      cases hstun
  | dtls hstun hrtp hk h =>
      rw [wiring_received_same hmem hm hmedia (RoomMember.onDtls_frame h).2]
      refine .idle (not_feeds_datagram hmem ?_) hleave
        (no_forwards_member (RoomMember.onDtls_no_media h))
      intro dtls _ hr
      rw [hrtp] at hr
      cases hr
  | unknown hstun hrtp hk =>
      rw [wiring_received_same hmem hm hmedia rfl]
      refine .idle (not_feeds_datagram hmem ?_) hleave (no_forwards_member (by simp))
      intro dtls _ hr
      rw [hrtp] at hr
      cases hr
  | rtp hstun hk h =>
      rw [← hmedia] at h
      exact rtp_wires hmem hnamed (by rw [hrcv]; rfl) hstun hk h hm

/-- **One event is a step of the wiring.** -/
theorem Outcome.wires {e : Event} (hw : s.WellFormed) (h : Outcome env s e s' effects) :
    s.Wires e effects s'.wiring := by
  have hnil : ∀ p src dst, ¬ Forwards [] p src dst := by
    rintro p src dst ⟨data, h⟩
    cases h
  cases h with
  | quiet he hm hc ho =>
      rw [wiring_same hm.owns ho.media]
      refine .idle ?_ ?_ hnil
      · rintro p st ⟨up, dtls, ⟨addr, data, o, m, rfl, hmem, hrcv, -⟩, -⟩
        rw [he m hmem] at hrcv
        cases hrcv
      · rintro p ⟨c, rfl, -⟩
        exact he
  | unknown hnone =>
      refine .idle not_feeds_close ?_ hnil
      rintro p ⟨c, he, hlast⟩
      cases he
      rw [hnone] at hlast
      cases hlast
  | unlisted hlast hnone hm hc ho =>
      rw [wiring_same hm.owns ho.media]
      refine .idle not_feeds_close ?_ hnil
      rintro p ⟨c, he, -⟩
      cases he
  | @joined c msg rnd _ r u reply hcmd hn hnew hm hof hc ho =>
      rw [wiring_same (hm.owns_fresh hnew) ho.media]
      refine .idle not_feeds_message (not_leaves rfl) ?_
      rintro p src dst ⟨data, h⟩
      simp at h
  | offered hn hmem hm hc ho =>
      rw [wiring_same (hm.owns_same hmem fun _ => rfl) ho.media]
      exact .idle not_feeds_message (not_leaves rfl) hnil
  | @served c msg rnd _ r u m offerSdp answerSdp pull port reply hadm hn hmem hpull halloc hm hc
      hmedia hnext =>
      have howns : s'.Owns = s.Owns := hm.owns_same hmem fun _ => rfl
      have hf : ∀ p src dst, ¬ Forwards [.portAllocated port, .reply c reply] p src dst := by
        rintro p src dst ⟨data, h⟩
        simp at h
      cases pull with
      | none =>
          rw [wiring_same howns hmedia]
          exact .idle not_feeds_message (not_leaves rfl) hf
      | some t =>
          rw [wiring, howns, hmedia, mediaAfterPull, Media.wiring_addSubscriber]
          exact .subscribed rfl hf
  | @parted c _ r u m hlast hentry hmem hm hof hc hport hmedia hnext =>
      rw [wiring, hm.owns_left, hmedia, Media.wiring_removeSubscriber, hw.named r u m hmem]
      refine .parted (p := (r, u)) ⟨c, rfl, hlast⟩ ?_
      rintro q src dst ⟨data, h⟩
      unfold stopEffects at h
      split at h
      · cases h
      · simp at h
  | @acted r u addr acts _ m hmem hm hc ho =>
      have howns := hm.owns_same hmem fun a => (m.onAdapter_ports addr a acts).2
      rw [wiring_same howns ho.media]
      exact .idle not_feeds_adapter (not_leaves rfl)
        (no_forwards_member (m.onAdapter_no_media addr acts))
  | @received r u addr data o _ m m' rcv sent hmem hrcv hrecv hm hc hport hnext =>
      exact received_wires hmem (hw.named r u m hmem) hrcv hrecv hm

/-! ## The server refines the wiring -/

theorem Wires.step {e : Event} {w : Wiring.State (ℤ × Str) Str} (h : s.Wires e effects w) :
    ∃ a, Wiring.Step Prod.snd s.wiring a w := by
  cases h with
  | idle => exact ⟨_, .idle⟩
  | subscribed => exact ⟨_, .subscribe _ _⟩
  | opened => exact ⟨_, .openFor _⟩
  | fed _ ho => exact ⟨_, .register ho⟩
  | first => exact ⟨_, .first _⟩
  | parted => exact ⟨_, .part _⟩

theorem wiring_initial (cfg : Config) : (initial cfg).wiring = .empty := by
  have howns : (initial cfg).Owns = fun _ _ => False := by
    ext q x
    simp [Owns, initial, member, findRoom]
  rw [wiring, howns]
  ext1 <;> rfl

theorem step_wires (hr : Lts.Reachable (system env cfg) s) {l : Event × List Effect}
    (h : (system env cfg).step s l s') : s.Wires l.1 l.2 s'.wiring :=
  have hw := reachable_wellFormed hr
  (step_outcome hw h).wires hw

/-- **Refinement**: every run of the server is one of the wiring of its members. -/
theorem reachable_wiring (hr : Lts.Reachable (system env cfg) s) :
    Lts.Reachable (Wiring.spec Prod.snd) s.wiring := by
  refine hr.map ?_ ?_
  · rintro s rfl
    exact wiring_initial cfg
  · intro s l s' hr h
    exact (step_wires hr h).step

/-- No transport has two owners, and none is made twice. -/
theorem reachable_sound (hr : Lts.Reachable (system env cfg) s) : Wiring.Sound s.wiring :=
  Wiring.reachable_sound (reachable_wiring hr)

end Server

end JuanSfu
