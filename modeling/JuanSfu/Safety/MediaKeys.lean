import JuanSfu.Safety.MediaDelivery

/-!
# Under which keys packets travel

A transport is made for one remote address and, if its DTLS connection has keys
then, gets sessions with them; nothing changes either afterwards, whoever is
linked with it and whoever leaves. So a packet is decrypted with the keys of the
handshake at the address it came from, and what is sent to an address is
encrypted with the keys of a handshake that was completed there.
-/

namespace JuanSfu

/-! ## The keys of one transport -/

namespace SrtpTransport

/-- The transport, but for its subscribers. -/
def unlinked (st : SrtpTransport) : SrtpTransport := { st with subsMap := ∅ }

/-- Neither of its sessions has a context. -/
structure Unkeyed (st : SrtpTransport) : Prop where
  send : st.sendPolicy = none
  recv : st.recvPolicy = none

/-- Its sessions have no other keys than these. -/
structure KeysOf (st : SrtpTransport) (k : Keying) : Prop where
  send : ∀ policy ∈ st.sendPolicy, policy = ⟨.outbound, k.suite, k.sendKey⟩
  recv : ∀ policy ∈ st.recvPolicy, policy = ⟨.inbound, k.suite, k.recvKey⟩

variable {st st' : SrtpTransport}

theorem Unkeyed.of_unlinked (h : st.Unkeyed) (heq : st'.unlinked = st.unlinked) :
    st'.Unkeyed :=
  ⟨(congrArg sendPolicy heq).trans h.send, (congrArg recvPolicy heq).trans h.recv⟩

theorem KeysOf.of_unlinked {k : Keying} (h : st.KeysOf k) (heq : st'.unlinked = st.unlinked) :
    st'.KeysOf k := by
  have hsend : st'.unlinked.sendPolicy = st.unlinked.sendPolicy := by rw [heq]
  have hrecv : st'.unlinked.recvPolicy = st.unlinked.recvPolicy := by rw [heq]
  exact ⟨hsend ▸ h.send, hrecv ▸ h.recv⟩

theorem Unkeyed.keysOf (h : st.Unkeyed) (k : Keying) : st.KeysOf k := by
  constructor
  · intro policy hp
    rw [h.send] at hp
    cases hp
  · intro policy hp
    rw [h.recv] at hp
    cases hp

end SrtpTransport

theorem SrtpSession.setKey_policy (env : Env) (type : SrtpDirection) (cs : ℤ) (key : Bytes) :
    ∀ policy ∈ (({} : SrtpSession).setKey env type cs key).2.srtpSession,
      policy = ⟨type, cs, key⟩ := by
  intro policy h
  unfold setKey at h
  split at h
  · cases h
  · dsimp only at h
    split at h
    · cases h
    · split at h
      · cases h
      · split at h
        · cases h
        · cases h
          rfl

namespace SrtpTransport

/-- `set_srtp_param` on a new transport gives it these keys or none. -/
theorem setSrtpParam_keysOf (env : Env) (srtpInit : Bool) (udp : UdpId) (addr : IpAddress)
    (k : Keying) :
    (({ udp, addr } : SrtpTransport).setSrtpParam env srtpInit k.suite k.sendKey k.suite
      k.recvKey).2.2.KeysOf k := by
  have hnew : ({ udp, addr } : SrtpTransport).Unkeyed := ⟨rfl, rfl⟩
  unfold setSrtpParam
  split
  · exact hnew.keysOf k
  · split
    · exact hnew.keysOf k
    · exact ⟨SrtpSession.setKey_policy env .outbound k.suite k.sendKey,
        SrtpSession.setKey_policy env .inbound k.suite k.recvKey⟩

theorem setSrtpParam_addr (env : Env) (srtpInit : Bool) (st : SrtpTransport) (sendCs : ℤ)
    (sendKey : Bytes) (recvCs : ℤ) (recvKey : Bytes) :
    (st.setSrtpParam env srtpInit sendCs sendKey recvCs recvKey).2.2.udp = st.udp ∧
      (st.setSrtpParam env srtpInit sendCs sendKey recvCs recvKey).2.2.addr = st.addr := by
  unfold setSrtpParam
  split
  · exact ⟨rfl, rfl⟩
  · split <;> exact ⟨rfl, rfl⟩

end SrtpTransport

namespace Media

variable {m m' : Media} {st : TransportId}

/-- `m'` has the transports of `m`, linked with others maybe. -/
def SameTransports (m m' : Media) : Prop :=
  ∀ st, (m'.transports st).unlinked = (m.transports st).unlinked

theorem SameTransports.trans {m'' : Media} (h : SameTransports m m')
    (h' : SameTransports m' m'') : SameTransports m m'' := fun st => (h' st).trans (h st)

theorem sameTransports_onTransport (m : Media) (st : TransportId)
    {f : SrtpTransport → SrtpTransport} (hf : ∀ t, (f t).unlinked = t.unlinked) :
    SameTransports m (m.onTransport st f) := by
  intro x
  by_cases hx : x = st
  · subst hx
    simp [onTransport, hf]
  · simp [onTransport, hx]

theorem sameTransports_addStream (m : Media) (uid : Str) (st : TransportId) :
    SameTransports m (m.addStream uid st) := by
  rw [addStream_eq]
  dsimp only
  split
  · exact fun _ => rfl
  · have hon : ∀ (m : Media) st v u, SameTransports m (m.onTransport st (·.addSubscriber v u)) :=
      fun m st v u => sameTransports_onTransport m st fun _ => rfl
    exact (hon _ _ _ _).trans (hon _ _ _ _)

theorem sameTransports_removeSubscriber (m : Media) (uid : Str) :
    SameTransports m (m.removeSubscriber uid) := by
  have hon : ∀ (m : Media) st v, SameTransports m (m.onTransport st (·.removeSubscriber v)) :=
    fun m st v => sameTransports_onTransport m st fun _ => rfl
  unfold removeSubscriber
  split
  · exact fun _ => rfl
  · dsimp only
    split
    · split
      · exact (hon _ _ _).trans (hon _ _ _)
      · exact hon _ _ _
    · split
      · exact hon _ _ _
      · exact fun _ => rfl

/-- **A new transport**, for `addr` and with the keys there, and the others as before. -/
structure Makes (m : Media) (udp : UdpId) (addr : IpAddress) (keying : Option Keying)
    (m' : Media) : Prop where
  udp : (m'.transports m.nextTransport).udp = udp
  addr : (m'.transports m.nextTransport).addr = addr
  keys : (m'.transports m.nextTransport).Unkeyed ∨
    ∃ k, keying = some k ∧ (m'.transports m.nextTransport).KeysOf k
  others (st : TransportId) (h : st ≠ m.nextTransport) :
    (m'.transports st).unlinked = (m.transports st).unlinked

theorem Makes.same {m'' : Media} {udp : UdpId} {addr : IpAddress} {keying : Option Keying}
    (h : Makes m udp addr keying m') (hs : SameTransports m' m'') :
    Makes m udp addr keying m'' := by
  refine ⟨?_, ?_, ?_, fun st hst => (hs st).trans (h.others st hst)⟩
  · exact (congrArg SrtpTransport.udp (hs m.nextTransport)).trans h.udp
  · exact (congrArg SrtpTransport.addr (hs m.nextTransport)).trans h.addr
  · rcases h.keys with hno | ⟨k, hk, hkeys⟩
    · exact Or.inl (hno.of_unlinked (hs _))
    · exact Or.inr ⟨k, hk, hkeys.of_unlinked (hs _)⟩

theorem makes_newTransport (m : Media) (udp : UdpId) (addr : IpAddress)
    (keying : Option Keying) : Makes m udp addr keying (m.newTransport udp addr).2 := by
  have hnew : (m.newTransport udp addr).2.transports m.nextTransport = { udp, addr } := by
    simp [newTransport]
  refine ⟨by rw [hnew], by rw [hnew], Or.inl ?_, ?_⟩
  · rw [hnew]
    exact ⟨rfl, rfl⟩
  · intro st hst
    simp [newTransport, hst]

theorem makes_keyed (env : Env) (m : Media) (udp : UdpId) (addr : IpAddress) (k : Keying) :
    Makes m udp addr (some k)
      ((m.newTransport udp addr).2.setSrtpParam env m.nextTransport k.suite k.sendKey
        k.recvKey) := by
  have hnew : (m.newTransport udp addr).2.transports m.nextTransport = { udp, addr } := by
    simp [newTransport]
  have hself : ((m.newTransport udp addr).2.setSrtpParam env m.nextTransport k.suite k.sendKey
      k.recvKey).transports m.nextTransport =
        (({ udp, addr } : SrtpTransport).setSrtpParam env m.srtpInit k.suite k.sendKey
          k.suite k.recvKey).2.2 := by
    unfold setSrtpParam
    rw [hnew]
    simp [onTransport, newTransport]
  obtain ⟨hudp, haddr⟩ := SrtpTransport.setSrtpParam_addr env m.srtpInit { udp, addr } k.suite
    k.sendKey k.suite k.recvKey
  refine ⟨?_, ?_, Or.inr ⟨k, rfl, ?_⟩, ?_⟩
  · rw [hself, hudp]
  · rw [hself, haddr]
  · rw [hself]
    exact SrtpTransport.setSrtpParam_keysOf env m.srtpInit udp addr k
  · intro st hst
    simp [setSrtpParam, onTransport, newTransport, hst]

end Media

namespace Server

variable {env : Env} {cfg : Config} {s s' : Server} {l : Event × List Effect}

/-! ## What one step does to the transports -/

/-- A member receives at the socket `udp`, and its DTLS connection with `addr` has
completed its handshake with these keys, whichever socket the member received at
then. -/
def Negotiated (s : Server) (udp : UdpId) (addr : IpAddress) (k : Keying) : Prop :=
  ∃ r u m dtls, s.member r u = some m ∧ m.udpReceiver = some ⟨udp⟩ ∧
    (m.ports addr).dtlsConnection = some dtls ∧ dtls.keying = some k

/-- The objects of an address keep their transport and the keys they have. -/
structure KeepsPorts (up up' : MemberUdpPorts) : Prop where
  srtp : up'.srtp = up.srtp
  keying (dtls : RtcDtls) (k : Keying) (hd : up.dtlsConnection = some dtls)
    (hk : dtls.keying = some k) :
    ∃ dtls', up'.dtlsConnection = some dtls' ∧ dtls'.keying = some k

theorem KeepsPorts.refl (up : MemberUdpPorts) : KeepsPorts up up :=
  ⟨rfl, fun dtls _ hd hk => ⟨dtls, hd, hk⟩⟩

/-- **The cases of a step**, by what it does to the transports. -/
inductive TransportStep (s s' : Server) : Prop where
  | same (h : s.media.SameTransports s'.media)
      (hm : ∀ r u m, s'.member r u = some m → (∀ a, (m.ports a).srtp = none) ∨
        ∃ m₀, s.member r u = some m₀ ∧ ∀ a, KeepsPorts (m₀.ports a) (m.ports a))
  | made {r : ℤ} {u : Str} {addr : IpAddress} {m m' : RoomMember} {rcv : UdpReceiver}
      {dtls : RtcDtls} (hmem : s.member r u = some m) (hrcv : m.udpReceiver = some rcv)
      (hd : (m.ports addr).dtlsConnection = some dtls)
      (h : s.media.Makes rcv.udp addr dtls.keying s'.media)
      (hm : SetsMember s s' r u (some m')) (hports : ∀ a, m'.ports a =
        if a = addr then { m.ports addr with srtp := some s.media.nextTransport }
        else m.ports a) : TransportStep s s'

theorem transportStep_of_member {r : ℤ} {u : Str} {m m' : RoomMember}
    (hmem : s.member r u = some m) (hm : SetsMember s s' r u (some m'))
    (hmedia : s.media.SameTransports s'.media)
    (hports : ∀ a, KeepsPorts (m.ports a) (m'.ports a)) : TransportStep s s' := by
  refine .same hmedia fun r' u' m₁ h => Or.inr ?_
  rw [hm] at h
  split at h
  · next heq =>
      obtain ⟨rfl, rfl⟩ := heq
      cases h
      exact ⟨m, hmem, hports⟩
  · exact ⟨m₁, h, fun a => .refl _⟩

/-- A member with other objects at one address. -/
theorem keepsPorts_insert {m : RoomMember} {addr : IpAddress} {up : MemberUdpPorts}
    (h : KeepsPorts (m.ports addr) up) (a : IpAddress) : KeepsPorts (m.ports a)
      (({ m with udpHandles := m.udpHandles.insert addr up } : RoomMember).ports a) := by
  rw [RoomMember.ports_insert]
  split
  · next heq =>
      subst heq
      exact h
  · exact .refl _

theorem received_transports {r : ℤ} {u : Str} {m m' : RoomMember} {rcv : UdpReceiver}
    {addr : IpAddress} {data : Bytes} {o : Oracle} {sent : List MemberEffect}
    (hmem : s.member r u = some m) (hrcv : m.udpReceiver = some rcv)
    (hrecv : m.onUdpReceive env s.media rcv.udp addr data o = .ok (s'.media, m', sent))
    (hm : SetsMember s s' r u (some m')) : TransportStep s s' := by
  obtain ⟨up, rfl, hreceived⟩ := RoomMember.onUdpReceive_outcome hrecv
  have hkeep : s.media.SameTransports s'.media → KeepsPorts (m.ports addr) up →
      TransportStep s s' := fun hmedia hup =>
    transportStep_of_member hmem hm hmedia (keepsPorts_insert hup)
  have hmade : ∀ {dtls : RtcDtls}, (m.ports addr).dtlsConnection = some dtls →
      s.media.Makes rcv.udp addr dtls.keying s'.media →
      up = { m.ports addr with srtp := some s.media.nextTransport } → TransportStep s s' := by
    rintro dtls hd h rfl
    refine .made hmem hrcv hd h hm fun a => ?_
    rw [RoomMember.ports_insert]
  generalize s'.media = media' at hreceived hkeep hmade
  cases hreceived with
  | stun _ h =>
      obtain ⟨hdtls, hsrtp⟩ := RoomMember.onStun_frame h
      exact hkeep (fun _ => rfl) ⟨hsrtp, fun dtls k hd hk => ⟨dtls, hdtls.trans hd, hk⟩⟩
  | dtls _ _ _ h =>
      exact hkeep (fun _ => rfl) ⟨(RoomMember.onDtls_frame h).2, fun dtls k hd hk =>
        RoomMember.onDtls_keying h hd hk⟩
  | unknown => exact hkeep (fun _ => rfl) (.refl _)
  | rtp _ _ h =>
      cases h with
      | noDtls => exact hkeep (fun _ => rfl) (.refl _)
      | reused => exact hkeep (Media.sameTransports_addStream _ _ _) (.refl _)
      | unkeyed hd => exact hmade hd (Media.makes_newTransport ..) rfl
      | keyed hd hs hk hmed =>
          rw [RtcDtls.extractSrtpKeys_eq, Option.map_eq_some_iff] at hk
          obtain ⟨k, hk, heq⟩ := hk
          cases heq
          subst hmed
          refine hmade hd ?_ rfl
          rw [hk]
          exact (Media.makes_keyed env s.media rcv.udp addr k).same
            (Media.sameTransports_addStream _ _ _)

theorem step_transports (hr : Lts.Reachable (system env cfg) s)
    (hstep : (system env cfg).step s l s') : TransportStep s s' := by
  obtain ⟨e, effects⟩ := l
  have hsame : SameMembers s s' → s'.media = s.media → TransportStep s s' := by
    intro hm hmedia
    refine .same (fun _ => by rw [hmedia]) fun r u m h => Or.inr ?_
    rw [hm.member] at h
    exact ⟨m, h, fun a => .refl _⟩
  cases step_outcome (reachable_wellFormed hr) hstep with
  | quiet _ hm _ ho => exact hsame hm ho.media
  | unknown => exact .same (fun _ => rfl) fun r u m h => Or.inr ⟨m, h, fun a => .refl _⟩
  | unlisted _ _ hm _ ho => exact hsame hm ho.media
  | @joined c msg rnd _ r u reply hcmd hn hnew hm hof hc ho =>
      refine .same (fun _ => by rw [ho.media]) fun r' u' m h => ?_
      rw [hm] at h
      split at h
      · cases h
        exact Or.inl fun a => rfl
      · exact Or.inr ⟨m, h, fun a => .refl _⟩
  | offered hn hmem hm hc ho =>
      exact transportStep_of_member hmem hm (fun _ => by rw [ho.media]) fun a => .refl _
  | @served c msg rnd _ r u m offerSdp answerSdp pull port reply hadm hn hmem hpull halloc hm hc
      hmedia hnext =>
      refine transportStep_of_member hmem hm (fun _ => ?_) fun a => .refl _
      rw [hmedia]
      cases pull <;> rfl
  | @parted c _ r u m hlast hentry hmem hm hof hc hport hmedia =>
      refine .same ?_ fun r' u' m h => Or.inr ?_
      · rw [hmedia]
        exact s.media.sameTransports_removeSubscriber m.uid
      · rw [hm] at h
        split at h
        · cases h
        · exact ⟨m, h, fun a => .refl _⟩
  | @received r u addr data o _ m m' rcv sent hmem hrcv hrecv hm =>
      exact received_transports hmem hrcv hrecv hm
  | @acted r u addr acts _ m hmem hm hc ho =>
      refine transportStep_of_member hmem hm (fun _ => by rw [ho.media]) fun a => ⟨?_, ?_⟩
      · exact (m.onAdapter_ports addr a acts).2
      · exact fun dtls k => m.onAdapter_keying addr a acts

/-! ## Runs -/

/-- **The transport of an address** is for that address, and has the keys of the
DTLS connection there or none. -/
def PortsKeyed (s : Server) : Prop :=
  ∀ r u m a st, s.member r u = some m → (m.ports a).srtp = some st →
    (s.media.transports st).addr = a ∧ ((s.media.transports st).Unkeyed ∨
      ∃ dtls k, (m.ports a).dtlsConnection = some dtls ∧ dtls.keying = some k ∧
        (s.media.transports st).KeysOf k)

/-- What keeps the transport and the objects of its address keeps this. -/
theorem PortsKeyed.keep (h : s.PortsKeyed) {r : ℤ} {u : Str} {m : RoomMember}
    (hmem : s.member r u = some m) {a : IpAddress} {up : MemberUdpPorts}
    (hup : KeepsPorts (m.ports a) up) {st : TransportId} (hst : up.srtp = some st)
    (hsame : (s'.media.transports st).unlinked = (s.media.transports st).unlinked) :
    (s'.media.transports st).addr = a ∧ ((s'.media.transports st).Unkeyed ∨
      ∃ dtls k, up.dtlsConnection = some dtls ∧ dtls.keying = some k ∧
        (s'.media.transports st).KeysOf k) := by
  obtain ⟨haddr, hkeys⟩ := h r u m a st hmem (hup.srtp ▸ hst)
  refine ⟨(congrArg SrtpTransport.addr hsame).trans haddr, ?_⟩
  rcases hkeys with hno | ⟨dtls, k, hd, hk, hkeys⟩
  · exact Or.inl (hno.of_unlinked hsame)
  · obtain ⟨dtls', hd', hk'⟩ := hup.keying dtls k hd hk
    exact Or.inr ⟨dtls', k, hd', hk', hkeys.of_unlinked hsame⟩

theorem PortsKeyed.step (h : s.PortsKeyed) (hr : Lts.Reachable (system env cfg) s)
    (hstep : (system env cfg).step s l s') : s'.PortsKeyed := by
  intro r' u' m₁ a st hmem₁ hst
  have hlt : ∀ m a, s.member r' u' = some m → (m.ports a).srtp = some st →
      st ≠ s.media.nextTransport := fun m a hmem hst =>
    ((reachable_sound hr).owned_lt (r', u') st ⟨m, a, hmem, hst⟩).ne
  cases step_transports hr hstep with
  | same hmedia hm =>
      rcases hm r' u' m₁ hmem₁ with hnone | ⟨m, hmem, hup⟩
      · rw [hnone a] at hst
        cases hst
      · exact h.keep hmem (hup a) hst (hmedia st)
  | @made r u addr m m' rcv dtls hmem hrcv hd hmakes hm hports =>
      rw [hm] at hmem₁
      split at hmem₁
      · next heq =>
          obtain ⟨rfl, rfl⟩ := heq
          cases hmem₁
          rw [hports] at hst ⊢
          split at hst
          · next heq =>
              subst heq
              cases hst
              refine ⟨hmakes.addr, ?_⟩
              rcases hmakes.keys with hno | ⟨k, hk, hkeys⟩
              · exact Or.inl hno
              · refine Or.inr ⟨dtls, k, ?_, hk, hkeys⟩
                rw [if_pos rfl]
                exact hd
          · next hne =>
              rw [if_neg hne]
              exact h.keep hmem (.refl _) hst (hmakes.others st (hlt m a hmem hst))
      · exact h.keep hmem₁ (.refl _) hst (hmakes.others st (hlt m₁ a hmem₁ hst))

theorem reachable_portsKeyed (hr : Lts.Reachable (system env cfg) s) : s.PortsKeyed := by
  refine hr.invariant (P := PortsKeyed) ?_ ?_
  · rintro s rfl r u m a st hmem -
    simp [initial, member, findRoom] at hmem
  · exact fun s l s' hr h hstep => h.step hr hstep

/-- **The keys of every transport ever made** were negotiated for its address, by
who received at the socket it sends from, before some step of the run. -/
theorem run_negotiated {tr : List (Server × (Event × List Effect))}
    (run : Lts.Run (system env cfg) tr s) (st : TransportId) :
    (s.media.transports st).Unkeyed ∨ ∃ p ∈ tr, ∃ k,
      Negotiated p.1 (s.media.transports st).udp (s.media.transports st).addr k ∧
        (s.media.transports st).KeysOf k := by
  induction run with
  | start h =>
      obtain rfl := h
      exact Or.inl ⟨rfl, rfl⟩
  | @snoc tr s s' l run hstep ih =>
      have hold : (s'.media.transports st).unlinked = (s.media.transports st).unlinked →
          (s'.media.transports st).Unkeyed ∨ ∃ p ∈ (s, l) :: tr, ∃ k,
            Negotiated p.1 (s'.media.transports st).udp (s'.media.transports st).addr k ∧
              (s'.media.transports st).KeysOf k := by
        intro hsame
        rcases ih with hno | ⟨p, hp, k, hneg, hkeys⟩
        · exact Or.inl (hno.of_unlinked hsame)
        · refine Or.inr ⟨p, List.mem_cons_of_mem _ hp, k, ?_, hkeys.of_unlinked hsame⟩
          have hudp : (s'.media.transports st).udp = (s.media.transports st).udp :=
            (congrArg SrtpTransport.udp hsame :)
          have haddr : (s'.media.transports st).addr = (s.media.transports st).addr :=
            (congrArg SrtpTransport.addr hsame :)
          rw [hudp, haddr]
          exact hneg
      cases step_transports run.reachable hstep with
      | same hmedia => exact hold (hmedia st)
      | @made r u addr m m' rcv dtls hmem hrcv hd hmakes =>
          by_cases hst : st = s.media.nextTransport
          · subst hst
            rcases hmakes.keys with hno | ⟨k, hk, hkeys⟩
            · exact Or.inl hno
            · refine Or.inr ⟨(s, l), List.mem_cons_self .., k, ?_, hkeys⟩
              rw [hmakes.udp, hmakes.addr]
              exact ⟨r, u, m, dtls, hmem, hrcv, hd, hk⟩
          · exact hold (hmakes.others st hst)

/-- `packet` is what libsrtp makes of a packet that the step forwards, in the
session of the transport it is for, which has the sending keys `k`. -/
def SentUnder (s' : Server) (l : Event × List Effect) (r : ℤ) (u : Str) (packet : Bytes)
    (k : Keying) : Prop :=
  ∃ a data o src dst plain, l.1 = .datagram r u a data o ∧
    .member r u (.media (.forward src dst plain)) ∈ l.2 ∧ o.srtp.protect dst = some packet ∧
    (s'.media.transports dst).sendPolicy = some ⟨.outbound, k.suite, k.sendKey⟩

/-- A packet is sent in the session of a transport whose keys were negotiated. -/
theorem sentUnder_of_mem {tr : List (Server × (Event × List Effect))}
    (run : Lts.Run (system env cfg) tr s) (hstep : (system env cfg).step s l s') {r : ℤ}
    {u : Str} {udp : UdpId} {addr : IpAddress} {packet : Bytes}
    (h : .member r u (.media (.send udp addr packet)) ∈ l.2) :
    ∃ p ∈ (s, l) :: tr, ∃ k, Negotiated p.1 udp addr k ∧ SentUnder s' l r u packet k := by
  obtain ⟨a, data, o, src, dst, plain, he, hf, hout⟩ :=
    (sends_iff run.reachable hstep).mp h
  obtain ⟨hpolicy, packet', hp, heq⟩ := SrtpTransport.mem_outgoing_iff.mp hout
  cases heq
  rcases run_negotiated (run.snoc hstep) dst with hno | ⟨p, hmem, k, hneg, hkeys⟩
  · exact absurd hno.send hpolicy
  · obtain ⟨policy, hsome⟩ := Option.ne_none_iff_exists'.mp hpolicy
    refine ⟨p, hmem, k, hneg, a, data, o, src, dst, plain, he, hf, hp, ?_⟩
    rw [hsome, hkeys.send policy hsome]

/-- **What is sent to an address is encrypted with keys negotiated for it**, in a
handshake completed before, by a member that received at the socket it goes out of. -/
theorem sent_negotiated {tr : List (Server × (Event × List Effect))}
    (run : Lts.Run (system env cfg) tr s) (hstep : (system env cfg).step s l s') {r : ℤ}
    {u : Str} {udp : UdpId} {addr : IpAddress} {packet : Bytes}
    (h : .member r u (.media (.send udp addr packet)) ∈ l.2) :
    ∃ k, SentUnder s' l r u packet k ∧ ∃ p ∈ (s, l) :: tr, Negotiated p.1 udp addr k := by
  obtain ⟨p, hp, k, hneg, hsent⟩ := sentUnder_of_mem run hstep h
  exact ⟨k, hsent, p, hp, hneg⟩

/-- The media in an effect. -/
def mediaOf : Effect → Option (ℤ × Str × MediaEffect)
  | .member r u (.media e) => some (r, u, e)
  | _ => none

theorem mem_of_mediaOf {effects : List Effect} {r : ℤ} {u : Str} {e : MediaEffect}
    (h : (r, u, e) ∈ effects.filterMap mediaOf) : .member r u (.media e) ∈ effects := by
  obtain ⟨effect, hmem, heq⟩ := List.mem_filterMap.mp h
  unfold mediaOf at heq
  split at heq
  · cases heq
    exact hmem
  · cases heq

/-- Alice sends to Bob, after each has joined, shaken hands and sent a packet. -/
theorem exists_sent_pulled : ∃ tr s s' effects,
    Lts.Run (system Sample.env Sample.cfg) tr s ∧
      (system Sample.env Sample.cfg).step s (Sample.rtp 1 Sample.alice ⟨1, 1⟩, effects) s' ∧
      effects.filterMap mediaOf = [
        (1, Sample.alice, .unprotect ⟨.inbound, 1, Sample.keying.recvKey⟩
          ([128, 96] ++ List.replicate 10 0)),
        (1, Sample.alice, .forward 0 1 [1]), (1, Sample.alice, .send 1 ⟨2, 2⟩ [2])] :=
  exists_step_of_runEvents Sample.env Sample.cfg
    (Sample.pulled ++ [Sample.rtp 1 Sample.bob ⟨2, 2⟩]) (Sample.rtp 1 Sample.alice ⟨1, 1⟩)
    (fun _ _ effects => effects.filterMap mediaOf) _ (by decide +kernel)

theorem sent_negotiated_pulled :
    ∃ tr s s' effects, Lts.Run (system Sample.env Sample.cfg) tr s ∧
      ∃ k, SentUnder s' (Sample.rtp 1 Sample.alice ⟨1, 1⟩, effects) 1 Sample.alice [2] k ∧
        ∃ p ∈ (s, (Sample.rtp 1 Sample.alice ⟨1, 1⟩, effects)) :: tr,
          Negotiated p.1 1 ⟨2, 2⟩ k := by
  obtain ⟨tr, s, s', effects, run, hstep, heffects⟩ := exists_sent_pulled
  have hsend : .member 1 Sample.alice (.media (.send 1 ⟨2, 2⟩ [2])) ∈ effects := by
    apply mem_of_mediaOf
    rw [heffects]
    simp
  exact ⟨tr, s, s', effects, run, sent_negotiated run hstep hsend⟩

/-- The datagram is for `u`, and the DTLS connection that `u` has with its sender
has completed its handshake with the keys `k`. -/
def ReadUnder (s' : Server) (e : Event) (r : ℤ) (u : Str) (data : Bytes) (k : Keying) : Prop :=
  ∃ addr o m dtls, e = .datagram r u addr data o ∧ s'.member r u = some m ∧
    (m.ports addr).dtlsConnection = some dtls ∧ dtls.keying = some k

/-- **What comes from an address is decrypted with the keys negotiated there**, by
the member it came for. -/
theorem unprotect_negotiated (hr : Lts.Reachable (system env cfg) s)
    (hstep : (system env cfg).step s l s') {r : ℤ} {u : Str} {policy : SrtpPolicy}
    {data : Bytes} (h : .member r u (.media (.unprotect policy data)) ∈ l.2) :
    ∃ k, ReadUnder s' l.1 r u data k ∧ policy = ⟨.inbound, k.suite, k.recvKey⟩ := by
  cases step_media hr hstep with
  | silent hno => exact absurd h (hno r u _)
  | @handled r' u' addr data' o m st sent hmem hst hh =>
      obtain ⟨⟨rfl, rfl⟩, hin⟩ := mem_media_iff.mp h
      obtain ⟨hp, rfl⟩ : (s'.media.transports st).recvPolicy = some policy ∧ data' = data := by
        cases hh with
        | unread => cases hin
        | undecrypted hp =>
            cases List.mem_singleton.mp hin
            exact ⟨hp, rfl⟩
        | delivered hp =>
            rcases List.mem_cons.mp hin with heq | hin
            · cases heq
              exact ⟨hp, rfl⟩
            · obtain ⟨e, -, hin⟩ := List.mem_flatMap.mp hin
              rcases List.mem_cons.mp hin with hin | hin
              · cases hin
              · obtain ⟨-, packet, -, hin⟩ := SrtpTransport.mem_outgoing_iff.mp hin
                cases hin
      rcases (reachable_portsKeyed (hr.snoc hstep) r u m addr st hmem hst).2 with
        hno | ⟨dtls, k, hd, hk, hkeys⟩
      · rw [hno.recv] at hp
        cases hp
      · exact ⟨k, ⟨addr, o, m, dtls, rfl, hmem, hd, hk⟩, hkeys.recv policy hp⟩

theorem unprotect_negotiated_pulled :
    ∃ s s', Lts.Reachable (system Sample.env Sample.cfg) s ∧
      ∃ k, ReadUnder s' (Sample.rtp 1 Sample.alice ⟨1, 1⟩) 1 Sample.alice
          ([128, 96] ++ List.replicate 10 0) k ∧
        (⟨.inbound, 1, Sample.keying.recvKey⟩ : SrtpPolicy) =
          ⟨.inbound, k.suite, k.recvKey⟩ := by
  obtain ⟨tr, s, s', effects, run, hstep, heffects⟩ := exists_sent_pulled
  have hasked : .member 1 Sample.alice (.media (.unprotect ⟨.inbound, 1, Sample.keying.recvKey⟩
      ([128, 96] ++ List.replicate 10 0))) ∈ effects := by
    apply mem_of_mediaOf
    rw [heffects]
    simp
  exact ⟨s, s', run.reachable, unprotect_negotiated run.reachable hstep hasked⟩

end Server

end JuanSfu
