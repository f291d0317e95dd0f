import JuanSfu.Safety.MediaKeys

/-!
# To whom the server talks

An address is sent something only after it has been heard of. A binding response goes
back to where the request came from; the records of a DTLS connection go to the
address whose first record made the connection; and media go where a handshake has
been completed. So nobody who keeps silent is sent anything, whatever the clients
say about him in their offers.
-/

namespace JuanSfu

/-! ## A DTLS connection keeps its address -/

namespace RtcDtls

theorem readLoop_remoteAddr (d : RtcDtls) (reads : List StreamResult) :
    (d.readLoop reads).remoteAddr = d.remoteAddr := by
  fun_induction readLoop d reads with
  | case1 reads ih => exact ih
  | _ => rfl

theorem act_remoteAddr (d : RtcDtls) (a : AdapterAct) : (d.act a).1.remoteAddr = d.remoteAddr := by
  cases a with
  | signal seOpen seClose seRead error reads =>
      show (d.slotDtlsEvent seOpen seClose seRead error reads).remoteAddr = d.remoteAddr
      unfold slotDtlsEvent
      cases seOpen <;> cases seClose <;> cases seRead <;>
        simp only [Bool.false_eq_true, if_true, if_false, readLoop_remoteAddr]
  | _ => rfl

theorem runActs_remoteAddr (d : RtcDtls) (acts : List AdapterAct) :
    (d.runActs acts).1.remoteAddr = d.remoteAddr := by
  induction acts generalizing d with
  | nil => rfl
  | cons a acts ih => exact (ih (d.act a).1).trans (d.act_remoteAddr a)

theorem doHandleDtlsPacket_remoteAddr (d : RtcDtls) (data : Bytes) (acts : List AdapterAct) :
    (d.doHandleDtlsPacket data acts).2.1.remoteAddr = d.remoteAddr := by
  unfold doHandleDtlsPacket onPacketReceive
  split
  · split
    · rfl
    · exact runActs_remoteAddr _ acts
  · rfl

theorem handleDtls_remoteAddr (d : RtcDtls) (data : Bytes) (adapter : Adapter) :
    (d.handleDtls data adapter).1.remoteAddr = d.remoteAddr := by
  have hpacket : ∀ d₁ : RtcDtls, d₁.remoteAddr = d.remoteAddr →
      (d₁.doHandleDtlsPacket data adapter.acts).2.1.remoteAddr = d.remoteAddr :=
    fun d₁ h => (d₁.doHandleDtlsPacket_remoteAddr data adapter.acts).trans h
  have hrun := d.runActs_remoteAddr adapter.startActs
  unfold handleDtls
  dsimp only
  generalize hfirst : (if d.state = .new then _ else _ : RtcDtls × List Bytes) = first
  have h₁ : first.1.remoteAddr = d.remoteAddr := by
    rw [← hfirst]
    split
    · dsimp only
      split <;> exact hrun
    · rfl
  split
  · split
    · dsimp only
      split <;> exact hpacket _ h₁
    · exact h₁
  · exact hpacket _ h₁
  · exact h₁

end RtcDtls

namespace RoomMember

variable {env : Env} {m : RoomMember} {udp : UdpId} {addr : IpAddress}
  {up up' : MemberUdpPorts} {data : Bytes} {sent : List MemberEffect}

/-- The DTLS connection, if there is one, is with the address. -/
def Addressed (up : MemberUdpPorts) (addr : IpAddress) : Prop :=
  ∀ dtls, up.dtlsConnection = some dtls → dtls.remoteAddr = addr

theorem openDtls_addressed (hold : Addressed up addr)
    (h : m.openDtls env udp addr up = .ok up') : Addressed up' addr := by
  unfold openDtls at h
  split at h
  · cases h
    exact hold
  · obtain ⟨content, -, h⟩ := bind_ok h
    split at h
    · split at h
      · cases h
        exact hold
      · cases h
        split
        · rintro dtls heq
          cases heq
          unfold RtcDtls.setRemoteDtls
          split <;> rfl
        · exact hold
    · cases h

theorem onDtls_addressed {adapter : Adapter} (hold : Addressed up addr)
    (h : m.onDtls env udp addr up data adapter = .ok (up', sent)) :
    Addressed up' addr ∧ ∀ e ∈ sent, ∃ record, e = .dtlsRecord addr record := by
  unfold onDtls at h
  obtain ⟨up₁, hopen, h⟩ := bind_ok h
  have h₁ := openDtls_addressed hold hopen
  split at h
  · cases h
    exact ⟨h₁, nofun⟩
  · next dtls hd =>
      have haddr := (dtls.handleDtls_remoteAddr data adapter).trans (h₁ dtls hd)
      generalize dtls.handleDtls data adapter = q at h haddr
      cases h
      refine ⟨?_, ?_⟩
      · rintro dtls' heq
        cases heq
        exact haddr
      · intro e he
        obtain ⟨record, -, rfl⟩ := List.mem_map.mp he
        exact ⟨record, by rw [haddr]⟩

theorem onAdapter_addressed (hold : ∀ a, Addressed (m.ports a) a) (addr a : IpAddress)
    (acts : List AdapterAct) : Addressed ((m.onAdapter addr acts).1.ports a) a := by
  unfold onAdapter
  split
  · exact hold a
  · next dtls hd =>
      dsimp only
      rw [ports_insert]
      split
      · next heq =>
          subst heq
          rintro dtls' heq
          cases heq
          exact (dtls.runActs_remoteAddr acts).trans (hold a dtls hd)
      · exact hold a

/-- Where a timer of the adapter makes records go, there is a DTLS connection. -/
theorem onAdapter_sent (hold : ∀ a, Addressed (m.ports a) a) {acts : List AdapterAct}
    {e : MemberEffect} (he : e ∈ (m.onAdapter addr acts).2) :
    (m.ports addr).dtlsConnection ≠ none ∧ ∃ record, e = .dtlsRecord addr record := by
  unfold onAdapter at he
  split at he
  · cases he
  · next dtls hd =>
      obtain ⟨record, -, rfl⟩ := List.mem_map.mp he
      refine ⟨by rw [hd]; exact nofun, record, ?_⟩
      rw [dtls.runActs_remoteAddr acts, hold addr dtls hd]

/-- A timer makes no DTLS connection. -/
theorem onAdapter_dtls {a : IpAddress} {acts : List AdapterAct}
    (h : ((m.onAdapter addr acts).1.ports a).dtlsConnection ≠ none) :
    (m.ports a).dtlsConnection ≠ none := by
  unfold onAdapter at h
  split at h
  · exact h
  · next dtls hd =>
      dsimp only at h
      rw [ports_insert] at h
      split at h
      · next heq =>
          subst heq
          rw [hd]
          exact nofun
      · exact h

/-- A binding response goes to where the datagram came from. -/
theorem onStun_sent (h : m.onStun env addr up data = .ok (up', sent))
    (hold : ∀ ice, up.iceConnection = some ice → ice.remoteAddr = addr) :
    ∀ e ∈ sent, ∃ reply, e = .bindingResponse addr reply := by
  unfold onStun at h
  split at h
  · next ice hice =>
      obtain ⟨reply, -, h⟩ := bind_ok h
      cases h
      intro e he
      obtain ⟨bytes, -, rfl⟩ := List.mem_map.mp he
      exact ⟨bytes, by rw [hold ice hice]⟩
  · obtain ⟨first, -, h⟩ := bind_ok h
    split at h
    · cases h
      intro e he
      exact ⟨_, List.mem_singleton.mp he⟩
    · cases h
      exact nofun

end RoomMember

namespace Server

variable {env : Env} {cfg : Config} {s s' : Server} {l : Event × List Effect}
  {tr : List (Server × (Event × List Effect))}

/-- A DTLS record has come from the address, for that member. -/
def Greeted (tr : List (Server × (Event × List Effect))) (r : ℤ) (u : Str) (a : IpAddress) :
    Prop :=
  ∃ p ∈ tr, ∃ data o, p.2.1 = .datagram r u a data o ∧ RtcDtls.isDtls data = true

theorem Greeted.mono {tr' : List (Server × (Event × List Effect))} {r : ℤ} {u : Str}
    {a : IpAddress} (h : Greeted tr' r u a) (hsub : tr' ⊆ tr) : Greeted tr r u a := by
  obtain ⟨p, hp, h⟩ := h
  exact ⟨p, hsub hp, h⟩

/-- **Every DTLS connection** of the member is with the address it is stored under, and
was made when a record came from there. -/
structure KnowsOf (tr : List (Server × (Event × List Effect))) (r : ℤ) (u : Str)
    (m : RoomMember) : Prop where
  addressed (a : IpAddress) : RoomMember.Addressed (m.ports a) a
  greeted (a : IpAddress) (hd : (m.ports a).dtlsConnection ≠ none) : Greeted tr r u a

def Acquainted (tr : List (Server × (Event × List Effect))) (s : Server) : Prop :=
  ∀ r u m, s.member r u = some m → KnowsOf tr r u m

theorem KnowsOf.mono {tr' : List (Server × (Event × List Effect))} {r : ℤ} {u : Str}
    {m : RoomMember} (h : KnowsOf tr' r u m) (hsub : tr' ⊆ tr) : KnowsOf tr r u m :=
  ⟨h.addressed, fun a hd => (h.greeted a hd).mono hsub⟩

/-- A datagram makes a DTLS connection only if it is a record. -/
theorem KnowsOf.received {r : ℤ} {u : Str} {m m' : RoomMember} {udp : UdpId}
    {addr : IpAddress} {data : Bytes} {o : Oracle} {media media' : Media}
    {sent : List MemberEffect} {effects : List Effect} (h : KnowsOf tr r u m)
    (hrecv : m.onUdpReceive env media udp addr data o = .ok (media', m', sent)) :
    KnowsOf ((s, (.datagram r u addr data o, effects)) :: tr) r u m' := by
  obtain ⟨up, rfl, hreceived⟩ := RoomMember.onUdpReceive_outcome hrecv
  suffices hup : RoomMember.Addressed up addr ∧ (up.dtlsConnection ≠ none →
      Greeted ((s, (.datagram r u addr data o, effects)) :: tr) r u addr) by
    constructor
    · intro a
      rw [RoomMember.ports_insert]
      split
      · next heq => exact heq ▸ hup.1
      · exact h.addressed a
    · intro a hd
      rw [RoomMember.ports_insert] at hd
      split at hd
      · next heq => exact heq ▸ hup.2 hd
      · exact (h.greeted a hd).mono (List.subset_cons_self ..)
  have hsame : up.dtlsConnection = (m.ports addr).dtlsConnection →
      RoomMember.Addressed up addr ∧ (up.dtlsConnection ≠ none →
        Greeted ((s, (.datagram r u addr data o, effects)) :: tr) r u addr) := by
    intro heq
    refine ⟨?_, fun hd => (h.greeted addr (heq ▸ hd)).mono (List.subset_cons_self ..)⟩
    intro dtls hd
    exact h.addressed addr dtls (heq ▸ hd)
  cases hreceived with
  | stun _ hs => exact hsame (RoomMember.onStun_frame hs).1
  | unknown => exact hsame rfl
  | rtp _ _ hrtp => exact hsame (by cases hrtp <;> rfl)
  | dtls _ _ hk hd =>
      refine ⟨(RoomMember.onDtls_addressed (h.addressed addr) hd).1, fun _ => ?_⟩
      exact ⟨_, List.mem_cons_self .., data, o, rfl, hk⟩

theorem Acquainted.step (h : Acquainted tr s) (hr : Lts.Reachable (system env cfg) s)
    (hstep : (system env cfg).step s l s') : Acquainted ((s, l) :: tr) s' := by
  obtain ⟨e, effects⟩ := l
  have hold : ∀ {r u m}, s.member r u = some m → KnowsOf ((s, (e, effects)) :: tr) r u m :=
    fun hmem => (h _ _ _ hmem).mono (List.subset_cons_self ..)
  -- one member changes, the others know whom they knew
  have hset : ∀ {r u m}, SetsMember s s' r u (some m) →
      KnowsOf ((s, (e, effects)) :: tr) r u m → Acquainted ((s, (e, effects)) :: tr) s' := by
    intro r u m hm hknows r' u' m' hmem
    rw [hm] at hmem
    split at hmem
    · next heq =>
        obtain ⟨rfl, rfl⟩ := heq
        cases hmem
        exact hknows
    · exact hold hmem
  cases step_outcome (reachable_wellFormed hr) hstep with
  | quiet _ hm | unlisted _ _ hm =>
      intro r u m hmem
      rw [hm.member] at hmem
      exact hold hmem
  | unknown => exact fun r u m hmem => hold hmem
  | joined _ _ _ hm => exact hset hm ⟨fun a => nofun, fun a hd => absurd rfl hd⟩
  | offered _ hmem hm => exact hset hm ⟨(hold hmem).addressed, (hold hmem).greeted⟩
  | served _ _ hmem _ _ hm => exact hset hm ⟨(hold hmem).addressed, (hold hmem).greeted⟩
  | parted _ _ _ hm =>
      intro r u m hmem
      rw [hm] at hmem
      split at hmem
      · cases hmem
      · exact hold hmem
  | received hmem _ hrecv hm => exact hset hm ((h _ _ _ hmem).received hrecv)
  | @acted r u addr acts _ m hmem hm =>
      refine hset hm ⟨fun a => RoomMember.onAdapter_addressed (hold hmem).addressed addr a acts, ?_⟩
      exact fun a hd => (hold hmem).greeted a (RoomMember.onAdapter_dtls hd)

theorem run_acquainted (run : Lts.Run (system env cfg) tr s) : Acquainted tr s := by
  induction run with
  | start h =>
      obtain rfl := h
      intro r u m hmem
      simp [initial, member, findRoom] at hmem
  | snoc run hstep ih => exact ih.step run.reachable hstep

/-! ## What is sent, and to whom -/

/-- The event because of which the effect is sent at all: for a binding response a
datagram that `is_stun` takes, a request or not, and for a record or a packet one that
`is_dtls` takes, from the address that it is sent to. -/
inductive Prompts : Event → Effect → Prop where
  | stun {r : ℤ} {u : Str} {addr : IpAddress} {data reply : Bytes} {o : Oracle}
      (h : StunPacket.isStun data = true) :
      Prompts (.datagram r u addr data o) (.member r u (.bindingResponse addr reply))
  | record {r : ℤ} {u : Str} {addr : IpAddress} {data record : Bytes} {o : Oracle}
      (h : RtcDtls.isDtls data = true) :
      Prompts (.datagram r u addr data o) (.member r u (.dtlsRecord addr record))
  | handshake {r r' : ℤ} {u u' : Str} {udp : UdpId} {addr : IpAddress} {data packet : Bytes}
      {o : Oracle} (h : RtcDtls.isDtls data = true) :
      Prompts (.datagram r u addr data o) (.member r' u' (.media (.send udp addr packet)))

/-- The effect is a datagram. -/
def isSent : Effect → Bool
  | .member _ _ (.bindingResponse _ _) | .member _ _ (.dtlsRecord _ _)
  | .member _ _ (.media (.send _ _ _)) => true
  | _ => false

theorem received_prompted {r : ℤ} {u : Str} {addr : IpAddress} {data : Bytes} {o : Oracle}
    {m m' : RoomMember} {udp : UdpId} {media media' : Media} {sent : List MemberEffect}
    (hk : KnowsOf tr r u m)
    (hice : ∀ ice, (m.ports addr).iceConnection = some ice → ice.remoteAddr = addr)
    (hrecv : m.onUdpReceive env media udp addr data o = .ok (media', m', sent)) {e : MemberEffect}
    (he : e ∈ sent) :
    Prompts (.datagram r u addr data o) (.member r u e) ∨ ∃ media, e = .media media := by
  obtain ⟨up, rfl, hreceived⟩ := RoomMember.onUdpReceive_outcome hrecv
  cases hreceived with
  | stun hstun h =>
      obtain ⟨reply, rfl⟩ := RoomMember.onStun_sent h hice e he
      exact Or.inl (.stun hstun)
  | dtls _ _ hdtls h =>
      obtain ⟨record, rfl⟩ := (RoomMember.onDtls_addressed (hk.addressed addr) h).2 e he
      exact Or.inl (.record hdtls)
  | unknown => cases he
  | rtp _ _ h =>
      refine Or.inr ?_
      cases h with
      | noDtls | unkeyed => cases he
      | keyed | reused =>
          obtain ⟨media, -, rfl⟩ := List.mem_map.mp he
          exact ⟨media, rfl⟩

/-- **Nobody is sent anything unasked**: for every datagram that the server sends, one
that it takes for STUN or for DTLS has come from the address it goes to. -/
theorem sent_prompted (run : Lts.Run (system env cfg) tr s)
    (hstep : (system env cfg).step s l s') {e : Effect} (he : e ∈ l.2) (hsent : isSent e = true) :
    ∃ p ∈ (s, l) :: tr, Prompts p.2.1 e := by
  have hmedia : ∀ {r u udp addr packet}, e = .member r u (.media (.send udp addr packet)) →
      ∃ p ∈ (s, l) :: tr, Prompts p.2.1 e := by
    rintro r u udp addr packet rfl
    obtain ⟨p, hp, k, ⟨r', u', m, dtls, hmem, -, hd, -⟩, -⟩ := sentUnder_of_mem run hstep he
    obtain ⟨tr', run', hsub⟩ := (run.snoc hstep).before hp
    have hne : (m.ports addr).dtlsConnection ≠ none := by
      rw [hd]
      exact nofun
    obtain ⟨q, hq, data, o, hq₁, hdtls⟩ := ((run_acquainted run') r' u' m hmem).greeted addr hne
    refine ⟨q, hsub hq, ?_⟩
    rw [hq₁]
    exact .handshake hdtls
  obtain ⟨event, effects⟩ := l
  cases step_outcome (reachable_wellFormed run.reachable) hstep with
  | quiet | offered | unknown | unlisted => cases he
  | joined | served =>
      simp only [List.mem_cons, List.not_mem_nil, or_false] at he
      rcases he with rfl | rfl <;> cases hsent
  | @parted c _ r u m =>
      dsimp only [stopEffects] at he
      split at he
      · cases he
      · simp only [List.mem_cons, List.not_mem_nil, or_false] at he
        rcases he with rfl | rfl <;> cases hsent
  | @received r u addr data o _ m m' rcv sent hmem hrcv hrecv hm =>
      obtain ⟨e', he', rfl⟩ := List.mem_map.mp he
      have hice := (reachable_wellFormed run.reachable).addressed r u m addr
      rcases received_prompted (run_acquainted run r u m hmem) (fun ice => hice ice hmem) hrecv he'
        with h | ⟨media, rfl⟩
      · exact ⟨_, List.mem_cons_self .., h⟩
      · cases media with
        | send udp a packet => exact hmedia rfl
        | _ => cases hsent
  | @acted r u addr acts _ m hmem hm =>
      obtain ⟨e', he', rfl⟩ := List.mem_map.mp he
      have hk := run_acquainted run r u m hmem
      obtain ⟨hd, record, rfl⟩ := RoomMember.onAdapter_sent hk.addressed he'
      obtain ⟨p, hp, data, o, hp₁, hdtls⟩ := hk.greeted addr hd
      refine ⟨p, List.mem_cons_of_mem _ hp, ?_⟩
      rw [hp₁]
      exact .record hdtls

theorem sent_prompted_pulled : ∃ tr s s' effects,
    Lts.Run (system Sample.env Sample.cfg) tr s ∧
      (system Sample.env Sample.cfg).step s (Sample.rtp 1 Sample.alice ⟨1, 1⟩, effects) s' ∧
      ∃ p ∈ (s, (Sample.rtp 1 Sample.alice ⟨1, 1⟩, effects)) :: tr,
        Prompts p.2.1 (.member 1 Sample.alice (.media (.send 1 ⟨2, 2⟩ [2]))) := by
  obtain ⟨tr, s, s', effects, run, hstep, heffects⟩ := exists_sent_pulled
  have hsend : .member 1 Sample.alice (.media (.send 1 ⟨2, 2⟩ [2])) ∈ effects := by
    apply mem_of_mediaOf
    rw [heffects]
    simp
  exact ⟨tr, s, s', effects, run, hstep, sent_prompted run hstep hsend rfl⟩

end Server

end JuanSfu
