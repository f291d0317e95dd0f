import JuanSfu.Safety.BindingResponse
import JuanSfu.Safety.IceAuth
import JuanSfu.Signaling.Answers

/-!
# The password a connection signs with

Every answer draws a password. An ICE connection copies it once, when the first
request of its address is accepted, and signs with the copy from then on; the
next request of the member replaces the answer and leaves the connections. The
two agree as long as there are none, or the new password is the old one.
-/

namespace JuanSfu

open StunPacket

/-! ## Responses that verify -/

/-- The decoder finds a MESSAGE-INTEGRITY in the response, and it is the HMAC
under the password. -/
def Verifies (env : Env) (passwd : Str) (reply : Bytes) : Prop :=
  ∃ resp, parse env reply = .ok (some resp) ∧
    (∃ len endpos hmacSha1, .integrity len endpos hmacSha1 ∈ resp.attris) ∧
    ∀ param : IceParameter, param.passwd = passwd →
      resp.validate env param reply = .ok (true, reply)

theorem StunPacket.parse_some {env : Env} {data : Bytes} {sp : StunPacket}
    (h : parse env data = .ok (some sp)) : isStun data = true ∧ sp.transId.length = 12 := by
  cases hs : isStun data with
  | false =>
      rw [parse, hs] at h
      cases h
  | true =>
      have hlen := length_of_isStun hs
      rw [parse_eq env hs] at h
      split at h
      · obtain ⟨attris, -, h⟩ := bind_ok h
        cases h
        refine ⟨rfl, ?_⟩
        simp only [substr, List.length_take, List.length_drop]
        omega
      · cases h

theorem IceConnection.sendBindingResponse_verifies {env : Env}
    (hmac : ∀ key input, (env.hmacSha1 key input).length = kStunMessageIntegritySize)
    {c : IceConnection} {sp : StunPacket} {reply : Bytes} (ht : sp.transId.length = 12)
    (h : c.sendBindingResponse env (some sp) = .ok reply) : Verifies env c.icePwd reply := by
  have hm := hmac c.icePwd (signedPart sp.transId c.remoteAddr)
  rw [sendBindingResponse, serializeBindResponse_eq env ht c.remoteAddr c.icePwd hm] at h
  obtain rfl := Except.ok.inj h
  refine ⟨_, parse_responseBytes ht c.remoteAddr _ hm env rfl, ?_, ?_⟩
  · exact ⟨_, _, _, List.mem_singleton_self _⟩
  · intro param hp
    exact validate_responseBytes ht c.remoteAddr _ hm env (by rw [hp]) _ _

/-! ## One member -/

namespace RoomMember

/-- Every ICE connection signs with the password of the current answer. -/
def SignsCurrent (m : RoomMember) : Prop :=
  ∀ addr ice, (m.ports addr).iceConnection = some ice →
    ∃ param, m.iceParameter = some param ∧ ice.icePwd = param.passwd

/-- Besides, an answer with ICE parameters was made with a certificate. -/
structure KeepsCurrent (env : Env) (m : RoomMember) : Prop where
  signs : m.SignsCurrent
  certified : m.iceParameter.isSome → env.certificateFingerprint.isSome

variable {env : Env} {media media' : Media} {m m' : RoomMember} {udp : UdpId}
  {addr : IpAddress} {up up' : MemberUdpPorts} {data : Bytes} {o : Oracle}
  {sent : List MemberEffect}

/-- A new connection takes the password of the current answer. -/
theorem onFirstStun_icePwd {ice : IceConnection} {reply : Bytes} {sp : Option StunPacket}
    (hp : parse env data = .ok sp)
    (h : m.onFirstStun env addr data = .ok (some (ice, reply))) :
    ∃ param, m.iceParameter = some param ∧ ice.icePwd = param.passwd ∧
      ice.sendBindingResponse env sp = .ok reply := by
  unfold onFirstStun at h
  obtain ⟨sp', hp', h⟩ := bind_ok h
  obtain rfl := Except.ok.inj (hp.symm.trans hp')
  split at h
  · next answer hans =>
      obtain ⟨flag, -, h⟩ := bind_ok h
      split at h
      · obtain ⟨content, hcontent, h⟩ := bind_ok h
        obtain ⟨bytes, hbytes, h⟩ := bind_ok h
        cases h
        refine ⟨content.ice, ?_, rfl, hbytes⟩
        rw [iceParameter, hans, Option.bind_some]
        cases hc : answer.mediaContents with
        | nil => rw [hc] at hcontent; cases hcontent
        | cons first rest => rw [hc] at hcontent; cases hcontent; rfl
      · cases h
  · cases h

theorem onStun_icePwd (h : m.onStun env addr up data = .ok (up', sent))
    {ice : IceConnection} (hi : up'.iceConnection = some ice) :
    up.iceConnection = some ice ∨
      ∃ param, m.iceParameter = some param ∧ ice.icePwd = param.passwd := by
  unfold onStun at h
  split at h
  · obtain ⟨reply, -, h⟩ := bind_ok h
    cases h
    exact Or.inl hi
  · obtain ⟨first, hfirst, h⟩ := bind_ok h
    split at h
    · cases h
      cases hi
      obtain ⟨sp, -, -, hp, -⟩ := onFirstStun_some hfirst
      obtain ⟨param, hparam, hpwd, -⟩ := onFirstStun_icePwd hp hfirst
      exact Or.inr ⟨param, hparam, hpwd⟩
    · cases h
      exact Or.inl hi

theorem Received.icePwd (h : Received env media m udp addr data o media' up sent)
    {ice : IceConnection} (hi : up.iceConnection = some ice) :
    (m.ports addr).iceConnection = some ice ∨
      ∃ param, m.iceParameter = some param ∧ ice.icePwd = param.passwd := by
  cases h with
  | stun _ h => exact onStun_icePwd h hi
  | rtp _ _ h => exact Or.inl (by rwa [h.iceConnection] at hi)
  | dtls _ _ _ h => exact Or.inl (by rwa [(onDtls_frame h).1] at hi)
  | unknown => exact Or.inl hi

theorem KeepsCurrent.onUdpReceive (hk : m.KeepsCurrent env)
    (h : m.onUdpReceive env media udp addr data o = .ok (media', m', sent)) :
    m'.KeepsCurrent env := by
  obtain ⟨up, rfl, hr⟩ := onUdpReceive_outcome h
  refine ⟨?_, hk.certified⟩
  intro a ice hi
  rw [ports_insert] at hi
  split at hi
  · rcases hr.icePwd hi with hold | hnew
    · exact hk.signs addr ice hold
    · exact hnew
  · exact hk.signs a ice hi

theorem KeepsCurrent.onAdapter (hk : m.KeepsCurrent env) (addr : IpAddress)
    (acts : List AdapterAct) : (m.onAdapter addr acts).1.KeepsCurrent env := by
  have hparam : (m.onAdapter addr acts).1.iceParameter = m.iceParameter := by
    rw [iceParameter, m.onAdapter_frame addr acts]
    rfl
  refine ⟨?_, by rw [hparam]; exact hk.certified⟩
  intro a ice hi
  rw [(m.onAdapter_ports addr a acts).1] at hi
  rw [hparam]
  exact hk.signs a ice hi

/-- **A request that passes is answered under the current password.** -/
theorem SignsCurrent.onStun (hs : m.SignsCurrent)
    (haddr : ∀ ice, (m.ports addr).iceConnection = some ice → ice.remoteAddr = addr)
    (hbuf : ∀ data, env.readAfterReset data = data)
    (hmac : ∀ key input, (env.hmacSha1 key input).length = kStunMessageIntegritySize)
    {sp : StunPacket} {param : IceParameter} {data' : Bytes}
    (hp : parse env data = .ok (some sp)) (hparam : m.iceParameter = some param)
    (hv : sp.validate env param data = .ok (true, data'))
    (h : m.onStun env addr (m.ports addr) data = .ok (up', sent)) :
    ∃ reply, .bindingResponse addr reply ∈ sent ∧ Verifies env param.passwd reply := by
  obtain ⟨hstun, ht⟩ := parse_some hp
  unfold RoomMember.onStun at h
  split at h
  · next ice hi =>
      obtain ⟨reply, hreply, h⟩ := bind_ok h
      cases h
      rw [IceConnection.onUdpData, hstun, hp] at hreply
      obtain ⟨sp', hsp, hreply⟩ := bind_ok hreply
      cases hsp
      obtain ⟨bytes, hbytes, hreply⟩ := bind_ok hreply
      cases hreply
      obtain ⟨param', hparam', hpwd⟩ := hs addr ice hi
      obtain rfl := Option.some.inj (hparam.symm.trans hparam')
      refine ⟨bytes, by simp [haddr ice hi], ?_⟩
      rw [← hpwd]
      exact IceConnection.sendBindingResponse_verifies hmac ht hbytes
  · obtain ⟨first, hfirst, h⟩ := bind_ok h
    split at h
    · next ice reply =>
        cases h
        obtain ⟨param', hparam', hpwd, hreply⟩ := onFirstStun_icePwd hp hfirst
        obtain rfl := Option.some.inj (hparam.symm.trans hparam')
        refine ⟨reply, List.mem_singleton_self _, ?_⟩
        rw [← hpwd]
        exact IceConnection.sendBindingResponse_verifies hmac ht hreply
    · rw [← hbuf data] at hv
      exact absurd hv (onFirstStun_none hfirst hp hparam)

/-! ### The answer to a request -/

theorem iceParameter_served (m : RoomMember) (offerSdp answerSdp : SessionDescription)
    (port : UInt32) (udp : UdpId) :
    (Server.servedMember m offerSdp answerSdp port udp).iceParameter =
      answerSdp.mediaContents.head?.map (·.ice) := rfl

end RoomMember

namespace Server

variable {env : Env} {cfg : Config} {s s' : Server} {r : ℤ} {u : Str} {m : RoomMember}

/-- An answer made with a certificate has the parameters that were drawn. -/
theorem answerOf_ice (env : Env) (s : Server) (r : ℤ) (u : Str) (offerSdp : SessionDescription)
    (pull : Option Str) (port : UInt32) (rnd : IceCredentials) :
    ((s.answerOf env r u offerSdp pull port rnd).mediaContents.head?.map (·.ice)) =
      env.certificateFingerprint.map fun _ =>
        { ufrag := rnd.ufrag, mode := str "ice-lite", passwd := rnd.passwd } := by
  unfold answerOf
  cases h : env.certificateFingerprint with
  | none =>
      rw [answerSdp_none h]
      rfl
  | some fp =>
      rw [answerSdp_some h]
      rfl

/-- The connections of `m` sign with the password that is drawn. -/
def SignsDrawn (m : RoomMember) (rnd : IceCredentials) : Prop :=
  ∀ addr ice, (m.ports addr).iceConnection = some ice → ice.icePwd = rnd.passwd

/-- **A new answer keeps the connections current if and only if it draws their
password.** -/
theorem signsCurrent_served_iff (hk : m.KeepsCurrent env) (r : ℤ) (u : Str)
    (offerSdp : SessionDescription) (pull : Option Str) (port : UInt32) (udp : UdpId)
    (rnd : IceCredentials) :
    (servedMember m offerSdp (s.answerOf env r u offerSdp pull port rnd) port udp).SignsCurrent ↔
      SignsDrawn m rnd := by
  have hparam : (servedMember m offerSdp (s.answerOf env r u offerSdp pull port rnd) port
      udp).iceParameter = env.certificateFingerprint.map fun _ =>
        { ufrag := rnd.ufrag, mode := str "ice-lite", passwd := rnd.passwd } := by
    rw [RoomMember.iceParameter_served, answerOf_ice]
  unfold RoomMember.SignsCurrent
  rw [hparam]
  constructor
  · intro hs addr ice hi
    obtain ⟨param, hp, hpwd⟩ := hs addr ice hi
    obtain ⟨fp, -, rfl⟩ := Option.map_eq_some_iff.mp hp
    exact hpwd
  · intro hd addr ice hi
    obtain ⟨param, hold, -⟩ := hk.signs addr ice hi
    have hcert := hk.certified (by rw [hold]; rfl)
    obtain ⟨fp, hfp⟩ := Option.isSome_iff_exists.mp hcert
    exact ⟨_, by rw [hfp]; rfl, hd addr ice hi⟩

/-! ## All members -/

/-- Every stored connection of every member signs with the current password. -/
def SignsCurrent (s : Server) : Prop := ∀ r u m, s.member r u = some m → m.SignsCurrent

/-- When a publish or pull is answered, its member has no connection yet, or the
password that is drawn is the one its connections sign with. -/
def DrawsSame (s : Server) (l : Event × List Effect) : Prop :=
  match l.1 with
  | .message _ msg rnd =>
      ∀ r u m, s.Admitted msg r u → s.member r u = some m → SignsDrawn m rnd
  | _ => True

structure KeepsCurrent (env : Env) (s : Server) : Prop where
  wellFormed : s.WellFormed
  keeps (r : ℤ) (u : Str) (m : RoomMember) (h : s.member r u = some m) : m.KeepsCurrent env

/-- The member that an answered request leaves behind. -/
theorem handle_served {c : ConnId} {msg : Json} {rnd : MessageOracle} {effects : List Effect}
    (hadm : s.Admitted msg r u) (h : s.handle env msg c rnd = .ok (s', effects)) :
    ∃ m offerSdp pull port, s.member r u = some m ∧ SetsMember s s' r u (some (servedMember m
      offerSdp (s.answerOf env r u offerSdp pull port rnd) port s.nextUdp)) := by
  obtain ⟨sroomid, m, lines, pull, hreq, hpublish⟩ := hadm.requests
  cases handle_outcome_of_requests hreq h with
  | rejected hparse =>
      obtain ⟨offerSdp, hparse'⟩ := hpublish rfl
      rw [hparse] at hparse'
      cases hparse'
  | @answered flag offerSdp pull port portMgr =>
      exact ⟨m, offerSdp, pull, port, hreq.finds.member,
        s.setsMember_served r u m _ offerSdp pull⟩

theorem forall_member_of_setsMember {P : RoomMember → Prop} {m' : Option RoomMember}
    (hall : ∀ r u m, s.member r u = some m → P m) (hm : SetsMember s s' r u m')
    (hnew : ∀ m, m' = some m → P m) : ∀ r u m, s'.member r u = some m → P m := by
  intro r₁ u₁ m₁ h
  rw [hm] at h
  split at h
  · exact hnew m₁ h
  · exact hall r₁ u₁ m₁ h

/-- What every step does to the members that keep their passwords. -/
theorem KeepsCurrent.step {l : Event × List Effect} (hk : KeepsCurrent env s)
    (hstep : (system env cfg).step s l s') : KeepsCurrent env s' ∨
      ∃ c msg rnd r u m offerSdp pull port, l.1 = .message c msg rnd ∧ s.Admitted msg r u ∧
        s.member r u = some m ∧ SetsMember s s' r u (some (servedMember m offerSdp
          (s.answerOf env r u offerSdp pull port rnd) port s.nextUdp)) := by
  have hout := step_outcome hk.wellFormed hstep
  have hw := hout.wellFormed hk.wellFormed
  have hset : ∀ {r u m'}, SetsMember s s' r u (some m') → m'.KeepsCurrent env →
      KeepsCurrent env s' := fun hm hnew =>
    ⟨hw, forall_member_of_setsMember hk.keeps hm fun m h => Option.some.inj h ▸ hnew⟩
  obtain ⟨e, effects⟩ := l
  dsimp only at hout
  cases hout with
  | unknown => exact Or.inl hk
  | quiet _ hm | unlisted _ _ hm =>
      refine Or.inl ⟨hw, ?_⟩
      intro r u m h
      rw [hm.member] at h
      exact hk.keeps r u m h
  | @joined c msg rnd _ r u _ _ _ _ hm =>
      refine Or.inl (hset hm ?_)
      exact ⟨fun addr ice hi => by simp [RoomMember.ports] at hi,
        fun hsome => by simp [RoomMember.iceParameter] at hsome⟩
  | offered _ hmem hm =>
      refine Or.inl (hset hm ?_)
      exact ⟨(hk.keeps _ _ _ hmem).signs, (hk.keeps _ _ _ hmem).certified⟩
  | @served c msg rnd _ r u _ _ _ _ _ _ hadm _ hmem =>
      obtain ⟨m, offerSdp, pull, port, hmem, hm⟩ := handle_served hadm hstep.2
      exact Or.inr ⟨c, msg, rnd, r, u, m, offerSdp, pull, port, rfl, hadm, hmem, hm⟩
  | parted _ _ _ hm =>
      exact Or.inl ⟨hw, forall_member_of_setsMember hk.keeps hm fun m h => by cases h⟩
  | received hmem _ hrecv hm =>
      exact Or.inl (hset hm ((hk.keeps _ _ _ hmem).onUdpReceive hrecv))
  | acted hmem hm => exact Or.inl (hset hm ((hk.keeps _ _ _ hmem).onAdapter _ _))

/-- What the next answer is drawn with decides whether the law goes on to hold. -/
theorem KeepsCurrent.step_drawsSame {l : Event × List Effect} (hk : KeepsCurrent env s)
    (hd : s.DrawsSame l) (hstep : (system env cfg).step s l s') : KeepsCurrent env s' := by
  rcases hk.step hstep with hk' | ⟨c, msg, rnd, r, u, m, offerSdp, pull, port, hl, hadm, hmem, hm⟩
  · exact hk'
  · rw [DrawsSame, hl] at hd
    have hkm := hk.keeps r u m hmem
    have hserved : (servedMember m offerSdp (s.answerOf env r u offerSdp pull port rnd) port
        s.nextUdp).KeepsCurrent env := by
      refine ⟨(signsCurrent_served_iff hkm r u offerSdp pull port s.nextUdp rnd).mpr
        (hd r u m hadm hmem), ?_⟩
      rw [RoomMember.iceParameter_served, answerOf_ice, Option.isSome_map]
      exact id
    refine ⟨(step_outcome hk.wellFormed hstep).wellFormed hk.wellFormed, ?_⟩
    exact forall_member_of_setsMember hk.keeps hm fun m h => Option.some.inj h ▸ hserved

theorem KeepsCurrent.drawsSame {l : Event × List Effect} (hk : KeepsCurrent env s)
    (hstep : (system env cfg).step s l s') (hs : s'.SignsCurrent) : s.DrawsSame l := by
  obtain ⟨e, effects⟩ := l
  cases e with
  | message c msg rnd =>
      intro r u m hadm hmem
      obtain ⟨m₁, offerSdp, pull, port, hmem₁, hm⟩ := handle_served hadm hstep.2
      obtain rfl := Option.some.inj (hmem.symm.trans hmem₁)
      have hserved := hs r u _ (by rw [hm, if_pos ⟨rfl, rfl⟩])
      exact (signsCurrent_served_iff (hk.keeps r u m hmem) r u offerSdp pull port _ rnd).mp hserved
  | _ => trivial

/-- At a receiving member, a STUN packet that `validate` passes against the
current answer is answered, and the response verifies under its password. -/
def AnswersVerify (env : Env) (s : Server) (l : Event × List Effect) : Prop :=
  ∀ r u addr data o m sp param data', l.1 = .datagram r u addr data o →
    s.member r u = some m → m.udpReceiver.isSome → parse env data = .ok (some sp) →
    m.iceParameter = some param → sp.validate env param data = .ok (true, data') →
      ∃ reply, .member r u (.bindingResponse addr reply) ∈ l.2 ∧ Verifies env param.passwd reply

theorem KeepsCurrent.answersVerify {l : Event × List Effect} (hk : KeepsCurrent env s)
    (hbuf : ∀ data, env.readAfterReset data = data)
    (hmac : ∀ key input, (env.hmacSha1 key input).length = kStunMessageIntegritySize)
    (hstep : (system env cfg).step s l s') : AnswersVerify env s l := by
  intro r u addr data o m sp param data' hl hmem hrcv hp hparam hv
  obtain ⟨rcv, hrcv⟩ := Option.isSome_iff_exists.mp hrcv
  obtain ⟨e, effects⟩ := l
  subst hl
  obtain ⟨m', sent, hrecv, rfl, -⟩ := receive_ok hmem hrcv hstep.2
  obtain ⟨hstun, -⟩ := parse_some hp
  generalize s'.media = media at hrecv
  obtain ⟨up, -, hout⟩ := RoomMember.onUdpReceive_outcome hrecv
  have hon : m.onStun env addr (m.ports addr) data = .ok (up, sent) := by
    cases hout with
    | stun _ h => exact h
    | rtp hno => rw [hstun] at hno; cases hno
    | dtls hno => rw [hstun] at hno; cases hno
    | unknown hno => rw [hstun] at hno; cases hno
  obtain ⟨reply, hin, hver⟩ := (hk.keeps r u m hmem).signs.onStun
    (fun ice hi => hk.wellFormed.addressed r u m addr ice hmem hi) hbuf hmac hp hparam hv hon
  exact ⟨reply, List.mem_map_of_mem hin, hver⟩

/-! ## Runs -/

theorem keepsCurrent_initial (env : Env) (cfg : Config) : KeepsCurrent env (initial cfg) := by
  have hstart : Lts.Reachable (system env cfg) (initial cfg) := .start rfl
  refine ⟨reachable_wellFormed hstart, ?_⟩
  intro r u m h
  simp [initial, member, findRoom] at h

/-- **When the connections sign with the current password**: over any run every
state has current passwords only, if and only if every answered request of the
run draws the password its member's connections have; and in such a run what
passes against the current answer is answered under its password. -/
theorem signsCurrent_iff {tr : List (Server × (Event × List Effect))}
    (run : Lts.Run (system env cfg) tr s) :
    (Lts.Visits SignsCurrent tr s ↔ Lts.Guarded DrawsSame tr) ∧
      ((∀ data, env.readAfterReset data = data) →
        (∀ key input, (env.hmacSha1 key input).length = kStunMessageIntegritySize) →
        Lts.Guarded DrawsSame tr → Lts.Guarded (AnswersVerify env) tr) := by
  have h0 : ∀ s, (system env cfg).init s → KeepsCurrent env s := by
    rintro s rfl
    exact keepsCurrent_initial env cfg
  constructor
  · refine run.visits_iff_guarded h0 (fun s hk r u m h => (hk.keeps r u m h).signs) ?_ ?_
    · exact fun s l s' hk hd hstep => hk.step_drawsSame hd hstep
    · exact fun s l s' hk hstep hs => hk.drawsSame hstep hs
  · intro hbuf hmac
    refine run.guarded_of h0 ?_ ?_
    · exact fun s l s' hk hd hstep => hk.step_drawsSame hd hstep
    · exact fun s l s' hk _ hstep => hk.answersVerify hbuf hmac hstep

end Server

namespace Server

open Sample

/-- A first request is accepted, and the next publish draws the same password. -/
theorem signsCurrent_iff_published :
    ∃ tr s m ice, Lts.Run (system Sample.env cfg) tr s ∧ s.member 1 alice = some m ∧
      (m.ports ⟨1, 2⟩).iceConnection = some ice ∧
      (Lts.Visits SignsCurrent tr s ↔ Lts.Guarded DrawsSame tr) ∧
      (Lts.Guarded DrawsSame tr → Lts.Guarded (AnswersVerify Sample.env) tr) := by
  obtain ⟨s, ⟨tr, run⟩, hv⟩ := exists_reachable_of_runEvents Sample.env cfg
    (published ++ [.datagram 1 alice ⟨1, 2⟩ bareRequest {}, publish 1 (str "1") alice])
    (fun s => ((s.member 1 alice).bind fun m => (m.ports ⟨1, 2⟩).iceConnection).isSome) true
    (by decide +kernel)
  obtain ⟨ice, hv⟩ := Option.isSome_iff_exists.mp hv
  obtain ⟨m, hmem, hi⟩ := Option.bind_eq_some_iff.mp hv
  have hiff := signsCurrent_iff run
  exact ⟨tr, s, m, ice, run, hmem, hi, hiff.1, hiff.2 (fun _ => rfl) fun _ _ => rfl⟩

/-- A member publishes, its first request is accepted, and it publishes again. -/
def publishedAgain : List Event :=
  published ++ [.datagram 1 alice ⟨1, 2⟩ bareRequest {},
    .message 1 (requestOf (str "publish") (str "1") alice [(str "sdp", .string sdp)])
      { rnd with passwd := str "second" }]

/-- The connection goes on signing with the first password. -/
theorem second_answer_not_signed :
    ∃ s, Lts.Reachable (system Sample.env cfg) s ∧ ¬ s.SignsCurrent := by
  obtain ⟨s, hs, hv⟩ := exists_reachable_of_runEvents Sample.env cfg publishedAgain
    (fun s => (s.member 1 alice).map fun m =>
      (((m.ports ⟨1, 2⟩).iceConnection.map (·.icePwd)), m.iceParameter.map (·.passwd)))
    (some (some (str "passwd"), some (str "second"))) (by decide +kernel)
  refine ⟨s, hs, ?_⟩
  intro hsigns
  obtain ⟨m, hmem, hm⟩ := Option.map_eq_some_iff.mp hv
  obtain ⟨hpwd, hparam⟩ := Prod.mk.inj hm
  obtain ⟨ice, hi, hpwd⟩ := Option.map_eq_some_iff.mp hpwd
  obtain ⟨param, hp, heq⟩ := hsigns 1 alice m hmem ⟨1, 2⟩ ice hi
  rw [hp, Option.map_some] at hparam
  rw [hpwd, Option.some.inj hparam] at heq
  exact absurd heq (by decide)

end Server

end JuanSfu
