import JuanSfu.System

/-!
# What the STUN paths check

A STUN datagram is classified by `isStun`, which is weaker than `parse`, and
from there it takes one of two paths: to the connection of its address, if
there is one, and otherwise to the check that makes one. Neither path looks at
the pointer `parse` returned before using it, and only the second one looks at
the credentials; what it asks is that no attribute contradicts them.
-/

namespace JuanSfu

open StunPacket

/-! ## The two paths -/

namespace RoomMember

/-- The ICE parameters of the member's current answer, its first section's. -/
def iceParameter (m : RoomMember) : Option IceParameter :=
  m.answerSdp.bind fun answer => answer.mediaContents.head?.map (·.ice)

/-- The cases of a STUN datagram that returns. -/
inductive StunOutcome (env : Env) (m : RoomMember) (addr : IpAddress)
    (up : MemberUdpPorts) (data : Bytes) : MemberUdpPorts → List MemberEffect → Prop where
  | established {ice : IceConnection} {sp : StunPacket} {reply : Bytes}
      (hi : up.iceConnection = some ice) (hp : parse env data = .ok (some sp)) :
      StunOutcome env m addr up data up [.bindingResponse ice.remoteAddr reply]
  | refused (hi : up.iceConnection = none)
      (hno : ∀ sp param data', parse env data = .ok (some sp) →
        m.iceParameter = some param →
        sp.validate env param (env.readAfterReset data) ≠ .ok (true, data')) :
      StunOutcome env m addr up data up []
  | created {ice : IceConnection} {sp : StunPacket} {param : IceParameter}
      {data' reply : Bytes} (hi : up.iceConnection = none)
      (hp : parse env data = .ok (some sp)) (hparam : m.iceParameter = some param)
      (hv : sp.validate env param (env.readAfterReset data) = .ok (true, data')) :
      StunOutcome env m addr up data { up with iceConnection := some ice }
        [.bindingResponse addr reply]

variable {env : Env} {m : RoomMember} {addr : IpAddress} {up up' : MemberUdpPorts}
  {data : Bytes} {sent : List MemberEffect}

/-- The verdict on a first packet is that of `validate`. -/
theorem checkFirst_eq {answer : SessionDescription} {sp : StunPacket} {flag : Bool}
    {param : IceParameter} (hans : m.answerSdp = some answer)
    (hparam : m.iceParameter = some param)
    (h : checkFirst env answer (some sp) data = .ok flag) :
    ∃ data', sp.validate env param (env.readAfterReset data) = .ok (flag, data') := by
  rw [iceParameter, hans, Option.bind_some] at hparam
  unfold checkFirst at h
  cases hc : answer.mediaContents with
  | nil =>
      rw [hc] at hparam
      cases hparam
  | cons content rest =>
      rw [hc] at h hparam
      cases hparam
      obtain ⟨⟨flag', data'⟩, hv, h⟩ := bind_ok h
      cases h
      exact ⟨data', hv⟩

theorem onFirstStun_some {ice : IceConnection} {reply : Bytes}
    (h : m.onFirstStun env addr data = .ok (some (ice, reply))) :
    ∃ sp param data', parse env data = .ok (some sp) ∧ m.iceParameter = some param ∧
      sp.validate env param (env.readAfterReset data) = .ok (true, data') := by
  unfold onFirstStun at h
  obtain ⟨sp, hp, h⟩ := bind_ok h
  split at h
  · next answer hans =>
      obtain ⟨flag, hflag, h⟩ := bind_ok h
      split at h
      · next htrue =>
          subst htrue
          obtain ⟨content, hcontent, h⟩ := bind_ok h
          obtain ⟨bytes, hbytes, h⟩ := bind_ok h
          have hparam : m.iceParameter = some content.ice := by
            rw [iceParameter, hans, Option.bind_some]
            cases hc : answer.mediaContents with
            | nil => rw [hc] at hcontent; cases hcontent
            | cons first rest => rw [hc] at hcontent; cases hcontent; rfl
          cases sp with
          | none => cases hbytes
          | some sp =>
              obtain ⟨data', hv⟩ := checkFirst_eq hans hparam hflag
              exact ⟨sp, content.ice, data', hp, hparam, hv⟩
      · cases h
  · cases h

theorem onFirstStun_none (h : m.onFirstStun env addr data = .ok none) {sp : StunPacket}
    {param : IceParameter} {data' : Bytes} (hp : parse env data = .ok (some sp))
    (hparam : m.iceParameter = some param) :
    sp.validate env param (env.readAfterReset data) ≠ .ok (true, data') := by
  intro hv
  unfold onFirstStun at h
  obtain ⟨sp', hp', h⟩ := bind_ok h
  rw [hp] at hp'
  cases hp'
  split at h
  · next answer hans =>
      obtain ⟨flag, hflag, h⟩ := bind_ok h
      obtain ⟨data₁, hv₁⟩ := checkFirst_eq hans hparam hflag
      rw [hv] at hv₁
      cases hv₁
      rw [if_pos rfl] at h
      obtain ⟨content, -, h⟩ := bind_ok h
      obtain ⟨bytes, -, h⟩ := bind_ok h
      cases h
  · cases h

theorem onStun_outcome (hs : isStun data = true)
    (h : m.onStun env addr up data = .ok (up', sent)) :
    StunOutcome env m addr up data up' sent := by
  unfold onStun at h
  split at h
  · next ice hi =>
      obtain ⟨reply, hreply, h⟩ := bind_ok h
      cases h
      unfold IceConnection.onUdpData at hreply
      rw [hs] at hreply
      obtain ⟨sp, hp, hreply⟩ := bind_ok hreply
      obtain ⟨bytes, hbytes, hreply⟩ := bind_ok hreply
      cases hreply
      cases sp with
      | none => cases hbytes
      | some sp => exact .established hi hp
  · next hi =>
      obtain ⟨first, hfirst, h⟩ := bind_ok h
      split at h
      · cases h
        obtain ⟨sp, param, data', hp, hparam, hv⟩ := onFirstStun_some hfirst
        exact .created hi hp hparam hv
      · cases h
        exact .refused hi fun sp param data' hp hparam => onFirstStun_none hfirst hp hparam

end RoomMember

/-! ## Null packets -/

theorem iceParameter_eq_some {m : RoomMember} {param : IceParameter}
    (h : m.iceParameter = some param) :
    ∃ answer content rest, m.answerSdp = some answer ∧
      answer.mediaContents = content :: rest ∧ content.ice = param := by
  obtain ⟨answer, hans, h⟩ := Option.bind_eq_some_iff.mp h
  obtain ⟨content, hhead, hice⟩ := Option.map_eq_some_iff.mp h
  obtain ⟨rest, hrest⟩ := List.head?_eq_some_iff.mp hhead
  exact ⟨answer, content, rest, hans, hrest, hice⟩

/-- Each path uses the packet, whatever `parse` returned. -/
theorem onStun_null {env : Env} {m : RoomMember} {addr : IpAddress} {up : MemberUdpPorts}
    {data : Bytes} (hs : isStun data = true) {param : IceParameter}
    (hparam : m.iceParameter = some param) :
    m.onStun env addr up data = .error .nullStunPacket ↔ accepts env data = false := by
  rw [← parse_eq_none env hs]
  obtain ⟨answer, content, rest, hans, hc, -⟩ := iceParameter_eq_some hparam
  have hnull := parse_ne_null env data (e := .nullStunPacket) rfl
  unfold RoomMember.onStun RoomMember.onFirstStun IceConnection.onUdpData
  cases hp : parse env data with
  | error e =>
      rw [hp] at hnull
      cases up.iceConnection <;>
        simpa [hs, bind, Except.bind, hp] using fun h => hnull (congrArg _ h)
  | ok sp =>
      cases sp with
      | none =>
          cases up.iceConnection <;>
            simp [hs, bind, Except.bind, hans, RoomMember.checkFirst, hc,
              IceConnection.sendBindingResponse]
      | some sp =>
          have hv := validateLoop_ne_null env content.ice (e := .nullStunPacket) rfl
            sp.attris (env.readAfterReset data)
          simp only [Except.ok.injEq, reduceCtorEq, iff_false]
          cases up.iceConnection with
          | some ice =>
              simp [hs, bind, Except.bind, IceConnection.sendBindingResponse, pure,
                Except.pure]
          | none =>
              simp only [hans, RoomMember.checkFirst, hc]
              refine bind_ne_error (bind_ne_error (ok_ne_error _ _) fun sp' hsp => ?_)
                fun first _ => ?_
              · cases hsp
                refine bind_ne_error (bind_ne_error hv fun _ _ => ok_ne_error _ _)
                  fun flag _ => ?_
                split
                · exact bind_ne_error (ok_ne_error _ _) fun _ _ =>
                    bind_ne_error (ok_ne_error _ _) fun _ _ => ok_ne_error _ _
                · exact ok_ne_error _ _
              · split <;> exact ok_ne_error _ _

/-- The other kinds of datagrams are not parsed. -/
theorem onUdpReceive_null {env : Env} {media : Media} {m : RoomMember} {udp : UdpId}
    {addr : IpAddress} {data : Bytes} {o : Oracle} :
    m.onUdpReceive env media udp addr data o = .error .nullStunPacket ↔
      isStun data = true ∧
        m.onStun env addr (m.ports addr) data = .error .nullStunPacket := by
  unfold RoomMember.onUdpReceive
  dsimp only
  cases isStun data with
  | true =>
      rw [if_pos rfl]
      cases m.onStun env addr (m.ports addr) data <;>
        simp [bind, Except.bind, pure, Except.pure]
  | false =>
      simp only [false_and, iff_false, if_false, Bool.false_eq_true]
      split
      · exact bind_ne_error (RoomMember.onRtp_ne_error (by decide))
          fun _ _ => ok_ne_error _ _
      · split
        · exact bind_ne_error (RoomMember.onDtls_ne_error rfl (by decide))
            fun _ _ => ok_ne_error _ _
        · exact ok_ne_error _ _

namespace Server

/-- **When a null packet is used**: for a member that is receiving and whose
answer has a section, exactly on the datagrams that `isStun` lets through and
`parse` does not accept, from whatever address. -/
theorem datagram_null_free_iff {env : Env} {s : Server} {r : ℤ} {u : Str}
    {m : RoomMember} (hmem : s.member r u = some m) (hrcv : m.udpReceiver.isSome)
    (hice : m.iceParameter.isSome) (addr : IpAddress) (data : Bytes) (o : Oracle) :
    s.exec env (.datagram r u addr data o) ≠ .error .nullStunPacket ↔
      (isStun data = true →
        lengthOk data = true ∧ validateFingerprint env data = true) := by
  obtain ⟨rcv, hrcv⟩ := Option.isSome_iff_exists.mp hrcv
  obtain ⟨param, hparam⟩ := Option.isSome_iff_exists.mp hice
  rw [ne_eq, exec_datagram_error hmem hrcv, onUdpReceive_null, not_and]
  refine forall_congr' fun hs => ?_
  rw [onStun_null hs hparam, accepts, Bool.and_eq_false_iff, not_or, Bool.not_eq_false,
    Bool.not_eq_false]

end Server

namespace Sample

/-- A Binding request with nothing after its header. -/
def bareRequest : Bytes := [0, 1, 0, 0, 0x21, 0x12, 0xA4, 0x42] ++ List.replicate 12 0

/-- The same, with a length field that counts four bytes more. -/
def badLength : Bytes := [0, 1, 0, 4, 0x21, 0x12, 0xA4, 0x42] ++ List.replicate 12 0

/-- A request for the user name `ufrag:a`, its MESSAGE-INTEGRITY as `env` computes it. -/
def signedRequest : Bytes :=
  [0, 1, 0, 36, 0x21, 0x12, 0xA4, 0x42] ++ List.replicate 12 0 ++
    [0, 6, 0, 7] ++ str "ufrag:a" ++ [0] ++ [0, 8, 0, 20] ++ List.replicate 20 7

/-- One member, who has published. -/
def published : List Event := [join 1 (str "1") alice, publish 1 (str "1") alice]

end Sample

namespace Server

open Sample

theorem datagram_null_free_iff_bareRequest :
    ((initial cfg).setMember 1 alice
        (servedMember { uid := alice } {} (answerSdp Sample.env {} none publishOptions
          { ip := [], port := 7000 } rnd) 7000 0)).exec Sample.env
      (.datagram 1 alice ⟨1, 2⟩ bareRequest {}) ≠ .error .nullStunPacket :=
  (datagram_null_free_iff (member_setMember _ 1 1 alice alice _) rfl rfl ⟨1, 2⟩ bareRequest
    {}).mpr fun _ => by decide

/-- A member that is receiving follows a null pointer. -/
theorem badLength_null :
    ∃ s m, Lts.Reachable (system Sample.env cfg) s ∧ s.member 1 alice = some m ∧
      m.udpReceiver.isSome ∧ m.iceParameter.isSome ∧
      s.exec Sample.env (.datagram 1 alice ⟨1, 2⟩ badLength {}) = .error .nullStunPacket := by
  obtain ⟨s, hs, hv⟩ := exists_reachable_of_runEvents Sample.env cfg published
    (fun s => ((s.member 1 alice).map fun m =>
        (m.udpReceiver.isSome, m.iceParameter.isSome),
      faultOf (s.exec Sample.env (.datagram 1 alice ⟨1, 2⟩ badLength {}))))
    (some (true, true), some .nullStunPacket) (by decide +kernel)
  obtain ⟨hm, hf⟩ := Prod.mk.inj hv
  obtain ⟨m, hmem, hm⟩ := Option.map_eq_some_iff.mp hm
  obtain ⟨hrcv, hice⟩ := Prod.mk.inj hm
  exact ⟨s, m, hs, hmem, hrcv, hice, faultOf_eq_some.mp hf⟩

end Server

/-! ## Authentication -/

/-- A Binding request with the credentials of `param`: a USERNAME whose first
part is the ufrag and a MESSAGE-INTEGRITY that is the HMAC under the password. -/
def Authentic (env : Env) (param : IceParameter) (data : Bytes) : Prop :=
  ∃ sp, parse env data = .ok (some sp) ∧ sp.cls = .request ∧ sp.method = binding ∧
    (∃ len localUfrag, .username len param.ufrag localUfrag ∈ sp.attris) ∧
    ∃ len endpos, .integrity len endpos
      (env.hmacSha1 param.passwd (signedPrefix data endpos)) ∈ sp.attris

/-- What `validate` does not look at: that the packet is a Binding request, and
that it has the two attributes, the second with the 20 bytes compared. -/
structure Credentialled (sp : StunPacket) : Prop where
  request : sp.cls = .request
  method : sp.method = binding
  username : ∃ len remoteUfrag localUfrag,
    StunAttribute.username len remoteUfrag localUfrag ∈ sp.attris
  integrity : ∃ len endpos hmacSha1, hmacSha1.length = kStunMessageIntegritySize ∧
    StunAttribute.integrity len endpos hmacSha1 ∈ sp.attris

/-- For a packet that passes `validate`, having credentials is enough. -/
theorem authentic_iff_credentialled {env : Env} {param : IceParameter} {data data' : Bytes}
    {sp : StunPacket} (hs : isStun data = true) (hp : parse env data = .ok (some sp))
    (hv : sp.validate env param data = .ok (true, data')) :
    Authentic env param data ↔ Credentialled sp := by
  have hlen : 4 ≤ data.length := by
    have := length_of_isStun hs
    omega
  have hchecks := validateLoop_true hlen hv
  constructor
  · rintro ⟨sp', hp', hcls, hmethod, ⟨len, localUfrag, huser⟩, len', endpos, hint⟩
    rw [hp] at hp'
    cases hp'
    exact ⟨hcls, hmethod, ⟨len, _, localUfrag, huser⟩,
      len', endpos, _, (hchecks _ hint).1, hint⟩
  · rintro ⟨hcls, hmethod, ⟨len, remoteUfrag, localUfrag, huser⟩, len', endpos, hmacSha1,
      hsize, hint⟩
    have hufrag : remoteUfrag = param.ufrag := hchecks _ huser
    subst hufrag
    have hsame := (hchecks _ hint).2
    rw [← hsize, List.take_left] at hsame
    refine ⟨sp, hp, hcls, hmethod, ⟨len, localUfrag, huser⟩, len', endpos, ?_⟩
    rwa [hsame]

namespace Server

/-- The ICE connection of an address. -/
def iceAt (s : Server) (r : ℤ) (u : Str) (addr : IpAddress) : Option IceConnection :=
  (s.member r u).bind fun m => (m.ports addr).iceConnection

/-- A binding response goes to `addr`, or an ICE connection is made for it. -/
def Admits (s s' : Server) (effects : List Effect) (r : ℤ) (u : Str) (addr : IpAddress) :
    Prop :=
  (∃ reply, .member r u (.bindingResponse addr reply) ∈ effects) ∨
    s.iceAt r u addr = none ∧ (s'.iceAt r u addr).isSome

/-- An address is admitted only by an authentic datagram of its own. -/
def AdmitsAuthentic (env : Env) (s : Server) (l : Event × List Effect) : Prop :=
  ∀ s' r u addr, s.exec env l.1 = .ok (s', l.2) → Admits s s' l.2 r u addr →
    ∃ m data o param, l.1 = .datagram r u addr data o ∧ s.member r u = some m ∧
      m.iceParameter = some param ∧ Authentic env param data

/-- The datagrams that are only admitted if they are authentic: from an address
with a connection, those that are; from a new address, those whose packet has
credentials at all, if they pass `validate`. -/
def ChecksSuffice (env : Env) (s : Server) (l : Event × List Effect) : Prop :=
  match l.1 with
  | .datagram r u addr data _ =>
      ∀ m sp, s.member r u = some m → m.udpReceiver.isSome → isStun data = true →
        parse env data = .ok (some sp) →
        if (m.ports addr).iceConnection.isSome then
          ∃ param, m.iceParameter = some param ∧ Authentic env param data
        else
          ∀ param data', m.iceParameter = some param →
            sp.validate env param data = .ok (true, data') → Credentialled sp
  | _ => True

variable {env : Env} {cfg : Config} {s s' : Server} {e : Event} {effects : List Effect}
  {r : ℤ} {u : Str}

theorem iceAt_of_sameMembers (h : SameMembers s s') (addr : IpAddress) :
    s'.iceAt r u addr = s.iceAt r u addr := by
  rw [iceAt, h.member, iceAt]

/-- Nobody is admitted without a response or a new connection. -/
theorem not_admits {addr : IpAddress}
    (hsent : ∀ reply, .member r u (.bindingResponse addr reply) ∉ effects)
    (hice : s.iceAt r u addr = none → s'.iceAt r u addr = none) :
    ¬ Admits s s' effects r u addr := by
  rintro (⟨reply, hr⟩ | ⟨hnone, hsome⟩)
  · exact hsent reply hr
  · rw [hice hnone] at hsome
    cases hsome

/-- A step that changes one member, and the ICE connection of none of its
addresses. -/
theorem iceAt_setsMember {m m' : RoomMember} {r' : ℤ} {u' : Str} (addr : IpAddress)
    (hmem : s.member r' u' = some m) (hm : SetsMember s s' r' u' (some m'))
    (hsame : (m'.ports addr).iceConnection = (m.ports addr).iceConnection) :
    s'.iceAt r u addr = s.iceAt r u addr := by
  unfold iceAt
  rw [hm]
  split
  · next heq =>
      obtain ⟨rfl, rfl⟩ := heq
      rw [hmem]
      exact hsame
  · rfl

/-- A member that comes or goes has no ICE connection. -/
theorem iceAt_setsMember_none {m' : Option RoomMember} {r' : ℤ} {u' : Str} {addr : IpAddress}
    (hm : SetsMember s s' r' u' m')
    (hno : ∀ m, m' = some m → (m.ports addr).iceConnection = none)
    (hnone : s.iceAt r u addr = none) : s'.iceAt r u addr = none := by
  unfold iceAt at hnone ⊢
  rw [hm]
  split
  · cases m' with
    | none => rfl
    | some m => exact hno m rfl
  · exact hnone

end Server

namespace RoomMember

variable {env : Env} {media media' : Media} {m : RoomMember} {udp : UdpId}
  {addr a : IpAddress} {up : MemberUdpPorts} {data : Bytes} {o : Oracle}
  {sent : List MemberEffect}

/-- Responses are STUN's, and go to the sender. -/
theorem Received.bindingResponse (h : Received env media m udp addr data o media' up sent)
    (haddr : ∀ ice, (m.ports addr).iceConnection = some ice → ice.remoteAddr = addr)
    {reply : Bytes} (hin : .bindingResponse a reply ∈ sent) :
    a = addr ∧ isStun data = true ∧ m.onStun env addr (m.ports addr) data = .ok (up, sent) := by
  cases h with
  | stun hk hstun =>
      refine ⟨?_, hk, hstun⟩
      cases onStun_outcome hk hstun with
      | established hi =>
          cases List.mem_singleton.mp hin
          exact haddr _ hi
      | refused => cases hin
      | created =>
          cases List.mem_singleton.mp hin
          rfl
  | rtp _ _ h => cases h <;> simp at hin
  | dtls _ _ _ h =>
      unfold onDtls at h
      obtain ⟨up', -, h⟩ := bind_ok h
      split at h
      · cases h
        cases hin
      · cases h
        simp at hin
  | unknown => cases hin

/-- An ICE connection that appears is STUN's, and a response says so. -/
theorem Received.iceConnection_new (h : Received env media m udp addr data o media' up sent)
    (hnone : (m.ports addr).iceConnection = none) (hsome : up.iceConnection.isSome) :
    ∃ reply, .bindingResponse addr reply ∈ sent := by
  -- the other branches keep the connection there was
  have hkept : up.iceConnection ≠ (m.ports addr).iceConnection := by
    intro hkept
    rw [hkept, hnone] at hsome
    cases hsome
  cases h with
  | stun hk hstun =>
      cases onStun_outcome hk hstun with
      | established => exact absurd rfl hkept
      | refused => exact absurd rfl hkept
      | created => exact ⟨_, List.mem_singleton_self _⟩
  | rtp _ _ h => exact absurd h.iceConnection hkept
  | dtls _ _ _ h => exact absurd (onDtls_frame h).1 hkept
  | unknown => exact absurd rfl hkept

end RoomMember

namespace Server

variable {env : Env} {cfg : Config} {s s' : Server} {e : Event} {effects : List Effect}
  {r : ℤ} {u : Str}

/-- Whoever is admitted by a datagram, it is by a response. -/
theorem Admits.answered {media' : Media} {m : RoomMember} {udp : UdpId} {r' : ℤ} {u' : Str}
    {addr addr' : IpAddress} {up : MemberUdpPorts} {data : Bytes} {o : Oracle}
    {sent : List MemberEffect} (ha : Admits s s' (sent.map (.member r' u')) r u addr)
    (hmem : s.member r' u' = some m)
    (hr : RoomMember.Received env s.media m udp addr' data o media' up sent)
    (hm : SetsMember s s' r' u'
      (some { m with udpHandles := m.udpHandles.insert addr' up })) :
    r = r' ∧ u = u' ∧ ∃ reply, .bindingResponse addr reply ∈ sent := by
  rcases ha with ⟨reply, hin⟩ | ⟨hnone, hsome⟩
  · obtain ⟨e, he, heq⟩ := List.mem_map.mp hin
    cases heq
    exact ⟨rfl, rfl, reply, he⟩
  · unfold iceAt at hnone hsome
    rw [hm] at hsome
    split at hsome
    · next heq =>
        obtain ⟨rfl, rfl⟩ := heq
        rw [hmem, Option.bind_some] at hnone
        rw [Option.bind_some, RoomMember.ports_insert] at hsome
        split at hsome
        · next ha =>
            subst ha
            exact ⟨rfl, rfl, hr.iceConnection_new hnone hsome⟩
        · rw [hnone] at hsome
          cases hsome
    · rw [hnone] at hsome
      cases hsome

/-- **Only STUN admits**: whoever is admitted sent a STUN datagram to a running
receiver, and it was answered. -/
theorem admits_stun {addr : IpAddress} (hw : s.WellFormed)
    (h : Outcome env s e s' effects) (ha : Admits s s' effects r u addr) :
    ∃ m data o up sent, e = .datagram r u addr data o ∧ s.member r u = some m ∧
      m.udpReceiver.isSome ∧ isStun data = true ∧
      m.onStun env addr (m.ports addr) data = .ok (up, sent) ∧ sent ≠ [] := by
  cases h with
  | unknown => exact absurd ha (not_admits (by simp) id)
  | quiet _ hm | unlisted _ _ hm =>
      exact absurd ha (not_admits (by simp) fun hnone => by
        rw [iceAt_of_sameMembers hm, hnone])
  | joined _ _ _ hm =>
      refine absurd ha (not_admits (by simp) (iceAt_setsMember_none hm ?_))
      rintro m ⟨⟩
      rfl
  | offered _ hmem hm =>
      refine absurd ha (not_admits (by simp) fun hnone => ?_)
      rw [iceAt_setsMember addr hmem hm rfl, hnone]
  | served _ _ hmem _ _ hm =>
      refine absurd ha (not_admits (by simp) fun hnone => ?_)
      rw [iceAt_setsMember addr hmem hm rfl, hnone]
  | parted _ _ _ hm =>
      refine absurd ha (not_admits ?_ (iceAt_setsMember_none hm ?_))
      · intro reply hr
        unfold stopEffects at hr
        split at hr <;> simp at hr
      · rintro m ⟨⟩
  | @acted r' u' addr' acts _ m hmem hm =>
      refine absurd ha (not_admits ?_ fun hnone => ?_)
      · intro reply hr
        obtain ⟨e, he, heq⟩ := List.mem_map.mp hr
        cases heq
        unfold RoomMember.onAdapter at he
        split at he
        · cases he
        · simp at he
      · rw [iceAt_setsMember addr hmem hm (m.onAdapter_ports addr' addr acts).1, hnone]
  | @received r' u' addr' data o _ m m' rcv sent hmem hrcv hrecv hm =>
      obtain ⟨up, rfl, hr⟩ := RoomMember.onUdpReceive_outcome hrecv
      obtain ⟨rfl, rfl, reply, hin⟩ := ha.answered hmem hr hm
      obtain ⟨rfl, hk, hstun⟩ := hr.bindingResponse
        (fun ice hi => hw.addressed r u m addr' ice hmem hi) hin
      exact ⟨m, data, o, up, sent, rfl, hmem, by rw [hrcv]; rfl, hk, hstun,
        List.ne_nil_of_mem hin⟩

/-- A datagram that is answered admits its sender, so it is authentic. -/
theorem AdmitsAuthentic.answered {m : RoomMember} {addr : IpAddress} {data : Bytes}
    {o : Oracle} {sent : List MemberEffect} {reply : Bytes}
    (hauth : AdmitsAuthentic env s (.datagram r u addr data o, sent.map (.member r u)))
    (hmem : s.member r u = some m)
    (hexec : s.exec env (.datagram r u addr data o) = .ok (s', sent.map (.member r u)))
    (hin : .bindingResponse addr reply ∈ sent) :
    ∃ param, m.iceParameter = some param ∧ Authentic env param data := by
  have hadm : Admits s s' (sent.map (.member r u)) r u addr :=
    Or.inl ⟨reply, List.mem_map_of_mem hin⟩
  obtain ⟨m₁, data₁, o₁, param, heq, hmem₁, hparam, hdata⟩ := hauth s' r u addr hexec hadm
  cases heq
  rw [hmem] at hmem₁
  cases hmem₁
  exact ⟨param, hparam, hdata⟩

/-- At one step: if what is admitted is authentic, the checks that are made suffice. -/
theorem AdmitsAuthentic.checksSuffice (hbuf : ∀ data, env.readAfterReset data = data)
    (hw : s.WellFormed) {l : Event × List Effect} (hstep : (system env cfg).step s l s')
    (hauth : AdmitsAuthentic env s l) : ChecksSuffice env s l := by
  obtain ⟨e, effects⟩ := l
  cases e with
  | message | close | adapter => trivial
  | datagram r u addr data o =>
      intro m sp hmem hrcv hs hp
      obtain ⟨rcv, hrcv⟩ := Option.isSome_iff_exists.mp hrcv
      obtain ⟨m', sent, hrecv, rfl, -⟩ := receive_ok hmem hrcv hstep.2
      obtain ⟨up, -, hr⟩ := RoomMember.onUdpReceive_outcome hrecv
      obtain ⟨up', hstun⟩ : ∃ up', m.onStun env addr (m.ports addr) data =
          .ok (up', sent) := by
        generalize s'.media = media' at hr
        cases hr with
        | stun _ h => exact ⟨_, h⟩
        | rtp h | dtls h | unknown h => rw [hs] at h; cases h
      cases RoomMember.onStun_outcome hs hstun with
      | established hi =>
          rw [hi, Option.isSome_some, if_pos rfl]
          have haddr := hw.addressed r u m addr _ hmem hi
          exact hauth.answered hmem hstep.2 (by rw [haddr]; exact List.mem_singleton_self _)
      | refused hi hno =>
          rw [hi, Option.isSome_none, if_neg Bool.false_ne_true]
          intro param data' hparam hv
          refine absurd ?_ (hno sp param data' hp hparam)
          rwa [hbuf]
      | created hi =>
          rw [hi, Option.isSome_none, if_neg Bool.false_ne_true]
          intro param data' hparam hv
          obtain ⟨param₁, hparam₁, hdata⟩ :=
            hauth.answered hmem hstep.2 (List.mem_singleton_self _)
          rw [hparam] at hparam₁
          cases hparam₁
          exact (authentic_iff_credentialled hs hp hv).mp hdata

/-- And if they suffice, what is admitted is authentic. -/
theorem ChecksSuffice.admitsAuthentic (hbuf : ∀ data, env.readAfterReset data = data)
    (hw : s.WellFormed) {l : Event × List Effect} (hstep : (system env cfg).step s l s')
    (hsuff : ChecksSuffice env s l) : AdmitsAuthentic env s l := by
  intro s₁ r u addr hexec hadm
  obtain ⟨e, effects⟩ := l
  have hout := exec_outcome hstep.1 hw.paired hexec
  obtain ⟨m, data, o, up, sent, rfl, hmem, hrcv, hs, hstun, hne⟩ := admits_stun hw hout hadm
  cases RoomMember.onStun_outcome hs hstun with
  | established hi hp =>
      have hsuff := hsuff m _ hmem hrcv hs hp
      rw [hi, Option.isSome_some, if_pos rfl] at hsuff
      obtain ⟨param, hparam, hdata⟩ := hsuff
      exact ⟨m, data, o, param, rfl, hmem, hparam, hdata⟩
  | refused => exact absurd rfl hne
  | created hi hp hparam hv =>
      rw [hbuf] at hv
      have hsuff := hsuff m _ hmem hrcv hs hp
      rw [hi, Option.isSome_none, if_neg Bool.false_ne_true] at hsuff
      exact ⟨m, data, o, _, rfl, hmem, hparam,
        (authentic_iff_credentialled hs hp hv).mpr (hsuff _ _ hparam hv)⟩

/-- **When ICE authenticates**: over any run, addresses are admitted by
authentic requests only, if and only if all datagrams of the run are ones for
which the checks made suffice. -/
theorem admitsAuthentic_iff (hbuf : ∀ data, env.readAfterReset data = data)
    {tr : List (Server × (Event × List Effect))} (run : Lts.Run (system env cfg) tr s) :
    Lts.Guarded (AdmitsAuthentic env) tr ↔ Lts.Guarded (ChecksSuffice env) tr :=
  run.guarded_congr fun _ _ _ hr hstep =>
    have hw := reachable_wellFormed hr
    ⟨AdmitsAuthentic.checksSuffice hbuf hw hstep, ChecksSuffice.admitsAuthentic hbuf hw hstep⟩

end Server

namespace Server

open Sample

/-- A binding response to `addr`. -/
def answers (r : ℤ) (u : Str) (addr : IpAddress) : Effect → Bool
  | .member r' u' (.bindingResponse addr' _) => r' == r && u' == u && addr' == addr
  | _ => false

theorem mem_of_answers {effects : List Effect} {r : ℤ} {u : Str} {addr : IpAddress}
    (h : effects.any (answers r u addr) = true) :
    ∃ reply, .member r u (.bindingResponse addr reply) ∈ effects := by
  obtain ⟨e, he, ha⟩ := List.any_eq_true.mp h
  cases e with
  | member r' u' e =>
      cases e with
      | bindingResponse addr' reply =>
          simp only [answers, Bool.and_eq_true, beq_iff_eq] at ha
          obtain ⟨⟨rfl, rfl⟩, rfl⟩ := ha
          exact ⟨reply, he⟩
      | _ => cases ha
  | _ => cases ha

/-- A request with the credentials of alice's answer is answered. -/
theorem admitsAuthentic_iff_published :
    ∃ tr s s' effects reply param,
      Lts.Run (system Sample.env cfg)
        ((s, .datagram 1 alice ⟨1, 2⟩ signedRequest {}, effects) :: tr) s' ∧
      .member 1 alice (.bindingResponse ⟨1, 2⟩ reply) ∈ effects ∧
      (s'.iceAt 1 alice ⟨1, 2⟩).isSome ∧
      (s.member 1 alice).bind RoomMember.iceParameter = some param ∧
      Authentic Sample.env param signedRequest ∧
      (Lts.Guarded (AdmitsAuthentic Sample.env)
          ((s, .datagram 1 alice ⟨1, 2⟩ signedRequest {}, effects) :: tr) ↔
        Lts.Guarded (ChecksSuffice Sample.env)
          ((s, .datagram 1 alice ⟨1, 2⟩ signedRequest {}, effects) :: tr)) := by
  obtain ⟨tr, s, s', effects, run, hstep, hv⟩ := exists_step_of_runEvents Sample.env cfg
    published (.datagram 1 alice ⟨1, 2⟩ signedRequest {})
    (fun s s' effects => (effects.any (answers 1 alice ⟨1, 2⟩), (s'.iceAt 1 alice ⟨1, 2⟩).isSome,
      (s.member 1 alice).bind RoomMember.iceParameter))
    (true, true, some ⟨str "ice-lite", rnd.ufrag, rnd.passwd⟩) (by decide +kernel)
  simp only [Prod.mk.injEq] at hv
  obtain ⟨hreply, hice, hparam⟩ := hv
  obtain ⟨reply, hreply⟩ := mem_of_answers hreply
  have hparse : parse Sample.env signedRequest = .ok (some ⟨List.replicate 12 0, .request,
      binding, [.username 7 rnd.ufrag (str "a"), .integrity 20 32 (List.replicate 20 7)]⟩) := by
    decide +kernel
  have hauth : Authentic Sample.env ⟨str "ice-lite", rnd.ufrag, rnd.passwd⟩ signedRequest :=
    ⟨_, hparse, rfl, rfl, ⟨7, str "a", List.mem_cons_self⟩,
      20, 32, List.mem_cons_of_mem _ List.mem_cons_self⟩
  exact ⟨tr, s, s', effects, reply, _, run.snoc hstep, hreply, hice, hparam, hauth,
    admitsAuthentic_iff (fun _ => rfl) (run.snoc hstep)⟩

/-- A request without any attribute is answered. -/
theorem bareRequest_admitted :
    ∃ tr s, Lts.Run (system Sample.env cfg) tr s ∧
      ¬ Lts.Guarded (AdmitsAuthentic Sample.env) tr := by
  obtain ⟨s, ⟨tr, run⟩, hv⟩ := exists_reachable_of_runEvents Sample.env cfg published
    (fun s => (s.exec Sample.env (.datagram 1 alice ⟨1, 2⟩ bareRequest {})).toOption.map
      fun p => p.2.any (answers 1 alice ⟨1, 2⟩))
    (some true) (by decide +kernel)
  obtain ⟨⟨s', effects⟩, hexec, hv⟩ := ok_of_toOption_map hv
  have hadm : Admits s s' effects 1 alice ⟨1, 2⟩ := Or.inl (mem_of_answers hv)
  have hstep : (system Sample.env cfg).step s
      (.datagram 1 alice ⟨1, 2⟩ bareRequest {}, effects) s' := ⟨trivial, hexec⟩
  refine ⟨_, s', run.snoc hstep, ?_⟩
  intro hauth
  obtain ⟨m, data, o, param, heq, -, -, sp, hp, -, -, ⟨len, localUfrag, huser⟩, -⟩ :=
    hauth _ (List.mem_cons_self ..) s' 1 alice ⟨1, 2⟩ hexec hadm
  cases heq
  have hbare : parse Sample.env bareRequest =
      .ok (some ⟨List.replicate 12 0, .request, 1, []⟩) := by decide
  rw [hbare] at hp
  cases hp
  cases huser

end Server

end JuanSfu
