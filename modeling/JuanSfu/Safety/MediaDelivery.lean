import JuanSfu.Safety.Forwarding

/-!
# What becomes of a packet

A packet that is decrypted goes, as it is, to every transport linked with the one
it came in at, once, and to no other; from there it is sent to the address of that
transport, if libsrtp makes a packet of it. The buffer it is encrypted in always
has room. Over a run this makes every link a queue that loses, doubles and
reorders nothing.
-/

namespace JuanSfu

theorem mapM_ok_eq_map {α β : Type} {f : α → Result β} {g : α → β} {l : List α} {ys : List β}
    (h : l.mapM f = .ok ys) (hf : ∀ a ∈ l, ∀ y, f a = .ok y → y = g a) : ys = l.map g := by
  induction l generalizing ys with
  | nil =>
      cases h
      rfl
  | cons a l ih =>
      rw [List.mapM_cons] at h
      obtain ⟨y, hy, h⟩ := bind_ok h
      obtain ⟨rest, hrest, h⟩ := bind_ok h
      cases h
      rw [List.map_cons, hf a List.mem_cons_self y hy,
        ih hrest fun b hb => hf b (List.mem_cons_of_mem _ hb)]

/-- The tag, and the index of RTCP, are what the caller leaves room for. -/
theorem SrtpSession.protect_room (s : SrtpSession) (rtcp : Bool) (inLen : ℕ)
    (result : Option Bytes) :
    s.protect rtcp inLen (inLen + s.getAuthTagLen rtcp + if rtcp then 4 else 0) result =
      if s.srtpSession = none then none else result := by
  unfold protect getAuthTagLen
  by_cases hnone : s.srtpSession = none
  · simp [hnone]
  · rw [if_neg hnone, if_neg hnone, if_neg hnone, if_neg]
    cases rtcp <;> simp [Nat.add_assoc]

namespace SrtpTransport

/-- The policy that packets to this transport are encrypted with. -/
def sendPolicy (st : SrtpTransport) : Option SrtpPolicy :=
  st.sendSession.bind (·.srtpSession)

/-- The policy that packets from this transport's peer are decrypted with. -/
def recvPolicy (st : SrtpTransport) : Option SrtpPolicy :=
  st.recvSession.bind (·.srtpSession)

/-- What a subscriber sends of a packet that libsrtp makes `result` of. -/
def outgoing (st : SrtpTransport) (result : Option Bytes) : List MediaEffect :=
  if st.sendPolicy = none then [] else result.toList.map (.send st.udp st.addr)

theorem mem_outgoing_iff {st : SrtpTransport} {result : Option Bytes} {e : MediaEffect} :
    e ∈ st.outgoing result ↔
      st.sendPolicy ≠ none ∧ ∃ packet, result = some packet ∧ e = .send st.udp st.addr packet := by
  unfold outgoing
  split
  · next h => simp [h]
  · next h =>
      cases result with
      | none => simp
      | some packet => simp [h]

theorem forward_not_mem_outgoing {st : SrtpTransport} {result : Option Bytes}
    {src dst : TransportId} {plain : Bytes} :
    .forward src dst plain ∉ st.outgoing result := by
  rw [mem_outgoing_iff]
  rintro ⟨-, packet, -, h⟩
  cases h

theorem onPacket_eq_outgoing {st : SrtpTransport} {rtcp : Bool} {data : Bytes}
    {result : Option Bytes} {sent : List MediaEffect}
    (h : st.onPacket true rtcp data result = .ok sent) : sent = st.outgoing result := by
  unfold onPacket at h
  rw [if_neg (by simp)] at h
  unfold outgoing sendPolicy
  split at h
  · cases h
  · next s hs =>
      dsimp only at h
      rw [s.protect_room] at h
      rw [hs, Option.bind_some]
      by_cases hnone : s.srtpSession = none
      · rw [if_pos hnone] at h
        cases h
        rw [if_pos hnone]
      · rw [if_neg hnone] at h
        rw [if_neg hnone]
        cases result <;> cases h <;> rfl

end SrtpTransport

namespace Media

/-- What a decrypted packet makes the transports do. -/
def delivery (m : Media) (st : TransportId) (plain : Bytes) (srtp : Srtp) : List MediaEffect :=
  (m.transports st).subsMap.entries.flatMap fun e =>
    .forward st e.2 plain :: (m.transports e.2).outgoing (srtp.protect e.2)

/-- **The cases of a packet.** -/
inductive Handled (m : Media) (st : TransportId) (data : Bytes) (srtp : Srtp) :
    List MediaEffect → Prop where
  | unread : Handled m st data srtp []
  | undecrypted {policy : SrtpPolicy} (hp : (m.transports st).recvPolicy = some policy)
      (h : srtp.unprotect.getD [] = []) :
      Handled m st data srtp [.unprotect policy data]
  | delivered {policy : SrtpPolicy} {plain : Bytes}
      (hp : (m.transports st).recvPolicy = some policy) (h : srtp.unprotect = some plain)
      (hne : plain ≠ []) :
      Handled m st data srtp (.unprotect policy data :: m.delivery st plain srtp)

theorem handleData_handled {m : Media} {st : TransportId} {rtcp : Bool} {data : Bytes}
    {srtp : Srtp} {sent : List MediaEffect} (h : m.handleData st rtcp data srtp = .ok sent) :
    m.Handled st data srtp sent := by
  unfold handleData at h
  split at h
  · cases h
    exact .unread
  · next hinit =>
      have hinit : m.srtpInit = true := by simpa using hinit
      split at h
      · cases h
      · next session hsession =>
          split at h
          · cases h
            exact .unread
          · next policy hp =>
              have hpolicy : (m.transports st).recvPolicy = some policy := by
                rw [SrtpTransport.recvPolicy, hsession, Option.bind_some, hp]
              split at h
              · next hnone =>
                  cases h
                  exact .undecrypted hpolicy (by rw [hnone]; rfl)
              · next hnil =>
                  cases h
                  exact .undecrypted hpolicy (by rw [hnil]; rfl)
              · next plain hsome hne =>
                  obtain ⟨turns, hturns, h⟩ := bind_ok h
                  cases h
                  have heq := mapM_ok_eq_map (g := fun e => .forward st e.2 plain ::
                    (m.transports e.2).outgoing (srtp.protect e.2)) hturns ?_
                  · rw [heq, ← List.flatMap_def]
                    exact .delivered hpolicy hne fun hnil => hsome (hnil ▸ rfl)
                  · intro e _ turn hturn
                    obtain ⟨packets, hpackets, hturn⟩ := bind_ok hturn
                    cases hturn
                    rw [hinit] at hpackets
                    rw [SrtpTransport.onPacket_eq_outgoing hpackets]

end Media

/-- The packet, if it goes from `src` to `dst`. -/
def MediaEffect.between (src dst : TransportId) : MediaEffect → Option Bytes
  | .forward x y plain => if x = src ∧ y = dst then some plain else none
  | _ => none

namespace Media

variable {m : Media} {st src dst : TransportId}

/-- A link leads from one transport to another. -/
def linked (m : Media) (src dst : TransportId) : Bool :=
  (m.transports src).subsMap.entries.any fun e => e.2 = dst

theorem linked_iff : m.linked src dst = true ↔ ∃ uid, m.subscriberOf src uid = some dst := by
  unfold linked subscriberOf
  rw [List.any_eq_true]
  constructor
  · rintro ⟨⟨uid, x⟩, he, hx⟩
    obtain rfl : x = dst := of_decide_eq_true hx
    exact ⟨uid, UnorderedMap.mem_entries_iff.mp he⟩
  · rintro ⟨uid, h⟩
    exact ⟨⟨uid, dst⟩, UnorderedMap.mem_entries_iff.mpr h, decide_eq_true rfl⟩

/-- The packets for one transport among what the turn for a subscriber does. -/
theorem turn_between (e : Sigma fun _ : Str => TransportId) (plain : Bytes) (srtp : Srtp) :
    (MediaEffect.forward st e.2 plain :: (m.transports e.2).outgoing (srtp.protect e.2)).filterMap
      (MediaEffect.between src dst) = if st = src ∧ e.2 = dst then [plain] else [] := by
  have hnone : ((m.transports e.2).outgoing (srtp.protect e.2)).filterMap
      (MediaEffect.between src dst) = [] := by
    unfold SrtpTransport.outgoing
    split
    · rfl
    · cases srtp.protect e.2 <;> rfl
  rw [List.filterMap_cons, hnone]
  dsimp only [MediaEffect.between]
  by_cases hto : st = src ∧ e.2 = dst
  · rw [if_pos hto, if_pos hto]
  · rw [if_neg hto, if_neg hto]

/-- **A decrypted packet reaches each linked transport once**, and no other. -/
theorem delivery_between {plain : Bytes} {srtp : Srtp}
    (hinj : ∀ v v', m.subscriberOf st v = some dst → m.subscriberOf st v' = some dst → v = v') :
    (m.delivery st plain srtp).filterMap (MediaEffect.between src dst) =
      if st = src ∧ m.linked st dst = true then [plain] else [] := by
  unfold delivery
  rw [List.filterMap_flatMap]
  simp only [turn_between]
  by_cases hst : st = src
  · subst hst
    have hentries : ∀ l : List (Sigma fun _ : Str => TransportId), l.Nodup →
        (∀ e ∈ l, ∀ e' ∈ l, e.2 = dst → e'.2 = dst → e = e') →
        (l.flatMap fun e => if st = st ∧ e.2 = dst then [plain] else []) =
          if l.any (fun e => e.2 = dst) = true then [plain] else [] := by
      intro l hnodup hunique
      induction l with
      | nil => rfl
      | cons e l ih =>
          obtain ⟨hnew, hnodup⟩ := List.nodup_cons.mp hnodup
          have hrest := ih hnodup fun a ha b hb =>
            hunique a (List.mem_cons_of_mem e ha) b (List.mem_cons_of_mem e hb)
          rw [List.flatMap_cons, hrest, List.any_cons]
          by_cases he : e.2 = dst
          · have hno : l.any (fun e => e.2 = dst) = false := by
              rw [List.any_eq_false]
              intro e' he' heq
              have hsame := hunique e List.mem_cons_self e' (List.mem_cons_of_mem e he') he
                (of_decide_eq_true heq)
              exact hnew (hsame ▸ he')
            simp [he, hno]
          · rw [if_neg fun h => he h.2, decide_eq_false he, Bool.false_or, List.nil_append]
    have hnodup := (m.transports st).subsMap.nodupKeys.nodup
    rw [hentries _ hnodup, linked]
    · simp only [true_and]
    · rintro ⟨v, x⟩ he ⟨v', x'⟩ he' rfl rfl
      have hv := hinj v v' (UnorderedMap.mem_entries_iff.mp he)
        (UnorderedMap.mem_entries_iff.mp he')
      rw [hv]
  · simp [hst]

end Media

namespace Server

variable {env : Env} {cfg : Config} {s s' : Server} {l : Event × List Effect}
  {src dst : TransportId}

/-! ## One step -/

/-- **The cases of a step**, by what it does with media; `s'` is the state behind
the step. -/
inductive MediaStep (s' : Server) : Event × List Effect → Prop where
  | silent {l : Event × List Effect} (h : ∀ r u e, .member r u (.media e) ∉ l.2) :
      MediaStep s' l
  | handled {r : ℤ} {u : Str} {addr : IpAddress} {data : Bytes} {o : Oracle} {m : RoomMember}
      {st : TransportId} {sent : List MediaEffect} (hmem : s'.member r u = some m)
      (hst : (m.ports addr).srtp = some st) (h : s'.media.Handled st data o.srtp sent) :
      MediaStep s' (.datagram r u addr data o, (sent.map MemberEffect.media).map (.member r u))

theorem no_media_member {r : ℤ} {u : Str} {sent : List MemberEffect} (h : ∀ e, .media e ∉ sent)
    (r' : ℤ) (u' : Str) (e : MediaEffect) :
    .member r' u' (.media e) ∉ sent.map (Effect.member r u) := by
  intro he
  obtain ⟨e', he', heq⟩ := List.mem_map.mp he
  cases heq
  exact h e he'

theorem received_media {r : ℤ} {u : Str} {addr : IpAddress} {data : Bytes} {o : Oracle}
    {m m' : RoomMember} {udp : UdpId} {sent : List MemberEffect}
    (hrecv : m.onUdpReceive env s.media udp addr data o = .ok (s'.media, m', sent))
    (hmem : s'.member r u = some m') :
    MediaStep s' (.datagram r u addr data o, sent.map (.member r u)) := by
  obtain ⟨up, rfl, hreceived⟩ := RoomMember.onUdpReceive_outcome hrecv
  have hports : ({ m with udpHandles := m.udpHandles.insert addr up } : RoomMember).ports addr =
      up := by
    rw [RoomMember.ports_insert, if_pos rfl]
  obtain ⟨media', hmedia⟩ : ∃ media', s'.media = media' := ⟨_, rfl⟩
  rw [hmedia] at hreceived
  cases hreceived with
  | stun _ h => exact .silent (no_media_member (RoomMember.onStun_no_media h))
  | dtls _ _ _ h => exact .silent (no_media_member (RoomMember.onDtls_no_media h))
  | unknown => exact .silent (no_media_member fun _ => List.not_mem_nil)
  | rtp _ _ h =>
      cases h with
      | noDtls | unkeyed => exact .silent (no_media_member fun _ => List.not_mem_nil)
      | keyed _ _ _ _ hh =>
          refine .handled hmem (by rw [hports]) ?_
          rw [hmedia]
          exact Media.handleData_handled hh
      | reused _ hs hh =>
          refine .handled hmem (by rw [hports, hs]) ?_
          rw [hmedia]
          exact Media.handleData_handled hh

theorem step_media (hr : Lts.Reachable (system env cfg) s)
    (hstep : (system env cfg).step s l s') : MediaStep s' l := by
  obtain ⟨e, effects⟩ := l
  cases step_outcome (reachable_wellFormed hr) hstep with
  | quiet | offered | unknown | unlisted => exact .silent fun _ _ _ => List.not_mem_nil
  | joined | served => exact .silent (by simp)
  | @parted c _ r u m =>
      refine .silent ?_
      dsimp only [stopEffects]
      cases m.udpReceiver <;> simp
  | @received r u addr data o _ m m' rcv sent hmem hrcv hrecv hm =>
      refine received_media hrecv ?_
      rw [hm]
      simp
  | @acted r u addr acts _ m =>
      exact .silent (no_media_member (m.onAdapter_no_media addr acts))

/-- The packets that go from one transport to another. -/
def forwardedTo (src dst : TransportId) (effects : List Effect) : List Bytes :=
  effects.filterMap fun
    | .member _ _ (.media e) => e.between src dst
    | _ => none

def asksUnprotect : Effect → Bool
  | .member _ _ (.media (.unprotect _ _)) => true
  | _ => false

/-- What libsrtp makes of the datagram of a step, if it is asked and the datagram
came in at the transport `src`; `s'` is the state behind the step. -/
def packetAt (s' : Server) (l : Event × List Effect) (src : TransportId) : Option Bytes :=
  match l.1 with
  | .datagram r u addr _ o =>
      if ((s'.member r u).bind fun m => (m.ports addr).srtp) = some src ∧
          l.2.any asksUnprotect = true then
        o.srtp.unprotect.filter (· ≠ [])
      else none
  | _ => none

theorem forwardedTo_media (r : ℤ) (u : Str) (sent : List MediaEffect) :
    forwardedTo src dst ((sent.map MemberEffect.media).map (.member r u)) =
      sent.filterMap (MediaEffect.between src dst) := by
  unfold forwardedTo
  rw [List.map_map, List.filterMap_map]
  rfl

variable (s' src dst) in
/-- A step without media forwards nothing and decrypts nothing. -/
theorem silent_step (h : ∀ r u e, .member r u (.media e) ∉ l.2) :
    forwardedTo src dst l.2 = [] ∧ packetAt s' l src = none := by
  constructor
  · refine List.filterMap_eq_nil_iff.mpr fun e he => ?_
    cases e with
    | member r u e =>
        cases e with
        | media e => exact absurd he (h r u e)
        | _ => rfl
    | _ => rfl
  · have hno : l.2.any asksUnprotect = false := by
      rw [List.any_eq_false]
      intro e he
      cases e with
      | member r u e =>
          cases e with
          | media e => exact absurd he (h r u e)
          | _ => simp [asksUnprotect]
      | _ => simp [asksUnprotect]
    unfold packetAt
    split
    · simp [hno]
    · rfl

/-- At most one link leads from a transport to another. -/
theorem subscriberOf_inj (hr : Lts.Reachable (system env cfg) s) {v v' : Str}
    (h : s.media.subscriberOf src v = some dst) (h' : s.media.subscriberOf src v' = some dst) :
    v = v' := Wiring.subs_inj (reachable_wiring hr) h h'

/-- The packet of a transport, forwarded. -/
theorem handled_forwardedTo {st : TransportId} {r : ℤ} {u : Str} {addr : IpAddress}
    {data : Bytes} {o : Oracle} {sent : List MediaEffect} {m : RoomMember}
    (hmem : s'.member r u = some m) (hst : (m.ports addr).srtp = some st)
    (hr : Lts.Reachable (system env cfg) s') (hh : s'.media.Handled st data o.srtp sent) :
    forwardedTo src dst ((sent.map MemberEffect.media).map (.member r u)) =
      if s'.media.linked src dst = true then
        (packetAt s' (.datagram r u addr data o,
          (sent.map MemberEffect.media).map (.member r u)) src).toList
      else [] := by
  have hat : ((s'.member r u).bind fun m => (m.ports addr).srtp) = some st := by
    rw [hmem, Option.bind_some, hst]
  rw [forwardedTo_media]
  unfold packetAt
  dsimp only
  rw [hat]
  cases hh with
  | unread => simp
  | undecrypted _ hnil =>
      have hnone : o.srtp.unprotect.filter (· ≠ []) = none := by
        cases hp : o.srtp.unprotect with
        | none => rfl
        | some plain =>
            rw [hp] at hnil
            simp only [Option.getD_some] at hnil
            simp [hnil]
      rw [hnone]
      simp [MediaEffect.between]
  | @delivered policy plain _ hplain hne =>
      have hsome : o.srtp.unprotect.filter (· ≠ []) = some plain := by
        rw [hplain]
        simp [hne]
      have hasked : ((((MediaEffect.unprotect policy data ::
          s'.media.delivery st plain o.srtp).map MemberEffect.media).map
          (Effect.member r u)).any asksUnprotect) = true := by
        simp [asksUnprotect]
      rw [List.filterMap_cons, Media.delivery_between fun v v' => subscriberOf_inj hr, hasked, hsome]
      by_cases hsrc : st = src
      · subst hsrc
        by_cases hlink : s'.media.linked st dst = true <;> simp [hlink, MediaEffect.between]
      · simp [hsrc, MediaEffect.between]

/-- **What one step forwards** from a transport to another: the packet that was
decrypted, if there is one and the two are linked. -/
theorem forwardedTo_eq (hr : Lts.Reachable (system env cfg) s)
    (hstep : (system env cfg).step s l s') (src dst : TransportId) :
    forwardedTo src dst l.2 =
      if s'.media.linked src dst = true then (packetAt s' l src).toList else [] := by
  cases step_media hr hstep with
  | silent h =>
      obtain ⟨hnone, hno⟩ := silent_step s' src dst h
      rw [hnone, hno]
      simp
  | handled hmem hst hh => exact handled_forwardedTo hmem hst (hr.snoc hstep) hh

theorem mem_media_iff {r r' : ℤ} {u u' : Str} {sent : List MediaEffect} {e : MediaEffect} :
    .member r' u' (.media e) ∈ (sent.map MemberEffect.media).map (Effect.member r u) ↔
      (r' = r ∧ u' = u) ∧ e ∈ sent := by
  constructor
  · intro h
    obtain ⟨e', he', heq⟩ := List.mem_map.mp h
    cases heq
    obtain ⟨e'', he'', heq⟩ := List.mem_map.mp he'
    cases heq
    exact ⟨⟨rfl, rfl⟩, he''⟩
  · rintro ⟨⟨rfl, rfl⟩, h⟩
    exact List.mem_map_of_mem (List.mem_map_of_mem h)

/-- **What one step sends**: to each transport that a packet is forwarded to, if
it has a session and libsrtp makes a packet. -/
theorem sends_iff (hr : Lts.Reachable (system env cfg) s)
    (hstep : (system env cfg).step s l s') {r : ℤ} {u : Str} {udp : UdpId} {addr : IpAddress}
    {packet : Bytes} : .member r u (.media (.send udp addr packet)) ∈ l.2 ↔
      ∃ a data o src dst plain, l.1 = .datagram r u a data o ∧
        .member r u (.media (.forward src dst plain)) ∈ l.2 ∧
        .send udp addr packet ∈ (s'.media.transports dst).outgoing (o.srtp.protect dst) := by
  cases step_media hr hstep with
  | silent h =>
      refine iff_of_false (h r u _) ?_
      rintro ⟨a, data, o, src, dst, plain, -, hf, -⟩
      exact h r u _ hf
  | @handled r' u' a data o m st sent hmem hst hh =>
      simp only [mem_media_iff]
      cases hh with
      | unread => simp
      | undecrypted => simp
      | @delivered policy plain _ hplain hne =>
          constructor
          · rintro ⟨⟨rfl, rfl⟩, h⟩
            rcases List.mem_cons.mp h with h | h
            · cases h
            · obtain ⟨e, he, h⟩ := List.mem_flatMap.mp h
              rcases List.mem_cons.mp h with h | h
              · cases h
              · refine ⟨a, data, o, st, e.2, plain, rfl, ⟨⟨rfl, rfl⟩, ?_⟩, h⟩
                exact List.mem_cons_of_mem _ (List.mem_flatMap.mpr ⟨e, he, List.mem_cons_self ..⟩)
          · rintro ⟨a', data', o', src, dst, plain', heq, ⟨⟨rfl, rfl⟩, hf⟩, hsend⟩
            cases heq
            refine ⟨⟨rfl, rfl⟩, List.mem_cons_of_mem _ ?_⟩
            rcases List.mem_cons.mp hf with hf | hf
            · cases hf
            · obtain ⟨e, he, hf⟩ := List.mem_flatMap.mp hf
              rcases List.mem_cons.mp hf with hf | hf
              · cases hf
                exact List.mem_flatMap.mpr ⟨e, he, List.mem_cons_of_mem _ hsend⟩
              · exact absurd hf SrtpTransport.forward_not_mem_outgoing

/-! ## A link that stays -/

/-- No member named `v` leaves, nor one that `src` is registered for, and nobody
named `v`, in whatever room, sends packets over another transport than `dst` (from
another address, or in another room): the streams are registered by name. -/
structure Undisturbed (src : TransportId) (v : Str) (dst : TransportId) (s : Server)
    (l : Event × List Effect) : Prop where
  leaves (p : ℤ × Str) (h : s.Leaves l.1 p) :
    p.2 ≠ v ∧ s.media.mgr.streams.lookup p.2 ≠ some src
  feeds (p : ℤ × Str) (st : TransportId) (h : s.Feeds l.1 p st) (hv : p.2 = v) : st = dst

theorem Undisturbed.joined {v : Str} (hg : Undisturbed src v dst s l)
    (hr : Lts.Reachable (system env cfg) s) (hstep : (system env cfg).step s l s')
    (h : Wiring.Joined s.wiring src v dst) : Wiring.Joined s'.wiring src v dst := by
  have hw := step_wires hr hstep
  generalize s'.wiring = w at hw
  cases hw with
  | idle => exact h
  | subscribed => exact ⟨h.lt, h.stream, h.link⟩
  | opened => exact h.openFor _
  | fed he => exact h.register fun hv => hg.feeds _ _ he hv
  | first he => exact (h.openFor _).register fun hv => hg.feeds _ _ he hv
  | parted he =>
      obtain ⟨hne, hsrc⟩ := hg.leaves _ he
      exact h.part hne hsrc

theorem linked_of_joined {v : Str} (h : Wiring.Joined s.wiring src v dst) :
    s.media.linked src dst = true :=
  Media.linked_iff.mpr ⟨v, h.link⟩

/-! ## A run -/

/-- The packets that a run forwards from one transport to another, in order. -/
def delivered (src dst : TransportId) (tr : List (Server × (Event × List Effect))) :
    List Bytes :=
  tr.reverse.flatMap fun p => forwardedTo src dst p.2.2

/-- The packets that a run that ends in `s` decrypts at a transport, in order. -/
def decrypted (src : TransportId) (tr : List (Server × (Event × List Effect))) (s : Server) :
    List Bytes :=
  match tr with
  | [] => []
  | (s₀, l) :: tr => decrypted src tr s₀ ++ (packetAt s l src).toList

theorem delivered_cons (tr : List (Server × (Event × List Effect))) :
    delivered src dst ((s, l) :: tr) = delivered src dst tr ++ forwardedTo src dst l.2 := by
  simp [delivered]

/-- **Nothing is made up, doubled or reordered**: what a run forwards from one
transport to another is a subsequence of what it decrypts at the first. -/
theorem delivered_sublist {tr : List (Server × (Event × List Effect))}
    (run : Lts.Run (system env cfg) tr s) (src dst : TransportId) :
    (delivered src dst tr).Sublist (decrypted src tr s) := by
  induction run with
  | start h => exact List.Sublist.slnil
  | @snoc tr s s' l run hstep ih =>
      rw [delivered_cons, decrypted, forwardedTo_eq run.reachable hstep]
      apply ih.append
      split
      · exact List.Sublist.refl _
      · exact List.nil_sublist _

theorem delivered_sublist_pulled :
    ∃ tr s, Lts.Run (system Sample.env Sample.cfg) tr s ∧ [1] ∈ delivered 1 0 tr ∧
      (delivered 1 0 tr).Sublist (decrypted 1 tr s) := by
  obtain ⟨tr, s, s', effects, run, hstep, hv⟩ := exists_step_of_runEvents Sample.env Sample.cfg
    Sample.pulled (Sample.rtp 1 Sample.bob ⟨2, 2⟩) (fun _ _ effects => forwardedTo 1 0 effects)
    [[1]] (by decide +kernel)
  refine ⟨_, s', run.snoc hstep, ?_, delivered_sublist (run.snoc hstep) 1 0⟩
  rw [delivered_cons]
  exact List.mem_append_right _ (hv ▸ List.mem_cons_self ..)

/-- **Nothing is lost**: while the two transports stay linked, everything that
is decrypted at the first goes to the second. -/
theorem delivered_eq {s₀ : Server} (hr : Lts.Reachable (system env cfg) s₀) {v : Str}
    (hjoined : Wiring.Joined s₀.wiring src v dst)
    {tr : List (Server × (Event × List Effect))}
    (run : Lts.Run ((system env cfg).startingAt s₀) tr s)
    (hg : Lts.Guarded (Undisturbed src v dst) tr) :
    delivered src dst tr = decrypted src tr s := by
  suffices h : Wiring.Joined s.wiring src v dst ∧
      delivered src dst tr = decrypted src tr s from h.2
  induction run with
  | start h =>
      obtain rfl := h
      exact ⟨hjoined, rfl⟩
  | @snoc tr s s' l run hstep ih =>
      rw [Lts.guarded_cons] at hg
      obtain ⟨hj, heq⟩ := ih hg.2
      have hreach := hr.of_startingAt run.reachable
      have hj' := hg.1.joined hreach hstep hj
      refine ⟨hj', ?_⟩
      rw [delivered_cons, decrypted, forwardedTo_eq hreach hstep, linked_of_joined hj', heq]
      rfl

theorem delivered_eq_pulled :
    ∃ tr s₀ s, Lts.Run ((system Sample.env Sample.cfg).startingAt s₀) tr s ∧
      [1] ∈ delivered 0 1 tr ∧ delivered 0 1 tr = decrypted 0 tr s := by
  obtain ⟨s, hs, hv⟩ := exists_reachable_of_runEvents Sample.env Sample.cfg
    (Sample.pulled ++ [Sample.rtp 1 Sample.bob ⟨2, 2⟩])
    (fun s => (decide (0 < s.media.nextTransport ∧
      s.media.mgr.streams.lookup Sample.bob = some 1 ∧
        s.media.subscriberOf 0 Sample.bob = some 1),
      (s.exec Sample.env (Sample.rtp 1 Sample.alice ⟨1, 1⟩)).toOption.map fun q =>
        forwardedTo 0 1 q.2))
    (true, some [[1]]) (by decide +kernel)
  obtain ⟨hjoined, hv⟩ := Prod.mk.inj hv
  obtain ⟨hlt, hstream, hlink⟩ := of_decide_eq_true hjoined
  obtain ⟨⟨s', effects⟩, hsent, hv⟩ := ok_of_toOption_map hv
  have hjoined : Wiring.Joined s.wiring 0 Sample.bob 1 := ⟨hlt, hstream, hlink⟩
  have run : Lts.Run ((system Sample.env Sample.cfg).startingAt s)
      [(s, (Sample.rtp 1 Sample.alice ⟨1, 1⟩, effects))] s' :=
    (Lts.Run.start rfl).snoc ⟨trivial, hsent⟩
  have hg : Lts.Guarded (Undisturbed 0 Sample.bob 1)
      [(s, (Sample.rtp 1 Sample.alice ⟨1, 1⟩, effects))] := by
    intro p hp
    obtain rfl := List.mem_singleton.mp hp
    constructor
    · intro p hleave
      exact absurd hleave (not_leaves rfl p)
    · rintro p st ⟨up, dtls, ⟨addr, data, o, m, he, -⟩, -⟩ hv
      obtain ⟨-, hu, -⟩ := Event.datagram.inj he
      rw [← hu] at hv
      exact absurd hv (by decide)
  refine ⟨_, s, s', run, ?_, delivered_eq hs hjoined run hg⟩
  show [1] ∈ forwardedTo 0 1 effects ++ []
  rw [hv]
  simp

end Server

end JuanSfu
