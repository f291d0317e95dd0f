import JuanSfu.Signaling.SignalingHandle

/-!
# What a publish and a pull have in common

Both handlers look up the member, cut the offer into lines, parse them into the
member's offer and serve the member. `Requests` collects the checks that come
before the parse, and `handle_eq` says what follows it; the results about
requests start from these two.
-/

namespace JuanSfu

/-- The request in `msg` names the room and the uid. -/
def Names (msg : Json) (roomid : ℤ) (uid : Str) : Prop :=
  ∃ sroomid, getJsonString msg (str "roomId") [] = .ok sroomid ∧
    stoll (cStr sroomid) = .ok roomid ∧ getJsonString msg (str "uid") [] = .ok uid

/-- A request with this command. -/
def Commands (msg : Json) (cmd : Str) : Prop := getJsonString msg (str "cmd") [] = .ok cmd

/-- The strings that a command asks for are there, so its room is looked for. -/
structure NamesRoom (msg : Json) (sroomid : Str) : Prop where
  room : getJsonString msg (str "roomId") [] = .ok sroomid
  room_length : 1 ≤ sroomid.length
  uid : ∃ uid, getJsonString msg (str "uid") [] = .ok uid ∧ 1 ≤ uid.length
  cmd : Commands msg (str "join") ∨ Commands msg (str "publish") ∨
    Commands msg (str "pullstream") ∧
      ∃ remoteUid, getJsonString msg (str "remote_uid") [] = .ok remoteUid ∧ 1 ≤ remoteUid.length

namespace Server

/-- What the two handlers that serve a member ask for in their own ways: an
offer that parses, a uid to pull from that is in the room. -/
def Accepts (s : Server) (msg : Json) (roomid : ℤ) (m : RoomMember) (vecs : List Str) :
    Prop :=
  Commands msg (str "publish") ∧
      (∃ offerSdp, m.offerSdp.parseSdp vecs = .ok (true, offerSdp)) ∨
    Commands msg (str "pullstream") ∧
      ∃ remoteUid, getJsonString msg (str "remote_uid") [] = .ok remoteUid ∧
        1 ≤ remoteUid.length ∧ (s.member roomid remoteUid).isSome

/-- A publish or a pull that passes every check made before a port is asked for. -/
def Admitted (s : Server) (msg : Json) (roomid : ℤ) (uid : Str) : Prop :=
  ∃ sroomid m vecs, getJsonString msg (str "roomId") [] = .ok sroomid ∧
    getJsonString msg (str "uid") [] = .ok uid ∧ 1 ≤ sroomid.length ∧ 1 ≤ uid.length ∧
    stoll (cStr sroomid) = .ok roomid ∧ s.member roomid uid = some m ∧
    sdpLines msg = .ok (some vecs) ∧ s.Accepts msg roomid m vecs

/-- The checks both handlers make before they parse. -/
structure Finds (s : Server) (msg : Json) (sroomid : Str) (r : ℤ) (u : Str) (m : RoomMember)
    (lines : List Str) : Prop where
  room : getJsonString msg (str "roomId") [] = .ok sroomid
  uid : getJsonString msg (str "uid") [] = .ok u
  room_length : 1 ≤ sroomid.length
  uid_length : 1 ≤ u.length
  roomid : stoll (cStr sroomid) = .ok r
  member : s.member r u = some m
  lines : sdpLines msg = .ok (some lines)

/-- A publish or, with its remote uid, a pull that gets as far as the parse. -/
inductive Requests (s : Server) (msg : Json) (sroomid : Str) (r : ℤ) (u : Str)
    (m : RoomMember) (lines : List Str) : Option Str → Prop where
  | publish (hcmd : Commands msg (str "publish")) (hf : s.Finds msg sroomid r u m lines) :
      Requests s msg sroomid r u m lines none
  | pull {remoteUid : Str} (hcmd : Commands msg (str "pullstream"))
      (hf : s.Finds msg sroomid r u m lines)
      (hremote : getJsonString msg (str "remote_uid") [] = .ok remoteUid)
      (hlength : 1 ≤ remoteUid.length) (hpeer : (s.member r remoteUid).isSome) :
      Requests s msg sroomid r u m lines (some remoteUid)

/-- The subscription a pull enters before it is answered. -/
def mediaAfterPull (s : Server) (uid : Str) (pull : Option Str) : Media :=
  match pull with
  | none => s.media
  | some remoteUid => s.media.addSubscriber uid remoteUid

/-- A member after a request of its own was answered. -/
def servedMember (m : RoomMember) (offerSdp answerSdp : SessionDescription)
    (port : UInt32) (udp : UdpId) : RoomMember :=
  { m with offerSdp, answerSdp := some answerSdp }.startRecv
    { ip := str "0.0.0.0", port } udp

/-- The state after the parse: the member's offer, and the subscription that a
pull enters before it. -/
def afterParse (s : Server) (r : ℤ) (u : Str) (m : RoomMember) (offerSdp : SessionDescription)
    (pull : Option Str) : Server :=
  { s with media := s.mediaAfterPull u pull }.setMember r u { m with offerSdp }

/-- The offer a pull is answered from. -/
def peerOffer (s : Server) (r : ℤ) (u : Str) (offerSdp : SessionDescription) :
    Option Str → Option SessionDescription
  | none => none
  | some t => if t = u then some offerSdp else (s.member r t).map (·.offerSdp)

def replyCmd : Option Str → Str
  | none => str "resp-publish"
  | some _ => str "resp-pullstream"

def answerOptions : Option Str → RTCOfferAnswerOptions
  | none => publishOptions
  | some _ => pullOptions

variable {env : Env} {s s' : Server} {c : ConnId} {msg : Json} {rnd : MessageOracle}
  {effects : List Effect} {sroomid : Str} {r : ℤ} {u : Str} {m : RoomMember}
  {lines : List Str} {pull : Option Str}

theorem Requests.finds (h : s.Requests msg sroomid r u m lines pull) :
    s.Finds msg sroomid r u m lines := by
  cases h with
  | publish _ hf => exact hf
  | pull _ hf => exact hf

theorem names_unique {msg : Json} {r r' : ℤ} {u u' : Str} (h : Names msg r u)
    (h' : Names msg r' u') : r' = r ∧ u' = u := by
  obtain ⟨sroomid, h1, h2, h3⟩ := h
  obtain ⟨sroomid', h1', h2', h3'⟩ := h'
  rw [h1] at h1'
  cases h1'
  rw [h2] at h2'
  rw [h3] at h3'
  exact ⟨(Except.ok.inj h2').symm, (Except.ok.inj h3').symm⟩

/-- A join is neither a publish nor a pull. -/
theorem not_request_of_join (hjoin : Commands msg (str "join")) :
    ¬ (Commands msg (str "publish") ∨ Commands msg (str "pullstream")) := by
  rintro (hcmd | hcmd) <;> rw [Commands, hjoin] at hcmd <;> exact absurd hcmd (by decide)

theorem Finds.names (h : s.Finds msg sroomid r u m lines) : Names msg r u :=
  ⟨sroomid, h.room, h.roomid, h.uid⟩

/-- Who is pulled from is in the room. -/
theorem Requests.peer (h : s.Requests msg sroomid r u m lines pull) :
    ∀ t ∈ pull, (s.member r t).isSome := by
  rintro t ⟨⟩
  cases h with
  | pull _ _ _ _ hpeer => exact hpeer

theorem handle_publish (hcmd : Commands msg (str "publish")) :
    s.handle env msg c rnd = s.handlePublish env msg c rnd := by
  rw [Commands] at hcmd
  simp only [handle, hcmd, bind, Except.bind, show str "publish" ≠ str "join" by decide,
    if_true, if_false]

theorem handle_pull (hcmd : Commands msg (str "pullstream")) :
    s.handle env msg c rnd = s.handlePull env msg c rnd := by
  rw [Commands] at hcmd
  simp only [handle, hcmd, bind, Except.bind, show str "pullstream" ≠ str "join" by decide,
    show str "pullstream" ≠ str "publish" by decide, if_true, if_false]

/-- A command is a join, or one of the two requests, or none that the server has. -/
theorem handle_dispatch {cmd : Str} (hcmd : Commands msg cmd) :
    cmd = str "join" ∧ s.handle env msg c rnd = s.handleJoin msg c rnd.order ∨
      (Commands msg (str "publish") ∨ Commands msg (str "pullstream")) ∨
      s.handle env msg c rnd = .ok (s, []) := by
  by_cases hjoin : cmd = str "join"
  · subst hjoin
    rw [Commands] at hcmd
    refine Or.inl ⟨rfl, ?_⟩
    rw [handle, hcmd]
    rfl
  by_cases hpublish : cmd = str "publish"
  · exact Or.inr (Or.inl (Or.inl (hpublish ▸ hcmd)))
  by_cases hpull : cmd = str "pullstream"
  · exact Or.inr (Or.inl (Or.inr (hpull ▸ hcmd)))
  · rw [Commands] at hcmd
    refine Or.inr (Or.inr ?_)
    simp only [handle, hcmd, bind, Except.bind, hjoin, hpublish, hpull, if_false, pure, Except.pure]

/-- **What follows the parse**: of a rejected offer a publish makes nothing more,
a pull goes on. -/
theorem handle_eq (h : s.Requests msg sroomid r u m lines pull) :
    s.handle env msg c rnd = m.offerSdp.parseSdp lines >>= fun p =>
      if p.1 = false ∧ pull = none then .ok (s.afterParse r u m p.2 pull, [])
      else (s.afterParse r u m p.2 pull).serve env c (replyCmd pull) sroomid r
        { m with offerSdp := p.2 } u (s.peerOffer r u p.2 pull) (answerOptions pull) rnd := by
  have hf := h.finds
  have hroom : ¬ (sroomid.length < 1 ∨ u.length < 1) := by
    have := hf.room_length
    have := hf.uid_length
    omega
  cases h with
  | publish hcmd =>
      rw [handle_publish hcmd]
      simp only [handlePublish, hf.room, hf.uid, hf.roomid, hf.member, hf.lines, hroom, bind,
        Except.bind, pure, Except.pure, if_false]
      cases m.offerSdp.parseSdp lines with
      | error e => rfl
      | ok p =>
          obtain ⟨flag, offerSdp⟩ := p
          cases flag <;> rfl
  | @pull remoteUid hcmd _ hremote hlength hpeer =>
      obtain ⟨peer, hpeer⟩ := Option.isSome_iff_exists.mp hpeer
      have hroom' : ¬ (sroomid.length < 1 ∨ u.length < 1 ∨ remoteUid.length < 1) := by omega
      rw [handle_pull hcmd]
      simp only [handlePull, hf.room, hf.uid, hremote, hf.roomid, hf.member, hpeer, hf.lines,
        hroom', bind, Except.bind, pure, Except.pure, if_false]
      cases m.offerSdp.parseSdp lines with
      | error e => rfl
      | ok p =>
          obtain ⟨flag, offerSdp⟩ := p
          by_cases hself : remoteUid = u
          · subst hself
            simp [peerOffer, afterParse, mediaAfterPull, replyCmd, answerOptions]
          · simp [peerOffer, afterParse, mediaAfterPull, replyCmd, answerOptions, hself, hpeer]

/-- A check before the parse that ends in a fault. -/
def FailsCheck (msg : Json) (e : Fault) : Prop :=
  (∃ item, getJsonString msg item [] = .error e) ∨
    (∃ sroomid, NamesRoom msg sroomid ∧ stoll (cStr sroomid) = .error e) ∨ sdpLines msg = .error e

theorem handlePublish_cases {x : Result (Server × List Effect)}
    (hcmd : Commands msg (str "publish")) (h : s.handlePublish env msg c rnd = x) :
    (∃ e, x = .error e ∧ FailsCheck msg e) ∨ x = .ok (s, []) ∨
      ∃ sroomid r u m lines, s.Requests msg sroomid r u m lines none := by
  unfold handlePublish at h
  rcases bind_cases h with ⟨e, hroom, rfl⟩ | ⟨sroomid, hroom, h⟩
  · exact Or.inl ⟨e, rfl, Or.inl ⟨_, hroom⟩⟩
  rcases bind_cases h with ⟨e, huid, rfl⟩ | ⟨uid, huid, h⟩
  · exact Or.inl ⟨e, rfl, Or.inl ⟨_, huid⟩⟩
  split at h
  · exact Or.inr (Or.inl h.symm)
  · next hlen =>
    rcases bind_cases h with ⟨e, hid, rfl⟩ | ⟨roomid, hid, h⟩
    · have hnames : NamesRoom msg sroomid :=
        ⟨hroom, by omega, ⟨uid, huid, by omega⟩, Or.inr (Or.inl hcmd)⟩
      exact Or.inl ⟨e, rfl, Or.inr (Or.inl ⟨sroomid, hnames, hid⟩)⟩
    split at h
    · next m hmem =>
        rcases bind_cases h with ⟨e, hlines, rfl⟩ | ⟨found, hlines, h⟩
        · exact Or.inl ⟨e, rfl, Or.inr (Or.inr hlines)⟩
        split at h
        · next vecs =>
            exact Or.inr (Or.inr ⟨sroomid, roomid, uid, m, vecs, .publish hcmd
              ⟨hroom, huid, by omega, by omega, hid, hmem, hlines⟩⟩)
        · exact Or.inr (Or.inl h.symm)
    · exact Or.inr (Or.inl h.symm)

theorem handlePull_cases {x : Result (Server × List Effect)}
    (hcmd : Commands msg (str "pullstream")) (h : s.handlePull env msg c rnd = x) :
    (∃ e, x = .error e ∧ FailsCheck msg e) ∨ x = .ok (s, []) ∨
      ∃ sroomid r u m lines remoteUid, s.Requests msg sroomid r u m lines (some remoteUid) := by
  unfold handlePull at h
  rcases bind_cases h with ⟨e, hroom, rfl⟩ | ⟨sroomid, hroom, h⟩
  · exact Or.inl ⟨e, rfl, Or.inl ⟨_, hroom⟩⟩
  rcases bind_cases h with ⟨e, huid, rfl⟩ | ⟨uid, huid, h⟩
  · exact Or.inl ⟨e, rfl, Or.inl ⟨_, huid⟩⟩
  rcases bind_cases h with ⟨e, hremote, rfl⟩ | ⟨remoteUid, hremote, h⟩
  · exact Or.inl ⟨e, rfl, Or.inl ⟨_, hremote⟩⟩
  split at h
  · exact Or.inr (Or.inl h.symm)
  · next hlen =>
    rcases bind_cases h with ⟨e, hid, rfl⟩ | ⟨roomid, hid, h⟩
    · have hnames : NamesRoom msg sroomid :=
        ⟨hroom, by omega, ⟨uid, huid, by omega⟩,
          Or.inr (Or.inr ⟨hcmd, remoteUid, hremote, by omega⟩)⟩
      exact Or.inl ⟨e, rfl, Or.inr (Or.inl ⟨sroomid, hnames, hid⟩)⟩
    split at h
    · next m hmem =>
        split at h
        · next peer hpeer =>
            rcases bind_cases h with ⟨e, hlines, rfl⟩ | ⟨found, hlines, h⟩
            · exact Or.inl ⟨e, rfl, Or.inr (Or.inr hlines)⟩
            split at h
            · next vecs =>
                exact Or.inr (Or.inr ⟨sroomid, roomid, uid, m, vecs, remoteUid, .pull hcmd
                  ⟨hroom, huid, by omega, by omega, hid, hmem, hlines⟩ hremote (by omega)
                  (by rw [hpeer]; rfl)⟩)
            · exact Or.inr (Or.inl h.symm)
        · exact Or.inr (Or.inl h.symm)
    · exact Or.inr (Or.inl h.symm)

/-- **Before the parse**: a publish or a pull goes wrong in a check, comes to
nothing, or is a request. -/
theorem handle_cases {x : Result (Server × List Effect)}
    (hcmd : Commands msg (str "publish") ∨ Commands msg (str "pullstream"))
    (h : s.handle env msg c rnd = x) :
    (∃ e, x = .error e ∧ FailsCheck msg e) ∨ x = .ok (s, []) ∨
      ∃ sroomid r u m lines pull, s.Requests msg sroomid r u m lines pull := by
  rcases hcmd with hcmd | hcmd
  · rw [handle_publish hcmd] at h
    rcases handlePublish_cases hcmd h with hx | hx | ⟨sroomid, r, u, m, lines, hreq⟩
    · exact Or.inl hx
    · exact Or.inr (Or.inl hx)
    · exact Or.inr (Or.inr ⟨sroomid, r, u, m, lines, none, hreq⟩)
  · rw [handle_pull hcmd] at h
    rcases handlePull_cases hcmd h with hx | hx | ⟨sroomid, r, u, m, lines, remoteUid, hreq⟩
    · exact Or.inl hx
    · exact Or.inr (Or.inl hx)
    · exact Or.inr (Or.inr ⟨sroomid, r, u, m, lines, some remoteUid, hreq⟩)

/-- A publish or a pull that does not get as far as the parse changes nothing. -/
theorem handle_early (hcmd : Commands msg (str "publish") ∨ Commands msg (str "pullstream"))
    (h : s.handle env msg c rnd = .ok (s', effects)) :
    s' = s ∧ effects = [] ∨ ∃ sroomid r u m lines pull,
      s.Requests msg sroomid r u m lines pull := by
  rcases handle_cases hcmd h with ⟨e, he, -⟩ | hx | hreq
  · cases he
  · cases hx
    exact Or.inl ⟨rfl, rfl⟩
  · exact Or.inr hreq

/-- A request that is not turned down after the parse asks for a port. -/
theorem Requests.admitted (h : s.Requests msg sroomid r u m lines pull) {flag : Bool}
    {offerSdp : SessionDescription} (hparse : m.offerSdp.parseSdp lines = .ok (flag, offerSdp))
    (hgo : ¬ (flag = false ∧ pull = none)) : s.Admitted msg r u := by
  have hf := h.finds
  refine ⟨sroomid, m, lines, hf.room, hf.uid, hf.room_length, hf.uid_length, hf.roomid, hf.member,
    hf.lines, ?_⟩
  cases h with
  | publish hcmd =>
      have hflag : flag = true := by
        rw [← Bool.not_eq_false]
        exact fun hfalse => hgo ⟨hfalse, rfl⟩
      exact Or.inl ⟨hcmd, offerSdp, by rw [hparse, hflag]⟩
  | pull hcmd _ hremote hlength hpeer => exact Or.inr ⟨hcmd, _, hremote, hlength, hpeer⟩

/-- And every one that does is such a request. -/
theorem Admitted.requests (h : s.Admitted msg r u) : ∃ sroomid m lines pull,
    s.Requests msg sroomid r u m lines pull ∧
      (pull = none → ∃ offerSdp, m.offerSdp.parseSdp lines = .ok (true, offerSdp)) := by
  obtain ⟨sroomid, m, lines, hroom, huid, hlen, hlen', hid, hmem, hlines, hacc⟩ := h
  have hf : s.Finds msg sroomid r u m lines := ⟨hroom, huid, hlen, hlen', hid, hmem, hlines⟩
  rcases hacc with ⟨hcmd, hparse⟩ | ⟨hcmd, remoteUid, hremote, hlength, hpeer⟩
  · exact ⟨sroomid, m, lines, none, .publish hcmd hf, fun _ => hparse⟩
  · exact ⟨sroomid, m, lines, some remoteUid, .pull hcmd hf hremote hlength hpeer, nofun⟩

/-- The answer to a request, from the member's offer after the parse. -/
def answerOf (env : Env) (s : Server) (r : ℤ) (u : Str) (offerSdp : SessionDescription)
    (pull : Option Str) (port : UInt32) (rnd : IceCredentials) : SessionDescription :=
  answerSdp env offerSdp (s.peerOffer r u offerSdp pull) (answerOptions pull)
    { ip := env.ipstr, port } rnd

/-- The cases of a request that is parsed and returns. -/
inductive RequestOutcome (env : Env) (s : Server) (c : ConnId) (rnd : IceCredentials)
    (sroomid : Str) (r : ℤ) (u : Str) (m : RoomMember) (lines : List Str) :
    Option Str → Server → List Effect → Prop where
  | rejected {offerSdp : SessionDescription}
      (hparse : m.offerSdp.parseSdp lines = .ok (false, offerSdp)) :
      RequestOutcome env s c rnd sroomid r u m lines none (s.afterParse r u m offerSdp none) []
  | answered {flag : Bool} {offerSdp : SessionDescription} {pull : Option Str} {port : UInt32}
      {portMgr : UdpPortManager} (hparse : m.offerSdp.parseSdp lines = .ok (flag, offerSdp))
      (hgo : ¬ (flag = false ∧ pull = none))
      (halloc : s.portMgr.allocatePort = .ok (port, portMgr)) :
      RequestOutcome env s c rnd sroomid r u m lines pull
        { (s.afterParse r u m offerSdp pull).setMember r u
            (servedMember m offerSdp (s.answerOf env r u offerSdp pull port rnd) port s.nextUdp) with
          portMgr, nextUdp := s.nextUdp + 1 }
        [.portAllocated port, .reply c (sdpReply (replyCmd pull) sroomid u
          ((s.answerOf env r u offerSdp pull port rnd).toString env))]

theorem handle_outcome_of_requests (h : s.Requests msg sroomid r u m lines pull)
    (hok : s.handle env msg c rnd = .ok (s', effects)) :
    RequestOutcome env s c rnd sroomid r u m lines pull s' effects := by
  rw [handle_eq h] at hok
  obtain ⟨⟨flag, offerSdp⟩, hparse, hok⟩ := bind_ok hok
  split at hok
  · next hrej =>
      obtain ⟨rfl, rfl⟩ := hrej
      cases hok
      exact .rejected hparse
  · next hgo =>
      obtain ⟨⟨port, portMgr⟩, halloc, hok⟩ := bind_ok hok
      cases hok
      exact .answered hparse hgo halloc

/-- A publish or a pull that has an effect is a request that was parsed. -/
theorem requests_of_effect
    (hcmd : Commands msg (str "publish") ∨ Commands msg (str "pullstream"))
    (hn : Names msg r u) (hlines : sdpLines msg = .ok (some lines)) (hne : effects ≠ [])
    (hok : s.handle env msg c rnd = .ok (s', effects)) :
    ∃ sroomid m pull, s.Requests msg sroomid r u m lines pull := by
  rcases handle_early hcmd hok with ⟨-, rfl⟩ | ⟨sroomid, r', u', m, lines', pull, hreq⟩
  · exact absurd rfl hne
  · have hf := hreq.finds
    obtain ⟨rfl, rfl⟩ := names_unique hn hf.names
    rw [hf.lines] at hlines
    cases hlines
    exact ⟨sroomid, m, pull, hreq⟩

end Server

end JuanSfu
