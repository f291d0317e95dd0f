import JuanSfu.Lib.Lts
import JuanSfu.Signaling.Requests

/-!
# The running server

`juan_sfu.cpp` makes the singletons and starts one event loop, so the server
is a transition system whose steps are the loop's callbacks: a message or a
close of a connection, a datagram for a member, a timer of a member's TLS
adapter. The label of a step is the event with the effects it had.

An event whose callback faults is not a step: the run ends before it. What
each callback does is said once, by the cases of `Outcome`; every invariant of
the server is proved against those.
-/

namespace JuanSfu

/-- The port range of the configuration; `JuanSfu::init` asserts the last two
conditions. Port 0 is how `allocate_port` says that it has none. -/
structure Config where
  portStart : Int32
  portEnd : Int32
  portStep : Int32
  start_pos : 0 < portStart.toInt
  end_gt : portStart.toInt < portEnd.toInt
  step_pos : 0 < portStep.toInt

def Config.ports (cfg : Config) : List UInt32 :=
  UdpPortManager.initialPorts cfg.portStart cfg.portEnd cfg.portStep

inductive Event where
  | message (c : ConnId) (msg : Json) (rnd : MessageOracle)
  | close (c : ConnId) (first : Option Str)
  | datagram (roomid : ℤ) (uid : Str) (addr : IpAddress) (data : Bytes) (o : Oracle)
  | adapter (roomid : ℤ) (uid : Str) (addr : IpAddress) (acts : List AdapterAct)

def Event.isClose : Event → Bool
  | .close _ _ => true
  | _ => false

namespace Server

def initial (cfg : Config) : Server where
  portMgr := UdpPortManager.init {} cfg.portStart cfg.portEnd cfg.portStep
  media := { transports := fun _ => { udp := 0, addr := ⟨0, 0⟩ } }

/-- A datagram arrives where a receiver is running. The socket of a receiver that a
second request has dropped is not here: the source calls that receiver after it was
freed. -/
def receive (env : Env) (s : Server) (roomid : ℤ) (uid : Str) (addr : IpAddress)
    (data : Bytes) (o : Oracle) : Result (Server × List Effect) :=
  match s.member roomid uid with
  | none => .ok (s, [])
  | some m =>
      match m.udpReceiver with
      | none => .ok (s, [])
      | some r => do
          let (media, m, sent) ← m.onUdpReceive env s.media r.udp addr data o
          return ({ s.setMember roomid uid m with media },
            sent.map (.member roomid uid))

def timer (s : Server) (roomid : ℤ) (uid : Str) (addr : IpAddress)
    (acts : List AdapterAct) : Server × List Effect :=
  match s.member roomid uid with
  | none => (s, [])
  | some m =>
      let (m, sent) := m.onAdapter addr acts
      (s.setMember roomid uid m, sent.map (.member roomid uid))

def exec (env : Env) (s : Server) : Event → Result (Server × List Effect)
  | .message c msg rnd => s.handle env msg c rnd
  | .close c first => s.remove c first
  | .datagram roomid uid addr data o => s.receive env roomid uid addr data o
  | .adapter roomid uid addr acts => .ok (s.timer roomid uid addr acts)

/-- The order in which a map is met is not the event's to choose freely. -/
def Allowed (s : Server) : Event → Prop
  | .message _ msg rnd => s.ListsMembers msg rnd.order
  | .close c first => s.MeetsFirst c first
  | _ => True

instance (s : Server) : ∀ e : Event, Decidable (s.Allowed e)
  | .message _ msg rnd => inferInstanceAs (Decidable (s.ListsMembers msg rnd.order))
  | .close c first => inferInstanceAs (Decidable (s.MeetsFirst c first))
  | .datagram .. | .adapter .. => inferInstanceAs (Decidable True)

def system (env : Env) (cfg : Config) : Lts.System Server (Event × List Effect) where
  init s := s = initial cfg
  step s l s' := s.Allowed l.1 ∧ exec env s l.1 = .ok (s', l.2)

/-! ## Lookups after an update -/

variable (s : Server)

@[simp] theorem findRoom_setMember (r r' : ℤ) (u : Str) (m : RoomMember) :
    (s.setMember r u m).findRoom r' =
      if r' = r then
        some { (s.findRoom r).getD {} with
          members := ((s.findRoom r).getD {}).members.set u m }
      else s.findRoom r' := by
  simp only [setMember, findRoom, UnorderedMap.lookup_set_ite]

theorem member_setMember (r r' : ℤ) (u u' : Str) (m : RoomMember) :
    (s.setMember r u m).member r' u' =
      if r' = r ∧ u' = u then some m else s.member r' u' := by
  unfold member
  rw [findRoom_setMember]
  by_cases hr : r' = r
  · subst hr
    by_cases hu : u' = u
    · simp [hu]
    · cases hroom : s.findRoom r' <;> simp [hu]
  · simp [hr]

theorem connectionOf_setMember (r r' : ℤ) (u u' : Str) (m : RoomMember) :
    (s.setMember r u m).connectionOf r' u' = s.connectionOf r' u' := by
  unfold connectionOf
  rw [findRoom_setMember]
  by_cases hr : r' = r
  · subst hr
    cases s.findRoom r' <;> simp
  · simp [hr]

theorem member_enter (r r' : ℤ) (u u' : Str) (c : ConnId) :
    (s.enter r u c).member r' u' =
      if r' = r ∧ u' = u then some { uid := u } else s.member r' u' := by
  unfold member
  simp only [enter, findRoom, UnorderedMap.lookup_set_ite]
  by_cases hr : r' = r
  · subst hr
    by_cases hu : u' = u
    · simp [hu]
    · cases s.allRooms.lookup r' <;> simp [hu]
  · simp [hr]

theorem connectionOf_enter (r r' : ℤ) (u u' : Str) (c : ConnId) :
    (s.enter r u c).connectionOf r' u' =
      if r' = r ∧ u' = u then some c else s.connectionOf r' u' := by
  unfold connectionOf
  simp only [enter, findRoom, UnorderedMap.lookup_set_ite]
  by_cases hr : r' = r
  · subst hr
    by_cases hu : u' = u
    · simp [hu]
    · cases s.allRooms.lookup r' <;> simp [hu]
  · simp [hr]

/-- An empty room has nobody in it, as a missing one. -/
theorem member_createRoom {r : ℤ} (h : s.findRoom r = none) (r' : ℤ) (u : Str) :
    (s.createRoom r).member r' u = s.member r' u := by
  unfold member createRoom findRoom at *
  rw [UnorderedMap.lookup_insert_ite]
  by_cases hr : r' = r
  · subst hr
    simp [h]
  · rw [if_neg hr]

theorem connectionOf_createRoom {r : ℤ} (h : s.findRoom r = none) (r' : ℤ) (u : Str) :
    (s.createRoom r).connectionOf r' u = s.connectionOf r' u := by
  unfold connectionOf createRoom findRoom at *
  rw [UnorderedMap.lookup_insert_ite]
  by_cases hr : r' = r
  · subst hr
    simp [h]
  · rw [if_neg hr]

/-- All members, with the room and the uid each is found under. -/
def allMembers : List (ℤ × Str × RoomMember) :=
  s.allRooms.entries.flatMap fun room =>
    room.2.members.entries.map fun e => (room.1, e.1, e.2)

theorem mem_allMembers {r : ℤ} {u : Str} {m : RoomMember} (h : s.member r u = some m) :
    (r, u, m) ∈ s.allMembers := by
  obtain ⟨room, hroom, hm⟩ := Option.bind_eq_some_iff.mp h
  refine List.mem_flatMap.mpr ⟨⟨r, room⟩, UnorderedMap.mem_entries_iff.mpr hroom, ?_⟩
  exact List.mem_map.mpr ⟨⟨u, m⟩, UnorderedMap.mem_entries_iff.mpr hm, rfl⟩

end Server

/-! ## What one event does -/

namespace Server

/-- `s'` has `m` in the place of one member and all the others of `s`. -/
def SetsMember (s s' : Server) (r : ℤ) (u : Str) (m : Option RoomMember) : Prop :=
  ∀ r' u', s'.member r' u' = if r' = r ∧ u' = u then m else s.member r' u'

def SetsConnection (s s' : Server) (r : ℤ) (u : Str) (c : Option ConnId) : Prop :=
  ∀ r' u', s'.connectionOf r' u' = if r' = r ∧ u' = u then c else s.connectionOf r' u'

structure SameMembers (s s' : Server) : Prop where
  member (r : ℤ) (u : Str) : s'.member r u = s.member r u
  connectionOf (r : ℤ) (u : Str) : s'.connectionOf r u = s.connectionOf r u

structure SameConnections (s s' : Server) : Prop where
  connectionOf (r : ℤ) (u : Str) : s'.connectionOf r u = s.connectionOf r u
  connections : s'.connections = s.connections

structure SameObjects (s s' : Server) : Prop where
  portMgr : s'.portMgr = s.portMgr
  media : s'.media = s.media
  nextUdp : s'.nextUdp = s.nextUdp

/-- What stopping a member's receiver does outside. -/
def stopEffects (m : RoomMember) : List Effect :=
  match m.udpReceiver with
  | none => []
  | some r => [.udpClosed r.udp, .portRecycled m.addr.port]

/-- `uid` is in a room with its connection or not at all. -/
def Paired (s : Server) : Prop :=
  ∀ r u, (s.member r u).isSome ↔ (s.connectionOf r u).isSome

/-- A message or a timer may come to nothing, a datagram only if no receiver
is running for it. -/
def MayIgnore (s : Server) : Event → Prop
  | .close _ _ => False
  | .datagram r u _ _ _ => ∀ m, s.member r u = some m → m.udpReceiver = none
  | _ => True

/-- **The cases of one event**, by what it does to the lookups. -/
inductive Outcome (env : Env) (s : Server) : Event → Server → List Effect → Prop where
  | quiet {e : Event} {s' : Server} (he : s.MayIgnore e) (hm : SameMembers s s')
      (hc : s'.connections = s.connections) (ho : SameObjects s s') :
      Outcome env s e s' []
  | joined {c : ConnId} {msg : Json} {rnd : MessageOracle} {s' : Server} {r : ℤ}
      {u : Str} {reply : Json}
      (hcmd : getJsonString msg (str "cmd") [] = .ok (str "join"))
      (hn : Names msg r u) (hnew : s.member r u = none)
      (hm : SetsMember s s' r u (some { uid := u }))
      (hof : SetsConnection s s' r u (some c))
      (hc : s'.connections = s.connections.set c r) (ho : SameObjects s s') :
      Outcome env s (.message c msg rnd) s' [.reply c reply]
  /-- A publish whose offer is rejected. -/
  | offered {c : ConnId} {msg : Json} {rnd : MessageOracle} {s' : Server} {r : ℤ}
      {u : Str} {m : RoomMember} {offerSdp : SessionDescription} (hn : Names msg r u)
      (hmem : s.member r u = some m)
      (hm : SetsMember s s' r u (some { m with offerSdp }))
      (hc : SameConnections s s') (ho : SameObjects s s') :
      Outcome env s (.message c msg rnd) s' []
  /-- A publish or, with its remote uid, a pull that is answered. -/
  | served {c : ConnId} {msg : Json} {rnd : MessageOracle} {s' : Server} {r : ℤ}
      {u : Str} {m : RoomMember} {offerSdp answerSdp : SessionDescription}
      {pull : Option Str} {port : UInt32} {reply : Json}
      (hadm : s.Admitted msg r u) (hn : Names msg r u) (hmem : s.member r u = some m)
      (hpull : ∀ t ∈ pull, (s.member r t).isSome)
      (halloc : s.portMgr.allocatePort = .ok (port, s'.portMgr))
      (hm : SetsMember s s' r u
        (some (servedMember m offerSdp answerSdp port s.nextUdp)))
      (hc : SameConnections s s') (hmedia : s'.media = s.mediaAfterPull u pull)
      (hnext : s'.nextUdp = s.nextUdp + 1) :
      Outcome env s (.message c msg rnd) s' [.portAllocated port, .reply c reply]
  /-- The connection has joined no room since it was last removed. -/
  | unknown {c : ConnId} {first : Option Str} (hnone : s.connections.lookup c = none) :
      Outcome env s (.close c first) s []
  /-- The connection was in no entry of the room it joined last. -/
  | unlisted {c : ConnId} {s' : Server} {r : ℤ}
      (hlast : s.connections.lookup c = some r)
      (hnone : ∀ u, s.connectionOf r u ≠ some c) (hm : SameMembers s s')
      (hc : s'.connections = s.connections.erase c) (ho : SameObjects s s') :
      Outcome env s (.close c none) s' []
  | parted {c : ConnId} {s' : Server} {r : ℤ} {u : Str} {m : RoomMember}
      (hlast : s.connections.lookup c = some r) (hentry : s.connectionOf r u = some c)
      (hmem : s.member r u = some m) (hm : SetsMember s s' r u none)
      (hof : SetsConnection s s' r u none) (hc : s'.connections = s.connections.erase c)
      (hport : match m.udpReceiver with
        | none => s'.portMgr = s.portMgr
        | some _ => s.portMgr.recyclePort m.addr.port = .ok s'.portMgr)
      (hmedia : s'.media = s.media.removeSubscriber m.uid)
      (hnext : s'.nextUdp = s.nextUdp) :
      Outcome env s (.close c (some u)) s' (stopEffects m)
  | received {r : ℤ} {u : Str} {addr : IpAddress} {data : Bytes} {o : Oracle}
      {s' : Server} {m m' : RoomMember} {rcv : UdpReceiver} {sent : List MemberEffect}
      (hmem : s.member r u = some m) (hrcv : m.udpReceiver = some rcv)
      (hrecv : m.onUdpReceive env s.media rcv.udp addr data o = .ok (s'.media, m', sent))
      (hm : SetsMember s s' r u (some m')) (hc : SameConnections s s')
      (hport : s'.portMgr = s.portMgr) (hnext : s'.nextUdp = s.nextUdp) :
      Outcome env s (.datagram r u addr data o) s' (sent.map (.member r u))
  | acted {r : ℤ} {u : Str} {addr : IpAddress} {acts : List AdapterAct} {s' : Server}
      {m : RoomMember} (hmem : s.member r u = some m)
      (hm : SetsMember s s' r u (some (m.onAdapter addr acts).1))
      (hc : SameConnections s s') (ho : SameObjects s s') :
      Outcome env s (.adapter r u addr acts) s'
        ((m.onAdapter addr acts).2.map (.member r u))

theorem Outcome.same (env : Env) (s : Server) {e : Event} (he : s.MayIgnore e) :
    Outcome env s e s [] :=
  .quiet he ⟨fun _ _ => rfl, fun _ _ => rfl⟩ rfl ⟨rfl, rfl, rfl⟩

/-! ### The handlers, case by case -/

variable {env : Env} {s s' : Server} {c : ConnId} {msg : Json} {rnd : MessageOracle}
  {effects : List Effect}

theorem handleJoin_outcome (hcmd : getJsonString msg (str "cmd") [] = .ok (str "join"))
    (h : s.handleJoin msg c rnd.order = .ok (s', effects)) :
    Outcome env s (.message c msg rnd) s' effects := by
  unfold handleJoin at h
  obtain ⟨sroomid, hroomid, h⟩ := bind_ok h
  obtain ⟨uid, huid, h⟩ := bind_ok h
  split at h
  · cases h
    exact .same env s trivial
  · obtain ⟨roomid, hid, h⟩ := bind_ok h
    dsimp only at h
    -- the room, made if it was missing: no lookup sees the difference
    generalize hroom : (if (s.findRoom roomid).isNone then s.createRoom roomid else s) = s₁
      at h
    have hsame : SameMembers s s₁ ∧ s₁.connections = s.connections ∧
        SameObjects s s₁ := by
      subst hroom
      split
      · next hnone =>
          rw [Option.isNone_iff_eq_none] at hnone
          exact ⟨⟨s.member_createRoom hnone, s.connectionOf_createRoom hnone⟩, rfl,
            rfl, rfl, rfl⟩
      · exact ⟨⟨fun _ _ => rfl, fun _ _ => rfl⟩, rfl, rfl, rfl, rfl⟩
    obtain ⟨hm, hc, ho⟩ := hsame
    split at h
    · cases h
      exact .quiet trivial hm hc ho
    · next hnew =>
        cases h
        rw [Bool.not_eq_true, Option.isSome_eq_false_iff, Option.isNone_iff_eq_none] at hnew
        refine .joined hcmd ⟨sroomid, hroomid, hid, huid⟩ ?_ ?_ ?_ ?_ ?_
        · rw [← hm.member, hnew]
        · intro r' u'
          rw [member_enter, hm.member]
        · intro r' u'
          rw [connectionOf_enter, hm.connectionOf]
        · rw [← hc]
          rfl
        · exact ⟨ho.portMgr, ho.media, ho.nextUdp⟩

theorem SetsMember.trans {s₁ : Server} {r : ℤ} {u : Str} {m₁ m : Option RoomMember}
    (h₁ : SetsMember s s₁ r u m₁) (h : SetsMember s₁ s' r u m) :
    SetsMember s s' r u m := by
  intro r' u'
  rw [h, h₁]
  split <;> rfl

theorem setsMember_setMember (s : Server) (r : ℤ) (u : Str) (m : RoomMember) :
    SetsMember s (s.setMember r u m) r u (some m) :=
  fun r' u' => s.member_setMember r r' u u' m

theorem sameConnections_setMember (s : Server) (r : ℤ) (u : Str) (m : RoomMember) :
    SameConnections s (s.setMember r u m) :=
  ⟨fun r' u' => s.connectionOf_setMember r r' u u' m, rfl⟩

/-- The member is written twice, with its new offer and with its answer. -/
theorem setsMember_served (s : Server) (r : ℤ) (u : Str) (m m' : RoomMember)
    (offerSdp : SessionDescription) (pull : Option Str) :
    SetsMember s ((s.afterParse r u m offerSdp pull).setMember r u m') r u (some m') :=
  (setsMember_setMember s r u { m with offerSdp }).trans
    (setsMember_setMember (s.afterParse r u m offerSdp pull) r u m')

/-- What both handlers do, once they have parsed the offer. -/
theorem RequestOutcome.outcome {sroomid : Str} {r : ℤ} {u : Str} {m : RoomMember}
    {lines : List Str} {pull : Option Str} (hreq : s.Requests msg sroomid r u m lines pull)
    (h : RequestOutcome env s c rnd sroomid r u m lines pull s' effects) :
    Outcome env s (.message c msg rnd) s' effects := by
  have hf := hreq.finds
  cases h with
  | @rejected offerSdp hparse =>
      exact .offered hf.names hf.member (setsMember_setMember s r u { m with offerSdp })
        (sameConnections_setMember s r u { m with offerSdp }) ⟨rfl, rfl, rfl⟩
  | @answered flag offerSdp pull port portMgr hparse hgo halloc =>
      refine .served (hreq.admitted hparse hgo) hf.names hf.member hreq.peer halloc
        (s.setsMember_served r u m _ offerSdp pull) ?_ rfl rfl
      refine ⟨?_, rfl⟩
      intro r' u'
      exact (connectionOf_setMember ..).trans (s.connectionOf_setMember r r' u u' _)

theorem handle_outcome (h : s.handle env msg c rnd = .ok (s', effects)) :
    Outcome env s (.message c msg rnd) s' effects := by
  obtain ⟨cmd, hcmd, -⟩ := bind_ok h
  rcases handle_dispatch hcmd with ⟨rfl, hjoin⟩ | hreq | hother
  · rw [hjoin] at h
    exact handleJoin_outcome hcmd h
  · rcases handle_early hreq h with ⟨rfl, rfl⟩ | ⟨sroomid, r, u, m, lines, pull, hreq⟩
    · exact .same env s' trivial
    · exact (handle_outcome_of_requests hreq h).outcome hreq
  · rw [hother] at h
    cases h
    exact .same env s trivial

/-- What an admitted request ends with, if nothing stops it. -/
theorem handle_admitted {r : ℤ} {u : Str} (hadm : s.Admitted msg r u)
    (h : s.handle env msg c rnd = .ok (s', effects)) :
    ∃ m offerSdp answer port reply, s.member r u = some m ∧
      s.portMgr.allocatePort = .ok (port, s'.portMgr) ∧
      effects = [.portAllocated port, .reply c reply] ∧
      SetsMember s s' r u (some (servedMember m offerSdp answer port s.nextUdp)) := by
  obtain ⟨sroomid, m, lines, pull, hreq, hpublish⟩ := hadm.requests
  cases handle_outcome_of_requests hreq h with
  | rejected hparse =>
      -- a publish is admitted with an offer that parses
      obtain ⟨offerSdp, hparse'⟩ := hpublish rfl
      rw [hparse] at hparse'
      cases hparse'
  | @answered flag offerSdp pull port portMgr hparse hgo halloc =>
      exact ⟨m, offerSdp, s.answerOf env r u offerSdp pull port rnd, port, _, hreq.finds.member,
        halloc, rfl, s.setsMember_served r u m _ offerSdp pull⟩

theorem giveBack_stopRecv {m : RoomMember} {pm pm' : UdpPortManager}
    (h : giveBack pm m.stopRecv.1 = .ok (pm', effects)) :
    effects = stopEffects m ∧ (match m.udpReceiver with
      | none => pm' = pm
      | some _ => pm.recyclePort m.addr.port = .ok pm') := by
  unfold giveBack RoomMember.stopRecv at h
  unfold stopEffects
  cases hr : m.udpReceiver with
  | none =>
      rw [hr] at h
      cases h
      exact ⟨rfl, rfl⟩
  | some rcv =>
      rw [hr] at h
      obtain ⟨pm₁, hrec, h⟩ := bind_ok h
      cases h
      exact ⟨rfl, hrec⟩

theorem stopRecv_uid (m : RoomMember) : m.stopRecv.2.uid = m.uid := by
  unfold RoomMember.stopRecv
  cases m.udpReceiver <;> rfl

theorem removeEntry_outcome {r : ℤ} {room : Room} {u : Str} {s₁ : Server}
    (hlast : s.connections.lookup c = some r) (hroom : s.findRoom r = some room)
    (hentry : s.connectionOf r u = some c) (hp : s.Paired)
    (h : s.removeEntry r room u = .ok (s₁, effects)) :
    Outcome env s (.close c (some u))
      { s₁ with connections := s₁.connections.erase c } effects := by
  have hmember : s.member r u = room.members.lookup u := by
    rw [member, hroom, Option.bind_some]
  unfold removeEntry at h
  dsimp only at h
  split at h
  · next hnone =>
      -- a connection without a member: the two maps of a room have the same keys
      have hboth := hp r u
      rw [hmember, hnone, hentry] at hboth
      simp at hboth
  · next m hsome =>
      obtain ⟨⟨portMgr, stopped⟩, hstop, h⟩ := bind_ok h
      obtain ⟨rfl, hport⟩ := giveBack_stopRecv hstop
      cases h
      refine .parted (m := m) hlast hentry (hmember.trans hsome) ?_ ?_ rfl hport ?_ rfl
      · intro r' u'
        unfold member
        simp only [findRoom, UnorderedMap.lookup_set_ite]
        by_cases hr : r' = r
        · subst hr
          rw [findRoom] at hroom
          simp [hroom]
        · simp [hr]
      · intro r' u'
        unfold connectionOf
        simp only [findRoom, UnorderedMap.lookup_set_ite]
        by_cases hr : r' = r
        · subst hr
          rw [findRoom] at hroom
          simp [hroom]
        · simp [hr]
      · simp only [RoomMember.destory, stopRecv_uid]

theorem remove_outcome {first : Option Str} (ha : s.MeetsFirst c first) (hp : s.Paired)
    (h : s.remove c first = .ok (s', effects)) :
    Outcome env s (.close c first) s' effects := by
  unfold remove at h
  split at h
  · next hnone =>
      cases h
      exact .unknown hnone
  · next r hlast =>
      have hmeets := ha r hlast
      obtain ⟨⟨s₁, _⟩, hentry, h⟩ := bind_ok h
      cases h
      unfold removeFirst at hentry
      cases first with
      | none =>
          have heq : s₁ = s ∧ effects = [] := by
            cases hroom : s.findRoom r <;> rw [hroom] at hentry <;> cases hentry <;>
              exact ⟨rfl, rfl⟩
          obtain ⟨rfl, rfl⟩ := heq
          exact .unlisted hlast hmeets ⟨fun _ _ => rfl, fun _ _ => rfl⟩ rfl ⟨rfl, rfl, rfl⟩
      | some u =>
          cases hroom : s.findRoom r with
          | none => simp [connectionOf, hroom] at hmeets
          | some room =>
              rw [hroom] at hentry
              exact removeEntry_outcome hlast hroom hmeets hp hentry

/-- A datagram for a running receiver is given to its member. -/
theorem receive_ok {r : ℤ} {u : Str} {addr : IpAddress} {data : Bytes} {o : Oracle}
    {m : RoomMember} {rcv : UdpReceiver} (hmem : s.member r u = some m)
    (hrcv : m.udpReceiver = some rcv)
    (h : s.receive env r u addr data o = .ok (s', effects)) :
    ∃ m' sent, m.onUdpReceive env s.media rcv.udp addr data o = .ok (s'.media, m', sent) ∧
      effects = sent.map (.member r u) ∧ SetsMember s s' r u (some m') ∧
      SameConnections s s' ∧ s'.portMgr = s.portMgr ∧ s'.nextUdp = s.nextUdp := by
  unfold receive at h
  rw [hmem] at h
  dsimp only at h
  rw [hrcv] at h
  obtain ⟨⟨media, m', sent⟩, hrecv, h⟩ := bind_ok h
  cases h
  exact ⟨m', sent, hrecv, rfl, fun r' u' => s.member_setMember r r' u u' m',
    ⟨fun r' u' => s.connectionOf_setMember r r' u u' m', rfl⟩, rfl, rfl⟩

theorem exec_datagram_ok {r : ℤ} {u : Str} {addr : IpAddress} {data : Bytes} {o : Oracle}
    {m m' : RoomMember} {rcv : UdpReceiver} {media : Media} {sent : List MemberEffect}
    (hmem : s.member r u = some m) (hrcv : m.udpReceiver = some rcv)
    (h : m.onUdpReceive env s.media rcv.udp addr data o = .ok (media, m', sent)) :
    s.exec env (.datagram r u addr data o) =
      .ok ({ s.setMember r u m' with media }, sent.map (.member r u)) := by
  rw [exec, receive, hmem]
  dsimp only
  rw [hrcv]
  dsimp only
  rw [h]
  rfl

/-- A datagram faults where its member does. -/
theorem exec_datagram_error {r : ℤ} {u : Str} {addr : IpAddress} {data : Bytes}
    {o : Oracle} {m : RoomMember} {rcv : UdpReceiver} {fault : Fault}
    (hmem : s.member r u = some m) (hrcv : m.udpReceiver = some rcv) :
    s.exec env (.datagram r u addr data o) = .error fault ↔
      m.onUdpReceive env s.media rcv.udp addr data o = .error fault := by
  rw [exec, receive, hmem]
  dsimp only
  rw [hrcv]
  cases hu : m.onUdpReceive env s.media rcv.udp addr data o <;>
    simp [hu, bind, Except.bind, pure, Except.pure]

theorem receive_outcome {r : ℤ} {u : Str} {addr : IpAddress} {data : Bytes} {o : Oracle}
    (h : s.receive env r u addr data o = .ok (s', effects)) :
    Outcome env s (.datagram r u addr data o) s' effects := by
  cases hmem : s.member r u with
  | none =>
      rw [receive, hmem] at h
      cases h
      refine .same env s ?_
      intro m hm
      rw [hmem] at hm
      cases hm
  | some m =>
      cases hrcv : m.udpReceiver with
      | none =>
          rw [receive, hmem] at h
          dsimp only at h
          rw [hrcv] at h
          cases h
          refine .same env s ?_
          intro m₁ hm₁
          rw [hmem] at hm₁
          cases hm₁
          exact hrcv
      | some rcv =>
          obtain ⟨m', sent, hrecv, rfl, hm, hc, hport, hnext⟩ := receive_ok hmem hrcv h
          exact .received hmem hrcv hrecv hm hc hport hnext

theorem timer_outcome (s : Server) (r : ℤ) (u : Str) (addr : IpAddress)
    (acts : List AdapterAct) :
    Outcome env s (.adapter r u addr acts) (s.timer r u addr acts).1
      (s.timer r u addr acts).2 := by
  unfold timer
  cases hmem : s.member r u with
  | none => exact .same env s trivial
  | some m =>
      exact .acted hmem (setsMember_setMember s r u _)
        (sameConnections_setMember s r u _) ⟨rfl, rfl, rfl⟩

/-- Every event that returns ends in one of the cases. -/
theorem exec_outcome {e : Event} (ha : s.Allowed e) (hp : s.Paired)
    (h : s.exec env e = .ok (s', effects)) : Outcome env s e s' effects := by
  cases e with
  | message c msg rnd => exact handle_outcome h
  | close c first => exact remove_outcome ha hp h
  | datagram r u addr data o => exact receive_outcome h
  | adapter r u addr acts =>
      obtain ⟨rfl, rfl⟩ := Prod.mk.inj (Except.ok.inj h)
      exact timer_outcome s r u addr acts

/-! ## Invariants of every reachable state -/

variable {cfg : Config}

/-- What the handlers keep on every path: the two maps of a room have the same
keys, a member carries the uid it is stored under, a member with a running
receiver has been answered, and an ICE connection belongs to its address. -/
structure WellFormed (s : Server) : Prop where
  paired : s.Paired
  named (r : ℤ) (u : Str) (m : RoomMember) (h : s.member r u = some m) : m.uid = u
  answered (r : ℤ) (u : Str) (m : RoomMember) (h : s.member r u = some m)
    (hr : m.udpReceiver.isSome) : m.answerSdp.isSome
  addressed (r : ℤ) (u : Str) (m : RoomMember) (a : IpAddress) (ice : IceConnection)
    (h : s.member r u = some m) (hi : (m.ports a).iceConnection = some ice) :
    ice.remoteAddr = a

/-- The members' part of `WellFormed`. -/
structure GoodMember (u : Str) (m : RoomMember) : Prop where
  named : m.uid = u
  answered : m.udpReceiver.isSome → m.answerSdp.isSome
  addressed (a : IpAddress) (ice : IceConnection)
    (hi : (m.ports a).iceConnection = some ice) : ice.remoteAddr = a

theorem WellFormed.good (hw : s.WellFormed) {r : ℤ} {u : Str} {m : RoomMember}
    (h : s.member r u = some m) : GoodMember u m :=
  ⟨hw.named r u m h, hw.answered r u m h, fun a ice hi => hw.addressed r u m a ice h hi⟩

theorem WellFormed.of_good (hp : s.Paired)
    (hg : ∀ r u m, s.member r u = some m → GoodMember u m) : s.WellFormed :=
  ⟨hp, fun r u m h => (hg r u m h).named, fun r u m h => (hg r u m h).answered,
    fun r u m a ice h hi => (hg r u m h).addressed a ice hi⟩

/-- Changing one member keeps the two maps of a room in step. -/
theorem Paired.setsMember (hp : s.Paired) {r : ℤ} {u : Str} {m m' : RoomMember}
    (hmem : s.member r u = some m) (hm : SetsMember s s' r u (some m'))
    (hof : ∀ r u, s'.connectionOf r u = s.connectionOf r u) : s'.Paired := by
  intro r' u'
  rw [hm, hof, ← hp r' u']
  split
  · next heq =>
      obtain ⟨rfl, rfl⟩ := heq
      simp [hmem]
  · exact Iff.rfl

theorem WellFormed.setsMember (hw : s.WellFormed) {r : ℤ} {u : Str} {m m' : RoomMember}
    (hmem : s.member r u = some m) (hm : SetsMember s s' r u (some m'))
    (hof : ∀ r u, s'.connectionOf r u = s.connectionOf r u) (hg : GoodMember u m') :
    s'.WellFormed := by
  refine .of_good (hw.paired.setsMember hmem hm hof) ?_
  intro r' u' m₁ h
  rw [hm] at h
  split at h
  · next heq =>
      obtain ⟨-, rfl⟩ := heq
      cases h
      exact hg
  · exact hw.good h

/-- A datagram leaves a member good. -/
theorem GoodMember.onUdpReceive {media media' : Media} {u : Str} {m m' : RoomMember}
    {udp : UdpId} {addr : IpAddress} {data : Bytes} {o : Oracle}
    {sent : List MemberEffect} (hg : GoodMember u m)
    (h : m.onUdpReceive env media udp addr data o = .ok (media', m', sent)) :
    GoodMember u m' := by
  obtain ⟨up, rfl, hr⟩ := RoomMember.onUdpReceive_outcome h
  refine ⟨hg.named, hg.answered, ?_⟩
  intro a ice hi
  rw [RoomMember.ports_insert] at hi
  split at hi
  · next ha =>
      subst ha
      exact hr.iceConnection_remoteAddr (hg.addressed a) hi
  · exact hg.addressed a ice hi

theorem GoodMember.onAdapter {u : Str} {m : RoomMember} (hg : GoodMember u m)
    (addr : IpAddress) (acts : List AdapterAct) :
    GoodMember u (m.onAdapter addr acts).1 := by
  have hf := m.onAdapter_frame addr acts
  refine ⟨?_, ?_, ?_⟩
  · rw [hf]
    exact hg.named
  · rw [hf]
    exact hg.answered
  · intro a ice hi
    rw [(m.onAdapter_ports addr a acts).1] at hi
    exact hg.addressed a ice hi

theorem Outcome.wellFormed {e : Event} (hw : s.WellFormed)
    (h : Outcome env s e s' effects) : s'.WellFormed := by
  cases h with
  | unknown => exact hw
  | quiet _ hm | unlisted _ _ hm =>
      refine .of_good ?_ ?_
      · intro r u
        rw [hm.member, hm.connectionOf]
        exact hw.paired r u
      · intro r u m h
        exact hw.good (by rwa [hm.member] at h)
  | joined hcmd hn hnew hm hof =>
      refine .of_good ?_ ?_
      · intro r u
        rw [hm, hof]
        split
        · simp
        · exact hw.paired r u
      · intro r u m h
        rw [hm] at h
        split at h
        · next heq =>
            obtain ⟨-, rfl⟩ := heq
            cases h
            exact ⟨rfl, by simp, by simp [RoomMember.ports]⟩
        · exact hw.good h
  | offered hn hmem hm hc =>
      exact hw.setsMember hmem hm hc.connectionOf
        ⟨(hw.good hmem).named, (hw.good hmem).answered, (hw.good hmem).addressed⟩
  | served hadm hn hmem hpull halloc hm hc =>
      exact hw.setsMember hmem hm hc.connectionOf
        ⟨(hw.good hmem).named, fun _ => rfl, (hw.good hmem).addressed⟩
  | parted hlast hentry hmem hm hof =>
      refine .of_good ?_ ?_
      · intro r u
        rw [hm, hof]
        split
        · simp
        · exact hw.paired r u
      · intro r u m h
        rw [hm] at h
        split at h
        · cases h
        · exact hw.good h
  | received hmem hrcv hrecv hm hc =>
      exact hw.setsMember hmem hm hc.connectionOf ((hw.good hmem).onUdpReceive hrecv)
  | acted hmem hm hc =>
      exact hw.setsMember hmem hm hc.connectionOf ((hw.good hmem).onAdapter _ _)

theorem reachable_wellFormed (r : Lts.Reachable (system env cfg) s) : s.WellFormed := by
  refine r.invariant (P := WellFormed) ?_ ?_
  · rintro s rfl
    refine .of_good ?_ ?_
    · intro r u
      simp [initial, member, connectionOf, findRoom]
    · intro r u m h
      simp [initial, member, findRoom] at h
  · rintro s ⟨e, effects⟩ s' - hw ⟨ha, h⟩
    exact (exec_outcome ha hw.paired h).wellFormed hw

/-- A step of the server, by cases, with what holds before it. -/
theorem step_outcome {l : Event × List Effect} (hw : s.WellFormed)
    (h : (system env cfg).step s l s') : Outcome env s l.1 s' l.2 :=
  exec_outcome h.1 hw.paired h.2

/-! ## Runs that can be computed -/

/-- The events one after the other, with a history of their labels; `none` as soon as
one may not happen or faults. -/
def runEvents {γ : Type} (env : Env) (upd : γ → Event × List Effect → γ) (p : Server × γ) :
    List Event → Option (Server × γ)
  | [] => some p
  | e :: es =>
      if p.1.Allowed e then
        match p.1.exec env e with
        | .error _ => none
        | .ok (s, effects) => runEvents env upd (s, upd p.2 (e, effects)) es
      else none

/-- The system in which nobody disconnects. -/
def opened (env : Env) (cfg : Config) : Lts.System Server (Event × List Effect) :=
  (system env cfg).restrict fun l => l.1.isClose = false

variable {γ : Type} {g₀ : γ} {upd : γ → Event × List Effect → γ} {es : List Event}
  {p q : Server × γ}

/-- What is computed is a run, of a system that has all these events. -/
theorem runEvents_reachable {E : Event → Prop}
    (r : Lts.Reachable (((system env cfg).restrict fun l => E l.1).withHistory g₀ upd) p)
    (hE : ∀ e ∈ es, E e) (h : runEvents env upd p es = some q) :
    Lts.Reachable (((system env cfg).restrict fun l => E l.1).withHistory g₀ upd) q := by
  induction es generalizing p with
  | nil =>
      cases h
      exact r
  | cons e es ih =>
      rw [runEvents] at h
      split at h
      · next hallowed =>
          split at h
          · cases h
          · next s effects hexec =>
              refine ih (r.snoc (e := (e, effects)) ⟨?_, rfl⟩) ?_ h
              · exact ⟨hE e List.mem_cons_self, hallowed, hexec⟩
              · exact fun e' he' => hE e' (List.mem_cons_of_mem _ he')
      · cases h

theorem exists_restricted_of_runEvents {α : Type} (E : Event → Prop) (env : Env) (cfg : Config)
    (g₀ : γ) (upd : γ → Event × List Effect → γ) (es : List Event) (f : Server × γ → α) (v : α)
    (hE : ∀ e ∈ es, E e) (h : (runEvents env upd (initial cfg, g₀) es).map f = some v) :
    ∃ p, Lts.Reachable (((system env cfg).restrict fun l => E l.1).withHistory g₀ upd) p ∧
      f p = v := by
  obtain ⟨p, hrun, hv⟩ := Option.map_eq_some_iff.mp h
  have h0 : (((system env cfg).restrict fun l => E l.1).withHistory g₀ upd).init
      (initial cfg, g₀) := ⟨rfl, rfl⟩
  exact ⟨p, runEvents_reachable (.start h0) hE hrun, hv⟩

/-- What was computed of the last state and the history holds of a reachable
state and its history. -/
theorem exists_recorded_of_runEvents {α : Type} (env : Env) (cfg : Config) (g₀ : γ)
    (upd : γ → Event × List Effect → γ) (es : List Event) (f : Server × γ → α) (v : α)
    (h : (runEvents env upd (initial cfg, g₀) es).map f = some v) :
    ∃ p, Lts.Reachable ((system env cfg).withHistory g₀ upd) p ∧ f p = v := by
  obtain ⟨p, hp, hv⟩ := exists_restricted_of_runEvents (fun _ => True) env cfg g₀ upd es f v
    (fun _ _ => trivial) h
  exact ⟨p, hp.of_restrict_history, hv⟩

theorem exists_reachable_of_runEvents {α : Type} (env : Env) (cfg : Config)
    (es : List Event) (f : Server → α) (v : α)
    (h : (runEvents env (fun _ _ => ()) (initial cfg, ()) es).map (fun p => f p.1) = some v) :
    ∃ s, Lts.Reachable (system env cfg) s ∧ f s = v := by
  obtain ⟨p, hp, hv⟩ := exists_recorded_of_runEvents env cfg () (fun _ _ => ()) es _ v h
  exact ⟨p.1, hp.of_history, hv⟩

theorem exists_opened_of_runEvents {α : Type} (env : Env) (cfg : Config)
    (es : List Event) (f : Server → α) (v : α) (hopen : ∀ e ∈ es, e.isClose = false)
    (h : (runEvents env (fun _ _ => ()) (initial cfg, ()) es).map (fun p => f p.1) = some v) :
    ∃ s, Lts.Reachable (opened env cfg) s ∧ f s = v := by
  obtain ⟨p, hp, hv⟩ := exists_restricted_of_runEvents (fun e => e.isClose = false) env cfg ()
    (fun _ _ => ()) es _ v hopen h
  exact ⟨p.1, hp.of_history, hv⟩

/-- A run of these events and one step more, with what was computed of that step. -/
theorem exists_step_of_runEvents {α : Type} (env : Env) (cfg : Config) (es : List Event)
    (e : Event) (f : Server → Server → List Effect → α) (v : α)
    (h : (runEvents env (fun _ _ => ()) (initial cfg, ()) es).bind (fun p =>
      if p.1.Allowed e then (p.1.exec env e).toOption.map fun q => f p.1 q.1 q.2 else none) =
        some v) :
    ∃ tr s s' effects, Lts.Run (system env cfg) tr s ∧
      (system env cfg).step s (e, effects) s' ∧ f s s' effects = v := by
  obtain ⟨p, hp, h⟩ := Option.bind_eq_some_iff.mp h
  obtain ⟨p', hp', rfl⟩ := exists_recorded_of_runEvents env cfg () (fun _ _ => ()) es id p
    (by rw [hp]; rfl)
  split at h
  · next hallowed =>
      obtain ⟨⟨s', effects⟩, hexec, hv⟩ := ok_of_toOption_map h
      obtain ⟨tr, run⟩ := hp'.of_history
      exact ⟨tr, _, s', effects, run, ⟨hallowed, hexec⟩, hv⟩
  · cases h

/-- The reply to a request on connection `c`. -/
def repliesTo (c : ConnId) : Effect → Bool
  | .reply c' _ => c' == c
  | _ => false

theorem mem_of_repliesTo {effects : List Effect} {c : ConnId}
    (h : effects.any (repliesTo c) = true) : ∃ reply, .reply c reply ∈ effects := by
  obtain ⟨e, he, hr⟩ := List.any_eq_true.mp h
  cases e with
  | reply c' reply =>
      simp only [repliesTo, beq_iff_eq] at hr
      exact ⟨reply, hr ▸ he⟩
  | _ => cases hr

end Server

/-! ## A small server

Libraries that do as little as they can, two ports, and the messages and
datagrams of a client that publishes audio. -/

namespace Sample

def env : Env where
  hmacSha1 _ _ := List.replicate 20 7
  crc32 _ := 0
  certificateFingerprint := some ⟨str "sha-1", [1]⟩
  hostAsUriString := id
  ipAddressPrecedence _ := 0
  ipstr := str "10.0.0.1"
  readAfterReset := id
  setPeerCertificateDigest _ _ := true
  setDtlsSrtpCryptoSuites := true
  srtpInit := true
  srtpInstallEventHandler := true
  srtpProfile cs := (getSrtpKeyAndSaltLengths cs).map fun l => ⟨l.1 + l.2, 10, 10⟩
  srtpCreate _ := true
  srtpUpdate _ := true

def cfg : Config := ⟨7000, 7002, 1, by decide, by decide, by decide⟩

def rnd : MessageOracle where
  ufrag := str "ufrag"
  passwd := str "passwd"

/-- The stringified offer, its line ends escaped. -/
def sdp : Str :=
  str "\x7b\"type\":\"offer\",\"sdp\":\"v=0\\r\\no=- 1 2 IN IP4 0.0.0.0\\r\\ns=-\\r\\n" ++
    str "t=0 0\\r\\nm=audio 9 UDP/TLS/RTP/SAVPF 111\\r\\n" ++
    str "a=fingerprint:sha-1 0A\\r\\n\"\x7d"

/-- The lines of `sdp`. -/
def offerLines : List Str :=
  [str "v=0", str "o=- 1 2 IN IP4 0.0.0.0", str "s=-", str "t=0 0",
    str "m=audio 9 UDP/TLS/RTP/SAVPF 111", str "a=fingerprint:sha-1 0A"]

/-- The stringified offer of these lines. -/
def offerOf (lines : List Str) : Str :=
  str "\x7b\"type\":\"offer\",\"sdp\":\"" ++
    (lines.map (· ++ Server.escapedCrlf)).flatten ++ str "\"\x7d"

def alice : Str := str "alice"

def bob : Str := str "bob"

/-- A join that finds `others` in the room. -/
def join (c : ConnId) (room uid : Str) (others : List Str := []) : Event :=
  .message c (requestOf (str "join") room uid []) { rnd with order := others }

def publish (c : ConnId) (room uid : Str) : Event :=
  .message c (requestOf (str "publish") room uid [(str "sdp", .string sdp)]) rnd

def publishOf (c : ConnId) (room uid : Str) (lines : List Str) : Event :=
  .message c (requestOf (str "publish") room uid [(str "sdp", .string (offerOf lines))]) rnd

def pull (c : ConnId) (room uid remoteUid : Str) : Event :=
  .message c (requestOf (str "pullstream") room uid
    [(str "remote_uid", .string remoteUid), (str "sdp", .string sdp)]) rnd

/-- A record with the first bytes of a ClientHello. -/
def clientHello : Bytes :=
  [22, 0xFE, 0xFD] ++ List.replicate 8 0 ++ [0, 5] ++ [1, 0, 0, 0, 0]

def keying : Keying := ⟨1, List.replicate 60 7, 16, 14, rfl, rfl⟩

/-- A ClientHello that is answered and, if there are keys, followed by the end of
the handshake. -/
def hello (room : ℤ) (uid : Str) (addr : IpAddress) (keys : List Keying) : Event :=
  .datagram room uid addr clientHello { adapter := { acts := keys.map .handshakeDone } }

def rtp (room : ℤ) (uid : Str) (addr : IpAddress) : Event :=
  .datagram room uid addr ([128, 96] ++ List.replicate 10 0)
    { srtp := { unprotect := some [1], protect := fun _ => some [2] } }

end Sample

end JuanSfu
