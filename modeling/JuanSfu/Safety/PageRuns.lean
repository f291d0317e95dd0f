import JuanSfu.Safety.PageProtocol

/-!
# What a page makes of the responses

A page that joins one room, and with no uid twice, takes every response it gets:
the room and the uid are its own, and the object has a connection by the time an
answer comes. What it can ask for is decided by the response to its join: once
that has named somebody, the page never publishes.
-/

namespace JuanSfu

open Server

variable {env : Env} {cfg : Config} {isNaN : Str → Bool} {c : ConnId}

namespace ZalRtc

variable {z z' : ZalRtc} {roomId uid : Str} {asked qs : List Json} {e : PageEvent}

/-! ## Objects keep what they are -/

/-- The object is still there, for its room and uid, and has its connection if it had. -/
structure Keeps (peer peer' : PeerObject) : Prop where
  roomId : peer'.roomId = peer.roomId
  localUid : peer'.localUid = peer.localUid
  pc : peer.pc = true → peer'.pc = true

theorem Keeps.refl (peer : PeerObject) : Keeps peer peer := ⟨rfl, rfl, id⟩

/-- The page goes on with the same objects, the same map and the same room. -/
structure Updates (z z' : ZalRtc) : Prop where
  room : z'.room = z.room
  roomId : z'.roomId = z.roomId
  marks : z'.marks = z.marks
  forth (p : PeerId) (peer : PeerObject) (h : z.peers[p]? = some peer) :
    ∃ peer', z'.peers[p]? = some peer' ∧ Keeps peer peer'
  back (p : PeerId) (peer' : PeerObject) (h : z'.peers[p]? = some peer') :
    ∃ peer, z.peers[p]? = some peer ∧ Keeps peer peer'

theorem updates_of_peers (hroom : z'.room = z.room) (hroomId : z'.roomId = z.roomId)
    (hmarks : z'.marks = z.marks) (hpeers : z'.peers = z.peers) : Updates z z' := by
  refine ⟨hroom, hroomId, hmarks, ?_, ?_⟩
  · intro p peer h
    exact ⟨peer, by rw [hpeers, h], .refl peer⟩
  · intro p peer h
    exact ⟨peer, by rw [← hpeers, h], .refl peer⟩

theorem updates_setPeer {p : PeerId} {peer peer' : PeerObject} (h : z.peers[p]? = some peer)
    (hkeep : Keeps peer peer') : Updates z (z.setPeer p peer') := by
  have hlt : p < z.peers.length := (List.getElem?_eq_some_iff.mp h).1
  have hset : ∀ p₁, (z.setPeer p peer').peers[p₁]? =
      if p = p₁ then some peer' else z.peers[p₁]? := by
    intro p₁
    show (z.peers.set p peer')[p₁]? = _
    rw [List.getElem?_set, if_pos hlt]
  refine ⟨rfl, rfl, rfl, ?_, ?_⟩
  · intro p₁ peer₁ h₁
    rw [hset]
    split
    · next heq =>
        subst heq
        rw [h] at h₁
        cases h₁
        exact ⟨peer', rfl, hkeep⟩
    · exact ⟨peer₁, h₁, .refl peer₁⟩
  · intro p₁ peer₁ h₁
    rw [hset] at h₁
    split at h₁
    · next heq =>
        subst heq
        cases h₁
        exact ⟨peer, h, hkeep⟩
    · exact ⟨peer₁, h₁, .refl peer₁⟩

/-! ## What a page that joins one room keeps -/

/-- The join button is pressed for one room, and for no uid twice. -/
def JoinsAfresh (roomId : Str) (z : ZalRtc) (e : PageEvent) : Prop :=
  ∀ r u, e = .joinBtn r u → r = roomId ∧ z.peerOf u = none

/-- A request of an object: a join, or what it can ask for once it has a connection. -/
structure AsksFor (peer : PeerObject) (q : Json) : Prop where
  roomId : getJsonString q (str "roomId") [] = .ok peer.roomId
  uid : getJsonString q (str "uid") [] = .ok peer.localUid
  pc : Commands q (str "join") ∨ peer.pc = true

/-- **The page's invariant**: every object is for the room and in the map under its
uid; what is pending or has been asked for is the business of an object; and every
response so far was one to set as a description, or told of the members. -/
structure Consistent (roomId : Str) (z : ZalRtc) (asked : List Json) : Prop where
  peers (p : PeerId) (peer : PeerObject) (h : z.peers[p]? = some peer) :
    z.roomId = some roomId ∧ peer.roomId = roomId ∧ z.peerOf peer.localUid = some p
  pending (promise : Promise) (h : promise ∈ z.pending) :
    ∃ peer, z.peers[promise.peer]? = some peer ∧
      (promise = .localStream promise.peer ∨ peer.pc = true)
  asked (q : Json) (h : q ∈ asked) :
    ∃ (p : PeerId) (peer : PeerObject), z.peers[p]? = some peer ∧ AsksFor peer q
  marks (mark : PageMark) (h : mark ∈ z.marks) : ∃ p sdp, mark = .described p sdp

theorem AsksFor.keep {peer peer' : PeerObject} {q : Json} (h : AsksFor peer q)
    (hk : Keeps peer peer') : AsksFor peer' q :=
  ⟨hk.roomId ▸ h.roomId, hk.localUid ▸ h.uid, h.pc.imp_right hk.pc⟩

theorem Consistent.update (h : Consistent roomId z asked) (hu : Updates z z')
    (hp : ∀ promise ∈ z'.pending, promise ∈ z.pending ∨
      ∃ peer, z'.peers[promise.peer]? = some peer ∧ peer.pc = true) :
    Consistent roomId z' asked := by
  constructor
  · intro p peer' hpeer'
    obtain ⟨peer, hpeer, hk⟩ := hu.back p peer' hpeer'
    obtain ⟨hroom, hid, hof⟩ := h.peers p peer hpeer
    refine ⟨hu.roomId.trans hroom, hk.roomId.trans hid, ?_⟩
    rw [peerOf, hu.room, hk.localUid]
    exact hof
  · intro promise hpromise
    rcases hp promise hpromise with hold | ⟨peer, hpeer, hpc⟩
    · obtain ⟨peer, hpeer, hpc⟩ := h.pending promise hold
      obtain ⟨peer', hpeer', hk⟩ := hu.forth _ peer hpeer
      exact ⟨peer', hpeer', hpc.imp_right hk.pc⟩
    · exact ⟨peer, hpeer, Or.inr hpc⟩
  · intro q hq
    obtain ⟨p, peer, hpeer, hasks⟩ := h.asked q hq
    obtain ⟨peer', hpeer', hk⟩ := hu.forth p peer hpeer
    exact ⟨p, peer', hpeer', hasks.keep hk⟩
  · intro mark hmark
    rw [hu.marks] at hmark
    exact h.marks mark hmark

theorem Consistent.ask (h : Consistent roomId z asked) {peer : PeerObject} {p : PeerId}
    (hpeer : z.peers[p]? = some peer) {q : Json} (hq : AsksFor peer q) :
    Consistent roomId z (asked ++ [q]) := by
  refine ⟨h.peers, h.pending, ?_, h.marks⟩
  intro q' hq'
  rcases List.mem_append.mp hq' with hold | hnew
  · exact h.asked q' hold
  · obtain rfl := List.mem_singleton.mp hnew
    exact ⟨p, peer, hpeer, hq⟩

/-- A new object, for a uid that is not in the map. -/
theorem Consistent.joinRoom (h : Consistent roomId z asked) (hnew : z.peerOf uid = none) :
    Consistent roomId (z.joinRoom roomId uid) asked := by
  have hold : ∀ (p : PeerId) (peer : PeerObject), z.peers[p]? = some peer →
      (z.joinRoom roomId uid).peers[p]? = some peer := by
    intro p peer hpeer
    have hlt : p < z.peers.length := (List.getElem?_eq_some_iff.mp hpeer).1
    show (z.peers ++ _)[p]? = _
    rw [List.getElem?_append_left hlt, hpeer]
  have hself : (z.joinRoom roomId uid).peers[z.peers.length]? =
      some { roomId, localUid := uid } := by
    show (z.peers ++ _)[z.peers.length]? = _
    rw [List.getElem?_append_right (Nat.le_refl _), Nat.sub_self]
    rfl
  refine ⟨?_, ?_, ?_, h.marks⟩
  · intro p peer hpeer
    refine ⟨rfl, ?_⟩
    show peer.roomId = roomId ∧ (z.room.insert uid z.peers.length).lookup peer.localUid = some p
    rw [UnorderedMap.lookup_insert_ite]
    by_cases hlt : p < z.peers.length
    · have hpeer' : z.peers[p]? = some peer := by
        rw [← List.getElem?_append_left hlt]
        exact hpeer
      obtain ⟨-, hid, hof⟩ := h.peers p peer hpeer'
      refine ⟨hid, ?_⟩
      rw [if_neg ?_]
      · exact hof
      · intro heq
        rw [heq, hnew] at hof
        cases hof
    · obtain rfl : p = z.peers.length := by
        have hlen := (List.getElem?_eq_some_iff.mp hpeer).1
        rw [show (z.joinRoom roomId uid).peers.length = z.peers.length + 1 from
          List.length_append] at hlen
        exact Nat.le_antisymm (Nat.lt_succ_iff.mp hlen) (Nat.not_lt.mp hlt)
      rw [hself] at hpeer
      cases hpeer
      exact ⟨rfl, if_pos rfl⟩
  · intro promise hpromise
    rcases List.mem_append.mp hpromise with hpromise | hpromise
    · obtain ⟨peer, hpeer, hpc⟩ := h.pending promise hpromise
      exact ⟨peer, hold _ peer hpeer, hpc⟩
    · obtain rfl := List.mem_singleton.mp hpromise
      exact ⟨_, hself, Or.inl rfl⟩
  · intro q hq
    obtain ⟨p, peer, hpeer, hasks⟩ := h.asked q hq
    exact ⟨p, peer, hold p peer hpeer, hasks⟩

/-- The connection that `CreateOffer` makes is there by the time the offer is. -/
theorem Consistent.createOffer (h : Consistent roomId z asked) (p : PeerId) (remote : Json) :
    Consistent roomId (z.createOffer p remote) asked := by
  unfold ZalRtc.createOffer
  split
  · exact h
  · next peer hpeer =>
      have hlt : p < z.peers.length := (List.getElem?_eq_some_iff.mp hpeer).1
      have hu : Updates z (z.setPeer p { peer with remoteUid := remote, pc := true }) :=
        updates_setPeer hpeer ⟨rfl, rfl, fun _ => rfl⟩
      have h' := h.update hu fun promise hpromise => Or.inl hpromise
      dsimp only
      split
      · exact h'
      · refine h'.update (updates_of_peers rfl rfl rfl rfl) fun promise hpromise => ?_
        rcases List.mem_append.mp hpromise with hold | hnew
        · exact Or.inl hold
        · obtain rfl := List.mem_singleton.mp hnew
          refine Or.inr ⟨{ peer with remoteUid := remote, pc := true }, ?_, rfl⟩
          show (z.peers.set p _)[p]? = _
          rw [List.getElem?_set_self hlt]

theorem Consistent.onResolved (h : Consistent roomId z asked) {promise : Promise}
    (hmem : promise ∈ z.pending) (session : LocalDesc) {qs : List Json}
    (hz : ({ z with pending := z.pending.erase promise } : ZalRtc).onResolved promise session =
      (z', qs)) : Consistent roomId z' (asked ++ qs) ∧ Consistent roomId z' asked := by
  have h₁ : Consistent roomId { z with pending := z.pending.erase promise } asked :=
    h.update (updates_of_peers rfl rfl rfl rfl) fun _ hp => Or.inl (List.mem_of_mem_erase hp)
  obtain ⟨peer, hpeer, hpc⟩ := h.pending promise hmem
  have hlt : promise.peer < z.peers.length := (List.getElem?_eq_some_iff.mp hpeer).1
  unfold ZalRtc.onResolved at hz
  dsimp only at hz
  rw [hpeer] at hz
  cases promise with
  | localStream p =>
      cases hz
      have hu : Updates { z with pending := z.pending.erase (.localStream p) }
          (setPeer { z with pending := z.pending.erase (.localStream p) } p
            { peer with localStream := true }) := updates_setPeer hpeer ⟨rfl, rfl, id⟩
      have h' := h₁.update hu fun promise hp => Or.inl hp
      exact ⟨h'.ask (List.getElem?_set_self hlt) ⟨rfl, rfl, Or.inl rfl⟩, h'⟩
  | offer p =>
      cases hz
      rw [List.append_nil]
      suffices h' : Consistent roomId _ asked from ⟨h', h'⟩
      have hu : Updates { z with pending := z.pending.erase (.offer p) }
          (setPeer { z with pending := z.pending.erase (.offer p) } p
            { peer with localDesc := some session }) := updates_setPeer hpeer ⟨rfl, rfl, id⟩
      refine (h₁.update hu fun promise hp => Or.inl hp).update
        (updates_of_peers rfl rfl rfl rfl) fun promise hp => ?_
      rcases List.mem_append.mp hp with hold | hnew
      · exact Or.inl hold
      · obtain rfl := List.mem_singleton.mp hnew
        refine Or.inr ⟨{ peer with localDesc := some session }, ?_, ?_⟩
        · exact List.getElem?_set_self hlt
        · rcases hpc with hpc | hpc
          · cases hpc
          · exact hpc
  | localDescription p =>
      cases hz
      refine ⟨h₁.ask hpeer ?_, h₁⟩
      have hpc' : peer.pc = true := by
        rcases hpc with hpc | hpc
        · cases hpc
        · exact hpc
      unfold PeerObject.sendSdpOffer
      split <;> exact ⟨rfl, rfl, Or.inr hpc'⟩

theorem Consistent.onEvent (h : Consistent roomId z asked) (hg : JoinsAfresh roomId z e)
    (he : z.onEvent isNaN e = some (z', qs)) :
    Consistent roomId z' (asked ++ qs) ∧ Consistent roomId z' asked := by
  have hquiet : ∀ {z'}, Consistent roomId z' asked →
      Consistent roomId z' (asked ++ []) ∧ Consistent roomId z' asked := by
    intro z' h'
    rw [List.append_nil]
    exact ⟨h', h'⟩
  cases e with
  | joinBtn r u =>
      cases he
      obtain ⟨rfl, hnew⟩ := hg r u rfl
      apply hquiet
      unfold ZalRtc.joinBtn
      split
      · exact h
      · split
        · exact h
        · split
          · exact h
          · exact h.joinRoom hnew
  | publishBtn =>
      cases he
      apply hquiet
      unfold publishStream
      split
      · exact h
      · exact h.createOffer ..
  | pullBtn =>
      cases he
      apply hquiet
      unfold pullStream
      split
      · exact h
      · exact h.createOffer ..
  | resolved promise session =>
      unfold ZalRtc.onEvent at he
      dsimp only at he
      split at he
      · next hmem => exact h.onResolved hmem session (Option.some.inj he)
      · cases he
  | rejected promise =>
      unfold ZalRtc.onEvent at he
      dsimp only at he
      split at he
      · cases he
        exact hquiet (h.update (updates_of_peers rfl rfl rfl rfl) fun _ hp =>
          Or.inl (List.mem_of_mem_erase hp))
      · cases he

/-! ## Responses -/

theorem Consistent.addressee_eq (h : Consistent roomId z asked) {json : Json}
    {peer : PeerObject} {p : PeerId} (hpeer : z.peers[p]? = some peer)
    (hroom : json.prop (str "roomId") = some (.string peer.roomId))
    (huid : json.prop (str "uid") = some (.string peer.localUid)) :
    z.addressee json = some p := by
  obtain ⟨hz, hid, hof⟩ := h.peers p peer hpeer
  unfold addressee
  rw [hroom, huid]
  dsimp only
  rw [if_pos (by rw [hz, hid]), hof]

theorem Consistent.note (h : Consistent roomId z asked) (p : PeerId) (sdp : Json) :
    Consistent roomId (z.note (.described p sdp)) asked := by
  refine ⟨h.peers, h.pending, h.asked, ?_⟩
  intro mark hmark
  rcases List.mem_append.mp hmark with hold | hnew
  · exact h.marks mark hold
  · obtain rfl := List.mem_singleton.mp hnew
    exact ⟨p, sdp, rfl⟩

theorem Consistent.handleResponseSdp (h : Consistent roomId z asked) {json : Json}
    {peer : PeerObject} {p : PeerId} (hpeer : z.peers[p]? = some peer) (hpc : peer.pc = true)
    (hroom : json.prop (str "roomId") = some (.string peer.roomId))
    (huid : json.prop (str "uid") = some (.string peer.localUid)) :
    Consistent roomId (z.handleResponseSdp json) asked := by
  unfold ZalRtc.handleResponseSdp
  rw [h.addressee_eq hpeer hroom huid]
  dsimp only
  rw [hpeer]
  dsimp only
  rw [if_pos hpc]
  exact h.note p _

theorem Consistent.onServerMsg (h : Consistent roomId z asked) {q r : Json} (hq : q ∈ asked)
    (hr : Responds q r) : Consistent roomId (z.onServerMsg r) asked := by
  obtain ⟨p, peer, hpeer, hasks⟩ := h.asked q hq
  have hnames : ∀ {room uid : Str}, getJsonString q (str "roomId") [] = .ok room →
      getJsonString q (str "uid") [] = .ok uid → room = peer.roomId ∧ uid = peer.localUid := by
    intro room uid hroom huid
    rw [hasks.roomId] at hroom
    rw [hasks.uid] at huid
    cases hroom
    cases huid
    exact ⟨rfl, rfl⟩
  have hpc : ∀ {cmd : Str}, Commands q cmd → cmd ≠ str "join" → peer.pc = true := by
    intro cmd hcmd hne
    rcases hasks.pc with hjoin | hpc
    · exact absurd (Except.ok.inj (hcmd.symm.trans hjoin)) hne
    · exact hpc
  cases hr with
  | @join room uid members hcmd hroom huid =>
      obtain ⟨rfl, rfl⟩ := hnames hroom huid
      show Consistent roomId (z.handleResponseJoin _) asked
      unfold handleResponseJoin
      rw [h.addressee_eq hpeer rfl rfl]
      cases members with
      | nil => exact h
      | cons first rest => exact ⟨h.peers, h.pending, h.asked, h.marks⟩
  | publish hcmd hroom huid =>
      obtain ⟨rfl, rfl⟩ := hnames hroom huid
      exact h.handleResponseSdp hpeer (hpc hcmd (by decide)) rfl rfl
  | pull hcmd hroom huid =>
      obtain ⟨rfl, rfl⟩ := hnames hroom huid
      exact h.handleResponseSdp hpeer (hpc hcmd (by decide)) rfl rfl

end ZalRtc

/-! ## What a page asks for -/

namespace ZalRtc

variable {z z' : ZalRtc} {uid : Str} {asked qs : List Json} {e : PageEvent}

theorem createOffer_remoteUid (z : ZalRtc) (p : PeerId) (remote : Json) :
    (z.createOffer p remote).remoteUid = z.remoteUid := by
  unfold createOffer
  split
  · rfl
  · dsimp only
    split <;> rfl

theorem onResolved_asks {promise : Promise} {session : LocalDesc}
    (h : z.onResolved promise session = (z', qs)) : z'.remoteUid = z.remoteUid ∧
      ∀ q ∈ qs, ∃ peer ∈ z.peers, q = peer.sendJoin ∨ q = peer.sendSdpOffer z.remoteUid := by
  unfold onResolved at h
  dsimp only at h
  split at h
  · cases h
    exact ⟨rfl, nofun⟩
  · next peer hpeer =>
      have hmem := List.mem_of_getElem? hpeer
      cases promise with
      | localStream p =>
          cases h
          refine ⟨rfl, fun q hq => ⟨peer, hmem, Or.inl ?_⟩⟩
          exact List.mem_singleton.mp hq
      | offer p =>
          cases h
          exact ⟨rfl, nofun⟩
      | localDescription p =>
          cases h
          refine ⟨rfl, fun q hq => ⟨peer, hmem, Or.inr ?_⟩⟩
          exact List.mem_singleton.mp hq

/-- The page's `remote_uid` is set by responses alone, and what is sent comes from an
object. -/
theorem onEvent_asks (h : z.onEvent isNaN e = some (z', qs)) : z'.remoteUid = z.remoteUid ∧
    ∀ q ∈ qs, ∃ peer ∈ z.peers, q = peer.sendJoin ∨ q = peer.sendSdpOffer z.remoteUid := by
  unfold onEvent at h
  cases e with
  | joinBtn r u =>
      cases h
      refine ⟨?_, nofun⟩
      unfold joinBtn
      split
      · rfl
      · split
        · rfl
        · split <;> rfl
  | publishBtn =>
      cases h
      refine ⟨?_, nofun⟩
      unfold publishStream
      split
      · rfl
      · exact createOffer_remoteUid ..
  | pullBtn =>
      cases h
      refine ⟨?_, nofun⟩
      unfold pullStream
      split
      · rfl
      · exact createOffer_remoteUid ..
  | resolved promise session =>
      dsimp only at h
      split at h
      · exact onResolved_asks (z := { z with pending := z.pending.erase promise })
          (Option.some.inj h)
      · cases h
  | rejected promise =>
      dsimp only at h
      split at h
      · cases h
        exact ⟨rfl, nofun⟩
      · cases h

/-- The object was there before, but its remote uid may be one that a button has set. -/
def Descends (z : ZalRtc) (peer' : PeerObject) : Prop :=
  ∃ peer ∈ z.peers, peer'.localUid = peer.localUid ∧ (peer'.remoteUid = peer.remoteUid ∨
    peer'.remoteUid = .number ∨ peer'.remoteUid = .string z.remoteUid)

theorem Descends.of_mem {peer' : PeerObject} (h : peer' ∈ z.peers) : z.Descends peer' :=
  ⟨peer', h, rfl, Or.inl rfl⟩

theorem createOffer_descends {p : PeerId} {remote : Json}
    (hremote : remote = .number ∨ remote = .string z.remoteUid) {peer' : PeerObject}
    (hmem : peer' ∈ (z.createOffer p remote).peers) : z.Descends peer' := by
  unfold createOffer at hmem
  split at hmem
  · exact .of_mem hmem
  · next peer hpeer =>
      have hset : peer' ∈ z.peers.set p { peer with remoteUid := remote, pc := true } := by
        dsimp only at hmem
        split at hmem <;> exact hmem
      rcases List.mem_or_eq_of_mem_set hset with hin | rfl
      · exact .of_mem hin
      · exact ⟨peer, List.mem_of_getElem? hpeer, rfl, Or.inr hremote⟩

theorem onResolved_descends {promise : Promise} {session : LocalDesc}
    (h : z.onResolved promise session = (z', qs)) {peer' : PeerObject} (hmem : peer' ∈ z'.peers) :
    z.Descends peer' := by
  unfold onResolved at h
  dsimp only at h
  split at h
  · cases h
    exact .of_mem hmem
  · next peer hpeer =>
      have hin := List.mem_of_getElem? hpeer
      rcases promise with p | p | p
      · cases h
        rcases List.mem_or_eq_of_mem_set hmem with hmem | rfl
        · exact .of_mem hmem
        · exact ⟨peer, hin, rfl, Or.inl rfl⟩
      · cases h
        rcases List.mem_or_eq_of_mem_set hmem with hmem | rfl
        · exact .of_mem hmem
        · exact ⟨peer, hin, rfl, Or.inl rfl⟩
      · cases h
        exact .of_mem hmem

/-- The uids of an object are those it had, but for the remote one, which the buttons
set; or it is new. -/
theorem onEvent_peers (h : z.onEvent isNaN e = some (z', qs)) {peer' : PeerObject}
    (hmem : peer' ∈ z'.peers) :
    (∃ r u, e = .joinBtn r u ∧ peer'.localUid = u ∧ peer'.remoteUid = .number) ∨
      z.Descends peer' := by
  unfold onEvent at h
  cases e with
  | joinBtn r u =>
      cases h
      unfold joinBtn at hmem
      split at hmem
      · exact Or.inr (.of_mem hmem)
      · split at hmem
        · exact Or.inr (.of_mem hmem)
        · split at hmem
          · exact Or.inr (.of_mem hmem)
          · rcases List.mem_append.mp hmem with hin | hin
            · exact Or.inr (.of_mem hin)
            · obtain rfl := List.mem_singleton.mp hin
              exact Or.inl ⟨r, u, rfl, rfl, rfl⟩
  | publishBtn =>
      cases h
      unfold publishStream at hmem
      split at hmem
      · exact Or.inr (.of_mem hmem)
      · exact Or.inr (createOffer_descends (Or.inl rfl) hmem)
  | pullBtn =>
      cases h
      unfold pullStream at hmem
      split at hmem
      · exact Or.inr (.of_mem hmem)
      · exact Or.inr (createOffer_descends (Or.inr rfl) hmem)
  | resolved promise session =>
      dsimp only at h
      split at h
      · exact Or.inr (onResolved_descends (z := { z with pending := z.pending.erase promise })
          (Option.some.inj h) hmem)
      · cases h
  | rejected promise =>
      dsimp only at h
      split at h
      · cases h
        exact Or.inr (.of_mem hmem)
      · cases h

/-- A response leaves `remote_uid` alone, or sets it to the first of the members
that the response to a join names. -/
theorem onServerMsg_remoteUid {q r : Json} (hr : Responds q r) :
    (z.onServerMsg r).remoteUid = z.remoteUid ∨ ∃ uid, Commands q (str "join") ∧
      getJsonString q (str "uid") [] = .ok uid ∧ (z.onServerMsg r).remoteUid ≠ uid ∧
      (z.onServerMsg r).remoteUid ≠ [] := by
  have hsdp : ∀ json, (z.handleResponseSdp json).remoteUid = z.remoteUid := by
    intro json
    unfold handleResponseSdp
    split
    · rfl
    · split
      · split <;> rfl
      · rfl
  cases hr with
  | @join room uid members hcmd hroom huid hnew hnamed =>
      have hmsg : z.onServerMsg (joinReply room uid members) =
          z.handleResponseJoin (joinReply room uid members) := rfl
      rw [hmsg]
      unfold handleResponseJoin
      split
      · exact Or.inl rfl
      · cases members with
        | nil => exact Or.inl rfl
        | cons first rest =>
            refine Or.inr ⟨uid, hcmd, huid, ?_, ?_⟩
            · exact fun heq => hnew (heq ▸ List.mem_cons_self ..)
            · exact fun heq => hnamed (heq ▸ List.mem_cons_self ..)
  | publish => exact Or.inl (hsdp _)
  | pull => exact Or.inl (hsdp _)

theorem onServerMsg_peers (z : ZalRtc) (json : Json) : (z.onServerMsg json).peers = z.peers := by
  have hsdp : (z.handleResponseSdp json).peers = z.peers := by
    unfold handleResponseSdp
    split
    · rfl
    · split
      · split <;> rfl
      · rfl
  have hjoin : (z.handleResponseJoin json).peers = z.peers := by
    unfold handleResponseJoin
    split
    · rfl
    · split
      · split <;> rfl
      · rfl
  unfold onServerMsg
  split
  · split
    · exact hjoin
    · split
      · exact hsdp
      · split
        · exact hsdp
        · rfl
  · rfl

end ZalRtc

/-- The pull that the publish button makes once `remote_uid` is set has a number for
its remote uid, and comes to nothing. -/
theorem Server.handle_pull_unnamed {q : Json} {roomId uid : Str} {server : Server}
    {rnd : MessageOracle} (hcmd : Commands q (str "pullstream"))
    (hroom : getJsonString q (str "roomId") [] = .ok roomId)
    (huid : getJsonString q (str "uid") [] = .ok uid)
    (hremote : getJsonString q (str "remote_uid") [] = .ok []) :
    server.handle env q c rnd = .ok (server, []) := by
  rw [handle_pull hcmd, handlePull, hroom, huid, hremote]
  show (if roomId.length < 1 ∨ uid.length < 1 ∨ ([] : Str).length < 1 then _ else _) = _
  rw [if_pos (Or.inr (Or.inr (by decide)))]
  rfl

/-! ## Runs -/

variable {s : Exchange.State Server ZalRtc Json Json}
  {tr : List (Exchange.State Server ZalRtc Json Json × Exchange.Label Json Json PageEvent)}

/-- A join, or a pull that comes to nothing unless it names somebody. -/
def JoinsOrPulls (env : Env) (c : ConnId) (q : Json) : Prop :=
  Commands q (str "join") ∨ Commands q (str "pullstream") ∧
    (getJsonString q (str "remote_uid") [] = .ok [] → ∀ (server : Server) (rnd : MessageOracle),
      server.handle env q c rnd = .ok (server, []))

theorem sendSdpOffer_pulls (peer : PeerObject) {remoteUid : Str} (h : remoteUid ≠ []) :
    JoinsOrPulls env c (peer.sendSdpOffer remoteUid) := by
  unfold PeerObject.sendSdpOffer
  rw [if_pos (List.length_pos_iff.mpr h)]
  exact Or.inr ⟨rfl, fun hremote server rnd => handle_pull_unnamed rfl rfl rfl hremote⟩

/-- **Who is told of another member never publishes**: from then on a page sends joins
and pulls only, whatever buttons are pressed, and the pulls that the publish button
makes change nothing on the server. -/
theorem never_publishes {s₀ : Exchange.State Server ZalRtc Json Json}
    (hr : Lts.Reachable (pageSystem env cfg isNaN c) s₀) (hnamed : s₀.client.remoteUid ≠ [])
    (r : Lts.Reachable ((pageSystem env cfg isNaN c).startingAt s₀) s) :
    ∃ qs, s.asked = s₀.asked ++ qs ∧ ∀ q ∈ qs, JoinsOrPulls env c q := by
  suffices h : s.client.remoteUid ≠ [] ∧
      ∃ qs, s.asked = s₀.asked ++ qs ∧ ∀ q ∈ qs, JoinsOrPulls env c q from h.2
  refine r.invariant (P := fun s => s.client.remoteUid ≠ [] ∧
    ∃ qs, s.asked = s₀.asked ++ qs ∧ ∀ q ∈ qs, JoinsOrPulls env c q) ?_ ?_
  · rintro s rfl
    exact ⟨hnamed, [], (List.append_nil _).symm, nofun⟩
  · rintro s l s' r ⟨hne, qs, hasked, hqs⟩ hstep
    have hmatched := Exchange.reachable_matched (fun _ => page_answers) (hr.of_startingAt r)
    cases hstep with
    | connect | serve | other | hangUp => exact ⟨hne, qs, hasked, hqs⟩
    | @act e z' new h =>
        obtain ⟨hremote, hnew⟩ := ZalRtc.onEvent_asks h
        have hne' : z'.remoteUid ≠ [] := hremote ▸ hne
        unfold Exchange.State.say
        split
        · refine ⟨hne', qs ++ new, ?_, ?_⟩
          · show s.asked ++ new = _
            rw [hasked, List.append_assoc]
          · intro q hq
            rcases List.mem_append.mp hq with hold | hq
            · exact hqs q hold
            · obtain ⟨peer, -, rfl | rfl⟩ := hnew q hq
              · exact Or.inl rfl
              · exact sendSdpOffer_pulls peer hne
        · exact ⟨hne', qs, hasked, hqs⟩
    | @receive msg down client hdown h =>
        obtain rfl := h
        refine ⟨?_, qs, hasked, hqs⟩
        obtain ⟨q, -, hresponds⟩ := hmatched.exists_asked (r := msg) (by
          rw [hdown]
          exact List.mem_append_right _ (List.mem_cons_self ..))
        rcases ZalRtc.onServerMsg_remoteUid (z := s.client) hresponds with heq | ⟨_, _, _, _, hne'⟩
        · exact heq ▸ hne
        · exact hne'

/-- The publish button is pressed, and what the page sends is a pull that names
nobody. -/
theorem never_publishes_told : ∃ s₀ s : Exchange.State Server ZalRtc Json Json,
    s₀.client.remoteUid = Sample.uid2 ∧ s.asked ≠ s₀.asked ∧
      ∃ qs, s.asked = s₀.asked ++ qs ∧ ∀ q ∈ qs, JoinsOrPulls Sample.env 1 q := by
  obtain ⟨tr, s₀, run, -, hlink, -, hclient⟩ := Sample.exists_joined_page
  obtain ⟨z₁, z₂, z₃, q, hclick, hoffer, hlocal⟩ : ∃ z₁ z₂ z₃ q,
      ZalRtc.onEvent Sample.notANumber Sample.joinedPage .publishBtn = some (z₁, []) ∧
      ZalRtc.onEvent Sample.notANumber z₁ (.resolved (.offer 0) ⟨[], []⟩) = some (z₂, []) ∧
      ZalRtc.onEvent Sample.notANumber z₂ (.resolved (.localDescription 0) ⟨[], []⟩) =
        some (z₃, [q]) := ⟨_, _, _, _, rfl, rfl, rfl⟩
  obtain ⟨server, client, link, up, down, asked, got⟩ := s₀
  cases hlink
  cases hclient
  have run₀ : Lts.Run ((pageSystem Sample.env Sample.cfg Sample.notANumber 1).startingAt
      ⟨server, Sample.joinedPage, .opened, up, down, asked, got⟩) [] _ := .start rfl
  have run₁ := run₀.snoc (.act hclick)
  have run₂ := run₁.snoc (.act hoffer)
  have run₃ := run₂.snoc (.act hlocal)
  have hremote : Sample.joinedPage.remoteUid ≠ [] := by decide
  refine ⟨_, _, rfl, ?_, never_publishes run.reachable hremote run₃.reachable⟩
  simp [Exchange.State.say]

/-- The join button is pressed for one uid only. -/
def JoinsAs (uid : Str) (_ : ZalRtc) (e : PageEvent) : Prop := ∀ r u, e = .joinBtn r u → u = uid

/-- Nothing on the page names its own uid as the remote one. -/
structure NamesOthers (uid : Str) (z : ZalRtc) (asked : List Json) : Prop where
  remote : z.remoteUid ≠ uid
  peers (peer : PeerObject) (h : peer ∈ z.peers) :
    peer.localUid = uid ∧ peer.remoteUid ≠ .string uid
  asked (q : Json) (h : q ∈ asked) : getJsonString q (str "uid") [] = .ok uid ∧
    getJsonString q (str "remote_uid") [] ≠ .ok uid

theorem NamesOthers.sends {uid : Str} {z : ZalRtc} {asked : List Json}
    (h : NamesOthers uid z asked) (huid : uid ≠ []) {peer : PeerObject} (hpeer : peer ∈ z.peers)
    {q : Json} (hq : q = peer.sendJoin ∨ q = peer.sendSdpOffer z.remoteUid) :
    getJsonString q (str "uid") [] = .ok uid ∧ getJsonString q (str "remote_uid") [] ≠ .ok uid := by
  obtain ⟨hlocal, hremote⟩ := h.peers peer hpeer
  have hnone : (Except.ok [] : Result Str) ≠ .ok uid := fun heq => huid (Except.ok.inj heq).symm
  rcases hq with rfl | rfl
  · exact ⟨hlocal ▸ rfl, hnone⟩
  · unfold PeerObject.sendSdpOffer
    split
    · refine ⟨hlocal ▸ rfl, ?_⟩
      cases heq : peer.remoteUid with
      | string s => exact fun hok => hremote (by rw [heq, Except.ok.inj hok])
      | _ => exact hnone
    · exact ⟨hlocal ▸ rfl, hnone⟩

/-- **A page never pulls its own stream**, if it joins with one uid: the server tells
it of the others only. -/
theorem never_pulls_itself {uid : Str} (huid : uid ≠ [])
    (run : Lts.Run (pageSystem env cfg isNaN c) tr s)
    (hg : Lts.Guarded (Exchange.ActsBy (JoinsAs uid)) tr) :
    ∀ q ∈ s.asked, getJsonString q (str "remote_uid") [] ≠ .ok uid := by
  have h : NamesOthers uid s.client s.asked := by
    refine Exchange.Run.client (C := JoinsAs uid) (fun _ => page_answers) ?_ ?_ ?_ run hg
    · rintro z rfl
      exact ⟨fun h => huid h.symm, by simp, by simp⟩
    · intro z asked e z' qs h hjoins he
      obtain ⟨hremote, hqs⟩ := ZalRtc.onEvent_asks he
      have hpeers : ∀ peer ∈ z'.peers, peer.localUid = uid ∧ peer.remoteUid ≠ .string uid := by
        intro peer' hmem
        rcases ZalRtc.onEvent_peers he hmem with ⟨r, u, rfl, rfl, hnum⟩ |
          ⟨peer, hpeer, hlocal, hset⟩
        · refine ⟨hjoins r _ rfl, ?_⟩
          rw [hnum]
          exact nofun
        · obtain ⟨hold, hne⟩ := h.peers peer hpeer
          refine ⟨hlocal.trans hold, ?_⟩
          rcases hset with hset | hset | hset
          · rw [hset]
            exact hne
          · rw [hset]
            exact nofun
          · rw [hset]
            exact fun heq => h.remote (Json.string.inj heq)
      have h' : NamesOthers uid z' asked := ⟨hremote ▸ h.remote, hpeers, h.asked⟩
      refine ⟨⟨h'.remote, hpeers, ?_⟩, h'⟩
      intro q hq
      rcases List.mem_append.mp hq with hold | hnew
      · exact h.asked q hold
      · obtain ⟨peer, hpeer, hq⟩ := hqs q hnew
        exact h.sends huid hpeer hq
    · rintro z asked r z' h ⟨q, hq, hr⟩ rfl
      refine ⟨?_, ?_, h.asked⟩
      · rcases ZalRtc.onServerMsg_remoteUid (z := z) hr with heq | ⟨uid', -, huid', hne, -⟩
        · exact heq ▸ h.remote
        · rw [(h.asked q hq).1] at huid'
          cases huid'
          exact hne
      · rw [ZalRtc.onServerMsg_peers]
        exact h.peers
  exact fun q hq => (h.asked q hq).2

theorem never_pulls_itself_joined : ∃ s : Exchange.State Server ZalRtc Json Json,
    s.got = [joinReply (str "1") Sample.uid1 [Sample.uid2]] ∧
      ∀ q ∈ s.asked, getJsonString q (str "remote_uid") [] ≠ .ok Sample.uid1 := by
  obtain ⟨tr, s, run, hacts, -, hgot, -⟩ := Sample.exists_joined_page
  refine ⟨s, hgot, never_pulls_itself (by decide) run ?_⟩
  intro p hp e he r u hjoin
  rcases hacts p hp e he with ⟨hbtn, -⟩ | ⟨promise, session, hres⟩
  · cases hjoin.symm.trans hbtn
    rfl
  · cases hjoin.symm.trans hres

end JuanSfu
