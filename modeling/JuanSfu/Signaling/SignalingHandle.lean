import JuanSfu.Utils.Json
import JuanSfu.Signaling.PortMgr
import JuanSfu.Signaling.RoomMember

/-!
# `signaling/signaling_handle.cpp`

The handlers of the signalling messages, on the state of the whole server: the
two maps of `SignalingHandle` and the objects the singletons hold. A handler
returns the new state and what it has done to the outside, in order.

`handlePublish` and `handlePull` differ in what they check and in the direction
of the media; from the allocation of a port on they are one function, `serve`.
-/

namespace JuanSfu

/-- Members and connections are separate maps, both by uid. -/
structure Room where
  members : UnorderedMap Str RoomMember := ∅
  connections : UnorderedMap Str ConnId := ∅

structure Server where
  allRooms : UnorderedMap ℤ Room := ∅
  /-- One room for each connection, the one it joined last. -/
  connections : UnorderedMap ConnId ℤ := ∅
  portMgr : UdpPortManager
  media : Media
  nextUdp : UdpId := 0

inductive Effect where
  | reply (c : ConnId) (msg : Json)
  /-- The result of `allocate_port`, which may be 0. -/
  | portAllocated (port : UInt32)
  | portRecycled (port : UInt32)
  | udpClosed (udp : UdpId)
  | member (roomid : ℤ) (uid : Str) (e : MemberEffect)

/-- What is drawn while a message is handled: the credentials of an answer, and the
order in which a join meets the members of its room. -/
structure MessageOracle extends IceCredentials where
  order : List Str := []

instance : Coe MessageOracle IceCredentials := ⟨MessageOracle.toIceCredentials⟩

namespace Server

/-! ## Rooms and members -/

def findRoom (s : Server) (roomid : ℤ) : Option Room := s.allRooms.lookup roomid

def createRoom (s : Server) (roomid : ℤ) : Server :=
  { s with allRooms := s.allRooms.insert roomid {} }

def member (s : Server) (roomid : ℤ) (uid : Str) : Option RoomMember :=
  (s.findRoom roomid).bind (·.members.lookup uid)

/-- The connection that `uid`'s entry in the room names. -/
def connectionOf (s : Server) (roomid : ℤ) (uid : Str) : Option ConnId :=
  (s.findRoom roomid).bind (·.connections.lookup uid)

/-- A change of the object of a member, which its room points at. -/
def setMember (s : Server) (roomid : ℤ) (uid : Str) (m : RoomMember) : Server :=
  let room := (s.findRoom roomid).getD {}
  { s with allRooms :=
      s.allRooms.set roomid { room with members := room.members.set uid m } }

/-! ## Joining -/

def joinReply (sroomid uid : Str) (members : List Str) : Json :=
  .object
    [(str "cmd", .string (str "resp-join")), (str "roomId", .string sroomid),
      (str "uid", .string uid),
      (str "members", .array (members.map fun u => .object [(str "uid", .string u)]))]

/-- The new member and its connection, entered in room and reverse index. -/
def enter (s : Server) (roomid : ℤ) (uid : Str) (c : ConnId) : Server :=
  let room := (s.findRoom roomid).getD {}
  { s with
    allRooms := s.allRooms.set roomid
      { connections := room.connections.set uid c
        members := room.members.set uid { uid } }
    connections := s.connections.set c roomid }

def handleJoin (s : Server) (msg : Json) (c : ConnId) (order : List Str) :
    Result (Server × List Effect) := do
  let sroomid ← getJsonString msg (str "roomId") []
  let uid ← getJsonString msg (str "uid") []
  if sroomid.length < 1 ∨ uid.length < 1 then
    return (s, [])
  let roomid ← stoll (cStr sroomid)
  let s := if (s.findRoom roomid).isNone then s.createRoom roomid else s
  if (s.member roomid uid).isSome then
    return (s, [])
  let members := ((s.findRoom roomid).getD {}).members
  let uids := order.filterMap fun u => (members.lookup u).map (·.uid)
  return (s.enter roomid uid c, [.reply c (joinReply sroomid uid uids)])

/-- The room that a message names. -/
def roomNamed (msg : Json) : Option ℤ :=
  ((getJsonString msg (str "roomId") []).bind fun sroomid => stoll (cStr sroomid)).toOption

/-- `order` is one in which a join may meet the members of the room; it is up to the
hash map which. -/
def ListsMembers (s : Server) (msg : Json) (order : List Str) : Prop :=
  getJsonString msg (str "cmd") [] = .ok (str "join") →
    ∀ roomid ∈ roomNamed msg, order.Perm ((s.findRoom roomid).getD {}).members.keys

instance (s : Server) (msg : Json) (order : List Str) : Decidable (s.ListsMembers msg order) :=
  inferInstanceAs (Decidable (_ → _))

/-! ## Publishing and pulling -/

def sdpStart : Str := str "sdp\":\""

/-- The text between `"sdp":"` and the closing `"}` of the stringified offer,
cut by position: `substr` counts in `size_t`, which wraps around. -/
def sdpstrOf (sdp : Str) : Option Str :=
  (find sdp sdpStart 0).map fun pos =>
    let n := if pos + 2 + sdpStart.length + 4 ≤ sdp.length
      then sdp.length - pos - 2 - sdpStart.length - 4
      else 2 ^ 64 + sdp.length - pos - 2 - sdpStart.length - 4
    substr sdp (pos + sdpStart.length) n

/-- The two characters `\r` and `\n`, still escaped. -/
def escapedCrlf : Str := str "\\r\\n"

/-- The lines of the offer in a message, `none` at the exits `sdp format error`
and `sdp error`. -/
def sdpLines (msg : Json) : Result (Option (List Str)) := do
  let sdp ← getJsonString msg (str "sdp") []
  match sdpstrOf sdp with
  | none => return none
  | some sdpstr =>
      let vecs ← split sdpstr escapedCrlf []
      return if vecs.length < 6 then none else some vecs

def publishOptions : RTCOfferAnswerOptions :=
  { sendAudio := false, sendVideo := false, recvAudio := true, recvVideo := true,
    useRtcpMux := true }

def pullOptions : RTCOfferAnswerOptions :=
  { sendAudio := true, sendVideo := true, recvAudio := false, recvVideo := false,
    useRtcpMux := true }

def sdpReply (cmd sroomid uid answer : Str) : Json :=
  .object
    [(str "cmd", .string cmd), (str "roomId", .string sroomid),
      (str "uid", .string uid),
      (str "sdp", .object
        [(str "type", .string (str "answer")), (str "sdp", .string answer)])]

/-- The answer for a member: `set_peer_sdp` if there is a peer, then
`create_answer` and `build`. -/
def answerSdp (env : Env) (offer : SessionDescription)
    (peer : Option SessionDescription) (options : RTCOfferAnswerOptions)
    (addr : BindAddress) (rnd : IceCredentials) : SessionDescription :=
  let answer : SessionDescription := {}
  let answer :=
    match peer with
    | some peer => answer.setPeerSdp peer
    | none => answer
  (answer.createAnswer env options addr rnd).build offer

/-- The end of both handlers: a port, the answer, the reply and a receiver. -/
def serve (env : Env) (s : Server) (c : ConnId) (cmd sroomid : Str) (roomid : ℤ)
    (member : RoomMember) (uid : Str) (peer : Option SessionDescription)
    (options : RTCOfferAnswerOptions) (rnd : IceCredentials) :
    Result (Server × List Effect) := do
  let (port, portMgr) ← s.portMgr.allocatePort
  let answer := answerSdp env member.offerSdp peer options { ip := env.ipstr, port } rnd
  let member := { member with answerSdp := some answer }
  let member := member.startRecv { ip := str "0.0.0.0", port } s.nextUdp
  return ({ s.setMember roomid uid member with portMgr, nextUdp := s.nextUdp + 1 },
    [.portAllocated port, .reply c (sdpReply cmd sroomid uid (answer.toString env))])

def handlePublish (env : Env) (s : Server) (msg : Json) (c : ConnId)
    (rnd : IceCredentials) : Result (Server × List Effect) := do
  let sroomid ← getJsonString msg (str "roomId") []
  let uid ← getJsonString msg (str "uid") []
  if sroomid.length < 1 ∨ uid.length < 1 then
    return (s, [])
  let roomid ← stoll (cStr sroomid)
  let some member := s.member roomid uid | return (s, [])
  let some vecs ← sdpLines msg | return (s, [])
  let (flag, offerSdp) ← member.offerSdp.parseSdp vecs
  let member := { member with offerSdp }
  let s := s.setMember roomid uid member
  if !flag then
    return (s, [])
  s.serve env c (str "resp-publish") sroomid roomid member uid none publishOptions rnd

/-- The peer's offer is read when the answer is made, after the puller's own
has been parsed: a member that pulls itself is answered from its new offer. -/
def handlePull (env : Env) (s : Server) (msg : Json) (c : ConnId)
    (rnd : IceCredentials) : Result (Server × List Effect) := do
  let sroomid ← getJsonString msg (str "roomId") []
  let uid ← getJsonString msg (str "uid") []
  let remoteUid ← getJsonString msg (str "remote_uid") []
  if sroomid.length < 1 ∨ uid.length < 1 ∨ remoteUid.length < 1 then
    return (s, [])
  let roomid ← stoll (cStr sroomid)
  let some member := s.member roomid uid | return (s, [])
  let some peer := s.member roomid remoteUid | return (s, [])
  let some vecs ← sdpLines msg | return (s, [])
  let s := { s with media := s.media.addSubscriber uid remoteUid }
  let (_, offerSdp) ← member.offerSdp.parseSdp vecs
  let member := { member with offerSdp }
  let s := s.setMember roomid uid member
  let peer := if remoteUid = uid then member else peer
  s.serve env c (str "resp-pullstream") sroomid roomid member uid (some peer.offerSdp)
    pullOptions rnd

def handle (env : Env) (s : Server) (msg : Json) (c : ConnId)
    (rnd : MessageOracle) : Result (Server × List Effect) := do
  let cmd ← getJsonString msg (str "cmd") []
  if cmd = str "join" then
    s.handleJoin msg c rnd.order
  else if cmd = str "publish" then
    s.handlePublish env msg c rnd
  else if cmd = str "pullstream" then
    s.handlePull env msg c rnd
  else
    return (s, [])

/-! ## Leaving -/

/-- The port a stopped receiver gives back. -/
def giveBack (portMgr : UdpPortManager) (stopped : Option (UInt32 × UdpId)) :
    Result (UdpPortManager × List Effect) :=
  match stopped with
  | none => .ok (portMgr, [])
  | some (port, udp) => do
      let portMgr ← portMgr.recyclePort port
      return (portMgr, [.udpClosed udp, .portRecycled port])

/-- The body of the removal loop, at the entry of `uid` in room `roomid`. -/
def removeEntry (s : Server) (roomid : ℤ) (room : Room) (uid : Str) :
    Result (Server × List Effect) := do
  let connections := room.connections.erase uid
  match room.members.lookup uid with
  | none =>
      return ({ s with allRooms :=
          s.allRooms.set roomid { room with connections } }, [])
  | some member =>
      let (stopped, member) := member.stopRecv
      let (portMgr, effects) ← giveBack s.portMgr stopped
      let (media, _) := RoomMember.destory s.media member
      let members := room.members.erase uid
      return ({ s with
          allRooms := s.allRooms.set roomid { members, connections }
          portMgr, media }, effects)

/-- The removal loop stops at the first entry of the connection. -/
def removeFirst (s : Server) (roomid : ℤ) (first : Option Str) :
    Result (Server × List Effect) :=
  match s.findRoom roomid, first with
  | some room, some uid => s.removeEntry roomid room uid
  | _, _ => .ok (s, [])

/-- `remove`. Which entry of connection `c` the loop over the room's connections
meets first is up to the hash map; `first` says which. -/
def remove (s : Server) (c : ConnId) (first : Option Str) :
    Result (Server × List Effect) :=
  match s.connections.lookup c with
  | none => .ok (s, [])
  | some roomid => do
      let (s, effects) ← s.removeFirst roomid first
      return ({ s with connections := s.connections.erase c }, effects)

/-- `first` is an entry of connection `c`, or nothing if the room that `remove`
looks at has none. -/
def MeetsFirst (s : Server) (c : ConnId) (first : Option Str) : Prop :=
  ∀ roomid, s.connections.lookup c = some roomid →
    match first with
    | some uid => s.connectionOf roomid uid = some c
    | none => ∀ uid, s.connectionOf roomid uid ≠ some c

/-- The same, looked up. -/
theorem meetsFirst_iff {s : Server} {c : ConnId} {first : Option Str} :
    s.MeetsFirst c first ↔ ∀ roomid ∈ s.connections.lookup c,
      match first with
      | some uid => s.connectionOf roomid uid = some c
      | none => ∀ e ∈ ((s.findRoom roomid).getD {}).connections.entries, e.2 ≠ c := by
  refine forall_congr' fun roomid => imp_congr Iff.rfl ?_
  cases first with
  | some uid => exact Iff.rfl
  | none =>
      constructor
      · intro h e he heq
        subst heq
        refine h e.1 ?_
        have he := UnorderedMap.mem_entries_iff.mp he
        cases hroom : s.findRoom roomid with
        | none => simp [hroom] at he
        | some room => simpa [connectionOf, hroom] using he
      · intro h uid hof
        obtain ⟨room, hroom, hof⟩ := Option.bind_eq_some_iff.mp hof
        rw [hroom] at h
        exact h ⟨uid, c⟩ (UnorderedMap.mem_entries_iff.mpr hof) rfl

instance (s : Server) (c : ConnId) : ∀ first : Option Str, Decidable (s.MeetsFirst c first)
  | some _ => decidable_of_iff' _ meetsFirst_iff
  | none => decidable_of_iff' _ meetsFirst_iff

end Server

end JuanSfu
