import JuanSfu.Client.ZalRtcPeer

/-!
# `webrtc-client/p2p/main.js`: the page

The page holds one socket, a map of `ZalRtcPeer` objects by uid and, beside them,
the variable `remote_uid`. What the browser does for it (the camera, the offer, the
local description) comes back later, in any order: a promise holds on to the
object it was made for, which the map may have lost by then. An object is a cell of
`peers`.
-/

namespace JuanSfu

abbrev PeerId := ℕ

/-- A `ZalRtcPeer` object: `remoteUid` is -1 or a string, of the connection and of
the camera's stream it only matters whether they are there. -/
structure PeerObject where
  roomId : Str
  localUid : Str
  remoteUid : Json := .number
  pc : Bool := false
  localStream : Bool := false
  localDesc : Option LocalDesc := none

/-- What the browser has been asked for and has not settled yet. -/
inductive Promise where
  | localStream (p : PeerId)
  | offer (p : PeerId)
  | localDescription (p : PeerId)
deriving DecidableEq

def Promise.peer : Promise → PeerId
  | .localStream p | .offer p | .localDescription p => p

/-- What becomes of a response of the server. -/
inductive PageMark where
  /-- The response to a join that is not the page's is shown in an alert. -/
  | joinRefused
  /-- A description for another room, or for no object of the page. -/
  | answerRefused
  /-- `setRemoteDescription` of a connection that is null. -/
  | noConnection
  | described (p : PeerId) (sdp : Json)

/-- The `ZalRtc` object, and `remote_uid`. -/
structure ZalRtc where
  remoteUid : Str := []
  room : UnorderedMap Str PeerId := ∅
  roomId : Option Str := none
  localUid : Option Str := none
  peers : List PeerObject := []
  pending : List Promise := []
  marks : List PageMark := []

/-- What happens to the page. -/
inductive PageEvent where
  | joinBtn (roomId uid : Str)
  | publishBtn
  | pullBtn
  /-- `session` is what `createOffer` comes to. -/
  | resolved (promise : Promise) (session : LocalDesc)
  | rejected (promise : Promise)

namespace PeerObject

/-- The message of `SendJoin`. -/
def sendJoin (peer : PeerObject) : Json :=
  requestOf (str "join") peer.roomId peer.localUid []

/-- `JSON.stringify(this.local_desc)`. -/
def localDescText (peer : PeerObject) : Str :=
  (peer.localDesc.map LocalDesc.stringify).getD (str "null")

/-- The message of `sendSdpOffer`; the page's `remote_uid` decides which it is. -/
def sendSdpOffer (peer : PeerObject) (remoteUid : Str) : Json :=
  if remoteUid.length > 0 then
    requestOf (str "pullstream") peer.roomId peer.localUid
      [(str "remote_uid", peer.remoteUid), (str "sdp", .string peer.localDescText)]
  else
    requestOf (str "publish") peer.roomId peer.localUid
      [(str "sdp", .string peer.localDescText)]

/-- With a description and a remote uid that is a string, this is the message that
the server cuts into lines. -/
theorem sendSdpOffer_eq {peer : PeerObject} {remote : Str} {desc : LocalDesc}
    (hremote : peer.remoteUid = .string remote) (hdesc : peer.localDesc = some desc)
    (remoteUid : Str) : peer.sendSdpOffer remoteUid =
      ZalRtcPeer.sendSdpOffer ⟨peer.roomId, peer.localUid, remote, desc⟩ remoteUid := by
  unfold sendSdpOffer ZalRtcPeer.sendSdpOffer localDescText
  rw [hremote, hdesc]
  rfl

end PeerObject

/-- `json[key]` in the page; a property that is not there is undefined. -/
def Json.prop (json : Json) (key : Str) : Option Json :=
  match json with
  | .object members => members.lookup key
  | _ => none

/-- What the input fields show as long as nothing is typed, but for `ID`. -/
def typeRoom : Str :=
  [0xE8, 0xAF, 0xB7, 0xE8, 0xBE, 0x93, 0xE5, 0x85, 0xA5, 0xE6, 0x88, 0xBF, 0xE9, 0x97, 0xB4]

def typeUser : Str :=
  [0xE8, 0xAF, 0xB7, 0xE8, 0xBE, 0x93, 0xE5, 0x85, 0xA5, 0xE7, 0x94, 0xA8, 0xE6, 0x88, 0xB7]

namespace ZalRtc

/-- The object that the map has under a uid. -/
def peerOf (z : ZalRtc) (uid : Str) : Option PeerId := z.room.lookup uid

def setPeer (z : ZalRtc) (p : PeerId) (peer : PeerObject) : ZalRtc :=
  { z with peers := z.peers.set p peer }

def ask (z : ZalRtc) (promise : Promise) : ZalRtc :=
  { z with pending := z.pending ++ [promise] }

/-! ## The buttons -/

/-- `JoinRoom`, with the `OpenLocalStream` of the new object. -/
def joinRoom (z : ZalRtc) (roomId uid : Str) : ZalRtc :=
  { z with
    roomId := some roomId
    localUid := some uid
    room := z.room.insert uid z.peers.length
    peers := z.peers ++ [{ roomId, localUid := uid }]
    pending := z.pending ++ [.localStream z.peers.length] }

/-- The handler of the join button; `isNaN` is that of `Number(text)`. -/
def joinBtn (isNaN : Str → Bool) (z : ZalRtc) (roomId uid : Str) : ZalRtc :=
  if roomId = [] ∨ roomId = typeRoom ++ str "ID" then z
  else if uid = [] ∨ uid = typeUser ++ str "ID" then z
  else if isNaN roomId ∨ isNaN uid then z
  else z.joinRoom roomId uid

/-- `CreateOffer`: a connection made before the camera has opened is kept, but
`getTracks` of null ends the handler. -/
def createOffer (z : ZalRtc) (p : PeerId) (remoteUid : Json) : ZalRtc :=
  match z.peers[p]? with
  | none => z
  | some peer =>
      let z' := z.setPeer p { peer with remoteUid, pc := true }
      if !peer.pc && !peer.localStream then z' else z'.ask (.offer p)

def publishStream (z : ZalRtc) : ZalRtc :=
  match z.localUid.bind z.peerOf with
  | none => z
  | some p => z.createOffer p .number

def pullStream (z : ZalRtc) : ZalRtc :=
  match z.localUid.bind z.peerOf with
  | none => z
  | some p => z.createOffer p (.string z.remoteUid)

/-! ## Promises -/

/-- What a promise that is kept makes the object do, and what is sent:
`initLocalStream`, `doCreateOffer` and `sendSdpOffer`. -/
def onResolved (z : ZalRtc) (promise : Promise) (session : LocalDesc) : ZalRtc × List Json :=
  let p := promise.peer
  match z.peers[p]? with
  | none => (z, [])
  | some peer =>
      match promise with
      | .localStream _ => (z.setPeer p { peer with localStream := true }, [peer.sendJoin])
      | .offer _ =>
          ((z.setPeer p { peer with localDesc := some session }).ask (.localDescription p), [])
      | .localDescription _ => (z, [peer.sendSdpOffer z.remoteUid])

/-- One event; a promise is settled once. -/
def onEvent (isNaN : Str → Bool) (z : ZalRtc) : PageEvent → Option (ZalRtc × List Json)
  | .joinBtn roomId uid => some (z.joinBtn isNaN roomId uid, [])
  | .publishBtn => some (z.publishStream, [])
  | .pullBtn => some (z.pullStream, [])
  | .resolved promise session =>
      if promise ∈ z.pending then
        some ({ z with pending := z.pending.erase promise }.onResolved promise session)
      else none
  | .rejected promise =>
      if promise ∈ z.pending then some ({ z with pending := z.pending.erase promise }, [])
      else none

/-! ## Responses -/

def note (z : ZalRtc) (mark : PageMark) : ZalRtc := { z with marks := z.marks ++ [mark] }

/-- The object for a response: it names the page's room and a uid of the map. -/
def addressee (z : ZalRtc) (json : Json) : Option PeerId :=
  match json.prop (str "roomId"), json.prop (str "uid") with
  | some (.string roomId), some (.string uid) =>
      if z.roomId = some roomId then z.peerOf uid else none
  | _, _ => none

def handleResponseJoin (z : ZalRtc) (json : Json) : ZalRtc :=
  match z.addressee json with
  | none => z.note .joinRefused
  | some _ =>
      match json.prop (str "members") with
      | some (.array (first :: _)) =>
          match first.prop (str "uid") with
          | some (.string uid) => { z with remoteUid := uid }
          | _ => z
      | _ => z

/-- `SetRemoteSdp` of the object a response is for. -/
def handleResponseSdp (z : ZalRtc) (json : Json) : ZalRtc :=
  match z.addressee json with
  | none => z.note .answerRefused
  | some p =>
      match z.peers[p]? with
      | some peer =>
          if peer.pc then z.note (.described p ((json.prop (str "sdp")).getD .null))
          else z.note .noConnection
      | none => z.note .noConnection

def handleResponsePublish (z : ZalRtc) (json : Json) : ZalRtc := z.handleResponseSdp json

def handleResponsePullStream (z : ZalRtc) (json : Json) : ZalRtc := z.handleResponseSdp json

def onServerMsg (z : ZalRtc) (json : Json) : ZalRtc :=
  match json.prop (str "cmd") with
  | some (.string cmd) =>
      if cmd = str "resp-join" then z.handleResponseJoin json
      else if cmd = str "resp-publish" then z.handleResponsePublish json
      else if cmd = str "resp-pullstream" then z.handleResponsePullStream json
      else z
  | _ => z

end ZalRtc

end JuanSfu
