import JuanSfu.Sdp.BrokenLines
import JuanSfu.Signaling.WssServer
import JuanSfu.System

/-!
# Messages that end the server

Nothing between the event loop and the handlers catches an exception. The
handlers look members up in whatever the parser has accepted, read `roomId`
with `stoll` once it is known not to be empty, and parse the offer. Here it is
said for which messages all of this returns.
-/

namespace JuanSfu

/-! ## What may be sent -/

/-- The text begins with a decimal number that fits into 64 bits. -/
def BeginsWithNumber (s : Str) : Prop :=
  ∃ n, strtol s = some n ∧ -9223372036854775808 ≤ n ∧ n ≤ 9223372036854775807

/-- A message that does the server no harm: it is an object, a room it names is
a number, and an offer that is parsed has no broken line. -/
structure Server.Tolerates (s : Server) (msg : Json) : Prop where
  object : ∃ members, msg = .object members
  number (sroomid : Str) (h : NamesRoom msg sroomid) : BeginsWithNumber (cStr sroomid)
  lines (sroomid : Str) (r : ℤ) (u : Str) (m : RoomMember) (lines : List Str)
    (pull : Option Str) (h : s.Requests msg sroomid r u m lines pull) :
    ¬ MeetsBroken false false lines

theorem stoll_ok_iff {s : Str} : (∃ n, stoll s = .ok n) ↔ BeginsWithNumber s := by
  unfold stoll BeginsWithNumber
  cases strtol s with
  | none => simp
  | some n =>
      dsimp only
      split
      · next hfits => simp [hfits]
      · next hfits => simp [hfits]

namespace Server

variable {env : Env} {cfg : Config} {s s' : Server} {c : ConnId} {msg : Json}
  {rnd : MessageOracle} {sroomid : Str} {r : ℤ} {u : Str} {m : RoomMember} {lines : List Str}
  {pull : Option Str} {e : Fault} {members : List (Str × Json)}

/-! ## The port manager never fails -/

theorem Outcome.validPorts {e : Event} {effects : List Effect} (hv : s.portMgr.Valid)
    (h : Outcome env s e s' effects) : s'.portMgr.Valid := by
  cases h with
  | unknown => exact hv
  | quiet _ _ _ ho | joined _ _ _ _ _ _ ho | offered _ _ _ _ ho | unlisted _ _ _ _ ho
  | acted _ _ _ ho =>
      rw [ho.portMgr]
      exact hv
  | received _ _ _ _ _ hport =>
      rw [hport]
      exact hv
  | served _ _ _ _ halloc =>
      obtain ⟨port, portMgr, heq, hv'⟩ := hv.allocatePort
      rw [halloc] at heq
      cases heq
      exact hv'
  | @parted c s' r u m hlast hentry hmem hm hof hc hport =>
      cases hrcv : m.udpReceiver with
      | none =>
          rw [hrcv] at hport
          dsimp only at hport
          rw [hport]
          exact hv
      | some rcv =>
          rw [hrcv] at hport
          exact hv.recyclePort hport

theorem reachable_validPorts (hr : Lts.Reachable (system env cfg) s) : s.portMgr.Valid := by
  refine hr.invariant (P := fun s => s.portMgr.Valid) ?_ ?_
  · rintro s rfl
    refine (UdpPortManager.ledger_init ?_).valid
    exact Int.tdiv_nonneg (Int.sub_nonneg.mpr cfg.end_gt.le) cfg.step_pos.le
  · intro s l s' hs hv hstep
    exact (step_outcome (reachable_wellFormed hs) hstep).validPorts hv

theorem exists_serve (hv : s.portMgr.Valid) (cmd : Str) (m : RoomMember)
    (peer : Option SessionDescription) (options : RTCOfferAnswerOptions) :
    ∃ res, s.serve env c cmd sroomid r m u peer options rnd = .ok res := by
  obtain ⟨port, portMgr, halloc, -⟩ := hv.allocatePort
  exact exists_bind_ok ⟨_, halloc⟩ fun _ _ => ⟨_, rfl⟩

/-! ## Where a message can go wrong -/

theorem exists_sdpLines (members : List (Str × Json)) :
    ∃ found, sdpLines (.object members) = .ok found := by
  refine exists_bind_ok (exists_getJsonString ..) fun sdp _ => ?_
  cases sdpstrOf sdp with
  | none => exact ⟨_, rfl⟩
  | some sdpstr => exact exists_bind_ok (exists_split (by decide) _) fun vecs _ => ⟨_, rfl⟩

/-- An object is no reason for an exception. -/
theorem getJsonString_ne_error {item last : Str} :
    getJsonString (.object members) item last ≠ .error e := by
  obtain ⟨s, hs⟩ := exists_getJsonString members item last
  rw [hs]
  exact ok_ne_error _ _

theorem handleJoin_error (hcmd : Commands (.object members) (str "join"))
    (h : s.handleJoin (.object members) c rnd.order = .error e) :
    ∃ sroomid, NamesRoom (.object members) sroomid ∧ stoll (cStr sroomid) = .error e := by
  unfold handleJoin at h
  rcases bind_error h with h | ⟨sroomid, hroom, h⟩
  · exact absurd h getJsonString_ne_error
  rcases bind_error h with h | ⟨uid, huid, h⟩
  · exact absurd h getJsonString_ne_error
  split at h
  · cases h
  · next hlen =>
    rcases bind_error h with h | ⟨roomid, hid, h⟩
    · exact ⟨sroomid, ⟨hroom, by omega, ⟨uid, huid, by omega⟩, Or.inl hcmd⟩, h⟩
    · dsimp only at h
      split at h <;> split at h <;> cases h

/-- **Where a message that is an object can go wrong**: at the number of its room
or behind the checks of a publish or a pull. -/
theorem handle_error (h : s.handle env (.object members) c rnd = .error e) :
    (∃ sroomid, NamesRoom (.object members) sroomid ∧ stoll (cStr sroomid) = .error e) ∨
      ∃ sroomid r u m lines pull, s.Requests (.object members) sroomid r u m lines pull := by
  have hchecks : FailsCheck (.object members) e →
      ∃ sroomid, NamesRoom (.object members) sroomid ∧ stoll (cStr sroomid) = .error e := by
    rintro (⟨item, hitem⟩ | ⟨sroomid, hnames, hid⟩ | hlines)
    · exact absurd hitem getJsonString_ne_error
    · exact ⟨sroomid, hnames, hid⟩
    · obtain ⟨found, hfound⟩ := exists_sdpLines members
      rw [hfound] at hlines
      cases hlines
  obtain ⟨cmd, hcmd⟩ := exists_getJsonString members (str "cmd") []
  rcases handle_dispatch hcmd with ⟨rfl, hjoin⟩ | hreq | hother
  · rw [hjoin] at h
    exact Or.inl (handleJoin_error hcmd h)
  · rcases handle_cases hreq h with ⟨e', he, hfails⟩ | hearly | hrequest
    · cases he
      exact Or.inl (hchecks hfails)
    · cases hearly
    · exact Or.inr hrequest
  · rw [hother] at h
    cases h

/-! ## When it does -/

/-- A room that is no number goes wrong in every state. -/
theorem handle_of_stoll_error (h : NamesRoom msg sroomid)
    (hid : stoll (cStr sroomid) = .error e) : s.handle env msg c rnd = .error e := by
  obtain ⟨hroom, hlen, ⟨uid, huid, hlen'⟩, hcmd⟩ := h
  have hne : sroomid ≠ [] := List.ne_nil_of_length_pos hlen
  have hne' : uid ≠ [] := List.ne_nil_of_length_pos hlen'
  rcases hcmd with hcmd | hcmd | ⟨hcmd, remoteUid, hremote, hlen''⟩
  · rw [Commands] at hcmd
    simp [handle, hcmd, handleJoin, hroom, huid, hid, hne, hne', bind, Except.bind]
  · rw [handle_publish hcmd]
    simp [handlePublish, hroom, huid, hid, hne, hne', bind, Except.bind]
  · have hne'' : remoteUid ≠ [] := List.ne_nil_of_length_pos hlen''
    rw [handle_pull hcmd]
    simp [handlePull, hroom, huid, hremote, hid, hne, hne', hne'', bind, Except.bind]

/-- A request that is parsed returns unless its offer has a broken line. -/
theorem Requests.returns_iff (hv : s.portMgr.Valid)
    (h : s.Requests msg sroomid r u m lines pull) :
    (∃ res, s.handle env msg c rnd = .ok res) ↔ ¬ MeetsBroken false false lines := by
  rw [handle_eq h]
  constructor
  · rintro ⟨res, hok⟩ hbroken
    rw [SessionDescription.parseSdp_error_iff.mpr ⟨rfl, hbroken⟩] at hok
    cases hok
  · intro hbroken
    cases hparse : m.offerSdp.parseSdp lines with
    | error e => exact absurd (SessionDescription.parseSdp_error_iff.mp hparse).2 hbroken
    | ok p =>
        show ∃ res, (if p.1 = false ∧ pull = none then _ else _) = Except.ok res
        split
        · exact ⟨_, rfl⟩
        · exact exists_serve (s := s.afterParse r u m p.2 pull) hv _ _ _ _

/-- **What the handlers tolerate**, of the documents that are parsed. -/
theorem handle_returns_iff (hv : s.portMgr.Valid) (hmsg : msg.isContainer = true) :
    (∃ res, s.handle env msg c rnd = .ok res) ↔ s.Tolerates msg := by
  constructor
  · intro hok
    refine ⟨?_, ?_, ?_⟩
    · cases msg with
      | object members => exact ⟨members, rfl⟩
      | array elems =>
          -- the first look at `cmd` throws
          obtain ⟨res, hok⟩ := hok
          unfold handle at hok
          rw [getJsonString_array] at hok
          cases hok
      | _ => cases hmsg
    · intro sroomid h
      rw [← stoll_ok_iff]
      cases hid : stoll (cStr sroomid) with
      | ok n => exact ⟨n, rfl⟩
      | error e =>
          obtain ⟨res, hok⟩ := hok
          rw [handle_of_stoll_error h hid] at hok
          cases hok
    · intro sroomid r u m lines pull h
      exact (h.returns_iff hv).mp hok
  · rintro ⟨⟨members, rfl⟩, hnumber, hlines⟩
    cases hhandle : s.handle env (.object members) c rnd with
    | ok res => exact ⟨res, rfl⟩
    | error e =>
        rw [← hhandle]
        rcases handle_error hhandle with ⟨sroomid, hnames, hid⟩ | ⟨sroomid, r, u, m, lines, pull, h⟩
        · obtain ⟨n, hn⟩ := stoll_ok_iff.mpr (hnumber sroomid hnames)
          rw [hn] at hid
          cases hid
        · exact (h.returns_iff hv).mpr (hlines sroomid r u m lines pull h)

theorem parseJson_container {reader : Str → Option Json} {text : Str} {json : Json}
    (hstrict : ∀ text json, reader text = some json → json.isContainer = true)
    (h : parseJson reader text = some json) : json.isContainer = true := by
  unfold parseJson at h
  dsimp only at h
  generalize (if text.take 3 = [0xEF, 0xBB, 0xBF] then text.drop 3 else text) = temp at h
  split at h
  · cases h
  · exact hstrict temp json h

/-- **When a frame is survived**: in every reachable state, `on_message` and the
handlers return if and only if the document in the frame, if there is one, is
tolerated. -/
theorem frame_returns_iff {reader : Str → Option Json}
    (hstrict : ∀ text json, reader text = some json → json.isContainer = true)
    (hr : Lts.Reachable (system env cfg) s) (frame : WsFrame) (c : ConnId)
    (rnd : MessageOracle) :
    ((∃ res, WssServer.onMessage env reader s frame c rnd = .ok res) ∧
      ∀ json, parseJson reader (cStr frame.payload) = some json →
        ∃ res, s.handle env json c rnd = .ok res) ↔
      ∀ json, parseJson reader (cStr frame.payload) = some json → s.Tolerates json := by
  have hv := reachable_validPorts hr
  have hdocument : ∀ json, parseJson reader (cStr frame.payload) = some json →
      ((∃ res, s.handle env json c rnd = .ok res) ↔ s.Tolerates json) :=
    fun json hparse => handle_returns_iff hv (parseJson_container hstrict hparse)
  rw [WssServer.onMessage_returns_iff]
  constructor
  · rintro ⟨-, hok⟩ json hparse
    exact (hdocument json hparse).mp (hok json hparse)
  · intro htolerates
    have hok : ∀ json, parseJson reader (cStr frame.payload) = some json →
        ∃ res, s.handle env json c rnd = .ok res :=
      fun json hparse => (hdocument json hparse).mpr (htolerates json hparse)
    exact ⟨fun _ => hok, hok⟩

end Server

/-! ## Two documents that are not survived -/

namespace Sample

def joinText (room : Str) : Str :=
  str "\x7b\"cmd\":\"join\",\"roomId\":\"" ++ room ++ str "\",\"uid\":\"alice\"\x7d"

/-- The strict parser on the texts below. -/
def reader (text : Str) : Option Json :=
  if text = joinText (str "1") then some (requestOf (str "join") (str "1") alice [])
  else if text = joinText (str "lobby") then some (requestOf (str "join") (str "lobby") alice [])
  else if text = str "[]" then some (.array [])
  else none

theorem reader_strict (text : Str) (json : Json) (h : reader text = some json) :
    json.isContainer = true := by
  unfold reader at h
  split at h
  · cases h
    rfl
  · split at h
    · cases h
      rfl
    · split at h
      · cases h
        rfl
      · cases h

end Sample

namespace Server

open Sample

theorem frame_returns_iff_join :
    ((∃ res, WssServer.onMessage Sample.env Sample.reader (initial cfg)
        { payload := joinText (str "1") } 1 rnd = .ok res) ∧
      ∀ json, parseJson Sample.reader (cStr (joinText (str "1"))) = some json →
        ∃ res, (initial cfg).handle Sample.env json 1 rnd = .ok res) ↔
      ∀ json, parseJson Sample.reader (cStr (joinText (str "1"))) = some json →
        (initial cfg).Tolerates json :=
  frame_returns_iff Sample.reader_strict (.start rfl : Lts.Reachable (system Sample.env cfg) _)
    { payload := joinText (str "1") } 1 rnd

/-- A room with a name instead of a number, and an array. -/
theorem lobby_throws :
    Lts.Reachable (system Sample.env cfg) (initial cfg) ∧
    (parseJson Sample.reader (cStr (joinText (str "lobby")))).isSome = true ∧
    WssServer.onMessage Sample.env Sample.reader (initial cfg)
      { payload := joinText (str "lobby") } 1 rnd = .error .stollThrew ∧
    WssServer.onMessage Sample.env Sample.reader (initial cfg) { payload := str "[]" } 1 rnd =
      .error .jsonThrew := by
  refine ⟨.start rfl, by decide +kernel, ?_, ?_⟩
  · exact faultOf_eq_some.mp (by decide +kernel)
  · exact faultOf_eq_some.mp (by decide +kernel)

end Server

end JuanSfu
