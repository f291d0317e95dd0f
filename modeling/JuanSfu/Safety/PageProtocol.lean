import JuanSfu.Client.ZalRtc
import JuanSfu.Lib.Exchange
import JuanSfu.System

/-!
# The page and the server

The page's socket is one connection of the server, which serves others in between:
what they send, what arrives by UDP and what timers do may come between any two
steps of the page. All a page can go by is what a response says: the room, the uid
and, for a join, who else is there.
-/

namespace JuanSfu

open Server

/-! ## One connection of the server -/

/-- What is sent on a connection. -/
def repliesOn (c : ConnId) (effects : List Effect) : List Json :=
  effects.filterMap fun
    | .reply c' json => if c' = c then some json else none
    | _ => none

/-- The event is a message on the connection, or its end. -/
def Event.isOn (c : ConnId) : Event → Prop
  | .message c' _ _ => c' = c
  | .close c' _ => c' = c
  | _ => False

/-- A response, to the request `q`. -/
inductive Responds (q : Json) : Json → Prop where
  | join {roomId uid : Str} {members : List Str} (hcmd : Commands q (str "join"))
      (hroom : getJsonString q (str "roomId") [] = .ok roomId)
      (huid : getJsonString q (str "uid") [] = .ok uid) (hnew : uid ∉ members)
      (hnamed : [] ∉ members) : Responds q (joinReply roomId uid members)
  | publish {roomId uid answer : Str} (hcmd : Commands q (str "publish"))
      (hroom : getJsonString q (str "roomId") [] = .ok roomId)
      (huid : getJsonString q (str "uid") [] = .ok uid) :
      Responds q (sdpReply (str "resp-publish") roomId uid answer)
  | pull {roomId uid remoteUid answer : Str} (hcmd : Commands q (str "pullstream"))
      (hroom : getJsonString q (str "roomId") [] = .ok roomId)
      (huid : getJsonString q (str "uid") [] = .ok uid)
      (hremote : getJsonString q (str "remote_uid") [] = .ok remoteUid)
      (hlength : 1 ≤ remoteUid.length) :
      Responds q (sdpReply (str "resp-pullstream") roomId uid answer)

namespace Server

variable {env : Env} {cfg : Config} {s s' : Server} {c : ConnId} {q : Json}
  {rnd : MessageOracle} {effects : List Effect}

/-- No member has the empty uid. -/
def AllNamed (s : Server) : Prop := ∀ r, s.member r [] = none

theorem handleJoin_unnamed (huid : getJsonString q (str "uid") [] = .ok [])
    (h : s.handleJoin q c rnd.order = .ok (s', effects)) : s' = s := by
  unfold handleJoin at h
  obtain ⟨sroomid, -, h⟩ := bind_ok h
  obtain ⟨uid, huid', h⟩ := bind_ok h
  rw [huid] at huid'
  cases huid'
  rw [if_pos (Or.inr (by decide))] at h
  cases h
  rfl

theorem AllNamed.step (h : s.AllNamed) (hr : Lts.Reachable (system env cfg) s)
    {l : Event × List Effect} (hstep : (system env cfg).step s l s') : s'.AllNamed := by
  obtain ⟨e, effects⟩ := l
  have hset : ∀ {r : ℤ} {u : Str} {m : RoomMember} {m' : Option RoomMember},
      s.member r u = some m → SetsMember s s' r u m' → s'.AllNamed := by
    intro r u m m' hmem hm r'
    rw [hm]
    split
    · next heq =>
        obtain ⟨rfl, rfl⟩ := heq
        rw [h] at hmem
        cases hmem
    · exact h r'
  cases step_outcome (reachable_wellFormed hr) hstep with
  | quiet _ hm | unlisted _ _ hm =>
      intro r
      rw [hm.member]
      exact h r
  | unknown => exact h
  | @joined c msg rnd _ r u reply hcmd hn hnew hm =>
      intro r'
      rw [hm]
      split
      · next heq =>
          obtain ⟨rfl, rfl⟩ := heq
          obtain ⟨-, -, -, huid⟩ := hn
          have hexec : s.handle env msg c rnd = .ok (s', [.reply c reply]) := hstep.2
          have hjoin : s.handleJoin msg c rnd.order = .ok (s', [.reply c reply]) := by
            rwa [handle, hcmd] at hexec
          obtain rfl := handleJoin_unnamed huid hjoin
          have hself := hm r' []
          rw [if_pos ⟨rfl, rfl⟩, hnew] at hself
          cases hself
      · exact h r'
  | offered _ hmem hm => exact hset hmem hm
  | served _ _ hmem _ _ hm => exact hset hmem hm
  | parted _ _ hmem hm => exact hset hmem hm
  | received hmem _ _ hm => exact hset hmem hm
  | acted hmem hm => exact hset hmem hm

theorem reachable_allNamed (hr : Lts.Reachable (system env cfg) s) : s.AllNamed := by
  refine hr.invariant (P := AllNamed) ?_ ?_
  · rintro s rfl r
    simp [initial, member, findRoom]
  · exact fun s l s' hr h hstep => h.step hr hstep

/-- The uids that a join is told of are those of the members. -/
theorem mem_members (hnamed : ∀ r u m, s.member r u = some m → m.uid = u) {r : ℤ} {u : Str}
    {order : List Str} (h : u ∈ order.filterMap fun v =>
      (((s.findRoom r).getD {}).members.lookup v).map (·.uid)) : (s.member r u).isSome := by
  obtain ⟨v, -, hv⟩ := List.mem_filterMap.mp h
  obtain ⟨m, hlookup, rfl⟩ := Option.map_eq_some_iff.mp hv
  have hmem : s.member r v = some m := by
    unfold member
    cases hroom : s.findRoom r with
    | none =>
        rw [hroom] at hlookup
        cases hlookup
    | some room =>
        rw [hroom] at hlookup
        exact hlookup
  rw [hnamed r v m hmem, hmem]
  rfl

theorem handleJoin_responds (hw : s.WellFormed) (hn : s.AllNamed)
    (hcmd : Commands q (str "join")) (h : s.handleJoin q c rnd.order = .ok (s', effects)) :
    effects = [] ∨ ∃ r, effects = [.reply c r] ∧ Responds q r := by
  unfold handleJoin at h
  obtain ⟨sroomid, hroomid, h⟩ := bind_ok h
  obtain ⟨uid, huid, h⟩ := bind_ok h
  split at h
  · cases h
    exact Or.inl rfl
  · obtain ⟨roomid, hid, h⟩ := bind_ok h
    dsimp only at h
    generalize hroom : (if (s.findRoom roomid).isNone then s.createRoom roomid else s) = s₁ at h
    have hmember : ∀ r u, s₁.member r u = s.member r u := by
      subst hroom
      split
      · next hnone =>
          rw [Option.isNone_iff_eq_none] at hnone
          exact s.member_createRoom hnone
      · exact fun _ _ => rfl
    have hnamed : ∀ r u m, s₁.member r u = some m → m.uid = u := by
      intro r u m hm
      rw [hmember] at hm
      exact hw.named r u m hm
    split at h
    · cases h
      exact Or.inl rfl
    · next hnew =>
        cases h
        refine Or.inr ⟨_, rfl, .join hcmd hroomid huid ?_ ?_⟩
        · exact fun hin => hnew (mem_members hnamed hin)
        · intro hin
          have hsome := mem_members hnamed hin
          rw [hmember, hn] at hsome
          cases hsome

/-- **A message is answered at most once**, on its connection, with what it asks for. -/
theorem handle_responds (hw : s.WellFormed) (hn : s.AllNamed)
    (h : s.handle env q c rnd = .ok (s', effects)) :
    repliesOn c effects = [] ∨ ∃ r, repliesOn c effects = [r] ∧ Responds q r := by
  obtain ⟨cmd, hcmd, -⟩ := bind_ok h
  rcases handle_dispatch hcmd with ⟨rfl, hjoin⟩ | hreq | hother
  · rw [hjoin] at h
    rcases handleJoin_responds hw hn hcmd h with rfl | ⟨r, rfl, hr⟩
    · exact Or.inl rfl
    · refine Or.inr ⟨r, ?_, hr⟩
      simp [repliesOn]
  · rcases handle_early hreq h with ⟨-, rfl⟩ | ⟨sroomid, r, u, m, lines, pull, hreq⟩
    · exact Or.inl rfl
    · have hone : ∀ port json, repliesOn c [.portAllocated port, .reply c json] = [json] := by
        simp [repliesOn]
      cases handle_outcome_of_requests hreq h with
      | rejected => exact Or.inl rfl
      | answered =>
          rw [hone]
          refine Or.inr ⟨_, rfl, ?_⟩
          cases hreq with
          | publish hcmd hf => exact .publish hcmd hf.room hf.uid
          | pull hcmd hf hremote hlength => exact .pull hcmd hf.room hf.uid hremote hlength
  · rw [hother] at h
    cases h
    exact Or.inl rfl

/-- Nothing else is said on the connection. -/
theorem no_replies (hr : Lts.Reachable (system env cfg) s) {l : Event × List Effect}
    (hstep : (system env cfg).step s l s') (hon : ¬ l.1.isOn c) : repliesOn c l.2 = [] := by
  obtain ⟨e, effects⟩ := l
  refine List.filterMap_eq_nil_iff.mpr fun effect he => ?_
  cases effect with
  | reply c' json =>
      refine if_neg ?_
      rintro rfl
      refine hon ?_
      cases step_outcome (reachable_wellFormed hr) hstep with
      | quiet | offered | unknown | unlisted => cases he
      | joined =>
          cases List.mem_singleton.mp he
          rfl
      | served =>
          simp only [List.mem_cons, reduceCtorEq, Effect.reply.injEq, List.not_mem_nil, or_false,
            false_or] at he
          exact he.1.symm
      | parted =>
          dsimp only [stopEffects] at he
          split at he
          · cases he
          · simp at he
      | received | acted =>
          obtain ⟨_, -, heq⟩ := List.mem_map.mp he
          cases heq
  | _ => rfl

end Server

/-! ## The two parties -/

/-- The server, and a page whose socket is its connection `c`; `isNaN` is that of
`Number(text)`. -/
def pageParties (env : Env) (cfg : Config) (isNaN : Str → Bool) (c : ConnId) :
    Exchange.Parties Server ZalRtc Json Json PageEvent where
  serverInit s := s = initial cfg
  clientInit z := z = {}
  serve s q s' rs := ∃ rnd effects,
    (system env cfg).step s (.message c q rnd, effects) s' ∧ rs = repliesOn c effects
  other s s' rs := ∃ l, ¬ l.1.isOn c ∧ (system env cfg).step s l s' ∧ rs = repliesOn c l.2
  hangUp s s' := ∃ first effects, (system env cfg).step s (.close c first, effects) s'
  act z e z' qs := z.onEvent isNaN e = some (z', qs)
  receive z r z' := z' = z.onServerMsg r

def pageSystem (env : Env) (cfg : Config) (isNaN : Str → Bool) (c : ConnId) :
    Lts.System (Exchange.State Server ZalRtc Json Json) (Exchange.Label Json Json PageEvent) :=
  Exchange.system (pageParties env cfg isNaN c)

variable {env : Env} {cfg : Config} {isNaN : Str → Bool} {c : ConnId}
  {s : Exchange.State Server ZalRtc Json Json}

/-- The server of a page is one of those studied so far. -/
theorem page_server (r : Lts.Reachable (pageSystem env cfg isNaN c) s) :
    Lts.Reachable (system env cfg) s.server := by
  refine Exchange.reachable_server (fun _ h => h) ?_ ?_ ?_ r
  · rintro s q s' rs ⟨rnd, effects, hstep, -⟩
    exact ⟨_, hstep⟩
  · rintro s s' rs ⟨l, -, hstep, -⟩
    exact ⟨l, hstep⟩
  · rintro s s' ⟨first, effects, hstep⟩
    exact ⟨_, hstep⟩

theorem page_answers (r : Lts.Reachable (pageSystem env cfg isNaN c) s) :
    Exchange.Answers (pageParties env cfg isNaN c) Responds s.server := by
  have hr := page_server r
  constructor
  · rintro q s' rs ⟨rnd, effects, hstep, rfl⟩
    exact handle_responds (reachable_wellFormed hr) (reachable_allNamed hr) hstep.2
  · rintro s' rs ⟨l, hon, hstep, rfl⟩
    exact no_replies hr hstep hon

/-- **Responses and requests**: in every order of steps the responses that a page has
received, and those on their way to it, respond to requests of the page, one each
and in the order of the requests. -/
theorem responses_in_order (r : Lts.Reachable (pageSystem env cfg isNaN c) s) :
    ∃ answered, (answered ++ s.up).Sublist s.asked ∧
      List.Forall₂ Responds answered (s.got ++ s.down) :=
  Exchange.reachable_matched (fun _ => page_answers) r

namespace Sample

/-- The uids of two pages; a page takes no other than numbers. -/
def uid1 : Str := str "101"

def uid2 : Str := str "102"

/-- What `isNaN(Number(text))` is for a text of digits (false) and for a word (true). -/
def notANumber (text : Str) : Bool := !text.all isDigit

/-- The page of the first, once it has been told of the second. -/
def joinedPage : ZalRtc where
  remoteUid := uid2
  room := (∅ : UnorderedMap Str PeerId).insert uid1 0
  roomId := some (str "1")
  localUid := some uid1
  peers := [{ roomId := str "1", localUid := uid1, localStream := true }]

/-- A page joins the room that another is in. -/
theorem exists_joined_page : ∃ tr s,
    Lts.Run (pageSystem Sample.env Sample.cfg notANumber 1) tr s ∧
      (∀ p ∈ tr, ∀ e, p.2 = .act e → e = .joinBtn (str "1") uid1 ∧ p.1.client = {} ∨
        ∃ promise session, e = .resolved promise session) ∧
      s.link = .opened ∧ s.got = [joinReply (str "1") uid1 [uid2]] ∧
      s.client = joinedPage := by
  obtain ⟨s₁, e₁, s₂, e₂, hfirst, hsecond, hreply, hlists⟩ : ∃ s₁ e₁ s₂ e₂,
      exec Sample.env (initial Sample.cfg) (join 2 (str "1") uid2) = .ok (s₁, e₁) ∧
      exec Sample.env s₁ (join 1 (str "1") uid1 [uid2]) = .ok (s₂, e₂) ∧
      repliesOn 1 e₂ = [joinReply (str "1") uid1 [uid2]] ∧
      s₁.Allowed (join 1 (str "1") uid1 [uid2]) := ⟨_, _, _, _, rfl, rfl, rfl, by decide⟩
  obtain ⟨z₁, z₂, hclick, hcamera, htold⟩ : ∃ z₁ z₂,
      ZalRtc.onEvent notANumber {} (.joinBtn (str "1") uid1) = some (z₁, []) ∧
      ZalRtc.onEvent notANumber z₁ (.resolved (.localStream 0) ⟨[], []⟩) =
        some (z₂, [requestOf (str "join") (str "1") uid1 []]) ∧
      joinedPage = z₂.onServerMsg (joinReply (str "1") uid1 [uid2]) := ⟨_, _, rfl, rfl, rfl⟩
  have halone : (initial Sample.cfg).Allowed (join 2 (str "1") uid2) := by decide
  have hstep₁ : (Server.system Sample.env Sample.cfg).step (initial Sample.cfg)
      (join 2 (str "1") uid2, e₁) s₁ := ⟨halone, hfirst⟩
  have hno : repliesOn 1 e₁ = [] := no_replies (.start rfl) hstep₁ (by simp [join, Event.isOn])
  have run₀ : Lts.Run (pageSystem Sample.env Sample.cfg notANumber 1) []
      ⟨initial Sample.cfg, {}, .connecting, [], [], [], []⟩ :=
    .start ⟨rfl, rfl, rfl, rfl, rfl, rfl, rfl⟩
  have run₁ := run₀.snoc (.connect rfl)
  have run₂ := run₁.snoc (.other ⟨_, by simp [join, Event.isOn], hstep₁, hno.symm⟩)
  have run₃ := run₂.snoc (.act hclick)
  have run₄ := run₃.snoc (.act hcamera)
  have run₅ := run₄.snoc (.serve rfl ⟨_, e₂, ⟨hlists, hsecond⟩, hreply.symm⟩)
  have run₆ := run₅.snoc (.receive rfl htold)
  refine ⟨_, _, run₆, ?_, rfl, rfl, rfl⟩
  · intro p hp e he
    simp only [List.mem_cons, List.not_mem_nil, or_false] at hp
    rcases hp with rfl | rfl | rfl | rfl | rfl | rfl <;> cases he
    · exact Or.inr ⟨_, _, rfl⟩
    · exact Or.inl ⟨rfl, rfl⟩

end Sample

theorem responses_in_order_joined : ∃ s : Exchange.State Server ZalRtc Json Json,
    s.got = [joinReply (str "1") Sample.uid1 [Sample.uid2]] ∧
      ∃ answered, (answered ++ s.up).Sublist s.asked ∧
        List.Forall₂ Responds answered (s.got ++ s.down) := by
  obtain ⟨tr, s, run, -, -, hgot, -⟩ := Sample.exists_joined_page
  exact ⟨s, hgot, responses_in_order run.reachable⟩

end JuanSfu
