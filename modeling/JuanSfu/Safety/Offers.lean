import JuanSfu.Sdp.Sections
import JuanSfu.System

/-!
# One offer object for a whole membership

A join makes the member's `offer_sdp` and every publish and pull parses into it,
so what an earlier request stored is still there. Two laws are decided here: a
request that is answered leaves the member with the offer of that request, and a
request whose offer is rejected leaves no trace.
-/

namespace JuanSfu

namespace SessionDescription

/-! ## The session lines -/

def writeSession (session : SessionSdp) : SdpWrite → SessionSdp
  | .version version => { session with version }
  | .origin username sessionId => { session with username, sessionId }
  | _ => session

/-- The session and the rest are written apart. -/
theorem write_withSession (sd : SessionDescription) (session : SessionSdp) (w : SdpWrite) :
    ({ sd with session } : SessionDescription).write w =
      { sd.write w with session := writeSession session w } := by
  cases w with
  | media type sup => cases type <;> rfl
  | desc id desc =>
      simp only [write, setDesc, writeSession]
      cases sd.videoSup.codecIds.lookup id with
      | some info => rfl
      | none => cases sd.audioSup.codecIds.lookup id <;> rfl
  | _ => rfl

theorem writeAll_withSession (sd : SessionDescription) (session : SessionSdp)
    (ws : List SdpWrite) :
    ({ sd with session } : SessionDescription).writeAll ws =
      { sd.writeAll ws with session := ws.foldl writeSession session } := by
  induction ws generalizing sd session with
  | nil => rfl
  | cons w ws ih => rw [writeAll_cons, write_withSession, ih, writeAll_cons, List.foldl_cons]

theorem writeAll_session (sd : SessionDescription) (ws : List SdpWrite) :
    (sd.writeAll ws).session = ws.foldl writeSession sd.session :=
  congrArg SessionDescription.session (writeAll_withSession sd sd.session ws)

/-- The version that writes leave behind, if they store one. -/
def lastVersion (ws : List SdpWrite) : Option Str :=
  (ws.filterMap fun
    | .version version => some version
    | _ => none).getLast?

/-- The user name and the session id that writes leave behind. -/
def lastOrigin (ws : List SdpWrite) : Option (Str × Str) :=
  (ws.filterMap fun
    | .origin username sessionId => some (username, sessionId)
    | _ => none).getLast?

theorem foldl_writeSession (session : SessionSdp) (ws : List SdpWrite) :
    ws.foldl writeSession session =
      { session with
        version := (lastVersion ws).getD session.version
        username := ((lastOrigin ws).map (·.1)).getD session.username
        sessionId := ((lastOrigin ws).map (·.2)).getD session.sessionId } := by
  induction ws using List.reverseRecOn with
  | nil => rfl
  | append_singleton ws w ih =>
      rw [List.foldl_append, ih]
      cases w <;> simp [writeSession, lastVersion, lastOrigin, List.getLast?_append]

/-! ## What a membership starts from -/

/-- An offer without sections holds nothing but what `v=` and `o=` lines store. -/
def OnlySession (sd : SessionDescription) : Prop :=
  sd.mediaContents = [] → ∃ version username sessionId,
    sd = { session := { version, username, sessionId } }

theorem onlySession_empty : OnlySession {} := fun _ => ⟨[], [], [], rfl⟩

theorem OnlySession.write {sd : SessionDescription} (h : OnlySession sd) (w : SdpWrite) :
    OnlySession (sd.write w) := by
  intro hc
  rw [write_mediaContents] at hc
  obtain ⟨version, username, sessionId, rfl⟩ := h (eq_nil_of_addSection hc)
  cases w with
  | version v => exact ⟨v, username, sessionId, rfl⟩
  | origin u i => exact ⟨version, u, i, rfl⟩
  | media => simp [addSection] at hc
  | _ => exact ⟨version, username, sessionId, rfl⟩

theorem OnlySession.writeAll {sd : SessionDescription} (h : OnlySession sd)
    (ws : List SdpWrite) : OnlySession (sd.writeAll ws) := by
  induction ws generalizing sd with
  | nil => exact h
  | cons w ws ih => exact ih (h.write w)

/-- The offer has no sections, and the writes store again what it has besides. -/
structure StartsOver (sd : SessionDescription) (ws : List SdpWrite) : Prop where
  contents : sd.mediaContents = []
  version : lastVersion ws = none → sd.session.version = []
  origin : lastOrigin ws = none → sd.session.username = [] ∧ sd.session.sessionId = []

/-- **When an old offer does not show**: writes into it come to what they come
to in a new object if and only if they start over. -/
theorem OnlySession.writeAll_eq_iff {sd : SessionDescription} (h : OnlySession sd)
    {ws : List SdpWrite} (hws : SectionsOpen false ws) :
    sd.writeAll ws = ({} : SessionDescription).writeAll ws ↔ StartsOver sd ws := by
  have hcontents : sd.writeAll ws = ({} : SessionDescription).writeAll ws →
      sd.mediaContents = [] := by
    intro heq
    have hc := congrArg SessionDescription.mediaContents heq
    rw [writeAll_mediaContents, writeAll_mediaContents, foldl_addSection hws,
      foldl_addSection hws, List.append_left_inj] at hc
    exact hc
  by_cases hc : sd.mediaContents = []
  · obtain ⟨version, username, sessionId, rfl⟩ := h hc
    -- the two objects differ in the session they start from
    have hold := writeAll_withSession {} { version, username, sessionId } ws
    have hnew := writeAll_withSession {} {} ws
    rw [foldl_writeSession] at hold hnew
    rw [hold, hnew]
    simp only [SessionDescription.mk.injEq, SessionSdp.mk.injEq, and_true]
    constructor
    · rintro ⟨hv, hu, hi⟩
      refine ⟨rfl, ?_, ?_⟩
      · intro hnone
        rwa [hnone] at hv
      · intro hnone
        rw [hnone] at hu hi
        exact ⟨hu, hi⟩
    · rintro ⟨-, hv, ho⟩
      refine ⟨?_, ?_⟩
      · cases hl : lastVersion ws with
        | none => exact hv hl
        | some v => rfl
      · cases hl : lastOrigin ws with
        | none => exact ho hl
        | some p => exact ⟨rfl, rfl⟩
  · exact iff_of_false (fun heq => hc (hcontents heq)) fun hs => hc hs.contents

end SessionDescription

namespace Server

variable {env : Env} {cfg : Config} {s s' : Server}

/-! ## Where offers come from -/

section Origins

variable {c : ConnId} {msg : Json} {rnd : MessageOracle} {effects : List Effect}
  {sroomid : Str} {r : ℤ} {u : Str} {m : RoomMember} {lines : List Str} {pull : Option Str}

/-- A member's offer is new, or as it was, or what a parse made of it. -/
def OfferFrom (s : Server) (r : ℤ) (u : Str) (offerSdp : SessionDescription) : Prop :=
  offerSdp = {} ∨ ∃ m, s.member r u = some m ∧ (offerSdp = m.offerSdp ∨
    ∃ lines flag, m.offerSdp.parseSdp lines = .ok (flag, offerSdp))

theorem OfferFrom.same {m' : RoomMember} (h : s.member r u = some m') :
    s.OfferFrom r u m'.offerSdp := Or.inr ⟨m', h, Or.inl rfl⟩

theorem handleJoin_offer {m' : RoomMember} (h : s.handleJoin msg c rnd.order = .ok (s', effects))
    (hm : s'.member r u = some m') : s.OfferFrom r u m'.offerSdp := by
  unfold handleJoin at h
  obtain ⟨sroomid, -, h⟩ := bind_ok h
  obtain ⟨uid, -, h⟩ := bind_ok h
  split at h
  · cases h
    exact .same hm
  · obtain ⟨roomid, -, h⟩ := bind_ok h
    dsimp only at h
    generalize hroom : (if (s.findRoom roomid).isNone then s.createRoom roomid else s) = s₁
      at h
    have hsame : s₁.member r u = s.member r u := by
      subst hroom
      split
      · next hnone => exact s.member_createRoom (Option.isNone_iff_eq_none.mp hnone) r u
      · rfl
    split at h
    · cases h
      exact .same (hsame ▸ hm)
    · cases h
      rw [member_enter] at hm
      split at hm
      · cases hm
        exact Or.inl rfl
      · exact .same (hsame ▸ hm)

theorem RequestOutcome.offer {r' : ℤ} {u' : Str} {m' : RoomMember}
    (hmem : s.member r u = some m)
    (h : RequestOutcome env s c rnd sroomid r u m lines pull s' effects)
    (hm : s'.member r' u' = some m') : s.OfferFrom r' u' m'.offerSdp := by
  -- whoever is not the requesting member stays as it was
  have hset : ∃ m₁ flag, SetsMember s s' r u (some m₁) ∧
      m.offerSdp.parseSdp lines = .ok (flag, m₁.offerSdp) := by
    cases h with
    | @rejected offerSdp hparse =>
        exact ⟨{ m with offerSdp }, _, setsMember_setMember s r u _, hparse⟩
    | @answered flag offerSdp pull port portMgr hparse hgo halloc =>
        exact ⟨servedMember m offerSdp (s.answerOf env r u offerSdp pull port rnd) port s.nextUdp,
          flag, s.setsMember_served r u m _ offerSdp pull, hparse⟩
  obtain ⟨m₁, flag, hset, hparse⟩ := hset
  rw [hset] at hm
  split at hm
  · next heq =>
      obtain ⟨rfl, rfl⟩ := heq
      cases hm
      exact Or.inr ⟨m, hmem, Or.inr ⟨lines, flag, hparse⟩⟩
  · exact .same hm

theorem handle_offer {r' : ℤ} {u' : Str} {m' : RoomMember}
    (h : s.handle env msg c rnd = .ok (s', effects)) (hm : s'.member r' u' = some m') :
    s.OfferFrom r' u' m'.offerSdp := by
  obtain ⟨cmd, hcmd, -⟩ := bind_ok h
  rcases handle_dispatch hcmd with ⟨-, hjoin⟩ | hreq | hother
  · rw [hjoin] at h
    exact handleJoin_offer h hm
  · rcases handle_early hreq h with ⟨rfl, -⟩ | ⟨sroomid, r, u, m, lines, pull, hreq⟩
    · exact .same hm
    · exact (handle_outcome_of_requests hreq h).offer hreq.finds.member hm
  · rw [hother] at h
    cases h
    exact .same hm

theorem exec_offer {e : Event} {r' : ℤ} {u' : Str} {m' : RoomMember} (ha : s.Allowed e)
    (hp : s.Paired) (h : s.exec env e = .ok (s', effects)) (hm : s'.member r' u' = some m') :
    s.OfferFrom r' u' m'.offerSdp := by
  -- an event at one member that leaves its offer alone
  have hset : ∀ {r u m m₁}, s.member r u = some m → SetsMember s s' r u (some m₁) →
      m₁.offerSdp = m.offerSdp → s.OfferFrom r' u' m'.offerSdp := by
    intro r u m m₁ hmem hs hoffer
    rw [hs] at hm
    split at hm
    · next heq =>
        obtain ⟨rfl, rfl⟩ := heq
        cases hm
        exact Or.inr ⟨m, hmem, Or.inl hoffer⟩
    · exact .same hm
  cases e with
  | message c msg rnd => exact handle_offer h hm
  | close c first =>
      cases exec_outcome ha hp h with
      | quiet _ hs => exact .same (by rwa [← hs.member])
      | unknown => exact .same hm
      | unlisted _ _ hs => exact .same (by rwa [← hs.member])
      | parted _ _ _ hs =>
          rw [hs] at hm
          split at hm
          · cases hm
          · exact .same hm
  | datagram r u addr data o =>
      cases exec_outcome ha hp h with
      | quiet _ hs => exact .same (by rwa [← hs.member])
      | received hmem _ hrecv hs =>
          obtain ⟨up, rfl, -⟩ := RoomMember.onUdpReceive_outcome hrecv
          exact hset hmem hs rfl
  | adapter r u addr acts =>
      cases exec_outcome ha hp h with
      | quiet _ hs => exact .same (by rwa [← hs.member])
      | acted hmem hs =>
          refine hset hmem hs ?_
          rw [RoomMember.onAdapter_frame]

end Origins

/-- Over any run, an offer without sections holds nothing but session lines. -/
theorem reachable_onlySession (r : Lts.Reachable (system env cfg) s) {room : ℤ} {u : Str}
    {m : RoomMember} (hm : s.member room u = some m) : m.offerSdp.OnlySession := by
  have hall : ∀ room u m, s.member room u = some m → m.offerSdp.OnlySession := by
    refine Lts.Reachable.invariant (P := fun s => ∀ room u m, s.member room u = some m →
      m.offerSdp.OnlySession) ?_ ?_ r
    · rintro s rfl room u m hm
      simp [initial, member, findRoom] at hm
    · intro s l s' hr ih hstep room u m' hm'
      rcases exec_offer hstep.1 (reachable_wellFormed hr).paired hstep.2 hm' with
        h | ⟨m, hm, h | ⟨lines, flag, h⟩⟩
      · rw [h]
        exact SessionDescription.onlySession_empty
      · rw [h]
        exact ih room u m hm
      · obtain ⟨ws, -, h⟩ := parseSdp_ok_iff.mp h
        rw [h]
        exact (ih room u m hm).writeAll ws
  exact hall room u m hm

/-! ## Answers come from the offer of the request -/

/-- The message is a publish or a pull of `u` in room `r` with these lines, and
it is answered. -/
structure Answered (msg : Json) (r : ℤ) (u : Str) (lines : List Str) (effects : List Effect) :
    Prop where
  cmd : Commands msg (str "publish") ∨ Commands msg (str "pullstream")
  names : Names msg r u
  lines : sdpLines msg = .ok (some lines)
  reply : ∃ c reply, .reply c reply ∈ effects

/-- After an answered request the member's offer is what its lines come to in a
new object. -/
def OfferIsOwn (env : Env) (s : Server) (l : Event × List Effect) : Prop :=
  ∀ c msg rnd r u lines, l.1 = .message c msg rnd → Answered msg r u lines l.2 →
    ∀ s' m', s.exec env l.1 = .ok (s', l.2) → s'.member r u = some m' →
      ∃ flag, ({} : SessionDescription).parseSdp lines = .ok (flag, m'.offerSdp)

/-- An answered request finds an offer without sections, and stores again what
it finds of the session. -/
def StartsOver (s : Server) (l : Event × List Effect) : Prop :=
  ∀ c msg rnd r u lines, l.1 = .message c msg rnd → Answered msg r u lines l.2 →
    ∀ m flag ws, s.member r u = some m → readLines false false lines = .ok (flag, ws) →
      m.offerSdp.StartsOver ws

theorem offerIsOwn_iff_step {l : Event × List Effect} (hr : Lts.Reachable (system env cfg) s)
    (hstep : (system env cfg).step s l s') : OfferIsOwn env s l ↔ StartsOver s l := by
  obtain ⟨e, effects⟩ := l
  obtain ⟨ha, hexec⟩ := hstep
  -- what an answered request does to the offer of its member
  have hoffer : ∀ {c msg rnd r u lines}, e = .message c msg rnd →
      Answered msg r u lines effects → ∃ m m' flag ws, s.member r u = some m ∧
        s'.member r u = some m' ∧ readLines false false lines = .ok (flag, ws) ∧
        m'.offerSdp = m.offerSdp.writeAll ws := by
    rintro c msg rnd r u lines rfl hans
    obtain ⟨c', reply, hreply⟩ := hans.reply
    obtain ⟨sroomid, m, pull, hreq⟩ := requests_of_effect hans.cmd hans.names hans.lines
      (List.ne_nil_of_mem hreply) hexec
    cases handle_outcome_of_requests hreq hexec with
    | rejected => cases hreply
    | @answered flag offerSdp pull port portMgr hparse hgo halloc =>
        have hset := setsMember_setMember (s.afterParse r u m offerSdp pull) r u
          (servedMember m offerSdp (s.answerOf env r u offerSdp pull port rnd) port s.nextUdp) r u
        rw [if_pos ⟨rfl, rfl⟩] at hset
        obtain ⟨ws, hread, hwrites⟩ := parseSdp_ok_iff.mp hparse
        exact ⟨m, _, flag, ws, hreq.finds.member, hset, hread, hwrites⟩
  constructor
  · intro hown c msg rnd r u lines hl hans m flag ws hm hread
    obtain ⟨m₁, m', flag₁, ws₁, hm₁, hm', hread₁, heq⟩ := hoffer hl hans
    rw [hm] at hm₁
    cases hm₁
    rw [hread] at hread₁
    cases hread₁
    obtain ⟨flag', hfresh⟩ := hown c msg rnd r u lines hl hans s' m' hexec hm'
    obtain ⟨ws', hread', hfresh⟩ := parseSdp_ok_iff.mp hfresh
    rw [hread] at hread'
    cases hread'
    rw [← (reachable_onlySession hr hm).writeAll_eq_iff (reads_of_readLines hread).sectionsOpen]
    exact heq.symm.trans hfresh
  · intro hstart c msg rnd r u lines hl hans s₁ m₁ hexec₁ hm₁
    obtain ⟨m, m', flag, ws, hm, hm', hread, heq⟩ := hoffer hl hans
    rw [hexec] at hexec₁
    cases hexec₁
    rw [hm'] at hm₁
    cases hm₁
    have hws := hstart c msg rnd r u lines hl hans m flag ws hm hread
    rw [← (reachable_onlySession hr hm).writeAll_eq_iff
      (reads_of_readLines hread).sectionsOpen] at hws
    exact ⟨flag, parseSdp_ok_iff.mpr ⟨ws, hread, heq.trans hws⟩⟩

/-- **When an offer is the one last sent**: in a run every answered request leaves
its own offer behind if and only if every one of them starts over. -/
theorem offerIsOwn_iff {tr : List (Server × (Event × List Effect))}
    (run : Lts.Run (system env cfg) tr s) :
    Lts.Guarded (OfferIsOwn env) tr ↔ Lts.Guarded StartsOver tr :=
  run.guarded_congr fun _ _ _ hr hstep => offerIsOwn_iff_step hr hstep

end Server

/-! ## Publishing twice -/

namespace Sample

def publishMsg (sdp : Str) : Json :=
  requestOf (str "publish") (str "1") alice [(str "sdp", .string sdp)]

end Sample

namespace Server

open Sample

theorem offerIsOwn_iff_publish :
    ∃ tr s, Lts.Run (system Sample.env cfg) tr s ∧ (s.member 1 alice).isSome ∧
      (Lts.Guarded (OfferIsOwn Sample.env) tr ↔ Lts.Guarded StartsOver tr) := by
  obtain ⟨s, ⟨tr, run⟩, hv⟩ := exists_reachable_of_runEvents Sample.env cfg
    [join 1 (str "1") alice, publish 1 (str "1") alice]
    (fun s => (s.member 1 alice).isSome) true (by decide +kernel)
  exact ⟨tr, s, run, hv, offerIsOwn_iff run⟩

/-- The second publish is answered, and the offer has the section of the first
one in front. -/
theorem second_publish_appends :
    ∃ tr s, Lts.Run (system Sample.env cfg) tr s ∧ ¬ Lts.Guarded (OfferIsOwn Sample.env) tr := by
  obtain ⟨tr, s, s', effects, run, hstep, hv⟩ := exists_step_of_runEvents Sample.env cfg
    [join 1 (str "1") alice, publish 1 (str "1") alice] (publish 1 (str "1") alice)
    (fun _ s' effects => (effects.any (repliesTo 1),
      (s'.member 1 alice).map (·.offerSdp.mediaContents.length)))
    (true, some 2) (by decide +kernel)
  obtain ⟨hreply, hlength⟩ := Prod.mk.inj hv
  obtain ⟨m', hm', hlength⟩ := Option.map_eq_some_iff.mp hlength
  refine ⟨_, s', run.snoc hstep, ?_⟩
  intro hown
  have hans : Answered (publishMsg Sample.sdp) 1 alice offerLines effects :=
    ⟨Or.inl rfl, ⟨str "1", by decide, by decide, by decide⟩, by decide +kernel,
      1, mem_of_repliesTo hreply⟩
  obtain ⟨flag, hfresh⟩ := hown _ (List.mem_cons_self ..) 1 _ rnd 1 alice offerLines rfl hans
    s' m' hstep.2 hm'
  have hone : (({} : SessionDescription).parseSdp offerLines).toOption.map
      (·.2.mediaContents.length) = some 1 := by decide +kernel
  rw [hfresh] at hone
  exact absurd (hlength.symm.trans (Option.some.inj hone)) (by decide)

end Server

end JuanSfu
