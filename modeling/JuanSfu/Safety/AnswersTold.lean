import JuanSfu.Safety.ResponsePassword

/-!
# What a client has been told

A request is answered with a text, and the member keeps what the text was made of: the
port it has asked to receive at (0 if none was left), the credentials its checks ask for.
The text that was sent last is about the member as it is, at any time: whatever has
happened since, a client that goes by it sends its requests to that port, with the right
credentials.
-/

namespace JuanSfu

/-! ## Lines of a text -/

/-- The text is made of lines, and this is one of them. -/
def HasLine (text line : Str) : Prop :=
  ∃ lines : List Str, text = (lines.map (· ++ crlf)).flatten ∧ line ∈ lines

namespace SessionDescription

theorem mediaLines_ended (env : Env) (sd : SessionDescription) (m : MediaContent) :
    ∀ line ∈ sd.mediaLines env m, Ended line := by
  intro line hline
  simp only [mediaLines, List.mem_append, List.mem_cons, List.not_mem_nil, or_false,
    List.mem_map, List.mem_flatten] at hline
  rcases hline with ((((((((((rfl | rfl | rfl) | ⟨c, -, rfl⟩) | ⟨f, -, rfl⟩) | hfbs) | hmux) |
    (rfl | rfl | rfl)) | hdtls) | (rfl | rfl)) | ⟨c, -, rfl⟩) | ⟨g, -, rfl⟩) | ⟨p, -, rfl⟩
  · exact ⟨_, rfl⟩
  · exact ⟨_, rfl⟩
  · exact ⟨_, rfl⟩
  · exact ⟨_, rfl⟩
  · exact ⟨_, rfl⟩
  · obtain ⟨fbs, ⟨c, -, rfl⟩, hline⟩ := hfbs
    obtain ⟨fb, -, rfl⟩ := List.mem_map.mp hline
    exact ⟨_, rfl⟩
  · split at hmux
    · exact ⟨_, List.mem_singleton.mp hmux⟩
    · cases hmux
  · exact ⟨_, rfl⟩
  · exact ⟨_, rfl⟩
  · exact ⟨_, rfl⟩
  · split at hdtls
    · split at hdtls
      · rcases List.mem_pair.mp hdtls with rfl | rfl
        · exact ⟨_, rfl⟩
        · exact ⟨_, rfl⟩
      · cases hdtls
    · cases hdtls
  · exact ⟨_, rfl⟩
  · rcases m.direct <;> exact ⟨_, rfl⟩
  · exact candidateLine_ended env c
  · exact ssrcGroupLine_ended g
  · exact ssrcLine_ended p

/-- A text has the lines of its sections. -/
theorem toString_hasLine (env : Env) (sd : SessionDescription) {m : MediaContent}
    (hm : m ∈ sd.mediaContents) {line : Str} (hline : line ++ crlf ∈ sd.mediaLines env m) :
    HasLine (sd.toString env) line := by
  have hended : ∀ l ∈ (sd.mediaContents.map (sd.mediaLines env)).flatten, Ended l := by
    intro l hl
    obtain ⟨ls, hls, hl⟩ := List.mem_flatten.mp hl
    obtain ⟨m', -, rfl⟩ := List.mem_map.mp hls
    exact mediaLines_ended env sd m' l hl
  refine ⟨sd.sessionLines ++ (sd.mediaContents.map (sd.mediaLines env)).flatten.map unended,
    ?_, ?_⟩
  · have hsection : ∀ m : MediaContent, (sd.mediaLines env m.bare).flatten ++
        m.forwardedLines.flatten = (sd.mediaLines env m).flatten := by
      intro m
      rw [mediaLines_eq env sd m, List.flatten_append]
    rw [List.map_append, List.flatten_append, flatten_unended hended, List.flatten_flatten,
      List.map_map, toString_eq, List.map_congr_left fun m _ => hsection m]
    rfl
  · refine List.mem_append_right _ (List.mem_map.mpr ⟨line ++ crlf, ?_, unended_append line⟩)
    exact List.mem_flatten.mpr ⟨_, List.mem_map_of_mem hm, hline⟩

end SessionDescription

/-! ## The answer to a request -/

/-- What the text tells a client to go by: the server's address with the port, the
credentials, and the fingerprint of the certificate. -/
def connectLines (env : Env) (fp : SSLFingerprint) (port : UInt32) (param : IceParameter) :
    List Str :=
  [str "a=ice-ufrag:" ++ param.ufrag, str "a=ice-pwd:" ++ param.passwd,
    str "a=fingerprint:" ++ fp.algorithm ++ str " " ++ getRfc4572Fingerprint fp,
    str "a=candidate:" ++ computeFoundation env (str "host") (str "udp") env.ipstr ++ str " 1 udp " ++
      natToStr (getPriority env env.ipstr 126 1).toNat ++ str " " ++ env.hostAsUriString env.ipstr ++
      str " " ++ natToStr port.toNat ++ str " typ host"]

theorem candidateLine_host (env : Env) (ip : Str) (port : UInt32) (rnd : IceCredentials) :
    candidateLine env (candidateOf env { ip, port } rnd) =
      str "a=candidate:" ++ computeFoundation env (str "host") (str "udp") ip ++ str " 1 udp " ++
        natToStr (getPriority env ip 126 1).toNat ++ str " " ++ env.hostAsUriString ip ++
        str " " ++ natToStr port.toNat ++ str " typ host" ++ crlf := by
  have hudp : str " 1 udp " = str " " ++ (natToStr 1 ++ (str " " ++ (str "udp" ++ str " "))) := by
    decide
  have htyp : str " typ host" = str " typ " ++ str "host" := by decide
  simp only [candidateLine, candidateOf, hudp, htyp, List.append_assoc]

namespace Server

variable {env : Env} {cfg : Config} {s s' : Server} {r : ℤ} {u : Str} {m : RoomMember}
  {fp : SSLFingerprint}

theorem answerOf_hasLine (hfp : env.certificateFingerprint = some fp) (offerSdp : SessionDescription)
    (pull : Option Str) (port : UInt32) (rnd : IceCredentials) {param : IceParameter}
    (hparam : (s.answerOf env r u offerSdp pull port rnd).mediaContents.head?.map (·.ice) =
      some param) :
    ∀ line ∈ connectLines env fp port param,
      HasLine ((s.answerOf env r u offerSdp pull port rnd).toString env) line := by
  unfold answerOf at hparam ⊢
  rw [answerSdp_some hfp] at hparam ⊢
  obtain rfl := Option.some.inj hparam
  intro line hline
  apply SessionDescription.toString_hasLine env _ (List.mem_cons_self ..)
  simp only [SessionDescription.mediaLines, List.mem_append]
  simp only [connectLines, List.mem_cons, List.not_mem_nil, or_false] at hline
  rcases hline with rfl | rfl | rfl | rfl
  · iterate 5 apply Or.inl
    exact Or.inr (List.mem_cons_of_mem _ (List.mem_cons_self ..))
  · iterate 5 apply Or.inl
    exact Or.inr (List.mem_cons_of_mem _ (List.mem_cons_of_mem _ (List.mem_cons_self ..)))
  · iterate 4 apply Or.inl
    exact Or.inr (List.mem_cons_self ..)
  · iterate 2 apply Or.inl
    apply Or.inr
    rw [← candidateLine_host env env.ipstr port rnd]
    exact List.mem_map_of_mem (List.mem_singleton_self _)

/-! ## The last answer -/

/-- A port is taken for a request, and the request is answered. -/
def isAnswered : Event × List Effect → Bool
  | (.message _ _ _, [.portAllocated _, .reply _ _]) => true
  | _ => false

/-- A step that answers a request for `u`. -/
def Serves (r : ℤ) (u : Str) (p : Server × (Event × List Effect)) : Prop :=
  isAnswered p.2 = true ∧ ∃ c msg rnd, p.2.1 = .message c msg rnd ∧ Names msg r u

/-- The step has told the client of `m` how `m` is reached. -/
def Tells (env : Env) (u : Str) (m : RoomMember) (p : Server × (Event × List Effect)) : Prop :=
  ∃ c msg rnd cmd sroomid answer,
    p.2 = (.message c msg rnd, [.portAllocated m.addr.port,
      .reply c (sdpReply cmd sroomid u (answer.toString env))]) ∧
    m.answerSdp = some answer ∧
    ∀ fp, env.certificateFingerprint = some fp → ∃ param, m.iceParameter = some param ∧
      ∀ line ∈ connectLines env fp m.addr.port param, HasLine (answer.toString env) line

/-- What a step says depends on few of the member's fields. -/
theorem Tells.congr {p : Server × (Event × List Effect)} (h : Tells env u m p) {m' : RoomMember}
    (haddr : m'.addr = m.addr) (hans : m'.answerSdp = m.answerSdp) : Tells env u m' p := by
  have hparam : m'.iceParameter = m.iceParameter := by
    rw [RoomMember.iceParameter, RoomMember.iceParameter, hans]
  unfold Tells
  rw [haddr, hans, hparam]
  exact h

/-- Every member that receives has been told of by the last answer about it. -/
def AllTold (env : Env) (tr : List (Server × (Event × List Effect))) (s : Server) : Prop :=
  ∀ r u m, s.member r u = some m → m.udpReceiver.isSome →
    ∃ p, Lts.Latest (Serves r u) tr p ∧ Tells env u m p

variable {tr : List (Server × (Event × List Effect))} {l : Event × List Effect}

/-- Nobody new receives, and no other answer is given. -/
theorem AllTold.of_silent (h : AllTold env tr s) (hno : isAnswered l = false)
    (hold : ∀ r u m', s'.member r u = some m' → m'.udpReceiver.isSome →
      ∃ m, s.member r u = some m ∧ m'.udpReceiver = m.udpReceiver ∧ m'.addr = m.addr ∧
        m'.answerSdp = m.answerSdp) : AllTold env ((s, l) :: tr) s' := by
  intro r u m' hmem hrcv
  obtain ⟨m, hmem, hsame, haddr, hans⟩ := hold r u m' hmem hrcv
  obtain ⟨p, hlatest, htells⟩ := h r u m hmem (hsame ▸ hrcv)
  refine ⟨p, hlatest.cons ?_, htells.congr haddr hans⟩
  rintro ⟨hyes, -⟩
  exact Bool.false_ne_true (hno.symm.trans hyes)

/-- A request that gets as far as a port, and what is sent for it. -/
theorem handle_tells {c : ConnId} {msg : Json} {rnd : MessageOracle} {effects : List Effect}
    (hadm : s.Admitted msg r u) (h : s.handle env msg c rnd = .ok (s', effects)) :
    ∃ m', SetsMember s s' r u (some m') ∧ Names msg r u ∧
      Serves r u (s, .message c msg rnd, effects) ∧
      Tells env u m' (s, .message c msg rnd, effects) := by
  obtain ⟨sroomid, m, lines, pull, hreq, hpublish⟩ := hadm.requests
  have hn := hreq.finds.names
  cases handle_outcome_of_requests hreq h with
  | rejected hparse =>
      obtain ⟨offerSdp, hparse'⟩ := hpublish rfl
      rw [hparse] at hparse'
      cases hparse'
  | @answered flag offerSdp pull port portMgr =>
      refine ⟨_, s.setsMember_served r u m _ offerSdp pull, hn, ⟨rfl, c, msg, rnd, rfl, hn⟩, ?_⟩
      refine ⟨c, msg, rnd, replyCmd pull, sroomid, _, rfl, rfl, ?_⟩
      intro fp hfp
      have hice := answerOf_ice env s r u offerSdp pull port rnd
      rw [hfp, Option.map_some] at hice
      exact ⟨_, hice, answerOf_hasLine hfp offerSdp pull port rnd hice⟩

theorem AllTold.step (h : AllTold env tr s) (hw : s.WellFormed)
    (hstep : (system env cfg).step s l s') : AllTold env ((s, l) :: tr) s' := by
  obtain ⟨e, effects⟩ := l
  -- where a member is changed but for what the answer is about
  have hset : ∀ {r u m m'}, s.member r u = some m → SetsMember s s' r u (some m') →
      m'.udpReceiver = m.udpReceiver → m'.addr = m.addr → m'.answerSdp = m.answerSdp →
      isAnswered (e, effects) = false → AllTold env ((s, e, effects) :: tr) s' := by
    intro r u m m' hmem hm hrcv haddr hans hno
    refine h.of_silent hno ?_
    intro r₁ u₁ m₁ hmem₁ _
    rw [hm] at hmem₁
    split at hmem₁
    · next heq =>
        obtain ⟨rfl, rfl⟩ := heq
        obtain rfl := Option.some.inj hmem₁
        exact ⟨m, hmem, hrcv, haddr, hans⟩
    · exact ⟨m₁, hmem₁, rfl, rfl, rfl⟩
  cases step_outcome hw hstep with
  | unknown =>
      exact h.of_silent rfl fun r u m hmem _ => ⟨m, hmem, rfl, rfl, rfl⟩
  | quiet _ hm =>
      refine h.of_silent ?_ fun r u m hmem _ => ⟨m, hm.member r u ▸ hmem, rfl, rfl, rfl⟩
      cases e <;> rfl
  | unlisted _ _ hm =>
      exact h.of_silent rfl fun r u m hmem _ => ⟨m, hm.member r u ▸ hmem, rfl, rfl, rfl⟩
  | @joined c msg rnd _ r u reply hcmd hn hnew hm =>
      refine h.of_silent rfl ?_
      intro r₁ u₁ m₁ hmem₁ hrcv
      rw [hm] at hmem₁
      split at hmem₁
      · obtain rfl := Option.some.inj hmem₁
        cases hrcv
      · exact ⟨m₁, hmem₁, rfl, rfl, rfl⟩
  | offered _ hmem hm =>
      exact hset hmem hm rfl rfl rfl rfl
  | @served c msg rnd _ r u _ _ _ _ _ _ hadm =>
      obtain ⟨m', hm, hn, hserves, htells⟩ := handle_tells hadm hstep.2
      intro r₁ u₁ m₁ hmem₁ hrcv
      rw [hm] at hmem₁
      split at hmem₁
      · next heq =>
          obtain ⟨rfl, rfl⟩ := heq
          obtain rfl := Option.some.inj hmem₁
          exact ⟨_, .head hserves, htells⟩
      · next hne =>
          obtain ⟨p, hlatest, htold⟩ := h r₁ u₁ m₁ hmem₁ hrcv
          refine ⟨p, hlatest.cons ?_, htold⟩
          -- a request names one member only
          rintro ⟨-, c', msg', rnd', heq, hn'⟩
          cases heq
          exact hne (names_unique hn hn')
  | @parted c _ r u m _ _ _ hm =>
      refine h.of_silent rfl ?_
      intro r₁ u₁ m₁ hmem₁ _
      rw [hm] at hmem₁
      split at hmem₁
      · cases hmem₁
      · exact ⟨m₁, hmem₁, rfl, rfl, rfl⟩
  | received hmem _ hrecv hm =>
      obtain ⟨up, rfl, -⟩ := RoomMember.onUdpReceive_outcome hrecv
      exact hset hmem hm rfl rfl rfl rfl
  | @acted r u addr acts _ m hmem hm =>
      have hframe := m.onAdapter_frame addr acts
      exact hset hmem hm (by rw [hframe]) (by rw [hframe]) (by rw [hframe]) rfl

theorem run_allTold (run : Lts.Run (system env cfg) tr s) : AllTold env tr s := by
  induction run with
  | start h =>
      obtain rfl := h
      intro r u m hmem
      simp [initial, member, findRoom] at hmem
  | snoc run hstep ih => exact ih.step (reachable_wellFormed run.reachable) hstep

/-- **What a client has been told is so**: at any time of any run, the last answer about a
member that receives names, in lines of their own, the port at which it has asked to
receive, the credentials that its checks ask for and the server's certificate. -/
theorem answer_told (run : Lts.Run (system env cfg) tr s)
    (hfp : env.certificateFingerprint = some fp) (hmem : s.member r u = some m)
    (hrcv : m.udpReceiver.isSome) : ∃ p c cmd sroomid text param,
      Lts.Latest (Serves r u) tr p ∧ .reply c (sdpReply cmd sroomid u text) ∈ p.2.2 ∧
      m.iceParameter = some param ∧
      ∀ line ∈ connectLines env fp m.addr.port param, HasLine text line := by
  obtain ⟨p, hlatest, c, msg, rnd, cmd, sroomid, answer, hp, -, hlines⟩ :=
    run_allTold run r u m hmem hrcv
  obtain ⟨param, hparam, hlines⟩ := hlines fp hfp
  refine ⟨p, c, cmd, sroomid, _, param, hlatest, ?_, hparam, hlines⟩
  rw [hp]
  exact List.mem_cons_of_mem _ (List.mem_singleton_self _)

theorem answer_told_published : ∃ tr s m,
    Lts.Run (system Sample.env Sample.cfg) tr s ∧ s.member 1 Sample.alice = some m ∧
      ∃ p c cmd sroomid text param, Lts.Latest (Serves 1 Sample.alice) tr p ∧
        .reply c (sdpReply cmd sroomid Sample.alice text) ∈ p.2.2 ∧
        m.iceParameter = some param ∧
        ∀ line ∈ connectLines Sample.env ⟨str "sha-1", [1]⟩ m.addr.port param,
          HasLine text line := by
  obtain ⟨s, hs, hv⟩ := exists_reachable_of_runEvents Sample.env Sample.cfg Sample.published
    (fun s => (s.member 1 Sample.alice).map (·.udpReceiver.isSome)) (some true) (by decide +kernel)
  obtain ⟨m, hmem, hrcv⟩ := Option.map_eq_some_iff.mp hv
  obtain ⟨tr, run⟩ := hs
  exact ⟨tr, s, m, run, hmem, answer_told run rfl hmem hrcv⟩

end Server

end JuanSfu
