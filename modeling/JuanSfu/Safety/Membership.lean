import JuanSfu.System

/-!
# Rooms, connections and who may speak for whom

A room records with each uid the connection that joined it; the reverse index
records for each connection the room it joined last. `remove` goes by the
reverse index and stops at the first entry it finds there, so a connection
with more entries than that one leaves some behind. The other handlers look
members up by the names in the message and never at the records.
-/

namespace JuanSfu

namespace Server

variable {env : Env} {cfg : Config} {s s' : Server} {effects : List Effect} {c : ConnId}

/-! ## Entries -/

/-- An entry appears only by a join on its own connection, for a uid that the
room did not have. -/
theorem entry_made {e : Event} {r : ℤ} {u : Str} (h : Outcome env s e s' effects)
    (hnew : s'.connectionOf r u = some c) (hold : s.connectionOf r u ≠ some c) :
    s.member r u = none ∧
      ∃ msg rnd, e = .message c msg rnd ∧ Commands msg (str "join") ∧ Names msg r u := by
  cases h with
  | unknown => exact absurd hnew hold
  | quiet _ hm | unlisted _ _ hm => exact absurd (hm.connectionOf r u ▸ hnew) hold
  | offered _ _ _ hc | served _ _ _ _ _ _ hc | received _ _ _ _ hc | acted _ _ hc =>
      exact absurd (hc.connectionOf r u ▸ hnew) hold
  | parted _ _ _ _ hof =>
      rw [hof] at hnew
      split at hnew
      · cases hnew
      · exact absurd hnew hold
  | @joined c' msg rnd _ r' u' reply hcmd hn hmem _ hof =>
      rw [hof] at hnew
      split at hnew
      · next heq =>
          obtain ⟨rfl, rfl⟩ := heq
          cases hnew
          exact ⟨hmem, msg, rnd, rfl, hcmd, hn⟩
      · exact absurd hnew hold

/-- Some step of the run is a join of `u` into room `r` on connection `c`. -/
def JoinedIn (tr : List (Server × (Event × List Effect))) (r : ℤ) (u : Str) (c : ConnId) :
    Prop :=
  ∃ p ∈ tr, ∃ msg rnd, p.2.1 = .message c msg rnd ∧ Commands msg (str "join") ∧
    Names msg r u

/-- Every entry of a run was made by a join of the run. -/
theorem entry_joined {tr : List (Server × (Event × List Effect))}
    (run : Lts.Run (system env cfg) tr s) {r : ℤ} {u : Str}
    (h : s.connectionOf r u = some c) : JoinedIn tr r u c := by
  induction run with
  | start h0 =>
      cases h0
      simp [initial, connectionOf, findRoom] at h
  | @snoc tr s₀ s' l run hstep ih =>
      by_cases hold : s₀.connectionOf r u = some c
      · obtain ⟨p, hp, hjoin⟩ := ih hold
        exact ⟨p, List.mem_cons_of_mem _ hp, hjoin⟩
      · have hw := reachable_wellFormed run.reachable
        obtain ⟨-, msg, rnd, he, hjoin⟩ := entry_made (step_outcome hw hstep) h hold
        exact ⟨_, List.mem_cons_self .., msg, rnd, he, hjoin⟩

/-! ## Leaving -/

/-- A removal of `c` that is complete: of the entries and members its joins
made nothing is left, running receivers were stopped, and the entries of the
other connections are as before. -/
structure LeavesNothing (s s' : Server) (effects : List Effect) (c : ConnId) : Prop where
  index : s'.connections.lookup c = none
  entries (r : ℤ) (u : Str) : s'.connectionOf r u ≠ some c
  members (r : ℤ) (u : Str) (h : s.connectionOf r u = some c) : s'.member r u = none
  stopped (r : ℤ) (u : Str) (m : RoomMember) (h : s.connectionOf r u = some c)
    (hm : s.member r u = some m) (e : Effect) (he : e ∈ stopEffects m) : e ∈ effects
  others (r : ℤ) (u : Str) (h : s.connectionOf r u ≠ some c) :
    s'.member r u = s.member r u ∧ s'.connectionOf r u = s.connectionOf r u
  otherIndex (c' : ConnId) (h : c' ≠ c) :
    s'.connections.lookup c' = s.connections.lookup c'

/-- `c` has one entry at most, in the room it joined last. -/
def OneEntry (s : Server) (c : ConnId) : Prop :=
  ∀ r u, s.connectionOf r u = some c → s.connections.lookup c = some r ∧
    ∀ r' u', s.connectionOf r' u' = some c → r' = r ∧ u' = u

/-- A removal that finds no entry is complete when there was none anywhere. -/
theorem leavesNothing_iff_none (hm : SameMembers s s')
    (hc : ∀ c', s'.connections.lookup c' =
      if c' = c then none else s.connections.lookup c') :
    LeavesNothing s s' [] c ↔ ∀ r u, s.connectionOf r u ≠ some c := by
  constructor
  · intro h r u
    rw [← hm.connectionOf]
    exact h.entries r u
  · intro hno
    refine ⟨by rw [hc, if_pos rfl], ?_, ?_, ?_, ?_, ?_⟩
    · intro r u
      rw [hm.connectionOf]
      exact hno r u
    · exact fun r u h => absurd h (hno r u)
    · exact fun r u m h => absurd h (hno r u)
    · exact fun r u _ => ⟨hm.member r u, hm.connectionOf r u⟩
    · intro c' hne
      rw [hc, if_neg hne]

theorem oneEntry_iff_none
    (hlast : ∀ r u, s.connectionOf r u = some c → s.connections.lookup c ≠ some r) :
    OneEntry s c ↔ ∀ r u, s.connectionOf r u ≠ some c := by
  constructor
  · exact fun h r u he => hlast r u he (h r u he).1
  · exact fun h r u he => absurd he (h r u)

/-- Where the entry that was found is the only one, removing it and its member is
enough. -/
theorem leavesNothing_parted {r : ℤ} {u : Str} {m : RoomMember}
    (hentry : s.connectionOf r u = some c) (hmem : s.member r u = some m)
    (hm : SetsMember s s' r u none) (hof : SetsConnection s s' r u none)
    (hc : s'.connections = s.connections.erase c)
    (hall : ∀ r' u', s.connectionOf r' u' = some c → r' = r ∧ u' = u) :
    LeavesNothing s s' (stopEffects m) c := by
  refine ⟨?_, ?_, ?_, ?_, ?_, ?_⟩
  · rw [hc, UnorderedMap.lookup_erase_ite, if_pos rfl]
  · intro r' u'
    rw [hof]
    split
    · exact fun h => by cases h
    · next hne => exact fun he => hne (hall r' u' he)
  · intro r' u' he
    rw [hm, if_pos (hall r' u' he)]
  · intro r' u' m' he hm' e hin
    obtain ⟨rfl, rfl⟩ := hall r' u' he
    rw [hmem] at hm'
    cases hm'
    exact hin
  · intro r' u' he
    have hne : ¬ (r' = r ∧ u' = u) := by
      rintro ⟨rfl, rfl⟩
      exact he hentry
    rw [hm, hof, if_neg hne, if_neg hne]
    exact ⟨rfl, rfl⟩
  · intro c' hne
    rw [hc, UnorderedMap.lookup_erase_ite, if_neg hne]

/-- **When a removal is complete**: exactly for a connection with one entry at
most, in the room its index names. -/
theorem leavesNothing_iff {first : Option Str}
    (h : Outcome env s (.close c first) s' effects) :
    LeavesNothing s s' effects c ↔ OneEntry s c := by
  cases h with
  | quiet he => exact he.elim
  | unknown hnone =>
      rw [leavesNothing_iff_none ⟨fun _ _ => rfl, fun _ _ => rfl⟩, oneEntry_iff_none]
      · intro r u _
        rw [hnone]
        exact fun h => by cases h
      · intro c'
        split
        · next hc => rw [hc, hnone]
        · rfl
  | @unlisted _ _ r hlast hnone hm hc =>
      rw [leavesNothing_iff_none hm, oneEntry_iff_none]
      · intro r' u he hr
        rw [hlast] at hr
        cases hr
        exact hnone u he
      · intro c'
        rw [hc, UnorderedMap.lookup_erase_ite]
  | @parted _ _ r u m hlast hentry hmem hm hof hc =>
      constructor
      · intro h
        have hall : ∀ r' u', s.connectionOf r' u' = some c → r' = r ∧ u' = u := by
          intro r' u' he
          by_contra hne
          have hleft := h.entries r' u'
          rw [hof, if_neg hne] at hleft
          exact hleft he
        intro r' u' he
        obtain ⟨rfl, rfl⟩ := hall r' u' he
        exact ⟨hlast, hall⟩
      · exact fun h => leavesNothing_parted hentry hmem hm hof hc (h r u hentry).2

/-- The removals of a run that are complete. -/
def RemovesAll (env : Env) (s : Server) (l : Event × List Effect) : Prop :=
  ∀ c first s', l.1 = .close c first → s.exec env l.1 = .ok (s', l.2) →
    LeavesNothing s s' l.2 c

def ClosesOneEntry (s : Server) (l : Event × List Effect) : Prop :=
  ∀ c first, l.1 = .close c first → OneEntry s c

/-- **Leaving, over a run**: every removal is complete if and only if every
connection that closes has one entry at most, in the room it joined last. -/
theorem removesAll_iff {tr : List (Server × (Event × List Effect))}
    (run : Lts.Run (system env cfg) tr s) :
    Lts.Guarded (RemovesAll env) tr ↔ Lts.Guarded ClosesOneEntry tr := by
  apply run.guarded_congr
  rintro s ⟨e, effects⟩ s' hr hstep
  have hw := reachable_wellFormed hr
  constructor
  · intro h c first he
    obtain rfl : e = .close c first := he
    exact (leavesNothing_iff (step_outcome hw hstep)).mp (h c first s' rfl hstep.2)
  · intro h c first s₁ he hexec
    obtain rfl : e = .close c first := he
    exact (leavesNothing_iff (exec_outcome hstep.1 hw.paired hexec)).mpr (h c first rfl)

/-! ## Requests for a member -/

/-- Something changes for `u`, or somebody gets a reply. -/
def Acts (s s' : Server) (effects : List Effect) (r : ℤ) (u : Str) : Prop :=
  s'.member r u ≠ s.member r u ∨ s'.media.target u ≠ s.media.target u ∨
    ∃ c reply, .reply c reply ∈ effects

/-- A pull changes the subscription of the puller's uid and of no other. -/
theorem target_mediaAfterPull {u v : Str} (pull : Option Str) (hv : v ≠ u) :
    (s.mediaAfterPull u pull).target v = s.media.target v := by
  cases pull with
  | none => rfl
  | some t =>
      unfold mediaAfterPull Media.target Media.addSubscriber
      rw [UnorderedMap.lookup_insert_ite, if_neg hv]

/-- **What a publish or a pull for `u` needs**: that `u` is in the room, entered
there by a join on some connection, which may be another than the one the
request came in on. It changes no other member, no subscription under another uid
(that of `u` is one for all rooms) and no entry, and the reply goes back to where
the request came from. -/
theorem request_needs_member {tr : List (Server × (Event × List Effect))}
    (run : Lts.Run (system env cfg) tr s) {msg : Json} {rnd : MessageOracle} {r : ℤ}
    {u : Str} (hstep : (system env cfg).step s (.message c msg rnd, effects) s')
    (hcmd : Commands msg (str "publish") ∨ Commands msg (str "pullstream"))
    (hn : Names msg r u) :
    (Acts s s' effects r u → ∃ c', s.connectionOf r u = some c' ∧ JoinedIn tr r u c') ∧
    (∀ r' u', ¬ (r' = r ∧ u' = u) → s'.member r' u' = s.member r' u') ∧
    (∀ v, v ≠ u → s'.media.target v = s.media.target v) ∧
    (∀ r' u', s'.connectionOf r' u' = s.connectionOf r' u') ∧
    (∀ c' reply, .reply c' reply ∈ effects → c' = c) := by
  have hw := reachable_wellFormed run.reachable
  have hentered : ∀ m, s.member r u = some m →
      ∃ c', s.connectionOf r u = some c' ∧ JoinedIn tr r u c' := by
    intro m hmem
    obtain ⟨c', hc'⟩ := Option.isSome_iff_exists.mp ((hw.paired r u).mp (by rw [hmem]; rfl))
    exact ⟨c', hc', entry_joined run hc'⟩
  cases step_outcome hw hstep with
  | quiet _ hm hc ho =>
      refine ⟨?_, fun r' u' _ => hm.member r' u', fun v _ => by rw [ho.media],
        hm.connectionOf, ?_⟩
      · rintro (h | h | ⟨c', reply, h⟩)
        · exact absurd (hm.member r u) h
        · exact absurd (by rw [ho.media]) h
        · cases h
      · intro c' reply h
        cases h
  | joined hjoin => exact absurd hcmd (not_request_of_join hjoin)
  | @offered _ _ _ _ r₁ u₁ m _ hn' hmem hm hc ho =>
      obtain ⟨rfl, rfl⟩ := names_unique hn hn'
      refine ⟨fun _ => hentered m hmem, ?_, fun v _ => by rw [ho.media], hc.connectionOf, ?_⟩
      · intro r' u' hne
        rw [hm, if_neg hne]
      · intro c' reply h
        cases h
  | @served _ _ _ _ r₁ u₁ m _ _ pull _ reply₁ _ hn' hmem _ _ hm hc hmedia =>
      obtain ⟨rfl, rfl⟩ := names_unique hn hn'
      refine ⟨fun _ => hentered m hmem, ?_, ?_, hc.connectionOf, ?_⟩
      · intro r' u' hne
        rw [hm, if_neg hne]
      · intro v hv
        rw [hmedia, target_mediaAfterPull pull hv]
      · intro c' reply h
        simp only [List.mem_cons, reduceCtorEq, Effect.reply.injEq, List.not_mem_nil, or_false,
          false_or] at h
        exact h.1

end Server

namespace Server

open Sample

/-- One of two members leaves. -/
theorem removesAll_iff_two_members :
    ∃ tr s s' effects,
      Lts.Run (system Sample.env cfg) ((s, .close 1 (some alice), effects) :: tr) s' ∧
      s'.member 1 alice = none ∧ (s'.member 1 bob).isSome ∧
      (Lts.Guarded (RemovesAll Sample.env) ((s, .close 1 (some alice), effects) :: tr) ↔
        Lts.Guarded ClosesOneEntry ((s, .close 1 (some alice), effects) :: tr)) := by
  obtain ⟨tr, s, s', effects, run, hstep, hv⟩ := exists_step_of_runEvents Sample.env cfg
    [join 1 (str "1") alice, join 2 (str "1") bob [alice]] (.close 1 (some alice))
    (fun _ s' _ => ((s'.member 1 alice).isNone, (s'.member 1 bob).isSome)) (true, true)
    (by decide +kernel)
  obtain ⟨halice, hbob⟩ := Prod.mk.inj hv
  exact ⟨tr, s, s', effects, run.snoc hstep, Option.isNone_iff_eq_none.mp halice, hbob,
    removesAll_iff (run.snoc hstep)⟩

/-- A connection that joined two rooms stays in the first one for ever. -/
theorem two_rooms_left_behind :
    ∃ tr s, Lts.Run (system Sample.env cfg) tr s ∧
      s.connectionOf 1 alice = some 1 ∧ (s.member 1 alice).isSome ∧
      ¬ Lts.Guarded (RemovesAll Sample.env) tr := by
  obtain ⟨tr, s, s', effects, run, hstep, hv⟩ := exists_step_of_runEvents Sample.env cfg
    [join 1 (str "1") alice, join 1 (str "2") alice] (.close 1 (some alice))
    (fun _ s' _ => (s'.connectionOf 1 alice, (s'.member 1 alice).isSome)) (some 1, true)
    (by decide +kernel)
  obtain ⟨hof, hmem⟩ := Prod.mk.inj hv
  refine ⟨_, s', run.snoc hstep, hof, hmem, ?_⟩
  intro hall
  exact (hall _ (List.mem_cons_self ..) 1 _ s' rfl hstep.2).entries 1 alice hof

/-- Connection 1 joined for alice; connection 2 publishes for her. -/
theorem another_publishes :
    ∃ tr s s' effects msg, Lts.Run (system Sample.env cfg) tr s ∧
      (system Sample.env cfg).step s (.message 2 msg rnd, effects) s' ∧
      Commands msg (str "publish") ∧ Names msg 1 alice ∧
      s.connectionOf 1 alice = some 1 ∧
      s'.member 1 alice ≠ s.member 1 alice ∧
      ∃ reply, .reply 2 reply ∈ effects := by
  obtain ⟨tr, s, s', effects, run, hstep, hv⟩ := exists_step_of_runEvents Sample.env cfg
    [join 1 (str "1") alice] (publish 2 (str "1") alice)
    (fun s s' effects => (s.connectionOf 1 alice,
      (s.member 1 alice).map (·.udpReceiver.isSome),
      (s'.member 1 alice).map (·.udpReceiver.isSome), effects.any (repliesTo 2)))
    (some 1, some false, some true, true) (by decide +kernel)
  simp only [Prod.mk.injEq] at hv
  obtain ⟨hof, hidle, hrunning, hreply⟩ := hv
  refine ⟨tr, s, s', effects, _, run, hstep, rfl,
    ⟨str "1", by decide, by decide, by decide⟩, hof, ?_, mem_of_repliesTo hreply⟩
  intro hsame
  rw [hsame, hidle] at hrunning
  cases hrunning

/-- The request is acted on although its connection is not the recorded one. -/
theorem publish_without_ownership :
    ¬ ∀ (s s' : Server) (effects : List Effect) (c : ConnId) (msg : Json)
      (rnd : MessageOracle) (r : ℤ) (u : Str),
      Lts.Reachable (system Sample.env cfg) s →
      (system Sample.env cfg).step s (.message c msg rnd, effects) s' →
      Commands msg (str "publish") ∨ Commands msg (str "pullstream") → Names msg r u →
      Acts s s' effects r u → s.connectionOf r u = some c := by
  intro hall
  obtain ⟨tr, s, s', effects, msg, run, hstep, hcmd, hn, hof, hchange, -⟩ := another_publishes
  have := hall s s' effects 2 msg rnd 1 alice run.reachable hstep (Or.inl hcmd) hn
    (Or.inl hchange)
  rw [hof] at this
  exact absurd this (by decide)

/-- The member that is acted for was joined by connection 1. -/
theorem request_needs_member_another :
    ∃ tr s s' effects, Lts.Run (system Sample.env cfg) tr s ∧
      Acts s s' effects 1 alice ∧
      ∃ c', s.connectionOf 1 alice = some c' ∧ JoinedIn tr 1 alice c' := by
  obtain ⟨tr, s, s', effects, msg, run, hstep, hcmd, hn, -, hchange, -⟩ := another_publishes
  have hacts : Acts s s' effects 1 alice := Or.inl hchange
  exact ⟨tr, s, s', effects, run, hacts,
    (request_needs_member run hstep (Or.inl hcmd) hn).1 hacts⟩

end Server

end JuanSfu
