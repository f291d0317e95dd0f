import JuanSfu.Safety.Ownership

/-!
# Where packets are forwarded to

A packet goes from the transport it came in at to the transports linked with
that. Two things can go wrong with the links. A member that leaves stays in
`_streams`, and in the `_subs_map` of the transports it was linked with by a
pull of theirs. And the manager knows uids only: it links a pull in one room
with the stream of the same uid in another.
-/

namespace JuanSfu

namespace Server

variable {env : Env} {cfg : Config} {s s' : Server} {effects : List Effect}

/-! ## Members that have left -/

/-- **Nothing leads to a member that has left**: neither `_streams` nor the
`_subs_map` of a transport of somebody present has a transport of one. -/
structure NoneDeparted (s : Server) : Prop where
  streams (uid : Str) (st : TransportId) (h : s.media.mgr.streams.lookup uid = some st) :
    ∃ p, s.Owns p st
  subs (p : ℤ × Str) (st : TransportId) (hp : s.Owns p st) (uid : Str) (sub : TransportId)
    (h : s.media.subscriberOf st uid = some sub) : ∃ q, s.Owns q sub

/-- What is forwarded goes to transports of members that are present. -/
def ForwardsToPresent (env : Env) (s : Server) (l : Event × List Effect) : Prop :=
  ∀ s' p src dst, s.exec env l.1 = .ok (s', l.2) → Forwards l.2 p src dst →
    ∃ q, s'.Owns q dst

/-- Whoever leaves has no transport in `_streams`, and those of its transports
that another's transport has in its `_subs_map` are there because it pulled that
one, and are removed. -/
def LeavesClean (s : Server) (l : Event × List Effect) : Prop :=
  ∀ p, s.Leaves l.1 p → ∀ st, s.Owns p st →
    (∀ uid, s.media.mgr.streams.lookup uid ≠ some st) ∧
    ∀ q x, q ≠ p → s.Owns q x → ∀ uid, s.media.subscriberOf x uid = some st →
      ∃ t, s.media.target p.2 = some t ∧ s.media.mgr.streams.lookup t = some x

theorem noneDeparted_iff_tidy : s.NoneDeparted ↔ Wiring.Tidy s.wiring :=
  ⟨fun h => ⟨h.streams, h.subs⟩, fun h => ⟨h.streams, h.subs⟩⟩

/-- Reachable, and every stream and every link under the uid of its owner. -/
structure NamedLinks (env : Env) (cfg : Config) (s : Server) : Prop where
  reachable : Lts.Reachable (system env cfg) s
  named : Wiring.Named Prod.snd s.wiring

theorem NamedLinks.step {l : Event × List Effect} (h : NamedLinks env cfg s)
    (hg : s.LeavesClean l) (hstep : (system env cfg).step s l s') : NamedLinks env cfg s' := by
  refine ⟨h.reachable.snoc hstep, ?_⟩
  have hw := step_wires h.reachable hstep
  generalize s'.wiring = w at hw
  cases hw with
  | idle => exact h.named
  | subscribed => exact ⟨h.named.streams, h.named.subs⟩
  | @opened p => exact h.named.openFor p
  | fed _ ho => exact h.named.register ho
  | @first p => exact (h.named.openFor p).register (Wiring.owns_openFor s.wiring p)
  | @parted p he => exact h.named.part (hg p he)

theorem Leaves.unique {e : Event} {p q : ℤ × Str} (hp : s.Leaves e p) (hq : s.Leaves e q) :
    q = p := by
  obtain ⟨c, rfl, hlast⟩ := hp
  obtain ⟨c', he, hlast'⟩ := hq
  obtain ⟨rfl, hu⟩ := Event.close.inj he
  rw [hlast] at hlast'
  exact Prod.ext (Option.some.inj hlast').symm (Option.some.inj hu).symm

/-- **A step that ends well met the guard**, if it was a departure. -/
theorem NamedLinks.leavesClean {l : Event × List Effect} (h : NamedLinks env cfg s)
    (hstep : (system env cfg).step s l s') (hn : s'.NoneDeparted) : s.LeavesClean l := by
  intro p hp
  rw [noneDeparted_iff_tidy] at hn
  have hw := step_wires h.reachable hstep
  generalize s'.wiring = w at hw hn
  cases hw with
  | idle _ hleave => exact absurd hp (hleave p)
  | subscribed he =>
      have hclose := hp.isClose
      rw [he] at hclose
      cases hclose
  | opened _ hleave => exact absurd hp (hleave p)
  | fed he => exact absurd hp he.not_leaves
  | first he => exact absurd hp he.not_leaves
  | parted he =>
      obtain rfl := hp.unique he
      exact (Wiring.tidy_part_iff (reachable_sound h.reachable) h.named).mp hn

/-- A packet is forwarded along links of the state after it. -/
theorem forwards_linked {l : Event × List Effect} (hr : Lts.Reachable (system env cfg) s)
    (hstep : (system env cfg).step s l s') {p : ℤ × Str} {src dst : TransportId}
    (hf : Forwards l.2 p src dst) :
    s'.Owns p src ∧ ∃ uid, s'.media.subscriberOf src uid = some dst := by
  have hw := step_wires hr hstep
  generalize hwires : s'.wiring = w at hw
  have howns : s'.Owns = w.owns := by rw [← hwires]; rfl
  have hsubs : s'.media.subscriberOf = w.subs := by rw [← hwires]; rfl
  rw [howns, hsubs]
  cases hw with
  | idle _ _ hno | subscribed _ hno | opened _ _ hno | parted _ hno =>
      exact absurd hf (hno p src dst)
  | fed _ ho hf' =>
      obtain ⟨rfl, rfl, hv⟩ := hf' p src dst hf
      exact ⟨ho, hv⟩
  | first _ hf' =>
      obtain ⟨rfl, rfl, hv⟩ := hf' p src dst hf
      exact ⟨Wiring.owns_openFor s.wiring p, hv⟩

theorem namedLinks_initial (env : Env) (cfg : Config) : NamedLinks env cfg (initial cfg) := by
  refine ⟨.start rfl, ?_⟩
  rw [wiring_initial]
  exact Wiring.named_empty

/-- **Forwarding after a departure, over a run**: nothing leads to a member that
has left, and nothing is forwarded to one, if and only if every member that
leaves is out of `_streams` and out of the links that its leaving does not
remove. -/
theorem noneDeparted_iff {tr : List (Server × (Event × List Effect))}
    (run : Lts.Run (system env cfg) tr s) :
    Lts.Visits NoneDeparted tr s ∧ Lts.Guarded (ForwardsToPresent env) tr ↔
      Lts.Guarded LeavesClean tr := by
  have h0 : ∀ s, (system env cfg).init s → NamedLinks env cfg s := by
    rintro s rfl
    exact namedLinks_initial env cfg
  have hgo : ∀ s l s', NamedLinks env cfg s → s.LeavesClean l →
      (system env cfg).step s l s' → NamedLinks env cfg s' := fun _ _ _ h hg hstep =>
    h.step hg hstep
  have hvisits : Lts.Visits NoneDeparted tr s ↔ Lts.Guarded LeavesClean tr := by
    refine run.visits_iff_guarded h0 ?_ hgo ?_
    · exact fun s h => noneDeparted_iff_tidy.mpr h.named.tidy
    · exact fun s l s' h hstep hn => h.leavesClean hstep hn
  rw [hvisits, and_iff_left_iff_imp]
  refine run.guarded_of h0 hgo ?_
  rintro s l s' h hg hstep s₁ p src dst hexec hf
  have hstep₁ : (system env cfg).step s l s₁ := ⟨hstep.1, hexec⟩
  obtain ⟨howns, uid, hlink⟩ := forwards_linked h.reachable hstep₁ hf
  have hn := noneDeparted_iff_tidy.mpr (h.step hg hstep₁).named.tidy
  exact hn.subs p src howns uid dst hlink

/-! ## Rooms -/

/-- **Links stay in the room**: what a transport of a member of room `r` has in
its `_subs_map` is a transport of a member of room `r`. -/
def LinksInRoom (s : Server) : Prop :=
  ∀ p st uid sub, s.Owns p st → s.media.subscriberOf st uid = some sub →
    ∃ q, s.Owns q sub ∧ q.1 = p.1

/-- What is forwarded for a member goes to transports of members of its room. -/
def ForwardsInRoom (env : Env) (s : Server) (l : Event × List Effect) : Prop :=
  ∀ s' p src dst, s.exec env l.1 = .ok (s', l.2) → Forwards l.2 p src dst →
    ∃ q, s'.Owns q dst ∧ q.1 = p.1

/-- A packet that `add_stream` sees comes from a member that pulls itself or a
uid whose stream, if there is one, is of its own room. -/
def PullsInRoom (s : Server) (l : Event × List Effect) : Prop :=
  ∀ p st, s.Feeds l.1 p st → ∀ t x, s.media.target p.2 = some t → t ≠ p.2 →
    s.media.mgr.streams.lookup t = some x → ∃ q, s.Owns q x ∧ q.1 = p.1

structure RoomLinks (env : Env) (cfg : Config) (s : Server) : Prop where
  reachable : Lts.Reachable (opened env cfg) s
  linksInRoom : s.LinksInRoom

theorem RoomLinks.sound (h : RoomLinks env cfg s) : Wiring.Sound s.wiring :=
  reachable_sound h.reachable.of_restrict

/-- **Room isolation, step by step.** -/
theorem RoomLinks.step_iff {l : Event × List Effect} (h : RoomLinks env cfg s)
    (hstep : (opened env cfg).step s l s') : s'.LinksInRoom ↔ s.PullsInRoom l := by
  have hs := h.sound
  have hc : Wiring.Confined Prod.fst s.wiring := h.linksInRoom
  have hw := step_wires h.reachable.of_restrict hstep.2
  show Wiring.Confined Prod.fst s'.wiring ↔ _
  generalize s'.wiring = w at hw
  cases hw with
  | idle hfeed => exact iff_of_true hc fun p st hf => absurd hf (hfeed p st)
  | subscribed he =>
      apply iff_of_true hc
      intro p st hf
      rw [he] at hf
      exact absurd hf (not_feeds_message p st)
  | opened hfeed =>
      exact iff_of_true (hc.openFor _) fun p st hf => absurd hf (hfeed p st)
  | @fed p st he ho =>
      apply (Wiring.confined_register_iff hs hc ho).trans
      constructor
      · intro hm q x hq
        obtain ⟨rfl, -⟩ := he.unique hq
        exact hm
      · exact fun hg => hg p st he
  | @first p he =>
      have hfirst : Wiring.Confined Prod.fst
          ((s.wiring.openFor p).register p.2 s.wiring.next) ↔
          Wiring.MeetsOwn Prod.fst Prod.snd (s.wiring.openFor p) p :=
        Wiring.confined_register_iff (hs.openFor p) (hc.openFor p)
          (Wiring.owns_openFor s.wiring p)
      apply (hfirst.trans (Wiring.meetsOwn_openFor hs)).trans
      constructor
      · intro hm q x hq
        obtain ⟨rfl, -⟩ := he.unique hq
        exact hm
      · exact fun hg => hg p _ he
  | parted he =>
      have hclose := he.isClose
      rw [hstep.1] at hclose
      cases hclose

theorem RoomLinks.step {l : Event × List Effect} (h : RoomLinks env cfg s)
    (hg : s.PullsInRoom l) (hstep : (opened env cfg).step s l s') : RoomLinks env cfg s' :=
  ⟨h.reachable.snoc hstep, (h.step_iff hstep).mpr hg⟩

/-- **Room isolation over a run** without departures: links and packets stay in
their rooms if and only if no packet comes from a member whose target's uid is
streamed from another room. -/
theorem linksInRoom_iff {tr : List (Server × (Event × List Effect))}
    (run : Lts.Run (opened env cfg) tr s) :
    Lts.Visits LinksInRoom tr s ∧ Lts.Guarded (ForwardsInRoom env) tr ↔
      Lts.Guarded PullsInRoom tr := by
  have h0 : ∀ s, (opened env cfg).init s → RoomLinks env cfg s := by
    intro s hs
    refine ⟨.start hs, ?_⟩
    obtain rfl : s = initial cfg := hs
    show Wiring.Confined Prod.fst (initial cfg).wiring
    rw [wiring_initial]
    exact Wiring.confined_empty
  have hgo : ∀ s l s', RoomLinks env cfg s → s.PullsInRoom l →
      (opened env cfg).step s l s' → RoomLinks env cfg s' := fun _ _ _ h hg hstep =>
    h.step hg hstep
  have hvisits : Lts.Visits LinksInRoom tr s ↔ Lts.Guarded PullsInRoom tr := by
    refine run.visits_iff_guarded h0 ?_ hgo ?_
    · exact fun s h => h.linksInRoom
    · exact fun s l s' h hstep hin => (h.step_iff hstep).mp hin
  rw [hvisits, and_iff_left_iff_imp]
  refine run.guarded_of h0 hgo ?_
  rintro s l s' h hg ⟨hopen, ha, -⟩ s₁ p src dst hexec hf
  have hstep₁ : (opened env cfg).step s l s₁ := ⟨hopen, ha, hexec⟩
  obtain ⟨howns, uid, hlink⟩ := forwards_linked h.reachable.of_restrict hstep₁.2 hf
  exact (h.step hg hstep₁).linksInRoom p src uid dst howns hlink

end Server

namespace Server

open Sample

/-- The transports of the members that are present, with their rooms. -/
def ownedTransports (s : Server) : List (ℤ × TransportId) :=
  s.allMembers.flatMap fun e =>
    e.2.2.udpHandles.entries.filterMap fun h => h.2.srtp.map fun st => (e.1, st)

theorem Owns.mem_ownedTransports {s : Server} {p : ℤ × Str} {st : TransportId}
    (h : s.Owns p st) : (p.1, st) ∈ s.ownedTransports := by
  obtain ⟨m, a, hmem, hst⟩ := h
  refine List.mem_flatMap.mpr ⟨(p.1, p.2, m), mem_allMembers s hmem, ?_⟩
  unfold RoomMember.ports at hst
  cases hup : m.udpHandles.lookup a with
  | none =>
      rw [hup] at hst
      cases hst
  | some up =>
      rw [hup] at hst
      refine List.mem_filterMap.mpr ⟨⟨a, up⟩, UnorderedMap.mem_entries_iff.mpr hup, ?_⟩
      exact Option.map_eq_some_iff.mpr ⟨st, hst, rfl⟩

/-- A packet for `uid` in `room` is forwarded to the transport `dst`. -/
def forwardsTo (room : ℤ) (uid : Str) (dst : TransportId) : Effect → Bool
  | .member r u (.media (.forward _ dst' _)) => r == room && u == uid && dst' == dst
  | _ => false

theorem forwards_of_forwardsTo {effects : List Effect} {room : ℤ} {uid : Str}
    {dst : TransportId} (h : effects.any (forwardsTo room uid dst) = true) :
    ∃ src, Forwards effects (room, uid) src dst := by
  obtain ⟨e, he, hf⟩ := List.any_eq_true.mp h
  unfold forwardsTo at hf
  split at hf
  · next r u src dst' data =>
      simp only [Bool.and_eq_true, beq_iff_eq] at hf
      obtain ⟨⟨rfl, rfl⟩, rfl⟩ := hf
      exact ⟨src, data, he⟩
  · cases hf

end Server

namespace Sample

/-- Alice publishes in room 1 and sends. -/
def sent : List Event :=
  [join 1 (str "1") alice, publish 1 (str "1") alice, hello 1 alice ⟨1, 1⟩ [keying],
    rtp 1 alice ⟨1, 1⟩]

/-- Bob pulls her there, and is about to send. -/
def pulled : List Event :=
  sent ++ [join 2 (str "1") bob [alice], pull 2 (str "1") bob alice, hello 1 bob ⟨2, 2⟩ [keying]]

/-- Bob pulls another Alice, in room 2. -/
def pulledElsewhere : List Event :=
  sent ++ [join 2 (str "2") alice, join 3 (str "2") bob [alice], pull 3 (str "2") bob alice,
    hello 2 bob ⟨2, 2⟩ [keying]]

end Sample

namespace Server

open Sample

/-- Bob leaves before he has sent anything. -/
theorem noneDeparted_iff_pulled :
    ∃ tr s s' effects,
      Lts.Run (system Sample.env cfg) ((s, .close 2 (some bob), effects) :: tr) s' ∧
        s'.member 1 bob = none ∧ s'.ownedTransports = [(1, 0)] ∧
        (Lts.Visits NoneDeparted ((s, .close 2 (some bob), effects) :: tr) s' ∧
            Lts.Guarded (ForwardsToPresent Sample.env) ((s, .close 2 (some bob), effects) :: tr) ↔
          Lts.Guarded LeavesClean ((s, .close 2 (some bob), effects) :: tr)) := by
  obtain ⟨tr, s, s', effects, run, hstep, hv⟩ := exists_step_of_runEvents Sample.env cfg pulled
    (.close 2 (some bob)) (fun _ s' _ => ((s'.member 1 bob).isNone, s'.ownedTransports))
    (true, [(1, 0)]) (by decide +kernel)
  obtain ⟨hbob, howned⟩ := Prod.mk.inj hv
  exact ⟨tr, s, s', effects, run.snoc hstep, Option.isNone_iff_eq_none.mp hbob, howned,
    noneDeparted_iff (run.snoc hstep)⟩

/-- After Alice has left, Bob's packets still go out through her transport. -/
theorem departed_still_forwarded_to :
    ∃ tr s, Lts.Run (system Sample.env cfg) tr s ∧
      ¬ (Lts.Visits NoneDeparted tr s ∧ Lts.Guarded (ForwardsToPresent Sample.env) tr) := by
  obtain ⟨tr, s, s', effects, run, hstep, hv⟩ := exists_step_of_runEvents Sample.env cfg
    (pulled ++ [rtp 1 bob ⟨2, 2⟩, .close 1 (some alice)]) (rtp 1 bob ⟨2, 2⟩)
    (fun _ s' effects => (effects.any (forwardsTo 1 bob 0), s'.ownedTransports))
    (true, [(1, 1)]) (by decide +kernel)
  obtain ⟨hforward, howned⟩ := Prod.mk.inj hv
  refine ⟨_, s', run.snoc hstep, ?_⟩
  rintro ⟨-, hall⟩
  obtain ⟨src, hf⟩ := forwards_of_forwardsTo hforward
  obtain ⟨q, hq⟩ := hall _ (List.mem_cons_self ..) s' _ src 0 hstep.2 hf
  -- transport 1 is Bob's, and nobody has another
  have hmem := hq.mem_ownedTransports
  rw [howned, List.mem_singleton] at hmem
  exact absurd (Prod.mk.inj hmem).2 (by decide)

/-- Each of the two has sent a packet, and Alice's goes to Bob. -/
theorem linksInRoom_iff_pulled :
    ∃ tr s s' effects,
      Lts.Run (opened Sample.env cfg) ((s, rtp 1 alice ⟨1, 1⟩, effects) :: tr) s' ∧
        (∃ src, Forwards effects (1, alice) src 1) ∧
        (Lts.Visits LinksInRoom ((s, rtp 1 alice ⟨1, 1⟩, effects) :: tr) s' ∧
            Lts.Guarded (ForwardsInRoom Sample.env) ((s, rtp 1 alice ⟨1, 1⟩, effects) :: tr) ↔
          Lts.Guarded PullsInRoom ((s, rtp 1 alice ⟨1, 1⟩, effects) :: tr)) := by
  obtain ⟨s, ⟨tr, run⟩, hv⟩ := exists_opened_of_runEvents Sample.env cfg
    (pulled ++ [rtp 1 bob ⟨2, 2⟩])
    (fun s => (s.exec Sample.env (rtp 1 alice ⟨1, 1⟩)).toOption.map fun q =>
      q.2.any (forwardsTo 1 alice 1)) (some true) (by decide) (by decide +kernel)
  obtain ⟨⟨s', effects⟩, hsent, hforward⟩ := ok_of_toOption_map hv
  have run' : Lts.Run (opened Sample.env cfg) ((s, rtp 1 alice ⟨1, 1⟩, effects) :: tr) s' :=
    run.snoc ⟨rfl, trivial, hsent⟩
  exact ⟨tr, s, s', effects, run', forwards_of_forwardsTo hforward, linksInRoom_iff run'⟩

/-- Bob pulls the Alice of his room and sends to the one of another. -/
theorem pull_crosses_rooms :
    ∃ tr s, Lts.Run (opened Sample.env cfg) tr s ∧
      ¬ (Lts.Visits LinksInRoom tr s ∧ Lts.Guarded (ForwardsInRoom Sample.env) tr) := by
  obtain ⟨s, ⟨tr, run⟩, hv⟩ := exists_opened_of_runEvents Sample.env cfg pulledElsewhere
    (fun s => (s.exec Sample.env (rtp 2 bob ⟨2, 2⟩)).toOption.map fun q =>
      (q.2.any (forwardsTo 2 bob 0), q.1.ownedTransports))
    (some (true, [(2, 1), (1, 0)])) (by decide) (by decide +kernel)
  obtain ⟨⟨s', effects⟩, hsent, hv⟩ := ok_of_toOption_map hv
  obtain ⟨hforward, howned⟩ := Prod.mk.inj hv
  have hstep : (opened Sample.env cfg).step s (rtp 2 bob ⟨2, 2⟩, effects) s' :=
    ⟨rfl, trivial, hsent⟩
  refine ⟨_, s', run.snoc hstep, ?_⟩
  rintro ⟨-, hall⟩
  obtain ⟨src, hf⟩ := forwards_of_forwardsTo hforward
  obtain ⟨q, hq, hroom⟩ := hall _ (List.mem_cons_self ..) s' _ src 0 hsent hf
  have hmem := hq.mem_ownedTransports
  rw [howned, show q.1 = 2 from hroom] at hmem
  exact absurd hmem (by decide)

end Server

end JuanSfu
