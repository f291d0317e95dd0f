import JuanSfu.System

/-!
# The ports that are out

The handlers ask for a port each time they serve a member, and `stop_recv`
gives one back: the one of the last `start_recv`. The ledger of the ports that
are out is a history of the run, read off the results of `allocate_port` and
the arguments of `recycle_port`. It balances as long as a port is asked for
when the member has none, and when there is one to be had.
-/

namespace JuanSfu

namespace Server

variable {env : Env} {cfg : Config} {s s' : Server} {effects : List Effect}
  {out : Multiset UInt32} {r : ℤ} {u : Str} {port : UInt32}

/-! ## The ledger -/

/-- 0 is no port: it is how `allocate_port` says that it has none. -/
def noteEffect (out : Multiset UInt32) : Effect → Multiset UInt32
  | .portAllocated port => if port = 0 then out else port ::ₘ out
  | .portRecycled port => out.erase port
  | _ => out

def notePorts (out : Multiset UInt32) (l : Event × List Effect) : Multiset UInt32 :=
  l.2.foldl noteEffect out

/-- The server, with the ports allocated and not recycled. -/
def ledger (env : Env) (cfg : Config) :
    Lts.System (Server × Multiset UInt32) (Event × List Effect) :=
  (system env cfg).withHistory 0 notePorts

/-- `u` is a member of room `r` with a receiver running on this port. -/
def Holds (s : Server) (r : ℤ) (u : Str) (port : UInt32) : Prop :=
  ∃ m, s.member r u = some m ∧ m.udpReceiver.isSome ∧ m.addr.port = port

/-- **Port conservation**: the ports out are those of the running receivers,
each of one member, and none is lost when everybody has left. -/
structure Balanced (cfg : Config) (p : Server × Multiset UInt32) : Prop where
  held (port : UInt32) : port ∈ p.2 ↔ ∃ r u, p.1.Holds r u port
  once : p.2.Nodup
  own (r r' : ℤ) (u u' : Str) (port : UInt32) (h : p.1.Holds r u port)
    (h' : p.1.Holds r' u' port) : r' = r ∧ u' = u
  whole (hempty : ∀ r u, p.1.member r u = none) : ∃ got portMgr,
    p.1.portMgr.allocateMany cfg.ports.length = .ok (got, portMgr) ∧ got.Perm cfg.ports

/-- A request that gets as far as a port is for a member that has no receiver
yet, and there is a free port. -/
def ServesIdle (p : Server × Multiset UInt32) (l : Event × List Effect) : Prop :=
  ∀ c msg rnd r u, l.1 = .message c msg rnd → p.1.Admitted msg r u →
    (∀ m, p.1.member r u = some m → m.udpReceiver = none) ∧ p.1.portMgr.freePorts ≠ 0

/-! ## The invariant -/

/-- Running receivers are on ports that are out, each of one member. This much
holds as long as a request finds a free port. -/
structure Covers (cfg : Config) (s : Server) (out : Multiset UInt32) : Prop where
  wellFormed : s.WellFormed
  ledger : UdpPortManager.Ledger ↑cfg.ports s.portMgr out
  held (r : ℤ) (u : Str) (port : UInt32) (h : s.Holds r u port) : port ∈ out
  own (r r' : ℤ) (u u' : Str) (port : UInt32) (h : s.Holds r u port)
    (h' : s.Holds r' u' port) : r' = r ∧ u' = u

/-- The law, with the port manager's own ledger in the place of its
consequences. -/
structure Keeps (cfg : Config) (s : Server) (out : Multiset UInt32) : Prop where
  wellFormed : s.WellFormed
  ledger : UdpPortManager.Ledger ↑cfg.ports s.portMgr out
  held (port : UInt32) : port ∈ out ↔ ∃ r u, s.Holds r u port
  own (r r' : ℤ) (u u' : Str) (port : UInt32) (h : s.Holds r u port)
    (h' : s.Holds r' u' port) : r' = r ∧ u' = u

theorem Keeps.covers (h : Keeps cfg s out) : Covers cfg s out :=
  ⟨h.wellFormed, h.ledger, fun r u port hq => (h.held port).mpr ⟨r, u, hq⟩, h.own⟩

theorem ports_nodup (cfg : Config) : cfg.ports.Nodup :=
  UdpPortManager.initialPorts_nodup cfg.start_pos cfg.step_pos

theorem Covers.nodup (h : Covers cfg s out) : out.Nodup := by
  have hall : (s.portMgr.freePorts + out).Nodup := by
    rw [h.ledger.conserved]
    exact Multiset.coe_nodup.mpr (ports_nodup cfg)
  exact (Multiset.nodup_add.mp hall).2.1

theorem ne_zero_of_mem_ports (h : port ∈ cfg.ports) : port ≠ 0 :=
  (UdpPortManager.mem_initialPorts cfg.start_pos cfg.step_pos h).1

theorem Keeps.ne_zero (h : Keeps cfg s out) (hout : port ∈ out) : port ≠ 0 :=
  ne_zero_of_mem_ports (Pool.mem_whole_of_out h.ledger.pool hout)

theorem Keeps.balanced (h : Keeps cfg s out) : Balanced cfg (s, out) := by
  refine ⟨h.held, h.covers.nodup, h.own, ?_⟩
  intro hempty
  -- nobody is there to hold a port
  have hout : out = 0 := by
    apply Multiset.eq_zero_of_forall_notMem
    intro port hport
    obtain ⟨r, u, m, hmem, -⟩ := (h.held port).mp hport
    rw [hempty r u] at hmem
    cases hmem
  have hfree : s.portMgr.freePorts = ↑cfg.ports := by
    rw [← h.ledger.conserved, hout, add_zero]
  have hcard : s.portMgr.freePorts.card = cfg.ports.length := by
    rw [hfree, Multiset.coe_card]
  obtain ⟨got, portMgr, hmany, hgot⟩ :=
    UdpPortManager.allocateMany_spec h.ledger.valid hcard
  refine ⟨got, portMgr, hmany, ?_⟩
  rw [← Multiset.coe_eq_coe, ← hgot, hfree]

theorem keeps_initial (env : Env) (cfg : Config) : Keeps cfg (initial cfg) 0 := by
  have hnobody : ∀ r u port, ¬ (initial cfg).Holds r u port := by
    rintro r u port ⟨m, hmem, -⟩
    simp [initial, member, findRoom] at hmem
  have hw : (initial cfg).WellFormed :=
    reachable_wellFormed (.start rfl : Lts.Reachable (system env cfg) _)
  refine ⟨hw, UdpPortManager.ledger_init ?_, ?_, ?_⟩
  · exact Int.tdiv_nonneg (Int.sub_nonneg.mpr cfg.end_gt.le) cfg.step_pos.le
  · intro port
    constructor
    · intro h
      simp at h
    · rintro ⟨r, u, h⟩
      exact absurd h (hnobody r u port)
  · intro r r' u u' port h
    exact absurd h (hnobody r u port)

/-! ## One step -/

/-- What goes out to the network is no matter of ports. -/
theorem notePorts_member {e : Event} {sent : List MemberEffect} :
    notePorts out (e, sent.map (.member r u)) = out := by
  show (sent.map (Effect.member r u)).foldl noteEffect out = out
  induction sent with
  | nil => rfl
  | cons e sent ih => exact ih

theorem notePorts_idle {m : RoomMember} {e : Event} (h : m.udpReceiver = none) :
    notePorts out (e, stopEffects m) = out := by
  rw [stopEffects, h]
  rfl

theorem notePorts_stopped {m : RoomMember} {e : Event} {rcv : UdpReceiver}
    (h : m.udpReceiver = some rcv) :
    notePorts out (e, stopEffects m) = out.erase m.addr.port := by
  rw [stopEffects, h]
  rfl

/-- Nothing changes in the ports and in who holds them. -/
theorem Covers.same (h : Covers cfg s out) (hw : s'.WellFormed)
    (hport : s'.portMgr = s.portMgr) (hholds : ∀ r u port, s'.Holds r u port ↔ s.Holds r u port) :
    Covers cfg s' out := by
  refine ⟨hw, ?_, ?_, ?_⟩
  · rw [hport]
    exact h.ledger
  · exact fun r u port hq => h.held r u port ((hholds r u port).mp hq)
  · intro r r' u u' port hr hr'
    exact h.own r r' u u' port ((hholds r u port).mp hr) ((hholds r' u' port).mp hr')

theorem Keeps.same (h : Keeps cfg s out) (hw : s'.WellFormed)
    (hport : s'.portMgr = s.portMgr) (hholds : ∀ r u port, s'.Holds r u port ↔ s.Holds r u port) :
    Keeps cfg s' out := by
  have hc := h.covers.same hw hport hholds
  refine ⟨hw, hc.ledger, ?_, hc.own⟩
  intro port
  simp only [hholds]
  exact h.held port

theorem SameMembers.holds (hm : SameMembers s s') (r : ℤ) (u : Str) (port : UInt32) :
    s'.Holds r u port ↔ s.Holds r u port := by
  unfold Holds
  rw [hm.member]

/-- After a change of one member, the others hold what they held. -/
theorem SetsMember.holds {m' : Option RoomMember} (hm : SetsMember s s' r u m') (r' : ℤ)
    (u' : Str) (port : UInt32) : s'.Holds r' u' port ↔
      if r' = r ∧ u' = u then ∃ m, m' = some m ∧ m.udpReceiver.isSome ∧ m.addr.port = port
      else s.Holds r' u' port := by
  unfold Holds
  rw [hm]
  split
  · exact Iff.rfl
  · exact Iff.rfl

/-- A member whose receiver and address stay holds what it held. -/
theorem SetsMember.holds_same {m m' : RoomMember} (hmem : s.member r u = some m)
    (hm : SetsMember s s' r u (some m')) (hrcv : m'.udpReceiver = m.udpReceiver)
    (haddr : m'.addr = m.addr) (r' : ℤ) (u' : Str) (port : UInt32) :
    s'.Holds r' u' port ↔ s.Holds r' u' port := by
  rw [hm.holds]
  split
  · next heq =>
      obtain ⟨rfl, rfl⟩ := heq
      simp only [Holds, hmem, Option.some.injEq, exists_eq_left', hrcv, haddr]
  · exact Iff.rfl

/-- Whoever joins holds no port yet. -/
theorem SetsMember.holds_joined (hnew : s.member r u = none)
    (hm : SetsMember s s' r u (some { uid := u })) (r' : ℤ) (u' : Str) (port : UInt32) :
    s'.Holds r' u' port ↔ s.Holds r' u' port := by
  rw [hm.holds]
  split
  · next heq =>
      obtain ⟨rfl, rfl⟩ := heq
      simp [Holds, hnew]
  · exact Iff.rfl

/-- A member without a receiver holds no port. -/
theorem not_holds {m : RoomMember} (hmem : s.member r u = some m)
    (hrcv : m.udpReceiver = none) : ¬ s.Holds r u port := by
  rintro ⟨m₁, hmem₁, hsome, -⟩
  rw [hmem] at hmem₁
  cases hmem₁
  rw [hrcv] at hsome
  cases hsome

/-- Serving a member puts its new receiver on a port that was free. -/
theorem Covers.served (h : Covers cfg s out) {m' : RoomMember} (hw : s'.WellFormed)
    (hfree : s.portMgr.freePorts ≠ 0)
    (halloc : s.portMgr.allocatePort = .ok (port, s'.portMgr))
    (hm : SetsMember s s' r u (some m')) (haddr : m'.addr.port = port) :
    port ∈ cfg.ports ∧ Covers cfg s' (port ::ₘ out) := by
  rcases h.ledger.allocatePort with ⟨hnone, -⟩ | ⟨port', portMgr, heq, hin, hl⟩
  · exact absurd hnone hfree
  rw [halloc] at heq
  cases heq
  have hfresh : port ∉ out :=
    Pool.take_fresh h.ledger.pool (Multiset.coe_nodup.mpr (ports_nodup cfg)) hin
  have hholds : ∀ r' u' q, s'.Holds r' u' q →
      r' = r ∧ u' = u ∧ q = port ∨ s.Holds r' u' q := by
    intro r' u' q hq
    rw [hm.holds] at hq
    split at hq
    · next heq =>
        obtain ⟨m₁, hm₁, -, hq⟩ := hq
        cases hm₁
        exact Or.inl ⟨heq.1, heq.2, hq.symm.trans haddr⟩
    · exact Or.inr hq
  refine ⟨Pool.mem_whole_of_free h.ledger.pool hin, hw, hl, ?_, ?_⟩
  · intro r' u' q hq
    rcases hholds r' u' q hq with ⟨-, -, rfl⟩ | hq
    · exact Multiset.mem_cons_self _ _
    · exact Multiset.mem_cons_of_mem (h.held r' u' q hq)
  · intro r₁ r₂ u₁ u₂ q h₁ h₂
    rcases hholds r₁ u₁ q h₁ with ⟨rfl, rfl, rfl⟩ | h₁ <;>
      rcases hholds r₂ u₂ q h₂ with ⟨rfl, rfl, hq⟩ | h₂
    · exact ⟨rfl, rfl⟩
    · exact absurd (h.held r₂ u₂ _ h₂) hfresh
    · exact absurd (h.held r₁ u₁ q h₁) (hq ▸ hfresh)
    · exact h.own r₁ r₂ u₁ u₂ q h₁ h₂

/-- Serving an idle member adds the port of its new receiver to both sides. -/
theorem Keeps.served (h : Keeps cfg s out) {m m' : RoomMember}
    (hw : s'.WellFormed) (hmem : s.member r u = some m) (hidle : m.udpReceiver = none)
    (hfree : s.portMgr.freePorts ≠ 0)
    (halloc : s.portMgr.allocatePort = .ok (port, s'.portMgr))
    (hm : SetsMember s s' r u (some m')) (hrcv : m'.udpReceiver.isSome)
    (haddr : m'.addr.port = port) :
    port ≠ 0 ∧ Keeps cfg s' (port ::ₘ out) := by
  obtain ⟨hin, hc⟩ := h.covers.served hw hfree halloc hm haddr
  refine ⟨ne_zero_of_mem_ports hin, hw, hc.ledger, ?_, hc.own⟩
  intro q
  constructor
  · intro hq
    rcases Multiset.mem_cons.mp hq with rfl | hq
    · exact ⟨r, u, by rw [hm.holds, if_pos ⟨rfl, rfl⟩]; exact ⟨m', rfl, hrcv, haddr⟩⟩
    · obtain ⟨r', u', hq⟩ := (h.held q).mp hq
      refine ⟨r', u', ?_⟩
      rw [hm.holds, if_neg]
      · exact hq
      · rintro ⟨rfl, rfl⟩
        exact not_holds hmem hidle hq
  · rintro ⟨r', u', hq⟩
    exact hc.held r' u' q hq

/-- What holds a port after a member has left held it before. -/
theorem SetsMember.holds_none (hm : SetsMember s s' r u none) (r' : ℤ) (u' : Str)
    (port : UInt32) : s'.Holds r' u' port ↔ ¬ (r' = r ∧ u' = u) ∧ s.Holds r' u' port := by
  rw [hm.holds]
  split
  · next heq => simp [heq]
  · next hne => simp [hne]

/-- A member that leaves takes its port, if it has one, off the ports that are
out. -/
theorem Covers.parted (h : Covers cfg s out) {m : RoomMember} {e : Event}
    (hw : s'.WellFormed) (hmem : s.member r u = some m) (hm : SetsMember s s' r u none)
    (hport : match m.udpReceiver with
      | none => s'.portMgr = s.portMgr
      | some _ => s.portMgr.recyclePort m.addr.port = .ok s'.portMgr) :
    Covers cfg s' (notePorts out (e, stopEffects m)) := by
  have hown : ∀ r₁ r₂ u₁ u₂ q, s'.Holds r₁ u₁ q → s'.Holds r₂ u₂ q → r₂ = r₁ ∧ u₂ = u₁ :=
    fun r₁ r₂ u₁ u₂ q h₁ h₂ => h.own r₁ r₂ u₁ u₂ q ((hm.holds_none r₁ u₁ q).mp h₁).2
      ((hm.holds_none r₂ u₂ q).mp h₂).2
  cases hrcv : m.udpReceiver with
  | none =>
      rw [hrcv] at hport
      dsimp only at hport
      rw [notePorts_idle hrcv]
      refine ⟨hw, hport ▸ h.ledger, ?_, hown⟩
      exact fun r' u' q hq => h.held r' u' q ((hm.holds_none r' u' q).mp hq).2
  | some rcv =>
      have hmine : s.Holds r u m.addr.port := ⟨m, hmem, by rw [hrcv]; rfl, rfl⟩
      obtain ⟨portMgr, hrec, -, hl⟩ := h.ledger.recyclePort (h.held r u _ hmine)
      rw [hrcv] at hport
      dsimp only at hport
      rw [hrec] at hport
      cases hport
      rw [notePorts_stopped hrcv]
      refine ⟨hw, hl, ?_, hown⟩
      intro r' u' q hq
      obtain ⟨hne, hq⟩ := (hm.holds_none r' u' q).mp hq
      rw [h.nodup.mem_erase_iff]
      refine ⟨?_, h.held r' u' q hq⟩
      rintro rfl
      exact hne (h.own r r' u u' _ hmine hq)

/-- A member that leaves takes its port, if it has one, off both sides. -/
theorem Keeps.parted (h : Keeps cfg s out) {m : RoomMember} {e : Event}
    (hw : s'.WellFormed) (hmem : s.member r u = some m) (hm : SetsMember s s' r u none)
    (hport : match m.udpReceiver with
      | none => s'.portMgr = s.portMgr
      | some _ => s.portMgr.recyclePort m.addr.port = .ok s'.portMgr) :
    Keeps cfg s' (notePorts out (e, stopEffects m)) := by
  have hc := h.covers.parted (e := e) hw hmem hm hport
  refine ⟨hw, hc.ledger, ?_, hc.own⟩
  intro q
  constructor
  · -- a port that is still out is held by somebody else
    intro hq
    have hold : q ∈ out ∧ ¬ s.Holds r u q := by
      cases hrcv : m.udpReceiver with
      | none =>
          rw [notePorts_idle hrcv] at hq
          exact ⟨hq, not_holds hmem hrcv⟩
      | some rcv =>
          rw [notePorts_stopped hrcv, h.covers.nodup.mem_erase_iff] at hq
          refine ⟨hq.2, ?_⟩
          rintro ⟨m₁, hmem₁, -, hport₁⟩
          rw [hmem] at hmem₁
          cases hmem₁
          exact hq.1 hport₁.symm
    obtain ⟨r', u', hholds⟩ := (h.held q).mp hold.1
    refine ⟨r', u', (hm.holds_none r' u' q).mpr ⟨?_, hholds⟩⟩
    rintro ⟨rfl, rfl⟩
    exact hold.2 hholds
  · rintro ⟨r', u', hq⟩
    exact hc.held r' u' q hq

/-- The cases of one event, by what it does to the ports. -/
inductive PortStep (s : Server) : Event → Server → List Effect → Prop where
  | same {e : Event} {s' : Server} {effects : List Effect} (hport : s'.portMgr = s.portMgr)
      (hholds : ∀ r u port, s'.Holds r u port ↔ s.Holds r u port)
      (hnote : ∀ out, notePorts out (e, effects) = out)
      (hback : ∀ port, .portRecycled port ∉ effects) : PortStep s e s' effects
  | served {c : ConnId} {msg : Json} {rnd : MessageOracle} {s' : Server} {r : ℤ} {u : Str}
      {m m' : RoomMember} {port : UInt32} {reply : Json} (hadm : s.Admitted msg r u)
      (hmem : s.member r u = some m) (halloc : s.portMgr.allocatePort = .ok (port, s'.portMgr))
      (hm : SetsMember s s' r u (some m')) (hrcv : m'.udpReceiver.isSome)
      (haddr : m'.addr.port = port) :
      PortStep s (.message c msg rnd) s' [.portAllocated port, .reply c reply]
  | parted {e : Event} {s' : Server} {r : ℤ} {u : Str} {m : RoomMember}
      (hmem : s.member r u = some m) (hm : SetsMember s s' r u none)
      (hport : match m.udpReceiver with
        | none => s'.portMgr = s.portMgr
        | some _ => s.portMgr.recyclePort m.addr.port = .ok s'.portMgr) :
      PortStep s e s' (stopEffects m)

theorem PortStep.network {e : Event} {sent : List MemberEffect} (hport : s'.portMgr = s.portMgr)
    (hholds : ∀ r u port, s'.Holds r u port ↔ s.Holds r u port) :
    PortStep s e s' (sent.map (.member r u)) := by
  refine .same hport hholds (fun out => notePorts_member) ?_
  intro port hin
  obtain ⟨_, -, heq⟩ := List.mem_map.mp hin
  cases heq

theorem Outcome.portStep {e : Event} (h : Outcome env s e s' effects) :
    PortStep s e s' effects := by
  cases h with
  | unknown => exact .same rfl (fun _ _ _ => Iff.rfl) (fun _ => rfl) (by simp)
  | quiet _ hm _ ho | unlisted _ _ hm _ ho =>
      exact .same ho.portMgr hm.holds (fun _ => rfl) (by simp)
  | joined hcmd hn hnew hm hof hc ho =>
      exact .same ho.portMgr (hm.holds_joined hnew) (fun _ => rfl) (by simp)
  | offered hn hmem hm hc ho =>
      exact .same ho.portMgr (hm.holds_same hmem rfl rfl) (fun _ => rfl) (by simp)
  | served hadm hn hmem hpull halloc hm => exact .served hadm hmem halloc hm rfl rfl
  | parted hlast hentry hmem hm hof hc hport => exact .parted hmem hm hport
  | received hmem hrcv hrecv hm hc hport =>
      obtain ⟨up, rfl, -⟩ := RoomMember.onUdpReceive_outcome hrecv
      exact .network hport (hm.holds_same hmem rfl rfl)
  | @acted r u addr acts _ m hmem hm hc ho =>
      have hf := m.onAdapter_frame addr acts
      exact .network ho.portMgr (hm.holds_same hmem (by rw [hf]) (by rw [hf]))

/-- An allocation of a port of the range is entered in the books. -/
theorem notePorts_served {e : Event} {c : ConnId} {reply : Json} (hne : port ≠ 0) :
    notePorts out (e, [.portAllocated port, .reply c reply]) = port ::ₘ out := if_neg hne

/-- **One step that meets the guard keeps the books.** -/
theorem Keeps.step {l : Event × List Effect} (h : Keeps cfg s out)
    (hg : ServesIdle (s, out) l) (hstep : (system env cfg).step s l s') :
    Keeps cfg s' (notePorts out l) := by
  obtain ⟨e, effects⟩ := l
  have hout : Outcome env s e s' effects := step_outcome h.wellFormed hstep
  have hw : s'.WellFormed := hout.wellFormed h.wellFormed
  cases hout.portStep with
  | same hport hholds hnote =>
      rw [hnote]
      exact h.same hw hport hholds
  | @served c msg rnd _ r u m m' port reply hadm hmem halloc hm hrcv haddr =>
      obtain ⟨hidle, hfree⟩ := hg c msg rnd r u rfl hadm
      obtain ⟨hne, hk⟩ := h.served hw hmem (hidle m hmem) hfree halloc hm hrcv haddr
      rwa [notePorts_served hne]
  | parted hmem hm hport => exact h.parted hw hmem hm hport

/-- **Only such steps do**: a second port for a member, or none at all, shows
in the books at once. -/
theorem Keeps.servesIdle {l : Event × List Effect} (h : Keeps cfg s out)
    (hstep : (system env cfg).step s l s') (hb : Balanced cfg (s', notePorts out l)) :
    ServesIdle (s, out) l := by
  obtain ⟨e, effects⟩ := l
  rintro c msg rnd r u rfl hadm
  obtain ⟨m, offerSdp, answer, port, reply, hmem, halloc, rfl, hm⟩ :=
    handle_admitted hadm hstep.2
  have hnow : s'.Holds r u port := ⟨_, by rw [hm, if_pos ⟨rfl, rfl⟩], rfl, rfl⟩
  have hnote : notePorts out (.message c msg rnd, [.portAllocated port, .reply c reply]) =
      if port = 0 then out else port ::ₘ out := rfl
  rw [hnote] at hb
  have hne : port ≠ 0 := by
    rintro rfl
    have hin := (hb.held 0).mpr ⟨r, u, hnow⟩
    rw [if_pos rfl] at hin
    exact h.ne_zero hin rfl
  rw [if_neg hne] at hb
  constructor
  · intro m₁ hmem₁
    rw [hmem] at hmem₁
    cases hmem₁
    by_contra hrcv
    -- the port held before is still out, and somebody holds it
    have hold : s.Holds r u m.addr.port :=
      ⟨m, hmem, Option.isSome_iff_ne_none.mpr hrcv, rfl⟩
    have hout : m.addr.port ∈ out := (h.held _).mpr ⟨r, u, hold⟩
    obtain ⟨r', u', hq⟩ := (hb.held m.addr.port).mp (Multiset.mem_cons_of_mem hout)
    by_cases heq : r' = r ∧ u' = u
    · -- the same member, so it was handed its own port again
      rw [hm.holds, if_pos heq] at hq
      obtain ⟨m', hm', -, hq⟩ := hq
      cases hm'
      have hport : port = m.addr.port := hq
      rw [hport] at hb
      exact (Multiset.nodup_cons.mp hb.once).1 hout
    · rw [hm.holds, if_neg heq] at hq
      exact heq (h.own r r' u u' _ hold hq)
  · intro hnone
    rcases UdpPortManager.allocatePort_spec h.ledger.valid with
      ⟨-, heq⟩ | ⟨port', portMgr, -, -, -, hfree⟩
    · rw [halloc] at heq
      exact hne (Prod.mk.inj (Except.ok.inj heq)).1
    · rw [hnone] at hfree
      exact absurd hfree.symm (Multiset.cons_ne_zero)

/-! ## Runs -/

/-- **Port conservation over a run**: the books balance in every state if and
only if no port is asked for a member that has one or when none is free. -/
theorem balanced_iff {tr : List ((Server × Multiset UInt32) × (Event × List Effect))}
    {p : Server × Multiset UInt32} (run : Lts.Run (ledger env cfg) tr p) :
    Lts.Visits (Balanced cfg) tr p ↔ Lts.Guarded ServesIdle tr := by
  refine run.visits_iff_guarded (I := fun p => Keeps cfg p.1 p.2) ?_ ?_ ?_ ?_
  · rintro ⟨s, out⟩ ⟨hs, hout⟩
    obtain rfl : s = initial cfg := hs
    obtain rfl : out = 0 := hout
    exact keeps_initial env cfg
  · exact fun p h => h.balanced
  · rintro ⟨s, out⟩ l ⟨s', out'⟩ h hg ⟨hstep, hout⟩
    obtain rfl : out' = notePorts out l := hout
    exact h.step hg hstep
  · rintro ⟨s, out⟩ l ⟨s', out'⟩ h ⟨hstep, hout⟩ hb
    obtain rfl : out' = notePorts out l := hout
    exact h.servesIdle hstep hb

end Server

namespace Server

open Sample

/-- One member that publishes once. -/
theorem balanced_iff_publish :
    ∃ tr p, Lts.Run (ledger Sample.env cfg) tr p ∧ p.2 = {7000} ∧
      (Lts.Visits (Balanced cfg) tr p ↔ Lts.Guarded ServesIdle tr) := by
  obtain ⟨p, hp, hv⟩ := exists_recorded_of_runEvents Sample.env cfg 0 notePorts
    [join 1 (str "1") alice, publish 1 (str "1") alice] (fun p => p.2) {7000} (by decide +kernel)
  obtain ⟨tr, run⟩ := hp
  exact ⟨tr, p, run, hv, balanced_iff run⟩

/-- The ports of the running receivers. -/
def heldPorts (s : Server) : List UInt32 :=
  s.allMembers.filterMap fun e =>
    if e.2.2.udpReceiver.isSome then some e.2.2.addr.port else none

theorem Holds.mem_heldPorts {s : Server} {r : ℤ} {u : Str} {port : UInt32}
    (h : s.Holds r u port) : port ∈ s.heldPorts := by
  obtain ⟨m, hmem, hrcv, rfl⟩ := h
  refine List.mem_filterMap.mpr ⟨(r, u, m), mem_allMembers s hmem, ?_⟩
  exact if_pos hrcv

/-- A second publish of one member loses the port of the first. -/
theorem publish_twice_leaks :
    ∃ tr p, Lts.Run (ledger Sample.env cfg) tr p ∧ ¬ Lts.Visits (Balanced cfg) tr p := by
  obtain ⟨p, hp, hv⟩ := exists_recorded_of_runEvents Sample.env cfg 0 notePorts
    [join 1 (str "1") alice, publish 1 (str "1") alice,
      publish 1 (str "1") alice]
    (fun p => (p.2, p.1.heldPorts)) ({7001, 7000}, [7001]) (by decide +kernel)
  obtain ⟨hout, hheld⟩ := Prod.mk.inj hv
  obtain ⟨tr, run⟩ := hp
  refine ⟨tr, p, run, ?_⟩
  rintro ⟨hb, -⟩
  -- 7000 is out, and the one running receiver is on 7001
  have hin : (7000 : UInt32) ∈ p.2 := by
    rw [hout]
    decide
  obtain ⟨r, u, h⟩ := (hb.held 7000).mp hin
  have hmem := h.mem_heldPorts
  rw [hheld] at hmem
  exact absurd hmem (by decide)

end Server

end JuanSfu
