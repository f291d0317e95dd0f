import JuanSfu.Safety.PortLedger
import JuanSfu.Signaling.Answers

/-!
# When the ports run out

`allocate_port` returns 0 when it has no port, and nobody looks: the 0 goes
into the candidate lines of the answer, the receiver is bound to it, and
`stop_recv` recycles it. So the answers are right, and only ports that are out
come back, as long as no request is let through when there is no free port.
-/

namespace JuanSfu

/-- A port `start + i * step` of the configured range. -/
def Config.HasPort (cfg : Config) (port : UInt32) : Prop :=
  ∃ i : ℕ, i < UdpPortManager.portCount cfg.portStart cfg.portEnd cfg.portStep ∧
    (port.toNat : ℤ) = cfg.portStart.toInt + i * cfg.portStep.toInt

/-- Each section has one candidate line, with this port. -/
def SessionDescription.Advertises (sd : SessionDescription) (port : UInt32) : Prop :=
  ∀ m ∈ sd.mediaContents, m.cands.map (·.port) = [port]

/-- A publish or a pull. -/
def Event.AsksPort : Event → Prop
  | .message _ msg _ => Commands msg (str "publish") ∨ Commands msg (str "pullstream")
  | _ => False

namespace Server

variable {env : Env} {cfg : Config} {s s' : Server} {out : Multiset UInt32}

/-! ## The law and its guard -/

/-- **What one step owes**: an answer advertises a configured port, a request
that finds no free port gets no answer and no receiver, and only a port that is
out is recycled. -/
structure HandlesExhaustion (env : Env) (cfg : Config) (p : Server × Multiset UInt32)
    (l : Event × List Effect) : Prop where
  advertised (c : ConnId) (msg : Json) (rnd : MessageOracle) (reply : Json)
    (hmsg : l.1 = .message c msg rnd) (hasks : l.1.AsksPort) (hreply : .reply c reply ∈ l.2) :
    ∃ sroomid r u m lines pull flag offerSdp port,
      p.1.Requests msg sroomid r u m lines pull ∧
      m.offerSdp.parseSdp lines = .ok (flag, offerSdp) ∧
      reply = sdpReply (replyCmd pull) sroomid u
        ((p.1.answerOf env r u offerSdp pull port rnd).toString env) ∧
      (p.1.answerOf env r u offerSdp pull port rnd).Advertises port ∧ cfg.HasPort port
  refused (hasks : l.1.AsksPort) (hfree : p.1.portMgr.freePorts = 0) :
    (∀ c reply, .reply c reply ∉ l.2) ∧
      ∀ s', p.1.exec env l.1 = .ok (s', l.2) → ∀ r u,
        (s'.member r u).map (·.udpReceiver) = (p.1.member r u).map (·.udpReceiver)
  returned (port : UInt32) (h : .portRecycled port ∈ l.2) : port ∈ p.2

/-- A request that gets as far as a port finds one. -/
def FindsFreePort (p : Server × Multiset UInt32) (l : Event × List Effect) : Prop :=
  ∀ c msg rnd r u, l.1 = .message c msg rnd → p.1.Admitted msg r u →
    p.1.portMgr.freePorts ≠ 0

/-! ## One step -/

theorem Admitted.asksPort {c : ConnId} {msg : Json} {rnd : MessageOracle} {r : ℤ} {u : Str}
    (h : s.Admitted msg r u) : (Event.message c msg rnd).AsksPort := by
  obtain ⟨-, m, vecs, -, -, -, -, -, -, -, hacc⟩ := h
  rcases hacc with ⟨hcmd, -⟩ | ⟨hcmd, -⟩
  · exact Or.inl hcmd
  · exact Or.inr hcmd

/-- **A request let through when there is no port is answered**, so it breaks
the law at once. -/
theorem HandlesExhaustion.findsFreePort {l : Event × List Effect}
    (h : HandlesExhaustion env cfg (s, out) l) (hstep : (system env cfg).step s l s') :
    FindsFreePort (s, out) l := by
  obtain ⟨e, effects⟩ := l
  rintro c msg rnd r u rfl hadm hfree
  obtain ⟨m, offerSdp, answer, port, reply, -, -, rfl, -⟩ := handle_admitted hadm hstep.2
  refine (h.refused hadm.asksPort hfree).1 c reply ?_
  exact List.mem_cons_of_mem _ (List.mem_cons_self ..)

/-- What a member gives back when it leaves is the port it held. -/
theorem Covers.returned (h : Covers cfg s out) {r : ℤ} {u : Str} {m : RoomMember}
    {port : UInt32} (hmem : s.member r u = some m) (hport : .portRecycled port ∈ stopEffects m) :
    port ∈ out := by
  unfold stopEffects at hport
  cases hrcv : m.udpReceiver with
  | none => simp [hrcv] at hport
  | some rcv =>
      simp only [hrcv, List.mem_cons, List.not_mem_nil, or_false, reduceCtorEq, false_or,
        Effect.portRecycled.injEq] at hport
      subst hport
      exact h.held r u _ ⟨m, hmem, by rw [hrcv]; rfl, rfl⟩

/-- **One step that finds a free port**, if it asks for one. -/
theorem Covers.step {l : Event × List Effect} (h : Covers cfg s out)
    (hg : FindsFreePort (s, out) l) (hstep : (system env cfg).step s l s') :
    Covers cfg s' (notePorts out l) := by
  obtain ⟨e, effects⟩ := l
  have hout : Outcome env s e s' effects := step_outcome h.wellFormed hstep
  have hw : s'.WellFormed := hout.wellFormed h.wellFormed
  cases hout.portStep with
  | same hport hholds hnote =>
      rw [hnote]
      exact h.same hw hport hholds
  | @served c msg rnd _ r u m m' port reply hadm hmem halloc hm hrcv haddr =>
      obtain ⟨hin, hk⟩ := h.served hw (hg c msg rnd r u rfl hadm) halloc hm haddr
      rwa [notePorts_served (ne_zero_of_mem_ports hin)]
  | parted hmem hm hport => exact h.parted hw hmem hm hport

/-- An answer with this port in it advertises the port. -/
theorem answerOf_advertises {r : ℤ} {u : Str} {offerSdp : SessionDescription}
    {pull : Option Str} {port : UInt32} {rnd : IceCredentials} :
    (s.answerOf env r u offerSdp pull port rnd).Advertises port := by
  intro m hm
  unfold answerOf at hm
  cases hfp : env.certificateFingerprint with
  | none =>
      rw [answerSdp_none hfp] at hm
      cases hm
  | some fp =>
      rw [answerSdp_some hfp] at hm
      rcases List.mem_pair.mp hm with rfl | rfl
      · rfl
      · rfl

/-- A free port is a port of the configuration. -/
theorem Covers.hasPort (h : Covers cfg s out) {port : UInt32} {portMgr : UdpPortManager}
    (hfree : s.portMgr.freePorts ≠ 0) (halloc : s.portMgr.allocatePort = .ok (port, portMgr)) :
    cfg.HasPort port := by
  rcases h.ledger.allocatePort with ⟨hnone, -⟩ | ⟨port', portMgr', heq, hin, -⟩
  · exact absurd hnone hfree
  · rw [halloc] at heq
    cases heq
    have hport := Pool.mem_whole_of_free h.ledger.pool hin
    exact (UdpPortManager.mem_initialPorts cfg.start_pos cfg.step_pos hport).2

/-- A request that is not let through starts no receiver. -/
theorem Outcome.sameReceivers {e : Event} {effects : List Effect}
    (h : Outcome env s e s' effects) (hasks : e.AsksPort)
    (hadm : ∀ c msg rnd r u, e = .message c msg rnd → ¬ s.Admitted msg r u) (r : ℤ) (u : Str) :
    effects = [] ∧ (s'.member r u).map (·.udpReceiver) = (s.member r u).map (·.udpReceiver) := by
  cases h with
  | quiet _ hm => exact ⟨rfl, by rw [hm.member]⟩
  | joined hjoin => exact absurd hasks (not_request_of_join hjoin)
  | offered hn hmem hm =>
      refine ⟨rfl, ?_⟩
      rw [hm]
      split
      · next heq =>
          obtain ⟨rfl, rfl⟩ := heq
          rw [hmem]
          rfl
      · rfl
  | served hadm' => exact absurd hadm' (hadm _ _ _ _ _ rfl)
  | _ => exact hasks.elim

/-- **A step that finds a free port keeps the law.** -/
theorem Covers.handlesExhaustion {l : Event × List Effect} (h : Covers cfg s out)
    (hg : FindsFreePort (s, out) l) (hstep : (system env cfg).step s l s') :
    HandlesExhaustion env cfg (s, out) l := by
  obtain ⟨e, effects⟩ := l
  refine ⟨?_, ?_, ?_⟩
  · rintro c msg rnd reply rfl hasks hreply
    rcases handle_early hasks hstep.2 with ⟨-, rfl⟩ | ⟨sroomid, r, u, m, lines, pull, hreq⟩
    · cases hreply
    · cases handle_outcome_of_requests hreq hstep.2 with
      | rejected => cases hreply
      | @answered flag offerSdp _ port portMgr hparse hgo halloc =>
          simp only [List.mem_cons, List.not_mem_nil, or_false, reduceCtorEq, false_or,
            Effect.reply.injEq, true_and] at hreply
          have hadm : s.Admitted msg r u := hreq.admitted hparse hgo
          exact ⟨sroomid, r, u, m, lines, pull, flag, offerSdp, port, hreq, hparse, hreply,
            answerOf_advertises, h.hasPort (hg c msg rnd r u rfl hadm) halloc⟩
  · intro hasks hfree
    have hadm : ∀ c msg rnd r u, e = .message c msg rnd → ¬ s.Admitted msg r u :=
      fun c msg rnd r u he hadm => hg c msg rnd r u he hadm hfree
    have hquiet : ∀ s', s.exec env e = .ok (s', effects) → ∀ r u, effects = [] ∧
        (s'.member r u).map (·.udpReceiver) = (s.member r u).map (·.udpReceiver) :=
      fun s' hexec => (exec_outcome hstep.1 h.wellFormed.paired hexec).sameReceivers hasks hadm
    refine ⟨?_, fun s' hexec r u => (hquiet s' hexec r u).2⟩
    intro c reply hreply
    rw [(hquiet s' hstep.2 0 []).1] at hreply
    cases hreply
  · intro port hport
    cases (step_outcome h.wellFormed hstep).portStep with
    | same _ _ _ hback => exact absurd hport (hback port)
    | served => simp at hport
    | parted hmem => exact h.returned hmem hport

/-! ## Runs -/

/-- **When exhaustion is handled**: every step of a run keeps the law if and
only if every request of it that gets as far as a port finds one. -/
theorem handlesExhaustion_iff
    {tr : List ((Server × Multiset UInt32) × (Event × List Effect))}
    {p : Server × Multiset UInt32} (run : Lts.Run (ledger env cfg) tr p) :
    Lts.Guarded (HandlesExhaustion env cfg) tr ↔ Lts.Guarded FindsFreePort tr := by
  constructor
  · exact run.guarded_imp fun _ _ _ _ hstep h => h.findsFreePort hstep.1
  · intro hg
    refine run.guarded_of (I := fun p => Covers cfg p.1 p.2) ?_ ?_ ?_ hg
    · rintro ⟨s, out⟩ ⟨hs, hout⟩
      obtain rfl : s = initial cfg := hs
      obtain rfl : out = 0 := hout
      exact (keeps_initial env cfg).covers
    · rintro ⟨s, out⟩ l ⟨s', out'⟩ h hg ⟨hstep, hout⟩
      obtain rfl : out' = notePorts out l := hout
      exact h.step hg hstep
    · rintro ⟨s, out⟩ l ⟨s', out'⟩ h hg ⟨hstep, -⟩
      exact h.handlesExhaustion hg hstep

end Server

namespace Server

open Sample

/-- One member that publishes once. -/
theorem handlesExhaustion_iff_publish :
    ∃ tr p, Lts.Run (ledger Sample.env cfg) tr p ∧ p.2 = {7000} ∧
      (Lts.Guarded (HandlesExhaustion Sample.env cfg) tr ↔ Lts.Guarded FindsFreePort tr) := by
  obtain ⟨p, hp, hv⟩ := exists_recorded_of_runEvents Sample.env cfg 0 notePorts
    [join 1 (str "1") alice, publish 1 (str "1") alice] (fun p => p.2) {7000} (by decide +kernel)
  obtain ⟨tr, run⟩ := hp
  exact ⟨tr, p, run, hv, handlesExhaustion_iff run⟩

/-- With both ports out, a third publish is answered all the same. -/
theorem third_publish_answered :
    ∃ tr p, Lts.Run (ledger Sample.env cfg) tr p ∧
      ¬ Lts.Guarded (HandlesExhaustion Sample.env cfg) tr := by
  obtain ⟨p, hp, hv⟩ := exists_recorded_of_runEvents Sample.env cfg 0 notePorts
    [join 1 (str "1") alice, publish 1 (str "1") alice, publish 1 (str "1") alice]
    (fun p => (p.1.portMgr.freePorts,
      (p.1.exec Sample.env (publish 1 (str "1") alice)).toOption.map
        fun q => q.2.any (repliesTo 1)))
    (0, some true) (by decide +kernel)
  obtain ⟨hfree, hexec⟩ := Prod.mk.inj hv
  obtain ⟨⟨s', effects⟩, hexec, hreplies⟩ := ok_of_toOption_map hexec
  obtain ⟨reply, hreply⟩ := mem_of_repliesTo hreplies
  obtain ⟨tr, run⟩ := hp
  have hstep : (ledger Sample.env cfg).step p (publish 1 (str "1") alice, effects)
      (s', notePorts p.2 (publish 1 (str "1") alice, effects)) :=
    ⟨⟨fun hjoin => absurd hjoin (by decide), hexec⟩, rfl⟩
  refine ⟨_, _, run.snoc hstep, ?_⟩
  intro h
  have hlaw := h _ (List.mem_cons_self ..)
  exact (hlaw.refused (Or.inl rfl) hfree).1 1 reply hreply

end Server

end JuanSfu
