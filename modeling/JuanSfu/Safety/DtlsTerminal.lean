import JuanSfu.Udp.DtlsSteps

/-!
# The end of a DTLS connection

`slot_dtls_event` may assign `k_closed` or `k_failed` while `handle_dtls` is in
the middle of a call. The handler assigns `_state` behind two of its calls and
does not look at what the slot has assigned inside them.
-/

namespace JuanSfu

def DtlsTransportState.isEnd : DtlsTransportState → Bool
  | .closed | .failed => true
  | _ => false

namespace DtlsMark

/-- The connection comes to its end. -/
def ends : DtlsMark → Bool
  | .set state => state.isEnd
  | _ => false

/-- What may not happen behind the end: a state that is none, and a delivery. -/
def revives : DtlsMark → Bool
  | .set state => !state.isEnd
  | .delivered .. => true
  | _ => false

end DtlsMark

/-- Behind an end there is no new state other than an end, and no delivery. -/
def EndsForGood (log : List DtlsMark) : Prop :=
  log.Pairwise fun m m' => m.ends = true → m'.revives = false

theorem endsForGood_append {log marks : List DtlsMark} : EndsForGood (log ++ marks) ↔
    EndsForGood log ∧ EndsForGood marks ∧
      ((∃ m ∈ log, m.ends = true) → ∀ m ∈ marks, m.revives = false) := by
  unfold EndsForGood
  rw [List.pairwise_append]
  constructor
  · rintro ⟨hlog, hmarks, hcross⟩
    refine ⟨hlog, hmarks, ?_⟩
    rintro ⟨m, hm, hend⟩ m' hm'
    exact hcross m hm m' hm' hend
  · rintro ⟨hlog, hmarks, hcross⟩
    exact ⟨hlog, hmarks, fun m hm m' hm' hend => hcross ⟨m, hm, hend⟩ m' hm'⟩

/-- Where nothing is revived, the state is an end from the first one on. -/
theorem isEnd_stateAfter {state : DtlsTransportState} (hstate : state.isEnd = false)
    {log : List DtlsMark} (h : EndsForGood log) :
    (DtlsRun.stateAfter state log).isEnd = true ↔ ∃ m ∈ log, m.ends = true := by
  induction log using List.reverseRecOn with
  | nil => simp [DtlsRun.stateAfter, hstate]
  | append_singleton log m ih =>
      obtain ⟨hlog, -, hcross⟩ := endsForGood_append.mp h
      have ih := ih hlog
      rw [DtlsRun.stateAfter_append]
      cases m with
      | set state' =>
          cases hend : state'.isEnd with
          | true => simp [DtlsRun.stateAfter, DtlsMark.ends, hend]
          | false =>
              have hno : ¬ ∃ m ∈ log, m.ends = true := by
                intro hex
                have hrev := hcross hex _ (List.mem_singleton_self _)
                simp [DtlsMark.revives, hend] at hrev
              simpa [DtlsRun.stateAfter, DtlsMark.ends, hend] using hno
      | arrived => simpa [DtlsRun.stateAfter, DtlsMark.ends] using ih
      | started => simpa [DtlsRun.stateAfter, DtlsMark.ends] using ih
      | delivered => simpa [DtlsRun.stateAfter, DtlsMark.ends] using ih

/-! ## One step -/

namespace DtlsRun

/-- In a state that is an end, `StartSSL` does not return 0, the delivery of a
ClientHello that found room does not return, and no `SE_OPEN` is raised. -/
def KeepsEnd (s : DtlsRun) : DtlsEvent → Prop
  | .startReturns ok => ok = true → s.dtls.state.isEnd = false
  | .deliveryReturns => s.control = .delivering true true → s.dtls.state.isEnd = false
  | .adapter (.signal seOpen _ _ _ _) => seOpen = true → s.dtls.state.isEnd = false
  | _ => True

theorem readMarks_revives {reads : List StreamResult} {m : DtlsMark}
    (hm : m ∈ readMarks reads) : m.revives = false := by
  rcases mem_readMarks hm with rfl | rfl <;> rfl

theorem marks_signal (seOpen seClose seRead : Bool) (error : ℤ) (reads : List StreamResult) :
    ∃ ends : List DtlsMark, (AdapterAct.signal seOpen seClose seRead error reads).marks =
        (if seOpen then [.set .connected] else []) ++ ends ∧
      ∀ m ∈ ends, m.revives = false := by
  refine ⟨(if seClose then [.set (if error = 0 then .closed else .failed)] else []) ++
    (if seRead then readMarks reads else []), List.append_assoc .., ?_⟩
  intro m hm
  rcases List.mem_append.mp hm with hm | hm
  · cases seClose with
    | false => cases hm
    | true =>
        rw [List.mem_singleton.mp hm]
        by_cases he : error = 0 <;> simp [DtlsMark.revives, DtlsTransportState.isEnd, he]
  · cases seRead with
    | false => cases hm
    | true => exact readMarks_revives hm

/-- Of what one act assigns only `SE_OPEN` revives, and it comes first. -/
theorem endsForGood_marks (a : AdapterAct) : EndsForGood a.marks := by
  cases a with
  | signal seOpen seClose seRead error reads =>
      obtain ⟨ends, heq, hends⟩ := marks_signal seOpen seClose seRead error reads
      rw [heq, endsForGood_append]
      refine ⟨?_, List.pairwise_of_forall_mem_list fun _ _ m hm _ => hends m hm, fun _ => hends⟩
      cases seOpen with
      | true => exact List.pairwise_singleton _ _
      | false => exact List.Pairwise.nil
  | _ => exact List.Pairwise.nil

variable {s s' : DtlsRun} {e : DtlsEvent}

/-- `s'` has these marks more in its log, and the state that they assign. -/
def Writes (s s' : DtlsRun) (marks : List DtlsMark) : Prop :=
  s'.log = s.log ++ marks ∧ s'.dtls.state = stateAfter s.dtls.state marks

theorem Writes.append {s₁ : DtlsRun} {marks marks' : List DtlsMark} (h : Writes s s₁ marks)
    (h' : Writes s₁ s' marks') : Writes s s' (marks ++ marks') := by
  obtain ⟨hlog, hstate⟩ := h
  obtain ⟨hlog', hstate'⟩ := h'
  exact ⟨by rw [hlog', hlog, List.append_assoc], by rw [hstate', hstate, stateAfter_append]⟩

/-- A delivery is made in a state that is no end, and assigns nothing. -/
theorem Dispatched.writes {data : Bytes} (h : Dispatched s data s') :
    Writes s s' [] ∨ s.dtls.state.isEnd = false ∧ ∃ flag, Writes s s' [.delivered data flag] := by
  cases h with
  | dropped => exact Or.inl ⟨(List.append_nil _).symm, rfl⟩
  | delivered hstate _ hwrite =>
      refine Or.inr ⟨?_, _, rfl, rfl⟩
      rcases hstate with ⟨-, hstate, -⟩ | ⟨-, hstate⟩ <;> rw [hstate] <;> rfl

/-- **What a step writes**: in a state that is an end it revives nothing exactly
if the step meets the condition. -/
theorem Stepped.writes (h : Stepped s e s') : ∃ marks, Writes s s' marks ∧ EndsForGood marks ∧
    ((s.dtls.state.isEnd = true → ∀ m ∈ marks, m.revives = false) ↔ s.KeepsEnd e) := by
  cases h with
  | starts =>
      refine ⟨[.arrived _], ⟨rfl, rfl⟩, List.pairwise_singleton _ _, ?_⟩
      simp [DtlsMark.revives, KeepsEnd]
  | @handled data _ _ _ hd =>
      have harrived : Writes s (s.note [.arrived data]) [.arrived data] := ⟨rfl, rfl⟩
      rcases hd.writes with hw | ⟨hend, flag, hw⟩
      · refine ⟨_, harrived.append hw, List.pairwise_singleton _ _, ?_⟩
        simp [DtlsMark.revives, KeepsEnd]
      · refine ⟨_, harrived.append hw, ?_, ?_⟩
        · simp [EndsForGood, DtlsMark.ends]
        · have hend : s.dtls.state.isEnd = false := hend
          simp [hend, KeepsEnd]
  | started _ hd =>
      have hstarted : Writes s ((s.note [.started]).setState .connecting)
          [.started, .set .connecting] := ⟨List.append_assoc .., rfl⟩
      rcases hd.writes with hw | ⟨-, flag, hw⟩
      · refine ⟨_, hstarted.append hw, ?_, ?_⟩
        · simp [EndsForGood, DtlsMark.ends]
        · simp [DtlsMark.revives, DtlsTransportState.isEnd, KeepsEnd]
      · refine ⟨_, hstarted.append hw, ?_, ?_⟩
        · simp [EndsForGood, DtlsMark.ends, DtlsTransportState.isEnd]
        · simp [DtlsMark.revives, DtlsTransportState.isEnd, KeepsEnd]
  | failed _ hd =>
      rcases hd.writes with hw | ⟨hend, flag, hw⟩
      · exact ⟨_, hw, List.Pairwise.nil, by simp [KeepsEnd]⟩
      · exact ⟨_, hw, List.pairwise_singleton _ _, by simp [hend, KeepsEnd]⟩
  | accepted hc =>
      refine ⟨[.set .connected], ⟨rfl, rfl⟩, List.pairwise_singleton _ _, ?_⟩
      simp [DtlsMark.revives, DtlsTransportState.isEnd, KeepsEnd, hc]
  | returned hc hno =>
      refine ⟨[], ⟨(List.append_nil _).symm, rfl⟩, List.Pairwise.nil, ?_⟩
      simpa [KeepsEnd, hc] using fun h1 h2 => absurd hno (by simp [h1, h2])
  | acted a =>
      refine ⟨a.marks, ⟨rfl, act_state s.dtls a⟩, endsForGood_marks a, ?_⟩
      cases a with
      | signal seOpen seClose seRead error reads =>
          obtain ⟨ends, heq, hends⟩ := marks_signal seOpen seClose seRead error reads
          rw [heq]
          cases seOpen with
          | true =>
              simp [DtlsMark.revives, DtlsTransportState.isEnd, KeepsEnd]
          | false => simpa [KeepsEnd] using fun _ => hends
      | _ => simp [AdapterAct.marks, KeepsEnd]
  | stopped => exact ⟨[], ⟨(List.append_nil _).symm, rfl⟩, List.Pairwise.nil, by simp [KeepsEnd]⟩

/-! ## Runs -/

/-- **When the end of a connection is final**: over datagrams and acts of the
adapter in any order and nesting, nothing happens behind an end if and only if
no step of the run leaves one. -/
theorem endsForGood_iff {tr : List (DtlsRun × DtlsEvent)} (run : Lts.Run system tr s) :
    Lts.Visits (fun s => EndsForGood s.log) tr s ↔ Lts.Guarded KeepsEnd tr := by
  -- the marks that the next step writes, and what they add to the log
  have hlog : ∀ (s : DtlsRun) e s', (s.dtls.state = stateAfter .new s.log ∧ EndsForGood s.log) →
      system.step s e s' → s'.dtls.state = stateAfter .new s'.log ∧
        (EndsForGood s'.log ↔ s.KeepsEnd e) := by
    rintro s e s' ⟨hstate, hgood⟩ hstep
    obtain ⟨marks, ⟨hlog, hstate'⟩, hmarks, hiff⟩ := (next_stepped hstep).writes
    refine ⟨by rw [hstate', hlog, stateAfter_append, hstate], ?_⟩
    have hend : (stateAfter .new s.log).isEnd = true ↔ ∃ m ∈ s.log, m.ends = true :=
      isEnd_stateAfter rfl hgood
    rw [← hstate] at hend
    rw [hlog, endsForGood_append, ← hend, ← hiff]
    exact ⟨fun h => h.2.2, fun h => ⟨hgood, hmarks, h⟩⟩
  refine run.visits_iff_guarded
    (I := fun s => s.dtls.state = stateAfter .new s.log ∧ EndsForGood s.log) ?_ ?_ ?_ ?_
  · rintro s ⟨d, rfl, hnew, -⟩
    exact ⟨hnew, List.Pairwise.nil⟩
  · exact fun s hs => hs.2
  · intro s e s' hs hc hstep
    exact ⟨(hlog s e s' hs hstep).1, (hlog s e s' hs hstep).2.mpr hc⟩
  · exact fun s e s' hs hstep hgood => (hlog s e s' hs hstep).2.mp hgood

theorem endsForGood_iff_hello :
    ∃ tr s, Lts.Run system tr s ∧ tr.map (·.2) =
        [.adapter (.signal false true false 0 []), .deliveryReturns, .startReturns true,
          .arrives helloBytes] ∧
      (Lts.Visits (fun s => EndsForGood s.log) tr s ↔ Lts.Guarded KeepsEnd tr) := by
  obtain ⟨tr, run, htr⟩ := run_steps [.arrives helloBytes, .startReturns true,
    .deliveryReturns, .adapter (.signal false true false 0 [])] unused_run rfl
  exact ⟨tr, _, run, htr, endsForGood_iff run⟩

/-- The adapter fails on the ClientHello and says so, and the handler goes on to
`k_connected` and delivers the next record. -/
theorem failed_handshake_revived :
    ∃ tr s, Lts.Run system tr s ∧
      (∀ p ∈ tr, ∀ seClose seRead error reads,
        p.2 ≠ .adapter (.signal true seClose seRead error reads)) ∧
      s.log = [.arrived helloBytes, .started, .set .connecting, .delivered helloBytes true,
        .set .failed, .set .connected, .arrived helloBytes, .delivered helloBytes true] ∧
      ¬ Lts.Visits (fun s => EndsForGood s.log) tr s := by
  obtain ⟨tr, run, htr⟩ := run_steps [.arrives helloBytes, .startReturns true,
    .adapter (.signal false true false 1 []), .deliveryReturns, .arrives helloBytes]
    unused_run rfl
  have hlog : ∀ {log}, log = [.arrived helloBytes, .started, .set .connecting,
      .delivered helloBytes true, .set .failed, .set .connected, .arrived helloBytes,
      .delivered helloBytes true] → ¬ EndsForGood log := by
    rintro log rfl hgood
    unfold EndsForGood at hgood
    revert hgood
    decide
  refine ⟨tr, _, run, ?_, rfl, fun h => hlog rfl h.1⟩
  intro p hp seClose seRead error reads heq
  have hmem : p.2 ∈ tr.map (·.2) := List.mem_map_of_mem hp
  rw [htr, heq] at hmem
  simp at hmem

end DtlsRun

end JuanSfu
