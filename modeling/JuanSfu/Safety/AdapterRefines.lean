import JuanSfu.Safety.AdapterSignals

/-!
# The adapter is an adapter

`DtlsRun` lets the adapter do what it likes between two calls, and what is
delivered to it (`Delivers`) was said under a guard: `SE_OPEN` is raised only by
an adapter that has been told of a datagram. Here the adapter of `rtc_base` is
put in its place. Each of its steps is a run of acts that meet the guard, so each
run of the two together is a run of `DtlsRun`, and what holds there holds of what
OpenSSL is given to read.
-/

namespace JuanSfu

namespace DtlsStack

variable {digestOf : Str → Bytes → Option Bytes} {alg : Str} {digest : Bytes}
  {s s₁ s' : DtlsStack} {r r' : DtlsRun}

/-! ## Logs only grow -/

theorem Does.log_grows {acts : List AdapterAct} (h : Does digestOf s acts s') :
    s.log <+: s'.log := by
  cases h with
  | runs hp | ends hp =>
      obtain ⟨marks, hlog, -⟩ := hp.log
      exact ⟨marks, hlog.symm⟩
  | establishes | opens | wakes | closes => exact List.prefix_append ..
  | _ => exact List.prefix_refl _

theorem Goes.log_grows (h : Goes digestOf s s') : s.log <+: s'.log := by
  obtain ⟨acts, h⟩ := h
  induction h with
  | refl => exact List.prefix_refl _
  | tail _ hdoes ih => exact ih.trans hdoes.log_grows

/-! ## A step of the adapter -/

/-- A run whose adapter raises `SE_OPEN` only when it has been told. -/
def Driven (r : DtlsRun) : Prop :=
  ∃ tr, Lts.Run DtlsRun.system tr r ∧ Lts.Guarded DtlsRun.OpensAfterDelivery tr

theorem Driven.snoc {e : DtlsEvent} (h : Driven r) (hstep : r.next e = some r')
    (hguard : r.OpensAfterDelivery e) : Driven r' := by
  obtain ⟨tr, run, hg⟩ := h
  exact ⟨_, run.snoc hstep, Lts.guarded_cons.mpr ⟨hguard, hg⟩⟩

/-- The run has the connection, and has delivered what OpenSSL has read. -/
structure Matches (s : DtlsStack) (r : DtlsRun) : Prop where
  dtls : r.dtls = s.dtls
  feeds : s.Feeds (written r.log)
  arrived : arrived r.log = arrivals s.log

structure Tied (s : DtlsStack) (r : DtlsRun) : Prop extends Matches s r where
  driven : Driven r

/-- OpenSSL needs what the peer sends: before a handshake is established it has
been given something. -/
def FedFirst (log : List StackMark) : Prop :=
  Precedes (∃ r, · = .fed r) (· = .established) log

theorem taken_ne_nil {log : List StackMark} {r : BioRead} (h : .fed r ∈ log) : taken log ≠ [] := by
  have hmem : r ∈ bioReads log := List.mem_filterMap.mpr ⟨_, h, rfl⟩
  exact List.ne_nil_of_mem (List.mem_map_of_mem hmem)

theorem told_of_written {log : List DtlsMark} (h : written log ≠ []) : Told log := by
  obtain ⟨data, hdata⟩ := List.exists_mem_of_ne_nil _ h
  exact ⟨data, true, mem_written.mp hdata⟩

theorem act_marks_eq_nil {a : AdapterAct} (h : a.ofStream = true) : a.marks = [] := by
  cases a with
  | signal => cases h
  | _ => rfl

/-- Acts on the stream below, one after the other. -/
theorem Driven.stream {acts : List AdapterAct} (h : Driven r)
    (hacts : ∀ a ∈ acts, a.ofStream = true) :
    Driven { r with dtls := (r.dtls.runActs acts).1 } := by
  induction acts generalizing r with
  | nil => exact h
  | cons a acts ih =>
      have hmarks := act_marks_eq_nil (hacts a List.mem_cons_self)
      have hone : Driven { r with dtls := (r.dtls.act a).1 } := by
        refine h.snoc (e := .adapter a) ?_ ?_
        · simp [DtlsRun.next, DtlsRun.note, hmarks]
        · have ha := hacts a List.mem_cons_self
          cases a with
          | signal => cases ha
          | _ => trivial
      exact ih hone fun a' ha' => hacts a' (List.mem_cons_of_mem _ ha')

theorem Passive.arrivals {acts : List AdapterAct} (h : Passive digestOf s acts s') :
    DtlsStack.arrivals s'.log = DtlsStack.arrivals s.log := by
  obtain ⟨marks, hlog, hmarks⟩ := h.log
  rw [hlog, arrivals_append]
  have hnone : DtlsStack.arrivals marks = [] := by
    refine List.filterMap_eq_nil_iff.mpr fun m hm => ?_
    have hm := hmarks m hm
    cases m with
    | arrived => cases hm
    | _ => rfl
  rw [hnone, List.append_nil]

theorem Tied.passive {acts : List AdapterAct} (h : Tied s r) (hp : Passive digestOf s acts s') :
    Tied s' { r with dtls := (r.dtls.runActs acts).1 } where
  driven := h.driven.stream hp.quiet
  dtls := by
    rw [hp.acted.dtls, ← h.dtls]
  feeds := hp.feeds _ h.feeds
  arrived := h.arrived.trans hp.arrivals.symm

/-- Nothing is seen of the step. -/
theorem Tied.silent (h : Tied s r) (hdtls : s'.dtls = s.dtls)
    (hread : bioReads s'.log = bioReads s.log) (harrivals : arrivals s'.log = arrivals s.log) : Tied s' r where
  driven := h.driven
  dtls := h.dtls.trans hdtls.symm
  feeds := h.feeds.congr hread (congrArg RtcDtls.downward hdtls)
  arrived := h.arrived.trans harrivals.symm

/-- An event of the adapter. -/
theorem Tied.signal (h : Tied s r) (seOpen seClose seRead : Bool) (error : ℤ)
    (reads : List StreamResult) (hopen : seOpen = true → Told r.log)
    (hdtls : s'.dtls = s.dtls.slotDtlsEvent seOpen seClose seRead error reads)
    (hread : bioReads s'.log = bioReads s.log) (harrivals : arrivals s'.log = arrivals s.log) :
    ∃ r', Tied s' r' ∧ r'.control = r.control := by
  have hnone : ∀ m ∈ AdapterAct.marks (.signal seOpen seClose seRead error reads),
      ∃ state, m = .set state := fun m hm => by
    obtain ⟨state, hstate, -⟩ := DtlsRun.marks_set _ m hm
    exact ⟨state, hstate⟩
  have hwritten : written (AdapterAct.marks (.signal seOpen seClose seRead error reads)) = [] := by
    refine List.filterMap_eq_nil_iff.mpr fun m hm => ?_
    obtain ⟨state, rfl⟩ := hnone m hm
    rfl
  have harrived : JuanSfu.arrived (AdapterAct.marks (.signal seOpen seClose seRead error reads)) =
      [] := by
    refine List.filterMap_eq_nil_iff.mpr fun m hm => ?_
    obtain ⟨state, rfl⟩ := hnone m hm
    rfl
  have hdown : s'.dtls.downward = s.dtls.downward := by
    rw [hdtls]
    exact s.dtls.slotDtlsEvent_downward seOpen seClose seRead error reads
  refine ⟨_, ⟨⟨?_, ?_, ?_⟩,
    h.driven.snoc (e := .adapter (.signal seOpen seClose seRead error reads)) rfl hopen⟩, rfl⟩
  · show (r.dtls.act _).1 = _
    rw [h.dtls, hdtls]
    rfl
  · show s'.Feeds (written (r.log ++ _))
    rw [written_append, hwritten, List.append_nil]
    exact h.feeds.congr hread hdown
  · show JuanSfu.arrived (r.log ++ _) = _
    rw [arrived_append, harrived, List.append_nil, harrivals]
    exact h.arrived

/-- **A step of the adapter is a run of acts that meet the guard.** -/
theorem Does.tied {acts : List AdapterAct} (h : Does digestOf s acts s')
    (hs : s.Sound digestOf alg digest) (hfed : FedFirst s'.log) (ht : Tied s r) :
    ∃ r', Tied s' r' ∧ r'.control = r.control := by
  cases h with
  | runs hp => exact ⟨_, ht.passive hp, rfl⟩
  | ends hp => exact ⟨_, ht.passive hp, rfl⟩
  | waits | begins | timer => exact ⟨r, ht.silent rfl rfl rfl, rfl⟩
  | establishes =>
      exact ⟨r, ht.silent rfl (bioReads_snoc rfl _) (arrivals_snoc rfl _), rfl⟩
  | opens hstate =>
      refine ht.signal true false true 0 [] (fun _ => told_of_written fun hnil => ?_) rfl
        (bioReads_snoc rfl _) (arrivals_snoc rfl _)
      -- the handshake is established, so OpenSSL has read what was written
      have hmem : .established ∈ s.log := hs.established hstate
      have hpre : FedFirst s.log := hfed.cut (List.prefix_append ..)
      obtain ⟨m, hm, read, rfl⟩ := hpre.exists_mem hmem rfl
      have hempty := ht.feeds.isPrefix
      rw [hnil, List.prefix_nil] at hempty
      exact taken_ne_nil hm hempty
  | wakes =>
      exact ht.signal false false true 0 [] (by simp) rfl (bioReads_snoc rfl _)
        (arrivals_snoc rfl _)
  | @closes err _ _ herr =>
      refine ht.signal false true false err [] (by simp) ?_ (bioReads_snoc rfl _)
        (arrivals_snoc rfl _)
      simp [RtcDtls.slotDtlsEvent, herr]
  | eos => exact ht.signal false false true 0 [.eos] (by simp) rfl rfl rfl
  | error => exact ht.signal false false true 0 [.error] (by simp) rfl rfl rfl

theorem Goes.tied (h : Goes digestOf s s') (hs : s.Sound digestOf alg digest)
    (hfed : FedFirst s'.log) (ht : Tied s r) : ∃ r', Tied s' r' ∧ r'.control = r.control := by
  obtain ⟨acts, h⟩ := h
  induction h with
  | refl => exact ⟨r, ht, rfl⟩
  | @tail acts acts' s₁ s' hpath hdoes ih =>
      obtain ⟨r₁, ht₁, hc₁⟩ := ih (hfed.cut hdoes.log_grows)
      have hgoes : Goes digestOf s s₁ := ⟨acts, hpath⟩
      obtain ⟨r₂, ht₂, hc₂⟩ := hdoes.tied (hgoes.sound hs) hfed ht₁
      exact ⟨r₂, ht₂, hc₂.trans hc₁⟩

/-! ## Events from outside -/

/-- `deliver`, and what is in the queue behind it. -/
theorem Feeds.write {ws : List Bytes} (h : s.Feeds ws) {data : Bytes} {flag : Bool}
    {downward : DtlsStreamInterface} (hwrite : s.dtls.downward.writeBack data = (flag, downward)) :
    ({ s with dtls.downward := downward } : DtlsStack).Feeds
      (ws ++ if flag then [data] else []) := by
  unfold DtlsStreamInterface.writeBack at hwrite
  split at hwrite
  · cases hwrite
    rw [if_neg (by simp), List.append_nil]
    exact h
  · cases hwrite
    refine ⟨h.isPrefix.trans (List.prefix_append ..), fun ho => ?_, h.cut⟩
    show taken s.log ++ (s.dtls.downward.que ++ [data]) = _
    rw [if_pos rfl, ← List.append_assoc, h.opened ho]

/-- Up to the switch of `handle_dtls`. -/
theorem Starts.tied {setup : SslSetup} {data : Bytes}
    (h : Starts digestOf { s with log := s.log ++ [.arrived data] } setup s')
    (hs : s.Sound digestOf alg digest) (hfed : FedFirst s'.log) (ht : Tied s r)
    (hc : r.control = .idle) : ∃ r', Matches s' r' ∧ Driven (r'.dispatch data) := by
  have hs₀ : ({ s with log := s.log ++ [.arrived data] } : DtlsStack).Sound digestOf alg digest :=
    hs.congr rfl hs.fresh rfl (by simp [StackMark.isSignal, StackMark.ofOpenSSL])
  have hm₀ : ∀ control, Matches { s with log := s.log ++ [.arrived data] }
      { r.note [.arrived data] with control } := by
    intro control
    refine ⟨ht.dtls, ?_, ?_⟩
    · have hwritten : written (r.log ++ [.arrived data]) = written r.log := by
        rw [written_append]
        exact List.append_nil _
      show Feeds _ (written (r.log ++ [.arrived data]))
      rw [hwritten]
      exact ht.feeds.congr (bioReads_snoc rfl _) rfl
    · show arrived (r.log ++ [.arrived data]) = arrivals (s.log ++ [.arrived data])
      rw [arrived_append, arrivals_append, ht.arrived]
      rfl
  by_cases hnew : s.dtls.state = .new
  · -- the run waits for `StartSSL`, and the adapter acts in it
    have hwaits : Tied { s with log := s.log ++ [.arrived data] }
        { r.note [.arrived data] with control := .starting data } := by
      refine ⟨hm₀ _, ht.driven.snoc (e := .arrives data) ?_ trivial⟩
      have hnew : r.dtls.state = .new := ht.dtls ▸ hnew
      simp [DtlsRun.next, hc, DtlsRun.note, hnew]
    cases h with
    | later h => exact absurd hnew h
    | @started s₁ _ hstart =>
        obtain ⟨hgoes, -⟩ := startSSL_goes (fun he => hs₀.unheard (Or.inl he)) hstart
        obtain ⟨r₁, ht₁, hc₁⟩ := hgoes.tied hs₀ hfed hwaits
        refine ⟨(r₁.note [.started]).setState .connecting, ⟨?_, ?_, ?_⟩,
          ht₁.driven.snoc (e := .startReturns true) ?_ trivial⟩
        · show { r₁.dtls with state := .connecting } = _
          rw [ht₁.dtls]
        · have hwritten : written (r₁.log ++ [.started] ++ [.set .connecting]) =
              written r₁.log := by
            simp [written, DtlsMark.written?]
          show Feeds _ (written (r₁.log ++ [.started] ++ [.set .connecting]))
          rw [hwritten]
          exact ht₁.feeds.congr rfl rfl
        · show arrived (r₁.log ++ [.started] ++ [.set .connecting]) = _
          rw [arrived_append, arrived_append, ht₁.arrived]
          simp [JuanSfu.arrived, DtlsMark.arrived?]
        · simp [DtlsRun.next, hc₁]
    | @failed err s₁ _ _ hstart =>
        obtain ⟨hgoes, -⟩ := startSSL_goes (fun he => hs₀.unheard (Or.inl he)) hstart
        obtain ⟨r₁, ht₁, hc₁⟩ := hgoes.tied hs₀ hfed hwaits
        refine ⟨r₁, ht₁.toMatches, ht₁.driven.snoc (e := .startReturns false) ?_ trivial⟩
        simp [DtlsRun.next, hc₁]
  · have hold : r.dtls.state ≠ .new := ht.dtls ▸ hnew
    cases h with
    | later =>
        refine ⟨{ r.note [.arrived data] with control := r.control }, hm₀ _,
          ht.driven.snoc (e := .arrives data) ?_ trivial⟩
        simp [DtlsRun.next, hc, DtlsRun.note, hold]
    | started h | failed h => exact absurd h hnew

/-- **From the switch on.** -/
theorem Dispatches.tied {data : Bytes} (h : Dispatches digestOf s data s')
    (hs : s.Sound digestOf alg digest) (hfed : FedFirst s'.log) (hm : Matches s r)
    (hd : Driven (r.dispatch data)) : ∃ r', Tied s' r' ∧ r'.control = .idle := by
  obtain ⟨d, control, log⟩ := r
  obtain rfl : d = s.dtls := hm.dtls
  cases h with
  | dropped hdrop =>
      have hidle : DtlsRun.dispatch { dtls := s.dtls, control, log } data =
          { dtls := s.dtls, control := .idle, log } := by
        have hdeliver : ∀ hello, RtcDtls.recordsLoop data.length data = false ∨
            s.dtls.downward.isStop = true →
            DtlsRun.deliver { dtls := s.dtls, control, log } hello data =
              { dtls := s.dtls, control := .idle, log } := by
          intro hello hno
          refine if_neg ?_
          rcases hno with hno | hno <;> simp [hno]
        unfold DtlsRun.dispatch
        split
        · next hstate =>
            split
            · next hhello => exact hdeliver true (hdrop (Or.inl ⟨hstate, hhello⟩))
            · rfl
        · next hstate => exact hdeliver false (hdrop (Or.inr hstate))
        · rfl
      rw [hidle] at hd
      exact ⟨{ dtls := s.dtls, control := .idle, log }, ⟨⟨rfl, hm.feeds, hm.arrived⟩, hd⟩, rfl⟩
  | @delivered hello flag downward s₂ hstate hrecords hstop hwrite hevent =>
      have hdeliver : DtlsRun.dispatch { dtls := s.dtls, control, log } data =
          { dtls := { s.dtls with downward }
            control := .delivering hello flag
            log := log ++ [.delivered data flag] } := by
        have hone : DtlsRun.deliver { dtls := s.dtls, control, log } hello data =
            { dtls := { s.dtls with downward }
              control := .delivering hello flag
              log := log ++ [.delivered data flag] } := by
          unfold DtlsRun.deliver
          rw [if_pos (by simp [hrecords, hstop]), hwrite]
        rw [← hone]
        unfold DtlsRun.dispatch
        rcases hstate with ⟨rfl, hstate, hhello⟩ | ⟨rfl, hstate⟩
        · rw [hstate]
          exact if_pos hhello
        · rw [hstate]
      rw [hdeliver] at hd
      -- the adapter is told of it
      have ht : Tied { s with dtls.downward := downward }
          { dtls := { s.dtls with downward }
            control := .delivering hello flag
            log := log ++ [.delivered data flag] } := by
        refine ⟨⟨rfl, ?_, ?_⟩, hd⟩
        · have hwritten : written (log ++ [.delivered data flag]) =
              written log ++ if flag then [data] else [] := by
            rw [written_append]
            cases flag <;> rfl
          show Feeds _ (written (log ++ [.delivered data flag]))
          rw [hwritten]
          exact hm.feeds.write hwrite
        · show arrived (log ++ [.delivered data flag]) = _
          rw [arrived_append, hm.arrived]
          exact List.append_nil _
      have hnone : s.adapter.state ≠ .none := by
        intro he
        have hnew := hs.fresh he
        rcases hstate with ⟨-, hstate, -⟩ | ⟨-, hstate⟩ <;> simp [hstate] at hnew
      have hs₁ : ({ s with dtls.downward := downward } : DtlsStack).Sound digestOf alg digest :=
        hs.congr rfl hs.fresh (List.append_nil _).symm (by simp)
      have hlog : FedFirst s₂.log := by
        split at hfed <;> exact hfed
      obtain ⟨r₂, ht₂, hc₂⟩ := (onEvent_goes (s := { s with dtls.downward := downward }) hnone
        (fun he => hs.unheard (Or.inr (Or.inr he))) hevent).tied hs₁ hlog ht
      have hreturns : r₂.next .deliveryReturns = some (if hello && flag then
          ({ r₂ with control := .idle } : DtlsRun).setState .connected
          else { r₂ with control := .idle }) := by
        rw [DtlsRun.next, hc₂]
      have hdriven := ht₂.driven.snoc hreturns trivial
      refine ⟨_, ⟨?_, hdriven⟩, ?_⟩
      · split
        · refine ⟨?_, ?_, ?_⟩
          · show { r₂.dtls with state := .connected } = _
            rw [ht₂.dtls]
          · have hwritten : written (r₂.log ++ [.set .connected]) = written r₂.log := by
              rw [written_append]
              exact List.append_nil _
            show Feeds _ (written (r₂.log ++ [.set .connected]))
            rw [hwritten]
            exact ht₂.feeds.congr rfl rfl
          · show arrived (r₂.log ++ [.set .connected]) = _
            rw [arrived_append, ht₂.arrived]
            exact List.append_nil _
        · exact ⟨ht₂.dtls, ht₂.feeds, ht₂.arrived⟩
      · split <;> rfl

theorem Starts.log_grows {setup : SslSetup} (h : Starts digestOf s setup s')
    (hs : s.Sound digestOf alg digest) : s.log <+: s'.log := by
  cases h with
  | later => exact List.prefix_refl _
  | started _ hstart | failed _ _ hstart =>
      exact (startSSL_goes (fun he => hs.unheard (Or.inl he)) hstart).1.log_grows

theorem Dispatches.log_grows {data : Bytes} (h : Dispatches digestOf s data s')
    (hs : s.Sound digestOf alg digest) : s.log <+: s'.log := by
  cases h with
  | dropped => exact List.prefix_refl _
  | @delivered hello flag downward s₂ hstate _ _ _ hevent =>
      have hnone : s.adapter.state ≠ .none := by
        intro he
        have hnew := hs.fresh he
        rcases hstate with ⟨-, hstate, -⟩ | ⟨-, hstate⟩ <;> simp [hstate] at hnew
      have hgoes := onEvent_goes (s := { s with dtls.downward := downward }) hnone
        (fun he => hs.unheard (Or.inr (Or.inr he))) hevent
      split <;> exact hgoes.log_grows

theorem extractSrtpKeys_some {unset : ℤ} {profile : Option ℤ} {material : Option (ℕ → UInt8)}
    (h : s.extractSrtpKeys unset profile material = some s') :
    ∃ marks, s' = { s with log := s.log ++ marks } ∧ bioReads marks = [] ∧ arrivals marks = [] := by
  unfold extractSrtpKeys at h
  dsimp only at h
  have hsame : s = { s with log := s.log ++ [] } := by rw [List.append_nil]
  split at h
  · cases h
    exact ⟨[], hsame, rfl, rfl⟩
  · split at h
    · split at h
      · cases h
        exact ⟨[], hsame, rfl, rfl⟩
      · cases h
        exact ⟨_, rfl, rfl, rfl⟩
    · cases h

/-- **Each event is a run.** -/
theorem exec_tied {e : Event} (hs : s.Sound digestOf alg digest) (hdue : s.Due e)
    (h : s.exec digestOf e = some s') :
    s.log <+: s'.log ∧ (FedFirst s'.log → ∀ r, Tied s r → r.control = .idle →
      ∃ r', Tied s' r' ∧ r'.control = .idle) := by
  cases e with
  | arrives data setup calls =>
      obtain ⟨s₁, hstart, hrest⟩ := handleDtls_some h
      have hs' : ({ s with calls } : DtlsStack).Sound digestOf alg digest :=
        hs.congr rfl hs.fresh (List.append_nil _).symm (by simp)
      have hs₀ : ({ s with calls, log := s.log ++ [.arrived data] } : DtlsStack).Sound
          digestOf alg digest :=
        hs.congr rfl hs.fresh rfl (by simp [StackMark.isSignal, StackMark.ofOpenSSL])
      have hs₁ := hstart.sound hs₀
      have hpre₁ := hstart.log_grows hs₀
      have hpre := hrest.log_grows hs₁
      refine ⟨((List.prefix_append ..).trans hpre₁).trans hpre, fun hfed r ht hc => ?_⟩
      have ht' : Tied { s with calls } r := ht.silent rfl rfl rfl
      obtain ⟨r₁, hm, hd⟩ := Starts.tied (s := { s with calls }) hstart hs' (hfed.cut hpre)
        ht' hc
      exact hrest.tied hs₁ hfed hm hd
  | timeout calls =>
      have hstate := hs.timer hdue
      have hs₀ : ({ s with calls } : DtlsStack).Sound digestOf alg digest :=
        hs.congr rfl hs.fresh (List.append_nil _).symm (by simp)
      have hgoes := timeoutExpired_goes (s := { s with calls }) hstate
        (hs.unheard (Or.inr (Or.inr hstate))) h
      refine ⟨hgoes.log_grows, fun hfed r ht hc => ?_⟩
      have ht' : Tied { s with calls } r := ht.silent rfl rfl rfl
      obtain ⟨r', ht', hc'⟩ := hgoes.tied hs₀ hfed ht'
      exact ⟨r', ht', hc'.trans hc⟩
  | keys unset profile material =>
      obtain ⟨marks, rfl, hread, harrivals⟩ := extractSrtpKeys_some h
      refine ⟨List.prefix_append .., fun _ r ht hc => ⟨r, ht.silent rfl ?_ ?_, hc⟩⟩
      · rw [bioReads_append, hread, List.append_nil]
      · rw [arrivals_append, harrivals, List.append_nil]
  | destory =>
      cases h
      refine ⟨List.prefix_refl _, fun _ r ht hc => ?_⟩
      refine ⟨{ r with dtls := r.dtls.destory }, ⟨⟨?_, ?_, ht.arrived⟩,
        ht.driven.snoc (e := .destory) rfl trivial⟩, hc⟩
      · rw [ht.dtls]
      · exact ⟨ht.feeds.isPrefix, ht.feeds.opened, ht.feeds.cut⟩

/-! ## Runs -/

/-- **The two together refine the handler alone**: when no handshake is
established before OpenSSL has read, each run of `RtcDtls` and its adapter is a
run of `DtlsRun` whose adapter meets the guard, with the same datagrams and the
same connection; the packets that OpenSSL has taken are the first ones delivered
in it, and of each it was given what its buffer holds. -/
theorem reachable_refines (hr : Lts.Reachable (system digestOf alg digest) s)
    (hfed : FedFirst s.log) : ∃ tr r, Lts.Run DtlsRun.system tr r ∧
      Lts.Guarded DtlsRun.OpensAfterDelivery tr ∧ r.control = .idle ∧ r.dtls = s.dtls ∧
      arrived r.log = arrivals s.log ∧ taken s.log <+: written r.log ∧
      ∀ read ∈ bioReads s.log, read.data = read.packet.take read.outl := by
  have hpaired : FedFirst s.log → ∃ r, Tied s r ∧ r.control = .idle := by
    refine hr.invariant (P := fun s => FedFirst s.log → ∃ r, Tied s r ∧ r.control = .idle) ?_ ?_
    · rintro s ⟨udp, addr, hcreate⟩ -
      obtain ⟨rfl, -⟩ := create_some hcreate
      refine ⟨{ dtls := _ }, ⟨⟨rfl, ⟨List.prefix_refl _, fun _ => rfl, by simp [bioReads]⟩, rfl⟩,
        ⟨[], .start ⟨_, rfl, rfl, rfl⟩, by simp [Lts.Guarded]⟩⟩, rfl⟩
    · rintro s e s' hr ih ⟨hdue, hexec⟩ hfed
      obtain ⟨hpre, hstep⟩ := exec_tied (reachable_sound hr) hdue hexec
      obtain ⟨r, ht, hc⟩ := ih (hfed.cut hpre)
      exact hstep hfed r ht hc
  obtain ⟨r, ht, hc⟩ := hpaired hfed
  obtain ⟨tr, run, hguard⟩ := ht.driven
  exact ⟨tr, r, run, hguard, hc, ht.dtls, ht.arrived, ht.feeds.isPrefix, ht.feeds.cut⟩

theorem keyedStack_fedFirst : FedFirst keyedStack.log :=
  precedes_established ⟨.fed helloRead, by simp, _, rfl⟩

theorem reachable_refines_keyed : ∃ tr r, Lts.Run DtlsRun.system tr r ∧
    Lts.Guarded DtlsRun.OpensAfterDelivery tr ∧ r.control = .idle ∧ r.dtls = keyedStack.dtls ∧
    arrived r.log = [DtlsRun.helloBytes] ∧ [DtlsRun.helloBytes] <+: written r.log ∧
    ∀ read ∈ bioReads keyedStack.log, read.data = read.packet.take read.outl :=
  reachable_refines keyedStack_reachable keyedStack_fedFirst

/-- **What OpenSSL is given to read**: of datagrams made of complete records, a
ClientHello first, and in the order of arrival; of each the beginning, as far as
OpenSSL's buffer goes. -/
theorem reachable_fed (hr : Lts.Reachable (system digestOf alg digest) s)
    (hfed : FedFirst s.log) :
    (∀ read ∈ bioReads s.log, IsRecords read.packet ∧
        read.data = read.packet.take read.outl) ∧
      (∀ packet ∈ (taken s.log).head?, IsClientHello packet) ∧
      (taken s.log).Sublist (arrivals s.log) := by
  obtain ⟨tr, r, run, hguard, -, -, harrived, hpre, hcut⟩ := reachable_refines hr hfed
  obtain ⟨hdelivers, -⟩ := DtlsRun.delivers_of_opensAfterDelivery run hguard
  refine ⟨fun read hread => ⟨?_, hcut read hread⟩, fun packet hpacket => ?_, ?_⟩
  · have hmem : read.packet ∈ taken s.log := List.mem_map_of_mem hread
    exact hdelivers.records _ (hpre.subset hmem)
  · obtain ⟨rest, heq⟩ := hpre
    refine hdelivers.hello packet ?_
    rw [← heq, List.head?_append]
    rw [Option.mem_def] at hpacket ⊢
    rw [hpacket]
    rfl
  · rw [← harrived]
    exact hpre.sublist.trans hdelivers.inOrder

theorem reachable_fed_keyed :
    (∀ read ∈ [helloRead], IsRecords read.packet ∧ read.data = read.packet.take read.outl) ∧
    (∀ packet ∈ [DtlsRun.helloBytes].head?, IsClientHello packet) ∧
    [DtlsRun.helloBytes].Sublist [DtlsRun.helloBytes] :=
  reachable_fed keyedStack_reachable keyedStack_fedFirst

end DtlsStack

end JuanSfu
