import JuanSfu.Lib.Precedence
import JuanSfu.RtcBase.OpenSSLStreamAdapter

/-!
# What is done while the adapter is called

A call of the adapter comes to calls into OpenSSL, assignments of its state, and
events, in an order that OpenSSL decides. `Does` says once what can be done at a
time, and under which condition; `Path` is one after the other. Each function of
the adapter is a path (`handleDtls` is not: it delivers the datagram in between),
so what every step keeps is kept by all of them. Beside a step stands what
`RtcDtls` and the stream below see of it, as acts of an adapter.
-/

namespace JuanSfu

/-- The act reaches the stream below only. -/
def AdapterAct.ofStream : AdapterAct → Bool
  | .read _ | .write _ | .close => true
  | _ => false

theorem RtcDtls.runActs_append (d : RtcDtls) (acts acts' : List AdapterAct) :
    d.runActs (acts ++ acts') = (((d.runActs acts).1.runActs acts').1,
      (d.runActs acts).2 ++ ((d.runActs acts).1.runActs acts').2) := by
  induction acts generalizing d with
  | nil => rfl
  | cons a acts ih => simp only [List.cons_append, runActs, ih, List.append_assoc]

theorem RtcDtls.runActs_state {d : RtcDtls} {acts : List AdapterAct}
    (h : ∀ a ∈ acts, a.ofStream = true) : (d.runActs acts).1.state = d.state := by
  induction acts generalizing d with
  | nil => rfl
  | cons a acts ih =>
      have hstate : (d.act a).1.state = d.state := by
        have ha := h a List.mem_cons_self
        cases a with
        | read _ | write _ | close => rfl
        | handshakeDone _ | signal => cases ha
      exact (ih fun a' ha' => h a' (List.mem_cons_of_mem _ ha')).trans hstate

namespace StackMark

/-- OpenSSL has read, or has looked at a certificate. -/
def ofOpenSSL : StackMark → Bool
  | .fed _ | .presented _ _ => true
  | _ => false

def fed? : StackMark → Option BioRead
  | .fed r => some r
  | _ => none

def arrived? : StackMark → Option Bytes
  | .arrived data => some data
  | _ => none

def isSignal : StackMark → Bool
  | .signal _ _ _ _ => true
  | _ => false

end StackMark

namespace DtlsStack

/-! ## Reading the log -/

/-- The reads of OpenSSL that were given something. -/
def bioReads (log : List StackMark) : List BioRead := log.filterMap StackMark.fed?

/-- The packets that left the queue in them. -/
def taken (log : List StackMark) : List Bytes := (bioReads log).map BioRead.packet

def arrivals (log : List StackMark) : List Bytes := log.filterMap StackMark.arrived?

def signals (log : List StackMark) : List StackMark := log.filter StackMark.isSignal

@[simp] theorem bioReads_append (log marks : List StackMark) :
    bioReads (log ++ marks) = bioReads log ++ bioReads marks := List.filterMap_append

@[simp] theorem arrivals_append (log marks : List StackMark) :
    arrivals (log ++ marks) = arrivals log ++ arrivals marks := List.filterMap_append

/-- A mark that is no read. -/
theorem bioReads_snoc {m : StackMark} (h : m.fed? = none) (log : List StackMark) :
    bioReads (log ++ [m]) = bioReads log := by
  simp [bioReads, h]

/-- A mark that is no arrival. -/
theorem arrivals_snoc {m : StackMark} (h : m.arrived? = none) (log : List StackMark) :
    arrivals (log ++ [m]) = arrivals log := by
  simp [arrivals, h]

@[simp] theorem signals_append (log marks : List StackMark) :
    signals (log ++ marks) = signals log ++ signals marks := List.filter_append ..

variable {digestOf : Str → Bytes → Option Bytes} {s s₁ s' : DtlsStack}

/-! ## Calls into OpenSSL -/

/-- What `RtcDtls`, the stream below and the network see are these acts. -/
structure Acted (s s' : DtlsStack) (acts : List AdapterAct) : Prop where
  dtls : s'.dtls = (s.dtls.runActs acts).1
  sent : s'.sent = s.sent ++ (s.dtls.runActs acts).2

theorem Acted.refl (s : DtlsStack) : Acted s s [] := ⟨rfl, (List.append_nil _).symm⟩

theorem Acted.trans {acts acts' : List AdapterAct} (h : Acted s s₁ acts)
    (h' : Acted s₁ s' acts') : Acted s s' (acts ++ acts') := by
  refine ⟨?_, ?_⟩ <;> rw [RtcDtls.runActs_append, ← h.dtls]
  · exact h'.dtls
  · rw [h'.sent, h.sent, List.append_assoc]

/-- The verdicts on certificates are those of the digest that was set. -/
structure Vetted (digestOf : Str → Bytes → Option Bytes) (alg : Str) (digest : Bytes)
    (s : DtlsStack) : Prop where
  algorithm : s.adapter.peerCertificateDigestAlgorithm = alg
  value : s.adapter.peerCertificateDigestValue = digest
  nonempty : alg ≠ [] ∧ digest ≠ []
  presented : ∀ cert ok, .presented cert ok ∈ s.log →
    (ok = true ↔ digestOf alg cert = some digest)
  verified : s.adapter.peerCertificateVerified = true →
    ∃ cert, .presented cert true ∈ s.log

/-- What OpenSSL has taken comes first among the datagrams `ws`, and of each it was
given what its buffer holds; while the stream is open, the rest of them is in the
queue. -/
structure Feeds (s : DtlsStack) (ws : List Bytes) : Prop where
  isPrefix : taken s.log <+: ws
  opened : s.dtls.downward.state = .opened → taken s.log ++ s.dtls.downward.que = ws
  cut : ∀ r ∈ bioReads s.log, r.data = r.packet.take r.outl

/-- Reads and stream are as they were. -/
theorem Feeds.congr {ws : List Bytes} (h : s.Feeds ws) (hreads : bioReads s'.log = bioReads s.log)
    (hdown : s'.dtls.downward = s.dtls.downward) : s'.Feeds ws := by
  have htaken : taken s'.log = taken s.log := congrArg (List.map BioRead.packet) hreads
  refine ⟨htaken ▸ h.isPrefix, ?_, hreads ▸ h.cut⟩
  rw [htaken, hdown]
  exact h.opened

/-- No event is raised, whatever becomes of the adapter. -/
structure Passive (digestOf : Str → Bytes → Option Bytes) (s : DtlsStack)
    (acts : List AdapterAct) (s' : DtlsStack) : Prop where
  algorithm : s'.adapter.peerCertificateDigestAlgorithm =
    s.adapter.peerCertificateDigestAlgorithm
  value : s'.adapter.peerCertificateDigestValue = s.adapter.peerCertificateDigestValue
  vetted : ∀ alg digest, s.Vetted digestOf alg digest → s'.Vetted digestOf alg digest
  feeds : ∀ ws, s.Feeds ws → s'.Feeds ws
  log : ∃ marks, s'.log = s.log ++ marks ∧ ∀ m ∈ marks, m.ofOpenSSL = true
  acted : Acted s s' acts
  quiet : ∀ a ∈ acts, a.ofStream = true

/-- The certificates that were presented are as they were. -/
theorem Vetted.congr {alg : Str} {digest : Bytes} (h : s.Vetted digestOf alg digest)
    (halg : s'.adapter.peerCertificateDigestAlgorithm =
      s.adapter.peerCertificateDigestAlgorithm)
    (hval : s'.adapter.peerCertificateDigestValue = s.adapter.peerCertificateDigestValue)
    (hver : s'.adapter.peerCertificateVerified = true →
      s.adapter.peerCertificateVerified = true)
    (hlog : ∀ cert ok, .presented cert ok ∈ s'.log ↔ .presented cert ok ∈ s.log) :
    s'.Vetted digestOf alg digest where
  algorithm := halg.trans h.algorithm
  value := hval.trans h.value
  nonempty := h.nonempty
  presented cert ok hmem := h.presented cert ok ((hlog cert ok).mp hmem)
  verified hv := by
    obtain ⟨cert, hmem⟩ := h.verified (hver hv)
    exact ⟨cert, (hlog cert true).mpr hmem⟩

/-- Nothing is seen of it outside the adapter. -/
theorem Passive.of_eq (halg : s'.adapter.peerCertificateDigestAlgorithm =
      s.adapter.peerCertificateDigestAlgorithm)
    (hval : s'.adapter.peerCertificateDigestValue = s.adapter.peerCertificateDigestValue)
    (hver : s'.adapter.peerCertificateVerified = s.adapter.peerCertificateVerified)
    (hdtls : s'.dtls = s.dtls) (hsent : s'.sent = s.sent) (hlog : s'.log = s.log) :
    Passive digestOf s [] s' where
  algorithm := halg
  value := hval
  vetted _ _ h := h.congr halg hval (hver ▸ id) (by simp [hlog])
  feeds ws h := h.congr (congrArg bioReads hlog) (congrArg RtcDtls.downward hdtls)
  log := ⟨[], by simp [hlog], by simp⟩
  acted := ⟨hdtls, by simp [hsent, RtcDtls.runActs]⟩
  quiet := by simp

theorem Passive.refl (s : DtlsStack) : Passive digestOf s [] s := .of_eq rfl rfl rfl rfl rfl rfl

theorem Passive.trans {acts acts' : List AdapterAct} (h : Passive digestOf s acts s₁)
    (h' : Passive digestOf s₁ acts' s') : Passive digestOf s (acts ++ acts') s' where
  algorithm := h'.algorithm.trans h.algorithm
  value := h'.value.trans h.value
  vetted alg digest hv := h'.vetted alg digest (h.vetted alg digest hv)
  feeds ws hw := h'.feeds ws (h.feeds ws hw)
  log := by
    obtain ⟨marks, hlog, hmarks⟩ := h.log
    obtain ⟨marks', hlog', hmarks'⟩ := h'.log
    refine ⟨marks ++ marks', by rw [hlog', hlog, List.append_assoc], ?_⟩
    exact fun m hm => (List.mem_append.mp hm).elim (hmarks m) (hmarks' m)
  acted := h.acted.trans h'.acted
  quiet a ha := (List.mem_append.mp ha).elim (h.quiet a) (h'.quiet a)

/-- The connection of the adapter is as it was. -/
structure SameConnection (a a' : OpenSSLStreamAdapter) : Prop where
  state : a'.state = a.state
  ssl : a'.ssl = a.ssl
  timeoutTask : a'.timeoutTask = a.timeoutTask

theorem SameConnection.trans {a a₁ a' : OpenSSLStreamAdapter} (h : SameConnection a a₁)
    (h' : SameConnection a₁ a') : SameConnection a a' :=
  ⟨h'.state.trans h.state, h'.ssl.trans h.ssl, h'.timeoutTask.trans h.timeoutTask⟩

theorem sslVerifyCallback_passive (s : DtlsStack) (cert : Bytes) :
    Passive digestOf s [] (s.sslVerifyCallback digestOf cert) ∧
      SameConnection s.adapter (s.sslVerifyCallback digestOf cert).adapter := by
  -- the adapter behind the check, and what the check has said
  obtain ⟨ok, a, heq, hcheck⟩ : ∃ ok a,
      s.sslVerifyCallback digestOf cert =
        { s with adapter := a, log := s.log ++ [.presented cert ok] } ∧
      (if s.adapter.peerCertificateDigestAlgorithm = [] then
          (true, ({ s.adapter with peerCertChain := some cert } : OpenSSLStreamAdapter))
        else ({ s.adapter with peerCertChain := some cert } :
          OpenSSLStreamAdapter).verifyPeerCertificate digestOf) = (ok, a) := ⟨_, _, rfl, rfl⟩
  have ha : SameConnection s.adapter a ∧
      a.peerCertificateDigestAlgorithm = s.adapter.peerCertificateDigestAlgorithm ∧
      a.peerCertificateDigestValue = s.adapter.peerCertificateDigestValue ∧
      (s.adapter.peerCertificateDigestAlgorithm ≠ [] ∧ s.adapter.peerCertificateDigestValue ≠ [] →
        (ok = true ↔ digestOf s.adapter.peerCertificateDigestAlgorithm cert =
          some s.adapter.peerCertificateDigestValue) ∧
        (a.peerCertificateVerified = true →
          s.adapter.peerCertificateVerified = true ∨ ok = true)) := by
    split at hcheck
    · next halg =>
        cases hcheck
        exact ⟨⟨rfl, rfl, rfl⟩, rfl, rfl, fun hdigest => absurd halg hdigest.1⟩
    · unfold OpenSSLStreamAdapter.verifyPeerCertificate at hcheck
      dsimp only at hcheck
      split at hcheck
      · next hno =>
          cases hcheck
          refine ⟨⟨rfl, rfl, rfl⟩, rfl, rfl, fun hdigest => ?_⟩
          simp [OpenSSLStreamAdapter.hasPeerCertificateDigest, hdigest] at hno
      · split at hcheck
        · next hdigest =>
            cases hcheck
            exact ⟨⟨rfl, rfl, rfl⟩, rfl, rfl, fun _ => ⟨by simp [hdigest], fun _ => Or.inr rfl⟩⟩
        · next hdigest =>
            cases hcheck
            exact ⟨⟨rfl, rfl, rfl⟩, rfl, rfl, fun _ => ⟨by simp [hdigest], Or.inl⟩⟩
  obtain ⟨hsame, halg, hval, hok⟩ := ha
  rw [heq]
  refine ⟨⟨halg, hval, fun alg digest hv => ?_, fun ws hw => ?_, ⟨[.presented cert ok], rfl, ?_⟩,
    ⟨rfl, (List.append_nil _).symm⟩, ?_⟩, hsame⟩
  · rw [hv.algorithm, hv.value] at hok
    obtain ⟨hverdict, hver⟩ := hok hv.nonempty
    refine ⟨halg.trans hv.algorithm, hval.trans hv.value, hv.nonempty, ?_, ?_⟩
    · intro cert' ok' hmem
      rcases List.mem_append.mp hmem with hold | hnew
      · exact hv.presented cert' ok' hold
      · cases List.mem_singleton.mp hnew
        exact hverdict
    · intro hv'
      rcases hver hv' with hold | rfl
      · obtain ⟨cert', hmem⟩ := hv.verified hold
        exact ⟨cert', List.mem_append_left _ hmem⟩
      · exact ⟨cert, List.mem_append_right _ (List.mem_singleton_self _)⟩
  · exact hw.congr (bioReads_snoc rfl _) rfl
  · simp [StackMark.ofOpenSSL]
  · simp

/-- A read that is given nothing leaves all as it is. -/
theorem streamRead_cases (s : DtlsStack) (outl : ℕ) :
    (s.dtls.downward.read outl).1 = s.dtls.downward ∧ s.streamRead outl = s ∨
    ∃ packet que, s.dtls.downward.state = .opened ∧ s.dtls.downward.que = packet :: que ∧
      s.dtls.downward.read outl =
        ({ s.dtls.downward with que }, .success, some (packet.take outl)) ∧
      s.streamRead outl = { s with
        dtls.downward.que := que
        log := s.log ++ [.fed ⟨packet, outl, packet.take outl⟩] } := by
  unfold streamRead
  rcases s.dtls.downward.read_cases outl with ⟨ret, hread, -⟩ | ⟨packet, que, hopen, hque, hread⟩
  · rw [hread]
    exact Or.inl ⟨rfl, rfl⟩
  · rw [hread, hque]
    exact Or.inr ⟨packet, que, hopen, rfl, rfl, rfl⟩

theorem streamRead_passive (s : DtlsStack) (outl : ℕ) :
    Passive digestOf s [.read outl] (s.streamRead outl) ∧
      SameConnection s.adapter (s.streamRead outl).adapter := by
  have hquiet : ∀ a ∈ [AdapterAct.read outl], a.ofStream = true := by simp [AdapterAct.ofStream]
  rcases s.streamRead_cases outl with ⟨hread, hsame⟩ | ⟨packet, que, hopen, hque, hread, heq⟩
  · rw [hsame]
    refine ⟨⟨rfl, rfl, fun _ _ hv => hv, fun _ hw => hw, ⟨[], by simp, by simp⟩,
      ⟨?_, (List.append_nil _).symm⟩, hquiet⟩, rfl, rfl, rfl⟩
    simp [RtcDtls.runActs, RtcDtls.act, hread]
  · rw [heq]
    have hreads : bioReads (s.log ++ [.fed ⟨packet, outl, packet.take outl⟩]) =
        bioReads s.log ++ [⟨packet, outl, packet.take outl⟩] := bioReads_append ..
    refine ⟨⟨rfl, rfl, fun _ _ hv => hv.congr rfl rfl id (by simp), fun ws hw => ?_,
      ⟨_, rfl, by simp [StackMark.ofOpenSSL]⟩, ⟨?_, (List.append_nil _).symm⟩, hquiet⟩,
      rfl, rfl, rfl⟩
    · have hws : taken s.log ++ [packet] ++ que = ws := by
        rw [List.append_assoc, List.singleton_append, ← hque]
        exact hw.opened hopen
      have htaken : taken (s.log ++ [.fed ⟨packet, outl, packet.take outl⟩]) =
          taken s.log ++ [packet] := by
        rw [taken, hreads, List.map_append]
        rfl
      refine ⟨?_, fun _ => ?_, ?_⟩
      · rw [htaken, ← hws]
        exact List.prefix_append ..
      · rw [htaken]
        exact hws
      · rw [hreads, List.forall_mem_append]
        exact ⟨hw.cut, List.forall_mem_singleton.mpr rfl⟩
    · simp [RtcDtls.runActs, RtcDtls.act, hread]

theorem streamWrite_passive (s : DtlsStack) (data : Bytes) :
    Passive digestOf s [.write data] (s.streamWrite data) ∧
      SameConnection s.adapter (s.streamWrite data).adapter := by
  refine ⟨⟨rfl, rfl, fun _ _ hv => hv.congr rfl rfl id fun _ _ => Iff.rfl, fun ws hw =>
    ⟨hw.isPrefix, hw.opened, hw.cut⟩, ⟨[], (List.append_nil _).symm, by simp⟩, ⟨rfl, ?_⟩,
    by simp [AdapterAct.ofStream]⟩, ⟨rfl, rfl, rfl⟩⟩
  simp [streamWrite, RtcDtls.runActs, RtcDtls.act]

variable (digestOf) in
theorem bioActs_passive (s : DtlsStack) (bio : List BioAct) :
    ∃ acts, Passive digestOf s acts (bio.foldl (bioAct digestOf) s) ∧
      SameConnection s.adapter (bio.foldl (bioAct digestOf) s).adapter := by
  induction bio generalizing s with
  | nil => exact ⟨[], .refl s, rfl, rfl, rfl⟩
  | cons a bio ih =>
      have hone : ∃ acts, Passive digestOf s acts (s.bioAct digestOf a) ∧
          SameConnection s.adapter (s.bioAct digestOf a).adapter := by
        cases a with
        | read outl => exact ⟨_, s.streamRead_passive outl⟩
        | write data => exact ⟨_, s.streamWrite_passive data⟩
        | verify cert => exact ⟨_, s.sslVerifyCallback_passive cert⟩
      obtain ⟨acts, hp, hc⟩ := hone
      obtain ⟨acts', hp', hc'⟩ := ih (s.bioAct digestOf a)
      exact ⟨acts ++ acts', hp.trans hp', hc.trans hc'⟩

variable (digestOf) in
theorem runCall_passive (s : DtlsStack) : ∃ acts, Passive digestOf s acts (s.runCall digestOf).2 ∧
    SameConnection s.adapter (s.runCall digestOf).2.adapter := by
  unfold runCall
  cases hcalls : s.calls with
  | nil => exact ⟨[], .refl s, rfl, rfl, rfl⟩
  | cons c calls =>
      obtain ⟨acts, hp, hc⟩ := bioActs_passive digestOf { s with calls } c.acts
      have hfirst : Passive digestOf s [] { s with calls } := .of_eq rfl rfl rfl rfl rfl rfl
      exact ⟨[] ++ acts, hfirst.trans hp, hc⟩

/-! ## Steps -/

/-- The connection of the adapter is over. -/
structure OpenSSLEnded (a : OpenSSLStreamAdapter) : Prop where
  state : a.state = .error ∨ a.state = .closed
  ssl : a.ssl = false
  timeoutTask : a.timeoutTask = false

/-- The events that the adapter raises. -/
def opening : StackMark := .signal true false true 0

def readable : StackMark := .signal false false true 0

def closing (err : ℤ) : StackMark := .signal false true false err

/-- **What can be done at a time.** -/
inductive Does (digestOf : Str → Bytes → Option Bytes) (s : DtlsStack) :
    List AdapterAct → DtlsStack → Prop where
  | runs {acts : List AdapterAct} {s' : DtlsStack} (h : Passive digestOf s acts s')
      (hsame : SameConnection s.adapter s'.adapter) : Does digestOf s acts s'
  | ends {acts : List AdapterAct} {s' : DtlsStack} (h : Passive digestOf s acts s')
      (hlive : s.adapter.state ≠ .error ∧ s.adapter.state ≠ .closed)
      (hend : OpenSSLEnded s'.adapter) : Does digestOf s acts s'
  | waits (hstate : s.adapter.state = .none) : Does digestOf s [] { s with adapter.state := .wait }
  | begins (hstate : s.adapter.state = .none) : Does digestOf s [] { s with
      adapter.state := .connecting, adapter.sslCtx := true, adapter.ssl := true }
  | timer {on : Bool} (hstate : on = true → s.adapter.state = .connecting) :
      Does digestOf s [] { s with adapter.timeoutTask := on }
  | establishes (hstate : s.adapter.state = .connecting) (htimer : s.adapter.timeoutTask = false) :
      Does digestOf s [] { s with
        adapter.state := .connected, log := s.log ++ [.established] }
  | opens (hstate : s.adapter.state = .connected) (hfirst : signals s.log = [])
      (hverified : s.adapter.peerCertificateVerified = true) :
      Does digestOf s [.signal true false true 0 []] { s with
        dtls.state := .connected, log := s.log ++ [opening] }
  | wakes (hstate : s.adapter.state = .connected) :
      Does digestOf s [.signal false false true 0 []] { s with log := s.log ++ [readable] }
  | closes {err : ℤ} (hstate : s.adapter.state = .error) (hfirst : signals s.log = [])
      (herr : err ≠ 0) : Does digestOf s [.signal false true false err []] { s with
        dtls.state := .failed, log := s.log ++ [closing err] }
  /-- The end of the loop that answers `SE_READ`. -/
  | eos (hstate : s.adapter.state ≠ .none) :
      Does digestOf s [.signal false false true 0 [.eos]] { s with dtls.state := .closed }
  | error (hstate : s.adapter.state ≠ .none) :
      Does digestOf s [.signal false false true 0 [.error]] { s with dtls.state := .failed }

/-- Steps one after the other, and the acts that are seen of them. -/
inductive Path (digestOf : Str → Bytes → Option Bytes) (s : DtlsStack) :
    List AdapterAct → DtlsStack → Prop where
  | refl : Path digestOf s [] s
  | tail {acts acts' : List AdapterAct} {s₁ s' : DtlsStack} (h : Path digestOf s acts s₁)
      (h' : Does digestOf s₁ acts' s') : Path digestOf s (acts ++ acts') s'

/-- There is a path. -/
def Goes (digestOf : Str → Bytes → Option Bytes) (s s' : DtlsStack) : Prop :=
  ∃ acts, Path digestOf s acts s'

theorem Goes.refl (s : DtlsStack) : Goes digestOf s s := ⟨[], .refl⟩

theorem Does.goes {acts : List AdapterAct} (h : Does digestOf s acts s') : Goes digestOf s s' :=
  ⟨[] ++ acts, .tail .refl h⟩

theorem Goes.trans (h : Goes digestOf s s₁) (h' : Goes digestOf s₁ s') : Goes digestOf s s' := by
  obtain ⟨acts, h⟩ := h
  obtain ⟨acts', h'⟩ := h'
  induction h' with
  | refl => exact ⟨acts, h⟩
  | tail _ hdoes ih =>
      obtain ⟨acts₁, ih⟩ := ih
      exact ⟨_, ih.tail hdoes⟩

theorem Passive.signals {acts : List AdapterAct} (h : Passive digestOf s acts s') :
    signals s'.log = signals s.log := by
  obtain ⟨marks, hlog, hmarks⟩ := h.log
  rw [hlog, signals_append]
  have hnone : DtlsStack.signals marks = [] := by
    refine List.filter_eq_nil_iff.mpr fun m hm hsignal => ?_
    have hm := hmarks m hm
    cases m with
    | signal => cases hm
    | _ => cases hsignal
  rw [hnone, List.append_nil]

/-- No step leads back to a handshake that has not begun. -/
theorem Does.state_ne_none {acts : List AdapterAct} (h : Does digestOf s acts s')
    (hs : s.adapter.state ≠ .none) : s'.adapter.state ≠ .none := by
  cases h with
  | runs _ hsame => exact hsame.state ▸ hs
  | ends _ _ hend => rcases hend.state with he | he <;> simp [he]
  | waits | begins | establishes => simp
  | _ => exact hs

theorem Goes.state_ne_none (h : Goes digestOf s s') (hs : s.adapter.state ≠ .none) :
    s'.adapter.state ≠ .none := by
  obtain ⟨acts, h⟩ := h
  induction h with
  | refl => exact hs
  | tail _ hdoes ih => exact hdoes.state_ne_none ih

/-! ## The functions of the adapter -/

theorem callSsl_some {c : SslCall} (h : s.callSsl digestOf = some (c, s')) :
    ∃ acts, Passive digestOf s acts s' ∧ SameConnection s.adapter s'.adapter := by
  unfold callSsl at h
  split at h
  · have hrun := s.runCall_passive digestOf
    rwa [Option.some.inj h] at hrun
  · cases h

variable (digestOf) in
theorem cleanup_passive (s : DtlsStack) : ∃ acts, Passive digestOf s acts (s.cleanup digestOf) ∧
    OpenSSLEnded (s.cleanup digestOf).adapter ∧
    (s.adapter.state = .error → (s.cleanup digestOf).adapter.state = .error) := by
  unfold cleanup
  obtain ⟨s₁, hs₁, hp₁, hended, herror⟩ : ∃ s₁ : DtlsStack,
      (if s.adapter.state ≠ .error then
        { s with adapter.state := .closed, adapter.sslErrorCode := 0 } else s) = s₁ ∧
      Passive digestOf s [] s₁ ∧ (s₁.adapter.state = .error ∨ s₁.adapter.state = .closed) ∧
      (s.adapter.state = .error → s₁.adapter.state = .error) := by
    split
    · next hne =>
        exact ⟨_, rfl, .of_eq rfl rfl rfl rfl rfl rfl, Or.inr rfl, fun he => absurd he hne⟩
    · next he => exact ⟨_, rfl, .refl s, Or.inl (not_not.mp he), id⟩
  obtain ⟨s₂, acts, hs₂, hp₂, hstate⟩ : ∃ s₂ acts,
      (if s₁.adapter.ssl then (s₁.runCall digestOf).2 else s₁) = s₂ ∧
      Passive digestOf s₁ acts s₂ ∧ s₂.adapter.state = s₁.adapter.state := by
    split
    · obtain ⟨acts, hp, hsame⟩ := s₁.runCall_passive digestOf
      exact ⟨_, acts, rfl, hp, hsame.state⟩
    · exact ⟨_, [], rfl, .refl s₁, rfl⟩
  rw [hs₁]
  dsimp only
  rw [hs₂]
  have hlast : Passive digestOf s₂ [] { s₂ with
      adapter.ssl := false, adapter.sslCtx := false, adapter.peerCertChain := none
      adapter.timeoutTask := false } := .of_eq rfl rfl rfl rfl rfl rfl
  exact ⟨_, (hp₁.trans hp₂).trans hlast, ⟨hstate ▸ hended, rfl, rfl⟩,
    fun he => hstate.trans (herror he)⟩

variable (digestOf) in
/-- A connection that is not over ends by an error. -/
theorem fail_does (hlive : s.adapter.state ≠ .error ∧ s.adapter.state ≠ .closed) (err : ℤ) :
    Goes digestOf s (s.fail digestOf err) ∧ (s.fail digestOf err).adapter.state = .error ∧
      signals (s.fail digestOf err).log = signals s.log := by
  let failed : DtlsStack := { s with adapter.state := .error, adapter.sslErrorCode := err }
  have hfirst : Passive digestOf s [] failed := .of_eq rfl rfl rfl rfl rfl rfl
  obtain ⟨acts, hp, hend, herror⟩ := failed.cleanup_passive digestOf
  have hpassive := hfirst.trans hp
  exact ⟨(Does.ends hpassive hlive hend).goes, herror rfl, hpassive.signals⟩

theorem close_goes (hlive : s.adapter.state ≠ .error ∧ s.adapter.state ≠ .closed) :
    Goes digestOf s (s.close digestOf) := by
  obtain ⟨acts, hp, hend, -⟩ := s.cleanup_passive digestOf
  have hclose : Passive digestOf (s.cleanup digestOf) [.close] (s.close digestOf) := by
    refine ⟨rfl, rfl, fun _ _ hv => hv.congr rfl rfl id fun _ _ => Iff.rfl,
      fun ws hw => ⟨hw.isPrefix, fun ho => (by cases ho), hw.cut⟩, ⟨[], (List.append_nil _).symm, by simp⟩,
      ⟨rfl, (List.append_nil _).symm⟩, ?_⟩
    simp [AdapterAct.ofStream]
  exact (Does.ends (hp.trans hclose) hlive hend).goes

theorem SSLState.live_of_connected {state : SSLState} (h : state = .connected) :
    state ≠ .error ∧ state ≠ .closed := by
  simp [h]

theorem flushInput_goes {fuel left : ℕ} (hstate : s.adapter.state = .connected)
    (h : s.flushInput digestOf fuel left = some s') : Goes digestOf s s' := by
  fun_induction flushInput digestOf fuel left s with
  | case1 =>
      cases h
      exact .refl _
  | case2 => cases h
  | case3 fuel left s ih =>
      obtain ⟨⟨c, s₁⟩, hcall, h⟩ := Option.bind_eq_some_iff.mp h
      obtain ⟨acts, hp, hsame⟩ := callSsl_some hcall
      have hcalm := (Does.runs hp hsame).goes
      have hstate₁ := hsame.state.trans hstate
      dsimp only at h
      split at h
      · cases h
        exact hcalm.trans (fail_does digestOf (SSLState.live_of_connected hstate₁) c.error).1
      · exact hcalm.trans (ih c s₁ hstate₁ h)

theorem read_goes {ret : StreamResult} (hnone : s.adapter.state ≠ .none)
    (h : s.read digestOf = some (ret, s')) : Goes digestOf s s' := by
  unfold read at h
  split at h
  · next hstate => exact absurd hstate hnone
  · cases h
    exact .refl s
  · cases h
    exact .refl s
  · next hstate =>
      split at h
      · cases h
        exact .refl s
      · obtain ⟨⟨c, s₁⟩, hcall, h⟩ := Option.bind_eq_some_iff.mp h
        obtain ⟨acts, hp, hsame⟩ := callSsl_some hcall
        have hfirst : Passive digestOf s [] { s with adapter.sslReadNeedsWrite := false } :=
          .of_eq rfl rfl rfl rfl rfl rfl
        have hcalm : Goes digestOf s s₁ :=
          (Does.runs (hfirst.trans hp) ⟨hsame.state, hsame.ssl, hsame.timeoutTask⟩).goes
        have hstate₁ : s₁.adapter.state = .connected := hsame.state.trans hstate
        have hlive := SSLState.live_of_connected hstate₁
        dsimp only at h
        split at h
        · split at h
          · cases h
            exact hcalm
          · obtain ⟨s₂, hflush, h⟩ := Option.bind_eq_some_iff.mp h
            cases h
            exact hcalm.trans (flushInput_goes hstate₁ hflush)
        · split at h
          · cases h
            exact hcalm
          · split at h
            · cases h
              have hflag : Passive digestOf s₁ [] { s₁ with adapter.sslReadNeedsWrite := true } :=
                .of_eq rfl rfl rfl rfl rfl rfl
              exact hcalm.trans (Does.runs hflag ⟨rfl, rfl, rfl⟩).goes
            · split at h
              · cases h
                exact hcalm.trans (close_goes hlive)
              · cases h
                exact hcalm.trans (fail_does digestOf hlive c.error).1
  · cases h
    exact .refl s
  · cases h
    exact .refl s

theorem readLoop_goes {fuel : ℕ} (hnone : s.adapter.state ≠ .none)
    (h : s.readLoop digestOf fuel = some s') : Goes digestOf s s' := by
  induction fuel generalizing s with
  | zero => cases h
  | succ fuel ih =>
      obtain ⟨⟨ret, s₁⟩, hread, h⟩ := Option.bind_eq_some_iff.mp h
      have hgoes := read_goes hnone hread
      have hnone₁ := hgoes.state_ne_none hnone
      cases ret with
      | success => exact hgoes.trans (ih hnone₁ h)
      | eos =>
          cases h
          exact hgoes.trans (Does.eos hnone₁).goes
      | error =>
          cases h
          exact hgoes.trans (Does.error hnone₁).goes
      | block =>
          cases h
          exact hgoes

/-- `SE_READ`, from a connection that stands. -/
theorem wake_goes (hstate : s.adapter.state = .connected)
    (h : s.signalEvent digestOf false false true 0 = some s') : Goes digestOf s s' := by
  refine (Does.wakes hstate).goes.trans (readLoop_goes ?_ h)
  simp [hstate]

theorem failAndSignal_goes {err : ℤ} (hlive : s.adapter.state ≠ .error ∧ s.adapter.state ≠ .closed)
    (hfirst : signals s.log = []) (herr : err ≠ 0)
    (h : s.failAndSignal digestOf err = some s') : Goes digestOf s s' := by
  obtain ⟨hgoes, hstate, hsignals⟩ := fail_does digestOf hlive err
  have hcloses : some ({ s.fail digestOf err with
      dtls.state := .failed
      log := (s.fail digestOf err).log ++ [closing err] } : DtlsStack) = some s' := by
    rw [← h]
    simp [failAndSignal, signalEvent, slotDtlsEvent, closing, herr]
  cases hcloses
  exact hgoes.trans (Does.closes hstate (hsignals.trans hfirst) herr).goes

/-- The handshake goes on; when it fails, the connection is as it was. -/
theorem continueSSL_goes {err : ℤ} (hstate : s.adapter.state = .connecting)
    (hfirst : signals s.log = []) (h : s.continueSSL digestOf = some (err, s')) :
    Goes digestOf s s' ∧
      (err ≠ 0 → s'.adapter.state = .connecting ∧ signals s'.log = []) := by
  obtain ⟨⟨c, s₁⟩, hcall, h⟩ := Option.bind_eq_some_iff.mp h
  obtain ⟨acts, hp, hsame⟩ := callSsl_some hcall
  have htimer : Goes digestOf s { s with adapter.timeoutTask := false } :=
    (Does.timer (by simp)).goes
  have hcalm : Goes digestOf s s₁ := htimer.trans (Does.runs hp hsame).goes
  have hstate₁ : s₁.adapter.state = .connecting := hsame.state.trans hstate
  have hfirst₁ : signals s₁.log = [] := hp.signals.trans hfirst
  dsimp only at h
  split at h
  · have hest := hcalm.trans (Does.establishes hstate₁ hsame.timeoutTask).goes
    split at h
    · cases h
      exact ⟨hest, by simp⟩
    · next hverified =>
        obtain ⟨s₂, hsignal, h⟩ := Option.bind_eq_some_iff.mp h
        cases h
        refine ⟨hest.trans ((Does.opens rfl ?_ ?_).goes.trans (readLoop_goes ?_ hsignal)), by simp⟩
        · rw [signals_append, hfirst₁]
          rfl
        · simpa [OpenSSLStreamAdapter.waitingToVerifyPeerCertificate] using hverified
        · simp
  · split at h
    · cases h
      refine ⟨?_, by simp⟩
      split
      · exact hcalm.trans (Does.timer fun _ => hstate₁).goes
      · exact hcalm
    · split at h
      · cases h
        exact ⟨hcalm, by simp⟩
      · cases h
        exact ⟨hcalm, fun _ => ⟨hstate₁, hfirst₁⟩⟩

/-- A connection begins, if there is what it needs. -/
theorem beginSSL_cases {setup : SslSetup} {err : ℤ} (hstate : s.adapter.state = .none)
    (hfirst : signals s.log = [])
    (h : { s with adapter.state := .connecting }.beginSSL digestOf setup = some (err, s')) :
    (∃ s₁, Goes digestOf s s₁ ∧ s₁.adapter.state = .connecting ∧ signals s₁.log = [] ∧
        s₁.continueSSL digestOf = some (err, s')) ∨
      err = -1 ∧ ∃ ctx, s' = { s with adapter.state := .connecting, adapter.sslCtx := ctx } := by
  unfold beginSSL at h
  split at h
  · cases h
    exact Or.inr ⟨rfl, _, rfl⟩
  · split at h
    · cases h
      exact Or.inr ⟨rfl, _, rfl⟩
    · exact Or.inl ⟨_, (Does.begins hstate).goes, rfl, hfirst, h⟩

/-- One that could not begin is ended. -/
theorem fail_goes (hstate : s.adapter.state = .none) (err : ℤ) (ctx : Bool) :
    Goes digestOf s ({ s with adapter.state := .connecting, adapter.sslCtx := ctx }.fail digestOf
      err) := by
  have hfirst : Passive digestOf s [] { s with
      adapter.state := .error, adapter.sslErrorCode := err, adapter.sslCtx := ctx } :=
    .of_eq rfl rfl rfl rfl rfl rfl
  obtain ⟨acts, hp, hend, -⟩ := cleanup_passive digestOf { s with
    adapter.state := .error, adapter.sslErrorCode := err, adapter.sslCtx := ctx }
  exact (Does.ends (hfirst.trans hp) (by simp [hstate]) hend).goes

theorem fail_state_ne_none (s : DtlsStack) (err : ℤ) :
    (s.fail digestOf err).adapter.state ≠ .none := by
  obtain ⟨acts, -, hend, -⟩ := cleanup_passive digestOf { s with
    adapter.state := .error, adapter.sslErrorCode := err }
  rcases hend.state with he | he <;> simp [fail, he]

theorem startSSL_goes {setup : SslSetup} {err : ℤ}
    (hfirst : s.adapter.state = .none → signals s.log = [])
    (h : s.startSSL digestOf setup = some (err, s')) :
    Goes digestOf s s' ∧ s'.adapter.state ≠ .none := by
  unfold startSSL at h
  split at h
  · next hstate =>
      cases h
      exact ⟨.refl s, hstate⟩
  · next hstate =>
      rw [not_not] at hstate
      split at h
      · cases h
        exact ⟨(Does.waits hstate).goes, by simp⟩
      · obtain ⟨⟨err₁, s₁⟩, hbegin, h⟩ := Option.bind_eq_some_iff.mp h
        dsimp only at h
        rcases beginSSL_cases hstate (hfirst hstate) hbegin with
          ⟨s₂, hgoes, hstate₂, hfirst₂, hcontinue⟩ | ⟨rfl, ctx, rfl⟩
        · obtain ⟨hgoes₁, herr⟩ := continueSSL_goes hstate₂ hfirst₂ hcontinue
          split at h
          · next hne =>
              cases h
              have hlive : s₁.adapter.state ≠ .error ∧ s₁.adapter.state ≠ .closed := by
                simp [(herr hne).1]
              exact ⟨(hgoes.trans hgoes₁).trans (fail_does digestOf hlive err).1,
                fail_state_ne_none s₁ err⟩
          · cases h
            exact ⟨hgoes.trans hgoes₁, hgoes₁.state_ne_none (by simp [hstate₂])⟩
        · rw [if_pos (by simp)] at h
          cases h
          exact ⟨fail_goes hstate (-1) ctx, fail_state_ne_none _ (-1)⟩

theorem onEvent_goes (hnone : s.adapter.state ≠ .none)
    (hfirst : s.adapter.state = .connecting → signals s.log = [])
    (h : s.onEvent digestOf = some s') : Goes digestOf s s' := by
  unfold onEvent at h
  split at h
  · next hstate => exact absurd hstate hnone
  · next hstate =>
      obtain ⟨⟨err, s₁⟩, hcontinue, h⟩ := Option.bind_eq_some_iff.mp h
      obtain ⟨hgoes, hfailed⟩ := continueSSL_goes hstate (hfirst hstate) hcontinue
      dsimp only at h
      split at h
      · next herr =>
          obtain ⟨hstate₁, hfirst₁⟩ := hfailed herr
          exact hgoes.trans (failAndSignal_goes (by simp [hstate₁]) hfirst₁ herr h)
      · cases h
        exact hgoes
  · next hstate => exact wake_goes hstate h
  · cases h
    exact .refl s

theorem timeoutExpired_goes (hstate : s.adapter.state = .connecting) (hfirst : signals s.log = [])
    (h : s.timeoutExpired digestOf = some s') : Goes digestOf s s' := by
  obtain ⟨⟨c, s₁⟩, hcall, h⟩ := Option.bind_eq_some_iff.mp h
  obtain ⟨⟨err, s₂⟩, hcontinue, h⟩ := Option.bind_eq_some_iff.mp h
  cases h
  obtain ⟨acts, hp, hsame⟩ := callSsl_some hcall
  have htimer : Goes digestOf s { s with adapter.timeoutTask := false } :=
    (Does.timer (by simp)).goes
  exact htimer.trans ((Does.runs hp hsame).goes.trans
    (continueSSL_goes (hsame.state.trans hstate) (hp.signals.trans hfirst) hcontinue).1)

end DtlsStack

end JuanSfu
