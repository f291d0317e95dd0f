import JuanSfu.RtcBase.AdapterSteps
import JuanSfu.Safety.DtlsDelivery

/-!
# What the adapter tells `RtcDtls`

Whatever OpenSSL does and whatever arrives: `SE_OPEN` is raised once at most,
first, and only behind a certificate with the digest of the offer; `SE_CLOSE` is
raised only by a handshake that fails, and then it is the only event. A null
`SSL*` is used by nothing but the export of keys. All of it follows from `Sound`,
which every step of the adapter keeps.
-/

namespace JuanSfu

namespace DtlsStack

variable {digestOf : Str → Bytes → Option Bytes} {alg : Str} {digest : Bytes}
  {s s₁ s' : DtlsStack}

/-- **The events of one connection**: a handshake that fails, or one that may
open the connection and then only tells of what can be read. -/
def Ordered (events : List StackMark) : Prop :=
  (∃ n, events = List.replicate n readable) ∨
  (∃ n, events = opening :: List.replicate n readable) ∨
  ∃ err, err ≠ 0 ∧ events = [closing err]

theorem Ordered.wake {events : List StackMark} (h : Ordered events)
    (hopen : ∀ err, closing err ∉ events) : Ordered (events ++ [readable]) := by
  rcases h with ⟨n, rfl⟩ | ⟨n, rfl⟩ | ⟨err, -, rfl⟩
  · exact Or.inl ⟨n + 1, by rw [List.replicate_succ']⟩
  · exact Or.inr (Or.inl ⟨n + 1, by rw [List.replicate_succ', List.cons_append]⟩)
  · exact absurd (List.mem_singleton_self _) (hopen err)

/-- A certificate with the digest that was set was presented and accepted. -/
def IsPeer (digestOf : Str → Bytes → Option Bytes) (alg : Str) (digest : Bytes)
    (m : StackMark) : Prop :=
  ∃ cert, m = .presented cert true ∧ digestOf alg cert = some digest

structure Sound (digestOf : Str → Bytes → Option Bytes) (alg : Str) (digest : Bytes)
    (s : DtlsStack) : Prop where
  vetted : s.Vetted digestOf alg digest
  ssl : s.adapter.ssl = true ↔
    s.adapter.state = .connecting ∨ s.adapter.state = .connected
  timer : s.adapter.timeoutTask = true → s.adapter.state = .connecting
  fresh : s.adapter.state = .none → s.dtls.state = .new
  /-- Nothing is raised before the handshake has ended. -/
  unheard : s.adapter.state = .none ∨ s.adapter.state = .wait ∨ s.adapter.state = .connecting →
    signals s.log = []
  ordered : Ordered (signals s.log)
  closed : ∀ err, closing err ∈ s.log → s.adapter.state = .error
  opened : Precedes (∃ cert, · = .presented cert true) (· = opening) s.log
  established : s.adapter.state = .connected → .established ∈ s.log

/-- What a step may add to the log without an event. -/
theorem Sound.of_quiet (h : s.Sound digestOf alg digest) {marks : List StackMark}
    (hlog : s'.log = s.log ++ marks) (hmarks : ∀ m ∈ marks, m.isSignal = false)
    (hvetted : s'.Vetted digestOf alg digest)
    (hssl : s'.adapter.ssl = true ↔
      s'.adapter.state = .connecting ∨ s'.adapter.state = .connected)
    (htimer : s'.adapter.timeoutTask = true → s'.adapter.state = .connecting)
    (hfresh : s'.adapter.state = .none → s'.dtls.state = .new)
    (hunheard : s'.adapter.state = .none ∨ s'.adapter.state = .wait ∨
      s'.adapter.state = .connecting → signals s.log = [])
    (hclosed : s.adapter.state = .error → s'.adapter.state = .error)
    (hest : s'.adapter.state = .connected → .established ∈ s'.log) :
    s'.Sound digestOf alg digest := by
  have hnone : signals marks = [] :=
    List.filter_eq_nil_iff.mpr fun m hm => by simp [hmarks m hm]
  have hsame : signals s'.log = signals s.log := by rw [hlog, signals_append, hnone, List.append_nil]
  refine ⟨hvetted, hssl, htimer, hfresh, hsame ▸ hunheard, hsame ▸ h.ordered, ?_, ?_, hest⟩
  · intro err hmem
    rw [hlog] at hmem
    rcases List.mem_append.mp hmem with hold | hnew
    · exact hclosed (h.closed err hold)
    · cases hmarks _ hnew
  · rw [hlog]
    refine h.opened.append (Or.inr ?_)
    rintro m hm rfl
    cases hmarks _ hm

theorem Passive.isSignal {acts : List AdapterAct} (h : Passive digestOf s acts s') :
    ∃ marks, s'.log = s.log ++ marks ∧ ∀ m ∈ marks, m.isSignal = false := by
  obtain ⟨marks, hlog, hmarks⟩ := h.log
  refine ⟨marks, hlog, fun m hm => ?_⟩
  have hm := hmarks m hm
  cases m with
  | signal => cases hm
  | _ => rfl

theorem Passive.state {acts : List AdapterAct} (h : Passive digestOf s acts s') :
    s'.dtls.state = s.dtls.state := by
  rw [h.acted.dtls]
  exact RtcDtls.runActs_state h.quiet

/-- **One step of the adapter.** -/
theorem Does.sound {acts : List AdapterAct} (h : Does digestOf s acts s')
    (hs : s.Sound digestOf alg digest) : s'.Sound digestOf alg digest := by
  have hvetted : ∀ (s' : DtlsStack) (marks : List StackMark), s'.adapter.peerCertificateDigestAlgorithm =
        s.adapter.peerCertificateDigestAlgorithm →
      s'.adapter.peerCertificateDigestValue = s.adapter.peerCertificateDigestValue →
      s'.adapter.peerCertificateVerified = s.adapter.peerCertificateVerified →
      s'.log = s.log ++ marks → (∀ m ∈ marks, m.ofOpenSSL = false) → s'.Vetted digestOf alg digest := by
    intro s' marks halg hval hver hlog hmarks
    refine hs.vetted.congr halg hval (hver ▸ id) fun cert ok => ?_
    rw [hlog, List.mem_append]
    refine or_iff_left fun hm => ?_
    cases hmarks _ hm
  cases h with
  | runs hp hsame =>
      obtain ⟨marks, hlog, hmarks⟩ := hp.isSignal
      refine hs.of_quiet hlog hmarks (hp.vetted alg digest hs.vetted) ?_ ?_ ?_ ?_ ?_ ?_
      · rw [hsame.ssl, hsame.state]
        exact hs.ssl
      · rw [hsame.timeoutTask, hsame.state]
        exact hs.timer
      · rw [hsame.state, hp.state]
        exact hs.fresh
      · rw [hsame.state]
        exact hs.unheard
      · rw [hsame.state]
        exact id
      · rw [hsame.state, hlog]
        exact fun he => List.mem_append_left _ (hs.established he)
  | ends hp hlive hend =>
      obtain ⟨marks, hlog, hmarks⟩ := hp.isSignal
      refine hs.of_quiet hlog hmarks (hp.vetted alg digest hs.vetted) ?_ ?_ ?_ ?_ ?_ ?_
      · rcases hend.state with he | he <;> simp [hend.ssl, he]
      · simp [hend.timeoutTask]
      · rcases hend.state with he | he <;> simp [he]
      · rcases hend.state with he | he <;> simp [he]
      · exact fun he => absurd he hlive.1
      · rcases hend.state with he | he <;> simp [he]
  | waits hstate =>
      have hno : s.adapter.ssl = false := by
        have hssl := hs.ssl
        rw [hstate] at hssl
        simpa using hssl
      have hquiet := hs.timer
      refine hs.of_quiet (List.append_nil _).symm (by simp)
        (hvetted _ [] rfl rfl rfl (List.append_nil _).symm (by simp)) ?_ ?_ ?_ ?_ ?_ ?_
      · simp [hno]
      · intro ht
        rw [hstate] at hquiet
        cases hquiet ht
      · simp
      · exact fun _ => hs.unheard (Or.inl hstate)
      · simp [hstate]
      · simp
  | begins hstate =>
      refine hs.of_quiet (List.append_nil _).symm (by simp)
        (hvetted _ [] rfl rfl rfl (List.append_nil _).symm (by simp)) ?_ ?_ ?_ ?_ ?_ ?_
      · simp
      · simp
      · simp
      · exact fun _ => hs.unheard (Or.inl hstate)
      · simp [hstate]
      · simp
  | @timer on hstate =>
      exact hs.of_quiet (List.append_nil _).symm (by simp)
        (hvetted _ [] rfl rfl rfl (List.append_nil _).symm (by simp)) hs.ssl hstate hs.fresh
        hs.unheard id hs.established
  | establishes hstate htimer =>
      have hlog : s.log ++ [StackMark.established] = s.log ++ [.established] := rfl
      refine hs.of_quiet hlog (by simp [StackMark.isSignal])
        (hvetted _ [.established] rfl rfl rfl rfl (by simp [StackMark.ofOpenSSL])) ?_ ?_ ?_ ?_ ?_ ?_
      · simp [hs.ssl, hstate]
      · simp [htimer]
      · simp
      · simp
      · simp [hstate]
      · simp
  | opens hstate hfirst hverified =>
      have hsignals : signals (s.log ++ [opening]) = [opening] := by
        rw [signals_append, hfirst]
        rfl
      refine ⟨hvetted _ [opening] rfl rfl rfl rfl (by simp [opening, StackMark.ofOpenSSL]), hs.ssl,
        hs.timer, by simp [hstate], by simp [hstate], ?_, ?_, ?_,
        fun he => List.mem_append_left _ (hs.established he)⟩
      · exact Or.inr (Or.inl ⟨0, hsignals⟩)
      · intro err hmem
        refine hs.closed err ((List.mem_append.mp hmem).resolve_right fun hnew => ?_)
        cases List.mem_singleton.mp hnew
      · obtain ⟨cert, hmem⟩ := hs.vetted.verified hverified
        exact hs.opened.append (Or.inl ⟨_, hmem, cert, rfl⟩)
  | wakes hstate =>
      have hopen : ∀ err, closing err ∉ signals s.log := by
        intro err hmem
        have herr := hs.closed err (List.mem_filter.mp hmem).1
        rw [hstate] at herr
        cases herr
      refine ⟨hvetted _ [readable] rfl rfl rfl rfl (by simp [readable, StackMark.ofOpenSSL]),
        hs.ssl, hs.timer, by simp [hstate], by simp [hstate], ?_, ?_, ?_,
        fun he => List.mem_append_left _ (hs.established he)⟩
      · show Ordered (signals (s.log ++ [readable]))
        rw [signals_append]
        exact hs.ordered.wake hopen
      · intro err hmem
        refine hs.closed err ((List.mem_append.mp hmem).resolve_right fun hnew => ?_)
        cases List.mem_singleton.mp hnew
      · refine hs.opened.append (Or.inr fun m hm hopening => ?_)
        cases (List.mem_singleton.mp hm).symm.trans hopening
  | @closes err hstate hfirst herr =>
      refine ⟨hvetted _ [closing err] rfl rfl rfl rfl (by simp [closing, StackMark.ofOpenSSL]),
        hs.ssl, hs.timer, by simp [hstate], by simp [hstate], ?_, fun _ _ => hstate, ?_,
        fun he => List.mem_append_left _ (hs.established he)⟩
      · refine Or.inr (Or.inr ⟨err, herr, ?_⟩)
        show signals (s.log ++ [closing err]) = _
        rw [signals_append, hfirst]
        rfl
      · refine hs.opened.append (Or.inr fun m hm hopening => ?_)
        cases (List.mem_singleton.mp hm).symm.trans hopening
  | eos hstate =>
      exact ⟨hvetted _ [] rfl rfl rfl (List.append_nil _).symm (by simp), hs.ssl, hs.timer,
        fun he => absurd he hstate, hs.unheard, hs.ordered, hs.closed, hs.opened,
        hs.established⟩
  | error hstate =>
      exact ⟨hvetted _ [] rfl rfl rfl (List.append_nil _).symm (by simp), hs.ssl, hs.timer,
        fun he => absurd he hstate, hs.unheard, hs.ordered, hs.closed, hs.opened,
        hs.established⟩

theorem Goes.sound (h : Goes digestOf s s') (hs : s.Sound digestOf alg digest) : s'.Sound digestOf alg digest := by
  obtain ⟨acts, h⟩ := h
  induction h with
  | refl => exact hs
  | tail _ hdoes ih => exact hdoes.sound ih

/-! ## Events from outside -/

/-- Nothing that the invariant speaks of has changed. -/
theorem Sound.congr (h : s.Sound digestOf alg digest) (hadapter : s'.adapter = s.adapter)
    (hfresh : s'.adapter.state = .none → s'.dtls.state = .new) {marks : List StackMark}
    (hlog : s'.log = s.log ++ marks)
    (hmarks : ∀ m ∈ marks, m.isSignal = false ∧ m.ofOpenSSL = false) : s'.Sound digestOf alg digest := by
  refine h.of_quiet hlog (fun m hm => (hmarks m hm).1) ?_ ?_ ?_ hfresh ?_ ?_ ?_
  · refine h.vetted.congr (by rw [hadapter]) (by rw [hadapter]) (by rw [hadapter]; exact id) ?_
    intro cert ok
    rw [hlog, List.mem_append]
    refine or_iff_left fun hm => ?_
    cases (hmarks _ hm).2
  · rw [hadapter]
    exact h.ssl
  · rw [hadapter]
    exact h.timer
  · rw [hadapter]
    exact h.unheard
  · rw [hadapter]
    exact id
  · rw [hadapter, hlog]
    exact fun he => List.mem_append_left _ (h.established he)

/-- What `handle_dtls` does first. -/
inductive Starts (digestOf : Str → Bytes → Option Bytes) (s : DtlsStack) (setup : SslSetup) :
    DtlsStack → Prop where
  | later (h : s.dtls.state ≠ .new) : Starts digestOf s setup s
  | started {s₁ : DtlsStack} (h : s.dtls.state = .new)
      (hstart : s.startSSL digestOf setup = some (0, s₁)) :
      Starts digestOf s setup { s₁ with dtls.state := .connecting }
  | failed {err : ℤ} {s₁ : DtlsStack} (h : s.dtls.state = .new) (herr : err ≠ 0)
      (hstart : s.startSSL digestOf setup = some (err, s₁)) : Starts digestOf s setup s₁

/-- What becomes of the datagram then. -/
inductive Dispatches (digestOf : Str → Bytes → Option Bytes) (s : DtlsStack) (data : Bytes) :
    DtlsStack → Prop where
  | dropped (hdrop : s.dtls.state = .connecting ∧ RtcDtls.isDtlsClientHelloPacket data = true ∨
        s.dtls.state = .connected →
      RtcDtls.recordsLoop data.length data = false ∨ s.dtls.downward.isStop = true) :
      Dispatches digestOf s data s
  | delivered (hello : Bool) {flag : Bool} {downward : DtlsStreamInterface} {s' : DtlsStack}
      (hstate : hello = true ∧ s.dtls.state = .connecting ∧
          RtcDtls.isDtlsClientHelloPacket data = true ∨
        hello = false ∧ s.dtls.state = .connected)
      (hrecords : RtcDtls.recordsLoop data.length data = true)
      (hstop : s.dtls.downward.isStop = false)
      (hwrite : s.dtls.downward.writeBack data = (flag, downward))
      (hevent : { s with dtls.downward := downward }.onEvent digestOf = some s') :
      Dispatches digestOf s data
        (if hello && flag then { s' with dtls.state := .connected } else s')

theorem doHandleDtlsPacket_some {data : Bytes} {flag : Bool}
    (h : s.doHandleDtlsPacket digestOf data = some (flag, s')) :
    flag = false ∧ s' = s ∧ (RtcDtls.recordsLoop data.length data = false ∨
        s.dtls.downward.isStop = true) ∨ RtcDtls.recordsLoop data.length data = true ∧
      s.dtls.downward.isStop = false ∧ ∃ downward,
        s.dtls.downward.writeBack data = (flag, downward) ∧
        { s with dtls.downward := downward }.onEvent digestOf = some s' := by
  unfold doHandleDtlsPacket onPacketReceive at h
  split at h
  · next hrecords =>
      split at h
      · next hstop =>
          cases h
          exact Or.inl ⟨rfl, rfl, Or.inr hstop⟩
      · next hstop =>
          obtain ⟨s₁, hevent, h⟩ := Option.bind_eq_some_iff.mp h
          cases h
          exact Or.inr ⟨hrecords, by simpa using hstop, _, rfl, hevent⟩
  · next hrecords =>
      cases h
      exact Or.inl ⟨rfl, rfl, Or.inl (by simpa using hrecords)⟩

theorem startIfNew_starts {setup : SslSetup} (h : s.startIfNew digestOf setup = some s') :
    Starts digestOf s setup s' := by
  unfold startIfNew at h
  split at h
  · next hnew =>
      obtain ⟨⟨ret, s₂⟩, hstart, h⟩ := Option.bind_eq_some_iff.mp h
      cases h
      split
      · next hret => exact .started hnew (hret ▸ hstart)
      · next hret => exact .failed hnew hret hstart
  · next hnew =>
      cases h
      exact .later hnew

theorem handleDtls_some {data : Bytes} {setup : SslSetup}
    (h : s.handleDtls digestOf data setup = some s') :
    ∃ s₁, Starts digestOf s setup s₁ ∧ Dispatches digestOf s₁ data s' := by
  obtain ⟨s₁, hstart, h⟩ := Option.bind_eq_some_iff.mp h
  refine ⟨s₁, startIfNew_starts hstart, ?_⟩
  split at h
  · next hstate =>
      split at h
      · next hhello =>
          obtain ⟨⟨flag, s₂⟩, hpacket, h⟩ := Option.bind_eq_some_iff.mp h
          cases h
          rcases doHandleDtlsPacket_some hpacket with
            ⟨rfl, rfl, hdrop⟩ | ⟨hrecords, hstop, downward, hwrite, hevent⟩
          · exact .dropped fun _ => hdrop
          · exact .delivered true (Or.inl ⟨rfl, hstate, hhello⟩) hrecords hstop
              hwrite hevent
      · next hhello =>
          cases h
          refine .dropped fun hgo => ?_
          simp [hstate, hhello] at hgo
  · next hstate =>
      obtain ⟨⟨flag, s₂⟩, hpacket, h⟩ := Option.bind_eq_some_iff.mp h
      cases h
      rcases doHandleDtlsPacket_some hpacket with
        ⟨rfl, rfl, hdrop⟩ | ⟨hrecords, hstop, downward, hwrite, hevent⟩
      · exact .dropped fun _ => hdrop
      · exact .delivered false (Or.inr ⟨rfl, hstate⟩) hrecords hstop hwrite hevent
  · next hconnecting hconnected =>
      cases h
      exact .dropped fun hgo =>
        (hgo.elim (fun hgo => hconnecting hgo.1) fun hgo => hconnected hgo).elim

theorem Starts.sound {setup : SslSetup} (h : Starts digestOf s setup s')
    (hs : s.Sound digestOf alg digest) : s'.Sound digestOf alg digest := by
  cases h with
  | later => exact hs
  | started _ hstart =>
      obtain ⟨hgoes, hnone⟩ := startSSL_goes (fun he => hs.unheard (Or.inl he)) hstart
      exact (hgoes.sound hs).congr rfl (fun he => absurd he hnone) (List.append_nil _).symm
        (by simp)
  | failed _ _ hstart =>
      exact (startSSL_goes (fun he => hs.unheard (Or.inl he)) hstart).1.sound hs

/-- A datagram that is delivered finds a handshake that has begun. -/
theorem Dispatches.sound {data : Bytes} (h : Dispatches digestOf s data s')
    (hs : s.Sound digestOf alg digest) : s'.Sound digestOf alg digest := by
  cases h with
  | dropped => exact hs
  | @delivered hello flag downward s₂ hstate _ _ _ hevent =>
      have hnone : s.adapter.state ≠ .none := by
        intro he
        have hnew := hs.fresh he
        rcases hstate with ⟨-, hstate, -⟩ | ⟨-, hstate⟩ <;> simp [hstate] at hnew
      have hfirst : s.adapter.state = .connecting → signals s.log = [] :=
        fun he => hs.unheard (Or.inr (Or.inr he))
      have hs₁ : ({ s with dtls.downward := downward } : DtlsStack).Sound digestOf alg digest :=
        hs.congr rfl hs.fresh (List.append_nil _).symm (by simp)
      have hgoes := onEvent_goes (s := { s with dtls.downward := downward }) hnone hfirst hevent
      have hs₂ := hgoes.sound hs₁
      split
      · exact hs₂.congr rfl (fun he => absurd he (hgoes.state_ne_none hnone))
          (List.append_nil _).symm (by simp)
      · exact hs₂

theorem exec_sound {e : Event} (hs : s.Sound digestOf alg digest) (hdue : s.Due e)
    (h : s.exec digestOf e = some s') : s'.Sound digestOf alg digest := by
  cases e with
  | arrives data setup calls =>
      obtain ⟨s₁, hstart, hrest⟩ := handleDtls_some h
      have hs₀ : ({ s with calls, log := s.log ++ [.arrived data] } : DtlsStack).Sound digestOf alg digest :=
        hs.congr rfl hs.fresh rfl (by simp [StackMark.isSignal, StackMark.ofOpenSSL])
      exact hrest.sound (hstart.sound hs₀)
  | timeout calls =>
      have hstate := hs.timer hdue
      have hs₀ : ({ s with calls } : DtlsStack).Sound digestOf alg digest :=
        hs.congr rfl hs.fresh (List.append_nil _).symm (by simp)
      exact (timeoutExpired_goes (s := { s with calls }) hstate
        (hs.unheard (Or.inr (Or.inr hstate))) h).sound hs₀
  | keys unset profile material =>
      replace h : s.extractSrtpKeys unset profile material = some s' := h
      unfold extractSrtpKeys at h
      dsimp only at h
      split at h
      · cases h
        exact hs
      · split at h
        · split at h
          · cases h
            exact hs
          · cases h
            exact hs.congr rfl hs.fresh rfl (by simp [StackMark.isSignal, StackMark.ofOpenSSL])
        · cases h
  | destory =>
      cases h
      exact hs.congr rfl hs.fresh (List.append_nil _).symm (by simp)

theorem setPeerCertificateDigest_true {a a' : OpenSSLStreamAdapter}
    (h : a.setPeerCertificateDigest alg digest = (true, a')) :
    OpenSSLStreamAdapter.getDigestSize alg = some digest.length ∧
      a' = { a with
        peerCertificateDigestValue := digest, peerCertificateDigestAlgorithm := alg } := by
  unfold OpenSSLStreamAdapter.setPeerCertificateDigest at h
  split at h
  · cases h
  · next expectedLen hsize =>
      split at h
      · cases h
      · next heq =>
          cases h
          exact ⟨by rw [hsize, not_not.mp heq], rfl⟩

/-- What `create` makes: the stream is open, and the digest is that of the offer. -/
theorem create_some {udp : UdpId} {addr : IpAddress}
    (h : create udp addr alg digest = some s) :
    s = { dtls := { udp, remoteAddr := addr, remoteAlg := alg, remoteFingerprintValue := digest }
          adapter := { peerCertificateDigestValue := digest
                       peerCertificateDigestAlgorithm := alg } } ∧
      OpenSSLStreamAdapter.getDigestSize alg = some digest.length ∧ digest ≠ [] := by
  have hne : digest ≠ [] := by
    rintro rfl
    have hempty : (RtcDtls.setRemoteDtls { udp, remoteAddr := addr } alg []).remoteFingerprintValue =
        [] := by
      unfold RtcDtls.setRemoteDtls
      split <;> rfl
    simp [create, hempty] at h
  have hset : RtcDtls.setRemoteDtls { udp, remoteAddr := addr } alg digest =
      { udp, remoteAddr := addr, remoteAlg := alg, remoteFingerprintValue := digest } :=
    if_neg fun hnil => hne hnil.1.symm
  have hlen : ¬ digest.length < 1 := by simpa [Nat.lt_one_iff] using hne
  unfold create at h
  dsimp only at h
  rw [hset] at h
  dsimp only at h
  rw [if_neg hlen] at h
  split at h
  · next hok =>
      cases h
      obtain ⟨hsize, hadapter⟩ := setPeerCertificateDigest_true (Prod.ext hok rfl)
      exact ⟨congrArg (fun adapter => ({ dtls := _, adapter } : DtlsStack)) hadapter, hsize, hne⟩
  · cases h

theorem getDigestSize_nil : OpenSSLStreamAdapter.getDigestSize [] = none := by decide

theorem create_sound {udp : UdpId} {addr : IpAddress}
    (h : create udp addr alg digest = some s) : s.Sound digestOf alg digest := by
  obtain ⟨rfl, hsize, hne⟩ := create_some h
  have halg : alg ≠ [] := by
    rintro rfl
    rw [getDigestSize_nil] at hsize
    cases hsize
  exact ⟨⟨rfl, rfl, ⟨halg, hne⟩, by simp, by simp⟩, by simp, by simp, by simp, fun _ => rfl,
    Or.inl ⟨0, rfl⟩, by simp, .nil, by simp⟩

/-! ## Calls on `ssl_` -/

/-- `ssl_` is there while OpenSSL may be called. -/
def Callable (s : DtlsStack) : Prop :=
  s.adapter.state = .connecting ∨ s.adapter.state = .connected → s.adapter.ssl = true

theorem Does.callable {acts : List AdapterAct} (h : Does digestOf s acts s') (hs : s.Callable) :
    s'.Callable := by
  cases h with
  | runs _ hsame =>
      intro he
      rw [hsame.ssl]
      exact hs (hsame.state ▸ he)
  | ends _ _ hend =>
      intro he
      rcases hend.state with hstate | hstate <;> simp [hstate] at he
  | waits => intro he; simp at he
  | begins => exact fun _ => rfl
  | establishes hstate => exact fun _ => hs (Or.inl hstate)
  | _ => exact hs

theorem Goes.callable (h : Goes digestOf s s') (hs : s.Callable) : s'.Callable := by
  obtain ⟨acts, h⟩ := h
  induction h with
  | refl => exact hs
  | tail _ hdoes ih => exact hdoes.callable ih

theorem runActs_que (d : RtcDtls) (acts : List AdapterAct) :
    (d.runActs acts).1.downward.que <:+ d.downward.que := by
  induction acts generalizing d with
  | nil => exact List.suffix_refl _
  | cons a acts ih => exact (ih (d.act a).1).trans (DtlsRun.act_que d a)

variable (digestOf) in
/-- A call takes one of the calls, or there is none left and OpenSSL waits. -/
theorem runCall_turns (s : DtlsStack) : (s.runCall digestOf).1 = {} ∨
    (s.runCall digestOf).2.calls.length < s.calls.length ∧
      (s.runCall digestOf).2.turns < s.turns := by
  have hfold : ∀ (bio : List BioAct) (s : DtlsStack),
      (bio.foldl (bioAct digestOf) s).calls = s.calls := by
    intro bio
    induction bio with
    | nil => exact fun s => rfl
    | cons a bio ih =>
        intro s
        rw [List.foldl_cons, ih]
        cases a with
        | read outl =>
            show (s.streamRead outl).calls = s.calls
            rcases s.streamRead_cases outl with ⟨-, heq⟩ | ⟨packet, que, -, -, -, heq⟩ <;> rw [heq]
        | _ => rfl
  obtain ⟨acts, hp, -⟩ := s.runCall_passive digestOf
  have hque := (runActs_que s.dtls acts).length_le
  rw [← hp.acted.dtls] at hque
  cases hcalls : s.calls with
  | nil =>
      left
      simp [runCall, hcalls]
  | cons c calls =>
      right
      have hless : (s.runCall digestOf).2.calls = calls := by
        simp [runCall, hcalls, hfold]
      refine ⟨by simp [hless], ?_⟩
      simp only [turns, hless, hcalls, List.length_cons]
      omega

variable (digestOf) in
theorem callSsl_isSome (hssl : s.adapter.ssl = true) :
    ∃ c s', s.callSsl digestOf = some (c, s') ∧
      (c.error = sslErrorNone → s'.calls.length < s.calls.length ∧ s'.turns < s.turns) := by
  refine ⟨(s.runCall digestOf).1, (s.runCall digestOf).2, if_pos hssl, fun herr => ?_⟩
  rcases s.runCall_turns digestOf with hwait | hless
  · rw [hwait] at herr
    exact absurd herr (by decide)
  · exact hless

variable (digestOf) in
theorem flushInput_isSome {fuel : ℕ} (left : ℕ) (hssl : s.adapter.ssl = true)
    (hfuel : s.calls.length < fuel) : ∃ s', s.flushInput digestOf fuel left = some s' := by
  induction fuel generalizing s left with
  | zero => omega
  | succ fuel ih =>
      cases left with
      | zero => exact ⟨s, rfl⟩
      | succ left =>
          obtain ⟨c, s₁, hcall, hless⟩ := callSsl_isSome digestOf hssl
          obtain ⟨acts, -, hsame⟩ := callSsl_some hcall
          unfold flushInput
          rw [hcall]
          dsimp only [Option.bind_eq_bind, Option.bind_some]
          split
          · exact ⟨_, rfl⟩
          · next herr =>
              have hcalls := (hless (not_not.mp herr)).1
              exact ih _ (hsame.ssl.trans hssl) (by omega)

variable (digestOf) in
theorem read_isSome (hcall : s.Callable) (hnone : s.adapter.state ≠ .none) :
    ∃ ret s', s.read digestOf = some (ret, s') ∧ (ret = .success → s'.turns < s.turns) := by
  unfold read
  split
  · next hstate => exact absurd hstate hnone
  · exact ⟨_, _, rfl, by simp⟩
  · exact ⟨_, _, rfl, by simp⟩
  · next hstate =>
      split
      · exact ⟨_, _, rfl, by simp⟩
      · obtain ⟨c, s₁, hread, hless⟩ := callSsl_isSome digestOf
          (s := { s with adapter.sslReadNeedsWrite := false }) (hcall (Or.inr hstate))
        obtain ⟨acts, -, hsame⟩ := callSsl_some hread
        rw [hread]
        dsimp only [Option.bind_eq_bind, Option.bind_some]
        split
        · next herr =>
            split
            · exact ⟨_, _, rfl, fun _ => (hless herr).2⟩
            · obtain ⟨s₂, hflush⟩ := flushInput_isSome digestOf (s := s₁)
                c.pending (hsame.ssl.trans (hcall (Or.inr hstate))) (Nat.lt_succ_self _)
              rw [hflush]
              exact ⟨_, _, rfl, by simp⟩
        · split
          · exact ⟨_, _, rfl, by simp⟩
          · split
            · exact ⟨_, _, rfl, by simp⟩
            · split <;> exact ⟨_, _, rfl, by simp⟩
  · exact ⟨_, _, rfl, by simp⟩
  · exact ⟨_, _, rfl, by simp⟩

variable (digestOf) in
theorem readLoop_isSome {fuel : ℕ} (hcall : s.Callable) (hnone : s.adapter.state ≠ .none)
    (hfuel : s.turns < fuel) : ∃ s', s.readLoop digestOf fuel = some s' := by
  induction fuel generalizing s with
  | zero => omega
  | succ fuel ih =>
      obtain ⟨ret, s₁, hread, hless⟩ := read_isSome digestOf hcall hnone
      have hgoes := read_goes hnone hread
      unfold readLoop
      rw [hread]
      cases ret with
      | success =>
          have hturns := hless rfl
          exact ih (hgoes.callable hcall) (hgoes.state_ne_none hnone) (by omega)
      | _ => exact ⟨_, rfl⟩

variable (digestOf) in
theorem signalEvent_isSome (hcall : s.Callable) (hnone : s.adapter.state ≠ .none)
    (seOpen seClose seRead : Bool) (error : ℤ) :
    ∃ s', s.signalEvent digestOf seOpen seClose seRead error = some s' := by
  have hloop : ∀ s₁ : DtlsStack, s₁.adapter = s.adapter →
      ∃ s', (if seRead then s₁.readLoop digestOf (s₁.turns + 1) else some s₁) = some s' := by
    intro s₁ hadapter
    cases seRead with
    | false => exact ⟨_, rfl⟩
    | true =>
        refine readLoop_isSome digestOf ?_ (hadapter ▸ hnone) (Nat.lt_succ_self _)
        rw [Callable, hadapter]
        exact hcall
  unfold signalEvent slotDtlsEvent
  refine hloop _ ?_
  cases seOpen <;> cases seClose <;> rfl

variable (digestOf) in
theorem continueSSL_isSome (hssl : s.adapter.ssl = true) :
    ∃ err s', s.continueSSL digestOf = some (err, s') := by
  obtain ⟨c, s₁, hcall, -⟩ := callSsl_isSome digestOf
    (s := { s with adapter.timeoutTask := false }) hssl
  obtain ⟨acts, -, hsame⟩ := callSsl_some hcall
  unfold continueSSL
  rw [hcall]
  dsimp only [Option.bind_eq_bind, Option.bind_some]
  split
  · split
    · exact ⟨_, _, rfl⟩
    · obtain ⟨s₂, hsignal⟩ := signalEvent_isSome digestOf
        (s := { s₁ with adapter.state := .connected, log := s₁.log ++ [.established] })
        (fun _ => hsame.ssl.trans hssl) (by simp) true false true 0
      rw [hsignal]
      exact ⟨_, _, rfl⟩
  · split
    · exact ⟨_, _, rfl⟩
    · split <;> exact ⟨_, _, rfl⟩

variable (digestOf) in
theorem startSSL_isSome (s : DtlsStack) (setup : SslSetup) :
    ∃ err s', s.startSSL digestOf setup = some (err, s') := by
  unfold startSSL
  split
  · exact ⟨_, _, rfl⟩
  · split
    · exact ⟨_, _, rfl⟩
    · obtain ⟨err, s₁, hbegin⟩ : ∃ err s₁,
          ({ s with adapter.state := .connecting } : DtlsStack).beginSSL digestOf setup =
            some (err, s₁) := by
        unfold beginSSL
        split
        · exact ⟨_, _, rfl⟩
        · split
          · exact ⟨_, _, rfl⟩
          · exact continueSSL_isSome digestOf rfl
      rw [hbegin]
      dsimp only [Option.bind_eq_bind, Option.bind_some]
      split <;> exact ⟨_, _, rfl⟩

variable (digestOf) in
theorem onEvent_isSome (hs : s.Sound digestOf alg digest) (hnone : s.adapter.state ≠ .none) :
    ∃ s', s.onEvent digestOf = some s' := by
  have hcall : s.Callable := hs.ssl.mpr
  unfold onEvent
  split
  · next hstate => exact absurd hstate hnone
  · next hstate =>
      obtain ⟨err, s₁, hcontinue⟩ := continueSSL_isSome digestOf
        (hcall (Or.inl hstate))
      rw [hcontinue]
      dsimp only [Option.bind_eq_bind, Option.bind_some]
      split
      · next herr =>
          obtain ⟨hstate₁, -⟩ := (continueSSL_goes hstate
            (hs.unheard (Or.inr (Or.inr hstate))) hcontinue).2 herr
          obtain ⟨hgoes, hfail, -⟩ := fail_does digestOf (s := s₁)
            (by simp [hstate₁]) err
          refine signalEvent_isSome digestOf ?_ (by simp [hfail]) ..
          intro he
          simp [hfail] at he
      · exact ⟨_, rfl⟩
  · exact signalEvent_isSome digestOf hcall hnone ..
  · exact ⟨_, rfl⟩

theorem doHandleDtlsPacket_isSome (hs : s.Sound digestOf alg digest) (hnew : s.dtls.state ≠ .new)
    (data : Bytes) : ∃ flag s', s.doHandleDtlsPacket digestOf data = some (flag, s') := by
  unfold doHandleDtlsPacket onPacketReceive
  split
  · split
    · exact ⟨_, _, rfl⟩
    · obtain ⟨s₁, hevent⟩ := onEvent_isSome digestOf
        (s := { s with dtls.downward := (s.dtls.downward.writeBack data).2 })
        (hs.congr rfl hs.fresh (List.append_nil _).symm (by simp)) (fun he => hnew (hs.fresh he))
      dsimp only
      rw [hevent]
      exact ⟨_, _, rfl⟩
  · exact ⟨_, _, rfl⟩

theorem handleDtls_isSome (hs : s.Sound digestOf alg digest) (data : Bytes) (setup : SslSetup) :
    ∃ s', s.handleDtls digestOf data setup = some s' := by
  obtain ⟨s₁, hstart⟩ : ∃ s₁, s.startIfNew digestOf setup = some s₁ := by
    unfold startIfNew
    split
    · obtain ⟨err, s₁, hstart⟩ := s.startSSL_isSome digestOf setup
      rw [hstart]
      exact ⟨_, rfl⟩
    · exact ⟨_, rfl⟩
  have hs₁ := (startIfNew_starts hstart).sound hs
  unfold handleDtls
  rw [hstart]
  dsimp only [Option.bind_eq_bind, Option.bind_some]
  split
  · next hstate =>
      split
      · obtain ⟨flag, s₂, hpacket⟩ := doHandleDtlsPacket_isSome hs₁ (by simp [hstate]) data
        rw [hpacket]
        exact ⟨_, rfl⟩
      · exact ⟨_, rfl⟩
  · next hstate =>
      obtain ⟨flag, s₂, hpacket⟩ := doHandleDtlsPacket_isSome hs₁ (by simp [hstate]) data
      rw [hpacket]
      exact ⟨_, rfl⟩
  · exact ⟨_, rfl⟩

variable (digestOf) in
theorem timeoutExpired_isSome (hssl : s.adapter.ssl = true) :
    ∃ s', s.timeoutExpired digestOf = some s' := by
  obtain ⟨c, s₁, hcall, -⟩ := callSsl_isSome digestOf
    (s := { s with adapter.timeoutTask := false }) hssl
  obtain ⟨acts, -, hsame⟩ := callSsl_some hcall
  obtain ⟨err, s₂, hcontinue⟩ := continueSSL_isSome digestOf
    (hsame.ssl.trans hssl)
  unfold timeoutExpired
  rw [hcall]
  dsimp only [Option.bind_eq_bind, Option.bind_some]
  rw [hcontinue]
  exact ⟨_, rfl⟩

/-! ## Runs -/

theorem reachable_sound (hr : Lts.Reachable (system digestOf alg digest) s) :
    s.Sound digestOf alg digest := by
  refine hr.invariant ?_ ?_
  · rintro s ⟨udp, addr, hcreate⟩
    exact create_sound hcreate
  · exact fun s e s' _ hs ⟨hdue, hexec⟩ => exec_sound hs hdue hexec

/-- A certificate of one byte, and MD5 of it. -/
def sampleCert : Bytes := [0x61]

def sampleDigest : Bytes :=
  [0x0C, 0xC1, 0x75, 0xB9, 0xC0, 0xF1, 0xB6, 0xA8, 0x31, 0xC3, 0x99, 0xE2, 0x69, 0x77, 0x26, 0x61]

def sampleDigestOf (alg : Str) (cert : Bytes) : Option Bytes :=
  if alg = str "md5" ∧ cert = sampleCert then some sampleDigest else none

/-- A connection to the owner of that certificate. -/
def unusedStack : DtlsStack where
  dtls :=
    { udp := 0, remoteAddr := ⟨1, 2⟩, remoteAlg := str "md5"
      remoteFingerprintValue := sampleDigest }
  adapter :=
    { peerCertificateDigestValue := sampleDigest, peerCertificateDigestAlgorithm := str "md5" }

theorem unusedStack_reachable :
    Lts.Reachable (system sampleDigestOf (str "md5") sampleDigest) unusedStack :=
  .start ⟨0, ⟨1, 2⟩, rfl⟩

/-- OpenSSL takes the ClientHello. -/
def helloRead : BioRead := ⟨DtlsRun.helloBytes, 16717, DtlsRun.helloBytes⟩

/-- OpenSSL reads the ClientHello, is shown the certificate and is done. -/
def helloEvent : Event :=
  .arrives DtlsRun.helloBytes {} [{}, { acts := [.read 16717, .verify sampleCert], error := 0 }]

def openedStack : DtlsStack where
  dtls := { unusedStack.dtls with state := .connected }
  adapter :=
    { unusedStack.adapter with
      state := .connected, ssl := true, sslCtx := true, peerCertChain := some sampleCert
      peerCertificateVerified := true }
  log := [.arrived DtlsRun.helloBytes, .fed helloRead, .presented sampleCert true,
    .established, opening]

theorem openedStack_reachable :
    Lts.Reachable (system sampleDigestOf (str "md5") sampleDigest) openedStack :=
  unusedStack_reachable.snoc (e := helloEvent) ⟨trivial, rfl⟩

/-- **Where a null `SSL*` is used**: only where keys are exported for a suite that
nobody has chosen, while the adapter is neither connecting nor connected (it has not
begun, or it is closed). -/
theorem exec_eq_none_iff (hr : Lts.Reachable (system digestOf alg digest) s) {e : Event}
    (hdue : s.Due e) : s.exec digestOf e = none ↔ ∃ unset profile material,
      e = .keys unset profile material ∧ s.adapter.state ≠ .connecting ∧
        s.adapter.state ≠ .connected ∧ getSrtpKeyAndSaltLengths unset ≠ none := by
  have hs := reachable_sound hr
  cases e with
  | arrives data setup calls =>
      have hs₀ : ({ s with calls, log := s.log ++ [.arrived data] } : DtlsStack).Sound digestOf alg digest :=
        hs.congr rfl hs.fresh rfl (by simp [StackMark.isSignal, StackMark.ofOpenSSL])
      obtain ⟨s', hsome⟩ := handleDtls_isSome hs₀ data setup
      exact iff_of_false (by simp [exec, hsome]) (by simp)
  | timeout calls =>
      obtain ⟨s', hsome⟩ := timeoutExpired_isSome digestOf (s := { s with calls })
        (hs.ssl.mpr (Or.inl (hs.timer hdue)))
      exact iff_of_false (by simp [exec, hsome]) (by simp)
  | keys unset profile material =>
      have hssl := hs.ssl
      show s.extractSrtpKeys unset profile material = none ↔ _
      unfold extractSrtpKeys
      dsimp only
      constructor
      · intro h
        split at h
        · cases h
        · next keyLen saltLen hlen =>
            split at h
            · split at h <;> cases h
            · next hnull =>
                rw [hssl, not_or] at hnull
                rw [if_neg hnull.2] at hlen
                exact ⟨unset, profile, material, rfl, hnull.1, hnull.2, by simp [hlen]⟩
      · rintro ⟨_, _, _, ⟨rfl, rfl, rfl⟩, hconnecting, hconnected, hlen⟩
        rw [if_neg hconnected]
        have hnull : s.adapter.ssl = false := by
          rw [← Bool.not_eq_true, hssl]
          simp [hconnecting, hconnected]
        split
        · next hnone => exact absurd hnone hlen
        · rw [if_neg (by simp [hnull])]
  | destory => exact iff_of_false (by simp [exec]) (by simp)

theorem exec_eq_none_iff_unused :
    unusedStack.exec sampleDigestOf (.keys 1 none none) = none :=
  (exec_eq_none_iff unusedStack_reachable (e := .keys 1 none none) trivial).mpr
    ⟨1, none, none, rfl, by decide, by decide, by decide⟩

/-- **The events of a connection**, in every run: `SE_OPEN` at most once and
first, `SE_CLOSE` alone and with an error, and `SE_READ` otherwise. -/
theorem reachable_ordered (hr : Lts.Reachable (system digestOf alg digest) s) :
    Ordered (signals s.log) := (reachable_sound hr).ordered

theorem reachable_ordered_opened : Ordered (signals openedStack.log) :=
  reachable_ordered openedStack_reachable

def IsExported (m : StackMark) : Prop :=
  ∃ cs sendKey recvKey, m = .exported cs sendKey recvKey

/-- What OpenSSL documents: a handshake succeeds only if the verify callback has
accepted a certificate (`SSL_VERIFY_PEER` with `SSL_VERIFY_FAIL_IF_NO_PEER_CERT`),
and there is nothing to export before. -/
structure Documented (log : List StackMark) : Prop where
  accepted : Precedes (∃ cert, · = .presented cert true) (· = .established) log
  exported : Precedes (· = .established) IsExported log

/-- **Whom the connection is opened to**: whatever OpenSSL does, `SE_OPEN` is
raised only behind a certificate with the digest of the offer. -/
theorem reachable_isPeer (hr : Lts.Reachable (system digestOf alg digest) s) :
    Precedes (IsPeer digestOf alg digest) (· = opening) s.log := by
  have hs := reachable_sound hr
  refine hs.opened.mono ?_
  rintro m hm ⟨cert, rfl⟩
  exact ⟨cert, rfl, (hs.vetted.presented cert true hm).mp rfl⟩

theorem reachable_isPeer_opened :
    Precedes (IsPeer sampleDigestOf (str "md5") sampleDigest) (· = opening) openedStack.log :=
  reachable_isPeer openedStack_reachable

/-- **Whose keys are exported**, when OpenSSL does what it documents. -/
theorem exported_isPeer (hr : Lts.Reachable (system digestOf alg digest) s)
    (hdoc : Documented s.log) :
    Precedes (IsPeer digestOf alg digest) IsExported s.log := by
  have hs := reachable_sound hr
  refine (hdoc.accepted.trans hdoc.exported).mono ?_
  rintro m hm ⟨cert, rfl⟩
  exact ⟨cert, rfl, (hs.vetted.presented cert true hm).mp rfl⟩

def keyedStack : DtlsStack :=
  { openedStack with
    log := openedStack.log ++ [.exported 1 (List.replicate 30 0) (List.replicate 30 0)] }

theorem keyedStack_reachable :
    Lts.Reachable (system sampleDigestOf (str "md5") sampleDigest) keyedStack :=
  openedStack_reachable.snoc (e := .keys 0 (some 1) (some fun _ => 0)) ⟨trivial, rfl⟩

theorem precedes_established {p : StackMark → Prop}
    (h : ∃ m ∈ [StackMark.arrived DtlsRun.helloBytes, .fed helloRead,
      .presented sampleCert true], p m) : Precedes p (· = .established) keyedStack.log := by
  have hbefore : Precedes p (· = .established) ([] ++ [StackMark.arrived DtlsRun.helloBytes,
      .fed helloRead, .presented sampleCert true]) := Precedes.nil.append (Or.inr (by simp))
  exact hbefore.append (Or.inl h)

theorem keyedStack_documented : Documented keyedStack.log where
  accepted := precedes_established ⟨.presented sampleCert true, by simp, _, rfl⟩
  exported := by
    have hbefore : Precedes (· = .established) IsExported ([] ++ openedStack.log) :=
      Precedes.nil.append (Or.inr (by simp [openedStack, IsExported, opening]))
    exact hbefore.append (Or.inl ⟨.established, by simp [openedStack], rfl⟩)

theorem exported_isPeer_keyed :
    Precedes (IsPeer sampleDigestOf (str "md5") sampleDigest) IsExported keyedStack.log :=
  exported_isPeer keyedStack_reachable keyedStack_documented

end DtlsStack

end JuanSfu
