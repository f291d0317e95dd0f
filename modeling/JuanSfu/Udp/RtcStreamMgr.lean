import JuanSfu.Lib.MutualLinks
import JuanSfu.Udp.SrtpTransport
import Mathlib.Logic.Equiv.List

/-!
# `udp/rtc_stream_mgr.cpp`

The registry of subscriptions and streams, keyed by uid, and the heap of the
transports it links. A link is two half links: each transport holds the other
under the other's uid. `Linked` says that the halves agree with the unordered
links of `MutualLinks`; every call of the manager keeps that agreement.
-/

namespace JuanSfu

/-- The second string of a subscription is always empty. -/
structure RtcStreamMgr where
  subsMap : UnorderedMap Str (Str × Str) := ∅
  streams : UnorderedMap Str TransportId := ∅

/-- The state the members share: the manager, the transports ever made (one
beyond `nextTransport` has no meaning) and `SrtpTransport::_srtp_init`. -/
structure Media where
  mgr : RtcStreamMgr := {}
  transports : TransportId → SrtpTransport
  nextTransport : TransportId := 0
  srtpInit : Bool := false

namespace Media

/-- A call on the object `st` points at. -/
def onTransport (m : Media) (st : TransportId) (f : SrtpTransport → SrtpTransport) :
    Media :=
  { m with transports := Function.update m.transports st (f (m.transports st)) }

/-- `std::make_shared<SrtpTransport>(udp, addr)`. -/
def newTransport (m : Media) (udp : UdpId) (addr : IpAddress) :
    TransportId × Media :=
  (m.nextTransport,
    { m with
      transports := Function.update m.transports m.nextTransport { udp, addr }
      nextTransport := m.nextTransport + 1 })

/-- `st->set_srtp_param(...)`, with one suite for both directions. -/
def setSrtpParam (env : Env) (m : Media) (st : TransportId) (cs : ℤ)
    (sendKey recvKey : Bytes) : Media :=
  let (_, srtpInit, t) :=
    (m.transports st).setSrtpParam env m.srtpInit cs sendKey cs recvKey
  { m.onTransport st fun _ => t with srtpInit }

def addSubscriber (m : Media) (uid targetUid : Str) : Media :=
  { m with mgr.subsMap := m.mgr.subsMap.insert uid (targetUid, []) }

def addStream (m : Media) (uid : Str) (st : TransportId) : Media :=
  let m := { m with mgr.streams := m.mgr.streams.insert uid st }
  match m.mgr.subsMap.lookup uid with
  | none => m
  | some (target, _) =>
      match m.mgr.streams.lookup target with
      | none => m
      | some peer =>
          (m.onTransport peer (·.addSubscriber uid st)).onTransport st
            (·.addSubscriber target peer)

/-- Neither `_subs_map` nor `_streams` loses an entry here. -/
def removeSubscriber (m : Media) (uid : Str) : Media :=
  match m.mgr.subsMap.lookup uid with
  | none => m
  | some (target, _) =>
      let m :=
        match m.mgr.streams.lookup uid with
        | some st => m.onTransport st (·.removeSubscriber target)
        | none => m
      match m.mgr.streams.lookup target with
      | some st => m.onTransport st (·.removeSubscriber uid)
      | none => m

/-- `handle_rtp_data` and `handle_rtcp_data`. -/
def handleData (m : Media) (st : TransportId) (rtcp : Bool) (data : Bytes)
    (srtp : Srtp) : Result (List MediaEffect) :=
  if !m.srtpInit then .ok []
  else
    match (m.transports st).recvSession with
    | none => .error .nullSrtpSession
    | some s =>
        match s.srtpSession with
        | none => .ok []
        | some policy =>
            match srtp.unprotect with
            | none | some [] => .ok [.unprotect policy data]
            | some plain => do
                let sent ← (m.transports st).subsMap.entries.mapM fun e => do
                  let sent ← (m.transports e.2).onPacket m.srtpInit rtcp plain
                    (srtp.protect e.2)
                  return .forward st e.2 plain :: sent
                return .unprotect policy data :: sent.flatten

/-- A missing session is the one thing that can go wrong. -/
theorem handleData_ne_error (m : Media) (st : TransportId) (rtcp : Bool) (data : Bytes)
    (srtp : Srtp) {e : Fault} (he : e ≠ .nullSrtpSession) :
    m.handleData st rtcp data srtp ≠ .error e := by
  have hnull : ∀ {α : Type}, (Except.error .nullSrtpSession : Result α) ≠ .error e :=
    fun h => he (Except.error.inj h).symm
  unfold handleData
  split
  · exact ok_ne_error _ _
  · split
    · exact hnull
    · split
      · exact ok_ne_error _ _
      · split
        · exact ok_ne_error _ _
        · exact ok_ne_error _ _
        · refine bind_ne_error (mapM_ne_error fun sub _ => ?_) fun _ _ => ok_ne_error _ _
          refine bind_ne_error ?_ fun _ _ => ok_ne_error _ _
          unfold SrtpTransport.onPacket
          split
          · exact ok_ne_error _ _
          · split
            · exact hnull
            · dsimp only
              split <;> exact ok_ne_error _ _

/-- A packet of `st` is forwarded to subscribers of `st`, and decrypted before. -/
theorem handleData_forward {m : Media} {st : TransportId} {rtcp : Bool} {data : Bytes}
    {srtp : Srtp} {sent : List MediaEffect} (h : m.handleData st rtcp data srtp = .ok sent)
    {src dst : TransportId} {plain : Bytes} (hf : .forward src dst plain ∈ sent) :
    src = st ∧ ∃ uid, (m.transports st).subsMap.lookup uid = some dst := by
  have hno : ∀ policy, .forward src dst plain ∉ [MediaEffect.unprotect policy data] := by
    intro policy
    simp
  unfold handleData at h
  split at h
  · cases h
    cases hf
  · split at h
    · cases h
    · split at h
      · cases h
        cases hf
      · next policy hpolicy =>
          split at h
          · cases h
            exact absurd hf (hno policy)
          · cases h
            exact absurd hf (hno policy)
          · obtain ⟨turns, hturns, h⟩ := bind_ok h
            cases h
            rcases List.mem_cons.mp hf with hf | hf
            · cases hf
            · obtain ⟨turn, hturn, hf⟩ := List.mem_flatten.mp hf
              obtain ⟨⟨uid, x⟩, hx, hturn⟩ := mem_of_mapM_ok hturns hturn
              obtain ⟨packets, hpackets, hturn⟩ := bind_ok hturn
              cases hturn
              rcases List.mem_cons.mp hf with hf | hf
              · cases hf
                exact ⟨rfl, uid, UnorderedMap.mem_entries_iff.mp hx⟩
              · exact absurd hf (SrtpTransport.onPacket_no_forward hpackets)

/-! ## What one call changes -/

@[simp] theorem onTransport_mgr (m : Media) (st : TransportId)
    (f : SrtpTransport → SrtpTransport) : (m.onTransport st f).mgr = m.mgr := rfl

/-- The half links one transport holds, by uid. -/
def subscriberOf (m : Media) (st : TransportId) (uid : Str) : Option TransportId :=
  (m.transports st).subsMap.lookup uid

theorem subscriberOf_add (m : Media) (st x : TransportId) (uid v : Str)
    (sber : TransportId) :
    (m.onTransport st (·.addSubscriber uid sber)).subscriberOf x v =
      if x = st ∧ v = uid then some sber else m.subscriberOf x v := by
  by_cases h : x = st
  · subst h
    simp [subscriberOf, onTransport, SrtpTransport.addSubscriber]
  · simp [subscriberOf, onTransport, h]

theorem subscriberOf_remove (m : Media) (st x : TransportId) (uid v : Str) :
    (m.onTransport st (·.removeSubscriber uid)).subscriberOf x v =
      if x = st ∧ v = uid then none else m.subscriberOf x v := by
  by_cases h : x = st
  · subst h
    simp [subscriberOf, onTransport, SrtpTransport.removeSubscriber]
  · simp [subscriberOf, onTransport, h]

/-- The uid that `uid` pulls. -/
def target (m : Media) (uid : Str) : Option Str := (m.mgr.subsMap.lookup uid).map (·.1)

/-- The target and its stream that `add_stream(uid, st)` links `st` with. -/
def peerOf (m : Media) (uid : Str) (st : TransportId) : Option (Str × TransportId) :=
  (m.target uid).bind fun target =>
    ((m.mgr.streams.insert uid st).lookup target).map (target, ·)

/-- **What `add_stream` does**: it registers the stream and, if the target has
one, writes the two half links. -/
theorem addStream_eq (m : Media) (uid : Str) (st : TransportId) :
    m.addStream uid st =
      let m' : Media := { m with mgr.streams := m.mgr.streams.insert uid st }
      match m.peerOf uid st with
      | none => m'
      | some (target, peer) =>
          (m'.onTransport peer (·.addSubscriber uid st)).onTransport st
            (·.addSubscriber target peer) := by
  unfold addStream peerOf target
  dsimp only
  cases m.mgr.subsMap.lookup uid with
  | none => rfl
  | some sub =>
      obtain ⟨target, info⟩ := sub
      simp only [Option.map_some, Option.bind_some]
      cases (m.mgr.streams.insert uid st).lookup target <;> rfl

theorem addStream_mgr (m : Media) (uid : Str) (st : TransportId) :
    (m.addStream uid st).mgr =
      { m.mgr with streams := m.mgr.streams.insert uid st } := by
  rw [addStream_eq]
  cases m.peerOf uid st <;> rfl

theorem subscriberOf_addStream (m : Media) (uid : Str) (st x : TransportId)
    (v : Str) : (m.addStream uid st).subscriberOf x v =
      match m.peerOf uid st with
      | none => m.subscriberOf x v
      | some (target, peer) =>
          if x = st ∧ v = target then some peer
          else if x = peer ∧ v = uid then some st else m.subscriberOf x v := by
  rw [addStream_eq]
  cases m.peerOf uid st with
  | none => rfl
  | some p =>
      simp only [subscriberOf_add]
      rfl

/-- **What `remove_subscriber` does**: it removes the half links between `uid`
and the uid it pulls, as far as either has a stream. -/
theorem subscriberOf_removeSubscriber (m : Media) (uid : Str) (x : TransportId)
    (v : Str) : (m.removeSubscriber uid).subscriberOf x v =
      match m.target uid with
      | none => m.subscriberOf x v
      | some target =>
          if m.mgr.streams.lookup uid = some x ∧ v = target ∨
              m.mgr.streams.lookup target = some x ∧ v = uid then none
          else m.subscriberOf x v := by
  unfold removeSubscriber target
  cases m.mgr.subsMap.lookup uid with
  | none => rfl
  | some sub =>
      obtain ⟨target, info⟩ := sub
      simp only [Option.map_some]
      cases hu : m.mgr.streams.lookup uid <;> cases ht : m.mgr.streams.lookup target <;>
        simp only [ht, onTransport_mgr, subscriberOf_remove]
      all_goals grind

theorem removeSubscriber_mgr (m : Media) (uid : Str) :
    (m.removeSubscriber uid).mgr = m.mgr := by
  unfold removeSubscriber
  cases m.mgr.subsMap.lookup uid with
  | none => rfl
  | some sub =>
      obtain ⟨target, info⟩ := sub
      cases hu : m.mgr.streams.lookup uid <;> cases ht : m.mgr.streams.lookup target <;>
        simp only [ht, onTransport_mgr]

theorem addStream_nextTransport (m : Media) (uid : Str) (st : TransportId) :
    (m.addStream uid st).nextTransport = m.nextTransport := by
  rw [addStream_eq]
  cases m.peerOf uid st <;> rfl

theorem removeSubscriber_nextTransport (m : Media) (uid : Str) :
    (m.removeSubscriber uid).nextTransport = m.nextTransport := by
  unfold removeSubscriber
  cases m.mgr.subsMap.lookup uid with
  | none => rfl
  | some sub =>
      dsimp only
      cases hu : m.mgr.streams.lookup uid <;> cases ht : m.mgr.streams.lookup sub.1 <;>
        simp only [ht, onTransport_mgr] <;> rfl

/-- A new transport has no subscribers. -/
theorem subscriberOf_newTransport (m : Media) (udp : UdpId) (addr : IpAddress) (x : TransportId)
    (v : Str) : (m.newTransport udp addr).2.subscriberOf x v =
      if x = m.nextTransport then none else m.subscriberOf x v := by
  by_cases h : x = m.nextTransport
  · subst h
    simp [subscriberOf, newTransport]
  · simp [subscriberOf, newTransport, h]

/-- Keys change no subscriptions. -/
theorem subscriberOf_setSrtpParam (env : Env) (m : Media) (st : TransportId) (cs : ℤ)
    (sendKey recvKey : Bytes) (x : TransportId) (v : Str) :
    (m.setSrtpParam env st cs sendKey recvKey).subscriberOf x v = m.subscriberOf x v := by
  by_cases h : x = st
  · subst h
    simp only [subscriberOf, setSrtpParam, onTransport, Function.update_self]
    rw [SrtpTransport.setSrtpParam_subsMap]
  · simp [subscriberOf, setSrtpParam, onTransport, h]

/-! ## The manager and the unordered links -/

/-- The calls on a manager; `T` gives each uid its transport. -/
inductive StreamCall where
  | addSubscriber (uid targetUid : Str)
  | addStream (uid : Str)
  | removeSubscriber (uid : Str)

def call (T : Str → TransportId) (m : Media) : StreamCall → Media
  | .addSubscriber uid targetUid => m.addSubscriber uid targetUid
  | .addStream uid => m.addStream uid (T uid)
  | .removeSubscriber uid => m.removeSubscriber uid

def calls (T : Str → TransportId) (m : Media) (cs : List StreamCall) : Media :=
  cs.foldl (call T) m

/-- The same call on the broker. -/
def StreamCall.abs : StreamCall → MutualLinks.Call Str
  | .addSubscriber uid targetUid => .subscribe uid targetUid
  | .addStream uid => .register uid
  | .removeSubscriber uid => .leave uid

/-- No subscription, no stream and no half link yet. -/
structure Fresh (m : Media) : Prop where
  mgr : m.mgr = {}
  subscriberOf (st : TransportId) (uid : Str) : m.subscriberOf st uid = none

/-- The manager's maps and the half links in the transports agree with a
state of the broker. -/
structure Linked (T : Str → TransportId) (m : Media) (s : MutualLinks.State Str) :
    Prop where
  wants (uid : Str) : m.target uid = s.wants uid
  live (uid : Str) (st : TransportId) :
    m.mgr.streams.lookup uid = some st ↔ uid ∈ s.live ∧ st = T uid
  links (a b : Str) (st : TransportId) :
    m.subscriberOf (T a) b = some st ↔ s(a, b) ∈ s.links ∧ st = T b

theorem Fresh.linked {T : Str → TransportId} {m : Media} (hm : m.Fresh) :
    Linked T m .empty where
  wants uid := by simp [target, hm.mgr, MutualLinks.State.empty]
  live uid st := by simp [hm.mgr, MutualLinks.State.empty]
  links a b st := by simp [hm.subscriberOf, MutualLinks.State.empty]

section Simulation

variable {T : Str → TransportId} {m : Media} {s : MutualLinks.State Str}

theorem Linked.addSubscriber (h : Linked T m s) (a b : Str) :
    Linked T (m.addSubscriber a b) (s.act (.subscribe a b)) where
  wants uid := by
    by_cases hu : uid = a
    · subst hu
      simp [target, Media.addSubscriber, MutualLinks.State.act]
    · have hw := h.wants uid
      simpa [target, Media.addSubscriber, MutualLinks.State.act, hu] using hw
  live uid st := h.live uid st
  links x y st := h.links x y st

/-- A registration meets the stream of its target exactly if that is live. -/
theorem Linked.peerOf (h : Linked T m s) (a b : Str) (peer : TransportId) :
    m.peerOf a (T a) = some (b, peer) ↔
      s.wants a = some b ∧ b ∈ insert a s.live ∧ peer = T b := by
  have hlive : ((m.mgr.streams.insert a (T a)).lookup b = some peer) ↔
      b ∈ insert a s.live ∧ peer = T b := by
    have hb := h.live b peer
    rw [UnorderedMap.lookup_insert_ite]
    by_cases hba : b = a
    · subst hba
      simp [eq_comm]
    · simpa [hba] using hb
  unfold Media.peerOf
  rw [h.wants]
  cases s.wants a with
  | none => simp
  | some c =>
      simp only [Option.bind_some, Option.map_eq_some_iff, Prod.mk.injEq, Option.some.injEq]
      constructor
      · rintro ⟨q, hq, rfl, rfl⟩
        exact ⟨rfl, hlive.mp hq⟩
      · rintro ⟨rfl, hp⟩
        exact ⟨peer, hlive.mpr hp, rfl, rfl⟩

theorem Linked.addStream (hT : Function.Injective T) (h : Linked T m s) (a : Str) :
    Linked T (m.addStream a (T a)) (s.act (.register a)) where
  wants uid := by
    have hw := h.wants uid
    rwa [target, addStream_mgr]
  live uid st := by
    rw [addStream_mgr]
    have hl := h.live uid st
    by_cases hu : uid = a
    · subst hu
      simp [MutualLinks.State.act, eq_comm]
    · simpa [MutualLinks.State.act, hu] using hl
  links x y st := by
    have hold := h.links x y st
    have hnew : s(x, y) ∈ (s.act (.register a)).links ↔ s(x, y) ∈ s.links ∨
        ∃ b, s.wants a = some b ∧ b ∈ insert a s.live ∧ s(x, y) = s(a, b) := Iff.rfl
    rw [subscriberOf_addStream, hnew]
    cases hp : m.peerOf a (T a) with
    | none =>
        have hno : ¬ ∃ b, s.wants a = some b ∧ b ∈ insert a s.live ∧ s(x, y) = s(a, b) := by
          rintro ⟨b, hw, hb, -⟩
          rw [(h.peerOf a b (T b)).mpr ⟨hw, hb, rfl⟩] at hp
          cases hp
        rw [or_iff_left hno]
        exact hold
    | some p =>
        obtain ⟨b, peer⟩ := p
        obtain ⟨hw, hb, rfl⟩ := (h.peerOf a b peer).mp hp
        have hsame : (∃ c, s.wants a = some c ∧ c ∈ insert a s.live ∧ s(x, y) = s(a, c)) ↔
            x = a ∧ y = b ∨ x = b ∧ y = a := by
          rw [hw]
          simp only [Option.some.injEq]
          constructor
          · rintro ⟨c, rfl, -, heq⟩
            exact Sym2.eq_iff.mp heq
          · intro hxy
            exact ⟨b, rfl, hb, Sym2.eq_iff.mpr hxy⟩
        rw [hsame]
        simp only [hT.eq_iff]
        split
        · next hxy =>
            obtain ⟨rfl, rfl⟩ := hxy
            simp [eq_comm]
        · split
          · next hxy =>
              obtain ⟨rfl, rfl⟩ := hxy
              simp [eq_comm]
          · next h1 h2 => simpa [h1, h2] using hold

theorem Linked.removeSubscriber (hT : Function.Injective T) (h : Linked T m s)
    (hlive : ∀ x y, s(x, y) ∈ s.links → x ∈ s.live) (a : Str) :
    Linked T (m.removeSubscriber a) (s.act (.leave a)) where
  wants uid := by
    have hw := h.wants uid
    rwa [target, removeSubscriber_mgr]
  live uid st := by
    rw [removeSubscriber_mgr]
    exact h.live uid st
  links x y st := by
    have hold := h.links x y st
    have hnew : s(x, y) ∈ (s.act (.leave a)).links ↔ s(x, y) ∈ s.links ∧
        ∀ b, s.wants a = some b → s(x, y) ≠ s(a, b) := Iff.rfl
    rw [subscriberOf_removeSubscriber, hnew, h.wants]
    cases hw : s.wants a with
    | none => simpa using hold
    | some b =>
        have hcond : (m.mgr.streams.lookup a = some (T x) ∧ y = b ∨
            m.mgr.streams.lookup b = some (T x) ∧ y = a) ↔
            a ∈ s.live ∧ x = a ∧ y = b ∨ b ∈ s.live ∧ x = b ∧ y = a := by
          rw [h.live, h.live, hT.eq_iff, hT.eq_iff, and_assoc, and_assoc]
        simp only [Option.some.injEq, forall_eq', ne_eq, Sym2.eq_iff]
        split
        · next hxy =>
            have hpair : x = a ∧ y = b ∨ x = b ∧ y = a :=
              (hcond.mp hxy).imp And.right And.right
            simp [hpair]
        · next hxy =>
            rw [hcond] at hxy
            have hout : s(x, y) ∈ s.links → ¬ (x = a ∧ y = b ∨ x = b ∧ y = a) := by
              rintro hl (⟨rfl, rfl⟩ | ⟨rfl, rfl⟩)
              · exact hxy (Or.inl ⟨hlive _ _ hl, rfl, rfl⟩)
              · exact hxy (Or.inr ⟨hlive _ _ hl, rfl, rfl⟩)
            rw [hold]
            constructor
            · rintro ⟨hl, rfl⟩
              exact ⟨⟨hl, hout hl⟩, rfl⟩
            · rintro ⟨⟨hl, -⟩, rfl⟩
              exact ⟨hl, rfl⟩

/-- **The manager refines the broker**, over every sequence of calls. -/
theorem Fresh.linked_calls (hT : Function.Injective T) (hm : m.Fresh)
    (cs : List StreamCall) :
    Linked T (m.calls T cs) (MutualLinks.after (cs.map StreamCall.abs)) := by
  induction cs using List.reverseRecOn with
  | nil => exact hm.linked
  | append_singleton cs c ih =>
      rw [calls, List.foldl_append, List.map_append, List.map_singleton,
        MutualLinks.after_snoc]
      cases c with
      | addSubscriber a b => exact ih.addSubscriber a b
      | addStream a => exact ih.addStream hT a
      | removeSubscriber a =>
          refine ih.removeSubscriber hT ?_ a
          intro x y hl
          exact (MutualLinks.links_live _ hl).1

/-- **Mutual links**: after any calls on a fresh manager the half links come in
pairs, lead to the right transport and were asked for. -/
theorem streamCalls_links (hT : Function.Injective T) (hm : m.Fresh)
    (cs : List StreamCall) :
    (∀ a b, (∃ st, (m.calls T cs).subscriberOf (T a) b = some st) ↔
      ∃ st, (m.calls T cs).subscriberOf (T b) a = some st) ∧
    (∀ a b st, (m.calls T cs).subscriberOf (T a) b = some st → st = T b) ∧
    (∀ a b st, (m.calls T cs).subscriberOf (T a) b = some st →
      .addSubscriber a b ∈ cs ∨ .addSubscriber b a ∈ cs) := by
  have hl := hm.linked_calls hT cs
  have hkey : ∀ a b, (∃ st, (m.calls T cs).subscriberOf (T a) b = some st) ↔
      s(a, b) ∈ (MutualLinks.after (cs.map StreamCall.abs)).links := by
    intro a b
    simp only [hl.links, exists_and_left, exists_eq, and_true]
  have hasked : ∀ a b, MutualLinks.Call.subscribe a b ∈ cs.map StreamCall.abs →
      .addSubscriber a b ∈ cs := by
    intro a b h
    obtain ⟨c, hc, heq⟩ := List.mem_map.mp h
    cases c <;> cases heq
    exact hc
  refine ⟨?_, ?_, ?_⟩
  · intro a b
    rw [hkey, hkey, Sym2.eq_swap]
  · intro a b st h
    exact ((hl.links a b st).mp h).2
  · intro a b st h
    exact (MutualLinks.links_asked _ ((hl.links a b st).mp h).1).imp
      (hasked a b) (hasked b a)

end Simulation

/-- One transport for each uid. -/
def transportOf (uid : Str) : TransportId := Encodable.encode (uid.map UInt8.toNat)

theorem transportOf_injective : Function.Injective transportOf :=
  Encodable.encode_injective.comp
    (List.map_injective_iff.mpr fun _ _ h => UInt8.toNat_inj.mp h)

/-- A pull of `a` by `b`, and both streams arriving. -/
theorem streamCalls_links_pull :
    let m : Media := { transports := fun _ => { udp := 0, addr := ⟨0, 0⟩ } }
    let cs := [.addSubscriber (str "b") (str "a"), .addStream (str "a"), .addStream (str "b")]
    let m := m.calls transportOf cs
    m.subscriberOf (transportOf (str "a")) (str "b") = some (transportOf (str "b")) ∧
      (∀ a b, (∃ st, m.subscriberOf (transportOf a) b = some st) ↔
        ∃ st, m.subscriberOf (transportOf b) a = some st) ∧
      (∀ a b st, m.subscriberOf (transportOf a) b = some st → st = transportOf b) ∧
      ∀ a b st, m.subscriberOf (transportOf a) b = some st →
        .addSubscriber a b ∈ cs ∨ .addSubscriber b a ∈ cs :=
  ⟨by decide +kernel, streamCalls_links transportOf_injective ⟨rfl, fun _ _ => rfl⟩ _⟩

end Media

end JuanSfu
