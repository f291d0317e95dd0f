import JuanSfu.Safety.CurrentPulls

/-!
# Subscriptions and the order of arrival

A pull, the first packet of the puller and the first packet of its target reach
the manager in any order. Only `add_stream` makes links, and only for what the
newcomer has pulled itself: a target that comes last is linked to nobody.
-/

namespace JuanSfu

namespace Media

def StreamCall.puller : StreamCall → Option Str
  | .addSubscriber uid _ => some uid
  | _ => none

/-- Subscriptions and streams only, and at most one subscription of each uid. -/
structure ArrivalsOnly (cs : List StreamCall) : Prop where
  stays (uid : Str) : .removeSubscriber uid ∉ cs
  once : (cs.filterMap StreamCall.puller).Nodup

/-- Every uid with a stream is linked, from both sides, to the stream of the uid
it pulls, if there is one. -/
def AllLinked (m : Media) : Prop :=
  ∀ u t su st, m.target u = some t → m.mgr.streams.lookup u = some su →
    m.mgr.streams.lookup t = some st →
      m.subscriberOf st u = some su ∧ m.subscriberOf su t = some st

/-- A stream of `u` arrives after `u` has pulled `t`, and not before a stream of `t`. -/
def LinksOnArrival (cs : List StreamCall) (u t : Str) : Prop :=
  ∃ before, before ++ [.addStream u] <+: cs ∧ .addSubscriber u t ∈ before ∧
    (t = u ∨ .addStream t ∈ before)

/-- Of two uids that have streams, the one pulling the other, one links on arrival. -/
def ArriveInOrder (cs : List StreamCall) : Prop :=
  ∀ u t, .addSubscriber u t ∈ cs → .addStream u ∈ cs → .addStream t ∈ cs →
    LinksOnArrival cs u t ∨ LinksOnArrival cs t u

/-! ## The calls of the broker -/

theorem StreamCall.abs_injective : Function.Injective StreamCall.abs := by
  rintro (⟨a, b⟩ | a | a) (⟨c, d⟩ | c | c) h <;> cases h <;> rfl

variable {T : Str → TransportId} {m : Media} {cs cs' : List StreamCall} {u t : Str}

theorem mem_map_abs {c : StreamCall} : c.abs ∈ cs.map StreamCall.abs ↔ c ∈ cs :=
  List.mem_map_of_injective StreamCall.abs_injective

theorem ArrivalsOnly.abs (h : ArrivalsOnly cs) :
    MutualLinks.Arrivals (cs.map StreamCall.abs) where
  stays uid hl := h.stays uid (mem_map_abs.mp hl)
  once := by
    have hpuller : MutualLinks.Call.subscriber ∘ StreamCall.abs = StreamCall.puller := by
      ext c : 1
      cases c <;> rfl
    rw [List.filterMap_map, hpuller]
    exact h.once

theorem linksOnArrival_iff :
    LinksOnArrival cs u t ↔ MutualLinks.Meets (cs.map StreamCall.abs) u t := by
  have hsub : ∀ before : List StreamCall, .addSubscriber u t ∈ before ↔
      .subscribe u t ∈ before.map StreamCall.abs := fun _ => mem_map_abs.symm
  have hreg : ∀ before : List StreamCall, .addStream t ∈ before ↔
      .register t ∈ before.map StreamCall.abs := fun _ => mem_map_abs.symm
  constructor
  · rintro ⟨before, hpre, hs, hr⟩
    refine ⟨before.map StreamCall.abs, ?_, (hsub before).mp hs, hr.imp_right (hreg before).mp⟩
    have hmap := hpre.map StreamCall.abs
    rwa [List.map_append] at hmap
  · rintro ⟨before, ⟨post, hpre⟩, hs, hr⟩
    obtain ⟨front, back, rfl, hfront, hback⟩ := List.append_eq_map_iff.mp hpre
    obtain ⟨before', last, rfl, rfl, hlast⟩ := List.append_eq_map_iff.mp hfront.symm
    obtain ⟨c, rfl, hc⟩ := List.map_eq_singleton_iff.mp hlast
    obtain rfl := StreamCall.abs_injective (hc.trans (rfl : _ = StreamCall.abs (.addStream u)))
    exact ⟨before', ⟨back, rfl⟩, (hsub before').mpr hs, hr.imp_right (hreg before').mpr⟩

theorem arriveInOrder_iff :
    ArriveInOrder cs ↔ MutualLinks.InOrder (cs.map StreamCall.abs) := by
  have hsub : ∀ u t, .addSubscriber u t ∈ cs ↔ .subscribe u t ∈ cs.map StreamCall.abs :=
    fun _ _ => mem_map_abs.symm
  have hreg : ∀ u, .addStream u ∈ cs ↔ .register u ∈ cs.map StreamCall.abs :=
    fun _ => mem_map_abs.symm
  simp only [ArriveInOrder, MutualLinks.InOrder, hsub, hreg, linksOnArrival_iff]

theorem Linked.complete_iff {s : MutualLinks.State Str} (h : Linked T m s) :
    m.AllLinked ↔ s.Complete := by
  constructor
  · intro hm a b hw ha hb
    have hlinks := hm a b (T a) (T b) ((h.wants a).trans hw) ((h.live a _).mpr ⟨ha, rfl⟩)
      ((h.live b _).mpr ⟨hb, rfl⟩)
    exact ((h.links a b (T b)).mp hlinks.2).1
  · intro hs u t su st hw hu ht
    obtain ⟨hlu, rfl⟩ := (h.live u su).mp hu
    obtain ⟨hlt, rfl⟩ := (h.live t st).mp ht
    have hl := hs u t ((h.wants u).symm.trans hw) hlu hlt
    refine ⟨(h.links t u (T u)).mpr ⟨?_, rfl⟩, (h.links u t (T t)).mpr ⟨hl, rfl⟩⟩
    rwa [Sym2.eq_swap]

/-- The half links of two managers whose uids have the same transports. -/
def SameLinks (T : Str → TransportId) (m m' : Media) : Prop :=
  ∀ a b, m'.subscriberOf (T a) b = m.subscriberOf (T a) b

theorem Linked.sameLinks_iff {m' : Media} {s s' : MutualLinks.State Str} (h : Linked T m s)
    (h' : Linked T m' s') : SameLinks T m m' ↔ s'.links = s.links := by
  constructor
  · intro hsame
    ext l
    induction l using Sym2.inductionOn with
    | hf a b =>
        have hl := h.links a b (T b)
        rw [← hsame a b, h'.links] at hl
        simpa using hl
  · intro hsame a b
    ext st
    rw [h'.links, h.links, hsame]

/-! ## Which orders are good -/

/-- **When no subscription is lost**: after subscriptions and streams in any
order, everyone is linked to whom he pulls if and only if of any two such uids
one links on arrival; and the same calls in another order make the same links
if and only if that holds of the other order as well. -/
theorem allLinked_iff (hT : Function.Injective T) (hm : m.Fresh) (hcs : ArrivalsOnly cs) :
    ((m.calls T cs).AllLinked ↔ ArriveInOrder cs) ∧
      ∀ cs', cs'.Perm cs → ArriveInOrder cs →
        (SameLinks T (m.calls T cs) (m.calls T cs') ↔ ArriveInOrder cs') := by
  have hlinked := hm.linked_calls hT cs
  refine ⟨?_, ?_⟩
  · rw [hlinked.complete_iff, hcs.abs.complete_iff, arriveInOrder_iff]
  · intro cs' hp hin
    rw [hlinked.sameLinks_iff (hm.linked_calls hT cs'), arriveInOrder_iff]
    exact hcs.abs.links_eq_iff (arriveInOrder_iff.mp hin) (hp.map _)

/-- `b` pulls `a`, then `a` sends its first packet and `b` its own. -/
def pullerLast : List StreamCall :=
  [.addSubscriber (str "b") (str "a"), .addStream (str "a"), .addStream (str "b")]

theorem allLinked_iff_pullerLast : (quiet.calls transportOf pullerLast).AllLinked := by
  have hcs : ArrivalsOnly pullerLast := ⟨by simp [pullerLast], by decide⟩
  refine (allLinked_iff transportOf_injective quiet_fresh hcs).1.mpr ?_
  intro u t hsub _ _
  simp only [pullerLast, List.mem_cons, StreamCall.addSubscriber.injEq, reduceCtorEq,
    List.not_mem_nil, or_false] at hsub
  obtain ⟨rfl, rfl⟩ := hsub
  exact Or.inl ⟨[.addSubscriber _ _, .addStream _], List.prefix_rfl, by simp, by simp⟩

/-- The same with the packet of `a` last: both have streams, and no links. -/
theorem target_last_unlinked :
    ArrivalsOnly [.addSubscriber (str "b") (str "a"), .addStream (str "b"),
        .addStream (str "a")] ∧
      ¬ (quiet.calls transportOf [.addSubscriber (str "b") (str "a"), .addStream (str "b"),
        .addStream (str "a")]).AllLinked := by
  refine ⟨⟨by simp, by decide⟩, ?_⟩
  intro h
  have hlink := (h (str "b") (str "a") (transportOf (str "b")) (transportOf (str "a"))
    (by decide) (by decide) (by decide)).1
  revert hlink
  decide

end Media

end JuanSfu
