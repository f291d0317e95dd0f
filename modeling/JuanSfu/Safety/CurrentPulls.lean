import JuanSfu.Lib.Lts
import JuanSfu.Udp.RtcStreamMgr

/-!
# A new pull and the links of the old one

`add_subscriber` overwrites the one record of what a uid pulled. The links that
were made for it live in the transports and stay, unless `remove_subscriber` has
undone them before. Which calls leave such a link behind is decided on the
unordered links of the broker and carried over to the half links.
-/

namespace JuanSfu

namespace Media

/-- Calls in any order on a manager without any subscription or stream, each uid
with its own transport. -/
def streamSystem (T : Str → TransportId) : Lts.System Media StreamCall where
  init := Fresh
  step m c m' := m' = m.call T c

/-- Whoever gets the packets of `a` pulls `a`, or is pulled by `a`, now. -/
def OnlyCurrent (T : Str → TransportId) (m : Media) : Prop :=
  ∀ a b st, m.subscriberOf (T a) b = some st → m.target b = some a ∨ m.target a = some b

/-- When `b` turns to `c`, every other uid whose packets go to `b` is not `b`
itself and pulls `b`. -/
def LeavesNoLink (T : Str → TransportId) (m : Media) : StreamCall → Prop
  | .addSubscriber b c =>
      ∀ a st, m.subscriberOf (T a) b = some st → a ≠ c → a ≠ b ∧ m.target a = some b
  | _ => True

section Simulation

variable {T : Str → TransportId} {m : Media} {s : MutualLinks.State Str}

theorem Linked.current_iff (h : Linked T m s) : OnlyCurrent T m ↔ s.Current := by
  constructor
  · intro hm a b hl
    have hcur := hm b a (T a) ((h.links b a (T a)).mpr ⟨by rwa [Sym2.eq_swap], rfl⟩)
    rwa [h.wants, h.wants] at hcur
  · intro hs a b st hst
    have hl := ((h.links a b st).mp hst).1
    rw [h.wants, h.wants, or_comm]
    exact hs a b hl

theorem Linked.leavesNoLink_iff (h : Linked T m s) (c : StreamCall) :
    LeavesNoLink T m c ↔ s.Replaces c.abs := by
  cases c with
  | addSubscriber b c =>
      constructor
      · intro hm a hl
        rw [← h.wants]
        exact hm a (T b) ((h.links a b (T b)).mpr ⟨by rwa [Sym2.eq_swap], rfl⟩)
      · intro hs a st hst
        have hl := ((h.links a b st).mp hst).1
        rw [Sym2.eq_swap] at hl
        rw [h.wants]
        exact hs a hl
  | addStream a => exact Iff.rfl
  | removeSubscriber a => exact Iff.rfl

/-- The broker follows every call. -/
theorem Linked.call (hT : Function.Injective T) {calls : List (MutualLinks.Call Str)}
    (h : Linked T m (MutualLinks.after calls)) (c : StreamCall) :
    Linked T (m.call T c) (MutualLinks.after (calls ++ [c.abs])) := by
  rw [MutualLinks.after_snoc]
  cases c with
  | addSubscriber a b => exact h.addSubscriber a b
  | addStream a => exact h.addStream hT a
  | removeSubscriber a =>
      refine h.removeSubscriber hT ?_ a
      intro x y hl
      exact (MutualLinks.links_live _ hl).1

end Simulation

/-- **Which pulls replace the old one**: in a sequence of calls all links are
wanted at all times if and only if every `add_subscriber` finds no link that
only the old pull accounts for. -/
theorem onlyCurrent_iff {T : Str → TransportId} (hT : Function.Injective T)
    {tr : List (Media × StreamCall)} {m : Media} (r : Lts.Run (streamSystem T) tr m) :
    Lts.Visits (OnlyCurrent T) tr m ↔ Lts.Guarded (LeavesNoLink T) tr := by
  refine r.visits_iff_guarded (I := fun m => ∃ calls, Linked T m (MutualLinks.after calls) ∧
    (MutualLinks.after calls).Current) ?_ ?_ ?_ ?_
  · intro m hm
    refine ⟨[], hm.linked, ?_⟩
    intro a b hl
    exact absurd hl (Set.notMem_empty _)
  · rintro m ⟨calls, hl, hcur⟩
    exact hl.current_iff.mpr hcur
  · rintro m c m' ⟨calls, hl, hcur⟩ hc rfl
    refine ⟨calls ++ [c.abs], hl.call hT c, ?_⟩
    rw [MutualLinks.after_snoc, hcur.act_iff]
    exact (hl.leavesNoLink_iff c).mp hc
  · rintro m c m' ⟨calls, hl, hcur⟩ rfl hm'
    rw [hl.leavesNoLink_iff, ← hcur.act_iff, ← MutualLinks.after_snoc]
    exact (hl.call hT c).current_iff.mp hm'

/-- The calls one after the other, as a run. -/
theorem run_calls {T : Str → TransportId} {m : Media} (hm : m.Fresh) (cs : List StreamCall) :
    ∃ tr, Lts.Run (streamSystem T) tr (m.calls T cs) ∧ tr.map (·.2) = cs.reverse := by
  induction cs using List.reverseRecOn with
  | nil => exact ⟨[], .start hm, rfl⟩
  | append_singleton cs c ih =>
      obtain ⟨tr, r, htr⟩ := ih
      refine ⟨(m.calls T cs, c) :: tr, ?_, ?_⟩
      · refine r.snoc ?_
        show m.calls T (cs ++ [c]) = (m.calls T cs).call T c
        rw [calls, List.foldl_append]
        rfl
      · rw [List.map_cons, htr, List.reverse_append]
        rfl

/-- A manager nobody has called. -/
def quiet : Media := { transports := fun _ => { udp := 0, addr := ⟨0, 0⟩ } }

theorem quiet_fresh : quiet.Fresh := ⟨rfl, fun _ _ => rfl⟩

/-- `b` pulls `a`, both streams arrive, and `b` goes on to pull `c`. -/
def pullTwice : List StreamCall :=
  [.addSubscriber (str "b") (str "a"), .addStream (str "a"), .addStream (str "b"),
    .addSubscriber (str "b") (str "c")]

theorem onlyCurrent_iff_pullTwice :
    ∃ tr m, tr.map (·.2) = pullTwice.reverse ∧
      (Lts.Visits (OnlyCurrent transportOf) tr m ↔
        Lts.Guarded (LeavesNoLink transportOf) tr) := by
  obtain ⟨tr, r, htr⟩ := run_calls (T := transportOf) quiet_fresh pullTwice
  exact ⟨tr, _, htr, onlyCurrent_iff transportOf_injective r⟩

/-- The packets of `a` still go to `b`, though neither pulls the other. -/
theorem old_pull_stays :
    Lts.Reachable (streamSystem transportOf) (quiet.calls transportOf pullTwice) ∧
    ¬ OnlyCurrent transportOf (quiet.calls transportOf pullTwice) := by
  constructor
  · obtain ⟨tr, r, -⟩ := run_calls (T := transportOf) quiet_fresh pullTwice
    exact r.reachable
  · intro h
    have hlink := h (str "a") (str "b") (transportOf (str "b")) (by decide)
    revert hlink
    decide

end Media

end JuanSfu
