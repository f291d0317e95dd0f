import Mathlib.Algebra.Order.Group.Multiset
import JuanSfu.Lib.Lts

/-!
# An allocator as a pool

What an allocator of distinct resources is for, whatever it stores them in:
some resources are free, the others are out, taking moves one over and giving
moves it back. A request finds nothing exactly when nothing is free. No order
among the free resources is promised.

A concrete allocator refines `Pool.spec` when its free resources, read as a
multiset, follow these steps; `conserved`, `take_fresh` and `exhausted_iff`
are then facts about the concrete one.
-/

namespace Pool

open Lts

variable {α : Type*} [DecidableEq α] {whole : Multiset α}

structure State (α : Type*) where
  free : Multiset α
  out : Multiset α

inductive Call (α : Type*) where
  | take (a : α)
  | refused
  | give (a : α)

/-- One call and its result. -/
inductive Step : State α → Call α → State α → Prop where
  | take {p : State α} {a : α} (h : a ∈ p.free) :
      Step p (.take a) ⟨p.free.erase a, a ::ₘ p.out⟩
  | refused {p : State α} (h : p.free = 0) : Step p .refused p
  | give {p : State α} {a : α} (h : a ∈ p.out) :
      Step p (.give a) ⟨a ::ₘ p.free, p.out.erase a⟩

/-- The pool of the resources `whole`, all of them free at the start. -/
def spec (whole : Multiset α) : System (State α) (Call α) where
  init p := p = ⟨whole, 0⟩
  step := Step

/-- **Conservation.** Free and out together are always the whole pool. -/
theorem conserved {p : State α} (r : Reachable (spec whole) p) :
    p.free + p.out = whole := by
  refine r.invariant (P := fun p => p.free + p.out = whole) ?_ ?_
  · rintro p rfl
    simp
  · rintro p c p' - ih h
    cases h with
    | take h =>
        rw [Multiset.add_cons, ← Multiset.cons_add, Multiset.cons_erase h, ih]
    | refused h => exact ih
    | give h =>
        rw [Multiset.cons_add, ← Multiset.add_cons, Multiset.cons_erase h, ih]

theorem mem_whole_of_free {p : State α} (r : Reachable (spec whole) p) {a : α}
    (h : a ∈ p.free) : a ∈ whole := by
  rw [← conserved r]
  exact Multiset.mem_add.mpr (Or.inl h)

theorem mem_whole_of_out {p : State α} (r : Reachable (spec whole) p) {a : α}
    (h : a ∈ p.out) : a ∈ whole := by
  rw [← conserved r]
  exact Multiset.mem_add.mpr (Or.inr h)

/-- **No resource is out twice**: what a call may take is not already out. -/
theorem take_fresh {p : State α} (r : Reachable (spec whole) p)
    (hnd : whole.Nodup) {a : α} (h : a ∈ p.free) : a ∉ p.out := by
  rw [← conserved r] at hnd
  exact fun ho => Multiset.disjoint_left.mp
    (Multiset.nodup_add.mp hnd).2.2 h ho

/-- A request is refused exactly when every resource is out. -/
theorem exhausted_iff {p : State α} (r : Reachable (spec whole) p) :
    p.free = 0 ↔ p.out = whole := by
  have hc := conserved r
  constructor
  · intro h
    rwa [h, zero_add] at hc
  · intro h
    rw [h, ← zero_add whole, ← add_assoc, add_zero] at hc
    exact Multiset.add_left_inj.mp hc

end Pool
