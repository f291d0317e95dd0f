import Mathlib.Logic.Function.Basic

/-!
# Objects that are called

An object is a state and what each call makes of it. One object behaves as another when
an abstraction function takes its state to that of the other after every call, and the
results are the same; this much is needed only while an invariant of the object holds.
What is shown of single calls then holds of every sequence of calls.
-/

/-- What a call does: the state afterwards, and the result. -/
structure Machine (σ ι ο : Type*) where
  call : σ → ι → σ × ο

namespace Machine

variable {σ τ ι ο : Type*} {M : Machine σ ι ο} {N : Machine τ ι ο}

/-- The calls one after the other, and their results. -/
def run (M : Machine σ ι ο) (s : σ) : List ι → σ × List ο
  | [] => (s, [])
  | i :: is => ((M.run (M.call s i).1 is).1, (M.call s i).2 :: (M.run (M.call s i).1 is).2)

/-- `M` behaves as `N`, seen through `abs`, as long as `inv` holds; and it keeps holding. -/
structure Refines (M : Machine σ ι ο) (N : Machine τ ι ο) (inv : σ → Prop) (abs : σ → τ) :
    Prop where
  keeps (s : σ) (i : ι) (h : inv s) : inv (M.call s i).1
  state (s : σ) (i : ι) (h : inv s) : (N.call (abs s) i).1 = abs (M.call s i).1
  result (s : σ) (i : ι) (h : inv s) : (N.call (abs s) i).2 = (M.call s i).2

namespace Refines

variable {inv : σ → Prop} {abs : σ → τ}

theorem run_keeps (h : M.Refines N inv abs) {s : σ} (hs : inv s) (is : List ι) :
    inv (M.run s is).1 := by
  induction is generalizing s with
  | nil => exact hs
  | cons i is ih => exact ih (h.keeps s i hs)

/-- **Every sequence of calls** has the results that it has with the other object. -/
theorem run_eq (h : M.Refines N inv abs) {s : σ} (hs : inv s) (is : List ι) :
    N.run (abs s) is = (abs (M.run s is).1, (M.run s is).2) := by
  induction is generalizing s with
  | nil => rfl
  | cons i is ih =>
    rw [run, run, h.state s i hs, h.result s i hs, ih (h.keeps s i hs)]

end Refines

end Machine
