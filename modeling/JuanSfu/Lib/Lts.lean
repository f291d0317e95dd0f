import Mathlib.Logic.Relation

/-!
# Labelled transition systems and their runs

A run is recorded step by step, so that a law can speak about the states it
visits and about the guard each of its steps meets. Three facts carry every
run-level result built on this file:

- `Reachable.invariant`: an inductive invariant holds of every reachable state.
- `Run.of_guarded`: an invariant preserved by the steps that meet a guard
  holds along every run whose steps all meet it.
- `Run.visits_iff_guarded`: when a guard is *exact* (a step from a good state
  ends in a good state iff it meets the guard), a run visits good states only
  iff all its steps meet the guard.

`System.withHistory` adds a history variable, which restricts no run, and
`System.startingAt` starts the runs in a state of one's choice.
-/

namespace Lts

/-- Where a run starts and what one labelled step may do. -/
structure System (σ ε : Type*) where
  init : σ → Prop
  step : σ → ε → σ → Prop

variable {σ ε γ : Type*} {S : System σ ε}

/-- A run with its steps, latest first: the state before and the label. -/
inductive Run (S : System σ ε) : List (σ × ε) → σ → Prop where
  | start {s : σ} (h : S.init s) : Run S [] s
  | snoc {tr : List (σ × ε)} {s s' : σ} {e : ε} (r : Run S tr s)
      (h : S.step s e s') : Run S ((s, e) :: tr) s'

def Reachable (S : System σ ε) (s : σ) : Prop := ∃ tr, Run S tr s

theorem Run.reachable {tr : List (σ × ε)} {s : σ} (r : Run S tr s) :
    Reachable S s := ⟨tr, r⟩

theorem Reachable.start {s : σ} (h : S.init s) : Reachable S s :=
  ⟨[], .start h⟩

theorem Reachable.snoc {s s' : σ} {e : ε} (r : Reachable S s)
    (h : S.step s e s') : Reachable S s' := by
  obtain ⟨tr, r⟩ := r
  exact ⟨(s, e) :: tr, r.snoc h⟩

/-- What has led to a step of a run is a run. -/
theorem Run.before {tr : List (σ × ε)} {s : σ} (r : Run S tr s) {p : σ × ε} (hp : p ∈ tr) :
    ∃ tr', Run S tr' p.1 ∧ tr' ⊆ tr := by
  induction r with
  | start h => simp at hp
  | snoc r h ih =>
      rcases List.mem_cons.mp hp with rfl | hp
      · exact ⟨_, r, List.subset_cons_self ..⟩
      · obtain ⟨tr', r', hsub⟩ := ih hp
        exact ⟨tr', r', List.Subset.trans hsub (List.subset_cons_self ..)⟩

/-! ## Invariants -/

/-- **An inductive invariant holds of every reachable state.** The step may
use that the state it leaves is reachable. -/
theorem Reachable.invariant {P : σ → Prop} (h0 : ∀ s, S.init s → P s)
    (hstep : ∀ s e s', Reachable S s → P s → S.step s e s' → P s')
    {s : σ} (r : Reachable S s) : P s := by
  obtain ⟨tr, r⟩ := r
  induction r with
  | start h => exact h0 _ h
  | snoc r h ih => exact hstep _ _ _ r.reachable ih h

/-- Every step of the run meets the guard. -/
def Guarded (C : σ → ε → Prop) (tr : List (σ × ε)) : Prop :=
  ∀ p ∈ tr, C p.1 p.2

/-- Every state of the run, the last one included, is good. -/
def Visits (P : σ → Prop) (tr : List (σ × ε)) (s : σ) : Prop :=
  P s ∧ ∀ p ∈ tr, P p.1

theorem Guarded.tail {C : σ → ε → Prop} {p : σ × ε} {tr : List (σ × ε)}
    (h : Guarded C (p :: tr)) : Guarded C tr :=
  fun q hq => h q (List.mem_cons_of_mem _ hq)

theorem guarded_cons {C : σ → ε → Prop} {p : σ × ε} {tr : List (σ × ε)} :
    Guarded C (p :: tr) ↔ C p.1 p.2 ∧ Guarded C tr := by
  simp [Guarded]

theorem visits_cons {P : σ → Prop} {s s' : σ} {e : ε} {tr : List (σ × ε)} :
    Visits P ((s, e) :: tr) s' ↔ P s' ∧ Visits P tr s := by
  simp [Visits]

/-- An invariant preserved by the steps that meet a guard holds at the end of
every run whose steps all meet it. -/
theorem Run.of_guarded {C : σ → ε → Prop} {P : σ → Prop}
    (h0 : ∀ s, S.init s → P s)
    (hstep : ∀ s e s', P s → C s e → S.step s e s' → P s')
    {tr : List (σ × ε)} {s : σ} (r : Run S tr s) (hg : Guarded C tr) : P s := by
  induction r with
  | start h => exact h0 _ h
  | snoc r h ih =>
      rw [guarded_cons] at hg
      exact hstep _ _ _ (ih hg.2) hg.1 h

/-- The same invariant holds before every step of the run. -/
theorem Run.of_guarded_mem {C : σ → ε → Prop} {P : σ → Prop}
    (h0 : ∀ s, S.init s → P s)
    (hstep : ∀ s e s', P s → C s e → S.step s e s' → P s')
    {tr : List (σ × ε)} {s : σ} (r : Run S tr s) (hg : Guarded C tr)
    {p : σ × ε} (hp : p ∈ tr) : P p.1 := by
  induction r with
  | start h => simp at hp
  | snoc r h ih =>
      rw [guarded_cons] at hg
      rcases List.mem_cons.mp hp with rfl | hp
      · exact r.of_guarded h0 hstep hg.2
      · exact ih hg.2 hp

/-- **Exact guards.** `I` is the invariant of the guarded runs and `P` the law
it implies; if a step that leaves the guard also leaves the law, then the runs
that visit lawful states only are exactly the guarded ones. -/
theorem Run.visits_iff_guarded {C : σ → ε → Prop} {I P : σ → Prop}
    (h0 : ∀ s, S.init s → I s) (hP : ∀ s, I s → P s)
    (hgo : ∀ s e s', I s → C s e → S.step s e s' → I s')
    (hback : ∀ s e s', I s → S.step s e s' → P s' → C s e)
    {tr : List (σ × ε)} {s : σ} (r : Run S tr s) :
    Visits P tr s ↔ Guarded C tr := by
  constructor
  · intro hv
    induction r with
    | start h => intro p hp; simp at hp
    | snoc r h ih =>
        rw [visits_cons] at hv
        have hg := ih hv.2
        exact guarded_cons.mpr ⟨hback _ _ _ (r.of_guarded h0 hgo hg) h hv.1, hg⟩
  · intro hg
    exact ⟨hP _ (r.of_guarded h0 hgo hg),
      fun p hp => hP _ (r.of_guarded_mem h0 hgo hg hp)⟩

/-- What every guarded step from a state of the invariant does, every step of a
guarded run does. -/
theorem Run.guarded_of {C F : σ → ε → Prop} {I : σ → Prop}
    (h0 : ∀ s, S.init s → I s)
    (hgo : ∀ s e s', I s → C s e → S.step s e s' → I s')
    (hF : ∀ s e s', I s → C s e → S.step s e s' → F s e)
    {tr : List (σ × ε)} {s : σ} (r : Run S tr s) (hg : Guarded C tr) : Guarded F tr := by
  induction r with
  | start h => intro p hp; simp at hp
  | snoc r h ih =>
      rw [guarded_cons] at hg ⊢
      exact ⟨hF _ _ _ (r.of_guarded h0 hgo hg.2) hg.1 h, ih hg.2⟩

/-- What implies a guard at every step from a reachable state implies it on runs. -/
theorem Run.guarded_imp {C F : σ → ε → Prop}
    (h : ∀ s e s', Reachable S s → S.step s e s' → F s e → C s e)
    {tr : List (σ × ε)} {s : σ} (r : Run S tr s) (hF : Guarded F tr) : Guarded C tr := by
  induction r with
  | start _ => intro p hp; simp at hp
  | snoc r hstep ih =>
      rw [guarded_cons] at hF ⊢
      exact ⟨h _ _ _ r.reachable hstep hF.1, ih hF.2⟩

/-- Guards that agree at every step from a reachable state agree on runs. -/
theorem Run.guarded_congr {C F : σ → ε → Prop}
    (h : ∀ s e s', Reachable S s → S.step s e s' → (F s e ↔ C s e))
    {tr : List (σ × ε)} {s : σ} (r : Run S tr s) : Guarded F tr ↔ Guarded C tr :=
  ⟨r.guarded_imp fun s e s' hr hstep => (h s e s' hr hstep).mp,
    r.guarded_imp fun s e s' hr hstep => (h s e s' hr hstep).mpr⟩

/-! ## The newest step of a kind -/

/-- The step `p` is the newest one of this kind. -/
def Latest (P : σ × ε → Prop) (tr : List (σ × ε)) (p : σ × ε) : Prop :=
  ∃ newer older, tr = newer ++ p :: older ∧ P p ∧ ∀ q ∈ newer, ¬ P q

theorem Latest.head {P : σ × ε → Prop} {tr : List (σ × ε)} {p : σ × ε} (h : P p) :
    Latest P (p :: tr) p := ⟨[], tr, rfl, h, nofun⟩

theorem Latest.cons {P : σ × ε → Prop} {tr : List (σ × ε)} {p q : σ × ε} (h : Latest P tr p)
    (hq : ¬ P q) : Latest P (q :: tr) p := by
  obtain ⟨newer, older, rfl, hp, hnewer⟩ := h
  refine ⟨q :: newer, older, rfl, hp, ?_⟩
  intro q' hq'
  rcases List.mem_cons.mp hq' with rfl | hq'
  · exact hq
  · exact hnewer q' hq'

/-! ## Refinement -/

/-- Under an abstraction function that takes every step to a step, what is
reachable stays reachable. -/
theorem Reachable.map {α δ : Type*} {A : System α δ} {abs : σ → α}
    (hinit : ∀ s, S.init s → A.init (abs s))
    (hstep : ∀ s e s', Reachable S s → S.step s e s' → ∃ d, A.step (abs s) d (abs s'))
    {s : σ} (r : Reachable S s) : Reachable A (abs s) := by
  refine r.invariant (P := fun s => Reachable A (abs s)) ?_ ?_
  · exact fun s h => .start (hinit s h)
  · intro s e s' hr ih h
    obtain ⟨d, hd⟩ := hstep s e s' hr h
    exact ih.snoc hd

/-! ## Runs from a later state -/

/-- The same system, started in a given state. -/
def System.startingAt (S : System σ ε) (s₀ : σ) : System σ ε where
  init s := s = s₀
  step := S.step

theorem Reachable.of_startingAt {s₀ s : σ} (h : Reachable S s₀)
    (r : Reachable (S.startingAt s₀) s) : Reachable S s := by
  refine r.invariant (P := Reachable S) ?_ ?_
  · rintro s rfl
    exact h
  · exact fun s e s' _ ih hstep => ih.snoc hstep

/-! ## Fewer events -/

/-- The same system when only some of the events happen. -/
def System.restrict (S : System σ ε) (E : ε → Prop) : System σ ε where
  init := S.init
  step s e s' := E e ∧ S.step s e s'

theorem Run.of_restrict {E : ε → Prop} {tr : List (σ × ε)} {s : σ}
    (r : Run (S.restrict E) tr s) : Run S tr s := by
  induction r with
  | start h => exact .start h
  | snoc r h ih => exact ih.snoc h.2

theorem Reachable.of_restrict {E : ε → Prop} {s : σ} (r : Reachable (S.restrict E) s) :
    Reachable S s := by
  obtain ⟨tr, r⟩ := r
  exact ⟨tr, r.of_restrict⟩

/-! ## History variables -/

/-- The same system with a variable that records what has happened. -/
def System.withHistory (S : System σ ε) (g₀ : γ) (upd : γ → ε → γ) :
    System (σ × γ) ε where
  init p := S.init p.1 ∧ p.2 = g₀
  step p e q := S.step p.1 e q.1 ∧ q.2 = upd p.2 e

/-- A run of the system with a history is a run of the system. -/
theorem Reachable.of_history {g₀ : γ} {upd : γ → ε → γ} {p : σ × γ}
    (r : Reachable (S.withHistory g₀ upd) p) : Reachable S p.1 := by
  refine Reachable.invariant (P := fun p => Reachable S p.1) ?_ ?_ r
  · exact fun q (h : S.init q.1 ∧ _) => .start h.1
  · exact fun q e q' _ ih (h : S.step q.1 e q'.1 ∧ _) => ih.snoc h.1

/-- Leaving events out of a system leaves them out of it with its history. -/
theorem Reachable.of_restrict_history {E : ε → Prop} {g₀ : γ} {upd : γ → ε → γ} {p : σ × γ}
    (r : Reachable ((S.restrict E).withHistory g₀ upd) p) :
    Reachable (S.withHistory g₀ upd) p := by
  refine Reachable.invariant (P := fun p => Reachable (S.withHistory g₀ upd) p) ?_ ?_ r
  · exact fun q h => .start h
  · rintro q e q' - ih ⟨⟨-, hstep⟩, hg⟩
    exact ih.snoc ⟨hstep, hg⟩

end Lts
