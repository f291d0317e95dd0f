import JuanSfu.Lib.Lts
import Mathlib.Data.Nat.Notation
import Mathlib.Logic.Function.Basic
import Mathlib.Order.Basic

/-!
# Wiring: the endpoints of named parties

A party has a name, which others may have too. It opens endpoints, numbered and
never given out again, and registers one under its name; the registration links
that endpoint with the one registered for the name it subscribes to, each under
the other's name. What arrives at an endpoint goes out at the endpoints linked
with it. A party that leaves keeps nothing, but the registry only undoes the
link with the name it subscribes to.

Two laws are studied, each with the exact condition on the step that can break
it: `Tidy`, nothing leads to an endpoint of a party that left (`tidy_part_iff`),
and `Confined`, links stay within groups of parties (`confined_register_iff`).
-/

namespace Wiring

variable {P U R : Type*} [DecidableEq U]

@[ext]
structure State (P U : Type*) where
  owns : P → ℕ → Prop
  streams : U → Option ℕ
  target : U → Option U
  subs : ℕ → U → Option ℕ
  next : ℕ

namespace State

/-- Nobody owns anything and nothing is linked. -/
def empty : State P U where
  owns _ _ := False
  streams _ := none
  target _ := none
  subs _ _ := none
  next := 0

def subscribe (w : State P U) (u t : U) : State P U :=
  { w with target := Function.update w.target u (some t) }

/-- A new endpoint for `p`, linked with nothing. -/
def openFor (w : State P U) (p : P) : State P U :=
  { w with
    owns := fun q x => w.owns q x ∨ q = p ∧ x = w.next
    subs := Function.update w.subs w.next fun _ => none
    next := w.next + 1 }

/-- The target of `u` and the endpoint registered for it, once `st` is
registered for `u`. -/
def peerOf (w : State P U) (u : U) (st : ℕ) : Option (U × ℕ) :=
  (w.target u).bind fun t => (Function.update w.streams u (some st) t).map (t, ·)

def register (w : State P U) (u : U) (st : ℕ) : State P U :=
  { w with
    streams := Function.update w.streams u (some st)
    subs := fun x v =>
      match w.peerOf u st with
      | none => w.subs x v
      | some (t, peer) =>
          if x = st ∧ v = t then some peer
          else if x = peer ∧ v = u then some st else w.subs x v }

/-- `p`, whose name is `u`, leaves. -/
def part (w : State P U) (p : P) (u : U) : State P U :=
  { w with
    owns := fun q x => w.owns q x ∧ q ≠ p
    subs := fun x v =>
      match w.target u with
      | none => w.subs x v
      | some t =>
          if w.streams u = some x ∧ v = t ∨ w.streams t = some x ∧ v = u then none
          else w.subs x v }

end State

/-- What may happen; `first` opens an endpoint and registers it. -/
inductive Act (P U : Type*) where
  | idle
  | subscribe (u t : U)
  | openFor (p : P)
  | register (p : P) (st : ℕ)
  | first (p : P)
  | part (p : P)

inductive Step (name : P → U) : State P U → Act P U → State P U → Prop where
  | idle {w : State P U} : Step name w .idle w
  | subscribe {w : State P U} (u t : U) : Step name w (.subscribe u t) (w.subscribe u t)
  | openFor {w : State P U} (p : P) : Step name w (.openFor p) (w.openFor p)
  | register {w : State P U} {p : P} {st : ℕ} (h : w.owns p st) :
      Step name w (.register p st) (w.register (name p) st)
  | first {w : State P U} (p : P) :
      Step name w (.first p) ((w.openFor p).register (name p) w.next)
  | part {w : State P U} (p : P) : Step name w (.part p) (w.part p (name p))

def spec (name : P → U) : Lts.System (State P U) (Act P U) where
  init w := w = .empty
  step := Step name

variable {name : P → U} {w : State P U} {p : P} {st : ℕ}

/-! ## What a registration and a departure change in the links -/

theorem peerOf_eq_some {u t : U} {peer : ℕ} : w.peerOf u st = some (t, peer) ↔
    w.target u = some t ∧ (if t = u then some st else w.streams t) = some peer := by
  unfold State.peerOf
  rw [Option.bind_eq_some_iff]
  constructor
  · rintro ⟨t', ht, hp⟩
    obtain ⟨q, hq, heq⟩ := Option.map_eq_some_iff.mp hp
    cases heq
    exact ⟨ht, by simpa [Function.update_apply] using hq⟩
  · rintro ⟨ht, hp⟩
    refine ⟨t, ht, ?_⟩
    rw [Function.update_apply, hp]
    rfl

/-- A link after a registration is one of the new two, or was there. -/
theorem subs_register {u v : U} {x y : ℕ} (h : (w.register u st).subs x v = some y) :
    (∃ t, w.peerOf u st = some (t, y) ∧ x = st ∧ v = t) ∨
      (∃ t, w.peerOf u st = some (t, x) ∧ v = u ∧ y = st) ∨ w.subs x v = some y := by
  unfold State.register at h
  cases hp : w.peerOf u st with
  | none =>
      rw [hp] at h
      exact Or.inr (Or.inr h)
  | some q =>
      obtain ⟨t, peer⟩ := q
      rw [hp] at h
      dsimp only at h
      split at h
      · next hx =>
          obtain ⟨rfl, rfl⟩ := hx
          cases h
          exact Or.inl ⟨v, rfl, rfl, rfl⟩
      · split at h
        · next hx =>
            obtain ⟨rfl, rfl⟩ := hx
            cases h
            exact Or.inr (Or.inl ⟨t, rfl, rfl, rfl⟩)
        · exact Or.inr (Or.inr h)

/-- The endpoint that is registered gets its target's. -/
theorem subs_register_self {u t : U} {peer : ℕ} (h : w.peerOf u st = some (t, peer)) :
    (w.register u st).subs st t = some peer := by
  unfold State.register
  rw [h]
  exact if_pos ⟨rfl, rfl⟩

/-- A departure takes links away, and adds none. -/
theorem subs_part {u v : U} {x y : ℕ} : (w.part p u).subs x v = some y ↔
    w.subs x v = some y ∧ ∀ t, w.target u = some t →
      ¬ (w.streams u = some x ∧ v = t) ∧ ¬ (w.streams t = some x ∧ v = u) := by
  unfold State.part
  cases ht : w.target u with
  | none => simp
  | some t =>
      dsimp only
      split
      · next h =>
          constructor
          · intro hy
            cases hy
          · rintro ⟨-, hno⟩
            rcases h with h | h
            · exact absurd h (hno t rfl).1
            · exact absurd h (hno t rfl).2
      · next h =>
          rw [not_or] at h
          constructor
          · rintro hy
            refine ⟨hy, ?_⟩
            rintro _ ⟨⟩
            exact h
          · exact And.left

/-! ## Endpoints belong to one party and are never reused -/

structure Sound (w : State P U) : Prop where
  unique (p q : P) (x : ℕ) (h : w.owns p x) (h' : w.owns q x) : q = p
  owned_lt (p : P) (x : ℕ) (h : w.owns p x) : x < w.next
  stream_lt (u : U) (x : ℕ) (h : w.streams u = some x) : x < w.next
  sub_lt (x : ℕ) (v : U) (y : ℕ) (h : w.subs x v = some y) : y < w.next

omit [DecidableEq U] in
theorem Sound.openFor (h : Sound w) (p : P) : Sound (w.openFor p) := by
  constructor
  · rintro q q' x (hq | ⟨rfl, rfl⟩) (hq' | ⟨rfl, hx⟩)
    · exact h.unique q q' x hq hq'
    · exact absurd (h.owned_lt q x hq) (by omega)
    · exact absurd (h.owned_lt q' _ hq') (by omega)
    · rfl
  · rintro q x (hq | ⟨-, rfl⟩)
    · exact Nat.lt_succ_of_lt (h.owned_lt q x hq)
    · exact Nat.lt_succ_self _
  · intro u x hu
    exact Nat.lt_succ_of_lt (h.stream_lt u x hu)
  · intro x v y hy
    show y < w.next + 1
    by_cases hx : x = w.next
    · subst hx
      simp [State.openFor] at hy
    · have hold : w.subs x v = some y := by simpa [State.openFor, hx] using hy
      exact Nat.lt_succ_of_lt (h.sub_lt x v y hold)

theorem Sound.register (h : Sound w) {u : U} (hst : w.owns p st) :
    Sound (w.register u st) := by
  have hlt : st < w.next := h.owned_lt p st hst
  have hstream : ∀ t x, (if t = u then some st else w.streams t) = some x → x < w.next := by
    intro t x ht
    split at ht
    · cases ht
      exact hlt
    · exact h.stream_lt t x ht
  refine ⟨h.unique, h.owned_lt, ?_, ?_⟩
  · intro t x ht
    apply hstream t x
    simpa [State.register, Function.update_apply] using ht
  · intro x v y hy
    rcases subs_register hy with ⟨t, hp, -, -⟩ | ⟨t, -, -, rfl⟩ | hy
    · exact hstream t y (peerOf_eq_some.mp hp).2
    · exact hlt
    · exact h.sub_lt x v y hy

theorem Sound.part (h : Sound w) (p : P) (u : U) : Sound (w.part p u) := by
  refine ⟨?_, ?_, h.stream_lt, ?_⟩
  · rintro q q' x ⟨hq, -⟩ ⟨hq', -⟩
    exact h.unique q q' x hq hq'
  · rintro q x ⟨hq, -⟩
    exact h.owned_lt q x hq
  · intro x v y hy
    exact h.sub_lt x v y (subs_part.mp hy).1

omit [DecidableEq U] in
theorem owns_openFor (w : State P U) (p : P) : (w.openFor p).owns p w.next :=
  Or.inr ⟨rfl, rfl⟩

/-- **Soundness** of every reachable wiring. -/
theorem reachable_sound (r : Lts.Reachable (spec name) w) : Sound w := by
  refine r.invariant (P := Sound) ?_ ?_
  · rintro w rfl
    constructor <;> simp [State.empty]
  · rintro w a w' - h hstep
    cases hstep with
    | idle => exact h
    | subscribe u t => exact ⟨h.unique, h.owned_lt, h.stream_lt, h.sub_lt⟩
    | openFor p => exact h.openFor p
    | register hst => exact h.register hst
    | first p => exact (h.openFor p).register (owns_openFor w p)
    | part p => exact h.part p _

/-! ## Endpoints keep the name of who opened them -/

/-- Every endpoint has a name, and is owned, registered and linked under it. -/
structure Labelled (name : P → U) (label : ℕ → Option U) (w : State P U) : Prop where
  owned (p : P) (x : ℕ) (h : w.owns p x) : label x = some (name p)
  streams (u : U) (x : ℕ) (h : w.streams u = some x) : label x = some u
  subs (x : ℕ) (v : U) (y : ℕ) (h : w.subs x v = some y) : label y = some v

omit [DecidableEq U] in
theorem Labelled.openFor {label : ℕ → Option U} (h : Labelled name label w) (hs : Sound w)
    (p : P) : Labelled name (Function.update label w.next (some (name p))) (w.openFor p) := by
  have hold : ∀ x, x < w.next → Function.update label w.next (some (name p)) x = label x :=
    fun x hx => Function.update_of_ne (Nat.ne_of_lt hx) ..
  constructor
  · rintro q x (hq | ⟨rfl, rfl⟩)
    · rw [hold x (hs.owned_lt q x hq)]
      exact h.owned q x hq
    · exact Function.update_self ..
  · intro u x hu
    rw [hold x (hs.stream_lt u x hu)]
    exact h.streams u x hu
  · intro x v y hy
    by_cases hx : x = w.next
    · subst hx
      simp [State.openFor] at hy
    · have hold' : w.subs x v = some y := by simpa [State.openFor, hx] using hy
      rw [hold y (hs.sub_lt x v y hold')]
      exact h.subs x v y hold'

theorem Labelled.register {label : ℕ → Option U} (h : Labelled name label w) (hst : w.owns p st) :
    Labelled name label (w.register (name p) st) := by
  have hstream : ∀ t x, (if t = name p then some st else w.streams t) = some x →
      label x = some t := by
    intro t x ht
    split at ht
    · next heq =>
        cases ht
        exact heq ▸ h.owned p st hst
    · exact h.streams t x ht
  refine ⟨h.owned, ?_, ?_⟩
  · intro t x ht
    apply hstream t x
    simpa [State.register, Function.update_apply] using ht
  · intro x v y hy
    rcases subs_register hy with ⟨t, hp, -, rfl⟩ | ⟨t, -, rfl, rfl⟩ | hy
    · exact hstream v y (peerOf_eq_some.mp hp).2
    · exact h.owned p y hst
    · exact h.subs x v y hy

theorem reachable_labelled (r : Lts.Reachable (spec name) w) :
    ∃ label, Labelled name label w := by
  refine r.invariant (P := fun w => ∃ label, Labelled name label w) ?_ ?_
  · rintro w rfl
    exact ⟨fun _ => none, by constructor <;> simp [State.empty]⟩
  · rintro w a w' hr ⟨label, h⟩ hstep
    have hs := reachable_sound hr
    cases hstep with
    | idle => exact ⟨label, h⟩
    | subscribe u t => exact ⟨label, h.owned, h.streams, h.subs⟩
    | openFor p => exact ⟨_, h.openFor hs p⟩
    | register hst => exact ⟨label, h.register hst⟩
    | first p => exact ⟨_, (h.openFor hs p).register (owns_openFor w p)⟩
    | part p =>
        refine ⟨label, ?_, h.streams, ?_⟩
        · exact fun q x hq => h.owned q x hq.1
        · exact fun x v y hy => h.subs x v y (subs_part.mp hy).1

/-- **At most one link leads from an endpoint to another.** -/
theorem subs_inj (r : Lts.Reachable (spec name) w) {x y : ℕ} {v v' : U}
    (h : w.subs x v = some y) (h' : w.subs x v' = some y) : v = v' := by
  obtain ⟨label, hl⟩ := reachable_labelled r
  exact Option.some.inj ((hl.subs x v y h).symm.trans (hl.subs x v' y h'))

/-! ## Links that stay -/

/-- `y`, registered for `v`, is linked with the endpoint `x`. -/
structure Joined (w : State P U) (x : ℕ) (v : U) (y : ℕ) : Prop where
  lt : x < w.next
  stream : w.streams v = some y
  link : w.subs x v = some y

variable {v : U} {x y : ℕ}

omit [DecidableEq U] in
theorem Joined.openFor (h : Joined w x v y) (p : P) : Joined (w.openFor p) x v y := by
  refine ⟨Nat.lt_succ_of_lt h.lt, h.stream, ?_⟩
  show Function.update w.subs w.next (fun _ => none) x v = some y
  rw [Function.update_of_ne (Nat.ne_of_lt h.lt)]
  exact h.link

/-- A registration leaves the link alone, or makes it again. -/
theorem Joined.register (h : Joined w x v y) {u : U} (hst : u = v → st = y) :
    Joined (w.register u st) x v y := by
  have hstream : (if v = u then some st else w.streams v) = some y := by
    split
    · next heq => rw [hst heq.symm]
    · exact h.stream
  refine ⟨h.lt, ?_, ?_⟩
  · simpa [State.register, Function.update_apply] using hstream
  · unfold State.register
    dsimp only
    cases hp : w.peerOf u st with
    | none => exact h.link
    | some q =>
        obtain ⟨t, peer⟩ := q
        have hpeer := (peerOf_eq_some.mp hp).2
        dsimp only
        split
        · next heq =>
            obtain ⟨-, rfl⟩ := heq
            rw [← hpeer, hstream]
        · split
          · next heq => rw [hst heq.2.symm]
          · exact h.link

/-- A departure leaves the link alone, unless it is that of a party named `v` or
of one that `x` is registered for. -/
theorem Joined.part (h : Joined w x v y) {u : U} (hu : u ≠ v) (hx : w.streams u ≠ some x) :
    Joined (w.part p u) x v y := by
  refine ⟨h.lt, h.stream, subs_part.mpr ⟨h.link, fun t _ => ⟨?_, ?_⟩⟩⟩
  · exact fun hno => hx hno.1
  · exact fun hno => hu hno.2.symm

/-! ## Departures -/

/-- Streams, and the links of what somebody owns, lead to what somebody owns. -/
structure Tidy (w : State P U) : Prop where
  streams (u : U) (x : ℕ) (h : w.streams u = some x) : ∃ p, w.owns p x
  subs (p : P) (x : ℕ) (hp : w.owns p x) (v : U) (y : ℕ) (h : w.subs x v = some y) :
    ∃ q, w.owns q y

/-- And they lead there under the owner's name. -/
structure Named (name : P → U) (w : State P U) : Prop where
  streams (u : U) (x : ℕ) (h : w.streams u = some x) : ∃ p, w.owns p x ∧ name p = u
  subs (p : P) (x : ℕ) (hp : w.owns p x) (v : U) (y : ℕ) (h : w.subs x v = some y) :
    ∃ q, w.owns q y ∧ name q = v

omit [DecidableEq U] in
theorem Named.tidy (h : Named name w) : Tidy w := by
  constructor
  · intro u x hu
    obtain ⟨p, hp, -⟩ := h.streams u x hu
    exact ⟨p, hp⟩
  · intro p x hp v y hy
    obtain ⟨q, hq, -⟩ := h.subs p x hp v y hy
    exact ⟨q, hq⟩

omit [DecidableEq U] in
theorem named_empty : Named name (.empty : State P U) := by
  constructor
  · intro u x h
    cases h
  · intro p x h
    cases h

omit [DecidableEq U] in
theorem Named.openFor (h : Named name w) (p : P) :
    Named name (w.openFor p) := by
  constructor
  · intro u x hu
    obtain ⟨q, hq, hn⟩ := h.streams u x hu
    exact ⟨q, Or.inl hq, hn⟩
  · rintro q x hq v y hy
    by_cases hx : x = w.next
    · subst hx
      simp [State.openFor] at hy
    · have hold : w.subs x v = some y := by simpa [State.openFor, hx] using hy
      rcases hq with hq | ⟨-, rfl⟩
      · obtain ⟨q', hq', hn⟩ := h.subs q x hq v y hold
        exact ⟨q', Or.inl hq', hn⟩
      · exact absurd rfl hx

theorem Named.register (h : Named name w) (hst : w.owns p st) :
    Named name (w.register (name p) st) := by
  have hstream : ∀ t x, (if t = name p then some st else w.streams t) = some x →
      ∃ q, w.owns q x ∧ name q = t := by
    intro t x ht
    split at ht
    · next heq =>
        cases ht
        exact ⟨p, hst, heq.symm⟩
    · exact h.streams t x ht
  constructor
  · intro t x ht
    apply hstream t x
    simpa [State.register, Function.update_apply] using ht
  · intro q x hq v y hy
    rcases subs_register hy with ⟨t, hp, rfl, rfl⟩ | ⟨t, hp, rfl, rfl⟩ | hy
    · exact hstream v y (peerOf_eq_some.mp hp).2
    · exact ⟨p, hst, rfl⟩
    · exact h.subs q x hq v y hy

/-- What `p` may leave behind: none of its endpoints is registered, and each
that is linked with another's is linked with the stream `p` subscribes to. -/
def Clean (name : P → U) (w : State P U) (p : P) : Prop :=
  ∀ st, w.owns p st → (∀ u, w.streams u ≠ some st) ∧
    ∀ q x, q ≠ p → w.owns q x → ∀ v, w.subs x v = some st →
      ∃ t, w.target (name p) = some t ∧ w.streams t = some x

theorem Named.part (h : Named name w) (hc : Clean name w p) :
    Named name (w.part p (name p)) := by
  constructor
  · intro u x hu
    obtain ⟨q, hq, hn⟩ := h.streams u x hu
    refine ⟨q, ⟨hq, ?_⟩, hn⟩
    rintro rfl
    exact (hc x hq).1 u hu
  · rintro q x ⟨hq, hne⟩ v y hleft
    obtain ⟨hy, hkept⟩ := subs_part.mp hleft
    obtain ⟨q', hq', hn⟩ := h.subs q x hq v y hy
    refine ⟨q', ⟨hq', ?_⟩, hn⟩
    rintro rfl
    obtain ⟨t, ht, hx⟩ := (hc y hq').2 q x hne hq v hy
    exact (hkept t ht).2 ⟨hx, hn.symm⟩

/-- **When a departure leaves nothing behind.** -/
theorem tidy_part_iff (hs : Sound w) (h : Named name w) :
    Tidy (w.part p (name p)) ↔ Clean name w p := by
  constructor
  · intro ht st hst
    have hgone : ∀ q, (w.part p (name p)).owns q st → False := by
      rintro q ⟨hq, hne⟩
      exact hne (hs.unique p q st hst hq)
    constructor
    · intro u hu
      obtain ⟨q, hq⟩ := ht.streams u st hu
      exact hgone q hq
    · intro q x hne hq v hv
      by_contra hno
      -- the link would survive, and lead to an endpoint that nobody owns
      have hkept : (w.part p (name p)).subs x v = some st := by
        refine subs_part.mpr ⟨hv, ?_⟩
        intro t ht'
        obtain ⟨q', hq', hn⟩ := h.subs q x hq v st hv
        obtain rfl : q' = p := hs.unique p q' st hst hq'
        constructor
        · rintro ⟨hu, rfl⟩
          exact hno ⟨v, ht', by rwa [← hn]⟩
        · rintro ⟨hu, -⟩
          exact hno ⟨t, ht', hu⟩
      obtain ⟨q', hq'⟩ := ht.subs q x ⟨hq, hne⟩ v st hkept
      exact hgone q' hq'
  · exact fun hc => (h.part hc).tidy

/-! ## Groups -/

variable {group : P → R}

/-- A link leads from what a party owns to what its group owns. -/
def Confined (group : P → R) (w : State P U) : Prop :=
  ∀ p x v y, w.owns p x → w.subs x v = some y → ∃ q, w.owns q y ∧ group q = group p

/-- What is registered for the name that `p` subscribes to, its own apart, is
owned in the group of `p`. -/
def MeetsOwn (group : P → R) (name : P → U) (w : State P U) (p : P) : Prop :=
  ∀ t x, w.target (name p) = some t → t ≠ name p → w.streams t = some x →
    ∃ q, w.owns q x ∧ group q = group p

omit [DecidableEq U] in
theorem confined_empty : Confined group (.empty : State P U) := by
  intro p x v y h
  cases h

omit [DecidableEq U] in
theorem Confined.openFor (h : Confined group w) (p : P) : Confined group (w.openFor p) := by
  intro q x v y hq hy
  by_cases hx : x = w.next
  · subst hx
    simp [State.openFor] at hy
  · have hold : w.subs x v = some y := by simpa [State.openFor, hx] using hy
    rcases hq with hq | ⟨-, rfl⟩
    · obtain ⟨q', hq', hg⟩ := h q x v y hq hold
      exact ⟨q', Or.inl hq', hg⟩
    · exact absurd rfl hx

/-- **When a registration stays within a group.** -/
theorem confined_register_iff (hs : Sound w) (h : Confined group w) (hst : w.owns p st) :
    Confined group (w.register (name p) st) ↔ MeetsOwn group name w p := by
  constructor
  · intro hc t x ht hne hx
    have hpeer : w.peerOf (name p) st = some (t, x) :=
      peerOf_eq_some.mpr ⟨ht, by rwa [if_neg hne]⟩
    exact hc p st t x hst (subs_register_self hpeer)
  · intro hm
    -- the endpoint a registration meets is owned in the group, be it its own
    have hpeer : ∀ t x, w.peerOf (name p) st = some (t, x) →
        ∃ q, w.owns q x ∧ group q = group p := by
      intro t x hp
      obtain ⟨ht, hx⟩ := peerOf_eq_some.mp hp
      split at hx
      · cases hx
        exact ⟨p, hst, rfl⟩
      · next hne => exact hm t x ht hne hx
    intro q x v y hq hy
    rcases subs_register hy with ⟨t, hp, rfl, rfl⟩ | ⟨t, hp, rfl, rfl⟩ | hy
    · obtain rfl : q = p := hs.unique p q x hst hq
      exact hpeer v y hp
    · obtain ⟨q', hq', hg⟩ := hpeer t x hp
      obtain rfl : q = q' := hs.unique q' q x hq' hq
      exact ⟨p, hst, hg.symm⟩
    · exact h q x v y hq hy

omit [DecidableEq U] in
/-- A new endpoint is no stream yet. -/
theorem meetsOwn_openFor (hs : Sound w) :
    MeetsOwn group name (w.openFor p) p ↔ MeetsOwn group name w p := by
  constructor
  · intro h t x ht hne hx
    obtain ⟨q, hq | ⟨-, rfl⟩, hg⟩ := h t x ht hne hx
    · exact ⟨q, hq, hg⟩
    · exact absurd (hs.stream_lt t _ hx) (Nat.lt_irrefl _)
  · intro h t x ht hne hx
    obtain ⟨q, hq, hg⟩ := h t x ht hne hx
    exact ⟨q, Or.inl hq, hg⟩

end Wiring
