import Mathlib.Data.Sym.Sym2
import Mathlib.Data.Set.Insert

/-!
# Mutual links between subscribers

The purpose of a stream broker, without any transport: a party may *want* one
other party, parties come *live* one after the other, and a link joins two live
parties one of which wants the other. A link is an unordered pair (`Sym2`), so
"`a` is linked to `b`" and "`b` is linked to `a`" are the same fact; a broker
that keeps two half links has to show that its halves agree with one pair.
-/

namespace MutualLinks

variable {ι : Type*} [DecidableEq ι]

structure State (ι : Type*) where
  wants : ι → Option ι
  live : Set ι
  links : Set (Sym2 ι)

def State.empty : State ι := ⟨fun _ => none, ∅, ∅⟩

inductive Call (ι : Type*) where
  | subscribe (a b : ι)
  | register (a : ι)
  | leave (a : ι)

/-- `register` links the newcomer to the party it wants if that one is live;
`leave` drops the link to the wanted party. -/
def State.act (s : State ι) : Call ι → State ι
  | .subscribe a b => { s with wants := Function.update s.wants a (some b) }
  | .register a =>
      { s with
        live := insert a s.live
        links := s.links ∪
          {l | ∃ b, s.wants a = some b ∧ b ∈ insert a s.live ∧ l = s(a, b)} }
  | .leave a =>
      { s with links := {l ∈ s.links | ∀ b, s.wants a = some b → l ≠ s(a, b)} }

def after (calls : List (Call ι)) : State ι := calls.foldl State.act .empty

theorem after_snoc (calls : List (Call ι)) (c : Call ι) :
    after (calls ++ [c]) = (after calls).act c := by
  unfold after
  rw [List.foldl_append]
  rfl

/-- Who is wanted was asked for. -/
theorem wants_asked (calls : List (Call ι)) {a b : ι}
    (h : (after calls).wants a = some b) : .subscribe a b ∈ calls := by
  induction calls using List.reverseRecOn with
  | nil => simp [after, State.empty] at h
  | append_singleton calls c ih =>
      rw [after_snoc] at h
      rw [List.mem_append, List.mem_singleton]
      cases c with
      | subscribe x y =>
          simp only [State.act, Function.update_apply] at h
          split at h
          · next hax =>
              right
              rw [hax, Option.some.inj h]
          · exact Or.inl (ih h)
      | register x => exact Or.inl (ih h)
      | leave x => exact Or.inl (ih h)

/-- **Every link was asked for**, from one side or the other. -/
theorem links_asked (calls : List (Call ι)) {a b : ι}
    (h : s(a, b) ∈ (after calls).links) :
    .subscribe a b ∈ calls ∨ .subscribe b a ∈ calls := by
  induction calls using List.reverseRecOn with
  | nil => simp [after, State.empty] at h
  | append_singleton calls c ih =>
      rw [after_snoc] at h
      simp only [List.mem_append]
      cases c with
      | subscribe x y =>
          exact (ih h).imp Or.inl Or.inl
      | register x =>
          rcases h with h | ⟨y, hw, -, heq⟩
          · exact (ih h).imp Or.inl Or.inl
          · have hasked := wants_asked calls hw
            rcases Sym2.eq_iff.mp heq with ⟨rfl, rfl⟩ | ⟨rfl, rfl⟩
            · exact Or.inl (Or.inl hasked)
            · exact Or.inr (Or.inl hasked)
      | leave x =>
          exact (ih h.1).imp Or.inl Or.inl

/-- Both ends of a link are live. -/
theorem links_live (calls : List (Call ι)) {a b : ι}
    (h : s(a, b) ∈ (after calls).links) :
    a ∈ (after calls).live ∧ b ∈ (after calls).live := by
  induction calls using List.reverseRecOn with
  | nil => simp [after, State.empty] at h
  | append_singleton calls c ih =>
      rw [after_snoc] at h ⊢
      cases c with
      | subscribe x y => exact ih h
      | register x =>
          rcases h with h | ⟨y, -, hy, heq⟩
          · exact (ih h).imp (Set.mem_insert_of_mem _) (Set.mem_insert_of_mem _)
          · rcases Sym2.eq_iff.mp heq with ⟨rfl, rfl⟩ | ⟨rfl, rfl⟩
            · exact ⟨Set.mem_insert _ _, hy⟩
            · exact ⟨hy, Set.mem_insert _ _⟩
      | leave x => exact ih h.1

/-! ## Links nobody wants any more -/

/-- Every link is one that one of its ends wants now. -/
def State.Current (s : State ι) : Prop :=
  ∀ a b, s(a, b) ∈ s.links → s.wants a = some b ∨ s.wants b = some a

/-- A subscription forgets what `a` wanted before, and undoes no link. It leaves
none behind if every link of `a` with another party is wanted from there. -/
def State.Replaces (s : State ι) : Call ι → Prop
  | .subscribe a b => ∀ x, s(a, x) ∈ s.links → x ≠ b → x ≠ a ∧ s.wants x = some a
  | _ => True

/-- **A call keeps the links current if and only if it replaces.** -/
theorem State.Current.act_iff {s : State ι} (h : s.Current) (c : Call ι) :
    (s.act c).Current ↔ s.Replaces c := by
  cases c with
  | subscribe a b =>
      have hwants : ∀ x, (s.act (.subscribe a b)).wants x =
          if x = a then some b else s.wants x := fun x => Function.update_apply ..
      constructor
      · intro hact x hl hxb
        have hcur := hact a x hl
        rw [hwants, hwants, if_pos rfl] at hcur
        by_cases hxa : x = a
        · rw [if_pos hxa] at hcur
          rcases hcur with hcur | hcur
          · exact absurd (Option.some.inj hcur).symm hxb
          · exact absurd (hxa.trans (Option.some.inj hcur).symm) hxb
        · rw [if_neg hxa] at hcur
          rcases hcur with hcur | hcur
          · exact absurd (Option.some.inj hcur).symm hxb
          · exact ⟨hxa, hcur⟩
      · intro hrep x y hl
        -- a link of `a` is the new one, or wanted from its other end
        have hone : ∀ z, s(a, z) ∈ s.links → (s.act (.subscribe a b)).wants a = some z ∨
            (s.act (.subscribe a b)).wants z = some a := by
          intro z hz
          rw [hwants, hwants, if_pos rfl]
          by_cases hzb : z = b
          · exact Or.inl (by rw [hzb])
          · obtain ⟨hza, hw⟩ := hrep z hz hzb
            exact Or.inr (by rw [if_neg hza, hw])
        by_cases hx : x = a
        · subst hx
          exact hone y hl
        · by_cases hy : y = a
          · subst hy
            rw [Sym2.eq_swap] at hl
            exact (hone x hl).symm
          · rw [hwants, hwants, if_neg hx, if_neg hy]
            exact h x y hl
  | register a =>
      refine iff_of_true ?_ trivial
      rintro x y (hl | ⟨b, hw, -, heq⟩)
      · exact h x y hl
      · rcases Sym2.eq_iff.mp heq with ⟨rfl, rfl⟩ | ⟨rfl, rfl⟩
        · exact Or.inl hw
        · exact Or.inr hw
  | leave a => exact iff_of_true (fun x y hl => h x y hl.1) trivial

/-! ## The order of arrival -/

def Call.subscriber : Call ι → Option ι
  | .subscribe a _ => some a
  | _ => none

/-- Nobody leaves, and nobody subscribes twice. -/
structure Arrivals (calls : List (Call ι)) : Prop where
  stays (a : ι) : .leave a ∉ calls
  once : (calls.filterMap Call.subscriber).Nodup

/-- `a` comes live after it has subscribed to `b`, and not before `b`. -/
def Meets (calls : List (Call ι)) (a b : ι) : Prop :=
  ∃ before, before ++ [.register a] <+: calls ∧ .subscribe a b ∈ before ∧
    (b = a ∨ .register b ∈ before)

/-- Of two live parties with a subscription, the one or the other meets it. -/
def InOrder (calls : List (Call ι)) : Prop :=
  ∀ a b, .subscribe a b ∈ calls → .register a ∈ calls → .register b ∈ calls →
    Meets calls a b ∨ Meets calls b a

/-- Whoever is live and wants a live party is linked to it. -/
def State.Complete (s : State ι) : Prop :=
  ∀ a b, s.wants a = some b → a ∈ s.live → b ∈ s.live → s(a, b) ∈ s.links

variable {calls calls' : List (Call ι)} {a b : ι}

omit [DecidableEq ι] in
theorem Arrivals.of_snoc {c : Call ι} (h : Arrivals (calls ++ [c])) : Arrivals calls where
  stays a ha := h.stays a (List.mem_append_left _ ha)
  once := by
    have hsub : (calls.filterMap Call.subscriber).Sublist
        ((calls ++ [c]).filterMap Call.subscriber) := (List.sublist_append_left ..).filterMap _
    exact h.once.sublist hsub

omit [DecidableEq ι] in
theorem Arrivals.perm (h : Arrivals calls) (hp : calls'.Perm calls) : Arrivals calls' where
  stays a ha := h.stays a (hp.subset ha)
  once := (hp.filterMap _).nodup_iff.mpr h.once

theorem live_iff : a ∈ (after calls).live ↔ .register a ∈ calls := by
  induction calls using List.reverseRecOn with
  | nil => simp [after, State.empty]
  | append_singleton calls c ih =>
      rw [after_snoc, List.mem_append, List.mem_singleton, ← ih]
      cases c with
      | subscribe x y => simp [State.act]
      | register x => simp [State.act, or_comm]
      | leave x => simp [State.act]

/-- The one subscription of a party is the one that stands. -/
theorem Arrivals.wants_iff (h : Arrivals calls) :
    (after calls).wants a = some b ↔ .subscribe a b ∈ calls := by
  refine ⟨wants_asked calls, ?_⟩
  induction calls using List.reverseRecOn with
  | nil => simp
  | append_singleton calls c ih =>
      intro hasked
      have hold := ih h.of_snoc
      rw [after_snoc]
      rw [List.mem_append, List.mem_singleton] at hasked
      cases c with
      | subscribe x y =>
          simp only [State.act, Function.update_apply]
          rcases hasked with hasked | heq
          · have hne : a ≠ x := by
              rintro rfl
              have honce := h.once
              simp only [List.filterMap_append, List.filterMap_cons, Call.subscriber,
                List.filterMap_nil] at honce
              refine (List.nodup_append.mp honce).2.2 a ?_ a (List.mem_singleton_self a) rfl
              exact List.mem_filterMap.mpr ⟨_, hasked, rfl⟩
            rw [if_neg hne]
            exact hold hasked
          · cases heq
            rw [if_pos rfl]
      | register x => exact hold (hasked.resolve_right nofun)
      | leave x => exact hold (hasked.resolve_right nofun)

omit [DecidableEq ι] in
theorem meets_snoc {c : Call ι} : Meets (calls ++ [c]) a b ↔
    Meets calls a b ∨ c = .register a ∧ .subscribe a b ∈ calls ∧
      (b = a ∨ .register b ∈ calls) := by
  unfold Meets
  simp only [List.prefix_concat_iff]
  constructor
  · rintro ⟨before, heq | hpre, hsub, hreg⟩
    · obtain ⟨rfl, hc⟩ := List.append_inj' heq rfl
      cases hc
      exact Or.inr ⟨rfl, hsub, hreg⟩
    · exact Or.inl ⟨before, hpre, hsub, hreg⟩
  · rintro (⟨before, hpre, hsub, hreg⟩ | ⟨rfl, hsub, hreg⟩)
    · exact ⟨before, Or.inr hpre, hsub, hreg⟩
    · exact ⟨calls, Or.inl rfl, hsub, hreg⟩

/-- **Which links the order of arrival makes.** -/
theorem Arrivals.links_iff (h : Arrivals calls) :
    s(a, b) ∈ (after calls).links ↔ Meets calls a b ∨ Meets calls b a := by
  induction calls using List.reverseRecOn with
  | nil => simp [after, State.empty, Meets]
  | append_singleton calls c ih =>
      have hold := ih h.of_snoc
      rw [after_snoc, meets_snoc, meets_snoc]
      cases c with
      | subscribe x y => simpa [State.act] using hold
      | leave x => exact absurd (List.mem_append_right _ (List.mem_singleton_self _)) (h.stays x)
      | register x =>
          have hnew : s(a, b) ∈ ((after calls).act (.register x)).links ↔
              s(a, b) ∈ (after calls).links ∨ ∃ y, .subscribe x y ∈ calls ∧
                (y = x ∨ .register y ∈ calls) ∧ s(a, b) = s(x, y) := by
            simp only [← h.of_snoc.wants_iff, ← live_iff, ← Set.mem_insert_iff]
            exact Iff.rfl
          rw [hnew, hold]
          simp only [Call.register.injEq, Sym2.eq_iff]
          grind

theorem Arrivals.complete_iff (h : Arrivals calls) :
    (after calls).Complete ↔ InOrder calls := by
  unfold State.Complete InOrder
  simp only [h.wants_iff, live_iff, h.links_iff]

/-- In order, the links depend on who has subscribed and who has come live. -/
theorem Arrivals.links_of_inOrder (h : Arrivals calls) (hin : InOrder calls) :
    s(a, b) ∈ (after calls).links ↔
      (.subscribe a b ∈ calls ∨ .subscribe b a ∈ calls) ∧
        .register a ∈ calls ∧ .register b ∈ calls := by
  constructor
  · intro hl
    refine ⟨links_asked calls hl, ?_⟩
    rw [← live_iff, ← live_iff]
    exact links_live calls hl
  · rintro ⟨hsub | hsub, ha, hb⟩
    · exact h.links_iff.mpr (hin a b hsub ha hb)
    · exact h.links_iff.mpr (hin b a hsub hb ha).symm

/-- **Another order makes the same links if and only if it is in order too.** -/
theorem Arrivals.links_eq_iff (h : Arrivals calls) (hin : InOrder calls)
    (hp : calls'.Perm calls) : (after calls').links = (after calls).links ↔ InOrder calls' := by
  have h' := h.perm hp
  constructor
  · intro hl a b hsub ha hb
    rw [hp.mem_iff] at hsub ha hb
    rw [← h'.links_iff, hl]
    exact (h.links_of_inOrder hin).mpr ⟨Or.inl hsub, ha, hb⟩
  · intro hin'
    ext l
    induction l using Sym2.inductionOn with
    | hf a b => simp only [h.links_of_inOrder hin, h'.links_of_inOrder hin', hp.mem_iff]

end MutualLinks
