import Mathlib.Data.List.AList

/-!
# Hash maps, by their lookups

`UnorderedMap K V` is the association list with distinct keys. Everything a
program reads off a hash map by key goes through `lookup`, so two rules, one
for each update, are all the later proofs rewrite with. The order of `entries`
is one iteration order among many; nothing proved by `lookup` depends on it.
-/

abbrev UnorderedMap (K V : Type*) := AList (fun _ : K => V)

namespace UnorderedMap

variable {K V : Type*} [DecidableEq K]

/-- `m[k] = v` is seen at `k` and nowhere else. -/
@[simp, grind =]
theorem lookup_insert_ite (m : UnorderedMap K V) (k k' : K) (v : V) :
    (m.insert k v).lookup k' = if k' = k then some v else m.lookup k' := by
  by_cases h : k' = k
  · subst h
    rw [if_pos rfl, AList.lookup_insert]
  · rw [if_neg h, AList.lookup_insert_ne h]

/-- Erasing `k` hides `k` and nothing else. -/
@[simp, grind =]
theorem lookup_erase_ite (m : UnorderedMap K V) (k k' : K) :
    (m.erase k).lookup k' = if k' = k then none else m.lookup k' := by
  by_cases h : k' = k
  · subst h
    rw [if_pos rfl, AList.lookup_erase]
  · rw [if_neg h, AList.lookup_erase_ne h]

/-- `m[k] = v` on an empty map. -/
@[simp, grind =]
theorem lookup_singleton_ite (k k' : K) (v : V) :
    (AList.singleton k v : UnorderedMap K V).lookup k' =
      if k' = k then some v else none := by
  rw [← AList.insert_empty, lookup_insert_ite, AList.lookup_empty]

/-! ### Assignment -/

theorem kreplace_cons (k k₁ : K) (v v₁ : V) (l : List (Sigma fun _ : K => V)) :
    List.kreplace k v (⟨k₁, v₁⟩ :: l) =
      if k = k₁ then ⟨k, v⟩ :: l else ⟨k₁, v₁⟩ :: List.kreplace k v l := by
  unfold List.kreplace
  split
  · next h => exact List.lookmap_cons_some _ _ (if_pos h)
  · next h => exact List.lookmap_cons_none _ _ (if_neg h)

/-- Replacing a value is seen at its key only. -/
theorem dlookup_kreplace_ite (l : List (Sigma fun _ : K => V)) (k k' : K) (v : V) :
    (List.kreplace k v l).dlookup k' =
      if k' = k then (l.dlookup k).map fun _ => v else l.dlookup k' := by
  induction l with
  | nil => simp [List.kreplace]
  | cons e l ih =>
      obtain ⟨k₁, v₁⟩ := e
      rw [kreplace_cons]
      by_cases h : k = k₁ <;> by_cases hk : k' = k₁
      · subst h hk
        simp
      · subst h
        simp [hk]
      · subst hk
        simp [h, Ne.symm h]
      · simp [h, hk, ih]

/-- `m[k] = v`: the value of a key that is there is changed in its place. -/
def set (m : UnorderedMap K V) (k : K) (v : V) : UnorderedMap K V :=
  if (m.lookup k).isSome then m.replace k v else m.insert k v

@[simp, grind =]
theorem lookup_set_ite (m : UnorderedMap K V) (k k' : K) (v : V) :
    (m.set k v).lookup k' = if k' = k then some v else m.lookup k' := by
  unfold set
  split
  · next h =>
      obtain ⟨v₀, hv₀⟩ := Option.isSome_iff_exists.mp h
      show (m.entries.kreplace k v).dlookup k' = _
      rw [dlookup_kreplace_ite]
      show (if k' = k then (m.lookup k).map _ else _) = _
      rw [hv₀]
      rfl
  · exact lookup_insert_ite m k k' v

/-! ### Iteration -/

/-- What iterating over the map meets is what a lookup finds. -/
theorem mem_entries_iff {m : UnorderedMap K V} {k : K} {v : V} :
    (⟨k, v⟩ : Sigma fun _ : K => V) ∈ m.entries ↔ m.lookup k = some v := by
  rw [← Option.mem_def, AList.mem_lookup_iff]

end UnorderedMap
