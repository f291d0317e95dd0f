import Mathlib.Data.List.Infix

/-!
# Cutting a text at a separator

A text is cut at the leftmost occurrence of a separator, what follows that is
cut in the same way, and the text between two cuts is a field. `Cuts` is this
as a derivation, so that a fact about the fields of a text is an induction on
how it was cut. A separator without borders cannot overlap itself, and then a
field is any text in which it does not occur.
-/

variable {α : Type*} {sep : List α}

/-! ## Separators -/

/-- No proper prefix of `sep` is one of its suffixes. -/
def Unbordered (sep : List α) : Prop :=
  ∀ k < sep.length, 0 < k → sep.take k ≠ sep.drop (sep.length - k)

instance [DecidableEq α] (sep : List α) : Decidable (Unbordered sep) :=
  inferInstanceAs (Decidable (∀ k < sep.length, 0 < k → _))

/-- Without borders, an occurrence in `field ++ sep.dropLast` is one in `field`. -/
theorem Unbordered.no_overlap (hs : Unbordered sep) (hne : sep ≠ []) {field : List α}
    (h : ¬ sep <:+: field) : ¬ sep <:+: field ++ sep.dropLast := by
  have hpos := List.length_pos_of_ne_nil hne
  induction field with
  | nil =>
      intro hi
      have := hi.length_le
      rw [List.nil_append, List.length_dropLast] at this
      omega
  | cons x field ih =>
      rw [List.cons_append, List.infix_cons_iff]
      rw [List.infix_cons_iff, not_or] at h
      rintro (hp | hi)
      · -- a proper part of the separator would be a border
        rw [← List.cons_append, List.prefix_iff_eq_take, List.take_append] at hp
        by_cases hle : sep.length ≤ (x :: field).length
        · apply h.1
          rw [Nat.sub_eq_zero_of_le hle, List.take_zero, List.append_nil] at hp
          rw [hp]
          exact List.take_prefix _ _
        · rw [List.take_of_length_le (by omega)] at hp
          have hk : sep.length - (x :: field).length ≤ sep.dropLast.length := by
            rw [List.length_dropLast, List.length_cons]
            omega
          apply hs (sep.length - (x :: field).length) ?_ (by omega)
          · have hdrop : sep.drop (x :: field).length =
                sep.dropLast.take (sep.length - (x :: field).length) := by
              conv_lhs => rw [hp]
              exact List.drop_left
            rw [Nat.sub_sub_self (by omega), hdrop, List.dropLast_eq_take, List.take_take]
            rw [List.length_dropLast] at hk
            rw [Nat.min_eq_left hk]
          · rw [List.length_cons]
            omega
      · exact ih h.2 hi

/-! ## Up to the first separator -/

section Single

variable [DecidableEq α] {c : α} {front : List α}

theorem forall_ne_of_notMem (h : c ∉ front) : ∀ x ∈ front, decide (x ≠ c) = true := by
  intro x hx
  refine decide_eq_true ?_
  rintro rfl
  exact h hx

theorem takeWhile_first (h : c ∉ front) (rest : List α) :
    (front ++ c :: rest).takeWhile (· ≠ c) = front := by
  rw [List.takeWhile_append_of_pos (forall_ne_of_notMem h),
    List.takeWhile_cons_of_neg (by simp), List.append_nil]

theorem dropWhile_first (h : c ∉ front) (rest : List α) :
    (front ++ c :: rest).dropWhile (· ≠ c) = c :: rest := by
  have hcut := List.takeWhile_append_dropWhile (p := (· ≠ c)) (l := front ++ c :: rest)
  rw [takeWhile_first h] at hcut
  exact List.append_cancel_left hcut

end Single

/-! ## Fields -/

/-- **The fields of a text.** In the second case `sep` occurs in `field ++ sep`
at the end and nowhere before. -/
inductive Cuts (sep : List α) : List α → List (List α) → Prop where
  | last {text : List α} (h : ¬ sep <:+: text) : Cuts sep text [text]
  | next {field rest : List α} {fields : List (List α)}
      (h : ¬ sep <:+: field ++ sep.dropLast) (hr : Cuts sep rest fields) :
      Cuts sep (field ++ sep ++ rest) (field :: fields)

namespace Cuts

variable {text field rest : List α} {fields : List (List α)}

/-- A text without one of its elements has no occurrence of `sep`. -/
theorem not_infix_of_notMem {c : α} (hc : c ∈ sep) (h : c ∉ text) : ¬ sep <:+: text :=
  fun hi => h (hi.subset hc)

/-- What begins with an occurrence of `sep` before its first cut has one sooner. -/
theorem occurs_sooner (hfield : field ≠ []) (h : sep <+: field ++ sep ++ rest) :
    sep <:+: field ++ sep.dropLast := by
  have hlen : sep.length ≤ (field ++ sep.dropLast).length := by
    have := List.length_pos_of_ne_nil hfield
    rw [List.length_append, List.length_dropLast]
    omega
  have hpre : field ++ sep.dropLast <+: field ++ sep ++ rest :=
    ((List.prefix_append_right_inj field).mpr (List.dropLast_prefix sep)).trans
      (List.prefix_append _ _)
  exact (List.prefix_of_prefix_length_le h hpre hlen).isInfix

theorem ne_nil (h : ¬ sep <:+: text) : sep ≠ [] := by
  rintro rfl
  exact h (List.nil_infix)

/-- The first cut of a text is where `sep` begins first. -/
theorem first_unique {field' rest' : List α} (h : ¬ sep <:+: field ++ sep.dropLast)
    (h' : ¬ sep <:+: field' ++ sep.dropLast)
    (heq : field ++ sep ++ rest = field' ++ sep ++ rest') : field' = field ∧ rest' = rest := by
  -- a first cut cannot lie behind another one
  have hno : ∀ {f g t t' : List α}, ¬ sep <:+: f ++ g ++ sep.dropLast →
      sep ++ t = g ++ (sep ++ t') → g = [] := by
    intro f g t t' hg hsep
    by_contra hne
    apply hg
    rw [List.append_assoc]
    have hstarts : sep <+: g ++ sep ++ t' := by
      rw [List.append_assoc, ← hsep]
      exact List.prefix_append _ _
    exact (occurs_sooner hne hstarts).trans (List.suffix_append f _).isInfix
  rw [List.append_assoc, List.append_assoc] at heq
  rcases List.append_eq_append_iff.mp heq with ⟨g, rfl, hsep⟩ | ⟨g, rfl, hsep⟩
  · obtain rfl := hno h' hsep
    rw [List.append_nil] at heq ⊢
    exact ⟨rfl, (List.append_cancel_left (List.append_cancel_left heq)).symm⟩
  · obtain rfl := hno h hsep
    rw [List.append_nil] at heq ⊢
    exact ⟨rfl, (List.append_cancel_left (List.append_cancel_left heq)).symm⟩

/-- A text is cut in one way only. -/
theorem unique {fields' : List (List α)} (h : Cuts sep text fields)
    (h' : Cuts sep text fields') : fields' = fields := by
  induction h generalizing fields' with
  | last h =>
      cases h' with
      | last => rfl
      | next hf hr => exact absurd (List.infix_append ..) h
  | @next field rest fields hf hr ih =>
      generalize htext : field ++ sep ++ rest = text at h'
      cases h' with
      | last h =>
          rw [← htext] at h
          exact absurd (List.infix_append ..) h
      | next hf' hr' =>
          obtain ⟨rfl, rfl⟩ := first_unique hf hf' htext
          rw [ih hr']

/-- Every text is cut. -/
theorem exists_fields (hne : sep ≠ []) : ∀ text : List α, ∃ fields, Cuts sep text fields
  | [] => ⟨_, .last fun hi => hne (List.infix_nil.mp hi)⟩
  | x :: text => by
      by_cases hp : sep <+: x :: text
      · obtain ⟨rest, heq⟩ := hp
        have hlt : rest.length < (x :: text).length := by
          have := List.length_pos_of_ne_nil hne
          rw [← heq, List.length_append]
          omega
        have hfirst : ¬ sep <:+: [] ++ sep.dropLast := by
          intro hi
          have := hi.length_le
          have := List.length_pos_of_ne_nil hne
          rw [List.nil_append, List.length_dropLast] at *
          omega
        obtain ⟨fields, hr⟩ := exists_fields hne rest
        have hcut := Cuts.next hfirst hr
        rw [List.nil_append, heq] at hcut
        exact ⟨_, hcut⟩
      · -- `x` stands before the first field of the rest
        obtain ⟨fields, h⟩ := exists_fields hne text
        cases h with
        | last h =>
            refine ⟨_, .last ?_⟩
            rw [List.infix_cons_iff]
            exact not_or.mpr ⟨hp, h⟩
        | @next field rest fields hf hr =>
            refine ⟨(x :: field) :: fields, .next (?_ : ¬ sep <:+: x :: field ++ sep.dropLast) hr⟩
            rw [List.cons_append, List.infix_cons_iff]
            refine not_or.mpr ⟨?_, hf⟩
            intro hi
            apply hp
            refine hi.trans ?_
            rw [List.append_assoc, List.prefix_cons_inj, List.prefix_append_right_inj]
            exact (List.dropLast_prefix sep).trans (List.prefix_append _ _)
termination_by text => text.length
decreasing_by
  · exact hlt
  · exact Nat.lt_succ_self _

/-! ## Terminated lines -/

/-- A separator behind the text ends its last field. -/
theorem snoc (hs : Unbordered sep) (h : Cuts sep text fields) :
    Cuts sep (text ++ sep) (fields ++ [[]]) := by
  induction h with
  | @last text h =>
      have hne := ne_nil h
      have hnil : ¬ sep <:+: [] := fun hi => hne (List.infix_nil.mp hi)
      have hcut := Cuts.next (hs.no_overlap hne h) (.last hnil)
      rwa [List.append_nil] at hcut
  | next hf hr ih =>
      rw [List.append_assoc]
      exact .next hf ih

/-- Terminated lines before a text are fields of their own. -/
theorem append {before : List α} {lines : List (List α)}
    (hb : Cuts sep before (lines ++ [[]])) (h : Cuts sep text fields) :
    Cuts sep (before ++ text) (lines ++ fields) := by
  generalize hls : lines ++ [[]] = ls at hb
  induction hb generalizing lines with
  | last =>
      cases lines with
      | nil =>
          cases hls
          exact h
      | cons line lines => simp at hls
  | next hf hr ih =>
      cases lines with
      | nil =>
          cases hls
          cases hr
      | cons line lines =>
          cases hls
          rw [List.append_assoc]
          exact .next hf (ih rfl)

theorem fields_ne_nil (h : Cuts sep text fields) : fields ≠ [] := by
  cases h <;> exact List.cons_ne_nil _ _

/-- A text with one field has no separator in it. -/
theorem length_eq_one_iff (h : Cuts sep text fields) :
    fields.length = 1 ↔ ¬ sep <:+: text := by
  cases h with
  | last h => simp [h]
  | next hf hr =>
      refine iff_of_false ?_ (not_not.mpr (List.infix_append ..))
      have := List.length_pos_of_ne_nil hr.fields_ne_nil
      rw [List.length_cons]
      omega

/-- Lines without the separator, each ended by it, and a text after them. -/
theorem of_lines (hs : Unbordered sep) {lines : List (List α)} {last : List α}
    (hlines : ∀ line ∈ lines, ¬ sep <:+: line) (hlast : ¬ sep <:+: last) :
    Cuts sep ((lines.map (· ++ sep)).flatten ++ last) (lines ++ [last]) := by
  induction lines with
  | nil => exact .last hlast
  | cons line lines ih =>
      rw [List.forall_mem_cons] at hlines
      have hcut := Cuts.next (hs.no_overlap (ne_nil hlast) hlines.1) (ih hlines.2)
      rwa [List.map_cons, List.flatten_cons, List.append_assoc (line ++ sep)]

/-- Texts without the separator, with one between each two of them. -/
theorem of_intercalate (hs : Unbordered sep) {texts : List (List α)} (htexts : texts ≠ [])
    (h : ∀ text ∈ texts, ¬ sep <:+: text) : Cuts sep (sep.intercalate texts) texts := by
  induction texts with
  | nil => exact absurd rfl htexts
  | cons text texts ih =>
      rw [List.forall_mem_cons] at h
      rcases texts with - | ⟨text', texts⟩
      · rw [List.intercalate_singleton]
        exact .last h.1
      · rw [List.intercalate_cons_cons]
        have hrest := ih (List.cons_ne_nil _ _) h.2
        exact .next (hs.no_overlap (ne_nil h.1) h.1) hrest

/-- No field has the separator in it. -/
theorem not_infix_of_mem (h : Cuts sep text fields) (hf : field ∈ fields) :
    ¬ sep <:+: field := by
  induction h with
  | last h =>
      rw [List.mem_singleton] at hf
      exact hf ▸ h
  | @next first rest fields hfirst hr ih =>
      rcases List.mem_cons.mp hf with rfl | hf
      · exact fun hi => hfirst (hi.trans (List.prefix_append _ _).isInfix)
      · exact ih hf

/-- **One line each**: texts that are each ended by the separator make as many
lines as they are if and only if none of them has a separator in it. -/
theorem terminated_iff (hs : Unbordered sep) (hne : sep ≠ []) {bodies : List (List α)} :
    (∃ lines, Cuts sep (bodies.map (· ++ sep)).flatten (lines ++ [[]]) ∧
      lines.length = bodies.length) ↔ ∀ body ∈ bodies, ¬ sep <:+: body := by
  constructor
  · -- no text makes less than one line
    have hcount : ∃ lines, Cuts sep (bodies.map (· ++ sep)).flatten (lines ++ [[]]) ∧
        bodies.length ≤ lines.length ∧
        (lines.length = bodies.length → ∀ body ∈ bodies, ¬ sep <:+: body) := by
      induction bodies with
      | nil => exact ⟨[], .last fun hi => hne (List.infix_nil.mp hi), Nat.le_refl _, by simp⟩
      | cons body bodies ih =>
          obtain ⟨lines, hcut, hle, hone⟩ := ih
          obtain ⟨fields, hbody⟩ := exists_fields hne body
          have hpos := List.length_pos_of_ne_nil hbody.fields_ne_nil
          refine ⟨fields ++ lines, ?_, ?_, ?_⟩
          · rw [List.append_assoc]
            exact (hbody.snoc hs).append hcut
          · rw [List.length_append, List.length_cons]
            omega
          · intro hlen
            rw [List.length_append, List.length_cons] at hlen
            rw [List.forall_mem_cons]
            exact ⟨hbody.length_eq_one_iff.mp (by omega), hone (by omega)⟩
    obtain ⟨lines, hcut, -, hone⟩ := hcount
    rintro ⟨lines', hcut', hlen⟩
    obtain rfl := List.append_cancel_right (hcut.unique hcut')
    exact hone hlen
  · intro h
    have hnil : ¬ sep <:+: [] := fun hi => hne (List.infix_nil.mp hi)
    have hcut := of_lines hs h hnil
    rw [List.append_nil] at hcut
    exact ⟨bodies, hcut, rfl⟩

/-! ## Single characters -/

/-- Fields without the character that stands between them. -/
theorem of_fields {c : α} {head : List α} {tail : List (List α)} (hhead : c ∉ head)
    (htail : ∀ f ∈ tail, c ∉ f) :
    Cuts [c] (head ++ (tail.map (c :: ·)).flatten) (head :: tail) := by
  induction tail generalizing head with
  | nil =>
      rw [List.map_nil, List.flatten_nil, List.append_nil]
      exact .last ((List.singleton_infix_iff c _).not.mpr hhead)
  | cons f tail ih =>
      rw [List.forall_mem_cons] at htail
      have hfirst : ¬ [c] <:+: head ++ [c].dropLast := by
        rw [List.dropLast_singleton, List.append_nil]
        exact (List.singleton_infix_iff c _).not.mpr hhead
      have hcut := Cuts.next hfirst (ih htail.1 htail.2)
      rwa [List.append_assoc, List.singleton_append] at hcut

/-- A text is cut at a character as it is split there. -/
theorem splitOn [DecidableEq α] (c : α) (text : List α) : Cuts [c] text (text.splitOn c) := by
  induction text with
  | nil => exact .last (by simp)
  | cons x text ih =>
      rw [List.splitOn, List.splitOnP_cons_eq_if_modifyHead]
      change Cuts [c] text (text.splitOnP (· == c)) at ih
      split
      · next hx =>
          rw [← eq_of_beq hx] at ih ⊢
          have hfirst : ¬ [x] <:+: [] ++ [x].dropLast := by simp
          exact .next hfirst ih
      · next hx =>
          have hne : c ≠ x := fun h => hx (beq_iff_eq.mpr h.symm)
          generalize text.splitOnP (· == c) = fields at ih ⊢
          cases ih with
          | last h =>
              refine .last ?_
              rw [List.singleton_infix_iff] at h ⊢
              simp [hne, h]
          | @next field rest fields h hr =>
              have hfirst : ¬ [c] <:+: x :: field ++ [c].dropLast := by
                rw [List.dropLast_singleton, List.append_nil, List.singleton_infix_iff] at h ⊢
                simp [hne, h]
              exact .next hfirst hr

/-- No occurrence of `sep` reaches over a character that it does not have. -/
theorem infix_append_cons_iff {c : α} (hc : c ∉ sep) {left right : List α} :
    sep <:+: left ++ c :: right ↔ sep <:+: left ∨ sep <:+: right := by
  rw [List.infix_append_iff_ne_nil, List.infix_cons_iff]
  constructor
  · rintro (h | (h | h) | ⟨l₁, l₂, -, hne, rfl, -, h⟩)
    · exact Or.inl h
    · rcases List.prefix_cons_iff.mp h with rfl | ⟨t, rfl, -⟩
      · exact Or.inl (List.nil_infix)
      · exact absurd (List.mem_cons_self ..) hc
    · exact Or.inr h
    · rcases List.prefix_cons_iff.mp h with rfl | ⟨t, rfl, -⟩
      · exact absurd rfl hne
      · exact absurd (List.mem_append_right _ (List.mem_cons_self ..)) hc
  · rintro (h | h)
    · exact Or.inl h
    · exact Or.inr (Or.inl (Or.inr h))

end Cuts
