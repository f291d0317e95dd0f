import Mathlib.Data.List.Infix

/-!
# What comes before what in a log

`Precedes p q log`: no entry of the second kind stands in the log without an
entry of the first kind before it. A log that only grows keeps what precedes
what, as long as nothing of the second kind is added too early.
-/

variable {α : Type*} {p p' q r : α → Prop} {log marks : List α}

def Precedes (p q : α → Prop) (log : List α) : Prop :=
  ∀ before a after, log = before ++ a :: after → q a → ∃ b ∈ before, p b

namespace Precedes

theorem nil : Precedes p q [] := by
  intro before a after h
  simp at h

theorem exists_mem (h : Precedes p q log) {a : α} (ha : a ∈ log) (hq : q a) : ∃ b ∈ log, p b := by
  obtain ⟨before, after, rfl⟩ := List.append_of_mem ha
  obtain ⟨b, hb, hp⟩ := h before a after rfl hq
  exact ⟨b, List.mem_append_left _ hb, hp⟩

theorem cut (h : Precedes p q log) (hpre : marks <+: log) : Precedes p q marks := by
  obtain ⟨rest, rfl⟩ := hpre
  rintro before a after rfl hq
  exact h before a (after ++ rest) (by simp) hq

/-- An entry of the first kind is there, or none of the second is added. -/
theorem append (h : Precedes p q log) (hnew : (∃ b ∈ log, p b) ∨ ∀ a ∈ marks, ¬ q a) :
    Precedes p q (log ++ marks) := by
  intro before a after heq hq
  rcases List.append_eq_append_iff.mp heq with ⟨middle, hbefore, hmarks⟩ | ⟨middle, hlog, hmarks⟩
  · rcases hnew with ⟨b, hb, hp⟩ | hno
    · exact ⟨b, hbefore ▸ List.mem_append_left _ hb, hp⟩
    · exact absurd hq (hno a (by simp [hmarks]))
  · cases middle with
    | nil =>
        have ha : a ∈ marks := by
          rw [← List.nil_append marks, ← hmarks]
          exact List.mem_cons_self
        rcases hnew with ⟨b, hb, hp⟩ | hno
        · exact ⟨b, by simpa [hlog] using hb, hp⟩
        · exact absurd hq (hno a ha)
    | cons c middle =>
        obtain ⟨rfl, -⟩ := List.cons.inj hmarks
        exact h before a middle hlog hq

theorem trans (h : Precedes p q log) (h' : Precedes q r log) : Precedes p r log := by
  rintro before a after heq hr
  obtain ⟨b, hb, hq⟩ := h' before a after heq hr
  have hpre : before <+: log := ⟨a :: after, heq.symm⟩
  exact (h.cut hpre).exists_mem hb hq

theorem mono (h : Precedes p q log) (himp : ∀ a ∈ log, p a → p' a) : Precedes p' q log := by
  rintro before a after heq hq
  obtain ⟨b, hb, hp⟩ := h before a after heq hq
  exact ⟨b, hb, himp b (heq ▸ List.mem_append_left _ hb) hp⟩

end Precedes
