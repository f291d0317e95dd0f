import Mathlib.Data.List.Basic

/-!
# Frames that say how long they are

A frame is a header of a fixed length with a body behind it, and the header
gives the length of the body. A row of frames needs no separator: its first
frame can be cut off, and what is behind it is a row of frames again.
-/

/-- A format of frames. -/
structure Framing (α : Type*) where
  headerLen : ℕ
  bodyLen : List α → ℕ
  /-- What stands behind the header does not matter. -/
  bodyLen_take {data : List α} {n : ℕ} (h : headerLen ≤ n) :
    bodyLen (data.take n) = bodyLen data

namespace Framing

variable {α : Type*} (f : Framing α) {data frame : List α}

/-- The length of the frame that `data` begins with. -/
def frameLen (data : List α) : ℕ := f.headerLen + f.bodyLen data

def IsFrame (frame : List α) : Prop := frame.length = f.frameLen frame

def IsFrames (data : List α) : Prop :=
  ∃ frames : List (List α), (∀ frame ∈ frames, f.IsFrame frame) ∧ data = frames.flatten

theorem headerLen_le_frameLen (data : List α) : f.headerLen ≤ f.frameLen data :=
  Nat.le_add_right _ _

theorem frameLen_take {n : ℕ} (h : f.headerLen ≤ n) :
    f.frameLen (data.take n) = f.frameLen data := by
  rw [frameLen, f.bodyLen_take h, frameLen]

theorem isFrame_take (h : f.frameLen data ≤ data.length) :
    f.IsFrame (data.take (f.frameLen data)) := by
  rw [IsFrame, List.length_take_of_le h, f.frameLen_take (f.headerLen_le_frameLen data)]

/-- A frame is as long in front of anything. -/
theorem IsFrame.frameLen_append {f : Framing α} (h : f.IsFrame frame) (rest : List α) :
    f.frameLen (frame ++ rest) = frame.length := by
  have hheader : f.headerLen ≤ frame.length := h ▸ f.headerLen_le_frameLen frame
  rw [← f.frameLen_take hheader, List.take_left, ← h]

theorem isFrames_nil : f.IsFrames [] := ⟨[], by simp, rfl⟩

/-- **The first frame**: a row of frames that is not empty has it whole, and the
rest is one behind it. -/
theorem isFrames_iff (hne : data ≠ []) : f.IsFrames data ↔
    f.frameLen data ≤ data.length ∧ f.IsFrames (data.drop (f.frameLen data)) := by
  constructor
  · rintro ⟨frames, hframes, rfl⟩
    rcases frames with - | ⟨frame, frames⟩
    · exact absurd rfl hne
    · rw [List.forall_mem_cons] at hframes
      rw [List.flatten_cons, hframes.1.frameLen_append, List.drop_left, List.length_append]
      exact ⟨Nat.le_add_right _ _, frames, hframes.2, rfl⟩
  · rintro ⟨hlen, frames, hframes, hrest⟩
    refine ⟨data.take (f.frameLen data) :: frames, ?_, ?_⟩
    · exact List.forall_mem_cons.mpr ⟨f.isFrame_take hlen, hframes⟩
    · rw [List.flatten_cons, ← hrest, List.take_append_drop]

end Framing
