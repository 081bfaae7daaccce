import Mathlib.Data.Set.Basic
import Mathlib.Logic.Function.Basic

/-! Buffers that are filled from one another a cell at a time, in any order and with interruptions:
of which frame each cell is, and that a buffer is never ahead of the one it is filled from. -/
namespace PolymorphOS
namespace StagedCopy

/-- A buffer, and the number of the frame that each cell is of; zero for none. -/
structure Stage (I V : Type*) where
  cells : I → V
  frame : I → ℕ

namespace Stage

variable {I V : Type*}

/-- What has been there from the start is of this frame. -/
def ofFrame (cells : I → V) (n : ℕ) : Stage I V := ⟨cells,fun _ => n⟩

/-- Every cell that is of a frame has what the frame has there. -/
def Holds (s : Stage I V) (frames : ℕ → I → V) : Prop :=
  ∀ i, 0 < s.frame i → s.cells i = frames (s.frame i) i

/-- No cell of `t` is of a later frame than in `s`. -/
def Ahead (s t : Stage I V) : Prop := ∀ i, t.frame i ≤ s.frame i

/-- All cells but those left are of this frame or of a later one. -/
def Since (s : Stage I V) (n : ℕ) (left : Set I) : Prop := ∀ i, i ∉ left → n ≤ s.frame i

variable {frames frames' : ℕ → I → V} {s s' t u : Stage I V} {left left' : Set I} {i : I} {n m : ℕ}

theorem Holds.congr (h : s.Holds frames)
    (hframes : ∀ i, 0 < s.frame i → frames' (s.frame i) i = frames (s.frame i) i) :
    s.Holds frames' := fun i hi => (h i hi).trans (hframes i hi).symm

theorem holds_ofFrame {cells : I → V} (h : cells = frames n) : (ofFrame cells n).Holds frames :=
  fun i _ => congrFun h i

theorem Ahead.refl (s : Stage I V) : s.Ahead s := fun _ => le_rfl

theorem Ahead.trans (h : s.Ahead t) (h' : t.Ahead u) : s.Ahead u := fun i => (h' i).trans (h i)

theorem Since.mono (h : t.Since n left) (hs : s.Ahead t) (hm : m ≤ n) : s.Since m left :=
  fun i hi => hm.trans ((h i hi).trans (hs i))

/-- Nothing is left. -/
theorem Since.le (h : s.Since n ∅) (i : I) : n ≤ s.frame i := h i id

variable [DecidableEq I]

/-- The cell of `s` comes into `t`. -/
def copy (s t : Stage I V) (i : I) : Stage I V where
  cells := Function.update t.cells i (s.cells i)
  frame := Function.update t.frame i (s.frame i)

theorem copy_frame_self (s t : Stage I V) (i : I) : (s.copy t i).frame i = s.frame i :=
  Function.update_self ..

theorem copy_frame_of_ne (s t : Stage I V) {i j : I} (h : j ≠ i) :
    (s.copy t i).frame j = t.frame j := Function.update_of_ne h ..

theorem Holds.copy (hs : s.Holds frames) (ht : t.Holds frames) : (s.copy t i).Holds frames := by
  intro j hj
  by_cases h : j = i
  · subst h
    rw [copy_frame_self] at hj ⊢
    exact (Function.update_self ..).trans (hs j hj)
  · rw [copy_frame_of_ne s t h] at hj ⊢
    exact (Function.update_of_ne h ..).trans (ht j hj)

/-- The buffer that is filled stays behind. -/
theorem Ahead.copy (h : s.Ahead t) : s.Ahead (s.copy t i) := by
  intro j
  by_cases hj : j = i
  · rw [hj,copy_frame_self]
  · rw [copy_frame_of_ne s t hj]
    exact h j

/-- It only gets newer. -/
theorem Ahead.copy_ahead (h : s.Ahead t) : (s.copy t i).Ahead t := by
  intro j
  by_cases hj : j = i
  · rw [hj,copy_frame_self]
    exact h i
  · rw [copy_frame_of_ne s t hj]

/-- One cell less is left. -/
theorem Since.copy (h : t.Since n left) (hs : n ≤ s.frame i)
    (hleft : ∀ j ∈ left, j ≠ i → j ∈ left') : (s.copy t i).Since n left' := by
  intro j hj
  by_cases h' : j = i
  · rw [h',copy_frame_self]
    exact hs
  · rw [copy_frame_of_ne s t h']
    exact h j fun hmem => hj (hleft j hmem h')

end Stage
end StagedCopy
end PolymorphOS
