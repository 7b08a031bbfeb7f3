import Mathlib.Order.Basic
import Mathlib.Data.List.Basic

/-!
# Records laid one behind the other

A record begins at `pos` and ends before `stop`. In a chain the first record begins at the aligned start,
and each later one at the aligned end of the record before it.
-/

namespace Chain

variable {α ι : Type*}

/-- `is` is laid out from `a` on and ends at `b`. -/
def Laid (align : α → α) (pos stop : ι → α) : α → List ι → α → Prop
  | a, [], b => a = b
  | a, i :: is, b => pos i = align a ∧ Laid align pos stop (stop i) is b

variable {align : α → α} {pos stop : ι → α} {a b : α} {i j : ι} {is : List ι}

/-- One more record at the aligned end. -/
theorem Laid.snoc (h : Laid align pos stop a is b) (hi : pos i = align b) :
    Laid align pos stop a (is ++ [i]) (stop i) := by
  induction is generalizing a with
  | nil =>
    cases h
    exact ⟨hi, rfl⟩
  | cons j is ih => exact ⟨h.1, ih h.2⟩

variable [Preorder α] (hal : ∀ a, a ≤ align a) (hst : ∀ i, pos i ≤ stop i)
include hal hst

theorem Laid.le (h : Laid align pos stop a is b) : a ≤ b := by
  induction is generalizing a with
  | nil =>
    cases h
    exact le_rfl
  | cons i is ih =>
    calc a ≤ align a := hal a
      _ = pos i := h.1.symm
      _ ≤ stop i := hst i
      _ ≤ b := ih h.2

theorem Laid.le_pos (h : Laid align pos stop a is b) (hi : i ∈ is) : a ≤ pos i := by
  induction is generalizing a with
  | nil => cases hi
  | cons j is ih =>
    have hj : a ≤ pos j := by
      rw [h.1]
      exact hal a
    rcases List.mem_cons.1 hi with rfl | hi
    · exact hj
    · exact (hj.trans (hst j)).trans (ih h.2 hi)

theorem Laid.stop_le (h : Laid align pos stop a is b) (hi : i ∈ is) : stop i ≤ b := by
  induction is generalizing a with
  | nil => cases hi
  | cons j is ih =>
    rcases List.mem_cons.1 hi with rfl | hi
    · exact h.2.le hal hst
    · exact ih h.2 hi

/-- Records do not overlap. -/
theorem Laid.pairwise (h : Laid align pos stop a is b) : is.Pairwise fun i j => stop i ≤ pos j := by
  induction is generalizing a with
  | nil => exact .nil
  | cons i is ih => exact .cons (fun j hj => h.2.le_pos hal hst hj) (ih h.2)

end Chain
