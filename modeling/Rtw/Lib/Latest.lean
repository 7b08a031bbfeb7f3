import Mathlib.Data.Set.Function
import Mathlib.Order.Defs.LinearOrder

/-!
# The latest of the highest rank

Messages with a rank come in, and the one to keep is the latest of those with the highest rank.
`IsLatest rank a l` says that `a` is that one in the history `l`, the oldest message first. A table keeps one
record for each key; `injOn_update` is for a record that is replaced or added.
-/

section
variable {α ρ : Type*} [LinearOrder ρ] {rank : α → ρ} {a b : α} {l : List α}

/-- `a` is the last message of `l` whose rank is the highest one. -/
def IsLatest (rank : α → ρ) (a : α) (l : List α) : Prop :=
  ∃ pre post, l = pre ++ a :: post ∧ (∀ b ∈ pre, rank b ≤ rank a) ∧ ∀ b ∈ post, rank b < rank a

namespace IsLatest

theorem singleton (rank : α → ρ) (a : α) : IsLatest rank a [a] := ⟨[], [], rfl, by simp, by simp⟩

theorem mem (h : IsLatest rank a l) : a ∈ l := by
  obtain ⟨pre, post, rfl, -, -⟩ := h
  simp

theorem le (h : IsLatest rank a l) (hb : b ∈ l) : rank b ≤ rank a := by
  obtain ⟨pre, post, rfl, hpre, hpost⟩ := h
  rcases List.mem_append.1 hb with hb | hb
  · exact hpre b hb
  rcases List.mem_cons.1 hb with rfl | hb
  · exact le_rfl
  · exact (hpost b hb).le

/-- A message of no lower rank is the one to keep. -/
theorem replace (h : IsLatest rank a l) (hb : rank a ≤ rank b) : IsLatest rank b (l ++ [b]) :=
  ⟨l, [], rfl, fun _ hc => (h.le hc).trans hb, by simp⟩

/-- A message of lower rank changes nothing. -/
theorem keep (h : IsLatest rank a l) (hb : rank b < rank a) : IsLatest rank a (l ++ [b]) := by
  obtain ⟨pre, post, rfl, hpre, hpost⟩ := h
  refine ⟨pre, post ++ [b], by simp, hpre, fun c hc => ?_⟩
  rcases List.mem_append.1 hc with hc | hc
  · exact hpost c hc
  · rw [List.mem_singleton.1 hc]
    exact hb

end IsLatest

end

section
variable {ι κ : Type*} [DecidableEq ι] {key : ι → κ} {s : Set ι} {i : ι} {k : κ}

/-- The record at `i` gets a key that no other record has. -/
theorem injOn_update (h : Set.InjOn key s) (hk : ∀ j ∈ s, j ≠ i → key j ≠ k) :
    Set.InjOn (Function.update key i k) (insert i s) := by
  intro j hj j' hj' he
  by_cases hji : j = i <;> by_cases hji' : j' = i
  · rw [hji, hji']
  · rw [hji, Function.update_self, Function.update_of_ne hji'] at he
    exact absurd he.symm (hk j' (hj'.resolve_left hji') hji')
  · rw [hji', Function.update_self, Function.update_of_ne hji] at he
    exact absurd he (hk j (hj.resolve_left hji) hji)
  · rw [Function.update_of_ne hji, Function.update_of_ne hji'] at he
    exact h (hj.resolve_left hji) (hj'.resolve_left hji') he

end
