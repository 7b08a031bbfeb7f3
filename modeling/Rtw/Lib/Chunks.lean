import Mathlib.Data.List.Basic

/-!
# Chunks of a stream

A state takes a message in chunks of `w` cells. `push` gives it one cell at a time and keeps an incomplete chunk beside
it: whatever the message has been cut into before, the state is the one after its complete chunks (`foldl_push`).
-/

namespace Chunks

variable {α σ : Type*} {w : Nat} {block : σ → List α → σ} {s : σ} {c buf tail : List α} {cs : List (List α)}

/-- A cell goes behind the incomplete chunk, and a chunk that is complete goes into the state. -/
def push (w : Nat) (block : σ → List α → σ) (s : σ × List α) (a : α) : σ × List α :=
  if s.2.length + 1 < w then (s.1, s.2 ++ [a]) else (block s.1 (s.2 ++ [a]), [])

theorem push_of_lt {a : α} (h : buf.length + 1 < w) : push w block (s, buf) a = (s, buf ++ [a]) := if_pos h

theorem push_of_not_lt {a : α} (h : ¬ buf.length + 1 < w) : push w block (s, buf) a = (block s (buf ++ [a]), []) :=
  if_neg h

theorem length_push (block : σ → List α → σ) (s : σ) (h : buf.length < w) (a : α) :
    (push w block (s, buf) a).2.length < w ∧ (push w block (s, buf) a).2.length % w = (buf.length + 1) % w := by
  by_cases hlt : buf.length + 1 < w
  · rw [push_of_lt hlt, List.length_append, List.length_singleton]
    exact ⟨hlt, rfl⟩
  · have hw : buf.length + 1 = w := by omega
    rw [push_of_not_lt hlt, hw, Nat.mod_self]
    exact ⟨Nat.zero_lt_of_lt h, Nat.zero_mod w⟩

/-- How much is beside the state is told by the lengths. -/
theorem length_foldl_push (l : List α) (p : σ × List α) (h : p.2.length < w) :
    (l.foldl (push w block) p).2.length = (p.2.length + l.length) % w := by
  induction l generalizing p with
  | nil => exact (Nat.mod_eq_of_lt h).symm
  | cons a l ih =>
    obtain ⟨hlt, hmod⟩ := length_push block p.1 h a
    rw [List.foldl_cons, ih _ hlt, List.length_cons, Nat.add_mod, hmod, ← Nat.add_mod]
    congr 1
    omega

theorem foldl_push_tail (h : buf.length + tail.length < w) :
    tail.foldl (push w block) (s, buf) = (s, buf ++ tail) := by
  induction tail generalizing buf with
  | nil => rw [List.append_nil, List.foldl_nil]
  | cons a tail ih =>
    rw [List.length_cons] at h
    have hbuf : (buf ++ [a]).length = buf.length + 1 := by rw [List.length_append, List.length_singleton]
    rw [List.foldl_cons, push_of_lt (by omega), ih (by omega), List.append_assoc]
    rfl

theorem foldl_push_chunk (hw : 0 < w) (h : c.length = w) : c.foldl (push w block) (s, []) = (block s c, []) := by
  obtain ⟨front, a, rfl⟩ : ∃ front a, c = front ++ [a] :=
    ⟨c.dropLast, _, (List.dropLast_append_getLast (List.ne_nil_of_length_pos (by omega))).symm⟩
  rw [List.length_append, List.length_singleton] at h
  have hfront : front.foldl (push w block) (s, []) = (s, [] ++ front) :=
    foldl_push_tail (by rw [List.length_nil]; omega)
  rw [List.foldl_append, hfront, List.nil_append]
  exact push_of_not_lt (by omega)

/-- The complete chunks have gone into the state, and the rest is beside it. -/
theorem foldl_push (hw : 0 < w) (hcs : ∀ c ∈ cs, c.length = w) (htail : tail.length < w) :
    (cs.flatten ++ tail).foldl (push w block) (s, []) = (cs.foldl block s, tail) := by
  induction cs generalizing s with
  | nil => exact foldl_push_tail (by rw [List.length_nil, Nat.zero_add]; exact htail)
  | cons c cs ih =>
    rw [List.flatten_cons, List.append_assoc, List.foldl_append, foldl_push_chunk hw (hcs c List.mem_cons_self),
      ih fun c hc => hcs c (List.mem_cons_of_mem _ hc)]
    rfl

end Chunks
