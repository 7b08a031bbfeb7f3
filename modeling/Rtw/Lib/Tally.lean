import Mathlib.Data.List.Nodup
import Mathlib.Data.Int.Basic
import Mathlib.Logic.Function.Basic

/-!
# A counter over marked members

Members of a list carry a mark, and a counter is kept beside the list: `Tally n l p` says that `n` is the
number of members whose mark `p` is set. The counter follows a mark that is set or taken back, and a
member that comes or goes without a mark. With marks of several kinds there is a counter for each.
-/

variable {α : Type*} {n : Int} {l : List α} {p q : α → Bool} {a : α}

def Tally (n : Int) (l : List α) (p : α → Bool) : Prop := n = l.countP p

namespace Tally

theorem zero (l : List α) : Tally 0 l fun _ => false := by
  unfold Tally
  rw [List.countP_false]
  rfl

theorem congr (h : Tally n l p) (hq : ∀ b ∈ l, q b = p b) : Tally n l q := by
  have hc : l.countP q = l.countP p := List.countP_congr fun b hb => by rw [hq b hb]
  unfold Tally at h ⊢
  rw [h, hc]

theorem nonneg (h : Tally n l p) : 0 ≤ n := by
  unfold Tally at h
  omega

theorem pos (h : Tally n l p) (ha : a ∈ l) (hp : p a = true) : 0 < n := by
  have hpos : 0 < l.countP p := List.countP_pos_iff.2 ⟨a, ha, hp⟩
  unfold Tally at h
  omega

/-- A member without a mark comes. -/
theorem append (h : Tally n l p) (ha : p a = false) : Tally n (l ++ [a]) p := by
  unfold Tally at h ⊢
  rw [h, List.countP_append, List.countP_singleton, ha]
  simp

variable [DecidableEq α]

theorem split (h : Tally n l p) (ha : a ∈ l) :
    n = (l.erase a).countP p + (if p a then 1 else 0 : Nat) := by
  unfold Tally at h
  rw [h, (List.perm_cons_erase ha).countP_eq, List.countP_cons, Int.natCast_add]

/-- A member without a mark goes. -/
theorem erase (h : Tally n l p) (hp : p a = false) : Tally n (l.erase a) p := by
  by_cases ha : a ∈ l
  · unfold Tally
    rw [h.split ha, hp]
    simp
  · rw [List.erase_of_not_mem ha]
    exact h

theorem countP_erase_congr (hl : l.Nodup) (hq : ∀ b, b ≠ a → q b = p b) :
    (l.erase a).countP q = (l.erase a).countP p := by
  refine List.countP_congr fun b hb => ?_
  rw [hq b (hl.mem_erase_iff.1 hb).1]

/-- The mark of one member is set. -/
theorem mark (h : Tally n l p) (hl : l.Nodup) (ha : a ∈ l) (hp : p a = false) (hqa : q a = true)
    (hq : ∀ b, b ≠ a → q b = p b) : Tally (n + 1) l q := by
  have hn := h.split ha
  unfold Tally
  rw [(List.perm_cons_erase ha).countP_eq, List.countP_cons, countP_erase_congr hl hq, hqa]
  rw [hp] at hn
  simp at hn ⊢
  exact hn

/-- The mark of one member is taken back. -/
theorem unmark (h : Tally n l p) (hl : l.Nodup) (ha : a ∈ l) (hp : p a = true) (hqa : q a = false)
    (hq : ∀ b, b ≠ a → q b = p b) : Tally (n - 1) l q := by
  have hn := h.split ha
  unfold Tally
  rw [(List.perm_cons_erase ha).countP_eq, List.countP_cons, countP_erase_congr hl hq, hqa]
  rw [hp] at hn
  simp at hn ⊢
  omega

section
variable {κ : Type*} [DecidableEq κ] {m : α → κ → Bool} {i k : κ}

theorem update_of_ne (h : Tally n l fun b => m b i) (hik : i ≠ k) (v : Bool) :
    Tally n l fun b => Function.update m a (Function.update (m a) k v) b i := by
  refine h.congr fun b _ => ?_
  rcases eq_or_ne b a with rfl | hb
  · rw [Function.update_self, Function.update_of_ne hik]
  · rw [Function.update_of_ne hb]

theorem update_mark (h : Tally n l fun b => m b k) (hl : l.Nodup) (ha : a ∈ l) (hp : m a k = false) :
    Tally (n + 1) l fun b => Function.update m a (Function.update (m a) k true) b k := by
  refine h.mark hl ha hp ?_ fun b hb => ?_
  · rw [Function.update_self, Function.update_self]
  · rw [Function.update_of_ne hb]

theorem update_unmark (h : Tally n l fun b => m b k) (hl : l.Nodup) (ha : a ∈ l) (hp : m a k = true) :
    Tally (n - 1) l fun b => Function.update m a (Function.update (m a) k false) b k := by
  refine h.unmark hl ha hp ?_ fun b hb => ?_
  · rw [Function.update_self, Function.update_self]
  · rw [Function.update_of_ne hb]

end

end Tally
