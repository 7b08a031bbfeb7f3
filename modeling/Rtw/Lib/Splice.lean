import Mathlib.Data.List.GetD

/-!
# Moving things in memory

`At mem a l` says that the list `l` is in memory from address `a` on, and `read` gives what is there. `move` and `copy`
are `memmove` and `memcpy`: what they put somewhere is there afterwards, and what is apart from it stays.
-/

namespace Splice

variable {α : Type*} {mem mem' mem'' : Nat → α} {a n dst src : Nat} {l l' x y z : List α} {p q : Nat → Prop}

/-- `l` is in memory from `a` on. -/
def At (mem : Nat → α) (a : Nat) : List α → Prop
  | [] => True
  | x :: l => mem a = x ∧ At mem (a + 1) l

/-- The `n` cells from `a` on. -/
def read (mem : Nat → α) (a n : Nat) : List α := (List.range n).map fun i => mem (a + i)

/-- `n` cells from `src` on are moved to `dst`. -/
def move (dst src n : Nat) (mem : Nat → α) : Nat → α := fun i =>
  if dst ≤ i ∧ i < dst + n then mem (src + (i - dst)) else mem i

/-- `l` is copied to `dst`. -/
def copy (dst : Nat) (l : List α) (mem : Nat → α) : Nat → α := fun i =>
  if dst ≤ i then l[i - dst]?.getD (mem i) else mem i

/-- Memory changes in `p` only. -/
def Only (p : Nat → Prop) (mem mem' : Nat → α) : Prop := ∀ i, ¬ p i → mem' i = mem i

theorem at_iff : At mem a l ↔ ∀ i (h : i < l.length), mem (a + i) = l[i] := by
  induction l generalizing a with
  | nil => exact iff_of_true trivial fun i h => absurd h (Nat.not_lt_zero i)
  | cons x l ih =>
    unfold At
    rw [ih]
    constructor
    · rintro ⟨hx, hl⟩ i h
      cases i with
      | zero => exact hx
      | succ i =>
        rw [List.getElem_cons_succ, ← hl i (Nat.lt_of_succ_lt_succ h)]
        congr 1
        omega
    · intro h
      refine ⟨h 0 (Nat.zero_lt_succ _), fun i hi => ?_⟩
      have hx := h (i + 1) (Nat.succ_lt_succ hi)
      rw [List.getElem_cons_succ] at hx
      rw [← hx]
      congr 1
      omega

theorem at_append : At mem a (l ++ l') ↔ At mem a l ∧ At mem (a + l.length) l' := by
  induction l generalizing a with
  | nil => exact ⟨fun h => ⟨trivial, h⟩, fun h => h.2⟩
  | cons x l ih =>
    have hlen : a + 1 + l.length = a + (x :: l).length := by
      rw [List.length_cons]
      omega
    show _ ∧ At mem (a + 1) (l ++ l') ↔ (_ ∧ At mem (a + 1) l) ∧ _
    rw [ih, hlen, and_assoc]

theorem At.congr (h : At mem a l) (hsame : ∀ i, a ≤ i → i < a + l.length → mem' i = mem i) : At mem' a l := by
  rw [at_iff] at h ⊢
  intro i hi
  rw [hsame _ (by omega) (by omega)]
  exact h i hi

theorem At.move (h : At mem src l) (hn : l.length ≤ n) : At (move dst src n mem) dst l := by
  rw [at_iff] at h ⊢
  intro i hi
  have hin : dst ≤ dst + i ∧ dst + i < dst + n := by omega
  unfold Splice.move
  rw [if_pos hin, Nat.add_sub_cancel_left]
  exact h i hi

theorem At.move_of_apart (h : At mem a l) (hapart : a + l.length ≤ dst ∨ dst + n ≤ a) :
    At (Splice.move dst src n mem) a l := by
  refine h.congr fun i hle hlt => if_neg ?_
  omega

theorem at_copy : At (copy dst l mem) dst l := by
  rw [at_iff]
  intro i hi
  unfold copy
  rw [if_pos (Nat.le_add_right dst i), Nat.add_sub_cancel_left, List.getElem?_eq_getElem hi]
  rfl

theorem At.copy_of_apart (h : At mem a l) (hapart : a + l.length ≤ dst ∨ dst + l'.length ≤ a) :
    At (copy dst l' mem) a l := by
  refine h.congr fun i hle hlt => ?_
  unfold copy
  split
  · rw [List.getElem?_eq_none (by omega)]
    rfl
  · rfl

/-- A part is cut out, and what is behind it moves up. -/
theorem At.cut (h : At mem a (x ++ (y ++ z))) (hn : z.length ≤ n) :
    At (Splice.move (a + x.length) (a + x.length + y.length) n mem) a (x ++ z) := by
  obtain ⟨hx, hyz⟩ := at_append.1 h
  obtain ⟨-, hz⟩ := at_append.1 hyz
  exact at_append.2 ⟨hx.move_of_apart (.inl (Nat.le_refl _)), hz.move hn⟩

/-- A part is overwritten. -/
theorem At.put (h : At mem a (x ++ (y ++ z))) (hlen : l.length = y.length) :
    At (Splice.copy (a + x.length) l mem) a (x ++ (l ++ z)) := by
  obtain ⟨hx, hyz⟩ := at_append.1 h
  obtain ⟨-, hz⟩ := at_append.1 hyz
  refine at_append.2 ⟨hx.copy_of_apart (.inl (Nat.le_refl _)), at_append.2 ⟨at_copy, ?_⟩⟩
  rw [hlen]
  exact hz.copy_of_apart (.inr (by omega))

/-- What is in memory is what it is read as. -/
theorem At.eq_map (h : At mem a l) : (List.range l.length).map (fun i => mem (a + i)) = l := by
  rw [at_iff] at h
  refine List.ext_getElem (by rw [List.length_map, List.length_range]) fun i hi hi' => ?_
  rw [List.getElem_map, List.getElem_range]
  exact h i hi'

@[simp] theorem length_read : (read mem a n).length = n := by simp [read]

theorem getElem_read {i : Nat} (h : i < (read mem a n).length) : (read mem a n)[i] = mem (a + i) := by simp [read]

theorem read_add (m : Nat) : read mem a (n + m) = read mem a n ++ read mem (a + n) m := by
  simp only [read, List.range_add, List.map_append, List.map_map, Function.comp_def, Nat.add_assoc]

theorem read_congr {b : Nat} (h : ∀ i < n, mem (a + i) = mem' (b + i)) : read mem a n = read mem' b n :=
  List.map_congr_left fun i hi => h i (List.mem_range.1 hi)

theorem copy_of_lt {i : Nat} (h : i < dst) : copy dst l mem i = mem i := if_neg (by omega)

theorem copy_of_le {i : Nat} (h : dst + l.length ≤ i) : copy dst l mem i = mem i := by
  rw [copy, if_pos (by omega), List.getElem?_eq_none (by omega)]
  rfl

theorem copy_of_mem {i : Nat} (h : i < l.length) : copy dst l mem (dst + i) = l[i] := by
  rw [copy, if_pos (by omega), Nat.add_sub_cancel_left, List.getElem?_eq_getElem h]
  rfl

theorem read_copy : read (copy dst l mem) dst l.length = l := at_copy.eq_map

theorem Only.refl : Only p mem mem := fun _ _ => rfl

theorem Only.trans (h : Only p mem mem') (h' : Only p mem' mem'') : Only p mem mem'' :=
  fun i hi => (h' i hi).trans (h i hi)

theorem Only.mono (h : Only p mem mem') (hpq : ∀ i, p i → q i) : Only q mem mem' :=
  fun i hi => h i fun hp => hi (hpq i hp)

theorem only_copy : Only (fun i => dst ≤ i ∧ i < dst + l.length) mem (copy dst l mem) := by
  intro i hi
  rcases Nat.lt_or_ge i dst with hlt | hge
  · exact copy_of_lt hlt
  · exact copy_of_le (by omega)

/-- Two copies, one behind the other, are one. -/
theorem copy_copy : copy (dst + l.length) l' (copy dst l mem) = copy dst (l ++ l') mem := by
  funext i
  unfold copy
  by_cases h : dst + l.length ≤ i
  · rw [if_pos h, if_pos (by omega), if_pos (by omega), List.getElem?_append_right (by omega),
      List.getElem?_eq_none (l := l) (by omega), Nat.sub_sub]
    rfl
  · rw [if_neg h]
    by_cases hdst : dst ≤ i
    · rw [if_pos hdst, if_pos hdst, List.getElem?_append_left (by omega)]
    · rw [if_neg hdst, if_neg hdst]

/-- A list that is memory from address 0 on. -/
theorem at_getD {d : α} : At (fun i => l.getD i d) 0 l := by
  rw [at_iff]
  intro i hi
  rw [Nat.zero_add, List.getD_eq_getElem _ _ hi]

end Splice
