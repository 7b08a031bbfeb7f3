import Mathlib.Data.List.Basic

/-!
# Lists of tagged items

A format writes tag and length of an item into a header of fixed size, and the contents follow. An item carries the
proof that its length fits. `bytes` writes a list of items down: it can be read back (`bytes_append_inj`), and each
string is what its complete items are written as, with a rest that no item begins (`exists_items`).
-/

namespace Tlv

variable {T α : Type*}

/-- A header of `hdr` cells for a tag and a length below `max`. -/
structure Format (T α : Type*) where
  hdr : Nat
  max : Nat
  header : T → Nat → List α
  length_header : ∀ t n, (header t n).length = hdr
  header_inj : ∀ {t n t' n'}, n < max → n' < max → header t n = header t' n' → t = t' ∧ n = n'
  hdr_pos : 0 < hdr

@[ext]
structure Item (F : Format T α) where
  tag : T
  data : List α
  fits : data.length < F.max

variable {F : Format T α} {x y : Item F} {k l m : List (Item F)} {r s s' : List α}

instance [DecidableEq T] [DecidableEq α] : DecidableEq (Item F) := fun x y =>
  decidable_of_iff (x.tag = y.tag ∧ x.data = y.data) ⟨fun h => Item.ext h.1 h.2, fun h => by rw [h]; exact ⟨rfl, rfl⟩⟩

/-- What an item is written as. -/
def Item.bytes (x : Item F) : List α := F.header x.tag x.data.length ++ x.data

/-- What a list of items is written as. -/
def bytes (l : List (Item F)) : List α := l.flatMap Item.bytes

/-- The string does not begin with an item. -/
def Cut (F : Format T α) (s : List α) : Prop := ∀ (x : Item F) r, s ≠ x.bytes ++ r

theorem Item.length_bytes (x : Item F) : x.bytes.length = F.hdr + x.data.length := by
  rw [Item.bytes, List.length_append, F.length_header]

theorem Item.bytes_ne_nil (x : Item F) : x.bytes ≠ [] := by
  have hlen := x.length_bytes
  have hpos := F.hdr_pos
  exact List.ne_nil_of_length_pos (by omega)

@[simp] theorem bytes_nil : bytes ([] : List (Item F)) = [] := rfl

@[simp] theorem bytes_cons : bytes (x :: l) = x.bytes ++ bytes l := List.flatMap_cons

@[simp] theorem bytes_append : bytes (l ++ m) = bytes l ++ bytes m := List.flatMap_append

theorem length_bytes_cons : (bytes (x :: l)).length = F.hdr + x.data.length + (bytes l).length := by
  rw [bytes_cons, List.length_append, x.length_bytes]

theorem length_add_bytes_cons (p : List α) (x : Item F) (l : List (Item F)) :
    p.length + (bytes (x :: l)).length = (p ++ x.bytes).length + (bytes l).length := by
  rw [bytes_cons, List.length_append, List.length_append, Nat.add_assoc]

theorem length_le_bytes (l : List (Item F)) : l.length * F.hdr ≤ (bytes l).length := by
  induction l with
  | nil => exact Nat.le_of_eq (Nat.zero_mul _)
  | cons x l ih =>
    rw [List.length_cons, Nat.succ_mul, length_bytes_cons]
    omega

theorem length_bytes_le_of_sublist (h : l.Sublist m) : (bytes l).length ≤ (bytes m).length := by
  induction h with
  | slnil => exact Nat.le_refl _
  | cons x _ ih =>
    rw [length_bytes_cons]
    exact Nat.le_trans ih (Nat.le_add_left ..)
  | cons_cons x _ ih =>
    rw [length_bytes_cons, length_bytes_cons]
    exact Nat.add_le_add_left ih _

/-- Items are missing only where bytes are. -/
theorem eq_of_sublist_of_length_bytes_le (h : l.Sublist m) (hle : (bytes m).length ≤ (bytes l).length) : l = m := by
  induction h with
  | slnil => rfl
  | cons x h _ =>
    have hshort := length_bytes_le_of_sublist h
    have hpos := F.hdr_pos
    rw [length_bytes_cons] at hle
    omega
  | cons_cons x _ ih =>
    rw [length_bytes_cons, length_bytes_cons] at hle
    rw [ih (Nat.le_of_add_le_add_left hle)]

theorem Item.bytes_append_inj (h : x.bytes ++ r = y.bytes ++ s) : x = y ∧ r = s := by
  unfold Item.bytes at h
  rw [List.append_assoc, List.append_assoc] at h
  obtain ⟨hhdr, hrest⟩ := List.append_inj h (by rw [F.length_header, F.length_header])
  obtain ⟨htag, hlen⟩ := F.header_inj x.fits y.fits hhdr
  obtain ⟨hdata, hr⟩ := List.append_inj hrest hlen
  exact ⟨Item.ext htag hdata, hr⟩

theorem cut_nil : Cut F [] := fun x _ h => x.bytes_ne_nil (List.append_eq_nil_iff.1 h.symm).1

theorem bytes_append_inj (h : bytes l ++ r = bytes m ++ s) (hr : Cut F r) (hs : Cut F s) : l = m ∧ r = s := by
  induction l generalizing m with
  | nil =>
    cases m with
    | nil => exact ⟨rfl, h⟩
    | cons y m =>
      rw [bytes_cons, List.append_assoc] at h
      exact absurd h (hr y _)
  | cons x l ih =>
    cases m with
    | nil =>
      rw [bytes_cons, List.append_assoc] at h
      exact absurd h.symm (hs x _)
    | cons y m =>
      rw [bytes_cons, bytes_cons, List.append_assoc, List.append_assoc] at h
      obtain ⟨rfl, hrest⟩ := Item.bytes_append_inj h
      obtain ⟨rfl, hr⟩ := ih hrest
      exact ⟨rfl, hr⟩

theorem bytes_inj (h : bytes l = bytes m) : l = m := by
  refine (bytes_append_inj (F := F) (r := []) (s := []) ?_ cut_nil cut_nil).1
  rw [h]

/-- Items written before something are the first items of the whole. -/
theorem bytes_eq_append (h : bytes l = bytes k ++ s) : ∃ m, l = k ++ m ∧ s = bytes m := by
  induction k generalizing l with
  | nil => exact ⟨l, rfl, h.symm⟩
  | cons x k ih =>
    cases l with
    | nil =>
      rw [bytes_cons, List.append_assoc] at h
      exact absurd h (cut_nil x _)
    | cons y l =>
      rw [bytes_cons, bytes_cons, List.append_assoc] at h
      obtain ⟨rfl, hrest⟩ := Item.bytes_append_inj h
      obtain ⟨m, rfl, hs⟩ := ih hrest
      exact ⟨m, rfl, hs⟩

/-- The complete items of a string, and the rest. -/
theorem exists_items (F : Format T α) (s : List α) : ∃ l r, s = bytes (F := F) l ++ r ∧ Cut F r := by
  by_cases hcut : Cut F s
  · exact ⟨[], s, rfl, hcut⟩
  · unfold Cut at hcut
    push Not at hcut
    obtain ⟨x, r, hs⟩ := hcut
    have hlt : r.length < s.length := by
      have hlen := congrArg List.length hs
      have hpos := F.hdr_pos
      rw [List.length_append, x.length_bytes] at hlen
      omega
    obtain ⟨l, r', hr, hcut'⟩ := exists_items F r
    refine ⟨x :: l, r', ?_, hcut'⟩
    rw [hs, hr, bytes_cons, List.append_assoc]
termination_by s.length

theorem exists_bytes_iff (h : s = bytes l ++ r) (hr : Cut F r) : (∃ m : List (Item F), s = bytes m) ↔ r = [] := by
  constructor
  · rintro ⟨m, hm⟩
    refine (bytes_append_inj (F := F) (l := l) (m := m) ?_ hr cut_nil).2
    rw [← h, hm, List.append_nil]
  · intro hnil
    refine ⟨l, ?_⟩
    rw [h, hnil, List.append_nil]

end Tlv
