import Mathlib.Data.List.Chain
import Mathlib.Data.List.Perm.Basic

/-!
# Reorder buffers over the natural numbers

A reorder buffer takes numbered items in any order and hands them on in the order of their numbers.
It keeps the number it waits for (`next`), the items that came too early (`pending`, sorted) and,
for reasoning, everything handed on so far (`handed`). An item at `W` or more beyond `next` pulls
`next` along (`advance`), and a flush moves `next` to the first pending item, so numbers can be
skipped but never come back. `Inv` is what holds between the operations: in particular
`handed ++ pending` is one increasing list without jumps of more than `H`, and handing items on
only moves the border in it.
-/

namespace ReorderBuffer

variable {α : Type*} {W H n next : Nat} {a : α}

/-- A reorder buffer with the history of what it handed on. -/
structure Buf (α : Type*) where
  next : Nat
  handed : List (Nat × α)
  pending : List (Nat × α)

/-- `y` follows `x` with a jump of at most `H`. -/
def Follows (H : Nat) (x y : Nat × α) : Prop := x.1 < y.1 ∧ y.1 ≤ x.1 + H

/-- Insert an item at its place; `none` when its number is there already. -/
def place (n : Nat) (a : α) : List (Nat × α) → Option (List (Nat × α))
  | [] => some [(n, a)]
  | x :: l =>
    if x.1 < n then (place n a l).map (x :: ·)
    else if x.1 = n then none
    else some ((n, a) :: x :: l)

/-- Where the window starts once `n` has come. -/
def advance (W next n : Nat) : Nat :=
  if n = next then next + 1 else if next + W ≤ n then n + 1 - W else next

/-- Hand on pending items from the front as long as they are not beyond `next`. -/
def drain (next : Nat) (handed : List (Nat × α)) : List (Nat × α) → Buf α
  | [] => ⟨next, handed, []⟩
  | x :: l =>
    if x.1 ≤ next then drain (if x.1 = next then next + 1 else next) (handed ++ [x]) l
    else ⟨next, handed, x :: l⟩

namespace Buf

/-- Take in an item that is not behind `next`. -/
def offer (W : Nat) (b : Buf α) (n : Nat) (a : α) : Buf α :=
  match place n a b.pending with
  | none => { b with next := advance W b.next n }
  | some l => drain (advance W b.next n) b.handed l

/-- Give up on the missing numbers before the first pending item. -/
def flush (b : Buf α) : Buf α :=
  match b.pending with
  | [] => b
  | x :: _ => drain x.1 b.handed b.pending

/-- What holds of a buffer between two operations. -/
structure Inv (W H : Nat) (b : Buf α) : Prop where
  chain : (b.handed ++ b.pending).IsChain (Follows H)
  behind : ∀ x ∈ b.handed, x.1 < b.next
  ahead : ∀ x ∈ b.pending, b.next < x.1
  window : ∀ x ∈ b.pending, x.1 < b.next + W
  flushed : b.pending = [] → ∀ x ∈ b.handed.getLast?, x.1 + 1 = b.next

end Buf

/-! ### Increasing lists -/

theorem pairwise_of_chain {l : List (Nat × α)} (h : l.IsChain (Follows H)) :
    l.Pairwise (fun x y => x.1 < y.1) := by
  have : IsTrans (Nat × α) (fun x y => x.1 < y.1) := ⟨fun _ _ _ => Nat.lt_trans⟩
  exact List.isChain_iff_pairwise.1 (h.imp fun _ _ => And.left)

theorem le_getLast {l : List (Nat × α)} (h : l.Pairwise (fun x y => x.1 < y.1)) {x y : Nat × α}
    (hx : x ∈ l) (hy : y ∈ l.getLast?) : x.1 ≤ y.1 := by
  obtain ⟨l', rfl⟩ := List.getLast?_eq_some_iff.1 hy
  rcases List.mem_append.1 hx with hx | hx
  · exact Nat.le_of_lt ((List.pairwise_append.1 h).2.2 x hx y (List.mem_singleton_self y))
  · rw [List.mem_singleton.1 hx]

/-! ### `place` -/

theorem place_perm {l l' : List (Nat × α)} (h : place n a l = some l') : l'.Perm ((n, a) :: l) := by
  induction l generalizing l' with
  | nil => obtain rfl := Option.some.inj h; rfl
  | cons x l ih =>
    simp only [place] at h
    split at h
    · obtain ⟨m, hm, rfl⟩ := Option.map_eq_some_iff.1 h
      exact ((ih hm).cons x).trans (.swap ..)
    · split at h
      · cases h
      · obtain rfl := Option.some.inj h; rfl

theorem mem_place {l l' : List (Nat × α)} (h : place n a l = some l') {x : Nat × α} :
    x ∈ l' ↔ x = (n, a) ∨ x ∈ l := by
  rw [(place_perm h).mem_iff, List.mem_cons]

/-- Only a number that is there already is refused. -/
theorem place_eq_none {l : List (Nat × α)} (h : place n a l = none) : ∃ x ∈ l, x.1 = n := by
  induction l with
  | nil => cases h
  | cons x l ih =>
    simp only [place] at h
    split at h
    · obtain ⟨y, hy, hn⟩ := ih (Option.map_eq_none_iff.1 h)
      exact ⟨y, List.mem_cons_of_mem x hy, hn⟩
    · split at h
      · exact ⟨x, List.mem_cons_self .., ‹_›⟩
      · cases h

/-- Inserting keeps the chain when the new number is beyond `p` and not far from both ends. -/
theorem isChain_append_place {p l l' : List (Nat × α)} (h : place n a l = some l')
    (hc : (p ++ l).IsChain (Follows H)) (hp : ∀ x ∈ p.getLast?, x.1 < n)
    (hfar : ∀ x ∈ (p ++ l).getLast?, n ≤ x.1 + H) (hl : ∀ x ∈ l, x.1 ≤ n + H) :
    (p ++ l').IsChain (Follows H) := by
  induction l generalizing p l' with
  | nil =>
    obtain rfl := Option.some.inj h
    rw [List.append_nil] at hc hfar
    exact hc.append (List.isChain_singleton _) fun x hx y hy => by
      obtain rfl : (n, a) = y := by simpa using hy
      exact ⟨hp x hx, hfar x hx⟩
  | cons x l ih =>
    simp only [place] at h
    split at h
    case isTrue hxn =>
      obtain ⟨m, hm, rfl⟩ := Option.map_eq_some_iff.1 h
      have := ih (p := p ++ [x]) hm (by simpa using hc) (by simpa using hxn) (by simpa using hfar)
        (fun y hy => hl y (List.mem_cons_of_mem x hy))
      simpa using this
    case isFalse hxn =>
      split at h
      · cases h
      case isFalse hne =>
        obtain rfl := Option.some.inj h
        obtain ⟨hp', hxl, hpx⟩ := List.isChain_append.1 hc
        -- the item stands between the end of `p` and `x`, which were at most `H` apart
        refine hp'.append ?_ fun y hy z hz => ?_
        · exact List.isChain_cons_cons.2 ⟨⟨by simp only; omega, hl x (List.mem_cons_self ..)⟩, hxl⟩
        · obtain rfl : (n, a) = z := by simpa using hz
          have := hpx y hy x (by simp)
          exact ⟨hp y hy, by have := this.2; simp only; omega⟩

/-! ### `drain` -/

section drain
variable {handed l : List (Nat × α)}

/-- Draining moves the border between what is handed on and what is pending. -/
theorem drain_append (next : Nat) (handed l : List (Nat × α)) :
    (drain next handed l).handed ++ (drain next handed l).pending = handed ++ l := by
  induction l generalizing next handed with
  | nil => rfl
  | cons x l ih =>
    rw [drain]; split
    · rw [ih]; simp
    · rfl

theorem le_drain_next (next : Nat) (handed l : List (Nat × α)) : next ≤ (drain next handed l).next := by
  induction l generalizing next handed with
  | nil => rfl
  | cons x l ih =>
    rw [drain]; split
    · exact le_trans (by split <;> omega) (ih ..)
    · rfl

theorem drain_handed_lt (h : ∀ x ∈ handed, x.1 < next) :
    ∀ x ∈ (drain next handed l).handed, x.1 < (drain next handed l).next := by
  induction l generalizing next handed with
  | nil => exact h
  | cons x l ih =>
    rw [drain]; split
    · refine ih fun y hy => ?_
      rcases List.mem_append.1 hy with hy | hy
      · have := h y hy; split <;> omega
      · obtain rfl := List.mem_singleton.1 hy; split <;> omega
    · exact h

theorem lt_drain_pending (hl : l.Pairwise (fun x y => x.1 < y.1)) :
    ∀ x ∈ (drain next handed l).pending, (drain next handed l).next < x.1 := by
  induction l generalizing next handed with
  | nil => intro x hx; cases hx
  | cons x l ih =>
    have hx := List.pairwise_cons.1 hl
    rw [drain]; split
    · exact ih hx.2
    · rintro y hy
      rcases List.mem_cons.1 hy with rfl | hy
      · simp only; omega
      · have := hx.1 y hy; simp only; omega

theorem drain_pending_subset : ∀ x ∈ (drain next handed l).pending, x ∈ l := by
  induction l generalizing next handed with
  | nil => intro x hx; exact hx
  | cons x l ih =>
    rw [drain]; split
    · exact fun y hy => List.mem_cons_of_mem x (ih y hy)
    · exact fun y hy => hy

/-- When everything is handed on, `next` is right behind the last item, unless it was beyond it. -/
theorem drain_flushed (hl : l.Pairwise (fun x y => x.1 < y.1)) (hlast : ∀ x ∈ l.getLast?, next ≤ x.1 + 1)
    (h : (drain next handed l).pending = []) :
    ∀ x ∈ l.getLast?, x.1 + 1 = (drain next handed l).next := by
  induction l generalizing next handed with
  | nil => intro x hx; cases hx
  | cons x l ih =>
    have hx := List.pairwise_cons.1 hl
    rw [drain] at h ⊢
    split at h
    case isFalse => cases h
    case isTrue hle =>
      rw [if_pos hle]
      cases l with
      | nil =>
        intro z hz
        obtain rfl : x = z := by simpa using hz
        have := hlast x rfl
        simp only [drain]; split <;> omega
      | cons y l =>
        rw [List.getLast?_cons_cons] at hlast ⊢
        refine ih hx.2 (fun z hz => ?_) h
        have hz' := hx.1 z (List.mem_of_getLast? hz)
        have := hlast z hz
        split <;> omega

end drain

/-! ### The invariant -/

theorem le_advance (W next n : Nat) : next ≤ advance W next n := by
  unfold advance; split
  · omega
  · split <;> omega

theorem advance_le (hW : 0 < W) : advance W next n ≤ max next (n + 1) := by
  unfold advance; split
  · omega
  · split <;> omega

theorem lt_advance_add (hW : 0 < W) : n < advance W next n + W := by
  unfold advance; split
  · omega
  · split <;> omega

namespace Buf
variable {b : Buf α}

theorem Inv.sorted (h : b.Inv W H) : b.pending.Pairwise (fun x y => x.1 < y.1) :=
  (List.pairwise_append.1 (pairwise_of_chain h.chain)).2.1

/-- A buffer that has seen nothing may start anywhere. -/
theorem Inv.start (next : Nat) : Inv W H (⟨next, [], []⟩ : Buf α) where
  chain := List.isChain_nil
  behind := by simp
  ahead := by simp
  window := by simp
  flushed := by simp

theorem Inv.far (h : b.Inv W H) (hn : n < b.next + H) :
    ∀ x ∈ (b.handed ++ b.pending).getLast?, n ≤ x.1 + H := by
  intro x hx
  cases hp : b.pending with
  | nil =>
    rw [hp, List.append_nil] at hx
    have := h.flushed hp x hx; omega
  | cons y l =>
    have hx' : x ∈ b.pending := by
      rw [List.getLast?_append_of_ne_nil _ (by simp [hp])] at hx
      exact List.mem_of_getLast? hx
    have := h.ahead x hx'; omega

theorem Inv.chain_place (h : b.Inv W H) (hWH : W ≤ H) (hle : b.next ≤ n) (hlt : n < b.next + H)
    {l : List (Nat × α)} (hl : place n a b.pending = some l) : (b.handed ++ l).IsChain (Follows H) :=
  isChain_append_place hl h.chain
    (fun x hx => lt_of_lt_of_le (h.behind x (List.mem_of_getLast? hx)) hle) (h.far hlt)
    (fun x hx => by have := h.window x hx; omega)

theorem Inv.sorted_place (h : b.Inv W H) (hWH : W ≤ H) (hle : b.next ≤ n) (hlt : n < b.next + H)
    {l : List (Nat × α)} (hl : place n a b.pending = some l) : l.Pairwise (fun x y => x.1 < y.1) :=
  (List.pairwise_append.1 (pairwise_of_chain (h.chain_place hWH hle hlt hl))).2.1

theorem Inv.offer (h : b.Inv W H) (hW : 0 < W) (hWH : W ≤ H) (hle : b.next ≤ n) (hlt : n < b.next + H) :
    (b.offer W n a).Inv W H := by
  have hadv := le_advance W b.next n
  unfold Buf.offer
  split
  case h_1 hnone =>
    -- a duplicate lies inside the window, which therefore stays
    obtain ⟨x, hx, rfl⟩ := place_eq_none hnone
    have ha := h.ahead x hx
    have hw := h.window x hx
    have : advance W b.next x.1 = b.next := by unfold advance; rw [if_neg (by omega), if_neg (by omega)]
    rw [this]; exact h
  case h_2 l hl =>
    have hchain := h.chain_place hWH hle hlt hl
    have hsorted := h.sorted_place hWH hle hlt hl
    have hmem : (n, a) ∈ l := (mem_place hl).2 (.inl rfl)
    refine ⟨by rwa [drain_append], drain_handed_lt fun x hx => ?_, lt_drain_pending hsorted,
      fun x hx => ?_, fun hnil => ?_⟩
    · exact lt_of_lt_of_le (h.behind x hx) hadv
    · refine lt_of_lt_of_le ?_ (Nat.add_le_add_right (le_drain_next ..) W)
      rcases (mem_place hl).1 (drain_pending_subset x hx) with rfl | hx
      · exact lt_advance_add hW
      · have := h.window x hx; omega
    · have hall := drain_append (advance W b.next n) b.handed l
      rw [hnil, List.append_nil] at hall
      rw [hall, List.getLast?_append_of_ne_nil _ (List.ne_nil_of_mem hmem)]
      refine drain_flushed hsorted (fun x hx => ?_) hnil
      have hnx : n ≤ x.1 := le_getLast hsorted hmem hx
      have : advance W b.next n ≤ max b.next (n + 1) := advance_le hW
      omega

theorem mem_offer {x : Nat × α} (hx : x ∈ (b.offer W n a).handed ++ (b.offer W n a).pending) :
    x = (n, a) ∨ x ∈ b.handed ++ b.pending := by
  unfold Buf.offer at hx
  split at hx
  · exact .inr hx
  case h_2 l hl =>
    rw [drain_append] at hx
    rcases List.mem_append.1 hx with hx | hx
    · exact .inr (List.mem_append_left _ hx)
    · exact ((mem_place hl).1 hx).imp_right (List.mem_append_right _)

theorem flush_append : b.flush.handed ++ b.flush.pending = b.handed ++ b.pending := by
  unfold Buf.flush
  split
  · rfl
  · exact drain_append ..

theorem Inv.flush (h : b.Inv W H) : b.flush.Inv W H := by
  unfold Buf.flush
  split
  case h_1 => exact h
  case h_2 x l hl =>
    have hx : x ∈ b.pending := by rw [hl]; exact List.mem_cons_self ..
    have hnext := h.ahead x hx
    refine ⟨by rw [drain_append]; exact h.chain, drain_handed_lt fun y hy => ?_,
      lt_drain_pending h.sorted, fun y hy => ?_, fun hnil => ?_⟩
    · exact lt_trans (h.behind y hy) hnext
    · have := h.window y (drain_pending_subset y hy)
      have := le_drain_next x.1 b.handed b.pending
      omega
    · have hall := drain_append x.1 b.handed b.pending
      rw [hnil, List.append_nil] at hall
      rw [hall, List.getLast?_append_of_ne_nil _ (List.ne_nil_of_mem hx)]
      exact drain_flushed h.sorted (fun y hy => Nat.le_succ_of_le (le_getLast h.sorted hx hy)) hnil

end Buf

end ReorderBuffer
