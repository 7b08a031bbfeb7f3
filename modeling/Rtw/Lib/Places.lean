import Mathlib.Algebra.BigOperators.Group.Finset.Piecewise
import Mathlib.Algebra.Order.BigOperators.Group.Finset
import Mathlib.Algebra.Order.Group.Multiset

/-!
# Objects of a pool, spread over places

A pool of objects `univ` is kept in places (lists, queues, the hands of a caller): `m p` is what is at
place `p`. `Spread univ m` says that every object of the pool is in exactly one place, once
(`Spread.existsUnique`). It survives the two ways in which an object goes from place to place:
`Spread.move`, from a place where it is known to be, and `Spread.relocate`, from wherever it is.
In the middle of a step some objects are in no place but in its hand: `SpreadBut univ m hand`, with the rules
`SpreadBut.put` and `SpreadBut.take`.
-/

namespace Places

variable {P α : Type*} [Fintype P] {univ : Multiset α} {m m' : P → Multiset α} {p q : P} {a : α}

/-- What is in the places, taken together, is the pool. -/
def Spread (univ : Multiset α) (m : P → Multiset α) : Prop := ∑ p, m p = univ

/-- `a` is taken from wherever it is and put at `q`. -/
def relocate [DecidableEq P] [DecidableEq α] (a : α) (q : P) (m : P → Multiset α) : P → Multiset α :=
  fun p => (m p).filter (· ≠ a) + if p = q then {a} else 0

namespace Spread

theorem le (h : Spread univ m) (p : P) : m p ≤ univ :=
  (Finset.single_le_sum (fun _ _ => Multiset.zero_le _) (Finset.mem_univ p)).trans (le_of_eq h)

theorem mem (h : Spread univ m) (ha : a ∈ m p) : a ∈ univ := Multiset.mem_of_le (h.le p) ha

theorem nodup (h : Spread univ m) (hu : univ.Nodup) (p : P) : (m p).Nodup := Multiset.nodup_of_le (h.le p) hu

theorem exists_mem (h : Spread univ m) (ha : a ∈ univ) : ∃ p, a ∈ m p := by
  obtain ⟨p, -, hp⟩ := Multiset.mem_sum.1 (h ▸ ha)
  exact ⟨p, hp⟩

variable [DecidableEq P]

/-- An object is in one place only. -/
theorem eq_of_mem (h : Spread univ m) (hu : univ.Nodup) (hp : a ∈ m p) (hq : a ∈ m q) : p = q := by
  by_contra hne
  have hle : m p + m q ≤ univ := by
    rw [← h, ← Finset.sum_pair hne]
    exact Finset.sum_le_sum_of_subset_of_nonneg (Finset.subset_univ _) fun _ _ _ => Multiset.zero_le _
  exact Multiset.disjoint_left.1 (Multiset.nodup_add.1 (Multiset.nodup_of_le hle hu)).2.2 hp hq

theorem existsUnique (h : Spread univ m) (hu : univ.Nodup) (ha : a ∈ univ) : ∃! p, a ∈ m p :=
  let ⟨p, hp⟩ := h.exists_mem ha
  ⟨p, hp, fun _ hq => h.eq_of_mem hu hq hp⟩

/-- An object goes from `p` to `q`; the other places are as before. -/
theorem move (h : Spread univ m) (hne : p ≠ q) (hp : m p = a ::ₘ m' p) (hq : m' q = a ::ₘ m q)
    (hrest : ∀ r, r ≠ p → r ≠ q → m' r = m r) : Spread univ m' := by
  have hsum : ∀ n : P → Multiset α, ∑ r, n r = n p + (n q + ∑ r ∈ (Finset.univ.erase p).erase q, n r) :=
    fun n => by
      rw [Finset.add_sum_erase _ _ (Finset.mem_erase.2 ⟨hne.symm, Finset.mem_univ q⟩),
        Finset.add_sum_erase _ _ (Finset.mem_univ p)]
  have hsame : ∑ r ∈ (Finset.univ.erase p).erase q, m' r = ∑ r ∈ (Finset.univ.erase p).erase q, m r :=
    Finset.sum_congr rfl fun r hr =>
      hrest r (Finset.ne_of_mem_erase (Finset.mem_of_mem_erase hr)) (Finset.ne_of_mem_erase hr)
  unfold Spread at h ⊢
  rw [hsum, hsame, hq, ← h, hsum m, hp, Multiset.cons_add, Multiset.cons_add, Multiset.add_cons]

variable [DecidableEq α]

/-- An object of the pool is put at `q`, wherever it was. -/
theorem relocate (h : Spread univ m) (hu : univ.Nodup) (ha : a ∈ univ) :
    Spread univ (Places.relocate a q m) := by
  have hfilter : ∑ p, (m p).filter (· ≠ a) = univ.filter (· ≠ a) := by
    let keep : Multiset α →+ Multiset α :=
      ⟨⟨Multiset.filter (· ≠ a), Multiset.filter_zero _⟩, Multiset.filter_add _⟩
    have hmap := map_sum keep m Finset.univ
    rw [h] at hmap
    exact hmap.symm
  unfold Spread Places.relocate
  rw [Finset.sum_add_distrib, hfilter, Finset.sum_ite_eq' Finset.univ q fun _ => ({a} : Multiset α),
    if_pos (Finset.mem_univ q), ← hu.erase_eq_filter, add_comm, Multiset.singleton_add, Multiset.cons_erase ha]

end Spread

/-- What is in the places and in the hand, taken together, is the pool. -/
def SpreadBut (univ : Multiset α) (m : P → Multiset α) (hand : Multiset α) : Prop := ∑ p, m p + hand = univ

theorem spreadBut_zero : SpreadBut univ m 0 ↔ Spread univ m := by rw [SpreadBut, add_zero, Spread]

/-- Two pools are spread over the same places with no fewer objects in any: then there are as many in each. -/
theorem Spread.card_eq (h : Spread univ m) (h' : Spread univ m')
    (hle : ∀ p, (m p).card ≤ (m' p).card) (p : P) : (m p).card = (m' p).card := by
  have hsum : ∑ p, (m p).card = ∑ p, (m' p).card := by
    have hcard : ∀ n : P → Multiset α, (∑ p, n p).card = ∑ p, (n p).card := fun n =>
      map_sum Multiset.cardHom n Finset.univ
    rw [← hcard, ← hcard]
    exact congrArg Multiset.card (Eq.trans h h'.symm)
  exact (Finset.sum_eq_sum_iff_of_le fun p _ => hle p).1 hsum p (Finset.mem_univ p)

namespace SpreadBut
variable {A B : Multiset α}

theorem congr (h : SpreadBut univ m A) (hm : ∀ p, m' p = m p) : SpreadBut univ m' A := by
  rwa [funext hm]

theorem notMem (h : SpreadBut univ m A) (hu : univ.Nodup) (ha : a ∈ A) (p : P) : a ∉ m p := by
  intro hp
  rw [← show _ = univ from h] at hu
  exact Multiset.disjoint_left.1 (Multiset.nodup_add.1 hu).2.2 (Multiset.mem_sum.2 ⟨p, Finset.mem_univ p, hp⟩) ha

theorem mem (h : SpreadBut univ m A) (ha : a ∈ A) : a ∈ univ := by
  rw [← show _ = univ from h]
  exact Multiset.mem_add.2 (.inr ha)

variable [DecidableEq P]

theorem sum_eq_add (hq : m' q = A + m q) (hrest : ∀ r, r ≠ q → m' r = m r) :
    ∑ p, m' p = A + ∑ p, m p := by
  rw [← Finset.add_sum_erase _ m' (Finset.mem_univ q), ← Finset.add_sum_erase _ m (Finset.mem_univ q), hq,
    add_assoc, Finset.sum_congr rfl fun r hr => hrest r (Finset.ne_of_mem_erase hr)]

/-- Objects go from the hand to `q`. -/
theorem put (h : SpreadBut univ m (A + B)) (hq : m' q = A + m q) (hrest : ∀ r, r ≠ q → m' r = m r) :
    SpreadBut univ m' B := by
  rw [SpreadBut, sum_eq_add hq hrest, ← show _ = univ from h, add_comm A, add_assoc]

/-- Objects go from `q` into the hand. -/
theorem take (h : SpreadBut univ m B) (hq : m q = A + m' q) (hrest : ∀ r, r ≠ q → m' r = m r) :
    SpreadBut univ m' (A + B) := by
  rw [SpreadBut, ← show _ = univ from h, sum_eq_add hq fun r hr => (hrest r hr).symm, ← add_assoc,
    add_comm (∑ p, m' p) A]

end SpreadBut

end Places
