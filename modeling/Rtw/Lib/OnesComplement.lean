import Mathlib.Data.Nat.ModEq

/-!
# One's complement sums

Numbers up to `m` added with the carry brought round. `fold` adds the carries in until there are none: what it gives is
the sum modulo `m`, and zero only for zero. `sum` is the sum of the 16-bit words of a message, before it is folded.
-/

namespace OnesComplement

/-- The carry is added in, `fuel` times at most. -/
def foldLoop (m : Nat) : Nat → Nat → Nat
  | 0, s => s
  | fuel + 1, s => if s / (m + 1) = 0 then s else foldLoop m fuel (s % (m + 1) + s / (m + 1))

def fold (m s : Nat) : Nat := foldLoop m s s

/-- The 16-bit words of a message, a last byte alone being the high one. -/
def sum : List UInt8 → Nat
  | [] => 0
  | [a] => a.toNat * 256
  | a :: b :: l => a.toNat * 256 + b.toNat + sum l

section
variable {m fuel s t : Nat}

theorem carry_modEq : s % (m + 1) + s / (m + 1) ≡ s [MOD m] := by
  have hdiv : s = s % (m + 1) + s / (m + 1) + m * (s / (m + 1)) := by
    conv_lhs => rw [← Nat.mod_add_div s (m + 1), Nat.succ_mul]
    omega
  conv_rhs => rw [hdiv]
  exact (Nat.ModEq.refl _).add (Nat.modEq_zero_iff_dvd.2 (Nat.dvd_mul_right m _)).symm

theorem carry_lt (hm : 0 < m) (hs : s / (m + 1) ≠ 0) : s % (m + 1) + s / (m + 1) < s := by
  have hdiv := Nat.mod_add_div s (m + 1)
  have hq : s / (m + 1) < (m + 1) * (s / (m + 1)) := by
    rw [Nat.succ_mul]
    have := Nat.mul_pos hm (Nat.pos_of_ne_zero hs)
    omega
  omega

theorem foldLoop_le (hm : 0 < m) (h : s ≤ fuel) : foldLoop m fuel s ≤ m := by
  induction fuel generalizing s with
  | zero =>
    obtain rfl : s = 0 := by omega
    exact Nat.zero_le m
  | succ fuel ih =>
    unfold foldLoop
    split
    · case isTrue hs =>
      have := Nat.lt_of_div_eq_zero (Nat.succ_pos m) hs
      omega
    · case isFalse hs =>
      have := carry_lt hm hs
      exact ih (by omega)

theorem foldLoop_modEq : foldLoop m fuel s ≡ s [MOD m] := by
  induction fuel generalizing s with
  | zero => rfl
  | succ fuel ih =>
    unfold foldLoop
    split
    · rfl
    · exact ih.trans carry_modEq

theorem foldLoop_pos (hs : 0 < s) : 0 < foldLoop m fuel s := by
  induction fuel generalizing s with
  | zero => exact hs
  | succ fuel ih =>
    unfold foldLoop
    split
    · exact hs
    · case isFalse hq => exact ih (Nat.add_pos_right _ (Nat.pos_of_ne_zero hq))

theorem fold_le (hm : 0 < m) : fold m s ≤ m := foldLoop_le hm (Nat.le_refl s)

theorem fold_modEq : fold m s ≡ s [MOD m] := foldLoop_modEq

theorem fold_pos (hs : 0 < s) : 0 < fold m s := foldLoop_pos hs

@[simp] theorem fold_zero : fold m 0 = 0 := rfl

/-- All ones: what the sum with a right checksum folds to. -/
theorem fold_eq_self_iff (hm : 0 < m) : fold m s = m ↔ 0 < s ∧ s % m = 0 := by
  constructor
  · intro h
    refine ⟨Nat.pos_of_ne_zero ?_, ?_⟩
    · rintro rfl
      rw [fold_zero] at h
      omega
    · have hmod : fold m s % m = s % m := fold_modEq
      rw [← hmod, h, Nat.mod_self]
  · rintro ⟨hs, hmod⟩
    have hle : fold m s ≤ m := fold_le hm
    have hpos : 0 < fold m s := fold_pos hs
    have hfold : fold m s % m = s % m := fold_modEq
    have hdvd : m ∣ fold m s := Nat.dvd_of_mod_eq_zero (hfold.trans hmod)
    exact Nat.le_antisymm hle (Nat.le_of_dvd hpos hdvd)

end

section
variable {l l' : List UInt8}

theorem sum_append (h : l.length % 2 = 0) : sum (l ++ l') = sum l + sum l' := by
  induction l using sum.induct with
  | case1 => exact (Nat.zero_add _).symm
  | case2 a => cases h
  | case3 a b l ih =>
    rw [List.length_cons, List.length_cons] at h
    show _ + sum (l ++ l') = _ + sum l + sum l'
    rw [ih (by omega), Nat.add_assoc (_ + _)]

theorem sum_pair (a b : UInt8) : sum [a, b] = a.toNat * 256 + b.toNat := by
  rw [sum, sum, Nat.add_zero]

end

end OnesComplement
