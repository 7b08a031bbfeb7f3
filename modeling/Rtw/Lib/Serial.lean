import Mathlib.Tactic.Ring

/-!
# Serial numbers

Numbers modulo `2 * H` with the half-space comparison: `a` is before `b` when the way forward from
`b` to `a` is at least half of the circle. The comparison is not an order (two numbers exactly `H`
apart are each before the other), but it is the order of the natural numbers that they stand for as
long as those lie less than `H` apart (`less_mod_iff`). `unwrap H N s` is the natural number from `N`
on that the serial number `s` stands for.
-/

namespace Serial

variable {H N a b s : Nat}

/-- The distance from `a` forward to `b`. -/
def dist (H a b : Nat) : Nat := (b + (2 * H - a % (2 * H))) % (2 * H)

/-- `a` is before `b`. -/
def Less (H a b : Nat) : Prop := H ≤ dist H b a

instance : Decidable (Less H a b) := inferInstanceAs (Decidable (_ ≤ _))

/-- The first number from `N` on that has the serial number `s`. -/
def unwrap (H N s : Nat) : Nat := N + dist H N s

theorem dist_lt (hH : 0 < H) : dist H a b < 2 * H := Nat.mod_lt _ (by omega)

@[simp] theorem dist_mod_left : dist H (a % (2 * H)) b = dist H a b := by simp [dist]

@[simp] theorem dist_mod_right : dist H a (b % (2 * H)) = dist H a b := by simp [dist]

@[simp] theorem less_mod_left : Less H (a % (2 * H)) b ↔ Less H a b := by simp [Less]

@[simp] theorem less_mod_right : Less H a (b % (2 * H)) ↔ Less H a b := by simp [Less]

theorem add_dist_mod (hH : 0 < H) : (a + dist H a b) % (2 * H) = b % (2 * H) := by
  have hlt := Nat.mod_lt a (by omega : 2 * H > 0)
  have hsum : a + (b + (2 * H - a % (2 * H))) = b + 2 * H * (a / (2 * H) + 1) := by
    have := Nat.mod_add_div a (2 * H)
    rw [Nat.mul_add, Nat.mul_one]; omega
  rw [dist, Nat.add_mod_mod, hsum, Nat.add_mul_mod_self_left]

theorem dist_of_le (hab : a ≤ b) (hlt : b < a + 2 * H) : dist H a b = b - a := by
  have hH : 0 < H := by omega
  have hmod := Nat.mod_lt a (by omega : 2 * H > 0)
  have hsum : b + (2 * H - a % (2 * H)) = (b - a) + 2 * H * (a / (2 * H) + 1) := by
    have := Nat.mod_add_div a (2 * H)
    rw [Nat.mul_add, Nat.mul_one]; omega
  rw [dist, hsum, Nat.add_mul_mod_self_left, Nat.mod_eq_of_lt (by omega)]

theorem dist_of_gt (hab : b < a) (hlt : a ≤ b + 2 * H) : dist H a b = b + 2 * H - a := by
  have h : dist H a (b + 2 * H) = dist H a b := by
    rw [← dist_mod_right, Nat.add_mod_right, dist_mod_right]
  rw [← h, dist_of_le hlt (by omega)]

/-- Numbers less than `H` apart are compared as they are. -/
theorem less_iff_lt (hab : a < b + H) (hba : b < a + H) : Less H a b ↔ a < b := by
  unfold Less
  rcases Nat.lt_or_ge a b with h | h
  · rw [dist_of_gt h (by omega)]; omega
  · rw [dist_of_le h (by omega)]; omega

/-- A number is before those up to `H` ahead of it. -/
theorem less_of_lt (hab : a < b) (hba : b ≤ a + H) : Less H a b := by
  unfold Less; rw [dist_of_gt hab (by omega)]; omega

theorem le_unwrap : N ≤ unwrap H N s := Nat.le_add_right ..

theorem unwrap_mod (hs : s < 2 * H) : unwrap H N s % (2 * H) = s := by
  rw [unwrap, add_dist_mod (by omega), Nat.mod_eq_of_lt hs]

end Serial
