import Mathlib.Algebra.Group.Nat.Defs
import Mathlib.Data.Nat.Basic
import Mathlib.Tactic.Common

/-!
# Rounding to eight bytes

The units of a USB transfer, in both directions, begin at multiples of 8.
-/

namespace Rtw.Usb

def rnd8 (sz : Nat) : Nat := (sz / 8 + if sz % 8 = 0 then 0 else 1) * 8

variable {m n : Nat}

theorem le_rnd8 (n : Nat) : n ≤ rnd8 n := by
  unfold rnd8
  split <;> omega

theorem rnd8_lt (n : Nat) : rnd8 n < n + 8 := by
  unfold rnd8
  split <;> omega

theorem rnd8_mod (n : Nat) : rnd8 n % 8 = 0 := by
  unfold rnd8
  exact Nat.mul_mod_left _ _

theorem rnd8_eq (hle : n ≤ m) (hlt : m < n + 8) (hm : m % 8 = 0) : rnd8 n = m := by
  have h1 := le_rnd8 n
  have h2 := rnd8_lt n
  have h3 := rnd8_mod n
  omega

theorem rnd8_of_mod (h : n % 8 = 0) : rnd8 n = n := rnd8_eq (Nat.le_refl n) (by omega) h

end Rtw.Usb
