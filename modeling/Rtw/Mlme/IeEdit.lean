import Rtw.Mlme.IeItems
import Rtw.Mlme.Tim

/-!
# Elements in a buffer

What overwriting a part of a buffer leaves, and the first element of a list at which a search stops when it also looks
at what is behind the element.
-/

namespace Rtw
open Tlv

section
variable {p q r y bs : List UInt8} {x : Ie} {l : List Ie} {off : Nat}

theorem writeAt_append (p r bs : List UInt8) : writeAt (p ++ r) p.length bs = p ++ (bs ++ r.drop bs.length) := by
  have hnone : p.length - (p ++ r).length = 0 := by
    rw [List.length_append]
    omega
  rw [writeAt, List.take_left, hnone, List.replicate_zero, List.append_nil, ← List.drop_drop, List.drop_left,
    List.append_assoc]

/-- A part is overwritten by another one of its length. -/
theorem writeAt_part (h : bs.length = y.length) : writeAt (p ++ (y ++ r)) p.length bs = p ++ (bs ++ r) := by
  rw [writeAt_append, h, List.drop_left]

/-- A part is cut out: what is behind it moves up over it, and zeroes are left behind that. -/
theorem writeAt_moveUp (p y q r : List UInt8) :
    writeAt (writeAt (p ++ (y ++ (q ++ r))) p.length
        (((p ++ (y ++ (q ++ r))).drop (p.length + y.length)).take q.length))
        (p.length + q.length) (.replicate y.length 0) =
      p ++ (q ++ (.replicate y.length 0 ++ r)) := by
  have hread : ((p ++ (y ++ (q ++ r))).drop (p.length + y.length)).take q.length = q := by
    rw [← List.drop_drop, List.drop_left, List.drop_left, List.take_left]
  have hrest : ((y ++ (q ++ r)).drop q.length).drop (List.replicate y.length (0 : UInt8)).length = r := by
    rw [List.length_replicate, List.drop_drop, Nat.add_comm, ← List.drop_drop, List.drop_left, List.drop_left]
  rw [hread, writeAt_append, ← List.append_assoc, ← List.length_append, writeAt_append, hrest, List.append_assoc]

theorem uintSub_of_le {a b : Nat} (hle : b ≤ a) (hlt : a < 2 ^ 32) : uintSub a b = a - b := by
  unfold uintSub
  omega

/-- A property of each element and what is behind it. -/
theorem forall_split_cons {P : Ie → List Ie → Prop} {x : Ie} {l : List Ie} :
    (∀ a y c, x :: l = a ++ y :: c → P y c) ↔ P x l ∧ ∀ a y c, l = a ++ y :: c → P y c := by
  constructor
  · exact fun h => ⟨h [] x l rfl, fun a y c hl => h (x :: a) y c (congrArg (x :: ·) hl)⟩
  · rintro ⟨hx, hl⟩ a y c h
    cases a with
    | nil =>
      obtain ⟨rfl, rfl⟩ := List.cons.inj h
      exact hx
    | cons z a => exact hl a y c (List.cons.inj h).2

/-- No element has the property, or the first one that has it; the property may look at what is behind. -/
theorem exists_firstHit (P : Ie → List UInt8 → Prop) (l : List Ie) (r : List UInt8) :
    (∀ a x b, l = a ++ x :: b → ¬ P x (bytes b ++ r)) ∨
      ∃ a x b, l = a ++ x :: b ∧ P x (bytes b ++ r) ∧
        ∀ a' y b', a = a' ++ y :: b' → ¬ P y (bytes (b' ++ x :: b) ++ r) := by
  induction l with
  | nil => exact .inl fun a x b h => absurd h.symm (List.append_ne_nil_of_right_ne_nil a (List.cons_ne_nil x b))
  | cons x l ih =>
    by_cases hx : P x (bytes l ++ r)
    · refine .inr ⟨[], x, l, rfl, hx, fun a' y b' h => ?_⟩
      exact absurd h.symm (List.append_ne_nil_of_right_ne_nil a' (List.cons_ne_nil y b'))
    · obtain hnone | ⟨a, y, b, rfl, hy, hfirst⟩ := ih
      · exact .inl (forall_split_cons.2 ⟨hx, hnone⟩)
      · refine .inr ⟨x :: a, y, b, rfl, hy, forall_split_cons.2 ⟨?_, hfirst⟩⟩
        exact hx

end

theorem length_zeroFixed : (List.replicate 12 (0 : UInt8)).length = 12 := List.length_replicate

/-- An element whose id and length are the first half of the OUI of P2P. -/
def ouiIe : Ie where
  tag := 0x50
  data := [0x9a, 0x09] ++ List.replicate 109 0
  fits := by
    rw [List.length_append, List.length_replicate]
    decide

theorem length_ouiIe : ouiIe.data.length = 111 := by
  rw [ouiIe, List.length_append, List.length_replicate]
  rfl

end Rtw
