import Mathlib.Data.Int.Notation
import Mathlib.Data.List.Basic

/-!
# What a computation touches

A computation on memory objects, given by its value and by the spans of bytes that it reads or writes on the
way. `Within size m` says that all of them are inside their objects: a rule for each way of putting
computations together gives it from the parts. An offset may be negative, as the result of a subtraction.
-/

namespace Access

variable {O α β : Type*} {size : O → Nat}

/-- `len` bytes of `obj` from `off` on. -/
structure Span (O : Type*) where
  obj : O
  off : Int
  len : Nat

/-- The span is inside its object. -/
def Span.In (size : O → Nat) (s : Span O) : Prop := s.len = 0 ∨ 0 ≤ s.off ∧ s.off + s.len ≤ size s.obj

instance (s : Span O) : Decidable (s.In size) := inferInstanceAs (Decidable (_ ∨ _))

/-- A value, and what has been touched to get it. -/
structure Traced (O α : Type*) where
  val : α
  spans : List (Span O)

namespace Traced

instance : Monad (Traced O) where
  pure a := ⟨a, []⟩
  bind m f := ⟨(f m.val).val, m.spans ++ (f m.val).spans⟩

/-- Read or write `len` bytes. -/
def touch (obj : O) (off : Int) (len : Nat) : Traced O Unit := ⟨(), [⟨obj, off, len⟩]⟩

/-- The same under a condition. -/
def touchIf (c : Prop) [Decidable c] (obj : O) (off : Int) (len : Nat) : Traced O Unit :=
  if c then touch obj off len else pure ()

/-- Nothing outside the objects is touched. -/
def Within (size : O → Nat) (m : Traced O α) : Prop := ∀ s ∈ m.spans, s.In size

instance (m : Traced O α) : Decidable (Within size m) := inferInstanceAs (Decidable (∀ s ∈ m.spans, s.In size))

section
variable {α β : Type _} {m : Traced O α} {f : α → Traced O β} {a : α} {obj : O} {off : Int} {len : Nat}

@[simp] theorem val_pure : (pure a : Traced O α).val = a := rfl

@[simp] theorem val_bind : (m >>= f).val = (f m.val).val := rfl

@[simp] theorem val_touch : (touch obj off len).val = () := rfl

@[simp] theorem within_pure : Within size (pure a : Traced O α) := fun _ h => by cases h

@[simp] theorem within_bind : Within size (m >>= f) ↔ Within size m ∧ Within size (f m.val) :=
  List.forall_mem_append

@[simp] theorem within_touch : Within size (touch obj off len) ↔ len = 0 ∨ 0 ≤ off ∧ off + len ≤ size obj :=
  List.forall_mem_singleton

theorem within_touch_nat {off : Nat} : Within size (touch obj off len) ↔ len = 0 ∨ off + len ≤ size obj := by
  rw [within_touch]
  omega

theorem within_touch_pos {off : Nat} (h : len ≠ 0) : Within size (touch obj off len) ↔ off + len ≤ size obj :=
  within_touch_nat.trans (or_iff_right h)

theorem within_touch_zero : Within size (touch obj 0 len) ↔ len ≤ size obj := by
  rw [within_touch]
  omega

@[simp] theorem within_touchIf {c : Prop} [Decidable c] :
    Within size (touchIf c obj off len) ↔ (c → Within size (touch obj off len)) := by
  unfold touchIf
  split
  · exact ⟨fun h _ => h, fun h => h ‹_›⟩
  · exact iff_of_true within_pure fun h => absurd h ‹_›

theorem val_foldlM {f : β → α → Traced O β} {l : List α} {b : β} :
    (l.foldlM f b).val = l.foldl (fun b a => (f b a).val) b := by
  induction l generalizing b with
  | nil => rfl
  | cons a l ih =>
    rw [List.foldlM_cons, val_bind, ih]
    rfl

/-- A loop over a list stays inside the objects exactly if each of its rounds does. -/
theorem within_foldlM_iff {f : β → α → Traced O β} {l : List α} {b : β} : Within size (l.foldlM f b) ↔
    ∀ as a bs, l = as ++ a :: bs → Within size (f (as.foldl (fun b a => (f b a).val) b) a) := by
  induction l generalizing b with
  | nil => exact iff_of_true within_pure fun as a bs h => by cases as <;> cases h
  | cons a l ih =>
    rw [List.foldlM_cons, within_bind, ih]
    constructor
    · rintro ⟨ha, hl⟩ as a' bs h
      cases as with
      | nil =>
        cases h
        exact ha
      | cons x as =>
        obtain ⟨rfl, hrest⟩ := List.cons.inj h
        exact hl as a' bs hrest
    · exact fun h => ⟨h [] a l rfl, fun as a' bs hrest => h (a :: as) a' bs (congrArg (List.cons a) hrest)⟩

theorem within_foldlM_range {f : β → Nat → Traced O β} {k : Nat} {b : β} : Within size ((List.range k).foldlM f b) ↔
    ∀ i < k, Within size (f ((List.range i).foldl (fun b a => (f b a).val) b) i) := by
  rw [within_foldlM_iff]
  constructor
  · intro h i hi
    have hlt : i < (List.range k).length := by
      rw [List.length_range]
      exact hi
    refine h (List.range i) i ((List.range k).drop (i + 1)) ?_
    have hsplit := (List.range k).take_append_drop i
    rw [List.drop_eq_getElem_cons hlt, List.getElem_range, List.take_range, Nat.min_eq_left (Nat.le_of_lt hi)] at hsplit
    exact hsplit.symm
  · intro h as i bs heq
    have hlen : as.length < k := by
      have := congrArg List.length heq
      rw [List.length_range, List.length_append, List.length_cons] at this
      omega
    have has : as = List.range as.length := by
      have := congrArg (List.take as.length) heq
      rwa [List.take_left, List.take_range, Nat.min_eq_left (Nat.le_of_lt hlen), eq_comm] at this
    have hi : i = as.length := by
      have := congrArg (fun l => l[as.length]?) heq
      rw [List.getElem?_append_right (Nat.le_refl _), Nat.sub_self, List.getElem?_range hlen] at this
      exact (Option.some.inj this).symm
    have hin := h as.length hlen
    rw [← has] at hin
    rwa [hi]

end

end Traced

end Access
