import Rtw.Lib.Loop

/-!
# Computations that may not return

A `Prog` is run with some fuel, which bounds its loops: with more fuel it comes as far and touches as much at least.
What it returns, and whether it is safe, are about every fuel, so that the rules for putting computations together are
equivalences (`safe_bind`, `returns_bind`). A loop is safe exactly if each round is that is reached (`safe_loop`).
-/

namespace Access
open Traced

variable {O O' : Type*} {α β σ ρ : Type _} {size : O → Nat}

/-- `m'` comes as far as `m` does. -/
structure Upto (m m' : Traced O (Option α)) : Prop where
  val : ∀ a, m.val = some a → m'.val = some a
  spans : m.spans ⊆ m'.spans

/-- Go on with `f` if `m` has come to a value. -/
def andThen (m : Traced O (Option α)) (f : α → Traced O (Option β)) : Traced O (Option β) where
  val := m.val.bind fun a => (f a).val
  spans := m.spans ++ m.val.elim [] fun a => (f a).spans

section
variable {m m' : Traced O (Option α)} {f f' : α → Traced O (Option β)} {a : α} {b : β}

theorem upto_rfl : Upto m m := ⟨fun _ h => h, List.Subset.refl _⟩

theorem upto_andThen (h : Upto m m') (hf : ∀ a, Upto (f a) (f' a)) : Upto (andThen m f) (andThen m' f') := by
  constructor
  · intro b hb
    obtain ⟨a, ha, hb⟩ := Option.bind_eq_some_iff.1 hb
    exact Option.bind_eq_some_iff.2 ⟨a, h.val a ha, (hf a).val b hb⟩
  · refine List.append_subset.2 ⟨List.Subset.trans h.spans (List.subset_append_left _ _), ?_⟩
    cases ha : m.val with
    | none => exact List.nil_subset _
    | some a =>
      show (f a).spans ⊆ m'.spans ++ m'.val.elim [] fun a => (f' a).spans
      rw [h.val a ha]
      exact List.Subset.trans (hf a).spans (List.subset_append_right _ _)

theorem val_andThen : (andThen m f).val = some b ↔ ∃ a, m.val = some a ∧ (f a).val = some b :=
  Option.bind_eq_some_iff

theorem within_andThen : Within size (andThen m f) ↔ Within size m ∧ ∀ a, m.val = some a → Within size (f a) := by
  refine List.forall_mem_append.trans (and_congr_right fun _ => ?_)
  cases m.val with
  | none =>
    refine iff_of_true ?_ fun a h => absurd h.symm (Option.some_ne_none a)
    intro s hs
    cases hs
  | some a =>
    constructor
    · rintro h a' ha
      obtain rfl := Option.some.inj ha
      exact h
    · exact fun h => h a rfl

theorem Upto.within (h : Upto m m') (hin : Within size m') : Within size m := fun s hs => hin s (h.spans hs)

end

/-- A computation with a bound on the rounds of its loops. -/
structure Prog (O α : Type _) where
  run : Nat → Traced O (Option α)
  grows : ∀ {fuel fuel' : Nat}, fuel ≤ fuel' → Upto (run fuel) (run fuel')

namespace Prog

/-- What is computed without a loop. -/
def lift (m : Traced O α) : Prog O α := ⟨fun _ => ⟨some m.val, m.spans⟩, fun _ => upto_rfl⟩

instance : Monad (Prog O) where
  pure a := lift (Pure.pure a)
  bind m f := ⟨fun fuel => andThen (m.run fuel) fun a => (f a).run fuel,
    fun h => upto_andThen (m.grows h) fun a => (f a).grows h⟩

instance : MonadLift (Traced O) (Prog O) := ⟨lift⟩

/-- Read or write `len` bytes. -/
def touch (obj : O) (off len : Nat) : Prog O Unit := lift (Traced.touch obj off len)

/-- The same under a condition. -/
def touchIf (c : Prop) [Decidable c] (obj : O) (off len : Nat) : Prog O Unit := lift (Traced.touchIf c obj off len)

/-- It comes to `a`. -/
def Returns (m : Prog O α) (a : α) : Prop := ∃ fuel, (m.run fuel).val = some a

/-- It touches nothing outside the objects. -/
def Safe (size : O → Nat) (m : Prog O α) : Prop := ∀ fuel, Within size (m.run fuel)

section
variable {m : Prog O α} {f : α → Prog O β} {t : Traced O α} {a a' : α} {b : β}

theorem Returns.unique (h : m.Returns a) (h' : m.Returns a') : a = a' := by
  obtain ⟨fuel, h⟩ := h
  obtain ⟨fuel', h'⟩ := h'
  have ha := (m.grows (Nat.le_max_left fuel fuel')).val a h
  exact Option.some.inj (ha.symm.trans ((m.grows (Nat.le_max_right fuel fuel')).val a' h'))

@[simp] theorem returns_lift : (liftM t : Prog O α).Returns a ↔ a = t.val := by
  constructor
  · rintro ⟨_, h⟩
    exact (Option.some.inj h).symm
  · rintro rfl
    exact ⟨0, rfl⟩

@[simp] theorem safe_lift : (liftM t : Prog O α).Safe size ↔ Within size t :=
  ⟨fun h => h 0, fun h _ => h⟩

@[simp] theorem returns_pure : (pure a : Prog O α).Returns a' ↔ a' = a := returns_lift (t := Pure.pure a)

@[simp] theorem safe_pure : (pure a : Prog O α).Safe size :=
  safe_lift.2 within_pure

@[simp] theorem returns_bind : (m >>= f).Returns b ↔ ∃ a, m.Returns a ∧ (f a).Returns b := by
  constructor
  · rintro ⟨fuel, hb⟩
    obtain ⟨a, ha, hb⟩ := val_andThen.1 hb
    exact ⟨a, ⟨fuel, ha⟩, fuel, hb⟩
  · rintro ⟨a, ⟨fuel, ha⟩, fuel', hb⟩
    refine ⟨max fuel fuel', val_andThen.2 ⟨a, ?_, ?_⟩⟩
    · exact (m.grows (Nat.le_max_left fuel fuel')).val a ha
    · exact ((f a).grows (Nat.le_max_right fuel fuel')).val b hb

@[simp] theorem safe_bind : (m >>= f).Safe size ↔ m.Safe size ∧ ∀ a, m.Returns a → (f a).Safe size := by
  have hrun (fuel : Nat) : Within size ((m >>= f).run fuel) ↔
      Within size (m.run fuel) ∧ ∀ a, (m.run fuel).val = some a → Within size ((f a).run fuel) := within_andThen
  unfold Safe
  simp only [hrun]
  constructor
  · intro h
    refine ⟨fun fuel => (h fuel).1, ?_⟩
    rintro a ⟨fuel, ha⟩ fuel'
    -- with the larger fuel `m` returns, and the rest has come farther than with `fuel'`
    have ha' := (m.grows (Nat.le_max_left fuel fuel')).val a ha
    exact ((f a).grows (Nat.le_max_right fuel fuel')).within ((h (max fuel fuel')).2 a ha')
  · exact fun h fuel => ⟨h.1 fuel, fun a ha => h.2 a ⟨fuel, ha⟩ fuel⟩

end

section
variable {obj : O} {off len : Nat} {c : Prop} [Decidable c] {f : Unit → Prog O β} {b : β}

@[simp] theorem returns_touch : (touch obj off len >>= f).Returns b ↔ (f ()).Returns b := by
  rw [returns_bind]
  exact ⟨fun ⟨_, _, h⟩ => h, fun h => ⟨(), ⟨0, rfl⟩, h⟩⟩

@[simp] theorem safe_touch : (touch obj off len >>= f).Safe size ↔
    (len = 0 ∨ off + len ≤ size obj) ∧ (f ()).Safe size := by
  rw [safe_bind]
  exact and_congr (safe_lift.trans within_touch_nat) ⟨fun h => h () ⟨0, rfl⟩, fun h _ _ => h⟩

@[simp] theorem returns_touchIf : (touchIf c obj off len >>= f).Returns b ↔ (f ()).Returns b := by
  rw [returns_bind]
  exact ⟨fun ⟨_, _, h⟩ => h, fun h => ⟨(), ⟨0, rfl⟩, h⟩⟩

@[simp] theorem safe_touchIf : (touchIf c obj off len >>= f).Safe size ↔
    (c → len = 0 ∨ off + len ≤ size obj) ∧ (f ()).Safe size := by
  rw [safe_bind]
  refine and_congr ?_ ⟨fun h => h () ⟨0, rfl⟩, fun h _ _ => h⟩
  exact safe_lift.trans (within_touchIf.trans (imp_congr_right fun _ => within_touch_nat))

end

/-! ### Loops -/

section
variable {round : σ → Prog O (Round σ ρ)} {s t u : σ} {r : ρ}

/-- The loop for `n` rounds. -/
def loopRun (round : σ → Prog O (Round σ ρ)) (fuel : Nat) : Nat → σ → Traced O (Option ρ)
  | 0, _ => Pure.pure none
  | n + 1, s => andThen ((round s).run fuel) fun
    | .next t => loopRun round fuel n t
    | .stop r => Pure.pure (some r)

theorem upto_loopRun {fuel fuel' n n' : Nat} (hfuel : fuel ≤ fuel') (hn : n ≤ n') :
    Upto (loopRun round fuel n s) (loopRun round fuel' n' s) := by
  induction n generalizing s n' with
  | zero => exact ⟨fun r hr => absurd hr.symm (Option.some_ne_none r), List.nil_subset _⟩
  | succ n ih =>
    obtain ⟨n', rfl⟩ : ∃ k, n' = k + 1 := ⟨n' - 1, by omega⟩
    refine upto_andThen ((round s).grows hfuel) fun a => ?_
    cases a with
    | next t => exact ih (by omega)
    | stop r => exact upto_rfl

def loop (round : σ → Prog O (Round σ ρ)) (s : σ) : Prog O ρ :=
  ⟨fun fuel => loopRun round fuel fuel s, fun h => upto_loopRun h h⟩

/-- The states before each round. -/
inductive Reaches (round : σ → Prog O (Round σ ρ)) (s : σ) : σ → Prop where
  | start : Reaches round s s
  | next {t u : σ} (h : Reaches round s t) (hu : (round t).Returns (.next u)) : Reaches round s u

theorem Reaches.head (h : (round s).Returns (.next t)) (ht : Reaches round t u) : Reaches round s u := by
  induction ht with
  | start => exact .next .start h
  | next _ hu ih => exact .next ih hu

theorem returns_loop_of_next (h : (round s).Returns (.next t)) (hr : (loop round t).Returns r) :
    (loop round s).Returns r := by
  obtain ⟨fuel, h⟩ := h
  obtain ⟨fuel', hr⟩ := hr
  refine ⟨max fuel fuel' + 1, val_andThen.2 ⟨.next t, ?_, ?_⟩⟩
  · exact ((round s).grows (by omega)).val _ h
  · exact (upto_loopRun (by omega) (Nat.le_max_right fuel fuel')).val r hr

theorem safe_loop_next (h : (round s).Returns (.next t)) (hs : (loop round s).Safe size) : (loop round t).Safe size := by
  obtain ⟨fuel, h⟩ := h
  intro fuel'
  have hround := ((round s).grows (show fuel ≤ max fuel fuel' + 1 by omega)).val _ h
  have hrest := (within_andThen.1 (hs (max fuel fuel' + 1))).2 _ hround
  exact (upto_loopRun (by omega) (Nat.le_max_right fuel fuel')).within hrest

/-- The loop returns what its last round stops with. -/
theorem returns_loop : (loop round s).Returns r ↔ ∃ t, Reaches round s t ∧ (round t).Returns (.stop r) := by
  constructor
  · rintro ⟨fuel, hr⟩
    have hrun (n : Nat) (s : σ) (hr : (loopRun round fuel n s).val = some r) :
        ∃ t, Reaches round s t ∧ (round t).Returns (.stop r) := by
      induction n generalizing s with
      | zero => exact absurd hr.symm (Option.some_ne_none r)
      | succ n ih =>
        obtain ⟨a, ha, hr⟩ := val_andThen.1 hr
        cases a with
        | next t =>
          obtain ⟨u, hu, hstop⟩ := ih t hr
          exact ⟨u, hu.head ⟨fuel, ha⟩, hstop⟩
        | stop r' =>
          obtain rfl := Option.some.inj hr
          exact ⟨s, .start, fuel, ha⟩
    exact hrun fuel s hr
  · rintro ⟨t, ht, fuel, hstop⟩
    have hlast : (loop round t).Returns r :=
      ⟨fuel + 1, val_andThen.2 ⟨.stop r, ((round t).grows (Nat.le_succ fuel)).val _ hstop, rfl⟩⟩
    clear hstop
    induction ht with
    | start => exact hlast
    | next _ hu ih => exact ih (returns_loop_of_next hu hlast)

theorem safe_loop : (loop round s).Safe size ↔ ∀ t, Reaches round s t → (round t).Safe size := by
  constructor
  · intro h t ht
    have hloop : (loop round t).Safe size := by
      induction ht with
      | start => exact h
      | next _ hu ih => exact safe_loop_next hu ih
    exact fun fuel => ((round t).grows (Nat.le_succ fuel)).within (within_andThen.1 (hloop (fuel + 1))).1
  · intro h fuel
    have hrun (n : Nat) (s : σ) (h : ∀ t, Reaches round s t → (round t).Safe size) :
        Within size (loopRun round fuel n s) := by
      induction n generalizing s with
      | zero => exact within_pure
      | succ n ih =>
        refine within_andThen.2 ⟨h s .start fuel, fun a ha => ?_⟩
        cases a with
        | next t => exact ih t fun u hu => h u (hu.head ⟨fuel, ha⟩)
        | stop r => exact within_pure
    exact hrun fuel s h

theorem Reaches.cases_head (h : Reaches round s u) : u = s ∨ ∃ t, (round s).Returns (.next t) ∧ Reaches round t u := by
  induction h with
  | start => exact .inl rfl
  | next _ hu ih =>
    rcases ih with rfl | ⟨t, ht, hreach⟩
    · exact .inr ⟨_, hu, .start⟩
    · exact .inr ⟨t, ht, .next hreach hu⟩

theorem returns_loop_step : (loop round s).Returns r ↔
    (round s).Returns (.stop r) ∨ ∃ t, (round s).Returns (.next t) ∧ (loop round t).Returns r := by
  constructor
  · intro h
    obtain ⟨u, hu, hstop⟩ := returns_loop.1 h
    rcases hu.cases_head with rfl | ⟨t, ht, hreach⟩
    · exact .inl hstop
    · exact .inr ⟨t, ht, returns_loop.2 ⟨u, hreach, hstop⟩⟩
  · rintro (hstop | ⟨t, ht, hr⟩)
    · exact returns_loop.2 ⟨s, .start, hstop⟩
    · exact returns_loop_of_next ht hr

theorem safe_loop_step : (loop round s).Safe size ↔
    (round s).Safe size ∧ ∀ t, (round s).Returns (.next t) → (loop round t).Safe size := by
  constructor
  · exact fun h => ⟨safe_loop.1 h s .start, fun t ht => safe_loop_next ht h⟩
  · rintro ⟨hs, h⟩
    refine safe_loop.2 fun u hu => ?_
    rcases hu.cases_head with rfl | ⟨t, ht, hreach⟩
    · exact hs
    · exact safe_loop.1 (h t ht) u hreach

end

section
variable {round : σ → Traced O (Round σ ρ)} {s t : σ} {r : ρ}

theorem reaches_lift : Reaches (fun s => (liftM (round s) : Prog O (Round σ ρ))) s t ↔ Access.Reaches round s t := by
  constructor
  · intro h
    induction h with
    | start => exact .start
    | next _ hu ih => exact .next ih (returns_lift.1 hu).symm
  · intro h
    induction h with
    | start => exact .start
    | next _ hu ih => exact .next ih (returns_lift.2 hu.symm)

theorem returns_loop_lift : (loop (fun s => (liftM (round s) : Prog O (Round σ ρ))) s).Returns r ↔ Access.Returns round s r := by
  rw [returns_loop, returns_iff]
  exact exists_congr fun t => and_congr reaches_lift (returns_lift.trans eq_comm)

theorem safe_loop_lift : (loop (fun s => (liftM (round s) : Prog O (Round σ ρ))) s).Safe size ↔
    ∀ t, Access.Reaches round s t → Within size (round t) := by
  rw [safe_loop]
  exact forall_congr' fun t => imp_congr reaches_lift safe_lift

end

end Prog

/-! ### In other objects -/

namespace Traced
variable {m : Traced O α} {h : O → O'} {base : Nat} {size' : O' → Nat}

/-- The objects of `m` are parts of other objects, from `base` on. -/
def onto (h : O → O') (base : Nat) (m : Traced O α) : Traced O' α :=
  ⟨m.val, m.spans.map fun s => ⟨h s.obj, base + s.off, s.len⟩⟩

@[simp] theorem val_onto : (m.onto h base).val = m.val := rfl

theorem within_onto (hsize : ∀ o, base + size o ≤ size' (h o)) (hm : Within size m) : Within size' (m.onto h base) := by
  refine List.forall_mem_map.2 fun s hs => ?_
  have hle := hsize s.obj
  rcases hm s hs with hzero | ⟨hoff, hin⟩
  · exact .inl hzero
  · refine .inr ⟨?_, ?_⟩
    · show 0 ≤ (base : Int) + s.off
      omega
    · show (base : Int) + s.off + s.len ≤ size' (h s.obj)
      omega

/-- A loop is the same loop in other objects. -/
theorem reaches_onto {round : σ → Traced O (Round σ ρ)} {s t : σ} :
    Reaches (fun s => (round s).onto h base) s t ↔ Reaches round s t := by
  constructor
  · intro ht
    induction ht with
    | start => exact .start
    | next _ hu ih => exact ih.next hu
  · intro ht
    induction ht with
    | start => exact .start
    | next _ hu ih => exact ih.next hu

theorem returns_onto {round : σ → Traced O (Round σ ρ)} {s : σ} {r : ρ} :
    Returns (fun s => (round s).onto h base) s r ↔ Returns round s r := by
  rw [returns_iff, returns_iff]
  exact exists_congr fun t => and_congr_left fun _ => reaches_onto

theorem within_onto_iff : Within size' (m.onto h 0) ↔ Within (fun o => size' (h o)) m := by
  refine List.forall_mem_map.trans (forall₂_congr fun s _ => ?_)
  show _ ∨ 0 ≤ (0 : Int) + s.off ∧ (0 : Int) + s.off + s.len ≤ size' (h s.obj) ↔ _
  rw [Int.zero_add]
  rfl

end Traced

end Access
