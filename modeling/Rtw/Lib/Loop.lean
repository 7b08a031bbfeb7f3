import Rtw.Lib.Access

/-!
# Loops that may not end

A loop is given by what one round comes to: the state of the next round, or a result. `loopT` runs it for a number of
rounds, with all that is touched. It stays inside the objects exactly if each round does that can be reached
(`within_loopT_iff`); it returns if a measure falls (`returns_of_measure`), and it does not if it comes to states that
it never leaves (`not_returns_of_invariant`).
-/

namespace Access
open Traced

variable {O : Type*} {σ ρ : Type _} {size : O → Nat}

/-- What a round comes to. -/
inductive Round (σ ρ : Type _) where
  | next (s : σ)
  | stop (r : ρ)
  deriving DecidableEq

/-- The loop for some rounds; `none` while it has not returned. -/
def loopT (round : σ → Traced O (Round σ ρ)) : Nat → σ → Traced O (Option ρ)
  | 0, _ => pure none
  | fuel + 1, s => do
    match ← round s with
    | .next s => loopT round fuel s
    | .stop r => return some r

/-- The states before each round. -/
inductive Reaches (round : σ → Traced O (Round σ ρ)) (s : σ) : σ → Prop where
  | start : Reaches round s s
  | next {t u : σ} (h : Reaches round s t) (hu : (round t).val = .next u) : Reaches round s u

/-- The loop returns `r`. -/
def Returns (round : σ → Traced O (Round σ ρ)) (s : σ) (r : ρ) : Prop := ∃ fuel, (loopT round fuel s).val = some r

section
variable {round : σ → Traced O (Round σ ρ)} {s t u : σ} {r r' : ρ} {fuel : Nat}

theorem loopT_succ_next (h : (round s).val = .next t) :
    loopT round (fuel + 1) s = ⟨(loopT round fuel t).val, (round s).spans ++ (loopT round fuel t).spans⟩ := by
  show Traced.mk _ _ = _
  rw [h]

theorem loopT_succ_stop (h : (round s).val = .stop r) : loopT round (fuel + 1) s = ⟨some r, (round s).spans⟩ := by
  show Traced.mk _ _ = _
  rw [h]
  exact congrArg (Traced.mk (some r)) (List.append_nil _)

/-- With more rounds it returns the same. -/
theorem loopT_of_le {fuel' : Nat} (h : (loopT round fuel s).val = some r) (hle : fuel ≤ fuel') :
    (loopT round fuel' s).val = some r := by
  induction fuel generalizing s fuel' with
  | zero => cases h
  | succ fuel ih =>
    obtain ⟨fuel', rfl⟩ : ∃ n, fuel' = n + 1 := ⟨fuel' - 1, by omega⟩
    cases hs : (round s).val with
    | next t =>
      rw [loopT_succ_next hs] at h ⊢
      exact ih h (by omega)
    | stop r' =>
      rw [loopT_succ_stop hs] at h ⊢
      exact h

/-- What is touched in fewer rounds is touched in more. -/
theorem within_loopT_of_le {fuel' : Nat} (h : Within size (loopT round fuel' s)) (hle : fuel ≤ fuel') :
    Within size (loopT round fuel s) := by
  induction fuel generalizing s fuel' with
  | zero => exact within_pure
  | succ fuel ih =>
    obtain ⟨fuel', rfl⟩ : ∃ n, fuel' = n + 1 := ⟨fuel' - 1, by omega⟩
    cases hs : (round s).val with
    | next t =>
      rw [loopT_succ_next hs] at h ⊢
      obtain ⟨hround, hrest⟩ := List.forall_mem_append.1 h
      exact List.forall_mem_append.2 ⟨hround, ih hrest (by omega)⟩
    | stop r =>
      rw [loopT_succ_stop hs] at h ⊢
      exact h

theorem Reaches.head (h : (round s).val = .next t) (ht : Reaches round t u) : Reaches round s u := by
  induction ht with
  | start => exact .next .start h
  | next _ hu ih => exact .next ih hu

theorem Reaches.trans (h : Reaches round s t) (ht : Reaches round t u) : Reaches round s u := by
  induction ht with
  | start => exact h
  | next _ hu ih => exact .next ih hu

/-- A round that comes to a result is the last one. -/
theorem Reaches.eq_of_stop (h : Reaches round s t) (hs : (round s).val = .stop r) : t = s := by
  induction h with
  | start => rfl
  | next _ hu ih =>
    rw [ih, hs] at hu
    cases hu

theorem returns_of_next (h : (round s).val = .next t) : Returns round s r ↔ Returns round t r := by
  constructor
  · rintro ⟨fuel, hr⟩
    cases fuel with
    | zero => cases hr
    | succ fuel =>
      rw [loopT_succ_next h] at hr
      exact ⟨fuel, hr⟩
  · rintro ⟨fuel, hr⟩
    refine ⟨fuel + 1, ?_⟩
    rw [loopT_succ_next h]
    exact hr

theorem returns_of_stop (h : (round s).val = .stop r) : Returns round s r' ↔ r' = r := by
  constructor
  · rintro ⟨fuel, hr⟩
    cases fuel with
    | zero => cases hr
    | succ fuel =>
      rw [loopT_succ_stop h] at hr
      exact (Option.some.inj hr).symm
  · rintro rfl
    refine ⟨1, ?_⟩
    rw [loopT_succ_stop h]

theorem Reaches.returns_iff (h : Reaches round s t) : Returns round s r ↔ Returns round t r := by
  induction h with
  | start => exact Iff.rfl
  | next _ hu ih => exact ih.trans (returns_of_next hu)

/-- The result is that of the last round. -/
theorem returns_iff : Returns round s r ↔ ∃ t, Reaches round s t ∧ (round t).val = .stop r := by
  constructor
  · rintro ⟨fuel, hr⟩
    induction fuel generalizing s with
    | zero => cases hr
    | succ fuel ih =>
      cases hs : (round s).val with
      | next t =>
        rw [loopT_succ_next hs] at hr
        obtain ⟨u, hu, hstop⟩ := ih hr
        exact ⟨u, .head hs hu, hstop⟩
      | stop r' =>
        rw [loopT_succ_stop hs] at hr
        exact ⟨s, .start, by rw [hs, Option.some.inj hr]⟩
  · rintro ⟨t, ht, hstop⟩
    exact ht.returns_iff.2 ((returns_of_stop hstop).2 rfl)

theorem Returns.unique (h : Returns round s r) (h' : Returns round s r') : r = r' := by
  obtain ⟨t, ht, hstop⟩ := returns_iff.1 h
  exact ((returns_of_stop hstop).1 (ht.returns_iff.1 h')).symm

/-- An invariant of the rounds holds before each of them. -/
theorem Reaches.invariant {I : σ → Prop} (h : Reaches round s t) (hs : I s)
    (hstep : ∀ t u, I t → (round t).val = .next u → I u) : I t := by
  induction h with
  | start => exact hs
  | next _ hu ih => exact hstep _ _ ih hu

theorem returns_of_measure (μ : σ → Nat)
    (h : ∀ t u, Reaches round s t → (round t).val = .next u → μ u < μ t) : ∃ r, Returns round s r := by
  induction hn : μ s using Nat.strongRecOn generalizing s with
  | ind n ih =>
    cases hs : (round s).val with
    | stop r => exact ⟨r, (returns_of_stop hs).2 rfl⟩
    | next t =>
      obtain ⟨r, hr⟩ := ih (μ t) (hn ▸ h s t .start hs) (fun u v hu => h u v (.head hs hu)) rfl
      exact ⟨r, (returns_of_next hs).2 hr⟩

/-- States that it never leaves. -/
theorem not_returns_of_invariant {I : σ → Prop} (hI : ∀ t, I t → ∃ u, (round t).val = .next u ∧ I u)
    (h : Reaches round s t) (ht : I t) : ¬ Returns round s r := by
  intro hr
  obtain ⟨fuel, hr⟩ := h.returns_iff.1 hr
  induction fuel generalizing t with
  | zero => cases hr
  | succ fuel ih =>
    obtain ⟨u, hu, hiu⟩ := hI t ht
    rw [loopT_succ_next hu] at hr
    exact ih (.next h hu) hiu hr

theorem not_returns_of_fixed (h : Reaches round s t) (ht : (round t).val = .next t) : ¬ Returns round s r :=
  not_returns_of_invariant (I := (· = t)) (fun _ hu => ⟨t, hu ▸ ht, rfl⟩) h rfl

theorem within_loopT_iff :
    (∀ fuel, Within size (loopT round fuel s)) ↔ ∀ t, Reaches round s t → Within size (round t) := by
  constructor
  · intro h t ht
    have hreached : ∀ fuel, Within size (loopT round fuel t) := by
      induction ht with
      | start => exact h
      | next _ hu ih =>
        intro fuel
        have hboth := ih (fuel + 1)
        rw [loopT_succ_next hu] at hboth
        exact (List.forall_mem_append.1 hboth).2
    exact fun sp hsp => hreached 1 sp (List.mem_append_left _ hsp)
  · intro h fuel
    induction fuel generalizing s with
    | zero => exact within_pure
    | succ fuel ih =>
      cases hs : (round s).val with
      | next t =>
        rw [loopT_succ_next hs]
        exact List.forall_mem_append.2 ⟨h s .start, ih fun u hu => h u (.head hs hu)⟩
      | stop r =>
        rw [loopT_succ_stop hs]
        exact h s .start

end

end Access
