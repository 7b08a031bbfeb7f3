import Mathlib.Data.List.Basic
import Mathlib.Data.List.Induction

/-!
# Runs of an event-driven machine

A machine is a function `next : σ → ε → σ`; a run feeds it a list of events. `RunOk ok` asks that
every step of a run meets a condition on the event and the state it finds. The induction rules
(`run_invariant`, `run_invariant_of_ok`) turn what one step preserves into what a run preserves;
`run_iff_runOk` is for a property of the history, which no later step can repair, and
`forall_prefix_iff_runOk`, `forall_prefix_iff_of_invariant` and `forall_next_iff_runOk` for a property of the
state, which a later step may restore.
-/

namespace Machine

variable {σ ε : Type*} {next : σ → ε → σ} {ok : σ → ε → Prop} {I : σ → Prop}

/-- The state after the events `evs`, taken in order. -/
def run (next : σ → ε → σ) (s : σ) (evs : List ε) : σ := evs.foldl next s

/-- Every step of the run from `s` on `evs` meets `ok`. -/
def RunOk (next : σ → ε → σ) (ok : σ → ε → Prop) : σ → List ε → Prop
  | _, [] => True
  | s, e :: evs => ok s e ∧ RunOk next ok (next s e) evs

@[simp] theorem run_nil (s : σ) : run next s [] = s := rfl

@[simp] theorem run_cons (s : σ) (e : ε) (evs : List ε) :
    run next s (e :: evs) = run next (next s e) evs := rfl

theorem run_append (s : σ) (evs evs' : List ε) :
    run next s (evs ++ evs') = run next (run next s evs) evs' := by
  simp [run]

@[simp] theorem runOk_nil (s : σ) : RunOk next ok s [] := trivial

@[simp] theorem runOk_cons (s : σ) (e : ε) (evs : List ε) :
    RunOk next ok s (e :: evs) ↔ ok s e ∧ RunOk next ok (next s e) evs := Iff.rfl

theorem runOk_append (s : σ) (evs evs' : List ε) :
    RunOk next ok s (evs ++ evs') ↔ RunOk next ok s evs ∧ RunOk next ok (run next s evs) evs' := by
  induction evs generalizing s with
  | nil => simp
  | cons e evs ih => simp [ih, and_assoc]

theorem RunOk.imp {ok' : σ → ε → Prop} (h : ∀ s e, ok s e → ok' s e) {s : σ} {evs : List ε}
    (hok : RunOk next ok s evs) : RunOk next ok' s evs := by
  induction evs generalizing s with
  | nil => trivial
  | cons e evs ih => exact ⟨h s e hok.1, ih hok.2⟩

theorem runOk_of_forall {p : ε → Prop} {s : σ} {evs : List ε} (h : ∀ e ∈ evs, p e) :
    RunOk next (fun _ e => p e) s evs := by
  induction evs generalizing s with
  | nil => trivial
  | cons e evs ih =>
    exact ⟨h e (List.mem_cons_self ..), ih fun e he => h e (List.mem_cons_of_mem _ he)⟩

/-- What every event of a run meets may be asked of its steps as well. -/
theorem RunOk.and_forall {p : ε → Prop} {s : σ} {evs : List ε} (hok : RunOk next ok s evs)
    (h : ∀ e ∈ evs, p e) : RunOk next (fun s e => ok s e ∧ p e) s evs := by
  induction evs generalizing s with
  | nil => trivial
  | cons e evs ih =>
    exact ⟨⟨hok.1, h e (List.mem_cons_self ..)⟩, ih hok.2 fun e he => h e (List.mem_cons_of_mem _ he)⟩

/-- An invariant that the steps meeting `ok` preserve holds after every run of such steps. -/
theorem run_invariant_of_ok (hstep : ∀ s e, I s → ok s e → I (next s e)) {s : σ} {evs : List ε}
    (hs : I s) (hok : RunOk next ok s evs) : I (run next s evs) := by
  induction evs generalizing s with
  | nil => exact hs
  | cons e evs ih => exact ih (hstep s e hs hok.1) hok.2

/-- An invariant that every step preserves holds after every run. -/
theorem run_invariant (hstep : ∀ s e, I s → I (next s e)) {s : σ} (hs : I s) (evs : List ε) :
    I (run next s evs) := by
  induction evs generalizing s with
  | nil => exact hs
  | cons e evs ih => exact ih (hstep s e hs)

/-- A property that a bad step destroys for good, and that the other steps keep, holds at the end of
exactly the runs without a bad step. -/
theorem run_iff_runOk {P : σ → Prop} (hI : ∀ s e, I s → I (next s e))
    (hstep : ∀ s e, I s → P s → (P (next s e) ↔ ok s e)) (hback : ∀ s e, P (next s e) → P s)
    {s : σ} (hs : I s) (hP : P s) (evs : List ε) : P (run next s evs) ↔ RunOk next ok s evs := by
  have hpast : ∀ (evs : List ε) (s : σ), P (run next s evs) → P s := by
    intro evs
    induction evs with
    | nil => exact fun s h => h
    | cons e evs ih => exact fun s h => hback s e (ih _ h)
  induction evs generalizing s with
  | nil => exact iff_of_true hP trivial
  | cons e evs ih =>
    rw [run_cons, runOk_cons]
    constructor
    · intro h
      have hnext := hpast evs _ h
      exact ⟨(hstep s e hs hP).1 hnext, (ih (hI s e hs) hnext).1 h⟩
    · intro h
      exact (ih (hI s e hs) ((hstep s e hs hP).2 h.1)).2 h.2

/-- A property that holds after a step exactly if it held before and the step meets `ok`. -/
theorem run_iff_and_runOk {P : σ → Prop} (hI : ∀ s e, I s → I (next s e))
    (hstep : ∀ s e, I s → (P (next s e) ↔ P s ∧ ok s e)) {s : σ} (hs : I s) (evs : List ε) :
    P (run next s evs) ↔ P s ∧ RunOk next ok s evs := by
  induction evs generalizing s with
  | nil => exact (and_iff_left trivial).symm
  | cons e evs ih => rw [run_cons, runOk_cons, ih (hI s e hs), hstep s e hs, and_assoc]

/-- A property of the state holds all along a run if and only if no step destroys it. -/
theorem forall_prefix_iff_runOk {P : σ → Prop} (hI : ∀ s e, I s → I (next s e))
    (hstep : ∀ s e, I s → P s → (P (next s e) ↔ ok s e)) {s : σ} (hs : I s) (hP : P s) (evs : List ε) :
    (∀ pre, pre <+: evs → P (run next s pre)) ↔ RunOk next ok s evs := by
  induction evs generalizing s with
  | nil =>
    refine iff_of_true (fun pre hpre => ?_) trivial
    rw [List.prefix_nil.1 hpre]
    exact hP
  | cons e evs ih =>
    rw [runOk_cons]
    constructor
    · intro h
      have hnext : P (next s e) := h [e] (List.cons_prefix_cons.2 ⟨rfl, List.nil_prefix⟩)
      refine ⟨(hstep s e hs hP).1 hnext, (ih (hI s e hs) hnext).1 fun pre hpre => ?_⟩
      exact h (e :: pre) (List.cons_prefix_cons.2 ⟨rfl, hpre⟩)
    · rintro ⟨hok, hrun⟩ pre hpre
      rcases List.prefix_cons_iff.1 hpre with rfl | ⟨tl, rfl, htl⟩
      · exact hP
      · exact (ih (hI s e hs) ((hstep s e hs hP).2 hok)).2 hrun tl htl

/-- A property of the state holds after each step if and only if no step destroys it; at the start, and so
before each step, only `Q` is known. -/
theorem forall_next_iff_runOk {P Q : σ → Prop} (hPQ : ∀ s, I s → P s → Q s)
    (hstep : ∀ s e, I s → Q s → I (next s e) ∧ (P (next s e) ↔ ok s e)) {s : σ} (hs : I s) (hQ : Q s)
    (evs : List ε) :
    (∀ pre e, pre ++ [e] <+: evs → P (run next s (pre ++ [e]))) ↔ RunOk next ok s evs := by
  induction evs generalizing s with
  | nil =>
    refine iff_of_true (fun pre e hpre => ?_) trivial
    simp at hpre
  | cons e evs ih =>
    rw [runOk_cons]
    obtain ⟨hI, hiff⟩ := hstep s e hs hQ
    constructor
    · intro h
      have hnext : P (next s e) := h [] e (List.cons_prefix_cons.2 ⟨rfl, List.nil_prefix⟩)
      refine ⟨hiff.1 hnext, (ih hI (hPQ _ hI hnext)).1 fun pre e' hpre => ?_⟩
      exact h (e :: pre) e' (List.cons_prefix_cons.2 ⟨rfl, hpre⟩)
    · rintro ⟨hok, hrun⟩ pre e' hpre
      have hnext := hiff.2 hok
      cases pre with
      | nil =>
        obtain ⟨rfl, -⟩ := List.cons_prefix_cons.1 hpre
        exact hnext
      | cons e'' pre =>
        obtain ⟨rfl, htl⟩ := List.cons_prefix_cons.1 hpre
        exact (ih hI (hPQ _ hI hnext)).2 hrun pre e' htl

/-- A property that follows from an invariant of the steps meeting `ok`, and that no other step leaves true,
holds all along exactly the runs of steps meeting `ok`. -/
theorem forall_prefix_iff_of_invariant {P : σ → Prop} (hIP : ∀ s, I s → P s)
    (hstep : ∀ s e, I s → ok s e → I (next s e)) (hbad : ∀ s e, I s → P (next s e) → ok s e)
    {s : σ} (hs : I s) (evs : List ε) : (∀ pre, pre <+: evs → P (run next s pre)) ↔ RunOk next ok s evs := by
  induction evs generalizing s with
  | nil =>
    refine iff_of_true (fun pre hpre => ?_) trivial
    rw [List.prefix_nil.1 hpre]
    exact hIP s hs
  | cons e evs ih =>
    rw [runOk_cons]
    constructor
    · intro h
      have hok := hbad s e hs (h [e] (List.cons_prefix_cons.2 ⟨rfl, List.nil_prefix⟩))
      refine ⟨hok, (ih (hstep s e hs hok)).1 fun pre hpre => ?_⟩
      exact h (e :: pre) (List.cons_prefix_cons.2 ⟨rfl, hpre⟩)
    · rintro ⟨hok, hrun⟩ pre hpre
      rcases List.prefix_cons_iff.1 hpre with rfl | ⟨tl, rfl, htl⟩
      · exact hIP s hs
      · exact (ih (hstep s e hs hok)).2 hrun tl htl

/-- Where a run ends in `P`, and only a step that is `A` leads into `P`, there is a last such step; from there on
`P` holds. -/
theorem exists_last {P : σ → Prop} {A : σ → ε → Prop} (hI : ∀ s e, I s → ok s e → I (next s e))
    (hstep : ∀ s e, I s → ok s e → P (next s e) → A s e ∨ P s) {s : σ} {evs : List ε} (hs : I s)
    (hok : RunOk next ok s evs) (hn : ¬ P s) (h : P (run next s evs)) :
    ∃ pre e post, evs = pre ++ e :: post ∧ A (run next s pre) e ∧
      RunOk next (fun s e => P s ∧ P (next s e) ∧ ¬ A s e) (next (run next s pre) e) post := by
  induction evs using List.reverseRecOn with
  | nil => exact absurd h hn
  | append_singleton evs e ih =>
    obtain ⟨hpre, he, -⟩ := (runOk_append s evs [e]).1 hok
    rw [run_append] at h
    by_cases ha : A (run next s evs) e
    · exact ⟨evs, e, [], rfl, ha, trivial⟩
    · have hP : P (run next s evs) := (hstep _ e (run_invariant_of_ok hI hs hpre) he h).resolve_left ha
      obtain ⟨pre, e', post, rfl, ha', hrest⟩ := ih hpre hP
      refine ⟨pre, e', post ++ [e], by simp, ha', (runOk_append _ _ _).2 ⟨hrest, ?_, trivial⟩⟩
      rw [run_append, run_cons] at hP ha h
      exact ⟨hP, h, ha⟩

instance [∀ s e, Decidable (ok s e)] : (s : σ) → (evs : List ε) → Decidable (RunOk next ok s evs)
  | _, [] => .isTrue trivial
  | s, e :: evs =>
    have := instDecidableRunOk (next s e) evs
    inferInstanceAs (Decidable (_ ∧ _))

/-- What the steps of a run add up to. -/
def runSum (next : σ → ε → σ) (c : σ → ε → Nat) : σ → List ε → Nat
  | _, [] => 0
  | s, e :: evs => c s e + runSum next c (next s e) evs

/-- A rank that each step lowers by `c`, but for what `d` gives back, bounds what `c` adds up to. -/
theorem runSum_le {c d : σ → ε → Nat} {μ : σ → Nat}
    (hstep : ∀ s e, I s → ok s e → I (next s e) ∧ μ (next s e) + c s e ≤ μ s + d s e) {s : σ} {evs : List ε}
    (hs : I s) (hok : RunOk next ok s evs) :
    μ (run next s evs) + runSum next c s evs ≤ μ s + runSum next d s evs := by
  induction evs generalizing s with
  | nil => exact Nat.le_refl _
  | cons e evs ih =>
    obtain ⟨hI, hle⟩ := hstep s e hs hok.1
    have hrest := ih hI hok.2
    rw [run_cons]
    simp only [runSum]
    omega

end Machine
