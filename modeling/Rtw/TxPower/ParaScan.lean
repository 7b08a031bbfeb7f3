import Mathlib.Data.List.Infix
import Rtw.TxPower.ParaText

/-!
# What the helpers make of a text

One lemma for each helper of `ParaText`, on a text that is what the helper looks for and goes on with something else.
-/

namespace Rtw.Para

variable {p q t s bl ds : List UInt8} {c d : UInt8} {val : UInt32} {integer : UInt8} {n : Nat}

theorem eqNByte_eq (h₁ : n ≤ p.length) (h₂ : n ≤ q.length) : eqNByte p q n = some (decide (p.take n = q.take n)) := by
  induction n with
  | zero => rfl
  | succ n ih =>
    have hiff : p.take (n + 1) = q.take (n + 1) ↔ p.take n = q.take n ∧ p[n] = q[n] := by
      rw [List.take_succ_eq_append_getElem h₁, List.take_succ_eq_append_getElem h₂, List.append_singleton_inj]
    rw [eqNByte, List.getElem?_eq_getElem h₁, List.getElem?_eq_getElem h₂]
    show (if p[n] ≠ q[n] then some false else eqNByte p q n) = _
    by_cases heq : p[n] = q[n]
    · rw [if_neg (not_not.mpr heq), ih (by omega) (by omega)]
      simp only [hiff, heq, and_true]
    · rw [if_pos heq, decide_eq_false fun h => heq (hiff.mp h).2]

/-- The last byte is compared first. -/
theorem eqNByte_eq_none (hn : n ≠ 0) (hq : n ≤ q.length) : eqNByte p q n = none ↔ p.length < n := by
  constructor
  · intro h
    by_contra hle
    rw [eqNByte_eq (by omega) hq] at h
    cases h
  · intro h
    obtain ⟨n, rfl⟩ := Nat.exists_eq_succ_of_ne_zero hn
    rw [eqNByte, List.getElem?_eq_none (by omega)]
    rfl

theorem begins_eq (h : s.length ≤ p.length) : begins p s = some (decide (s <+: p)) := by
  rw [begins, eqNByte_eq h (Nat.le_refl _), List.take_length]
  refine congrArg some (decide_eq_decide.mpr ?_)
  rw [List.prefix_iff_eq_take, eq_comm]

theorem begins_append : begins (s ++ p) s = some true := by
  rw [begins_eq (by rw [List.length_append]; omega), decide_eq_true (List.prefix_append ..)]

theorem begins_eq_none (hs : s ≠ []) : begins p s = none ↔ p.length < s.length :=
  eqNByte_eq_none (fun h => hs (List.length_eq_zero_iff.mp h)) (Nat.le_refl _)

theorem skipBlanks_append (h : ∀ c ∈ bl, isBlank c = true) : skipBlanks (bl ++ p) = skipBlanks p := by
  induction bl with
  | nil => rfl
  | cons a bl ih =>
    rw [List.cons_append, skipBlanks, if_pos (h a (List.mem_cons_self ..))]
    exact ih fun c hc => h c (List.mem_cons_of_mem _ hc)

theorem skipBlanks_cons (h : isBlank c = false) : skipBlanks (c :: p) = some (c :: p) := by
  rw [skipBlanks, if_neg (by simp [h])]

/-- The value of hexadecimal digits behind `val`. -/
def hexValue (val : UInt32) (ds : List UInt8) : UInt32 := ds.foldl (fun val c => (val <<< 4) + mapCharToHexDigit c) val

theorem hexLoop_append (hds : ∀ c ∈ ds, isHexDigit c = true) (hc : isHexDigit c = false) :
    hexLoop val (ds ++ c :: p) = some (hexValue val ds, c :: p) := by
  induction ds generalizing val with
  | nil => rw [List.nil_append, hexLoop, if_neg (by simp [hc]), hexValue, List.foldl_nil]
  | cons d ds ih =>
    rw [List.cons_append, hexLoop, if_pos (hds d (List.mem_cons_self ..)), ih fun c hc => hds c (List.mem_cons_of_mem _ hc)]
    rfl

/-- The value of decimal digits behind `integer`. -/
def decValue (integer : UInt8) (ds : List UInt8) : UInt8 := ds.foldl (fun integer c => integer * 10 + (c - 0x30)) integer

theorem fractionLoop_append (hds : ∀ c ∈ ds, isDigit c = true) (hne : ds ≠ []) (hc : isDigit c = false) (hdot : c ≠ 0x2e) :
    fractionLoop integer (ds ++ c :: p) = some (some (decValue integer ds, 0, c :: p)) := by
  induction ds generalizing integer with
  | nil => exact absurd rfl hne
  | cons d ds ih =>
    rcases ds with _ | ⟨e, ds⟩
    · simp [fractionLoop, decValue, hc, hdot]
    · have he : isDigit e = true := hds e (by simp)
      have hedot : e ≠ 0x2e := by
        rintro rfl
        cases he
      rw [List.cons_append, fractionLoop]
      simp only [List.cons_append, List.getElem?_cons_zero, Option.bind_eq_bind, Option.bind_some, if_neg hedot, if_pos he]
      exact ih (fun c hc => hds c (List.mem_cons_of_mem _ hc)) (List.cons_ne_nil e ds)

theorem fractionLoop_append_dot (hds : ∀ c ∈ ds, isDigit c = true) (hne : ds ≠ []) (hd : isDigit d = true) :
    fractionLoop integer (ds ++ 0x2e :: d :: p) = some (some (decValue integer ds, d - 0x30, p)) := by
  induction ds generalizing integer with
  | nil => exact absurd rfl hne
  | cons a ds ih =>
    rcases ds with _ | ⟨e, ds⟩
    · simp [fractionLoop, decValue, hd]
    · have he : isDigit e = true := hds e (by simp)
      have hedot : e ≠ 0x2e := by
        rintro rfl
        cases he
      rw [List.cons_append, fractionLoop]
      simp only [List.cons_append, List.getElem?_cons_zero, Option.bind_eq_bind, Option.bind_some, if_neg hedot, if_pos he]
      exact ih (fun c hc => hds c (List.mem_cons_of_mem _ hc)) (List.cons_ne_nil e ds)

theorem scanTo_append (h : c ∉ t) : scanTo c (t ++ c :: p) = some (t, p) := by
  induction t with
  | nil => rw [List.nil_append, scanTo, if_pos rfl]
  | cons a t ih =>
    rw [List.mem_cons, not_or] at h
    rw [List.cons_append, scanTo, if_neg fun heq => h.1 heq.symm, ih h.2]
    rfl

theorem splitLine_append (h : ∀ c ∈ t, c ≠ 0x0a ∧ c ≠ 0) (hc : c = 0x0a ∨ c = 0) :
    splitLine (t ++ c :: p) = some (t, c, p) := by
  induction t with
  | nil => rw [List.nil_append, splitLine, if_pos hc]
  | cons a t ih =>
    have ha := h a (List.mem_cons_self ..)
    rw [List.cons_append, splitLine, if_neg (not_or.mpr ha), ih fun c hc => h c (List.mem_cons_of_mem _ hc)]
    rfl

section
variable {σ : Type} {line : σ → Ptr → Option (Next σ)} {st st' : σ} {b : Bool}

theorem forLines_eq : forLines line st p = match splitLine p with
    | none => none
    | some (t, c, rest) => (line st (t ++ 0 :: rest)).bind fun
      | .next st => if c = 0x0a then forLines line st rest else some (true, st)
      | .done b st => some (b, st) := by
  rw [forLines]
  split
  · case h_1 h => rw [h]
  · case h_2 t c rest h =>
    rw [h]
    show (line st (t ++ 0 :: rest)).bind _ = _
    rfl

theorem forLines_next (ht : ∀ c ∈ t, c ≠ 0x0a ∧ c ≠ 0) (h : line st (t ++ 0 :: p) = some (.next st')) :
    forLines line st (t ++ 0x0a :: p) = forLines line st' p := by
  rw [forLines_eq, splitLine_append ht (Or.inl rfl)]
  simp [h]

theorem forLines_last (ht : ∀ c ∈ t, c ≠ 0x0a ∧ c ≠ 0) (h : line st (t ++ 0 :: p) = some (.next st')) :
    forLines line st (t ++ 0 :: p) = some (true, st') := by
  rw [forLines_eq, splitLine_append ht (Or.inr rfl)]
  simp [h]

theorem forLines_done (ht : ∀ c ∈ t, c ≠ 0x0a ∧ c ≠ 0) (hc : c = 0x0a ∨ c = 0)
    (h : line st (t ++ 0 :: p) = some (.done b st')) : forLines line st (t ++ c :: p) = some (b, st') := by
  rw [forLines_eq, splitLine_append ht hc]
  simp [h]

end

/-! ### Buffers of lines -/

/-- Bytes that may be in a line. -/
def Plain (l : List UInt8) : Prop := ∀ c ∈ l, c ≠ 0x0a ∧ c ≠ 0

instance (l : List UInt8) : Decidable (Plain l) := List.decidableBAll (fun c => c ≠ 0x0a ∧ c ≠ 0) l

/-- A buffer that holds lines, with a NUL behind the last one. -/
def linesBuffer (rest : Ptr) : List (List UInt8) → Ptr
  | [] => 0 :: rest
  | [l] => l ++ 0 :: rest
  | l :: l' :: ls => l ++ 0x0a :: linesBuffer rest (l' :: ls)

/-- The lines lead from state to state, whatever is behind them. -/
inductive Steps {σ : Type} (line : σ → Ptr → Option (Next σ)) : σ → List (List UInt8) → σ → Prop where
  | nil {st : σ} : Steps line st [] st
  | cons {st st₁ st₂ : σ} {l : List UInt8} {ls : List (List UInt8)} (hl : Plain l)
      (h : ∀ p, line st (l ++ 0 :: p) = some (.next st₁)) (hls : Steps line st₁ ls st₂) : Steps line st (l :: ls) st₂

namespace Steps

variable {σ : Type} {line : σ → Ptr → Option (Next σ)} {st st₁ st₂ : σ} {ls ls' : List (List UInt8)} {rest : Ptr}

theorem append (h : Steps line st ls st₁) (h' : Steps line st₁ ls' st₂) : Steps line st (ls ++ ls') st₂ := by
  induction h with
  | nil => exact h'
  | cons hl hstep _ ih => exact .cons hl hstep (ih h')

theorem forLines_append (h : Steps line st ls st₁) (hne : ls' ≠ []) :
    forLines line st (linesBuffer rest (ls ++ ls')) = forLines line st₁ (linesBuffer rest ls') := by
  induction h with
  | nil => rfl
  | @cons st st₁ st₂ l ls hl hstep _ ih =>
    obtain ⟨m, ms, hm⟩ := List.exists_cons_of_ne_nil (List.append_ne_nil_of_right_ne_nil ls hne)
    rw [List.cons_append, hm, linesBuffer, forLines_next hl (hstep _), ← hm]
    exact ih

theorem forLines_eq (h : Steps line st ls st₁) (hne : ls ≠ []) :
    forLines line st (linesBuffer rest ls) = some (true, st₁) := by
  induction h with
  | nil => exact absurd rfl hne
  | @cons st st₁ st₂ l ls hl hstep hls ih =>
    rcases ls with _ | ⟨m, ms⟩
    · cases hls
      exact forLines_last hl (hstep _)
    · rw [linesBuffer, forLines_next hl (hstep _)]
      exact ih (List.cons_ne_nil m ms)

end Steps

end Rtw.Para
