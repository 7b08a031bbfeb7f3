import Mathlib.Data.List.TakeWhile
import Rtw.TxPower.ParaScan

/-!
# Staying inside a buffer

The buffer of a file ends with NUL, or with a newline if it has been decrypted: `Ended`. The helpers that stop at such a
byte stay inside and leave an ended rest. `forLines_ne_none_iff`: a loop over the lines stays inside exactly if each line
does that it comes to.
-/

namespace Rtw.Para

variable {p q r t s : List UInt8} {c d : UInt8} {val : UInt32} {integer : UInt8} {n : Nat}

/-- The last byte is NUL or a newline. -/
def Ended : Ptr → Prop
  | [] => False
  | [c] => c = 0 ∨ c = 0x0a
  | _ :: c :: p => Ended (c :: p)

namespace Ended

theorem ne_nil (h : Ended p) : p ≠ [] := by
  rintro rfl
  exact h

theorem tail (h : Ended (c :: p)) (hc : c ≠ 0 ∧ c ≠ 0x0a) : Ended p := by
  rcases p with _ | ⟨d, p⟩
  · exact absurd h (not_or.mpr hc)
  · exact h

theorem cons (h : Ended p) : Ended (c :: p) := by
  rcases p with _ | ⟨d, p⟩
  · exact h.elim
  · exact h

theorem append (h : Ended p) : Ended (t ++ p) := by
  induction t with
  | nil => exact h
  | cons c t ih => exact ih.cons

theorem suffix (h : Ended p) (hq : q <:+ p) (hne : q ≠ []) : Ended q := by
  obtain ⟨t, rfl⟩ := hq
  induction t with
  | nil => exact h
  | cons c t ih =>
    refine ih ?_
    obtain ⟨d, l, hl⟩ := List.exists_cons_of_ne_nil (List.append_ne_nil_of_right_ne_nil t hne)
    rw [List.cons_append, hl] at h
    rw [hl]
    exact h

/-- There is a byte at which the loops over digits and blanks stop. -/
theorem exists_stop (h : Ended p) : ∃ c ∈ p, c = 0 ∨ c = 0x0a := by
  induction p with
  | nil => exact h.elim
  | cons c p ih =>
    by_cases hc : c ≠ 0 ∧ c ≠ 0x0a
    · obtain ⟨d, hd, hstop⟩ := ih (h.tail hc)
      exact ⟨d, List.mem_cons_of_mem _ hd, hstop⟩
    · exact ⟨c, List.mem_cons_self .., by tauto⟩

theorem dropWhile {f : UInt8 → Bool} (h : Ended p) (h0 : f 0 = false) (hnl : f 0x0a = false) : Ended (p.dropWhile f) := by
  refine h.suffix (List.dropWhile_suffix f) fun hnil => ?_
  obtain ⟨c, hc, hstop⟩ := h.exists_stop
  have hall := List.dropWhile_eq_nil_iff.mp hnil c hc
  rcases hstop with rfl | rfl
  · rw [h0] at hall
    cases hall
  · rw [hnl] at hall
    cases hall

end Ended

/-! ### The helpers -/

theorem skipBlanks_eq (h : Ended p) : skipBlanks p = some (p.dropWhile isBlank) := by
  induction p with
  | nil => exact h.elim
  | cons c p ih =>
    rw [skipBlanks, List.dropWhile_cons]
    split
    · case isTrue hc =>
      refine ih (h.tail ⟨?_, ?_⟩)
      · rintro rfl
        cases hc
      · rintro rfl
        cases hc
    · rfl

theorem ended_dropBlanks (h : Ended p) : Ended (p.dropWhile isBlank) := h.dropWhile rfl rfl

/-- A byte that does not end a buffer, twice at the beginning. -/
theorem twice_eq (h : Ended p) (hc : c ≠ 0 ∧ c ≠ 0x0a) :
    (p[0]?.bind fun a => if a = c then p[1]?.bind fun b => some (decide (b = c)) else some false) =
      some (decide ([c, c] <+: p)) := by
  rcases p with _ | ⟨a, p⟩
  · exact h.elim
  · rw [List.getElem?_cons_zero, Option.bind_some, List.getElem?_cons_succ]
    by_cases ha : a = c
    · subst ha
      obtain ⟨b, p, rfl⟩ := List.exists_cons_of_ne_nil (h.tail hc).ne_nil
      simp [eq_comm]
    · simp [ha, Ne.symm ha]

theorem isCommentString_eq (h : Ended p) : isCommentString p = some (decide ([0x2f, 0x2f] <+: p)) := twice_eq h (by decide)

theorem hexLoop_ended (val : UInt32) (h : Ended p) : ∃ v q, hexLoop val p = some (v, q) ∧ Ended q := by
  induction p generalizing val with
  | nil => exact h.elim
  | cons c p ih =>
    rw [hexLoop]
    split
    · case isTrue hc =>
      refine ih _ (h.tail ⟨?_, ?_⟩)
      · rintro rfl
        cases hc
      · rintro rfl
        cases hc
    · exact ⟨val, c :: p, rfl, h⟩

theorem skipRadix_ended (h : Ended p) : ∃ q, skipRadix p = some q ∧ Ended q := by
  rcases p with _ | ⟨c, p⟩
  · exact h.elim
  · unfold skipRadix
    simp only [List.getElem?_cons_zero, Option.bind_eq_bind, Option.bind_some]
    split
    · case isTrue hc =>
      subst hc
      have hp : Ended p := h.tail (by decide)
      rcases p with _ | ⟨d, p⟩
      · exact hp.elim
      · simp only [List.getElem?_cons_succ, List.getElem?_cons_zero, Option.bind_some, List.drop_succ_cons, List.drop_zero]
        split
        · case isTrue hd =>
          refine ⟨p, rfl, hp.tail ?_⟩
          rcases hd with rfl | rfl <;> decide
        · exact ⟨_, rfl, h⟩
    · exact ⟨c :: p, rfl, h⟩

/-- A number is read or not, inside the buffer. -/
theorem getHex_ended (h : Ended p) :
    getHexValueFromString p = some none ∨ ∃ v q, getHexValueFromString p = some (some (v, q)) ∧ Ended q := by
  obtain ⟨q, hq, hqe⟩ := skipRadix_ended (ended_dropBlanks h)
  unfold getHexValueFromString
  rw [skipBlanks_eq h]
  simp only [Option.bind_eq_bind, Option.bind_some, hq]
  rcases q with _ | ⟨c, q⟩
  · exact hqe.elim
  · simp only [List.getElem?_cons_zero, Option.bind_some]
    split
    · obtain ⟨v, q', hv, hqe'⟩ := hexLoop_ended 0 hqe
      exact Or.inr ⟨v, q', by rw [hv]; rfl, hqe'⟩
    · exact Or.inl rfl

/-- What is behind the digits of a value: the fraction, and what is behind it. -/
def fractionAt : Ptr → Option (Option (UInt8 × Ptr))
  | [] => none
  | d :: r => if d = 0x2e then r.head?.map fun e => if isDigit e then some (e - 0x30, r.tail) else none else some (some (0, d :: r))

/-- The first byte is taken for a digit. -/
theorem fractionLoop_eq : fractionLoop integer (c :: p) = (fractionAt (p.dropWhile isDigit)).map fun o =>
    o.map fun f => (decValue integer (c :: p.takeWhile isDigit), f) := by
  induction p generalizing integer c with
  | nil => rfl
  | cons d p ih =>
    rw [fractionLoop]
    simp only [List.getElem?_cons_zero, Option.bind_eq_bind, Option.bind_some]
    by_cases hdot : d = 0x2e
    · subst hdot
      rw [if_pos rfl, List.dropWhile_cons, if_neg (by decide), List.takeWhile_cons, if_neg (by decide)]
      rcases p with _ | ⟨e, p⟩
      · rfl
      · by_cases he : isDigit e = true
        · simp [fractionAt, decValue, he]
        · simp [fractionAt, he]
    · rw [if_neg hdot]
      by_cases hd : isDigit d = true
      · rw [if_pos hd, ih, List.dropWhile_cons, if_pos hd, List.takeWhile_cons, if_pos hd]
        rfl
      · rw [if_neg hd, List.dropWhile_cons, if_neg hd, List.takeWhile_cons, if_neg hd]
        simp [fractionAt, decValue, hdot]

theorem scanTo_eq : scanTo c p = if c ∈ p then some (p.takeWhile (· ≠ c), (p.dropWhile (· ≠ c)).tail) else none := by
  induction p with
  | nil => rfl
  | cons a p ih =>
    rw [scanTo]
    by_cases ha : a = c
    · simp [ha]
    · rw [if_neg ha, ih]
      by_cases hc : c ∈ p
      · simp [hc, ha]
      · simp [hc, Ne.symm ha]

theorem ended_behind (h : Ended p) (hc : c ∈ p) (hstop : c ≠ 0 ∧ c ≠ 0x0a) : Ended (p.dropWhile (· ≠ c)).tail := by
  induction p with
  | nil => exact h.elim
  | cons a p ih =>
    rw [List.dropWhile_cons]
    by_cases ha : a = c
    · subst ha
      simpa using h.tail hstop
    · rw [if_pos (by simpa using ha)]
      have hcp : c ∈ p := (List.mem_cons.mp hc).resolve_left fun h => ha h.symm
      refine ih (h.suffix (List.suffix_cons a p) ?_) hcp
      rintro rfl
      cases hcp

/-! ### The loop over the lines -/

theorem splitLine_ended (h : Ended p) : ∃ t c q, splitLine p = some (t, c, q) ∧ (c = 0x0a ∨ c = 0) ∧ (q = [] ∨ Ended q) := by
  induction p with
  | nil => exact h.elim
  | cons a p ih =>
    rw [splitLine]
    split
    · case isTrue ha =>
      refine ⟨[], a, p, rfl, ha, ?_⟩
      rcases p with _ | ⟨b, p⟩
      · exact Or.inl rfl
      · exact Or.inr h
    · case isFalse ha =>
      obtain ⟨t, c, q, hs, hc, hq⟩ := ih (h.tail ⟨fun h0 => ha (Or.inr h0), fun hnl => ha (Or.inl hnl)⟩)
      exact ⟨a :: t, c, q, by rw [hs]; rfl, hc, hq⟩

theorem ended_line (hq : q = [] ∨ Ended q) : Ended (t ++ 0 :: q) := by
  refine Ended.append ?_
  rcases hq with rfl | hq
  · exact Or.inl rfl
  · exact hq.cons

section
variable {σ : Type} {line : σ → Ptr → Option (Next σ)} {ok : σ → Ptr → Prop} {st st' : σ}

/-- The loop comes to the place `p'` of a line, in the state `st'`. -/
inductive Comes (line : σ → Ptr → Option (Next σ)) (st : σ) (p : Ptr) : σ → Ptr → Prop where
  | start : Comes line st p st p
  | next {st₁ st₂ : σ} {p₁ t q : Ptr} (h : Comes line st p st₁ p₁) (hs : splitLine p₁ = some (t, 0x0a, q))
      (hline : line st₁ (t ++ 0 :: q) = some (.next st₂)) : Comes line st p st₂ q

theorem Comes.head {st₁ : σ} {p' : Ptr} (hs : splitLine p = some (t, 0x0a, q)) (hline : line st (t ++ 0 :: q) = some (.next st₁))
    (h : Comes line st₁ q st' p') : Comes line st p st' p' := by
  induction h with
  | start => exact .next .start hs hline
  | next _ hs hline ih => exact .next ih hs hline

/-- A line is there, and is read inside the buffer. -/
def LineIn (ok : σ → Ptr → Prop) (st : σ) (p : Ptr) : Prop :=
  p ≠ [] ∧ ∀ t c q, splitLine p = some (t, c, q) → ok st (t ++ 0 :: q)

theorem forLines_ne_none_iff (hline : ∀ st l, Ended l → (line st l ≠ none ↔ ok st l)) (hp : p = [] ∨ Ended p) :
    forLines line st p ≠ none ↔ ∀ st' p', Comes line st p st' p' → LineIn ok st' p' := by
  induction hn : p.length using Nat.strong_induction_on generalizing p st with
  | h n ih =>
    subst hn
    rcases hp with rfl | hp
    · refine iff_of_false (fun h => h (forLines_eq (p := []))) fun h => (h st [] .start).1 rfl
    · obtain ⟨t, c, q, hs, hc, hq⟩ := splitLine_ended hp
      have hok := hline st _ (ended_line (t := t) hq)
      rw [forLines_eq, hs]
      dsimp only
      cases hl : line st (t ++ 0 :: q) with
      | none =>
        refine iff_of_false (fun h => h rfl) fun h => ?_
        exact hok.mpr ((h st p .start).2 t c q hs) hl
      | some o =>
        have hhere : LineIn ok st p := by
          refine ⟨hp.ne_nil, fun t' c' q' hs' => ?_⟩
          rw [hs] at hs'
          cases hs'
          exact hok.mp (by rw [hl]; exact Option.some_ne_none _)
        -- the loop comes to nothing else
        have hstop (hno : ∀ st₁, o = .next st₁ → c ≠ 0x0a) : ∀ st' p', Comes line st p st' p' → LineIn ok st' p' := by
          have heq : ∀ st' p', Comes line st p st' p' → st' = st ∧ p' = p := by
            intro st' p' h
            induction h with
            | start => exact ⟨rfl, rfl⟩
            | next _ hs' hline' ih =>
              obtain ⟨rfl, rfl⟩ := ih
              rw [hs] at hs'
              cases hs'
              rw [hl] at hline'
              cases hline'
              exact absurd rfl (hno _ rfl)
          intro st' p' h
          obtain ⟨rfl, rfl⟩ := heq st' p' h
          exact hhere
        cases o with
        | done b st₁ =>
          exact iff_of_true (Option.some_ne_none _) (hstop fun _ h => by cases h)
        | next st₁ =>
          by_cases hnl : c = 0x0a
          · subst hnl
            simp only [Option.bind_some, if_true]
            rw [ih q.length (splitLine_lt hs) hq rfl]
            constructor
            · intro h st' p' hcomes
              have hcases : ∀ st' p', Comes line st p st' p' → (st' = st ∧ p' = p) ∨ Comes line st₁ q st' p' := by
                intro st' p' h
                induction h with
                | start => exact Or.inl ⟨rfl, rfl⟩
                | next _ hs' hline' ih =>
                  rcases ih with ⟨rfl, rfl⟩ | ih
                  · rw [hs] at hs'
                    cases hs'
                    rw [hl] at hline'
                    cases hline'
                    exact Or.inr .start
                  · exact Or.inr (.next ih hs' hline')
              rcases hcases st' p' hcomes with ⟨rfl, rfl⟩ | hcomes
              · exact hhere
              · exact h st' p' hcomes
            · exact fun h st' p' hcomes => h st' p' (hcomes.head hs hl)
          · simp only [Option.bind_some, if_neg hnl]
            exact iff_of_true (Option.some_ne_none _) (hstop fun _ _ => hnl)

end

/-! ### Decryption -/

/-- Each character of a line stands for a visible one; `i` counts the lines that are not empty, `j` the characters. -/
def Decrypts (i j : Nat) : Ptr → Prop
  | [] => False
  | c :: p =>
    if c = 0 then True
    else if c = 0x0a then Decrypts (if j = 0 then i else i + 1) 0 p
    else (32 ≤ c - UInt8.ofNat ((i + j) * 3 % 128) ∧ c - UInt8.ofNat ((i + j) * 3 % 128) ≤ 126) ∧ Decrypts i (j + 1) p

section
variable {i j : Nat}

theorem decryptChar_ne_none : decryptChar i j c ≠ none ↔
    32 ≤ c - UInt8.ofNat ((i + j) * 3 % 128) ∧ c - UInt8.ofNat ((i + j) * 3 % 128) ≤ 126 := by
  unfold decryptChar
  dsimp only
  split
  · case isTrue h => exact iff_of_true (Option.some_ne_none _) h
  · case isFalse h => exact iff_of_false (fun h' => h' rfl) h

theorem decryptLine_cons : decryptLine i j (c :: t) ≠ none ↔ decryptChar i j c ≠ none ∧ decryptLine i (j + 1) t ≠ none := by
  rw [decryptLine]
  cases decryptChar i j c with
  | none => simp
  | some a =>
    cases decryptLine i (j + 1) t with
    | none => simp
    | some t' => simp

theorem decrypts_of_splitLine (hs : splitLine p = some (t, c, q)) : Decrypts i j p ↔
    decryptLine i j t ≠ none ∧ (c = 0x0a → Decrypts (if j + t.length = 0 then i else i + 1) 0 q) := by
  induction p generalizing t j with
  | nil => cases hs
  | cons a p ih =>
    rw [splitLine] at hs
    split at hs
    · case isTrue ha =>
      cases hs
      rw [Decrypts, and_iff_right (show decryptLine i j [] ≠ none from Option.some_ne_none _)]
      rcases ha with rfl | rfl
      · simp
      · simp
    · case isFalse ha =>
      obtain ⟨⟨t, c, q⟩, hr, h⟩ := Option.bind_eq_some_iff.mp hs
      cases h
      rw [Decrypts, if_neg fun h0 => ha (Or.inr h0), if_neg fun hnl => ha (Or.inl hnl), ih hr, decryptLine_cons,
        decryptChar_ne_none, List.length_cons, if_neg (show ¬j + 1 + t.length = 0 by omega),
        if_neg (show ¬j + (t.length + 1) = 0 by omega)]
      exact and_assoc.symm

theorem not_decrypts_of_splitLine (hs : splitLine p = none) : ¬Decrypts i j p := by
  induction p generalizing j with
  | nil => exact id
  | cons a p ih =>
    rw [splitLine] at hs
    split at hs
    · cases hs
    · case isFalse ha =>
      have hp : splitLine p = none := by
        cases hr : splitLine p with
        | none => rfl
        | some r =>
          rw [hr] at hs
          cases hs
      rw [Decrypts, if_neg fun h0 => ha (Or.inr h0), if_neg fun hnl => ha (Or.inl hnl)]
      exact fun h => ih hp h.2

theorem phyDecrypt_eq : phyDecryptBBPgParaFile i p = match splitLine p with
    | none => none
    | some (t, c, rest) => (decryptLine i 0 t).bind fun t' =>
      (if c = 0x0a then phyDecryptBBPgParaFile (if t = [] then i else i + 1) rest else some rest).bind fun rest =>
        some (t' ++ 0x0a :: rest) := by
  rw [phyDecryptBBPgParaFile]
  split
  · case h_1 h => rw [h]
  · case h_2 t c rest h =>
    rw [h]
    by_cases hc : c = 0x0a
    · simp only [hc, if_true]
      rfl
    · simp only [hc, if_false]
      rfl

theorem phyDecrypt_ne_none : phyDecryptBBPgParaFile i p ≠ none ↔ Decrypts i 0 p := by
  induction hn : p.length using Nat.strong_induction_on generalizing p i with
  | h n ih =>
    subst hn
    rw [phyDecrypt_eq]
    cases hs : splitLine p with
    | none => exact iff_of_false (fun h => h rfl) (not_decrypts_of_splitLine hs)
    | some r =>
      obtain ⟨t, c, q⟩ := r
      rw [decrypts_of_splitLine hs]
      simp only [Nat.zero_add, List.length_eq_zero_iff]
      cases decryptLine i 0 t with
      | none => simp
      | some t' =>
        by_cases hc : c = 0x0a
        · subst hc
          rw [← ih q.length (splitLine_lt hs) rfl]
          simp only [Option.bind_some, if_true]
          cases phyDecryptBBPgParaFile (if t = [] then i else i + 1) q with
          | none => simp
          | some rest => simp
        · simp [hc]

/-- A decrypted text ends with NUL or a newline too. -/
theorem ended_decrypted (hp : Ended p) (h : phyDecryptBBPgParaFile i p = some t) : Ended t := by
  induction hn : p.length using Nat.strong_induction_on generalizing p i t with
  | h n ih =>
    subst hn
    obtain ⟨l, c, q, hs, -, hq⟩ := splitLine_ended hp
    rw [phyDecrypt_eq, hs] at h
    obtain ⟨t', -, h⟩ := Option.bind_eq_some_iff.mp h
    obtain ⟨rest, hrest, h⟩ := Option.bind_eq_some_iff.mp h
    cases h
    refine Ended.append ?_
    have hrestEnded : rest = [] ∨ Ended rest := by
      split at hrest
      · rcases hq with rfl | hq
        · rw [phyDecrypt_eq] at hrest
          cases hrest
        · exact Or.inr (ih q.length (splitLine_lt hs) hq hrest rfl)
      · cases hrest
        exact hq
    rcases hrestEnded with rfl | hrest
    · exact Or.inr rfl
    · exact hrest.cons

end

theorem paraText_ne_none {flag : UInt8} : paraText flag p ≠ none ↔ (flag = 1 → Decrypts 0 0 p) := by
  unfold paraText
  split
  · case isTrue h => rw [phyDecrypt_ne_none, forall_prop_of_true h]
  · case isFalse h => exact iff_of_true (Option.some_ne_none _) fun h' => absurd h' h

theorem ended_paraText {flag : UInt8} (hp : Ended p) (h : paraText flag p = some t) : Ended t := by
  unfold paraText at h
  split at h
  · exact ended_decrypted hp h
  · cases h
    exact hp

end Rtw.Para
