import Rtw.TxPower.ParaSafe
import Rtw.TxPower.PgFile

/-!
# When a PHY_REG_PG file is read inside its buffer

`pgLine` compares fixed numbers of bytes, whatever the length of the line; looks for `]` up to the end of the buffer; takes
the byte at a value for a digit, whatever it is; and counts the groups of a file of version 0 without a bound.
`pgLine_ne_none` gives the lines for which this goes well.
-/

namespace Rtw
open Para

/-- There is an entry for the values of a row. -/
def PgState.Room (st : PgState) : Prop := st.phyRegPgVersion = 0 → st.pwrGroupCnt.toNat < 13

/-- What is behind a value, up to its fraction. Its first byte need not be a digit. -/
def valueRest (p : Ptr) : Ptr := ((p.dropWhile isBlank).drop 1).dropWhile isDigit

/-- There is a byte behind each of the values, up to one with a wrong fraction; with none, `room`. -/
def ValuesFit (room : Prop) : Nat → Ptr → Prop
  | 0, _ => room
  | n + 1, p => ∃ d r, valueRest p = d :: r ∧
      if d = 0x2e then ∃ e q, r = e :: q ∧ (isDigit e = true → ValuesFit room n q) else ValuesFit room n (d :: r)

/-- The same for what is behind the mask. -/
def RowFits (st : PgState) (p : Ptr) : Prop :=
  if st.phyRegPgValueType = .relative then ∀ v, getHexValueFromString p = some (some v) → st.Room
  else ValuesFit st.Room 4 p

/-- The same for a row from the register on. -/
def RegisterFits (st : PgState) (p : Ptr) : Prop :=
  ∀ regAddr q, getHexValueFromString p = some (some (regAddr, q)) → (st.phyRegPgVersion = 0 → regAddr ≠ 0xffff) →
    ∀ bitMask r, getHexValueFromString q = some (some (bitMask, r)) → RowFits st r

/-- The first line that is not a comment or blank. -/
def HeaderFits (szLine : Ptr) : Prop :=
  5 ≤ szLine.length ∧
    ([0x23, 0x5b, 0x76, 0x31, 0x5d] <+: szLine ∨ [0x23, 0x5b, 0x76, 0x30, 0x5d] <+: szLine →
      13 ≤ szLine.length ∧
        (¬[0x5b, 0x45, 0x78, 0x61, 0x63, 0x74, 0x5d, 0x23] <+: szLine.drop 5 → 16 ≤ szLine.length))

/-- A line of a file of version 1. -/
def LineV1Fits (st : PgState) (szLine : Ptr) : Prop :=
  6 ≤ szLine.length ∧
    (¬[0x30, 0x78, 0x66, 0x66, 0x66, 0x66] <+: szLine →
      7 ≤ szLine.length ∧
        (¬[0x23, 0x5b, 0x45, 0x4e, 0x44, 0x5d, 0x23] <+: szLine →
          if szLine[0]? = some 0x23 then
            ([0x23, 0x5b, 0x32, 0x2e, 0x34, 0x47, 0x5d] <+: szLine → 9 ≤ szLine.length)
          else
            ∀ c, szLine[1]? = some c → 0x31 ≤ c ∧ c ≤ 0x34 →
              0x5d ∈ szLine ∧ RegisterFits st (szLine.dropWhile (· ≠ 0x5d)).tail))

/-- A line. -/
def PgLineFits (st : PgState) (szLine : Ptr) : Prop :=
  ¬[0x2f, 0x2f] <+: szLine → ∀ c, szLine[0]? = some c → ¬(isBlank c ∨ c = 0) →
    if st.firstLine then HeaderFits szLine
    else if st.phyRegPgVersion = 0 then RegisterFits st szLine
    else LineV1Fits st szLine

section
variable {a : PgAdapter} {st : PgState} {p szLine : Ptr} {band : BandType} {rfPath txNum : UInt8} {regAddr bitMask data : UInt32}

theorem orFail_ne_none {α : Type} {r : Option (Option α)} {f : α → Option (Next PgState)} :
    orFail r st f ≠ none ↔ r ≠ none ∧ ∀ x, r = some (some x) → f x ≠ none := by
  unfold orFail
  rcases r with _ | _ | x
  · simp
  · simp
  · simp

theorem phyStoreTxPowerByRate_ne_none (band : BandType) (rfPath txNum : UInt8) (regAddr bitMask data : UInt32) :
    phyStoreTxPowerByRate a st band rfPath txNum regAddr bitMask data ≠ none ↔ st.Room := by
  unfold phyStoreTxPowerByRate PgState.Room
  by_cases hv : st.phyRegPgVersion = 0
  · rw [if_neg (by rw [hv]; decide), forall_prop_of_true hv]
    unfold phyStoreTxPowerByRateOld
    split
    · case isTrue h => exact iff_of_true (Option.some_ne_none _) h
    · case isFalse h => exact iff_of_false (fun h' => h' rfl) h
  · have hpos : st.phyRegPgVersion > 0 := by
      rw [gt_iff_lt, UInt8.lt_iff_toNat_lt]
      have : st.phyRegPgVersion.toNat ≠ 0 := fun h => hv (UInt8.toNat_inj.mp h)
      show 0 < _
      omega
    rw [if_pos hpos]
    exact iff_of_true (Option.some_ne_none _) fun h => absurd h hv

theorem getFraction_eq : getFractionValueFromString p = if p.dropWhile isBlank = [] then none else
    (fractionAt (valueRest p)).map fun o => o.map fun f =>
      (decValue 0 ((p.dropWhile isBlank).take 1 ++ ((p.dropWhile isBlank).drop 1).takeWhile isDigit), f) := by
  have hskip (p : Ptr) : skipBlanks p = if p.dropWhile isBlank = [] then none else some (p.dropWhile isBlank) := by
    induction p with
    | nil => rfl
    | cons c p ih =>
      rw [skipBlanks, List.dropWhile_cons]
      split
      · exact ih
      · rw [if_neg (List.cons_ne_nil c p)]
  unfold getFractionValueFromString valueRest
  rw [hskip]
  split
  · rfl
  · case isFalse h =>
    obtain ⟨c, q, hq⟩ := List.exists_cons_of_ne_nil h
    rw [hq]
    exact fractionLoop_eq

theorem fractionAt_ne_none {p : Ptr} {f : UInt8 × Ptr → Prop} :
    (fractionAt p ≠ none ∧ ∀ x, fractionAt p = some (some x) → f x) ↔
      ∃ d r, p = d :: r ∧ if d = 0x2e then ∃ e q, r = e :: q ∧ (isDigit e = true → f (e - 0x30, q)) else f (0, d :: r) := by
  rcases p with _ | ⟨d, r⟩
  · simp [fractionAt]
  · by_cases hd : d = 0x2e
    · rcases r with _ | ⟨e, q⟩
      · simp [fractionAt, hd]
      · by_cases he : isDigit e = true
        · simp [fractionAt, hd, he]
        · simp [fractionAt, hd, he]
    · simp [fractionAt, hd]

/-- The values of a row, and what is done with them. -/
theorem combineValues_ne_none {room : Prop} {f : UInt32 → Option (Next PgState)} (hf : ∀ w, f w ≠ none ↔ room) {n : Nat} :
    ∀ {w : UInt32} {p : Ptr}, orFail (combineValues n w p) st f ≠ none ↔ ValuesFit room n p := by
  induction n with
  | zero =>
    intro w p
    rw [orFail_ne_none, combineValues, ValuesFit]
    simp [hf]
  | succ n ih =>
    intro w p
    rw [ValuesFit, ← fractionAt_ne_none (f := fun x => ValuesFit room n x.2), combineValues, getFraction_eq]
    split
    · case isTrue h =>
      have hnil : fractionAt (valueRest p) = none := by
        unfold valueRest
        rw [h]
        rfl
      rw [hnil]
      simp [orFail]
    · rcases fractionAt (valueRest p) with _ | _ | x
      · simp [orFail]
      · simp [orFail]
      · simp only [Option.map_some, Option.bind_some, Option.elim_some]
        rw [ih]
        simp

theorem pgRowValue_ne_none (h : Ended p) : pgRowValue a st band rfPath txNum regAddr bitMask p ≠ none ↔ RowFits st p := by
  have hstore (w : UInt32) : (phyStoreTxPowerByRate a st band rfPath txNum regAddr bitMask w).map Next.next ≠ none ↔ st.Room := by
    rw [← phyStoreTxPowerByRate_ne_none (a := a) band rfPath txNum regAddr bitMask w, ne_eq, Option.map_eq_none_iff]
  unfold pgRowValue RowFits
  cases st.phyRegPgValueType with
  | relative =>
    rw [if_pos rfl, orFail_ne_none]
    simp only [hstore]
    refine and_iff_right ?_
    rcases getHex_ended h with h | ⟨v, q, h, -⟩ <;> rw [h] <;> exact Option.some_ne_none _
  | exact =>
    rw [if_neg (by decide)]
    exact combineValues_ne_none hstore

theorem hex_ne_none {α : Type} (h : Ended p) {g : UInt32 × Ptr → Option α} {o : Option α} (ho : o ≠ none) :
    ((getHexValueFromString p).bind fun v => v.elim o g) ≠ none ↔
      ∀ v q, getHexValueFromString p = some (some (v, q)) → g (v, q) ≠ none := by
  rcases getHex_ended h with h | ⟨v, q, h, -⟩
  · rw [h]
    exact iff_of_true ho fun _ _ h => by cases h
  · rw [h]
    simp

theorem ended_hex (h : Ended p) {v : UInt32} {q : Ptr} (hv : getHexValueFromString p = some (some (v, q))) : Ended q := by
  rcases getHex_ended h with h | ⟨v', q', h, hq⟩
  · rw [h] at hv
    cases hv
  · rw [h] at hv
    cases hv
    exact hq

/-- The mask and the values of a row. -/
theorem mask_ne_none (st : PgState) (h : Ended p) : (orFail (getHexValueFromString p) st fun (bitMask, p) =>
    pgRowValue a st band rfPath txNum regAddr bitMask p) ≠ none ↔
      ∀ bitMask q, getHexValueFromString p = some (some (bitMask, q)) → RowFits st q := by
  refine (hex_ne_none h (Option.some_ne_none _)).trans (forall₃_congr fun bitMask q hq => ?_)
  exact pgRowValue_ne_none (ended_hex h hq)

theorem pgLineV0_ne_none (h : Ended szLine) (hv : st.phyRegPgVersion = 0) :
    pgLineV0 a st szLine ≠ none ↔ RegisterFits st szLine := by
  refine (hex_ne_none h (Option.some_ne_none _)).trans (forall₃_congr fun regAddr q hq => ?_)
  dsimp only
  split
  · case isTrue hend => exact iff_of_true (Option.some_ne_none _) fun hne => absurd hend (hne hv)
  · case isFalse hend =>
    rw [forall_prop_of_true fun _ => hend]
    exact mask_ne_none st (ended_hex h hq)

theorem begins_cases {s : List UInt8} {n : Nat} (hs : s.length = n) (hn : n ≠ 0) {α : Type} {f : Bool → Option α} :
    (begins p s).bind f ≠ none ↔ n ≤ p.length ∧ f (decide (s <+: p)) ≠ none := by
  subst hs
  by_cases hle : s.length ≤ p.length
  · rw [begins_eq hle, and_iff_right hle]
    rfl
  · rw [(begins_eq_none (by simpa using hn)).mpr (by omega)]
    exact iff_of_false (fun h => h rfl) fun h => hle h.1

theorem pgHeader_ne_none : pgHeader st szLine ≠ none ↔ HeaderFits szLine := by
  unfold pgHeader HeaderFits
  simp only [Option.bind_eq_bind]
  rw [begins_cases (n := 5) rfl (by decide), begins_cases (n := 5) rfl (by decide)]
  refine and_congr_right fun h5 => ?_
  rw [and_iff_right h5]
  simp only [decide_eq_true_eq]
  split
  · case isTrue hv =>
    rw [forall_prop_of_true hv, begins_cases (n := 8) rfl (by decide), List.length_drop]
    refine and_congr (by omega) ?_
    simp only [decide_eq_true_eq]
    split
    · case isTrue he => exact iff_of_true (Option.some_ne_none _) fun hne => absurd he hne
    · case isFalse he =>
      rw [forall_prop_of_true he, begins_cases (n := 11) rfl (by decide), List.length_drop]
      refine (and_iff_left (Option.some_ne_none _)).trans ?_
      omega
  · case isFalse hv => exact iff_of_true (Option.some_ne_none _) fun h => absurd h hv

theorem pgRow_ne_none (h : Ended szLine) (hlen : 2 ≤ szLine.length) (hv : st.phyRegPgVersion ≠ 0) :
    pgRow a st szLine ≠ none ↔ ∀ c, szLine[1]? = some c → 0x31 ≤ c ∧ c ≤ 0x34 →
      0x5d ∈ szLine ∧ RegisterFits st (szLine.dropWhile (· ≠ 0x5d)).tail := by
  unfold pgRow
  rw [List.getElem?_eq_getElem (by omega)]
  simp only [Option.bind_eq_bind, Option.bind_some, Option.some.injEq, forall_eq']
  split
  · case isTrue hc =>
    rw [forall_prop_of_true hc, scanTo_eq]
    split
    · case isTrue hmem =>
      have hq := ended_behind h hmem (by decide)
      rw [and_iff_right hmem, Option.bind_some]
      refine (hex_ne_none hq (Option.some_ne_none _)).trans (forall₃_congr fun regAddr q hq' => ?_)
      rw [forall_prop_of_true fun hv' => absurd hv' hv]
      exact mask_ne_none { st with txNum := szLine[1] - 0x31 } (ended_hex hq hq')
    · case isFalse hmem => exact iff_of_false (fun h => h rfl) fun h => hmem h.1
  · case isFalse hc => exact iff_of_true (Option.some_ne_none _) fun h => absurd h hc

theorem pgHeading_ne_none (hlen : 7 ≤ szLine.length) : pgHeading st szLine ≠ none ↔
    ([0x23, 0x5b, 0x32, 0x2e, 0x34, 0x47, 0x5d] <+: szLine → 9 ≤ szLine.length) := by
  unfold pgHeading
  simp only [Option.bind_eq_bind]
  rw [begins_cases (n := 7) rfl (by decide), and_iff_right hlen]
  simp only [decide_eq_true_eq]
  split
  · case isTrue hg =>
    rw [forall_prop_of_true hg]
    by_cases h9 : 9 ≤ szLine.length
    · rw [List.getElem?_eq_getElem (by omega)]
      exact iff_of_true (Option.some_ne_none _) h9
    · rw [List.getElem?_eq_none (by omega)]
      exact iff_of_false (fun h => h rfl) h9
  · case isFalse hg =>
    refine iff_of_true ?_ fun h => absurd h hg
    rw [begins_cases (n := 5) rfl (by decide)]
    refine ⟨by omega, ?_⟩
    split
    · rw [List.getElem?_eq_getElem (by omega)]
      exact Option.some_ne_none _
    · exact Option.some_ne_none _

theorem pgLineV1_ne_none (h : Ended szLine) (hv : st.phyRegPgVersion ≠ 0) :
    pgLineV1 a st szLine ≠ none ↔ LineV1Fits st szLine := by
  unfold pgLineV1 LineV1Fits
  simp only [Option.bind_eq_bind]
  rw [begins_cases (n := 6) rfl (by decide)]
  refine and_congr_right fun h6 => ?_
  simp only [decide_eq_true_eq]
  split
  · case isTrue hend => exact iff_of_true (Option.some_ne_none _) fun hne => absurd hend hne
  · case isFalse hend =>
    rw [forall_prop_of_true hend]
    by_cases h7 : 7 ≤ szLine.length
    · rw [and_iff_right h7, eqNByte_eq (by decide) h7, Option.bind_some]
      have hiff : [0x23, 0x5b, 0x45, 0x4e, 0x44, 0x5d, 0x23].take 7 = szLine.take 7 ↔
          [0x23, 0x5b, 0x45, 0x4e, 0x44, 0x5d, 0x23] <+: szLine := List.prefix_iff_eq_take.symm
      simp only [hiff, decide_eq_true_eq]
      split
      · case isTrue he => exact iff_of_true (Option.some_ne_none _) fun hne => absurd he hne
      · case isFalse he =>
        rw [forall_prop_of_true he, List.getElem?_eq_getElem (by omega)]
        simp only [Option.bind_some, Option.some.injEq]
        split
        · exact pgHeading_ne_none h7
        · exact pgRow_ne_none h (by omega) hv
    · have hnone : eqNByte [0x23, 0x5b, 0x45, 0x4e, 0x44, 0x5d, 0x23] szLine 7 = none := by
        rw [eqNByte, List.getElem?_eq_none (l := szLine) (by omega)]
        rfl
      rw [hnone]
      exact iff_of_false (fun h => h rfl) fun h => h7 h.1

/-- A line is read inside the buffer exactly if it fits. -/
theorem pgLine_ne_none (h : Ended szLine) : pgLine a st szLine ≠ none ↔ PgLineFits st szLine := by
  obtain ⟨c, p, rfl⟩ := List.exists_cons_of_ne_nil h.ne_nil
  unfold pgLine PgLineFits
  rw [isCommentString_eq h]
  simp only [Option.bind_eq_bind, Option.bind_some, decide_eq_true_eq, List.getElem?_cons_zero, Option.some.injEq,
    forall_eq']
  split
  · case isTrue hcom => exact iff_of_true (Option.some_ne_none _) fun hne => absurd hcom hne
  · case isFalse hcom =>
    rw [forall_prop_of_true hcom]
    split
    · case isTrue hb => exact iff_of_true (Option.some_ne_none _) fun hne => absurd hb hne
    · case isFalse hb =>
      rw [forall_prop_of_true hb]
      split
      · exact pgHeader_ne_none
      · split
        · case isTrue hv => exact pgLineV0_ne_none h hv
        · case isFalse hv => exact pgLineV1_ne_none h hv

end

end Rtw
