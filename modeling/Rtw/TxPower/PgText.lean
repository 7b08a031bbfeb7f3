import Rtw.TxPower.PgFile
import Rtw.TxPower.ParaScan

/-!
# Well-formed PHY_REG_PG texts

A text of version 1 with exact values: its pieces carry what makes them well formed, and `pgLine` does for each line what
`PgItem.apply` says (`pgLine_item`).
-/

namespace Rtw
open Para

/-- A number in hexadecimal digits, with or without `0x`. -/
structure HexText where
  blanks : List UInt8
  radix : List UInt8
  digits : List UInt8
  blank : ∀ c ∈ blanks, isBlank c = true
  radix_eq : radix = [] ∨ radix = [0x30, 0x78] ∨ radix = [0x30, 0x58]
  digits_ne : digits ≠ []
  digit : ∀ c ∈ digits, isHexDigit c = true

/-- The number that decimal digits stand for. -/
def decimal (ds : List UInt8) : Nat := ds.foldl (fun n c => 10 * n + (c.toNat - 0x30)) 0

/-- A value of up to 63.5 dBm in decimal digits, possibly with `.0` or `.5`. -/
structure ValueText where
  blanks : List UInt8
  digits : List UInt8
  half : Option Bool
  blanks_ne : blanks ≠ []
  blank : ∀ c ∈ blanks, isBlank c = true
  digits_ne : digits ≠ []
  digit : ∀ c ∈ digits, isDigit c = true
  small : decimal digits ≤ 63

namespace HexText

def bytes (x : HexText) : List UInt8 := x.blanks ++ (x.radix ++ x.digits)

def value (x : HexText) : UInt32 := hexValue 0 x.digits

end HexText

namespace ValueText

def bytes (x : ValueText) : List UInt8 :=
  x.blanks ++ (x.digits ++ x.half.elim [] fun h => [0x2e, if h then 0x35 else 0x30])

/-- Twice the value. -/
def twice (x : ValueText) : Nat := 2 * decimal x.digits + if x.half = some true then 1 else 0

end ValueText

/-- A row `[1Tx] 0xc20 0xffffffff 17 17.5 18 18.5`. -/
structure PgRowText where
  nTx : UInt8
  label : List UInt8
  addr : HexText
  mask : HexText
  values : List ValueText
  tail : List UInt8
  nTx_mem : 0x31 ≤ nTx ∧ nTx ≤ 0x34
  label_plain : Plain label
  label_open : 0x5d ∉ label
  mask_blanks : mask.blanks ≠ []
  values_length : values.length = 4
  tail_plain : Plain tail
  tail_head : ∀ c ∈ tail.head?, isDigit c = false ∧ c ≠ 0x2e

/-- A line that is not read: a comment, or one that is empty or begins with a blank. -/
structure SkipText where
  bytes : List UInt8
  plain : Plain bytes
  skip : bytes = [] ∨ (∃ c l, bytes = c :: l ∧ isBlank c = true) ∨ ∃ l, bytes = 0x2f :: 0x2f :: l

inductive PgTableLine where
  | skip (l : SkipText)
  | row (r : PgRowText)
  /-- `#[END]#` -/
  | tableEnd (rest : List UInt8) (plain : Plain rest)

/-- A table with the heading `#[2.4G][A]#`, say. -/
structure PgTable where
  band : BandType
  path : Fin 4
  rest : List UInt8
  rest_plain : Plain rest
  lines : List PgTableLine

/-- A text; with a line `0xffff` it ends there. -/
structure PgText where
  before : List SkipText
  headRest : List UInt8
  head_plain : Plain headRest
  between : List SkipText
  tables : List PgTable
  stop : Option (List UInt8)
  stop_plain : ∀ l ∈ stop, Plain l
  behind : List (List UInt8)
  behind_eq : stop = none → behind = []

namespace PgRowText

def bytes (r : PgRowText) : List UInt8 :=
  0x5b :: r.nTx :: (r.label ++ 0x5d :: (r.addr.bytes ++ (r.mask.bytes ++ (r.values.flatMap ValueText.bytes ++ r.tail))))

/-- Twice the value for a byte of the register; the first one is for the highest byte. -/
def twiceAt (r : PgRowText) (i : Nat) : Option Nat := if i < 4 then r.values[3 - i]?.map ValueText.twice else none

/-- Twice the value that the row gives for a rate. -/
def given (r : PgRowText) (rate : Rate) : Option Nat :=
  ((pgRates r.addr.value r.mask.value).find? fun e => e.1 = rate).bind fun e => r.twiceAt e.2

end PgRowText

def PgTableLine.bytes : PgTableLine → List UInt8
  | skip l => l.bytes
  | row r => r.bytes
  | tableEnd rest _ => [0x23, 0x5b, 0x45, 0x4e, 0x44, 0x5d, 0x23] ++ rest

def PgTable.heading (t : PgTable) : List UInt8 :=
  (match t.band with
  | .on2_4G => [0x23, 0x5b, 0x32, 0x2e, 0x34, 0x47, 0x5d, 0x5b]
  | .on5G => [0x23, 0x5b, 0x35, 0x47, 0x5d, 0x5b]) ++ UInt8.ofNat (0x41 + t.path.val) :: t.rest

/-- What a line gives for a rate if it is in a table for the rate's band and path, or else the value before. -/
def PgTableLine.gives (here : Bool) (rate : Rate) (v : Option Nat) : PgTableLine → Option Nat
  | row r => if here then (r.given rate).or v else v
  | _ => v

/-- The last value in a table, or else the one before. -/
def PgTable.gives (t : PgTable) (band : BandType) (path : Fin 4) (rate : Rate) (v : Option Nat) : Option Nat :=
  t.lines.foldl (fun v line => line.gives (t.band = band ∧ t.path = path) rate v) v

namespace PgText

/-- The lines from the first table on. -/
def tableLines (t : PgText) : List (List UInt8) := t.tables.flatMap fun t => t.heading :: t.lines.map PgTableLine.bytes

def lines (t : PgText) : List (List UInt8) :=
  t.before.map SkipText.bytes ++
    ([0x23, 0x5b, 0x76, 0x31, 0x5d, 0x5b, 0x45, 0x78, 0x61, 0x63, 0x74, 0x5d, 0x23] ++ t.headRest) ::
    (t.between.map SkipText.bytes ++ (t.tableLines ++
      ((t.stop.map fun l => [0x30, 0x78, 0x66, 0x66, 0x66, 0x66] ++ l).toList ++ t.behind)))

/-- Twice the value that the text gives last for a rate. -/
def lastGiven (t : PgText) (band : BandType) (path : Fin 4) (rate : Rate) : Option Nat :=
  t.tables.foldl (fun v table => table.gives band path rate v) none

end PgText

/-! ### Bytes -/

section
variable {c : UInt8} {l l' : List UInt8}

theorem not_blank_of_digit (h : isDigit c = true) : isBlank c = false := by
  unfold isDigit at h
  unfold isBlank
  simp only [decide_eq_true_eq] at h
  refine decide_eq_false ?_
  rintro (rfl | rfl)
  · exact absurd h (by decide)
  · exact absurd h (by decide)

theorem not_blank_of_hex (h : isHexDigit c = true) : isBlank c = false := by
  unfold isHexDigit at h
  unfold isBlank
  simp only [decide_eq_true_eq] at h
  refine decide_eq_false ?_
  rintro (rfl | rfl)
  · exact absurd h (by decide)
  · exact absurd h (by decide)

theorem blank_cases (h : isBlank c = true) : c = 0x20 ∨ c = 0x09 := of_decide_eq_true h

theorem plain_append : Plain (l ++ l') ↔ Plain l ∧ Plain l' := List.forall_mem_append

theorem plain_cons : Plain (c :: l) ↔ (c ≠ 0x0a ∧ c ≠ 0) ∧ Plain l := List.forall_mem_cons

theorem plain_of_blank (h : ∀ c ∈ l, isBlank c = true) : Plain l := by
  intro c hc
  rcases blank_cases (h c hc) with rfl | rfl
  · decide
  · decide

theorem plain_of_digit (h : ∀ c ∈ l, isDigit c = true) : Plain l := by
  intro c hc
  have hd := h c hc
  constructor
  · rintro rfl
    cases hd
  · rintro rfl
    cases hd

theorem plain_of_hex (h : ∀ c ∈ l, isHexDigit c = true) : Plain l := by
  intro c hc
  have hd := h c hc
  constructor
  · rintro rfl
    cases hd
  · rintro rfl
    cases hd

end

/-! ### Numbers -/

namespace HexText

variable {x : HexText} {c : UInt8} {p : Ptr}

theorem plain_bytes (x : HexText) : Plain x.bytes := by
  refine plain_append.mpr ⟨plain_of_blank x.blank, plain_append.mpr ⟨?_, plain_of_hex x.digit⟩⟩
  rcases x.radix_eq with h | h | h <;> rw [h] <;> decide

theorem get (x : HexText) (hc : isBlank c = true) :
    getHexValueFromString (x.bytes ++ c :: p) = some (some (x.value, c :: p)) := by
  obtain ⟨d, ds, hds⟩ := List.exists_cons_of_ne_nil x.digits_ne
  have hd : isHexDigit d = true := x.digit d (by rw [hds]; exact List.mem_cons_self ..)
  have hcx : isHexDigit c = false := by
    rcases blank_cases hc with rfl | rfl <;> rfl
  have hskip : skipBlanks (x.bytes ++ c :: p) = some (x.radix ++ (x.digits ++ c :: p)) := by
    unfold bytes
    rw [List.append_assoc, skipBlanks_append x.blank, List.append_assoc]
    rcases x.radix_eq with h | h | h
    · rw [h, hds, List.nil_append, List.cons_append, skipBlanks_cons (not_blank_of_hex hd)]
    · rw [h, List.cons_append, skipBlanks_cons rfl]
    · rw [h, List.cons_append, skipBlanks_cons rfl]
  have hradix : skipRadix (x.radix ++ (x.digits ++ c :: p)) = some (x.digits ++ c :: p) := by
    rcases x.radix_eq with h | h | h
    · rw [h, List.nil_append, skipRadix, hds]
      have hnext : ∃ c' q, ds ++ c :: p = c' :: q ∧ ¬(c' = 0x78 ∨ c' = 0x58) := by
        rcases ds with _ | ⟨e, ds⟩
        · refine ⟨c, p, rfl, ?_⟩
          rcases blank_cases hc with rfl | rfl <;> decide
        · refine ⟨e, ds ++ c :: p, rfl, ?_⟩
          have he : isHexDigit e = true := x.digit e (by rw [hds]; simp)
          rintro (rfl | rfl) <;> cases he
      obtain ⟨c', q, hq, hc'⟩ := hnext
      simp [hq, hc']
    · rw [h]
      rfl
    · rw [h]
      rfl
  unfold getHexValueFromString
  rw [hskip]
  show (skipRadix _).bind _ = _
  rw [hradix]
  simp only [Option.bind_some]
  rw [hds, List.cons_append, List.getElem?_cons_zero]
  show (if isHexDigit d then (hexLoop 0 (d :: (ds ++ c :: p))).bind _ else _) = _
  rw [if_pos hd, ← List.cons_append, ← hds, hexLoop_append x.digit hcx]
  rfl

end HexText

namespace ValueText

variable {c : UInt8} {p : Ptr}

theorem plain_bytes (x : ValueText) : Plain x.bytes := by
  refine plain_append.mpr ⟨plain_of_blank x.blank, plain_append.mpr ⟨plain_of_digit x.digit, ?_⟩⟩
  rcases x.half with _ | _ | _ <;> decide

theorem get (x : ValueText) (hc : isDigit c = false) (hdot : c ≠ 0x2e) :
    getFractionValueFromString (x.bytes ++ c :: p) =
      some (some (decValue 0 x.digits, if x.half = some true then 5 else 0, c :: p)) := by
  obtain ⟨d, ds, hds⟩ := List.exists_cons_of_ne_nil x.digits_ne
  have hd : isDigit d = true := x.digit d (by rw [hds]; exact List.mem_cons_self ..)
  have hskip (q : Ptr) : skipBlanks (x.blanks ++ (x.digits ++ q)) = some (x.digits ++ q) := by
    rw [skipBlanks_append x.blank, hds, List.cons_append, skipBlanks_cons (not_blank_of_digit hd)]
  unfold getFractionValueFromString bytes
  rw [List.append_assoc, List.append_assoc, hskip]
  rcases hhalf : x.half with _ | h
  · exact fractionLoop_append x.digit x.digits_ne hc hdot
  · have hfrac : isDigit (if h then 0x35 else 0x30) = true := by
      cases h <;> rfl
    refine (fractionLoop_append_dot x.digit x.digits_ne hfrac).trans ?_
    cases h <;> rfl

end ValueText

end Rtw
