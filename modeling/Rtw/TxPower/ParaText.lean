import Mathlib.Data.List.Basic
import Mathlib.Data.Vector.Basic

/-!
# Reading parameter files

The helpers that the parsers of parameter files share. A pointer into a buffer is the list of the bytes from it to the end
of the buffer, and what reads behind them has no result.
-/

namespace Rtw.Para

/-- The bytes from a place in a buffer on. -/
abbrev Ptr := List UInt8

def isBlank (c : UInt8) : Bool := c = 0x20 ∨ c = 0x09

def isDigit (c : UInt8) : Bool := 0x30 ≤ c ∧ c ≤ 0x39

/-- The comparison of `eqNByte`, from the last of `num` bytes to the first. -/
def eqNByte (str1 str2 : Ptr) : Nat → Option Bool
  | 0 => some true
  | num + 1 => do
    let a ← str1[num]?
    let b ← str2[num]?
    if a ≠ b then return false else eqNByte str1 str2 num

/-- `eqNByte` with all of `str2` -/
def begins (str1 str2 : Ptr) : Option Bool := eqNByte str1 str2 str2.length

def isHexDigit (c : UInt8) : Bool := 0x30 ≤ c ∧ c ≤ 0x39 ∨ 0x61 ≤ c ∧ c ≤ 0x66 ∨ 0x41 ≤ c ∧ c ≤ 0x46

def mapCharToHexDigit (c : UInt8) : UInt32 :=
  if 0x30 ≤ c ∧ c ≤ 0x39 then (c - 0x30).toUInt32
  else if 0x61 ≤ c ∧ c ≤ 0x66 then 10 + (c - 0x61).toUInt32
  else if 0x41 ≤ c ∧ c ≤ 0x46 then 10 + (c - 0x41).toUInt32
  else 0

/-- The blanks in front are skipped. -/
def skipBlanks : Ptr → Option Ptr
  | [] => none
  | c :: p => if isBlank c then skipBlanks p else some (c :: p)

/-- The digits of `GetHexValueFromString` -/
def hexLoop (val : UInt32) : Ptr → Option (UInt32 × Ptr)
  | [] => none
  | c :: p => if isHexDigit c then hexLoop ((val <<< 4) + mapCharToHexDigit c) p else some (val, c :: p)

/-- The `0x` in front is skipped. -/
def skipRadix (p : Ptr) : Option Ptr := do
  let c ← p[0]?
  if c = 0x30 then
    let c' ← p[1]?
    return if c' = 0x78 ∨ c' = 0x58 then p.drop 2 else p
  else return p

/-- `GetHexValueFromString`: the value, and where it ends. -/
def getHexValueFromString (p : Ptr) : Option (Option (UInt32 × Ptr)) := do
  let p ← skipBlanks p
  let p ← skipRadix p
  let c ← p[0]?
  if isHexDigit c then
    let r ← hexLoop 0 p
    return some r
  else return none

/-- The digits of `GetFractionValueFromString`: integer, fraction, and where they end. -/
def fractionLoop (integer : UInt8) : Ptr → Option (Option (UInt8 × UInt8 × Ptr))
  | [] => none
  | c :: p => do
    let integer := integer * 10 + (c - 0x30)
    let c' ← p[0]?
    if c' = 0x2e then
      let d ← p[1]?
      return if isDigit d then some (integer, d - 0x30, p.drop 2) else none
    else if isDigit c' then fractionLoop integer p
    else return some (integer, 0, p)

/-- `GetFractionValueFromString` -/
def getFractionValueFromString (p : Ptr) : Option (Option (UInt8 × UInt8 × Ptr)) := do
  let p ← skipBlanks p
  fractionLoop 0 p

/-- `IsCommentString` -/
def isCommentString (p : Ptr) : Option Bool := do
  let c ← p[0]?
  if c = 0x2f then
    let c' ← p[1]?
    return c' = 0x2f
  else return false

/-- The loop of `GetU1ByteIntegerFromStringInDecimal`: whether there are digits only, and the value. -/
def decimalLoop (int : UInt8) : Ptr → Option (Bool × UInt8)
  | [] => none
  | c :: p => if c = 0 then some (true, int) else if isDigit c then decimalLoop (int * 10 + (c - 0x30)) p
    else some (false, int)

/-- `GetU1ByteIntegerFromStringInDecimal` -/
def getU1ByteIntegerFromStringInDecimal (p : Ptr) : Option (Bool × UInt8) := decimalLoop 0 p

/-- A local buffer for a name or a number. -/
abbrev Name := Vector UInt8 10

/-- `strncpy` -/
def strncpy (out : Name) (l : List UInt8) : Option Name :=
  if l.length ≤ 10 then
    let given := l.takeWhile (· ≠ 0)
    some (Vector.ofFn fun i => if i.val < l.length then given.getD i 0 else out[i])
  else none

/-- What is in front of the next `c`, and what is behind it. -/
def scanTo (c : UInt8) : Ptr → Option (List UInt8 × Ptr)
  | [] => none
  | a :: p => if a = c then some ([], p) else do
    let r ← scanTo c p
    return (a :: r.1, r.2)

/-- `ParseQualifiedString`: `Out`, and the place behind the right qualifier. -/
def parseQualifiedString (p : Ptr) (out : Name) (left right : UInt8) : Option (Option (Name × Ptr)) := do
  let c ← p[0]?
  if c ≠ left then return none
  else
    let r ← scanTo right (p.drop 1)
    let out ← strncpy out r.1
    return some (out, r.2)

/-- The text of a line, the byte that ends it, and what is behind. -/
def splitLine : Ptr → Option (List UInt8 × UInt8 × Ptr)
  | [] => none
  | c :: p => if c = 0x0a ∨ c = 0 then some ([], c, p) else do
    let r ← splitLine p
    return (c :: r.1, r.2)

theorem splitLine_eq {p t q : List UInt8} {c : UInt8} (h : splitLine p = some (t, c, q)) : p = t ++ c :: q := by
  induction p generalizing t with
  | nil => cases h
  | cons a p ih =>
    unfold splitLine at h
    split at h
    · cases h
      rfl
    · obtain ⟨⟨t, c, q⟩, hr, h⟩ := Option.bind_eq_some_iff.mp h
      cases h
      rw [ih hr]
      rfl

theorem splitLine_lt {p t q : List UInt8} {c : UInt8} (h : splitLine p = some (t, c, q)) : q.length < p.length := by
  rw [splitLine_eq h, List.length_append, List.length_cons]
  omega

/-- What a line does to a parser in the state `σ`. -/
inductive Next (σ : Type) where
  | next (st : σ)
  | done (success : Bool) (st : σ)

/-- The loop over the lines that `GetLineFromBuffer` finds. The newline behind a line is made NUL before it is read. -/
def forLines {σ : Type} (line : σ → Ptr → Option (Next σ)) (st : σ) (ptmp : Ptr) : Option (Bool × σ) :=
  match h : splitLine ptmp with
  | none => none
  | some (t, c, rest) => do
    match ← line st (t ++ 0 :: rest) with
    | .next st => if c = 0x0a then forLines line st rest else return (true, st)
    | .done success st => return (success, st)
  termination_by ptmp.length
  decreasing_by exact splitLine_lt h

/-- `map` of `phy_DecryptBBPgParaFile` has an entry for each visible character. -/
def decryptChar (i j : Nat) (c : UInt8) : Option UInt8 :=
  let currentChar := c - UInt8.ofNat ((i + j) * 3 % 128)
  if 32 ≤ currentChar ∧ currentChar ≤ 126 then some (94 - (currentChar - 32) + 32) else none

/-- The loop over the characters of a line. -/
def decryptLine (i : Nat) : Nat → List UInt8 → Option (List UInt8)
  | _, [] => some []
  | j, c :: t => do
    let a ← decryptChar i j c
    let t ← decryptLine i (j + 1) t
    return a :: t

/-- `phy_DecryptBBPgParaFile`; `i` counts the lines that are not empty. A newline is put behind the last line too. -/
def phyDecryptBBPgParaFile (i : Nat) (ptmp : Ptr) : Option Ptr :=
  match h : splitLine ptmp with
  | none => none
  | some (t, c, rest) => do
    let t' ← decryptLine i 0 t
    let rest ← if c = 0x0a then phyDecryptBBPgParaFile (if t = [] then i else i + 1) rest else some rest
    return t' ++ 0x0a :: rest
  termination_by ptmp.length
  decreasing_by exact splitLine_lt h

/-- The text that is parsed. -/
def paraText (regDecryptCustomFile : UInt8) (buffer : Ptr) : Option Ptr :=
  if regDecryptCustomFile = 1 then phyDecryptBBPgParaFile 0 buffer else some buffer

end Rtw.Para
