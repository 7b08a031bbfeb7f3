import Rtw.Lib.Prog
import Rtw.Lib.Splice
import Rtw.Efuse.Walkers

/-!
# An efuse text file

`rtw_efuse_file_read` reads hexadecimal bytes from a file of text into `buf`. Its loop goes over the text two characters
at a time, passing over a space in front and over two characters of which the second is a line end or NUL; only the number
of bytes stored ends it. `readOk_iff`: it stays inside its buffer exactly if the 2048 bytes have enough of these
twos, and then stores the bytes of the text exactly if the line feeds do not put it out of step.
-/

namespace Rtw.Efuse
open Access Splice

/-- What the loop reads and writes. -/
inductive FileObj where
  | ptmpbuf
  | buf

def ptmpbufSize : Nat := 2048

def FileObj.size (len : Nat) : FileObj → Nat
  | ptmpbuf => ptmpbufSize
  | buf => len

/-- `_tolower` of the kernel. -/
def tolower (c : UInt8) : UInt8 := c ||| 0x20

/-- The value of a digit for `_parse_integer`. -/
def hexDigit (c : UInt8) : Option UInt64 :=
  if 0x30 ≤ c ∧ c ≤ 0x39 then some (c - 0x30).toUInt64
  else if 0x61 ≤ tolower c ∧ tolower c ≤ 0x66 then some (tolower c - 0x61 + 10).toUInt64
  else none

def isLineEnd (c : UInt8) : Bool := c = 0x0a ∨ c = 0

section
variable (ptmpbuf : Nat → UInt8)

/-- A round of `_parse_integer`. -/
def parseIntegerRound (s : Nat × UInt64) : Traced FileObj (Access.Round (Nat × UInt64) UInt64) := do
  Traced.touch .ptmpbuf (s.1 : Nat) 1
  match hexDigit (ptmpbuf s.1) with
  | some d => return .next (s.1 + 1, s.2 * 16 + d)
  | none => return .stop s.2

/-- `0x` in front. -/
def radixPrefix (i : Nat) : Bool := ptmpbuf i = 0x30 ∧ tolower (ptmpbuf (i + 1)) = 0x78

/-- `simple_strtoul(&ptmpbuf[i], &ptmp, 16)` of the kernel. -/
def simpleStrtoul (i : Nat) : Prog FileObj UInt64 := do
  Prog.touch .ptmpbuf i 1
  Prog.touchIf (ptmpbuf i = 0x30) .ptmpbuf (i + 1) 1
  Prog.loop (fun s => liftM (parseIntegerRound ptmpbuf s)) (if radixPrefix ptmpbuf i then i + 2 else i, 0)

/-- `i`, `j` and `buf` -/
structure FileCur where
  i : Nat
  j : Nat
  buf : Nat → UInt8

/-- The place of the two characters, behind a space. -/
def pairStart (i : Nat) : Nat := if ptmpbuf i = 0x20 ∧ isLineEnd (ptmpbuf (i + 1)) = false then i + 1 else i

/-- A round of the loop. Where the source takes one from `j` the step of the loop gives it back. -/
def fileRound (len : Nat) (c : FileCur) : Prog FileObj (Access.Round FileCur FileCur) :=
  if c.j < len then do
    Prog.touch .ptmpbuf c.i 1
    Prog.touchIf (ptmpbuf c.i = 0x20) .ptmpbuf (c.i + 1) 1
    let i := pairStart ptmpbuf c.i
    Prog.touch .ptmpbuf (i + 1) 1
    if isLineEnd (ptmpbuf (i + 1)) then return .next { c with i := i + 2 }
    else do
      let v ← simpleStrtoul ptmpbuf i
      Prog.touch .buf c.j 1
      return .next ⟨i + 2, c.j + 1, Function.update c.buf c.j v.toUInt8⟩
  else return .stop c

end

/-- What `rtw_retrieve_from_file` leaves in the buffer, which was zero, and behind it what is in memory there. -/
def ptmpbufOf (file : List UInt8) (behind : Nat → UInt8) : Nat → UInt8 := fun i =>
  if i < ptmpbufSize then file[i]?.getD 0 else behind i

/-- `rtw_efuse_file_read`; `none` is `_FALSE`. -/
def rtwEfuseFileRead (file : List UInt8) (behind : Nat → UInt8) (buf : Nat → UInt8) (len : Nat) :
    Prog FileObj (Option (Nat → UInt8)) :=
  if min file.length ptmpbufSize > 100 then do
    let c ← Prog.loop (fileRound (ptmpbufOf file behind) len) ⟨0, 0, buf⟩
    return some c.buf
  else return none

/-! ### The twos of a text -/

/-- The text behind `0x`. -/
def afterRadix : List UInt8 → List UInt8
  | a :: b :: l => if a = 0x30 ∧ tolower b = 0x78 then l else a :: b :: l
  | l => l

/-- The value of the digits, if they end in the text. -/
def hexValue (v : UInt64) : List UInt8 → Option UInt64
  | [] => none
  | c :: l =>
    match hexDigit c with
    | some d => hexValue (v * 16 + d) l
    | none => some v

/-- The byte that two characters and what is behind them give, in front of `rest`. -/
def twoThen (a b : UInt8) (l rest : List UInt8) : List UInt8 :=
  if isLineEnd b then rest
  else
    match hexValue 0 (afterRadix (a :: b :: l)) with
    | some v => v.toUInt8 :: rest
    | none => []

/-- The bytes that a text gives, read in twos. -/
def twos : List UInt8 → List UInt8
  | a :: b :: l =>
    if a = 0x20 ∧ isLineEnd b = false then
      match l with
      | c :: l => twoThen b c l (twos l)
      | [] => []
    else twoThen a b l (twos l)
  | _ => []

theorem twos_space {b x : UInt8} {l : List UInt8} (hb : isLineEnd b = false) :
    twos (0x20 :: b :: x :: l) = twoThen b x l (twos l) :=
  if_pos ⟨rfl, hb⟩

theorem twos_space_end {b : UInt8} (hb : isLineEnd b = false) : twos [0x20, b] = [] := if_pos ⟨rfl, hb⟩

theorem twos_two {a b : UInt8} {l : List UInt8} (h : ¬(a = 0x20 ∧ isLineEnd b = false)) :
    twos (a :: b :: l) = twoThen a b l (twos l) := by
  cases l with
  | nil => exact if_neg h
  | cons x l => exact if_neg h

/-- The buffer has `l` from `i` to its end. -/
def TextAt (ptmpbuf : Nat → UInt8) (i : Nat) (l : List UInt8) : Prop := At ptmpbuf i l ∧ i + l.length = ptmpbufSize

section
variable {ptmpbuf : Nat → UInt8} {len i : Nat} {l : List UInt8} {c : FileCur} {a b : UInt8} {v w : UInt64}

theorem TextAt.head (h : TextAt ptmpbuf i (a :: l)) : ptmpbuf i = a := h.1.1

theorem TextAt.tail (h : TextAt ptmpbuf i (a :: l)) : TextAt ptmpbuf (i + 1) l := by
  refine ⟨h.1.2, ?_⟩
  have hlen := h.2
  rw [List.length_cons] at hlen
  omega

theorem TextAt.lt (h : TextAt ptmpbuf i (a :: l)) : i < ptmpbufSize := by
  have hlen := h.2
  rw [List.length_cons] at hlen
  omega

theorem parseIntegerRound_next {d : UInt64} (hd : hexDigit (ptmpbuf i) = some d) :
    (parseIntegerRound ptmpbuf (i, v)).val = .next (i + 1, v * 16 + d) := by
  rw [parseIntegerRound, Traced.val_bind, hd]
  rfl

theorem parseIntegerRound_stop (hd : hexDigit (ptmpbuf i) = none) : (parseIntegerRound ptmpbuf (i, v)).val = .stop v := by
  rw [parseIntegerRound, Traced.val_bind, hd]
  rfl

theorem within_parseIntegerRound : Traced.Within (FileObj.size len) (parseIntegerRound ptmpbuf (i, v)) ↔ i < ptmpbufSize := by
  rw [parseIntegerRound, Traced.within_bind, Traced.within_touch_pos (by decide)]
  cases hexDigit (ptmpbuf i) with
  | none => exact and_iff_left Traced.within_pure
  | some d => exact and_iff_left Traced.within_pure

/-- `_parse_integer` stays in the buffer exactly if the digits end in it. -/
theorem safe_parseInteger (h : TextAt ptmpbuf i l) :
    (Prog.loop (fun s => (liftM (parseIntegerRound ptmpbuf s) : Prog FileObj _)) (i, v)).Safe (FileObj.size len) ↔
      (hexValue v l).isSome := by
  induction l generalizing i v with
  | nil =>
    rw [Prog.safe_loop_step, Prog.safe_lift, within_parseIntegerRound]
    have hend : i = ptmpbufSize := h.2
    exact iff_of_false (fun hs => absurd hs.1 (by omega)) (by simp [hexValue])
  | cons a l ih =>
    rw [Prog.safe_loop_step, Prog.safe_lift, within_parseIntegerRound, and_iff_right h.lt, hexValue, ← h.head]
    simp only [Prog.returns_lift]
    cases hd : hexDigit (ptmpbuf i) with
    | some d =>
      rw [parseIntegerRound_next hd]
      refine Iff.trans ?_ (ih h.tail)
      exact ⟨fun hs => hs _ rfl, by rintro hs _ ⟨⟩; exact hs⟩
    | none =>
      rw [parseIntegerRound_stop hd]
      exact iff_of_true (fun t ht => by cases ht) rfl

theorem returns_parseInteger (h : TextAt ptmpbuf i l) (hw : hexValue v l = some w) :
    (Prog.loop (fun s => (liftM (parseIntegerRound ptmpbuf s) : Prog FileObj _)) (i, v)).Returns w := by
  induction l generalizing i v with
  | nil => cases hw
  | cons a l ih =>
    rw [Prog.returns_loop_step]
    simp only [Prog.returns_lift]
    rw [hexValue, ← h.head] at hw
    cases hd : hexDigit (ptmpbuf i) with
    | some d =>
      rw [hd] at hw
      exact .inr ⟨_, (parseIntegerRound_next hd).symm, ih h.tail hw⟩
    | none =>
      rw [hd] at hw
      obtain rfl := Option.some.inj hw
      exact .inl (parseIntegerRound_stop hd).symm

theorem textAt_afterRadix (h : TextAt ptmpbuf i (a :: b :: l)) :
    TextAt ptmpbuf (if radixPrefix ptmpbuf i then i + 2 else i) (afterRadix (a :: b :: l)) := by
  have hb := h.tail.head
  by_cases hx : a = 0x30 ∧ tolower b = 0x78
  · have hr : radixPrefix ptmpbuf i = true := by simpa [radixPrefix, h.head, hb] using hx
    rw [if_pos hr, afterRadix, if_pos hx]
    exact h.tail.tail
  · have hr : ¬radixPrefix ptmpbuf i = true := by simpa [radixPrefix, h.head, hb] using hx
    rw [if_neg hr, afterRadix, if_neg hx]
    exact h

theorem safe_simpleStrtoul (h : TextAt ptmpbuf i (a :: b :: l)) :
    (simpleStrtoul ptmpbuf i).Safe (FileObj.size len) ↔ (hexValue 0 (afterRadix (a :: b :: l))).isSome := by
  have hi := h.lt
  have hi' := h.tail.lt
  rw [simpleStrtoul, Prog.safe_touch, Prog.safe_touchIf, safe_parseInteger (textAt_afterRadix h),
    and_iff_right (.inr hi), and_iff_right fun _ => .inr hi']

theorem returns_simpleStrtoul (h : TextAt ptmpbuf i (a :: b :: l)) (hw : hexValue 0 (afterRadix (a :: b :: l)) = some w) :
    (simpleStrtoul ptmpbuf i).Returns w := by
  rw [simpleStrtoul, Prog.returns_touch, Prog.returns_touchIf]
  exact returns_parseInteger (textAt_afterRadix h) hw

/-- What the loop does from a state on, if the twos from there give `p`. -/
structure LoopSpec (ptmpbuf : Nat → UInt8) (len : Nat) (c : FileCur) (p : List UInt8) : Prop where
  safe : (Prog.loop (fileRound ptmpbuf len) c).Safe (FileObj.size len) ↔ len - c.j ≤ p.length
  returns : len - c.j ≤ p.length → ∃ c', (Prog.loop (fileRound ptmpbuf len) c).Returns c' ∧
    read c'.buf 0 len = read c.buf 0 c.j ++ p.take (len - c.j)

theorem loopSpec_done {p : List UInt8} (hj : c.j = len) : LoopSpec ptmpbuf len c p := by
  have hround : fileRound ptmpbuf len c = pure (.stop c) := if_neg (by omega)
  constructor
  · rw [Prog.safe_loop_step, hround]
    simp [hj]
  · intro _
    refine ⟨c, Prog.returns_loop_step.2 (.inl ?_), ?_⟩
    · rw [hround, Prog.returns_pure]
    · simp [hj]

/-- A round that comes to `c'`. -/
theorem loopSpec_next {c' : FileCur} {p p' : List UInt8} (hs : (fileRound ptmpbuf len c).Safe (FileObj.size len))
    (hr : (fileRound ptmpbuf len c).Returns (.next c')) (h : LoopSpec ptmpbuf len c' p')
    (hlen : len - c.j ≤ p.length ↔ len - c'.j ≤ p'.length)
    (hread : read c'.buf 0 c'.j ++ p'.take (len - c'.j) = read c.buf 0 c.j ++ p.take (len - c.j)) :
    LoopSpec ptmpbuf len c p := by
  constructor
  · rw [Prog.safe_loop_step, and_iff_right hs, hlen, ← h.safe]
    constructor
    · exact fun hall => hall c' hr
    · intro hsafe t ht
      obtain ⟨⟩ := hr.unique ht
      exact hsafe
  · intro hle
    obtain ⟨c'', hc'', hbuf⟩ := h.returns (hlen.1 hle)
    exact ⟨c'', Prog.returns_loop_step.2 (.inr ⟨c', hr, hc''⟩), hbuf.trans hread⟩

theorem read_update_end {mem : Nat → UInt8} {n : Nat} {x : UInt8} :
    read (Function.update mem n x) 0 (n + 1) = read mem 0 n ++ [x] := by
  unfold Splice.read
  rw [List.range_succ, List.map_append, List.map_singleton, Nat.zero_add, Function.update_self]
  congr 1
  refine List.map_congr_left fun i hi => ?_
  rw [Function.update_of_ne]
  have := List.mem_range.1 hi
  omega

/-- One round, at the two characters `a` and `b`. -/
theorem loopSpec_two {rest : List UInt8} (hj : c.j < len) (h : TextAt ptmpbuf (pairStart ptmpbuf c.i) (a :: b :: l))
    (ih : ∀ c' : FileCur, c'.i = pairStart ptmpbuf c.i + 2 → c'.j ≤ len → LoopSpec ptmpbuf len c' rest) :
    LoopSpec ptmpbuf len c (twoThen a b l rest) := by
  have hle : c.i ≤ pairStart ptmpbuf c.i := by
    unfold pairStart
    split <;> omega
  have hin := h.tail.lt
  have hb := h.tail.head
  have htouch : ∀ {m : Prog FileObj (Access.Round FileCur FileCur)},
      (Prog.touch .ptmpbuf c.i 1 >>= fun _ => Prog.touchIf (ptmpbuf c.i = 0x20) .ptmpbuf (c.i + 1) 1 >>= fun _ =>
        Prog.touch .ptmpbuf (pairStart ptmpbuf c.i + 1) 1 >>= fun _ => m).Safe (FileObj.size len) ↔
          m.Safe (FileObj.size len) := by
    intro m
    have h1 : c.i + 1 ≤ FileObj.size len .ptmpbuf := by
      show c.i + 1 ≤ ptmpbufSize
      omega
    have h2 : c.i + 1 + 1 ≤ FileObj.size len .ptmpbuf := by
      show c.i + 1 + 1 ≤ ptmpbufSize
      omega
    rw [Prog.safe_touch, Prog.safe_touchIf, Prog.safe_touch, and_iff_right (.inr h1), and_iff_right fun _ => .inr h2,
      and_iff_right (.inr hin)]
  by_cases hend : isLineEnd b = true
  · rw [twoThen, if_pos hend]
    refine loopSpec_next ?_ ?_ (ih { c with i := pairStart ptmpbuf c.i + 2 } rfl (Nat.le_of_lt hj)) Iff.rfl rfl
    · rw [fileRound, if_pos hj, htouch, hb, if_pos hend]
      exact Prog.safe_pure
    · rw [fileRound, if_pos hj, Prog.returns_touch, Prog.returns_touchIf, Prog.returns_touch, hb, if_pos hend]
      exact Prog.returns_pure.2 rfl
  · rw [twoThen, if_neg hend]
    cases hw : hexValue 0 (afterRadix (a :: b :: l)) with
    | none =>
      refine ⟨iff_of_false (fun hs => ?_) (by simp only [List.length_nil]; omega), fun h => ?_⟩
      · have hs := (Prog.safe_loop_step.1 hs).1
        rw [fileRound, if_pos hj, htouch, hb, if_neg hend, Prog.safe_bind, safe_simpleStrtoul h, hw] at hs
        exact absurd hs.1 (by decide)
      · simp only [List.length_nil] at h
        omega
    | some w =>
      refine loopSpec_next ?_ ?_
        (ih ⟨pairStart ptmpbuf c.i + 2, c.j + 1, Function.update c.buf c.j w.toUInt8⟩ rfl hj) ?_ ?_
      · rw [fileRound, if_pos hj, htouch, hb, if_neg hend, Prog.safe_bind, safe_simpleStrtoul h, hw]
        refine ⟨rfl, fun v _ => ?_⟩
        rw [Prog.safe_touch]
        exact ⟨.inr hj, Prog.safe_pure⟩
      · rw [fileRound, if_pos hj, Prog.returns_touch, Prog.returns_touchIf, Prog.returns_touch, hb, if_neg hend,
          Prog.returns_bind]
        refine ⟨w, returns_simpleStrtoul h hw, ?_⟩
        rw [Prog.returns_touch]
        exact Prog.returns_pure.2 rfl
      · rw [List.length_cons]
        show len - c.j ≤ _ ↔ len - (c.j + 1) ≤ _
        omega
      · show read (Function.update c.buf c.j w.toUInt8) 0 (c.j + 1) ++ rest.take (len - (c.j + 1)) = _
        obtain ⟨n, hn⟩ : ∃ n, len - c.j = n + 1 := ⟨len - c.j - 1, by omega⟩
        rw [read_update_end, hn, List.take_succ_cons, List.append_assoc, show len - (c.j + 1) = n by omega]
        rfl

/-- Out of the buffer, or at its last byte. -/
theorem loopSpec_end (hj : c.j < len) (h : ptmpbufSize ≤ pairStart ptmpbuf c.i + 1) : LoopSpec ptmpbuf len c [] := by
  refine ⟨iff_of_false (fun hs => ?_) (by simp only [List.length_nil]; omega), fun h => ?_⟩
  · have hs := (Prog.safe_loop_step.1 hs).1
    rw [fileRound, if_pos hj, Prog.safe_touch, Prog.safe_touchIf, Prog.safe_touch] at hs
    have hin : pairStart ptmpbuf c.i + 1 + 1 ≤ ptmpbufSize := hs.2.2.1.resolve_left (by decide)
    omega
  · simp only [List.length_nil] at h
    omega

theorem pairStart_of_textAt (h : TextAt ptmpbuf i (a :: b :: l)) :
    pairStart ptmpbuf i = if a = 0x20 ∧ isLineEnd b = false then i + 1 else i := by
  rw [pairStart, h.head, h.tail.head]

/-- From a place in the buffer the loop stores what the twos there give, and needs no more than that. -/
theorem loopSpec_of_textAt (hj : c.j ≤ len) (h : TextAt ptmpbuf c.i l) : LoopSpec ptmpbuf len c (twos l) := by
  induction hn : l.length using Nat.strongRecOn generalizing c l with
  | ind n ih =>
    by_cases hdone : c.j = len
    · exact loopSpec_done hdone
    have hlt : c.j < len := by omega
    have hle : c.i ≤ pairStart ptmpbuf c.i := by
      unfold pairStart
      split <;> omega
    have hlen := h.2
    match l, hn, hlen, h with
    | [], _, hlen, _ =>
      rw [List.length_nil] at hlen
      exact loopSpec_end hlt (by omega)
    | [a], _, hlen, _ =>
      rw [List.length_singleton] at hlen
      exact loopSpec_end hlt (by omega)
    | a :: b :: l, hn, hlen, h =>
      have hstart := pairStart_of_textAt h
      simp only [List.length_cons] at hlen hn
      by_cases hsp : a = 0x20 ∧ isLineEnd b = false
      · rw [if_pos hsp] at hstart
        obtain ⟨rfl, hb⟩ := hsp
        cases l with
        | nil =>
          rw [twos_space_end hb]
          rw [List.length_nil] at hlen
          exact loopSpec_end hlt (by omega)
        | cons x l =>
          rw [List.length_cons] at hn
          rw [twos_space hb]
          refine loopSpec_two hlt (hstart ▸ h.tail) fun c' hi hj' => ?_
          refine ih l.length (by omega) hj' ?_ rfl
          rw [hi, hstart]
          exact h.tail.tail.tail
      · rw [if_neg hsp] at hstart
        rw [twos_two hsp]
        refine loopSpec_two hlt (hstart.symm ▸ h) fun c' hi hj' => ?_
        refine ih l.length (by omega) hj' ?_ rfl
        rw [hi, hstart]
        exact h.tail.tail

end

/-! ### Texts of bytes -/

/-- Two hexadecimal digits. -/
structure HexByte where
  hi : UInt8
  lo : UInt8
  hhi : (hexDigit hi).isSome
  hlo : (hexDigit lo).isSome

/-- What stands between two bytes. -/
inductive FileSep where
  | space
  | lf
  | crlf
  deriving DecidableEq

def FileSep.text : FileSep → List UInt8
  | space => [0x20]
  | lf => [0x0a]
  | crlf => [0x0d, 0x0a]

namespace HexByte
variable (t : HexByte)

def text : List UInt8 := [t.hi, t.lo]

/-- The value of the second digit. -/
def low : UInt8 := ((hexDigit t.lo).get t.hlo).toUInt8

def value : UInt8 := ((hexDigit t.hi).get t.hhi * 16 + (hexDigit t.lo).get t.hlo).toUInt8

end HexByte

def fileText (ts : List (HexByte × FileSep)) : List UInt8 := ts.flatMap fun t => t.1.text ++ t.2.text

/-- A file begins with these bytes, each with what is behind it, or ends with the last of them. -/
def Begins (file : List UInt8) (ts : List (HexByte × FileSep)) : Prop :=
  fileText ts <+: file ∨ ∃ l t s, ts = l ++ [(t, s)] ∧ file = fileText l ++ t.text

/-- What the twos of a text of bytes give; out of step, from the line feed in front on. -/
def given : Bool → List (HexByte × FileSep) → List UInt8
  | _, [] => []
  | true, (t, s) :: l => t.value :: given (s ≠ .lf) l
  | false, (_, .lf) :: l => 0 :: given true l
  | false, (t, .space) :: l => 0 :: t.low :: given true l
  | false, (t, .crlf) :: l => 0 :: t.low :: given false l

/-- Behind a line feed that is read with the first digit of the next byte that byte is 00, and if no line feed is behind
this one then so are all that follow. -/
def InStep : List (HexByte × FileSep) → Prop
  | [] => True
  | (_, .lf) :: (t, s) :: l => t.value = 0 ∧ if s = .lf then InStep l else ∀ x ∈ l, x.1.value = 0
  | _ :: l => InStep l

theorem hexDigit_facts : ∀ n : Fin 256, (hexDigit (UInt8.ofNat n.val)).all fun d =>
    d < 16 ∧ UInt8.ofNat n.val ≠ 0x20 ∧ ¬isLineEnd (UInt8.ofNat n.val) ∧ tolower (UInt8.ofNat n.val) ≠ 0x78 := by
  decide +kernel

section
variable {c : UInt8} {d : UInt64} {t : HexByte} {s : FileSep} {l : List (HexByte × FileSep)} {x r : List UInt8}

theorem facts_of_hexDigit (h : hexDigit c = some d) :
    d < 16 ∧ c ≠ 0x20 ∧ ¬isLineEnd c ∧ tolower c ≠ 0x78 := by
  have hc := hexDigit_facts ⟨c.toNat, c.toNat_lt⟩
  rw [UInt8.ofNat_toNat, h] at hc
  simpa using hc

theorem hexValue_digit {v : UInt64} {r : List UInt8} (h : hexDigit c = some d) :
    hexValue v (c :: r) = hexValue (v * 16 + d) r := by
  rw [hexValue, h]

theorem hexValue_end {v : UInt64} {r : List UInt8} (h : hexDigit c = none) : hexValue v (c :: r) = some v := by
  rw [hexValue, h]

theorem HexByte.digit_hi (t : HexByte) : hexDigit t.hi = some ((hexDigit t.hi).get t.hhi) := (Option.some_get t.hhi).symm

theorem HexByte.digit_lo (t : HexByte) : hexDigit t.lo = some ((hexDigit t.lo).get t.hlo) := (Option.some_get t.hlo).symm

theorem HexByte.facts_hi (t : HexByte) : t.hi ≠ 0x20 ∧ ¬isLineEnd t.hi ∧ tolower t.hi ≠ 0x78 :=
  (facts_of_hexDigit t.digit_hi).2

theorem HexByte.facts_lo (t : HexByte) : t.lo ≠ 0x20 ∧ ¬isLineEnd t.lo ∧ tolower t.lo ≠ 0x78 :=
  (facts_of_hexDigit t.digit_lo).2

theorem afterRadix_eq {a b : UInt8} {r : List UInt8} (h : ¬(a = 0x30 ∧ tolower b = 0x78)) :
    afterRadix (a :: b :: r) = a :: b :: r :=
  if_neg h

/-- Both digits of a byte. -/
theorem twos_byte {x : UInt8} {r : List UInt8} (hx : hexDigit x = none) :
    twos (t.hi :: t.lo :: x :: r) = t.value :: twos (x :: r) := by
  obtain ⟨hsp, -, -⟩ := t.facts_hi
  obtain ⟨-, hend, hlo⟩ := t.facts_lo
  rw [twos_two fun h => hsp h.1, twoThen, if_neg hend, afterRadix_eq fun h => hlo h.2, hexValue_digit t.digit_hi,
    hexValue_digit t.digit_lo, hexValue_end hx, UInt64.zero_mul, UInt64.zero_add]
  rfl

/-- A byte at the end of the buffer. -/
theorem twos_byte_end : twos [t.hi, t.lo] = [] := by
  obtain ⟨hsp, -, -⟩ := t.facts_hi
  obtain ⟨-, hend, hlo⟩ := t.facts_lo
  rw [twos_two fun h => hsp h.1, twoThen, if_neg hend, afterRadix_eq fun h => hlo h.2, hexValue_digit t.digit_hi,
    hexValue_digit t.digit_lo]
  rfl

/-- The second digit of a byte, with what is behind it. -/
theorem twos_low {x : UInt8} {r : List UInt8} (hx : hexDigit x = none) (hend : ¬isLineEnd x) (hx' : tolower x ≠ 0x78) :
    twos (t.lo :: x :: r) = t.low :: twos r := by
  obtain ⟨hsp, -, -⟩ := t.facts_lo
  rw [twos_two fun h => hsp h.1, twoThen, if_neg hend, afterRadix_eq fun h => hx' h.2, hexValue_digit t.digit_lo,
    hexValue_end hx, UInt64.zero_mul, UInt64.zero_add]
  rfl

/-- Two characters of which the second is a line end. -/
theorem twos_lineEnd {a b : UInt8} {r : List UInt8} (hend : isLineEnd b) : twos (a :: b :: r) = twos r := by
  have h : ¬(a = 0x20 ∧ isLineEnd b = false) := fun h => absurd (hend.symm.trans h.2) (by decide)
  rw [twos_two h, twoThen, if_pos hend]

/-- A line feed, with the first digit of a byte. -/
theorem twos_lf {r : List UInt8} : twos (0x0a :: t.hi :: r) = 0 :: twos r := by
  obtain ⟨-, hend, -⟩ := t.facts_hi
  rw [twos_two fun h => absurd h.1 (by decide), twoThen, if_neg hend, afterRadix_eq fun h => absurd h.1 (by decide)]
  rfl

theorem twos_space_byte {r : List UInt8} : twos (0x20 :: t.hi :: t.lo :: r) = twos (t.hi :: t.lo :: r) := by
  obtain ⟨hsp, hend, -⟩ := t.facts_hi
  rw [twos_space (eq_false_of_ne_true hend), twos_two fun h => hsp h.1]

/-- The lists agree as far as the first one goes, up to `k`. -/
def AgreeTo (k : Nat) (p q : List UInt8) : Prop := ∀ n ≤ k, n ≤ p.length → p.take n = q.take n

theorem AgreeTo.cons {k : Nat} {a : UInt8} {p q : List UInt8} (h : AgreeTo k p q) : AgreeTo (k + 1) (a :: p) (a :: q) := by
  intro n hn hp
  cases n with
  | zero => rfl
  | succ n =>
    rw [List.take_succ_cons, List.take_succ_cons, h n (by omega) (by simpa using hp)]

theorem AgreeTo.mono {k k' : Nat} {p q : List UInt8} (h : AgreeTo k p q) (hle : k' ≤ k) : AgreeTo k' p q :=
  fun n hn => h n (by omega)

theorem agreeTo_zero {p q : List UInt8} : AgreeTo 0 p q := by
  intro n hn _
  obtain rfl := Nat.le_zero.1 hn
  rfl

/-- In step a text is read from its first byte on, out of step from the line feed in front. -/
def stepText (inStep : Bool) (r : List UInt8) : List UInt8 := if inStep then r else 0x0a :: r

theorem twos_text {rest : List UInt8} (hrest : ∀ x ∈ rest.head?, hexDigit x = none) (inStep : Bool)
    (l : List (HexByte × FileSep)) :
    AgreeTo (l.length + 1) (twos (stepText inStep (fileText l ++ (t.text ++ rest)))) (given inStep (l ++ [(t, s)])) := by
  induction l generalizing inStep with
  | nil =>
    cases inStep with
    | true =>
      show AgreeTo 1 (twos (t.hi :: t.lo :: rest)) (t.value :: _)
      cases rest with
      | nil =>
        rw [twos_byte_end]
        exact fun n hn hp => by
          obtain rfl := Nat.le_zero.1 hp
          rfl
      | cons x rest =>
        rw [twos_byte (hrest x rfl)]
        exact agreeTo_zero.cons
    | false =>
      show AgreeTo 1 (twos (0x0a :: t.hi :: t.lo :: rest)) _
      rw [twos_lf]
      cases s <;> exact agreeTo_zero.cons
  | cons u l ih =>
    obtain ⟨u, s'⟩ := u
    -- the text behind the separator begins with a byte
    obtain ⟨v, r, hv⟩ : ∃ v r, fileText l ++ (t.text ++ rest) = HexByte.hi v :: v.lo :: r := by
      cases l with
      | nil => exact ⟨t, rest, rfl⟩
      | cons w l => exact ⟨w.1, w.2.text ++ fileText l ++ (t.text ++ rest), by simp [fileText, HexByte.text]⟩
    have hcons : fileText ((u, s') :: l) ++ (t.text ++ rest) =
        u.hi :: u.lo :: (s'.text ++ (fileText l ++ (t.text ++ rest))) := by
      simp [fileText, HexByte.text]
    rw [hcons]
    cases inStep with
    | true =>
      show AgreeTo _ (twos (u.hi :: u.lo :: (s'.text ++ _))) (u.value :: _)
      cases s' with
      | space =>
        have h := ih true
        rw [stepText, if_pos rfl, hv, ← twos_space_byte, ← hv] at h
        rw [FileSep.text, List.singleton_append, twos_byte (by decide)]
        exact h.cons
      | lf =>
        rw [FileSep.text, List.singleton_append, twos_byte (by decide)]
        exact (ih false).cons
      | crlf =>
        have h := ih true
        rw [FileSep.text, List.cons_append, twos_byte (by decide), List.singleton_append, twos_lineEnd (by decide)]
        exact h.cons
    | false =>
      show AgreeTo _ (twos (0x0a :: u.hi :: u.lo :: (s'.text ++ _))) _
      rw [twos_lf]
      cases s' with
      | space =>
        rw [FileSep.text, List.singleton_append, twos_low (by decide) (by decide) (by decide)]
        exact ((ih true).cons.mono (Nat.le_succ _)).cons
      | lf =>
        rw [FileSep.text, List.singleton_append, twos_lineEnd (by decide)]
        exact (ih true).cons
      | crlf =>
        rw [FileSep.text, List.cons_append, List.singleton_append, twos_low (by decide) (by decide) (by decide)]
        exact ((ih false).cons.mono (Nat.le_succ _)).cons

theorem HexByte.low_of_value (h : t.value = 0) : t.low = 0 := by
  obtain ⟨hhi, -⟩ := facts_of_hexDigit t.digit_hi
  obtain ⟨hlo, -⟩ := facts_of_hexDigit t.digit_lo
  have hv := congrArg UInt8.toNat h
  have hhi : ((hexDigit t.hi).get t.hhi).toNat < 16 := hhi
  have hlo : ((hexDigit t.lo).get t.hlo).toNat < 16 := hlo
  rw [HexByte.value, UInt64.toNat_toUInt8, UInt64.toNat_add, UInt64.toNat_mul] at hv
  have hv : ((((hexDigit t.hi).get t.hhi).toNat * 16 % 2 ^ 64 + ((hexDigit t.lo).get t.hlo).toNat) % 2 ^ 64) % 2 ^ 8 = 0 := hv
  have hzero : ((hexDigit t.lo).get t.hlo).toNat = 0 := by omega
  refine UInt8.toNat_inj.1 ?_
  rw [HexByte.low, UInt64.toNat_toUInt8, hzero]
  rfl

/-- A byte 00 gives zeros. -/
theorem given_zero (h : t.value = 0) (inStep : Bool) :
    ∃ k inStep', given inStep ((t, s) :: l) = List.replicate (k + 1) 0 ++ given inStep' l := by
  cases inStep with
  | true => exact ⟨0, decide (s ≠ .lf), by rw [given, h]; rfl⟩
  | false =>
    cases s with
    | space => exact ⟨1, true, by rw [given, HexByte.low_of_value h]; rfl⟩
    | lf => exact ⟨0, true, rfl⟩
    | crlf => exact ⟨1, false, by rw [given, HexByte.low_of_value h]; rfl⟩

/-- Behind one zero too many all that is right is zero. -/
theorem zeros_given_iff (k : Nat) (inStep : Bool) :
    (List.replicate (k + 1) 0 ++ given inStep l).take l.length = l.map (·.1.value) ↔ ∀ x ∈ l, x.1.value = 0 := by
  induction l generalizing k inStep with
  | nil => exact iff_of_true rfl fun x hx => by cases hx
  | cons x l ih =>
    obtain ⟨t, s⟩ := x
    rw [List.replicate_succ, List.cons_append, List.length_cons, List.take_succ_cons, List.map_cons, List.cons_eq_cons,
      List.forall_mem_cons, eq_comm]
    refine and_congr_right fun hzero => ?_
    obtain ⟨k', inStep', hgiven⟩ := given_zero (s := s) (l := l) hzero inStep
    rw [hgiven, ← List.append_assoc, List.replicate_append_replicate, ← Nat.add_assoc]
    exact ih (k + k') inStep'

theorem given_iff : (given true l).take l.length = l.map (·.1.value) ↔ InStep l := by
  induction l using InStep.induct with
  | case1 => exact iff_of_true rfl trivial
  | case2 t u s l ih =>
    -- the line feed gives 0 for the next byte
    have hlf : given true ((t, .lf) :: (u, s) :: l) = t.value :: given false ((u, s) :: l) := rfl
    have hhead : ∀ p, (0 :: p).take (l.length + 1) = u.value :: l.map (·.1.value) ↔
        u.value = 0 ∧ p.take l.length = l.map (·.1.value) := by
      intro p
      rw [List.take_succ_cons, List.cons_eq_cons, eq_comm]
    have hgiven : (given false ((u, s) :: l)).take (l.length + 1) = u.value :: l.map (·.1.value) ↔
        u.value = 0 ∧ if s = .lf then InStep l else ∀ x ∈ l, x.1.value = 0 := by
      cases s with
      | lf => exact (hhead _).trans (and_congr_right fun _ => ih)
      | space =>
        refine (hhead _).trans (and_congr_right fun hu => ?_)
        rw [HexByte.low_of_value hu]
        exact zeros_given_iff 0 true
      | crlf =>
        refine (hhead _).trans (and_congr_right fun hu => ?_)
        rw [HexByte.low_of_value hu]
        exact zeros_given_iff 0 false
    rw [hlf, List.length_cons, List.length_cons, List.take_succ_cons, List.map_cons, List.map_cons, List.cons_eq_cons,
      and_iff_right rfl, hgiven, InStep]
  | case3 x l hlf ih =>
    obtain ⟨t, s⟩ := x
    by_cases hs : s = .lf
    · subst hs
      cases l with
      | nil => exact iff_of_true rfl trivial
      | cons u l => exact absurd rfl (hlf t u.1 u.2 l rfl · )
    · have hstep : decide (s ≠ .lf) = true := decide_eq_true hs
      rw [given, hstep, List.length_cons, List.take_succ_cons, List.map_cons, List.cons_eq_cons, and_iff_right rfl, ih,
        InStep]
      exact hlf

end

/-! ### The function -/

structure EfuseFile where
  text : List UInt8
  small : text.length ≤ ptmpbufSize

namespace EfuseFile
variable (f : EfuseFile)

/-- The buffer with the file. -/
def buffer : List UInt8 := f.text ++ List.replicate (ptmpbufSize - f.text.length) 0

/-- The loop returns and stays inside its objects, and stores the bytes of a text that has enough of them. -/
def ReadOk (behind buf : Nat → UInt8) (len : Nat) : Prop :=
  (rtwEfuseFileRead f.text behind buf len).Safe (FileObj.size len) ∧
    ∃ r, (rtwEfuseFileRead f.text behind buf len).Returns r ∧
      ∀ out, r = some out → ∀ ts, ts.length = len → Begins f.text ts → read out 0 len = ts.map (·.1.value)

variable {f} {behind buf : Nat → UInt8} {len : Nat} {ts : List (HexByte × FileSep)}

theorem textAt_buffer : TextAt (ptmpbufOf f.text behind) 0 f.buffer := by
  have hlen : f.buffer.length = ptmpbufSize := by
    have := f.small
    simp only [buffer, List.length_append, List.length_replicate]
    omega
  refine ⟨at_iff.2 fun i hi => ?_, by rw [Nat.zero_add, hlen]⟩
  rw [hlen] at hi
  rw [Nat.zero_add, ptmpbufOf, if_pos hi]
  by_cases hfile : i < f.text.length
  · rw [List.getElem?_eq_getElem hfile, Option.getD_some]
    exact (List.getElem_append_left hfile).symm
  · rw [List.getElem?_eq_none (Nat.le_of_not_lt hfile), Option.getD_none]
    simp only [buffer, List.getElem_append_right (Nat.le_of_not_lt hfile), List.getElem_replicate]

theorem loopSpec : LoopSpec (ptmpbufOf f.text behind) len ⟨0, 0, buf⟩ (twos f.buffer) :=
  loopSpec_of_textAt (Nat.zero_le _) textAt_buffer

/-- The bytes of a text are those that the twos give, if nothing puts them out of step. -/
theorem twos_buffer (h : Begins f.text ts) (hlen : ts.length ≤ (twos f.buffer).length) :
    (twos f.buffer).take ts.length = (given true ts).take ts.length := by
  rcases List.eq_nil_or_concat ts with rfl | ⟨l, ⟨t, s⟩, rfl⟩
  · rfl
  rw [List.concat_eq_append] at h hlen ⊢
  obtain ⟨rest, hrest, hbuf⟩ : ∃ rest, (∀ x ∈ rest.head?, hexDigit x = none) ∧
      f.buffer = fileText l ++ (t.text ++ rest) := by
    rcases h with ⟨r, hr⟩ | ⟨l', t', s', hl', hr⟩
    · refine ⟨s.text ++ (r ++ List.replicate (ptmpbufSize - f.text.length) 0), ?_, ?_⟩
      · intro x hx
        cases s <;> cases hx <;> rfl
      · rw [buffer, ← hr]
        simp [fileText]
    · obtain ⟨rfl, hlast⟩ := List.append_inj' hl' rfl
      cases hlast
      refine ⟨List.replicate (ptmpbufSize - f.text.length) 0, ?_, ?_⟩
      · intro x hx
        rw [List.eq_of_mem_replicate (List.mem_of_mem_head? hx)]
        rfl
      · rw [buffer, hr, List.append_assoc]
  rw [hbuf] at hlen ⊢
  rw [List.length_append, List.length_singleton] at hlen ⊢
  exact twos_text hrest true l _ (Nat.le_refl _) hlen

/-- For any file, what is behind the buffer, and what `buf` was. -/
theorem readOk_iff (f : EfuseFile) (behind buf : Nat → UInt8) (len : Nat) :
    f.ReadOk behind buf len ↔ (100 < f.text.length →
      len ≤ (twos f.buffer).length ∧ ∀ ts, ts.length = len → Begins f.text ts → InStep ts) := by
  have hmin : min f.text.length ptmpbufSize = f.text.length := Nat.min_eq_left f.small
  unfold ReadOk rtwEfuseFileRead
  rw [hmin]
  by_cases hstatus : f.text.length > 100
  · rw [if_pos hstatus, imp_iff_right hstatus]
    have hspec : LoopSpec (ptmpbufOf f.text behind) len ⟨0, 0, buf⟩ (twos f.buffer) := loopSpec
    have hsafe : (do
        let c ← Prog.loop (fileRound (ptmpbufOf f.text behind) len) ⟨0, 0, buf⟩
        return some c.buf : Prog FileObj (Option (Nat → UInt8))).Safe (FileObj.size len) ↔
          len ≤ (twos f.buffer).length := by
      rw [Prog.safe_bind, hspec.safe]
      exact and_iff_left fun _ _ => Prog.safe_pure
    rw [hsafe]
    refine and_congr_right fun hle => ?_
    obtain ⟨c, hc, hread⟩ := hspec.returns hle
    have hstored : ∀ ts, ts.length = len → Begins f.text ts → (read c.buf 0 len = ts.map (·.1.value) ↔ InStep ts) := by
      rintro ts rfl hts
      rw [hread, ← given_iff, ← twos_buffer hts hle]
      rfl
    constructor
    · rintro ⟨r, hr, hout⟩ ts hlen hts
      obtain ⟨c', hc', hr⟩ := Prog.returns_bind.1 hr
      obtain rfl := hc'.unique hc
      exact (hstored ts hlen hts).1 (hout _ (Prog.returns_pure.1 hr) ts hlen hts)
    · intro hin
      refine ⟨some c.buf, Prog.returns_bind.2 ⟨c, hc, Prog.returns_pure.2 rfl⟩, ?_⟩
      rintro _ ⟨⟩ ts hlen hts
      exact (hstored ts hlen hts).2 (hin ts hlen hts)
  · rw [if_neg hstatus]
    refine iff_of_true ⟨Prog.safe_pure, none, Prog.returns_pure.2 rfl, fun out hout => ?_⟩ fun h => absurd h hstatus
    cases hout

/-- Lines of one byte. -/
def oneByteLines : EfuseFile where
  text := (List.replicate 40 [0x41, 0x42, 0x0a]).flatten
  small := by decide

theorem begins_oneByteLines : Begins oneByteLines.text (List.replicate 2 (⟨0x41, 0x42, rfl, rfl⟩, .lf)) :=
  .inl ⟨(List.replicate 38 [0x41, 0x42, 0x0a]).flatten, by decide +kernel⟩

/-- The second byte is stored as 00. -/
theorem not_readOk : ¬ ∀ (f : EfuseFile) (behind buf : Nat → UInt8) (len : Nat), f.ReadOk behind buf len := by
  intro h
  obtain ⟨-, r, hr, hout⟩ := h oneByteLines (fun _ => 0) (fun _ => 0) 2
  have hstatus : min oneByteLines.text.length ptmpbufSize > 100 := by decide +kernel
  rw [rtwEfuseFileRead, if_pos hstatus] at hr
  obtain ⟨c', hc', hr⟩ := Prog.returns_bind.1 hr
  have htwos : (twos oneByteLines.buffer).take 2 = [0xab, 0] := by decide +kernel
  have hle : 2 ≤ (twos oneByteLines.buffer).length := by
    have := congrArg List.length htwos
    rw [List.length_take] at this
    have htwo : [(0xab : UInt8), 0].length = 2 := rfl
    omega
  obtain ⟨c, hc, hread⟩ := loopSpec.returns hle
  obtain rfl := hc'.unique hc
  have heq := hout _ (Prog.returns_pure.1 hr) _ rfl begins_oneByteLines
  rw [hread] at heq
  exact absurd (htwos.symm.trans heq) (by decide)

end EfuseFile

end Rtw.Efuse
