import Mathlib.Algebra.Group.Nat.Defs
import Rtw.Lib.Chunks

/-!
# Michael

The message integrity code of TKIP, as `rtw_secmicappend` and `rtw_secgetmic` compute it: byte by byte, with a word
that is not complete kept in between. `rtwSecgetmic_append`: it is the code of the padded message taken as words.
-/

namespace Rtw
open Chunks

/-- `struct mic_data` -/
@[ext]
structure MicData where
  K0 : UInt32
  K1 : UInt32
  L : UInt32
  R : UInt32
  M : UInt32
  nBytesInM : Nat
  deriving DecidableEq

/-- Bytes as a word, the first one lowest. -/
def micWord (p : List UInt8) : UInt32 :=
  p.zipIdx.foldl (fun res b => res ||| b.1.toUInt32 <<< UInt32.ofNat (8 * b.2)) 0

def secmicgetuint32 (p : List UInt8) : UInt32 := micWord (p.take 4)

def secmicputuint32 (val : UInt32) : List UInt8 :=
  [val.toUInt8, (val >>> 8).toUInt8, (val >>> 16).toUInt8, (val >>> 24).toUInt8]

def rol32 (a n : UInt32) : UInt32 := a <<< n ||| (a >>> (32 - n) &&& ((1 <<< n) - 1))

def ror32 (a n : UInt32) : UInt32 := rol32 a (32 - n)

def secmicclear (m : MicData) : MicData := { m with L := m.K0, R := m.K1, nBytesInM := 0, M := 0 }

def rtwSecmicsetkey (key : List UInt8) : MicData :=
  secmicclear
    { K0 := secmicgetuint32 key, K1 := secmicgetuint32 (key.drop 4), L := 0, R := 0, M := 0, nBytesInM := 0 }

/-- What a full word does to `L` and `R`. -/
def micBlock (s : UInt32 × UInt32) (word : UInt32) : UInt32 × UInt32 :=
  let L := s.1 ^^^ word
  let R := s.2 ^^^ rol32 L 17
  let L := L + R
  let R := R ^^^ (((L &&& 0xff00ff00) >>> 8) ||| ((L &&& 0x00ff00ff) <<< 8))
  let L := L + R
  let R := R ^^^ rol32 L 3
  let L := L + R
  let R := R ^^^ ror32 L 2
  let L := L + R
  (L, R)

def rtwSecmicappendbyte (m : MicData) (b : UInt8) : MicData :=
  let M := m.M ||| b.toUInt32 <<< UInt32.ofNat (8 * m.nBytesInM)
  let nBytesInM := m.nBytesInM + 1
  if nBytesInM ≥ 4 then
    let (L, R) := micBlock (m.L, m.R) M
    { m with L, R, M := 0, nBytesInM := 0 }
  else { m with M, nBytesInM }

def rtwSecmicappend (m : MicData) (src : List UInt8) : MicData := src.foldl rtwSecmicappendbyte m

/-- The loop of `rtw_secgetmic`: zeroes until the word is full. -/
def secmicpad : Nat → MicData → MicData
  | 0, m => m
  | fuel + 1, m => if m.nBytesInM ≠ 0 then secmicpad fuel (rtwSecmicappendbyte m 0) else m

/-- `rtw_secgetmic`: the code, and the state for the next message. -/
def rtwSecgetmic (m : MicData) : List UInt8 × MicData :=
  let m := rtwSecmicappend m [0x5a, 0, 0, 0, 0]
  let m := secmicpad 4 m
  (secmicputuint32 m.L ++ secmicputuint32 m.R, secmicclear m)

/-! ### The code of a whole message -/

/-- The words of a message whose length is a multiple of 4. -/
def micWords : List UInt8 → List (List UInt8)
  | a :: b :: c :: d :: l => [a, b, c, d] :: micWords l
  | _ => []

/-- The padding: one byte, and zeroes, at least four, until the length is a multiple of 4. -/
def micPadded (msg : List UInt8) : List UInt8 := msg ++ 0x5a :: List.replicate (4 + (3 - msg.length % 4)) 0

/-- The code of a message under a key, in one go. -/
def michael (key msg : List UInt8) : List UInt8 :=
  let s := (micWords (micPadded msg)).foldl (fun s c => micBlock s (micWord c))
    (secmicgetuint32 key, secmicgetuint32 (key.drop 4))
  secmicputuint32 s.1 ++ secmicputuint32 s.2

/-- The bytes that are not yet a word, beside `L` and `R`. -/
structure MicRep (m : MicData) (s : (UInt32 × UInt32) × List UInt8) : Prop where
  left : m.L = s.1.1
  right : m.R = s.1.2
  word : m.M = micWord s.2
  count : m.nBytesInM = s.2.length
  lt : s.2.length < 4

section
variable {m : MicData} {s : (UInt32 × UInt32) × List UInt8} {key msg src : List UInt8} {b : UInt8}

theorem micWord_concat (p : List UInt8) (b : UInt8) :
    micWord (p ++ [b]) = micWord p ||| b.toUInt32 <<< UInt32.ofNat (8 * p.length) := by
  unfold micWord
  rw [List.zipIdx_append, List.foldl_append, Nat.zero_add]
  rfl

theorem MicRep.appendbyte (h : MicRep m s) (b : UInt8) :
    MicRep (rtwSecmicappendbyte m b) (push 4 (fun s c => micBlock s (micWord c)) s b) := by
  have hlt := h.lt
  unfold rtwSecmicappendbyte push
  dsimp only
  rw [h.word, h.count, ← micWord_concat, h.left, h.right]
  by_cases hfull : s.2.length + 1 < 4
  · rw [if_neg (by omega), if_pos hfull]
    refine ⟨rfl, rfl, rfl, ?_, ?_⟩
    · rw [List.length_append, List.length_singleton]
    · rw [List.length_append, List.length_singleton]
      exact hfull
  · rw [if_pos (by omega), if_neg hfull]
    exact ⟨rfl, rfl, rfl, rfl, Nat.succ_pos 3⟩

theorem MicRep.append (h : MicRep m s) (src : List UInt8) :
    MicRep (rtwSecmicappend m src) (src.foldl (push 4 (fun s c => micBlock s (micWord c))) s) := by
  induction src generalizing m s with
  | nil => exact h
  | cons b src ih => exact ih (h.appendbyte b)

theorem micRep_setkey (key : List UInt8) :
    MicRep (rtwSecmicsetkey key) ((secmicgetuint32 key, secmicgetuint32 (key.drop 4)), []) :=
  ⟨rfl, rfl, rfl, rfl, Nat.succ_pos 3⟩

theorem nBytesInM_appendbyte (m : MicData) (b : UInt8) :
    (rtwSecmicappendbyte m b).nBytesInM = if m.nBytesInM + 1 ≥ 4 then 0 else m.nBytesInM + 1 := by
  unfold rtwSecmicappendbyte
  dsimp only
  split <;> rfl

theorem secmicpad_of_zero (fuel : Nat) (h : m.nBytesInM = 0) : secmicpad fuel m = m := by
  cases fuel with
  | zero => rfl
  | succ fuel => exact if_neg (not_not.2 h)

/-- The loop adds what is missing to a full word. -/
theorem secmicpad_eq (n fuel : Nat) (h : m.nBytesInM + (n + 1) = 4) (hpos : 0 < m.nBytesInM) (hfuel : n < fuel) :
    secmicpad fuel m = rtwSecmicappend m (List.replicate (n + 1) 0) := by
  obtain ⟨fuel, rfl⟩ := Nat.exists_eq_succ_of_ne_zero (Nat.ne_zero_of_lt hfuel)
  induction n generalizing m fuel with
  | zero =>
    rw [secmicpad, if_pos (by omega), secmicpad_of_zero fuel (by rw [nBytesInM_appendbyte, if_pos (by omega)])]
    rfl
  | succ n ih =>
    have hcount : (rtwSecmicappendbyte m 0).nBytesInM = m.nBytesInM + 1 := by
      rw [nBytesInM_appendbyte, if_neg (by omega)]
    obtain ⟨fuel, rfl⟩ := Nat.exists_eq_succ_of_ne_zero (show fuel ≠ 0 by omega)
    rw [secmicpad, if_pos (by omega), ih (by omega) (by omega) fuel (by omega)]
    rfl

theorem rtwSecmicappend_append (m : MicData) (src src' : List UInt8) :
    rtwSecmicappend m (src ++ src') = rtwSecmicappend (rtwSecmicappend m src) src' := List.foldl_append

theorem foldl_rtwSecmicappend (m : MicData) (pieces : List (List UInt8)) :
    pieces.foldl rtwSecmicappend m = rtwSecmicappend m pieces.flatten := List.foldl_flatten.symm

theorem micWords_spec (l : List UInt8) (h : l.length % 4 = 0) :
    (micWords l).flatten = l ∧ ∀ c ∈ micWords l, c.length = 4 := by
  induction l using micWords.induct with
  | case1 a b c d l ih =>
    have hlen : (a :: b :: c :: d :: l).length = l.length + 4 := rfl
    obtain ⟨hflat, hlen⟩ := ih (by omega)
    rw [micWords]
    refine ⟨?_, List.forall_mem_cons.2 ⟨rfl, hlen⟩⟩
    rw [List.flatten_cons, hflat]
    rfl
  | case2 l hno =>
    have hnil : l = [] := by
      match l, h, hno with
      | [], _, _ => rfl
      | [_], h, _ => exact absurd h (by simp)
      | [_, _], h, _ => exact absurd h (by simp)
      | [_, _, _], h, _ => exact absurd h (by simp)
      | a :: b :: c :: d :: l, _, hno => exact absurd rfl (hno a b c d l)
    subst hnil
    exact ⟨rfl, fun c hc => absurd hc List.not_mem_nil⟩

end

/-- The loop of `rtw_secgetmic` pads the message, whatever its length. -/
theorem secmicpad_padded (key msg : List UInt8) :
    secmicpad 4 (rtwSecmicappend (rtwSecmicappend (rtwSecmicsetkey key) msg) [0x5a, 0, 0, 0, 0]) =
      rtwSecmicappend (rtwSecmicsetkey key) (micPadded msg) := by
  have hpad : micPadded msg = msg ++ [0x5a, 0, 0, 0, 0] ++ List.replicate (3 - msg.length % 4) 0 := by
    rw [micPadded, List.replicate_add, List.append_assoc]
    rfl
  have hrep := (micRep_setkey key).append (msg ++ [0x5a, 0, 0, 0, 0])
  have hcount := hrep.count
  rw [length_foldl_push _ _ (Nat.succ_pos 3), List.length_append] at hcount
  have hlen : ([] : List UInt8).length + (msg.length + [0x5a, 0, 0, 0, (0 : UInt8)].length) = msg.length + 5 :=
    Nat.zero_add _
  rw [hlen] at hcount
  rw [hpad, rtwSecmicappend_append, ← rtwSecmicappend_append]
  by_cases hfull : (msg.length + 5) % 4 = 0
  · have hnone : 3 - msg.length % 4 = 0 := by omega
    rw [secmicpad_of_zero 4 (hcount.trans hfull), hnone]
    rfl
  · obtain ⟨n, hn⟩ : ∃ n, 3 - msg.length % 4 = n + 1 := Nat.exists_eq_add_one_of_ne_zero (by omega)
    rw [hn]
    exact secmicpad_eq n 4 (by omega) (by omega) (by omega)

/-- What is appended in pieces is the message that they make up, and its code is the one that Michael gives it. -/
theorem rtwSecgetmic_append (key : List UInt8) (pieces : List (List UInt8)) :
    (rtwSecgetmic (pieces.foldl rtwSecmicappend (rtwSecmicsetkey key))).1 = michael key pieces.flatten := by
  rw [foldl_rtwSecmicappend]
  unfold rtwSecgetmic
  dsimp only
  rw [secmicpad_padded]
  have hlen : (micPadded pieces.flatten).length % 4 = 0 := by
    rw [micPadded, List.length_append, List.length_cons, List.length_replicate]
    omega
  obtain ⟨hflat, hwords⟩ := micWords_spec _ hlen
  have hrep := (micRep_setkey key).append (micPadded pieces.flatten)
  have hfold : ((micWords (micPadded pieces.flatten)).flatten ++ []).foldl (push 4 fun s c => micBlock s (micWord c))
      ((secmicgetuint32 key, secmicgetuint32 (key.drop 4)), []) = _ :=
    foldl_push (Nat.succ_pos 3) hwords (Nat.succ_pos 3)
  rw [List.append_nil, hflat] at hfold
  rw [hfold] at hrep
  rw [hrep.left, hrep.right]
  rfl

end Rtw
