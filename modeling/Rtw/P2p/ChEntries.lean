import Mathlib.Algebra.Group.Nat.Defs
import Mathlib.Data.Fintype.Card
import Mathlib.Logic.Function.Basic
import Rtw.Lib.Loop
import Rtw.Lib.Splice
import Rtw.Mlme.IeItems

/-!
# Channel list attributes

The body of a channel list is a country string and entries of a class, a count and channels. Two walks go over it with
a length that they count down and that wraps: `rtw_p2p_get_peer_ch_list` with 8 bits, `dump_p2p_attr_ch_list` with 32.
Both are an `EntryWalk`, which stays inside the body exactly if the entries end where the body does.
-/

namespace Rtw
open Access Traced Tlv Splice

/-- What the walks read and write. -/
inductive ChListObj where
  | chContent
  | peerChList
  | chList
  | buf

/-- `n` is the length of the body; the arrays are those of the callers. -/
def ChListObj.size (n : Nat) (bufLen : UInt32) : ChListObj → Nat
  | chContent => n
  | peerChList => 100
  | chList => 40
  | buf => bufLen.toNat

/-- An array that is filled from the start, with a count of 8 bits. -/
structure ChArray where
  cnt : UInt8
  arr : Nat → UInt8

namespace ChArray

def put (a : ChArray) (ch : UInt8) : ChArray := ⟨a.cnt + 1, Function.update a.arr a.cnt.toNat ch⟩

def list (a : ChArray) : List UInt8 := read a.arr 0 a.cnt.toNat

end ChArray

/-- `ch_content`, `ch_cnt`, `ch_no`, and `peer_ch_list` with `j`. -/
structure PeerChCur where
  pos : Nat
  cnt : UInt8
  chNo : UInt8
  peerChList : ChArray

/-- `pattr_temp`, `attr_contentlen`, and `ch_list` with `ch_cnt`. -/
structure DumpChCur where
  pos : Nat
  len : UInt32
  chList : ChArray

/-- `w_sz` and `buf`. -/
structure ChText where
  wSz : Nat
  buf : Nat → Char

section
variable (chContent : Nat → UInt8)

/-- A channel is copied to `peer_ch_list`. -/
def peerChT (pos : Nat) (a : ChArray) (i : Nat) : Traced ChListObj ChArray := do
  touch .chContent (pos + 2 + i : Nat) 1
  touch .peerChList a.cnt.toNat 1
  return a.put (chContent (pos + 2 + i))

/-- A round of `rtw_p2p_get_peer_ch_list`. -/
def peerChRound (c : PeerChCur) : Traced ChListObj (Round PeerChCur PeerChCur) :=
  if c.cnt > 0 then do
    touch .chContent (c.pos + 1 : Nat) 1
    let temp := chContent (c.pos + 1)
    let peerChList ← (List.range temp.toNat).foldlM (peerChT chContent c.pos) c.peerChList
    return .next ⟨c.pos + (2 + temp.toNat), c.cnt - 1 - (temp + 1), c.chNo + temp, peerChList⟩
  else return .stop c

/-- `rtw_p2p_get_peer_ch_list`: the count and the list, if it returns. -/
def rtwP2pGetPeerChListT (chCnt : UInt8) (peerChList : Nat → UInt8) (fuel : Nat) :
    Traced ChListObj (Option (UInt8 × (Nat → UInt8))) := do
  let r ← loopT (peerChRound chContent) fuel ⟨3, chCnt - 3, 0, ⟨0, peerChList⟩⟩
  return r.map fun c => (c.chNo, c.peerChList.arr)

/-- A channel is looked for in `ch_list` and appended if it is new. -/
def dumpChT (pos : Nat) (a : ChArray) (i : Nat) : Traced ChListObj ChArray := do
  let ch := chContent (pos + 2 + i)
  touch .chContent (pos + 2 + i : Nat) 1
  touch .chList 0 (min (a.list.idxOf ch + 1) a.cnt.toNat)
  if ch ∈ a.list then return a
  else do
    touch .chList a.cnt.toNat 1
    return a.put ch

/-- A round of the first loop of `dump_p2p_attr_ch_list`. -/
def dumpChRound (c : DumpChCur) : Traced ChListObj (Round DumpChCur DumpChCur) :=
  if c.len > 0 then do
    touch .chContent (c.pos + 1 : Nat) 1
    let numOfCh := (chContent (c.pos + 1)).toUInt32
    let chList ← (List.range numOfCh.toNat).foldlM (dumpChT chContent c.pos) c.chList
    return .next ⟨c.pos + (2 + numOfCh.toNat), c.len - (2 + numOfCh), chList⟩
  else return .stop c

end

/-- `snprintf` at `buf + w_sz`. The kernel's refuses a size that is negative as an `int`, with a warning. -/
def snprintfT (bufLen : UInt32) (t : ChText) (text : List Char) : Traced ChListObj ChText := do
  let size := (bufLen - UInt32.ofNat t.wSz).toNat
  if size ≥ 2 ^ 31 then return t
  else do
    let written := if size = 0 then [] else text.take (size - 1) ++ [Char.ofNat 0]
    touch .buf t.wSz written.length
    return ⟨t.wSz + text.length, copy t.wSz written t.buf⟩

/-- What is printed for entry `j`: a channel that goes on from the one before it stands only at the end of a row. -/
def chText? (a : ChArray) (j : Nat) : Option (List Char) :=
  let digits := (toString (a.arr j).toNat).toList
  if j = 0 then some digits
  else if ((a.arr j).toNat - (a.arr (j - 1)).toNat : Int) ≠ 1 then some (',' :: ' ' :: digits)
  else if j ≠ a.cnt.toNat - 1 ∧ ((a.arr (j + 1)).toNat - (a.arr j).toNat : Int) = 1 then none
  else some ('-' :: digits)

/-- A round of the second loop. -/
def printChRound (bufLen : UInt32) (a : ChArray) (s : Nat × ChText) : Traced ChListObj (Round (Nat × ChText) ChText) :=
  if s.1 < a.cnt.toNat then do
    touch .chList s.1 1
    touchIf (s.1 ≠ 0) .chList (s.1 - 1 : Nat) 1
    touchIf (s.1 ≠ 0 ∧ ((a.arr s.1).toNat - (a.arr (s.1 - 1)).toNat : Int) = 1 ∧ s.1 ≠ a.cnt.toNat - 1) .chList
      (s.1 + 1 : Nat) 1
    match chText? a s.1 with
    | none => return .next (s.1 + 1, s.2)
    | some text => do
      let t ← snprintfT bufLen s.2 text
      return .next (s.1 + 1, t)
  else return .stop s.2

/-- `dump_p2p_attr_ch_list`, each loop for `fuel` rounds: `buf`, if it returns. `pattr` is what
`rtw_get_p2p_attr_content` finds. -/
def dumpP2pAttrChListT (pattr : Option (Nat → UInt8)) (attrContentlen bufLen : UInt32) (buf : Nat → Char) (fuel : Nat) :
    Traced ChListObj (Option (Nat → Char)) :=
  match pattr with
  | none => return some buf
  | some pattr => do
    match ← loopT (dumpChRound pattr) fuel ⟨3, attrContentlen - 3, ⟨0, fun _ => 0⟩⟩ with
    | none => return none
    | some c => do
      let r ← loopT (printChRound bufLen c.chList) fuel (0, ⟨0, buf⟩)
      return r.map ChText.buf

/-- An entry of a channel list has an octet each for its class and for its count, as an element for id and length. -/
abbrev ChEntry := Item ieFormat

/-- The channels of some entries. -/
def chans (l : List ChEntry) : List UInt8 := l.flatMap Item.data

/-- The first `n` bytes are a country string and entries, with these channels. -/
def ChBody (chContent : Nat → UInt8) (n : Nat) (chs : List UInt8) : Prop :=
  ∃ (country : List UInt8) (l : List ChEntry), country.length = 3 ∧ read chContent 0 n = country ++ bytes l ∧ chs = chans l

/-- The entry at `pos`. -/
def entryAt (mem : Nat → UInt8) (pos : Nat) : ChEntry where
  tag := mem pos
  data := read mem (pos + 2) (mem (pos + 1)).toNat
  fits := by
    rw [length_read]
    exact (mem (pos + 1)).toNat_lt

section
variable {mem : Nat → UInt8} {pos n : Nat} {e : ChEntry} {l : List ChEntry}

@[simp] theorem length_entryAt : (entryAt mem pos).data.length = (mem (pos + 1)).toNat := length_read

theorem read_entryAt : read mem pos (2 + (mem (pos + 1)).toNat) = (entryAt mem pos).bytes := by
  rw [read_add, ie_bytes, length_entryAt, UInt8.ofNat_toNat]
  rfl

/-- Entries that are there begin with the one that is read. -/
theorem entryAt_of_read (h : read mem pos n = bytes (e :: l)) : e = entryAt mem pos ∧
    2 + (mem (pos + 1)).toNat ≤ n ∧ read mem (pos + (2 + (mem (pos + 1)).toNat)) (n - (2 + (mem (pos + 1)).toNat)) =
      bytes l := by
  have hlen : n = 2 + e.data.length + (bytes l).length := by
    have hread : (read mem pos n).length = n := length_read
    rw [← hread, h, length_bytes_cons]
    rfl
  have hcount : mem (pos + 1) = UInt8.ofNat e.data.length := by
    have hone : 1 < (read mem pos n).length := by
      rw [length_read]
      omega
    rw [← getElem_read hone]
    simp only [h, bytes_cons, ie_bytes]
    rfl
  have hdata : (mem (pos + 1)).toNat = e.data.length := by
    rw [hcount, UInt8.toNat_ofNat']
    exact Nat.mod_eq_of_lt e.fits
  obtain ⟨m, rfl⟩ := Nat.exists_eq_add_of_le (show 2 + (mem (pos + 1)).toNat ≤ n by omega)
  rw [read_add, read_entryAt, bytes_cons] at h
  obtain ⟨rfl, hl⟩ := Item.bytes_append_inj h
  exact ⟨rfl, Nat.le_add_right _ m, by rw [Nat.add_sub_cancel_left]; exact hl⟩

theorem exists_entryAt (h : read mem pos n = bytes l) (hne : n ≠ 0) : ∃ l', l = entryAt mem pos :: l' ∧
    2 + (mem (pos + 1)).toNat ≤ n ∧ read mem (pos + (2 + (mem (pos + 1)).toNat)) (n - (2 + (mem (pos + 1)).toNat)) =
      bytes l' := by
  cases l with
  | nil =>
    have hlen := congrArg List.length h
    rw [length_read] at hlen
    exact absurd hlen hne
  | cons e l' =>
    obtain ⟨rfl, hrest⟩ := entryAt_of_read h
    exact ⟨l', rfl, hrest⟩

end

/-! ### Walks over entries -/

section
variable {O σ ρ : Type} {size : O → Nat} {round : σ → Traced O (Round σ ρ)} {mem : Nat → UInt8} {n : Nat}
variable {pos left : σ → Nat} {s t : σ}

/-- A loop that goes over entries: where it is, what it takes to be left, and what its rounds do. -/
structure EntryWalk (size : O → Nat) (round : σ → Traced O (Round σ ρ)) (mem : Nat → UInt8) (n : Nat)
    (pos left : σ → Nat) : Prop where
  stop : ∀ t, left t = 0 → ∃ r, (round t).val = .stop r
  next : ∀ t, left t ≠ 0 → ∃ u, (round t).val = .next u ∧ pos u = pos t + (2 + (mem (pos t + 1)).toNat) ∧
    (2 + (mem (pos t + 1)).toNat ≤ left t → left u = left t - (2 + (mem (pos t + 1)).toNat))
  inside : ∀ t, left t ≠ 0 → Within size (round t) → pos t + (2 + (mem (pos t + 1)).toNat) ≤ n

namespace EntryWalk

/-- A walk that stays inside goes over entries to the end. -/
theorem exists_entries (hw : EntryWalk size round mem n pos left) (hpos : pos s + left s = n)
    (hin : ∀ t, Reaches round s t → Within size (round t)) : ∃ l : List ChEntry, read mem (pos s) (left s) = bytes l := by
  induction hleft : left s using Nat.strongRecOn generalizing s with
  | ind k ih =>
    subst hleft
    by_cases hzero : left s = 0
    · exact ⟨[], by rw [hzero]; rfl⟩
    · obtain ⟨u, hu, hposu, hleftu⟩ := hw.next s hzero
      have hstep := hw.inside s hzero (hin s .start)
      have hle : 2 + (mem (pos s + 1)).toNat ≤ left s := by omega
      have hleftu := hleftu hle
      obtain ⟨l, hl⟩ := ih (left u) (by omega) (by omega) (fun t ht => hin t (.head hu ht)) rfl
      refine ⟨entryAt mem (pos s) :: l, ?_⟩
      rw [bytes_cons, ← read_entryAt, ← hl, hposu, hleftu, ← read_add, Nat.add_sub_cancel' hle]

/-- A walk that stays inside does not take more to be left than there is. -/
theorem add_le (hw : EntryWalk size round mem n pos left) (hne : left s ≠ 0)
    (hin : ∀ t, Reaches round s t → Within size (round t)) : pos s + left s ≤ n := by
  by_contra hlt
  induction hleft : left s using Nat.strongRecOn generalizing s with
  | ind k ih =>
    subst hleft
    obtain ⟨u, hu, hposu, hleftu⟩ := hw.next s hne
    have hstep := hw.inside s hne (hin s .start)
    have hleftu := hleftu (by omega)
    exact ih (left u) (by omega) (by omega) (fun t ht => hin t (.head hu ht)) (by omega) rfl

/-- On entries, a round takes one of them. -/
theorem step {l : List ChEntry} {u : σ} (hw : EntryWalk size round mem n pos left) (hpos : pos t + left t = n)
    (hl : read mem (pos t) (left t) = bytes l) (hu : (round t).val = .next u) :
    ∃ l', l = entryAt mem (pos t) :: l' ∧ left t ≠ 0 ∧ left u < left t ∧ pos u + left u = n ∧
      read mem (pos u) (left u) = bytes l' := by
  have hne : left t ≠ 0 := by
    intro hzero
    obtain ⟨r, hr⟩ := hw.stop t hzero
    rw [hr] at hu
    cases hu
  obtain ⟨u', hu', hposu, hleftu⟩ := hw.next t hne
  rw [hu'] at hu
  cases hu
  obtain ⟨l', rfl, hle, hrest⟩ := exists_entryAt hl hne
  have hleftu := hleftu hle
  refine ⟨l', rfl, hne, by omega, by omega, ?_⟩
  rw [hposu, hleftu]
  exact hrest

section
variable {I : List ChEntry → σ → Prop} {l : List ChEntry}

/-- What each entry preserves holds of the entries that have been taken. -/
theorem invariant (hw : EntryWalk size round mem n pos left) (hpos : pos s + left s = n)
    (hl : read mem (pos s) (left s) = bytes l) (hs : I [] s)
    (hI : ∀ l₁ t u, I l₁ t → left t ≠ 0 → (round t).val = .next u → l₁ ++ [entryAt mem (pos t)] <+: l →
      I (l₁ ++ [entryAt mem (pos t)]) u) (ht : Reaches round s t) :
    ∃ l₁ l₂, l = l₁ ++ l₂ ∧ pos t + left t = n ∧ read mem (pos t) (left t) = bytes l₂ ∧ I l₁ t := by
  refine ht.invariant (I := fun t => ∃ l₁ l₂, l = l₁ ++ l₂ ∧ pos t + left t = n ∧
    read mem (pos t) (left t) = bytes l₂ ∧ I l₁ t) ⟨[], l, rfl, hpos, hl, hs⟩ ?_
  rintro t u ⟨l₁, l₂, rfl, hpost, hread, hIt⟩ hu
  obtain ⟨l', rfl, hne, -, hposu, hreadu⟩ := hw.step hpost hread hu
  refine ⟨l₁ ++ [entryAt mem (pos t)], l', ?_, hposu, hreadu, hI l₁ t u hIt hne hu ⟨l', ?_⟩⟩ <;>
    rw [List.append_assoc] <;> rfl

/-- At the end all are taken. -/
theorem returns (hw : EntryWalk size round mem n pos left) (hpos : pos s + left s = n)
    (hl : read mem (pos s) (left s) = bytes l) (hs : I [] s)
    (hI : ∀ l₁ t u, I l₁ t → left t ≠ 0 → (round t).val = .next u → l₁ ++ [entryAt mem (pos t)] <+: l →
      I (l₁ ++ [entryAt mem (pos t)]) u) :
    ∃ t, Reaches round s t ∧ left t = 0 ∧ I l t := by
  obtain ⟨r, hr⟩ : ∃ r, Returns round s r := returns_of_measure left fun t u ht hu => by
    obtain ⟨l₁, l₂, -, hpost, hread, -⟩ := hw.invariant hpos hl hs hI ht
    obtain ⟨-, -, -, hlt, -⟩ := hw.step hpost hread hu
    exact hlt
  obtain ⟨t, ht, hstop⟩ := returns_iff.1 hr
  obtain ⟨l₁, l₂, rfl, -, hread, hIt⟩ := hw.invariant hpos hl hs hI ht
  have hzero : left t = 0 := by
    by_contra hne
    obtain ⟨u, hu, -⟩ := hw.next t hne
    rw [hu] at hstop
    cases hstop
  rw [hzero] at hread
  have hnil : l₂ = [] := by
    cases l₂ with
    | nil => rfl
    | cons e l₂ => cases hread
  rw [hnil, List.append_nil]
  exact ⟨t, ht, hzero, hIt⟩

end

end EntryWalk

end

end Rtw
