import Mathlib.Data.List.Basic
import Rtw.Efuse.Walkers

/-!
# The packets of the efuse

`Log e a pkts b` says that from address `a` the efuse has the packets `pkts`, up to address `b`. The three
walks are followed along it, packet by packet (`Log.readLoop`, `Log.currentSizeLoop`, `Log.pgReadLoop`).
-/

namespace Rtw.Efuse

/-- A packet; `addr` is where its data begins. -/
structure Pkt where
  offset : UInt8
  wordEn : UInt8
  addr : Nat

section
variable (e : Content) (p : Pkt)

/-- The packet with its header at `a`. -/
def pktAt (a : Nat) : Option Pkt :=
  if e a = 0xFF then none
  else if extHeader (e a) then
    if allWordsDisabled (e (a + 1)) then none
    else some ⟨((e (a + 1) &&& 0xF0) >>> 1) ||| hdrOffset20 (e a), e (a + 1) &&& 0x0F, a + 2⟩
  else some ⟨(e a >>> 4) &&& 0x0F, e a &&& 0x0F, a + 1⟩

/-- The address behind the packet. -/
def Pkt.next : Nat := p.addr + 2 * calculateWordCnts p.wordEn

/-- The address of its word `j`. -/
def Pkt.wordAddr (j : Nat) : Nat := p.addr + 2 * wordsBefore p.wordEn j

def Pkt.word (j : Nat) : UInt16 := (e (p.wordAddr j)).toUInt16 ||| ((e (p.wordAddr j + 1)).toUInt16 <<< 8)

/-- It has word `j` of section `s`. -/
def Pkt.has (s j : Nat) : Bool :=
  p.offset.toNat = s && decide (s < maxSection) && decide (j < maxWordUnit) && wordEnabled p.wordEn j

/-- All bytes of its data are 0xff. -/
def Pkt.isEmpty : Bool := (List.range (calculateWordCnts p.wordEn * 2)).all fun i => e (p.addr + i) = 0xFF

end

/-- The packets from address `a`, the last of which ends at `b`. The section of each is one that there is, or
it has all four words. -/
inductive Log (e : Content) : Nat → List Pkt → Nat → Prop
  | nil (a : Nat) : Log e a [] a
  | cons {a b : Nat} {p : Pkt} {pkts : List Pkt} (at_a : pktAt e a = some p) (lt : a + 1 < realContentLen)
      (next_le : p.next ≤ realContentLen) (valid : p.offset.toNat < maxSection ∨ p.wordEn = 0)
      (rest : Log e p.next pkts b) : Log e a (p :: pkts) b

/-! ### Words -/

section
variable {wden : UInt8} {i j : Nat}

theorem wordsBefore_succ (wden : UInt8) (i : Nat) :
    wordsBefore wden (i + 1) = wordsBefore wden i + if wordEnabled wden i then 1 else 0 := by
  unfold wordsBefore
  rw [List.range_succ, List.countP_append, List.countP_singleton]

theorem wordsBefore_mono (h : i ≤ j) : wordsBefore wden i ≤ wordsBefore wden j := by
  induction h with
  | refl => exact Nat.le_refl _
  | step _ ih =>
    rw [Nat.succ_eq_add_one, wordsBefore_succ]
    omega

theorem wordsBefore_lt (hi : wordEnabled wden i = true) (h : i < j) : wordsBefore wden i < wordsBefore wden j := by
  have hle : wordsBefore wden (i + 1) ≤ wordsBefore wden j := wordsBefore_mono (Nat.succ_le_of_lt h)
  rw [wordsBefore_succ, if_pos hi] at hle
  omega

end

theorem addr_lt_of_pktAt {e : Content} {a : Nat} {p : Pkt} (h : pktAt e a = some p) : a < p.addr := by
  unfold pktAt at h
  split at h
  · cases h
  · split at h
    · split at h
      · cases h
      · cases h
        exact Nat.lt_add_of_pos_right (by decide)
    · cases h
      exact Nat.lt_succ_self a

namespace Log
variable {e : Content} {a b c : Nat} {p : Pkt} {pkts more : List Pkt}

theorem append (h : Log e a pkts b) (h' : Log e b more c) : Log e a (pkts ++ more) c := by
  induction h with
  | nil => exact h'
  | cons at_a lt next_le valid _ ih => exact .cons at_a lt next_le valid (ih h')

theorem lt_next (h : pktAt e a = some p) : a < p.next := by
  have := addr_lt_of_pktAt h
  unfold Pkt.next
  omega

theorem length_le (h : Log e a pkts b) : a + pkts.length ≤ b := by
  induction h with
  | nil => exact Nat.le_refl _
  | cons at_a _ _ _ _ ih =>
    have := lt_next at_a
    rw [List.length_cons]
    omega

theorem le_end (h : Log e a pkts b) (ha : a ≤ realContentLen) : b ≤ realContentLen := by
  induction h with
  | nil => exact ha
  | cons _ _ next_le _ _ ih => exact ih next_le

end Log

/-! ### `Hal_EfuseReadEFuse8812A` -/

namespace ReadState
variable {e : Content} {s : ReadState}

/-- The words that a packet gives a table. -/
def writePkt (e : Content) (word : Nat → Nat → UInt16) (p : Pkt) : Nat → Nat → UInt16 := fun s j =>
  if p.has s j then p.word e j else word s j

theorem setWord_word (s : ReadState) (offset i : Nat) (w : UInt16) (o j : Nat) :
    (s.setWord offset i w).word o j = if o = offset ∧ j = i then w else s.word o j := by
  show Function.update s.word offset _ o j = _
  rcases eq_or_ne o offset with rfl | ho
  · rw [Function.update_self]
    rcases eq_or_ne j i with rfl | hj
    · rw [Function.update_self, if_pos ⟨rfl, rfl⟩]
    · rw [Function.update_of_ne hj, if_neg fun h => hj h.2]
  · rw [Function.update_of_ne ho, if_neg fun h => ho h.1]

/-- Word `i` is read, both bytes of it. -/
def readWord (e : Content) (offset i : Nat) (s : ReadState) : ReadState :=
  { ({ s.setWord offset i (e s.addr).toUInt16 with addr := s.addr + 1 } : ReadState).setWord offset i
      ((e s.addr).toUInt16 ||| ((e (s.addr + 1)).toUInt16 <<< 8)) with addr := s.addr + 1 + 1 }

theorem readWord_word (s : ReadState) (offset i o j : Nat) : (s.readWord e offset i).word o j =
    if o = offset ∧ j = i then (e s.addr).toUInt16 ||| ((e (s.addr + 1)).toUInt16 <<< 8) else s.word o j := by
  unfold readWord
  dsimp only
  rw [setWord_word]
  split
  · rfl
  · rename_i hne
    exact (setWord_word s offset i (e s.addr).toUInt16 o j).trans (if_neg hne)

theorem readWords_cons {offset : Nat} {wden : UInt8} {i : Nat} (is : List Nat) (hen : wordEnabled wden i = true)
    (hfirst : s.addr + 1 < realContentLen) : s.readWords e offset wden (i :: is) =
      if s.addr + 2 < realContentLen then (s.readWord e offset i).readWords e offset wden is
      else s.readWord e offset i := by
  have hfirst : availableAddr (s.addr + 1) = true := decide_eq_true hfirst
  show (if wordEnabled wden i = true then _ else _) = _
  rw [if_pos hen]
  show (if (!availableAddr (s.addr + 1)) = true then _
    else if (!availableAddr (s.addr + 2)) = true then s.readWord e offset i
    else (s.readWord e offset i).readWords e offset wden is) = _
  rw [hfirst, Bool.not_true, if_neg Bool.false_ne_true]
  unfold availableAddr
  by_cases hnext : s.addr + 2 < realContentLen
  · rw [if_pos hnext, decide_eq_true hnext, Bool.not_true, if_neg Bool.false_ne_true]
  · rw [if_neg hnext, decide_eq_false hnext, Bool.not_false, if_pos rfl]

/-- The words from `i` on are read, if the packet ends within the efuse. -/
theorem readWords_range' {offset : Nat} {wden : UInt8} {d : Nat}
    (hd : d + 2 * calculateWordCnts wden ≤ realContentLen) (n i : Nat) (hi : i + n = maxWordUnit) (s : ReadState)
    (hs : s.addr = d + 2 * wordsBefore wden i) :
    s.readWords e offset wden (List.range' i n) = ⟨d + 2 * calculateWordCnts wden, s.header, fun o j =>
      if o = offset ∧ i ≤ j ∧ j < maxWordUnit ∧ wordEnabled wden j then
        (e (d + 2 * wordsBefore wden j)).toUInt16 ||| ((e (d + 2 * wordsBefore wden j + 1)).toUInt16 <<< 8)
      else s.word o j⟩ := by
  induction n generalizing i s with
  | zero =>
    obtain rfl : i = maxWordUnit := hi
    have hword : ∀ o j, ¬(o = offset ∧ maxWordUnit ≤ j ∧ j < maxWordUnit ∧ wordEnabled wden j = true) := by
      rintro o j ⟨-, hle, hlt, -⟩
      exact absurd hlt (Nat.not_lt.2 hle)
    show s = _
    simp only [if_neg (hword _ _)]
    rw [← show s.addr = d + 2 * calculateWordCnts wden from hs]
  | succ n ih =>
    rw [List.range'_succ]
    cases hen : wordEnabled wden i with
    | false =>
      have hnext : wordsBefore wden (i + 1) = wordsBefore wden i := by
        rw [wordsBefore_succ, hen, if_neg Bool.false_ne_true, Nat.add_zero]
      show (if wordEnabled wden i = true then _ else s.readWords e offset wden (List.range' (i + 1) n)) = _
      rw [hen, if_neg Bool.false_ne_true, ih (i + 1) (by omega) s (by rw [hnext]; exact hs)]
      congr 1
      funext o j
      refine if_congr (and_congr_right fun _ => ?_) rfl rfl
      constructor
      · rintro ⟨hle, h⟩
        exact ⟨by omega, h⟩
      · rintro ⟨hle, hlt, hj⟩
        refine ⟨?_, hlt, hj⟩
        rcases Nat.eq_or_lt_of_le hle with rfl | hlt
        · rw [hen] at hj
          cases hj
        · exact hlt
    | true =>
      have hnext : wordsBefore wden (i + 1) = wordsBefore wden i + 1 := by
        rw [wordsBefore_succ, hen, if_pos rfl]
      have hle : wordsBefore wden (i + 1) ≤ calculateWordCnts wden := wordsBefore_mono (by omega)
      have haddr : (s.readWord e offset i).addr = d + 2 * wordsBefore wden (i + 1) := by
        show s.addr + 1 + 1 = _
        omega
      rw [readWords_cons _ hen (by omega)]
      split
      · rw [ih (i + 1) (by omega) _ haddr]
        congr 1
        funext o j
        rw [readWord_word, hs]
        by_cases hji : j = i
        · subst hji
          rw [if_neg fun h => by omega]
          exact if_congr ⟨fun h => ⟨h.1, Nat.le_refl _, by omega, hen⟩, fun h => ⟨h.1, rfl⟩⟩ rfl rfl
        · have hne : ¬(o = offset ∧ j = i) := fun h => hji h.2
          rw [if_neg hne]
          exact if_congr (and_congr_right fun _ => and_congr_left fun _ => by omega) rfl rfl
      · -- The efuse ends here, and so do the words of the packet.
        have hall : wordsBefore wden (i + 1) = calculateWordCnts wden := by omega
        rw [show s.readWord e offset i = ⟨(s.readWord e offset i).addr, s.header, (s.readWord e offset i).word⟩ from rfl,
          haddr, hall]
        congr 1
        funext o j
        rw [readWord_word, hs]
        by_cases hji : j = i
        · subst hji
          exact if_congr ⟨fun h => ⟨h.1, Nat.le_refl _, by omega, hen⟩, fun h => ⟨h.1, rfl⟩⟩ rfl rfl
        · have hne : ¬(o = offset ∧ j = i) := fun h => hji h.2
          rw [if_neg hne, if_neg]
          rintro ⟨-, hle, hlt, hj⟩
          have hj4 := wordsBefore_lt hj hlt
          have hij : wordsBefore wden (i + 1) ≤ wordsBefore wden j := wordsBefore_mono (show i + 1 ≤ j by omega)
          unfold calculateWordCnts at hall
          omega

theorem skipWords_all {addr : Nat} (h : addr + 8 ≤ realContentLen) :
    skipWords 0 (List.range maxWordUnit) addr = addr + 8 := by
  have hstep : ∀ is addr, addr + 2 < realContentLen → ∀ i, skipWords 0 (i :: is) addr = skipWords 0 is (addr + 2) := by
    intro is addr haddr i
    have hfirst : availableAddr (addr + 1) = true := decide_eq_true (by omega)
    have hnext : availableAddr (addr + 2) = true := decide_eq_true haddr
    show (if (!availableAddr (addr + 1)) = true then _ else if (!availableAddr (addr + 2)) = true then _ else _) = _
    rw [hfirst, hnext]
    rfl
  show skipWords 0 [0, 1, 2, 3] addr = _
  rw [hstep _ _ (by omega), hstep _ _ (by omega), hstep _ _ (by omega)]
  have hfirst : availableAddr (addr + 2 + 2 + 2 + 1) = true := decide_eq_true (by omega)
  show (if (!availableAddr (addr + 2 + 2 + 2 + 1)) = true then _ else
    if (!availableAddr (addr + 2 + 2 + 2 + 2)) = true then addr + 2 + 2 + 2 + 2 else addr + 2 + 2 + 2 + 2) = _
  rw [hfirst, ite_self]
  rfl

theorem has_iff {p : Pkt} {s j : Nat} : p.has s j = true ↔
    p.offset.toNat = s ∧ s < maxSection ∧ j < maxWordUnit ∧ wordEnabled p.wordEn j = true := by
  unfold Pkt.has
  simp only [Bool.and_eq_true, decide_eq_true_iff, and_assoc]

theorem readPacket_eq {p : Pkt} (header : UInt8) (word : Nat → Nat → UInt16) (hnext : p.next ≤ realContentLen)
    (hvalid : p.offset.toNat < maxSection ∨ p.wordEn = 0) :
    readPacket e ⟨p.addr, header, word⟩ p.offset p.wordEn = ⟨p.next + 1, e p.next, writePkt e word p⟩ := by
  unfold readPacket
  by_cases hsection : p.offset.toNat < maxSection
  · have hread := @readWords_range' e p.offset.toNat _ _ hnext maxWordUnit 0 rfl ⟨p.addr, header, word⟩ rfl
    rw [if_pos hsection, List.range_eq_range', hread]
    show (⟨p.next + 1, e p.next, _⟩ : ReadState) = _
    congr 1
    funext o j
    unfold writePkt
    refine if_congr ?_ rfl rfl
    rw [has_iff]
    constructor
    · rintro ⟨rfl, -, hj, hen⟩
      exact ⟨rfl, hsection, hj, hen⟩
    · rintro ⟨rfl, -, hj, hen⟩
      exact ⟨rfl, Nat.zero_le j, hj, hen⟩
  · have hall : p.wordEn = 0 := hvalid.resolve_left hsection
    have hnext' : p.next = p.addr + 8 := by
      unfold Pkt.next
      rw [hall]
      rfl
    have hword : writePkt e word p = word := by
      funext o j
      refine if_neg fun h => hsection ?_
      obtain ⟨rfl, hlt, -⟩ := has_iff.1 h
      exact hlt
    rw [if_neg hsection, hall, hword, hnext']
    dsimp only
    rw [skipWords_all (by omega)]

/-- A round of the loop, at the header of a packet. -/
theorem readLoop_pkt {a : Nat} {p : Pkt} (word : Nat → Nat → UInt16) (fuel : Nat) (h : pktAt e a = some p)
    (hlt : a + 1 < realContentLen) (hnext : p.next ≤ realContentLen)
    (hvalid : p.offset.toNat < maxSection ∨ p.wordEn = 0) :
    readLoop e (fuel + 1) ⟨a + 1, e a, word⟩ = readLoop e fuel ⟨p.next + 1, e p.next, writePkt e word p⟩ := by
  have hheader : ∃ header, readLoop e (fuel + 1) ⟨a + 1, e a, word⟩ =
      readLoop e fuel (readPacket e ⟨p.addr, header, word⟩ p.offset p.wordEn) := by
    unfold pktAt at h
    split at h
    · cases h
    · rename_i hff
      have hcond : e a ≠ 0xFF ∧ availableAddr (a + 1) = true := ⟨hff, decide_eq_true hlt⟩
      split at h
      · rename_i hext
        split at h
        · cases h
        · rename_i hdis
          have hff' : e (a + 1) ≠ 0xFF := by
            intro heq
            rw [heq] at hdis
            exact hdis (by decide)
          cases h
          refine ⟨e a, ?_⟩
          show (if _ then if extHeader (e a) = true then if e (a + 1) ≠ 0xFF then if _ then _ else _ else _ else _ else _) = _
          rw [if_pos hcond, if_pos hext, if_pos hff', if_neg hdis]
      · rename_i hext
        cases h
        refine ⟨e a, ?_⟩
        show (if _ then if extHeader (e a) = true then _ else _ else _) = _
        rw [if_pos hcond, if_neg hext]
  obtain ⟨header, hround⟩ := hheader
  rw [hround, readPacket_eq header word hnext hvalid]

end ReadState

open ReadState in
theorem Log.readLoop {e : Content} {a b : Nat} {pkts : List Pkt} (h : Log e a pkts b) (word : Nat → Nat → UInt16)
    (fuel : Nat) : ReadState.readLoop e (pkts.length + fuel) ⟨a + 1, e a, word⟩ =
      ReadState.readLoop e fuel ⟨b + 1, e b, pkts.foldl (writePkt e) word⟩ := by
  induction h generalizing word with
  | nil =>
    rw [List.length_nil, Nat.zero_add]
    rfl
  | cons at_a lt next_le valid _ ih =>
    rw [List.length_cons, Nat.add_right_comm, readLoop_pkt word _ at_a lt next_le valid, ih]
    rfl

/-! ### `hal_EfuseGetCurrentSize_8812A` -/

theorem currentSizeLoop_pkt {e : Content} {a : Nat} {p : Pkt} (fuel : Nat) (h : pktAt e a = some p)
    (hlt : a + 1 < realContentLen) : currentSizeLoop e (fuel + 1) a = currentSizeLoop e fuel p.next := by
  have ha : a < realContentLen := by omega
  unfold pktAt at h
  split at h
  · cases h
  · rename_i hff
    split at h
    · rename_i hext
      split at h
      · cases h
      · rename_i hdis
        cases h
        have hnext : a + 1 + calculateWordCnts (e (a + 1) &&& 0x0F) * 2 + 1 =
            a + 2 + 2 * calculateWordCnts (e (a + 1) &&& 0x0F) := by omega
        rw [currentSizeLoop, if_pos ha, if_pos hff, if_pos hext, if_neg hdis, hnext]
        rfl
    · rename_i hext
      cases h
      have hnext : a + calculateWordCnts (e a &&& 0x0F) * 2 + 1 = a + 1 + 2 * calculateWordCnts (e a &&& 0x0F) := by
        omega
      rw [currentSizeLoop, if_pos ha, if_pos hff, if_neg hext, hnext]
      rfl

theorem Log.currentSizeLoop {e : Content} {a b : Nat} {pkts : List Pkt} (h : Log e a pkts b) (fuel : Nat) :
    Efuse.currentSizeLoop e (pkts.length + fuel) a = Efuse.currentSizeLoop e fuel b := by
  induction h with
  | nil => rw [List.length_nil, Nat.zero_add]
  | cons at_a lt _ _ _ ih => rw [List.length_cons, Nat.add_right_comm, currentSizeLoop_pkt _ at_a lt, ih]

/-! ### `hal_EfusePgPacketRead_8812A` -/

/-- The words of the packet are the first of the section. -/
def Pkt.Front (p : Pkt) : Prop :=
  ∀ j k, j < k → k < maxWordUnit → wordEnabled p.wordEn k = true → wordEnabled p.wordEn j = true

theorem Pkt.Front.wordsBefore {p : Pkt} (h : p.Front) {j : Nat} (hj : j < maxWordUnit)
    (hen : wordEnabled p.wordEn j = true) : wordsBefore p.wordEn j = j := by
  have hall : ∀ i, i ≤ j → Efuse.wordsBefore p.wordEn i = i := by
    intro i
    induction i with
    | zero => exact fun _ => rfl
    | succ i ih =>
      intro hi
      rw [wordsBefore_succ, ih (by omega), if_pos (h i j (by omega) hj hen)]
  exact hall j (Nat.le_refl j)

theorem Pkt.Front.wordAddr {p : Pkt} (h : p.Front) {j : Nat} (hj : j < maxWordUnit)
    (hen : wordEnabled p.wordEn j = true) : p.wordAddr j = p.addr + 2 * j := by
  unfold Pkt.wordAddr
  rw [h.wordsBefore hj hen]

theorem lt_wordCnts {wden : UInt8} {j : Nat} (hj : j < maxWordUnit) (hen : wordEnabled wden j = true) :
    wordsBefore wden j < calculateWordCnts wden := wordsBefore_lt hen hj

namespace PgReadState
variable {e : Content} {offset : UInt8} {p : Pkt} {a b : Nat} {pkts : List Pkt}

/-- What a packet with its words in front gives for a section. -/
def writeData (e : Content) (offset : UInt8) (data : PgData) (p : Pkt) : PgData := fun i =>
  if p.offset = offset ∧ p.isEmpty e = false ∧ wordEnabled p.wordEn (i.val / 2) = true then e (p.addr + i.val) else data i

/-- The header of a packet is followed by its data. -/
theorem pgReadLoop_header (fuel : Nat) (h : pktAt e a = some p) (hlt : a + 1 < realContentLen) (hworden : UInt8)
    (tmpdata data : PgData) : pgReadLoop e offset (fuel + 1) ⟨false, a, hworden, tmpdata, data⟩ =
      pgReadLoop e offset fuel
        (readHeader e offset ⟨false, a, hworden, tmpdata, data⟩ (p.addr - 1) p.offset p.wordEn) := by
  have ha : a < realContentLen := by omega
  unfold pktAt at h
  split at h
  · cases h
  · rename_i hff
    split at h
    · rename_i hext
      split at h
      · cases h
      · rename_i hdis
        have hdis : (!allWordsDisabled (e (a + 1))) = true := by
          rwa [Bool.not_eq_true', ← Bool.not_eq_true]
        cases h
        rw [pgReadLoop, if_pos ha, if_neg Bool.false_ne_true, if_pos hff, if_pos hext, if_pos hdis, UInt8.or_comm]
        rfl
    · rename_i hext
      cases h
      rw [pgReadLoop, if_pos ha, if_neg Bool.false_ne_true, if_pos hff, if_neg hext]
      rfl

theorem pgReadLoop_pkt (fuel : Nat) (h : pktAt e a = some p) (hlt : a + 1 < realContentLen)
    (hnext : p.next ≤ realContentLen) (hfront : p.offset = offset → p.isEmpty e = false → p.Front)
    (hworden : UInt8) (tmpdata data : PgData) : ∃ fuel' hworden' tmpdata', fuel ≤ fuel' ∧
      pgReadLoop e offset (fuel + 2) ⟨false, a, hworden, tmpdata, data⟩ =
        pgReadLoop e offset fuel' ⟨false, p.next, hworden', tmpdata', writeData e offset data p⟩ := by
  rw [pgReadLoop_header _ h hlt]
  have haddr : p.addr - 1 + 1 = p.addr := by
    have := addr_lt_of_pktAt h
    omega
  have hend : p.addr - 1 + calculateWordCnts p.wordEn * 2 + 1 = p.next := by
    unfold Pkt.next
    omega
  unfold readHeader
  dsimp only
  rw [haddr, hend]
  by_cases hoffset : p.offset = offset
  · rw [if_pos hoffset]
    have hempty : ((List.range (calculateWordCnts p.wordEn * 2)).any fun i => decide (e (p.addr + i) ≠ 0xFF)) =
        !p.isEmpty e := by
      unfold Pkt.isEmpty
      rw [List.not_all_eq_any_not]
      simp
    rw [hempty]
    cases hcase : p.isEmpty e with
    | true =>
      rw [Bool.not_true, if_neg Bool.false_ne_true]
      have hdata : writeData e offset data p = data := by
        funext i
        refine if_neg ?_
        rintro ⟨-, hne, -⟩
        rw [hcase] at hne
        cases hne
      rw [hdata]
      exact ⟨fuel + 1, _, _, by omega, rfl⟩
    | false =>
      rw [Bool.not_false, if_pos rfl]
      refine ⟨fuel, p.wordEn, fun i => if i.val < calculateWordCnts p.wordEn * 2 then e (p.addr + i.val) else tmpdata i,
        Nat.le_refl fuel, ?_⟩
      have hdlt : p.addr - 1 < realContentLen := by
        unfold Pkt.next at hnext
        omega
      rw [pgReadLoop, if_pos hdlt, if_pos rfl]
      dsimp only
      rw [hend]
      congr 2
      funext i
      unfold wordEnableDataRead writeData
      dsimp only
      by_cases hen : wordEnabled p.wordEn (i.val / 2) = true
      · have hj : i.val / 2 < 4 := by omega
        have hcnt := lt_wordCnts hj hen
        rw [(hfront hoffset hcase).wordsBefore hj hen] at hcnt
        rw [if_pos hen, if_pos (by omega), if_pos ⟨hoffset, hcase, hen⟩]
      · rw [if_neg hen, if_neg fun h => hen h.2.2]
  · rw [if_neg hoffset]
    have hdata : writeData e offset data p = data := by
      funext i
      exact if_neg fun h => hoffset h.1
    rw [hdata]
    exact ⟨fuel + 1, _, _, by omega, rfl⟩

end PgReadState

open PgReadState in
/-- The walk for a section reads each of its packets, if their words are in front. -/
theorem Log.pgReadLoop {e : Content} {offset : UInt8} {a b : Nat} {pkts : List Pkt} (h : Log e a pkts b)
    (hfront : ∀ p ∈ pkts, p.offset = offset → p.isEmpty e = false → p.Front) (fuel : Nat)
    (hworden : UInt8) (tmpdata data : PgData) : ∃ fuel' hworden' tmpdata', fuel ≤ fuel' ∧
      PgReadState.pgReadLoop e offset (2 * pkts.length + fuel) ⟨false, a, hworden, tmpdata, data⟩ =
        PgReadState.pgReadLoop e offset fuel' ⟨false, b, hworden', tmpdata', pkts.foldl (writeData e offset) data⟩ := by
  induction h generalizing fuel hworden tmpdata data with
  | nil => exact ⟨fuel, hworden, tmpdata, Nat.le_refl fuel, by rw [List.length_nil, Nat.mul_zero, Nat.zero_add]; rfl⟩
  | @cons a b p pkts at_a lt next_le _ _ ih =>
    obtain ⟨fuel₁, hw₁, tmp₁, hle₁, hround⟩ := pgReadLoop_pkt (2 * pkts.length + fuel) at_a lt next_le
      (hfront p (List.mem_cons_self ..)) hworden tmpdata data
    obtain ⟨k, rfl⟩ : ∃ k, fuel₁ = 2 * pkts.length + k := ⟨fuel₁ - 2 * pkts.length, by omega⟩
    obtain ⟨fuel₂, hw₂, tmp₂, hle₂, hrest⟩ := ih (fun q hq => hfront q (List.mem_cons_of_mem _ hq)) k hw₁ tmp₁
      (writeData e offset data p)
    refine ⟨fuel₂, hw₂, tmp₂, by omega, ?_⟩
    rw [List.length_cons, show 2 * (pkts.length + 1) + fuel = 2 * pkts.length + fuel + 2 by omega, hround, hrest]
    rfl

end Rtw.Efuse
