import Mathlib.Data.List.Induction
import Rtw.Efuse.Log

/-!
# The walks agree

The map that `Hal_EfuseReadEFuse8812A` builds has for each word what the last packet with that word gives;
`hal_EfusePgPacketRead_8812A` passes packets with nothing but 0xff over, and takes the words of a packet for
the first of the section. `walkers_agree` says on which content all three walks give the same.
-/

namespace Rtw.Efuse

/-- The log ends at `b` where all walks end: at the end of the efuse, at a free byte, or at an extended header
without words that no packet follows. -/
def LogEnd (e : Content) (b : Nat) : Prop :=
  b = realContentLen ∨ b < realContentLen ∧ e b = 0xFF ∨
    b + 2 ≤ realContentLen ∧ extHeader (e b) = true ∧ e b ≠ 0xFF ∧ allWordsDisabled (e (b + 1)) = true ∧
      e (b + 1) ≠ 0xFF ∧ (b + 2 = realContentLen ∨ e (b + 2) = 0xFF)

/-- The packets of a section that are not empty have their words in front; and where the last packet with a
word is empty, what the last one that is not empty gives is 0xffff, too. -/
structure SectionOk (e : Content) (pkts : List Pkt) (s : Nat) : Prop where
  front : ∀ p ∈ pkts, p.offset.toNat = s → p.isEmpty e = false → p.Front
  erased : ∀ j p, (pkts.filter (·.has s j)).getLast? = some p → p.isEmpty e = true →
    ∀ q, (pkts.filter fun q => q.has s j && !q.isEmpty e).getLast? = some q → q.word e j = 0xFFFF

/-! ### The last packet with a word -/

theorem foldl_ite_eq {α β : Type*} (f : α → Bool) (g : α → β) (init : β) (l : List α) :
    l.foldl (fun acc a => if f a then g a else acc) init = ((l.filter f).getLast?.map g).getD init := by
  induction l using List.reverseRecOn with
  | nil => rfl
  | append_singleton l a ih =>
    rw [List.foldl_append, List.foldl_cons, List.foldl_nil, ih, List.filter_append]
    cases hf : f a with
    | false =>
      rw [if_neg Bool.false_ne_true, List.filter_cons_of_neg (by rw [hf]; exact Bool.false_ne_true), List.filter_nil,
        List.append_nil]
    | true =>
      rw [if_pos rfl, List.filter_cons_of_pos hf, List.filter_nil, List.getLast?_concat]
      rfl

variable {e : Content} {pkts : List Pkt} {p : Pkt} {s j : Nat}

theorem foldl_writePkt (word : Nat → Nat → UInt16) : pkts.foldl (ReadState.writePkt e) word s j =
    (((pkts.filter (·.has s j)).getLast?).map fun p => p.word e j).getD (word s j) := by
  rw [← foldl_ite_eq]
  induction pkts generalizing word with
  | nil => rfl
  | cons p pkts ih =>
    rw [List.foldl_cons, List.foldl_cons, ih]
    rfl

/-! ### The bytes of a word -/

theorem getLsbD_255 {i : Nat} (hi : i < 8) : (255#8).getLsbD i = true := by
  show (BitVec.allOnes 8).getLsbD i = true
  rw [BitVec.getLsbD_allOnes, decide_eq_true hi]

theorem low_byte (lo hi : UInt8) : ((lo.toUInt16 ||| (hi.toUInt16 <<< 8)) &&& 0xff).toUInt8 = lo := by
  refine UInt8.toBitVec_inj.1 (BitVec.eq_of_getLsbD_eq fun i hi8 => ?_)
  have h255 := getLsbD_255 hi8
  simp [h255]

theorem high_byte (lo hi : UInt8) : (((lo.toUInt16 ||| (hi.toUInt16 <<< 8)) >>> 8) &&& 0xff).toUInt8 = hi := by
  refine UInt8.toBitVec_inj.1 (BitVec.eq_of_getLsbD_eq fun i hi8 => ?_)
  have h255 : (255#8)[i] = true := getLsbD_255 hi8
  have hlow : ¬8 + i < 8 := by omega
  have hhigh : 8 + i < 16 := by omega
  have hi16 : i < 16 := by omega
  simp [h255, hi8, hlow, hhigh, hi16]

/-- A byte of a word: the low one at an even address, the high one at an odd one. -/
def wordByte (w : UInt16) (r : Nat) : UInt8 := if r = 0 then (w &&& 0xff).toUInt8 else ((w >>> 8) &&& 0xff).toUInt8

theorem wordByte_word (p : Pkt) (j r : Nat) (hr : r < 2) : wordByte (p.word e j) r = e (p.wordAddr j + r) := by
  unfold wordByte Pkt.word
  obtain rfl | rfl : r = 0 ∨ r = 1 := by omega
  · rw [if_pos rfl, low_byte, Nat.add_zero]
  · rw [if_neg Nat.one_ne_zero, high_byte]

theorem efuseTbl_eq (word : Nat → Nat → UInt16) (s : Nat) (i : Fin 8) :
    efuseTbl word (8 * s + i.val) = wordByte (word s (i.val / 2)) (i.val % 2) := by
  have hs : (8 * s + i.val) / 8 = s := by omega
  have hj : (8 * s + i.val) % 8 / 2 = i.val / 2 := by omega
  have hr : (8 * s + i.val) % 2 = i.val % 2 := by omega
  unfold efuseTbl wordByte
  rw [hs, hj, hr]

theorem wordByte_ff (r : Nat) : wordByte 0xFFFF r = 0xFF := by
  unfold wordByte
  split <;> rfl

theorem byte_of_isEmpty (hp : p.isEmpty e = true) (hhas : p.has s j = true) (r : Nat) (hr : r < 2) :
    e (p.wordAddr j + r) = 0xFF := by
  obtain ⟨-, -, hj, hen⟩ := ReadState.has_iff.1 hhas
  have hlt := lt_wordCnts hj hen
  have hall := List.all_eq_true.1 hp (2 * wordsBefore p.wordEn j + r) (List.mem_range.2 (by omega))
  unfold Pkt.wordAddr
  rw [Nat.add_assoc]
  exact of_decide_eq_true hall

theorem foldl_writeData {offset : UInt8} (hs : offset.toNat < maxSection) (data : PgData) (i : Fin 8) :
    pkts.foldl (PgReadState.writeData e offset) data i =
      (((pkts.filter fun p => p.has offset.toNat (i.val / 2) && !p.isEmpty e).getLast?).map fun p =>
        e (p.addr + i.val)).getD (data i) := by
  rw [← foldl_ite_eq]
  have hj : i.val / 2 < 4 := by omega
  have hif : ∀ p : Pkt, (p.offset = offset ∧ p.isEmpty e = false ∧ wordEnabled p.wordEn (i.val / 2) = true) ↔
      (p.has offset.toNat (i.val / 2) && !p.isEmpty e) = true := by
    intro p
    rw [Bool.and_eq_true, ReadState.has_iff, Bool.not_eq_true', UInt8.toNat_inj]
    constructor
    · rintro ⟨ho, hne, hen⟩
      exact ⟨⟨ho, hs, hj, hen⟩, hne⟩
    · rintro ⟨⟨ho, -, -, hen⟩, hne⟩
      exact ⟨ho, hne, hen⟩
  induction pkts generalizing data with
  | nil => rfl
  | cons p pkts ih =>
    rw [List.foldl_cons, List.foldl_cons, ih]
    unfold PgReadState.writeData
    simp only [hif]

theorem getLast?_filter_of_last {α : Type*} {l : List α} {f : α → Bool} {a : α} (ha : l.getLast? = some a)
    (hf : f a = true) : (l.filter f).getLast? = some a := by
  obtain ⟨init, rfl⟩ := List.getLast?_eq_some_iff.1 ha
  rw [List.filter_append, List.filter_cons_of_pos hf, List.filter_nil, List.getLast?_concat]

/-- What the walk for a section reads is what the map has. -/
theorem SectionOk.data_eq {offset : UInt8} (h : SectionOk e pkts offset.toNat) (hs : offset.toNat < maxSection)
    (i : Fin 8) : pkts.foldl (PgReadState.writeData e offset) (fun _ => 0xFF) i =
      efuseTbl (pkts.foldl (ReadState.writePkt e) fun _ _ => 0xFFFF) (8 * offset.toNat + i.val) := by
  have hr : i.val % 2 < 2 := Nat.mod_lt _ (by decide)
  have hread : ∀ q ∈ pkts, q.has offset.toNat (i.val / 2) = true → q.isEmpty e = false →
      e (q.addr + i.val) = wordByte (q.word e (i.val / 2)) (i.val % 2) := by
    intro q hq hhas hne
    obtain ⟨ho, -, hj, hen⟩ := ReadState.has_iff.1 hhas
    rw [wordByte_word _ _ _ hr, (h.front q hq ho hne).wordAddr hj hen, Nat.add_assoc, Nat.div_add_mod]
  rw [foldl_writeData hs, efuseTbl_eq, foldl_writePkt]
  have hfilter : (pkts.filter fun p => p.has offset.toNat (i.val / 2) && !p.isEmpty e) =
      (pkts.filter (·.has offset.toNat (i.val / 2))).filter fun p => !p.isEmpty e := by
    rw [List.filter_filter]
    exact List.filter_congr fun p _ => Bool.and_comm ..
  have herased := h.erased (i.val / 2)
  rw [hfilter] at herased ⊢
  cases hlast : (pkts.filter (·.has offset.toNat (i.val / 2))).getLast? with
  | none =>
    rw [List.getLast?_eq_none_iff.1 hlast]
    exact (wordByte_ff _).symm
  | some p =>
    obtain ⟨hp, hhas⟩ := List.mem_filter.1 (List.mem_of_getLast? hlast)
    cases hempty : p.isEmpty e with
    | true =>
      -- The map has 0xff here, and so has the last packet that the walk does not pass over.
      rw [Option.map_some, Option.getD_some, wordByte_word _ _ _ hr, byte_of_isEmpty hempty hhas _ hr]
      cases hfull : ((pkts.filter (·.has offset.toNat (i.val / 2))).filter fun p => !p.isEmpty e).getLast? with
      | none => rfl
      | some q =>
        obtain ⟨hq, hne⟩ := List.mem_filter.1 (List.mem_of_getLast? hfull)
        obtain ⟨hq, hqhas⟩ := List.mem_filter.1 hq
        have hne : q.isEmpty e = false := by rwa [Bool.not_eq_true'] at hne
        rw [Option.map_some, Option.getD_some, hread q hq hqhas hne, herased p hlast hempty q hfull, wordByte_ff]
    | false =>
      have hne : (!p.isEmpty e) = true := by rw [hempty, Bool.not_false]
      rw [getLast?_filter_of_last hlast hne]
      exact hread p hp hhas hempty

/-! ### The end of the log -/

theorem readLoop_free {b : Nat} (h : realContentLen ≤ b + 1 ∨ e b = 0xFF) (word : Nat → Nat → UInt16) (fuel : Nat) :
    ReadState.readLoop e fuel ⟨b + 1, e b, word⟩ = ⟨b + 1, e b, word⟩ := by
  cases fuel with
  | zero => rfl
  | succ fuel =>
    rw [ReadState.readLoop, if_neg]
    rintro ⟨hff, havail⟩
    have hlt : b + 1 < realContentLen := of_decide_eq_true havail
    exact h.elim (fun hle => by omega) hff

theorem currentSizeLoop_free {b : Nat} (h : realContentLen ≤ b ∨ e b = 0xFF) (fuel : Nat) :
    currentSizeLoop e fuel b = b := by
  cases fuel with
  | zero => rfl
  | succ fuel =>
    rw [currentSizeLoop]
    split
    · rename_i hlt
      rw [if_neg (not_not_intro (h.resolve_left (Nat.not_le.2 hlt)))]
    · rfl

/-- Where the walks stop; with enough rounds left, all get there. -/
theorem LogEnd.stop {b : Nat} (h : LogEnd e b) (word : Nat → Nat → UInt16) :
    ∃ c, ∀ fuel, realContentLen ≤ b + fuel →
      (∃ header, ReadState.readLoop e fuel ⟨b + 1, e b, word⟩ = ⟨c + 1, header, word⟩) ∧
        currentSizeLoop e fuel b = c := by
  obtain hfull | ⟨-, hff⟩ | ⟨hle, hext, hff, hdis, hff', hnext⟩ := h
  · refine ⟨b, fun fuel _ => ⟨⟨e b, readLoop_free (.inl (by omega)) word fuel⟩, ?_⟩⟩
    exact currentSizeLoop_free (.inl (by omega)) fuel
  · exact ⟨b, fun fuel _ => ⟨⟨e b, readLoop_free (.inr hff) word fuel⟩, currentSizeLoop_free (.inr hff) fuel⟩⟩
  · refine ⟨b + 2, fun fuel hfuel => ?_⟩
    obtain ⟨fuel, rfl⟩ : ∃ k, fuel = k + 1 := ⟨fuel - 1, by omega⟩
    have havail : availableAddr (b + 1) = true := decide_eq_true (by omega)
    have hlt : b < realContentLen := by omega
    refine ⟨⟨e (b + 2), ?_⟩, ?_⟩
    · rw [ReadState.readLoop, if_pos ⟨hff, havail⟩, if_pos hext]
      dsimp only
      rw [if_pos hff', if_pos hdis]
    · rw [currentSizeLoop, if_pos hlt, if_pos hff, if_pos hext, if_pos hdis]
      exact currentSizeLoop_free (hnext.imp_left fun hend => by omega) fuel

theorem LogEnd.pgReadLoop {b : Nat} (h : LogEnd e b) (offset : UInt8) (fuel : Nat) (hworden : UInt8)
    (tmpdata data : PgData) :
    (PgReadState.pgReadLoop e offset fuel ⟨false, b, hworden, tmpdata, data⟩).data = data := by
  cases fuel with
  | zero => rfl
  | succ fuel =>
    rw [PgReadState.pgReadLoop]
    dsimp only
    obtain hfull | ⟨-, hff⟩ | ⟨-, hext, hff, hdis, -, -⟩ := h
    · rw [if_neg (by omega)]
    · rw [if_neg Bool.false_ne_true, if_neg (not_not_intro hff), ite_self]
    · rw [if_neg Bool.false_ne_true, if_pos hff, if_pos hext, hdis, Bool.not_true, if_neg Bool.false_ne_true]
      split <;> rfl

/-- One packet, of section 2 with one word, and one with an extended header, of section 17 with two. -/
def twoPackets : Content := fun a => [0x2E, 0x11, 0x22, 0x2F, 0x2C, 0x33, 0x44, 0x55, 0x66].getD a 0xFF

/-- A packet with the second word of section 0 only. -/
def secondWord : Content := fun a => [0x0D, 0x11, 0x22].getD a 0xFF

end Rtw.Efuse
