import Rtw.Efuse.Agree
import Rtw.Efuse.Write
import Rtw.Lib.Splice

/-!
# The log under the writer

On an efuse whose packets all have data (`Stored`), with only free bytes behind them, `hal_EfusePgPacketWrite_8812A`
passes all packets and puts its own behind them, in bytes that take what is written (`Stored.pgPacketWrite`). Nothing
that it does about faults is reached.
-/

namespace Rtw.Efuse
open Splice

/-- The efuse has the packets `pkts`, none of them without data, and is free from `b` on. -/
structure Stored (e : Content) (pkts : List Pkt) (b : Nat) : Prop where
  log : Log e 0 pkts b
  full : ∀ p ∈ pkts, p.isEmpty e = false
  free : ∀ a, b ≤ a → a < realContentLen → e a = 0xFF

/-- The header of a new packet. -/
def hdrBytes (offset wordEn : UInt8) : List UInt8 :=
  if offset.toNat ≥ maxSectionBase then [((offset &&& 0x07) <<< 5) ||| 0x0F, ((offset &&& 0x78) <<< 1) ||| wordEn]
  else [((offset <<< 4) &&& 0xF0) ||| wordEn]

/-- The words of a new packet. -/
def wordBytes (wordEn : UInt8) (data : PgData) (is : List Nat) : List UInt8 :=
  is.flatMap fun i => if wordEnabled wordEn i then [data.byte (2 * i), data.byte (2 * i + 1)] else []

def pktBytes (offset wordEn : UInt8) (data : PgData) : List UInt8 :=
  hdrBytes offset wordEn ++ wordBytes wordEn data (List.range maxWordUnit)

/-- The words that the packets give. -/
def wordTbl (e : Content) (pkts : List Pkt) : Nat → Nat → UInt16 := pkts.foldl (ReadState.writePkt e) fun _ _ => 0xFFFF

section
variable {burn : Burn} {again : Dev → UInt8 → UInt8 → PgData → Option Dev} {e e' : Content} {pkts : List Pkt} {p : Pkt}
  {a b : Nat} {offset wordEn : UInt8} {data : PgData} {d : Dev} {s : PgWrite} {is : List Nat} {j : Nat}

/-! ### Free bytes -/

theorem copy_singleton (a : Nat) (v : UInt8) : copy a [v] e = Function.update e a v := by
  funext i
  rcases Nat.lt_trichotomy i a with hlt | rfl | hgt
  · rw [copy_of_lt hlt, Function.update_of_ne (by omega)]
  · rw [Function.update_self]
    have h0 : copy i [v] e (i + 0) = v := copy_of_mem Nat.zero_lt_one
    exact h0
  · rw [copy_of_le (by rw [List.length_singleton]; omega), Function.update_of_ne (by omega)]

theorem oneByteWrite_free (v : UInt8) (h : d.content a = 0xFF) :
    d.oneByteWrite burn a v = { d with content := copy a [v] d.content } := by
  unfold Dev.oneByteWrite
  rw [if_pos h, copy_singleton]

theorem wordBytes_cons (i : Nat) : wordBytes wordEn data (i :: is) =
    (if wordEnabled wordEn i then [data.byte (2 * i), data.byte (2 * i + 1)] else []) ++ wordBytes wordEn data is := rfl

theorem wordBytes_append (is is' : List Nat) :
    wordBytes wordEn data (is ++ is') = wordBytes wordEn data is ++ wordBytes wordEn data is' := List.flatMap_append ..

theorem length_wordBytes : (wordBytes wordEn data is).length = 2 * is.countP (wordEnabled wordEn) := by
  induction is with
  | nil => rfl
  | cons i is ih =>
    rw [wordBytes_cons, List.length_append, ih]
    cases h : wordEnabled wordEn i with
    | true =>
      rw [List.countP_cons_of_pos h, if_pos rfl]
      simp only [List.length_cons, List.length_nil]
      omega
    | false =>
      rw [List.countP_cons_of_neg (by rw [h]; exact Bool.false_ne_true), if_neg Bool.false_ne_true]
      simp

/-- Words are put into free bytes as they are. -/
theorem writeWords_free {addr : Nat} {bad : UInt8}
    (h : ∀ i < (wordBytes wordEn data is).length, d.content (addr + i) = 0xFF) :
    Dev.writeWords burn wordEn data is addr d bad =
      ({ d with content := copy addr (wordBytes wordEn data is) d.content }, bad) := by
  induction is generalizing addr d with
  | nil =>
    have hnil : copy addr [] d.content = d.content := by
      funext i
      unfold copy
      split <;> rfl
    show (d, bad) = ({ d with content := copy addr [] d.content }, bad)
    rw [hnil]
  | cons i is ih =>
    rw [wordBytes_cons] at h ⊢
    unfold Dev.writeWords
    cases hen : wordEnabled wordEn i with
    | false =>
      rw [hen, if_neg Bool.false_ne_true, List.nil_append] at h
      rw [if_neg Bool.false_ne_true, if_neg Bool.false_ne_true, List.nil_append, ih h]
    | true =>
      rw [hen, if_pos rfl] at h
      rw [if_pos rfl, if_pos rfl]
      have h0 : d.content addr = 0xFF := h 0 (by simp)
      have h1 : d.content (addr + 1) = 0xFF := h 1 (by simp)
      have hfirst : d.oneByteWrite burn addr (data.byte (2 * i)) =
          { d with content := copy addr [data.byte (2 * i)] d.content } := oneByteWrite_free _ h0
      have hsecond : (d.oneByteWrite burn addr (data.byte (2 * i))).oneByteWrite burn (addr + 1)
          (data.byte (2 * i + 1)) =
            { d with content := copy addr [data.byte (2 * i), data.byte (2 * i + 1)] d.content } := by
        rw [hfirst, oneByteWrite_free _ (by rw [← h1]; exact copy_of_le (Nat.le_refl _))]
        dsimp only
        rw [show addr + 1 = addr + [data.byte (2 * i)].length from rfl, copy_copy]
        rfl
      have hread : read (copy addr [data.byte (2 * i), data.byte (2 * i + 1)] d.content) addr 2 =
          [data.byte (2 * i), data.byte (2 * i + 1)] := read_copy
      obtain ⟨hlo, hhi⟩ : copy addr [data.byte (2 * i), data.byte (2 * i + 1)] d.content addr = data.byte (2 * i) ∧
          copy addr [data.byte (2 * i), data.byte (2 * i + 1)] d.content (addr + 1) = data.byte (2 * i + 1) :=
        ⟨(List.cons.inj hread).1, (List.cons.inj (List.cons.inj hread).2).1⟩
      dsimp only
      rw [hsecond]
      dsimp only
      rw [if_neg (by rw [hlo, hhi]; exact fun h => h.elim (fun h => h rfl) fun h => h rfl), ih]
      · dsimp only
        rw [show addr + 2 = addr + [data.byte (2 * i), data.byte (2 * i + 1)].length from rfl, copy_copy]
      · intro k hk
        dsimp only
        rw [copy_of_le (by simp only [List.length_cons, List.length_nil]; omega),
          show addr + 2 + k = addr + (k + 2) by omega]
        refine h (k + 2) ?_
        rw [List.length_append]
        simp only [List.length_cons, List.length_nil]
        omega

/-! ### The header -/

/-- What is read from the two bytes of an extended header. -/
theorem extBytes (ho : offset.toNat < maxSection) (hw : wordEn.toNat < 15) :
    let h1 := ((offset &&& 0x07) <<< 5) ||| 0x0F
    let h2 := ((offset &&& 0x78) <<< 1) ||| wordEn
    h1 ≠ 0xFF ∧ extHeader h1 = true ∧ h2 ≠ 0xFF ∧ h2 &&& 0x0F ≠ 0x0F ∧ allWordsDisabled h2 = false ∧
      ((h2 &&& 0xF0) >>> 1) ||| hdrOffset20 h1 = offset ∧ h2 &&& 0x0F = wordEn := by
  have h : ∀ o : Fin 64, ∀ w : Fin 15,
      let offset := UInt8.ofNat o.val
      let wordEn := UInt8.ofNat w.val
      let h1 := ((offset &&& 0x07) <<< 5) ||| 0x0F
      let h2 := ((offset &&& 0x78) <<< 1) ||| wordEn
      h1 ≠ 0xFF ∧ extHeader h1 = true ∧ h2 ≠ 0xFF ∧ h2 &&& 0x0F ≠ 0x0F ∧ allWordsDisabled h2 = false ∧
        ((h2 &&& 0xF0) >>> 1) ||| hdrOffset20 h1 = offset ∧ h2 &&& 0x0F = wordEn := by decide +kernel
  have := h ⟨offset.toNat, ho⟩ ⟨wordEn.toNat, hw⟩
  rwa [UInt8.ofNat_toNat, UInt8.ofNat_toNat] at this

/-- What is read from a header of one byte. -/
theorem shortByte (ho : offset.toNat < maxSectionBase) (hw : wordEn.toNat < 15) :
    let h1 := ((offset <<< 4) &&& 0xF0) ||| wordEn
    h1 ≠ 0xFF ∧ extHeader h1 = false ∧ (h1 >>> 4) &&& 0x0F = offset ∧ h1 &&& 0x0F = wordEn := by
  have h : ∀ o : Fin 16, ∀ w : Fin 15,
      let offset := UInt8.ofNat o.val
      let wordEn := UInt8.ofNat w.val
      let h1 := ((offset <<< 4) &&& 0xF0) ||| wordEn
      h1 ≠ 0xFF ∧ extHeader h1 = false ∧ (h1 >>> 4) &&& 0x0F = offset ∧ h1 &&& 0x0F = wordEn := by decide +kernel
  have := h ⟨offset.toNat, ho⟩ ⟨wordEn.toNat, hw⟩
  rwa [UInt8.ofNat_toNat, UInt8.ofNat_toNat] at this

theorem length_hdrBytes_pos : 0 < (hdrBytes offset wordEn).length := by
  unfold hdrBytes
  split
  · exact Nat.zero_lt_two
  · exact Nat.zero_lt_one

theorem length_pktBytes_le : (pktBytes offset wordEn data).length ≤ 10 := by
  have hhdr : (hdrBytes offset wordEn).length ≤ 2 := by
    unfold hdrBytes
    split
    · exact Nat.le_refl 2
    · exact Nat.le_succ 1
  have hcount : (List.range maxWordUnit).countP (wordEnabled wordEn) ≤ 4 := List.countP_le_length
  rw [pktBytes, List.length_append, length_wordBytes]
  omega

/-- The header of the new packet, where it has been put. -/
theorem pktAt_hdrBytes (ho : offset.toNat < maxSection) (hw : wordEn.toNat < 15)
    (h : At e b (hdrBytes offset wordEn)) :
    pktAt e b = some ⟨offset, wordEn, b + (hdrBytes offset wordEn).length⟩ := by
  unfold hdrBytes at h ⊢
  unfold pktAt
  split at h
  · rename_i hext
    obtain ⟨hff, hx, -, -, hdis, hoff, hwd⟩ := extBytes ho hw
    rw [if_pos hext, h.1, h.2.1, if_neg hff, if_pos hx, hdis, if_neg Bool.false_ne_true, hoff, hwd]
    rfl
  · rename_i hext
    obtain ⟨hff, hx, hoff, hwd⟩ := shortByte (Nat.not_le.1 hext) hw
    rw [if_neg hext, h.1, if_neg hff, hx, if_neg Bool.false_ne_true, hoff, hwd]
    rfl

/-! ### The rounds of the writer -/

theorem retryHeader_written {n : Nat} (h : d.content a ≠ 0xFF) :
    d.retryHeader burn a wordEn (n + 1) = (d, true) := if_neg h

/-- The free byte takes the header. -/
theorem onHeader_free (ho : offset.toNat < maxSection) (hw : s.wordEn.toNat < 15)
    (h : ∀ i < (hdrBytes offset s.wordEn).length, s.dev.content (s.addr + i) = 0xFF) :
    PgWrite.onHeader burn again offset data s = some (.inl
      { s with
        dev := { s.dev with content := copy s.addr (hdrBytes offset s.wordEn) s.dev.content }
        stateData := true
        addr := s.addr + (hdrBytes offset s.wordEn).length - 1 }) := by
  have h0 : s.dev.content s.addr = 0xFF := h 0 length_hdrBytes_pos
  unfold PgWrite.onHeader
  dsimp only
  rw [if_neg (not_not_intro h0)]
  unfold PgWrite.onFree
  unfold hdrBytes at h ⊢
  have hput : ∀ (addr : Nat) (v : UInt8) (mem : Content), copy addr [v] mem addr = v := by
    intro addr v mem
    rw [copy_singleton, Function.update_self]
  by_cases hext : offset.toNat ≥ maxSectionBase
  · obtain ⟨hff, -, hff', hdis, -, -, -⟩ := extBytes ho hw
    simp only [if_pos hext] at h ⊢
    generalize ((offset &&& 0x07) <<< 5) ||| 0x0F = h1 at *
    generalize ((offset &&& 0x78) <<< 1) ||| s.wordEn = h2 at *
    have hfirst := hput s.addr h1 s.dev.content
    have hsecond := hput (s.addr + 1) h2 (copy s.addr [h1] s.dev.content)
    have hboth : copy (s.addr + 1) [h2] (copy s.addr [h1] s.dev.content) = copy s.addr [h1, h2] s.dev.content :=
      @copy_copy _ s.dev.content s.addr [h1] [h2]
    have h1free : copy s.addr [h1] s.dev.content (s.addr + 1) = 0xFF := by
      exact (copy_of_le (Nat.le_refl (s.addr + 1))).trans (h 1 Nat.one_lt_two)
    rw [oneByteWrite_free h1 h0, retryHeader_written (by dsimp only; rw [hfirst]; exact hff)]
    dsimp only
    rw [if_neg (by decide), if_pos hfirst, oneByteWrite_free h2 h1free,
      retryHeader_written (by dsimp only; rw [hsecond]; exact hff')]
    dsimp only
    rw [if_neg (by decide), if_neg (by rw [hsecond]; exact hdis), if_pos hsecond, hboth]
    rfl
  · simp only [if_neg hext]
    generalize ((offset <<< 4) &&& 0xF0) ||| s.wordEn = h1
    rw [oneByteWrite_free h1 h0]
    dsimp only
    rw [if_pos (hput ..)]
    rfl

/-- The bytes behind the header take the words. -/
theorem onData_free (h : ∀ i < (wordBytes s.wordEn data (List.range maxWordUnit)).length,
      s.dev.content (s.addr + 1 + i) = 0xFF) :
    PgWrite.onData burn data s = .inr { s.dev with
      content := copy (s.addr + 1) (wordBytes s.wordEn data (List.range maxWordUnit)) s.dev.content } := by
  unfold PgWrite.onData Dev.wordEnableDataWrite
  rw [writeWords_free h]
  exact if_pos (by decide)

theorem wordCnts_ne_zero (h : p.isEmpty e = false) : p.wordEn ≠ 0x0F := by
  intro heq
  have hcnt : calculateWordCnts p.wordEn = 0 := by
    rw [heq]
    decide
  unfold Pkt.isEmpty at h
  rw [hcnt] at h
  cases h

/-- A packet that has data is passed, of whatever section it is. -/
theorem onHeader_pkt (h : pktAt s.dev.content s.addr = some p) (hfull : p.isEmpty s.dev.content = false) :
    PgWrite.onHeader burn again offset data s = some (.inl { s with addr := p.next }) := by
  have hpass : ∀ t : PgWrite, t.dev = s.dev → t.addr + 1 = p.addr →
      PgWrite.onPacket burn again offset data t p.offset p.wordEn = some (.inl { t with addr := p.next }) := by
    intro t hdev haddr
    have hany : ((List.range (calculateWordCnts p.wordEn * 2)).any
        fun i => decide (t.dev.content (t.addr + 1 + i) ≠ 0xFF)) = true := by
      unfold Pkt.isEmpty at hfull
      rw [List.all_eq_false] at hfull
      obtain ⟨i, hi, hne⟩ := hfull
      refine List.any_eq_true.2 ⟨i, hi, decide_eq_true ?_⟩
      rw [hdev, haddr]
      simpa using hne
    have hnext : t.addr + calculateWordCnts p.wordEn * 2 + 1 = p.next := by
      unfold Pkt.next
      omega
    unfold PgWrite.onPacket
    dsimp only
    rw [hnext, if_pos hany, ite_self]
  have hen := wordCnts_ne_zero hfull
  unfold PgWrite.onHeader
  unfold pktAt at h
  dsimp only
  split at h
  · cases h
  · rename_i hff
    rw [if_pos hff]
    split at h
    · rename_i hext
      rw [if_pos hext]
      split at h
      · cases h
      · obtain rfl := Option.some.inj h
        dsimp only at hen
        rw [if_neg hen, UInt8.or_comm]
        exact hpass { s with addr := s.addr + 1 } rfl rfl
    · rename_i hext
      obtain rfl := Option.some.inj h
      dsimp only at hen
      rw [if_neg hext, if_neg hen]
      exact hpass s rfl rfl

/-- The writer comes to the end of the log, or to the bytes that it does not use. -/
theorem pgWriteLoop_log (h : Log e a pkts b) (hfull : ∀ p ∈ pkts, p.isEmpty e = false) (n : Nat)
    (he : s.dev.content = e) (ha : s.addr = a) (hs : s.stateData = false) :
    PgWrite.pgWriteLoop burn again offset data (pkts.length + (n + 1)) s =
      if b < availableLen then PgWrite.pgWriteLoop burn again offset data (n + 1) { s with addr := b }
      else some s.dev := by
  induction h generalizing s with
  | nil a =>
    subst ha
    rw [List.length_nil, Nat.zero_add]
    split
    · rfl
    · rename_i hge
      exact if_neg hge
  | @cons a b p pkts at_a lt next_le valid rest ih =>
    subst ha he
    have hlen : (p :: pkts).length + (n + 1) = pkts.length + (n + 1) + 1 := by
      rw [List.length_cons]
      omega
    rw [hlen, PgWrite.pgWriteLoop]
    by_cases hlt : s.addr < availableLen
    · rw [if_pos hlt, if_neg (by rw [hs]; exact Bool.false_ne_true),
        onHeader_pkt at_a (hfull p (List.mem_cons_self ..))]
      exact ih (s := { s with addr := p.next }) (fun q hq => hfull q (List.mem_cons_of_mem _ hq)) rfl rfl hs
    · have hb : ¬ b < availableLen := by
        have := Log.lt_next at_a
        have := rest.length_le
        omega
      rw [if_neg hlt, if_neg hb]

/-! ### The log with the new packet -/

theorem pktAt_congr (h : pktAt e a = some p) (hsame : ∀ i < p.addr, e' i = e i) : pktAt e' a = some p := by
  have haddr := addr_lt_of_pktAt h
  unfold pktAt at h ⊢
  rw [hsame a haddr]
  split at h
  · cases h
  · split at h
    · rename_i hff hext
      split at h
      · cases h
      · rename_i hdis
        obtain rfl := Option.some.inj h
        rw [hsame (a + 1) (Nat.lt_succ_self _), if_neg hff, if_pos hext, if_neg hdis]
    · rename_i hff hext
      rw [if_neg hff, if_neg hext, h]

theorem Log.congr (h : Log e a pkts b) (hsame : ∀ i < b, e' i = e i) : Log e' a pkts b := by
  induction h with
  | nil => exact .nil _
  | @cons a b p pkts at_a lt next_le valid rest ih =>
    have hle := rest.length_le
    refine .cons (pktAt_congr at_a fun i hi => hsame i ?_) lt next_le valid (ih hsame)
    unfold Pkt.next at hle
    omega

theorem Log.next_le_end (h : Log e a pkts b) (hp : p ∈ pkts) : p.next ≤ b := by
  induction h with
  | nil => cases hp
  | cons _ _ _ _ rest ih =>
    rcases List.mem_cons.1 hp with rfl | hp
    · have := rest.length_le
      omega
    · exact ih hp

theorem isEmpty_congr (hsame : ∀ i < p.next, e' i = e i) : p.isEmpty e' = p.isEmpty e := by
  unfold Pkt.isEmpty
  rw [Bool.eq_iff_iff, List.all_eq_true, List.all_eq_true]
  refine forall₂_congr fun i hi => ?_
  have hi := List.mem_range.1 hi
  rw [hsame]
  unfold Pkt.next
  omega

theorem writePkt_congr (hsame : ∀ i < p.next, e' i = e i) (word : Nat → Nat → UInt16) :
    ReadState.writePkt e' word p = ReadState.writePkt e word p := by
  funext o j
  unfold ReadState.writePkt
  by_cases hhas : p.has o j = true
  · obtain ⟨-, -, hj, hen⟩ := ReadState.has_iff.1 hhas
    have hlt := lt_wordCnts hj hen
    unfold Pkt.next at hsame
    rw [if_pos hhas, if_pos hhas, Pkt.word, Pkt.word, Pkt.wordAddr, hsame _ (by omega), hsame _ (by omega)]
  · rw [if_neg hhas, if_neg hhas]

theorem wordTbl_congr (hsame : ∀ p ∈ pkts, ∀ i < p.next, e' i = e i) : wordTbl e' pkts = wordTbl e pkts := by
  unfold wordTbl
  exact List.foldl_ext _ _ _ fun word p hp => writePkt_congr (hsame p hp) word

theorem wordTbl_append (pkts : List Pkt) (p : Pkt) :
    wordTbl e (pkts ++ [p]) = ReadState.writePkt e (wordTbl e pkts) p := by
  unfold wordTbl
  rw [List.foldl_append]
  rfl

/-- The place of word `j` among the words of the packet. -/
theorem wordBytes_split (data : PgData) (hj : j < maxWordUnit) (hen : wordEnabled wordEn j = true) :
    ∃ pre post, wordBytes wordEn data (List.range maxWordUnit) =
      pre ++ ([data.byte (2 * j), data.byte (2 * j + 1)] ++ post) ∧ pre.length = 2 * wordsBefore wordEn j := by
  have hrange : List.range maxWordUnit = List.range j ++ (j :: List.range' (j + 1) (maxWordUnit - j - 1)) := by
    have hcons : List.range' j (maxWordUnit - j) = j :: List.range' (j + 1) (maxWordUnit - j - 1) := by
      obtain ⟨k, hk⟩ : ∃ k, maxWordUnit - j = k + 1 := ⟨maxWordUnit - j - 1, by omega⟩
      rw [hk, List.range'_succ]
      rfl
    rw [← hcons, List.range_eq_range', List.range_eq_range',
      show List.range' j (maxWordUnit - j) = List.range' (0 + j) (maxWordUnit - j) by rw [Nat.zero_add],
      List.range'_append_1, Nat.add_sub_of_le (Nat.le_of_lt hj)]
  refine ⟨wordBytes wordEn data (List.range j), wordBytes wordEn data (List.range' (j + 1) (maxWordUnit - j - 1)), ?_,
    length_wordBytes⟩
  rw [hrange, wordBytes_append, wordBytes_cons, if_pos hen]

theorem byte_of_wordBytes (h : At e a (wordBytes wordEn data (List.range maxWordUnit))) (hj : j < maxWordUnit)
    (hen : wordEnabled wordEn j = true) {r : Nat} (hr : r < 2) :
    e (a + 2 * wordsBefore wordEn j + r) = data.byte (2 * j + r) := by
  obtain ⟨pre, post, heq, hlen⟩ := wordBytes_split data hj hen
  rw [heq, at_append, hlen, at_append] at h
  have h := h.2.1
  obtain rfl | rfl : r = 0 ∨ r = 1 := by omega
  · exact h.1
  · exact h.2.1

/-- The words of the request have data. -/
def HasData (wordEn : UInt8) (data : PgData) : Prop := ∃ i : Fin 8, wordEnabled wordEn (i.val / 2) = true ∧ data i ≠ 0xFF

instance (wordEn : UInt8) (data : PgData) : Decidable (HasData wordEn data) := inferInstanceAs (Decidable (∃ _, _))

theorem byte_val (data : PgData) (i : Fin 8) : data.byte i.val = data i := by
  unfold PgData.byte
  congr 1
  exact Fin.ext (Nat.mod_eq_of_lt i.isLt)

/-- The packet that the request makes behind the log. -/
def newPkt (b : Nat) (offset wordEn : UInt8) : Pkt := ⟨offset, wordEn, b + (hdrBytes offset wordEn).length⟩

theorem newPkt_next (data : PgData) : (newPkt b offset wordEn).next = b + (pktBytes offset wordEn data).length := by
  rw [pktBytes, List.length_append, length_wordBytes]
  show b + (hdrBytes offset wordEn).length + 2 * (List.range maxWordUnit).countP (wordEnabled wordEn) = _
  omega

theorem Stored.append (h : Stored e pkts b) (hb : b + 10 ≤ realContentLen) (ho : offset.toNat < maxSection)
    (hw : wordEn.toNat < 15) (hdata : HasData wordEn data) :
    Stored (copy b (pktBytes offset wordEn data) e) (pkts ++ [newPkt b offset wordEn])
      (b + (pktBytes offset wordEn data).length) := by
  have hlen : (pktBytes offset wordEn data).length ≤ 10 := length_pktBytes_le
  have hbelow : ∀ i < b, copy b (pktBytes offset wordEn data) e i = e i := fun i hi => copy_of_lt hi
  obtain ⟨hhdr, hwords⟩ := at_append.1 (show At (copy b (pktBytes offset wordEn data) e) b (pktBytes offset wordEn data)
    from at_copy)
  have hnew : Log (copy b (pktBytes offset wordEn data) e) b [newPkt b offset wordEn]
      (b + (pktBytes offset wordEn data).length) := by
    rw [← newPkt_next data]
    refine .cons (pktAt_hdrBytes ho hw hhdr) (by omega) ?_ (.inl ho) (.nil _)
    rw [newPkt_next data]
    omega
  refine ⟨(h.log.congr hbelow).append hnew, fun p hp => ?_, fun a hba ha => ?_⟩
  · rcases List.mem_append.1 hp with hp | hp
    · rw [isEmpty_congr fun i hi => hbelow i (Nat.lt_of_lt_of_le hi (h.log.next_le_end hp))]
      exact h.full p hp
    · obtain rfl := List.mem_singleton.1 hp
      obtain ⟨i, hen, hne⟩ := hdata
      have hj : i.val / 2 < maxWordUnit := Nat.div_lt_of_lt_mul i.isLt
      have hbyte := byte_of_wordBytes hwords hj hen (Nat.mod_lt i.val Nat.two_pos)
      rw [Nat.div_add_mod, byte_val] at hbyte
      unfold Pkt.isEmpty
      refine List.all_eq_false.2 ⟨2 * wordsBefore wordEn (i.val / 2) + i.val % 2, List.mem_range.2 ?_, ?_⟩
      · have hlt : wordsBefore wordEn (i.val / 2) < calculateWordCnts wordEn := lt_wordCnts hj hen
        show _ < calculateWordCnts wordEn * 2
        omega
      · rw [decide_eq_true_iff, ← Nat.add_assoc]
        exact fun heq => hne (hbyte.symm.trans heq)
  · rw [copy_of_le hba]
    exact h.free a (by omega) ha

/-- The words of the request are those of the new packet. -/
theorem Stored.wordTbl_append (h : Stored e pkts b) (ho : offset.toNat < maxSection) (o j r : Nat)
    (hr : r < 2) (hj : j < maxWordUnit) :
    wordByte (wordTbl (copy b (pktBytes offset wordEn data) e) (pkts ++ [newPkt b offset wordEn]) o j) r =
      if offset.toNat = o ∧ wordEnabled wordEn j = true then data.byte (2 * j + r)
      else wordByte (wordTbl e pkts o j) r := by
  have hbelow : ∀ i < b, copy b (pktBytes offset wordEn data) e i = e i := fun i hi => copy_of_lt hi
  obtain ⟨-, hwords⟩ := at_append.1 (show At (copy b (pktBytes offset wordEn data) e) b (pktBytes offset wordEn data)
    from at_copy)
  rw [Efuse.wordTbl_append, wordTbl_congr fun p hp i hi => hbelow i (Nat.lt_of_lt_of_le hi (h.log.next_le_end hp))]
  unfold ReadState.writePkt
  by_cases hhas : offset.toNat = o ∧ wordEnabled wordEn j = true
  · obtain ⟨rfl, hen⟩ := hhas
    have hhas' : (newPkt b offset wordEn).has offset.toNat j = true := ReadState.has_iff.2 ⟨rfl, ho, hj, hen⟩
    rw [if_pos hhas', if_pos ⟨rfl, hen⟩, wordByte_word _ _ _ hr]
    exact byte_of_wordBytes hwords hj hen hr
  · have hnot : ¬ (newPkt b offset wordEn).has o j = true := by
      rintro hhas'
      obtain ⟨heq, -, -, hen⟩ := ReadState.has_iff.1 hhas'
      exact hhas ⟨heq, hen⟩
    rw [if_neg hnot, if_neg hhas]

/-! ### The writer -/

theorem wordBytes_enabled (data : PgData) (is : List Nat) (his : ∀ i ∈ is, i < 4) :
    wordBytes wordEn (wordEnableDataRead wordEn data fun _ => 0xFF) is = wordBytes wordEn data is := by
  induction is with
  | nil => rfl
  | cons i is ih =>
    rw [wordBytes_cons, wordBytes_cons, ih fun k hk => his k (List.mem_cons_of_mem _ hk)]
    congr 1
    by_cases hen : wordEnabled wordEn i = true
    · have hi := his i (List.mem_cons_self ..)
      have hread : ∀ r < 2, (wordEnableDataRead wordEn data fun _ => 0xFF).byte (2 * i + r) = data.byte (2 * i + r) := by
        intro r hr
        have hval : (Fin.ofNat 8 (2 * i + r)).val / 2 = i := by
          show (2 * i + r) % 8 / 2 = i
          omega
        unfold PgData.byte wordEnableDataRead
        dsimp only
        rw [hval, if_pos hen]
      rw [if_pos hen, if_pos hen, hread 1 Nat.one_lt_two, show 2 * i = 2 * i + 0 from rfl, hread 0 Nat.two_pos]
    · rw [if_neg hen, if_neg hen]

/-- With room behind the log the packet is written there, if anything is. -/
theorem Stored.pgPacketWrite (burn : Burn) (data : PgData) (h : Stored d.content pkts b) (depth : Nat) (ho : offset.toNat < maxSection)
    (hw : wordEn.toNat < 15) (hroom : b + (hdrBytes offset wordEn).length ≤ availableLen) :
    ∃ d' ok, pgPacketWrite burn (depth + 1) d offset wordEn data = some (d', ok) ∧
      d'.content = if ok then copy b (pktBytes offset wordEn data) d.content else d.content := by
  unfold Efuse.pgPacketWrite Dev.currentSize
  dsimp only
  by_cases hsize : getCurrentSize d.content d.used ≥ availableLen
  · rw [if_pos hsize]
    exact ⟨_, false, rfl, rfl⟩
  rw [if_neg hsize]
  have hpos : 0 < (hdrBytes offset wordEn).length := length_hdrBytes_pos
  have hlen := h.log.length_le
  have hfree : ∀ a, b ≤ a → a < 512 → d.content a = 0xFF := h.free
  have hb : b + (hdrBytes offset wordEn).length ≤ 494 := hroom
  have hbytes : (hdrBytes offset wordEn).length + (wordBytes wordEn data (List.range maxWordUnit)).length ≤ 10 := by
    rw [← List.length_append]
    exact length_pktBytes_le
  have hread : wordBytes wordEn (wordEnableDataRead wordEn data fun _ => 0xFF) (List.range maxWordUnit) =
      wordBytes wordEn data (List.range maxWordUnit) :=
    wordBytes_enabled data _ fun i hi => List.mem_range.1 hi
  obtain ⟨n, hn⟩ : ∃ n, 1024 = pkts.length + (n + 1 + 1) := ⟨1024 - pkts.length - 2, by omega⟩
  rw [show maxRounds = 1024 from rfl, hn, pgWriteLoop_log h.log h.full (n + 1) rfl rfl rfl, if_pos (by omega),
    PgWrite.pgWriteLoop, if_pos (show b < availableLen by omega), if_neg Bool.false_ne_true,
    onHeader_free ho hw fun i hi => hfree _ (Nat.le_add_right ..) (by dsimp only at hi ⊢; omega)]
  dsimp only
  rw [PgWrite.pgWriteLoop]
  dsimp only
  rw [if_pos (show b + (hdrBytes offset wordEn).length - 1 < availableLen by omega), if_pos rfl, onData_free]
  · dsimp only
    refine ⟨_, true, rfl, ?_⟩
    rw [if_pos rfl, hread, show b + (hdrBytes offset wordEn).length - 1 + 1 = b + (hdrBytes offset wordEn).length by omega,
      copy_copy]
    rfl
  · intro i hi
    dsimp only at hi ⊢
    rw [hread] at hi
    rw [copy_of_le (by omega)]
    exact hfree _ (by omega) (by omega)

end

end Rtw.Efuse
