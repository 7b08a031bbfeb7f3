import Mathlib.Data.List.Basic
import Rtw.Monitor.Radiotap

/-!
# Which frames survive the round trip

The header of a received frame is injected again. The walk of the iterator depends on the present words
only (`RadiotapIterator.walk`), so that it can be run once for each shape of a header, and what the driver
then selects is a matter of the few bytes it finds. `radiotap_trips_iff`: the transmission is as the
reception was exactly if `MonitorRx.Trips`.
-/

namespace Rtw

/-- Two memories are the same below `limit`. -/
def AgreeBelow (limit : Nat) (mem mem' : List UInt8) : Prop := ∀ i < limit, byteAt mem i = byteAt mem' i

namespace AgreeBelow

variable {limit p : Nat} {mem mem' : List UInt8}

theorem le16 (h : AgreeBelow limit mem mem') (hp : p + 2 ≤ limit) :
    getUnalignedLe16 mem p = getUnalignedLe16 mem' p := by
  unfold getUnalignedLe16
  rw [h p (by omega), h (p + 1) (by omega)]

theorem le32 (h : AgreeBelow limit mem mem') (hp : p + 4 ≤ limit) :
    getUnalignedLe32 mem p = getUnalignedLe32 mem' p := by
  unfold getUnalignedLe32
  rw [h.le16 (by omega : p + 2 ≤ limit), h.le16 (by omega : p + 2 + 2 ≤ limit)]

end AgreeBelow

theorem le_of_skipBitmaps {mem : List UInt8} {maxLength fuel arg a : Nat}
    (h : skipBitmaps mem maxLength fuel arg = some a) : arg + 4 ≤ a := by
  induction fuel generalizing arg with
  | zero => cases h
  | succ fuel ih =>
    unfold skipBitmaps at h
    split at h
    · split at h
      · cases h
      · have := ih h
        omega
    · cases h
      exact Nat.le_refl _

theorem skipBitmaps_congr {limit : Nat} {mem mem' : List UInt8} (ha : AgreeBelow limit mem mem')
    {maxLength fuel arg a : Nat} (h : skipBitmaps mem' maxLength fuel arg = some a) (hl : a ≤ limit) :
    skipBitmaps mem maxLength fuel arg = some a := by
  induction fuel generalizing arg with
  | zero => cases h
  | succ fuel ih =>
    have hle := le_of_skipBitmaps h
    unfold skipBitmaps at h ⊢
    rw [ha.le32 (by omega)]
    split at h
    · rename_i hext
      rw [if_pos hext]
      split at h
      · cases h
      · rename_i hmax
        rw [if_neg hmax]
        exact ih h
    · rename_i hext
      rw [if_neg hext]
      exact h

/-- A longer packet that begins in the same way is begun in the same way. -/
theorem radiotapIteratorInit_congr {limit : Nat} {mem mem' : List UInt8} (ha : AgreeBelow limit mem mem')
    {len len' : Nat} {it : RadiotapIterator} (h : radiotapIteratorInit mem' len' = some it)
    (hlen : len' ≤ len) (h8 : 8 ≤ limit) (hl : it.arg ≤ limit) : radiotapIteratorInit mem len = some it := by
  unfold radiotapIteratorInit at h ⊢
  dsimp only at h ⊢
  rw [ha 0 (by omega), ha.le16 (by omega), ha.le32 (by omega)]
  split at h
  · cases h
  · rename_i hbad
    rw [if_neg (by omega)]
    split at h
    · rename_i hext
      rw [if_pos hext]
      split at h
      · cases h
      · rename_i hshort
        rw [if_neg hshort]
        obtain ⟨a, hskip, rfl⟩ := Option.map_eq_some_iff.1 h
        rw [skipBitmaps_congr ha hskip hl]
        rfl
    · rename_i hext
      rw [if_neg hext]
      exact h

namespace RadiotapIterator

variable {limit : Nat} {mem mem' : List UInt8} {stack : Nat} {it : RadiotapIterator}

/-- A round that reads no memory, or only below `limit`, and keeps to the namespace of radiotap. -/
def Plain (limit : Nat) (it : RadiotapIterator) : Prop :=
  it.bitmapShifter.getLsbD 0 = false ∨
    it.argIndex % 32 ≠ rtapVendorNamespace ∧ it.alignSize ≠ some (0, 0) ∧
      (it.argIndex % 32 = rtapExt → it.nextBitmap + 4 ≤ limit)

instance : Decidable (Plain limit it) := inferInstanceAs (Decidable (_ ∨ _))

theorem alignSize_zero {size : Nat} (h : it.alignSize = some (0, size)) : it.alignSize = some (0, 0) := by
  have hsize : ∀ i, i < rtapNamespaceSizes.length → (rtapNamespaceSizes.getD i (1, 1)).1 = 0 →
      (rtapNamespaceSizes.getD i (1, 1)).2 = 0 := by decide
  unfold alignSize at h ⊢
  dsimp only at h ⊢
  split at h
  · cases h
  · rename_i h1
    rw [if_neg h1]
    split at h
    · cases h
    · rename_i h2
      rw [if_neg h2]
      split at h
      · rename_i h3
        rw [if_pos h3]
      · rename_i h3
        rw [if_neg h3, h]
        have hlt := (List.getElem?_eq_some_iff.1 h).1
        have := hsize _ hlt
        rw [List.getD_eq_getElem?_getD, h] at this
        simpa using this

theorem next_congr (ha : AgreeBelow limit mem mem') (hp : it.Plain limit) :
    it.next mem stack = it.next mem' 0 := by
  unfold next
  dsimp only
  rcases hp with hoff | ⟨hvendor, halign, hext⟩
  · rw [hoff]
    rfl
  · split
    · rfl
    · split
      · rfl
      · rename_i align size hsize
        have hne : align ≠ 0 := fun h => halign (alignSize_zero (h ▸ hsize))
        rw [if_neg hne, if_neg hne]
        split
        · rfl
        · split
          · rfl
          · split
            · rename_i h
              rw [ha.le32 (hext h)]
            · rfl

/-- The arguments that the walk hits, in order; `none` where it leaves what `Plain` allows, or the fuel ends. -/
def walk (mem : List UInt8) (limit : Nat) : Nat → RadiotapIterator → Option (List (Nat × Nat))
  | 0, _ => none
  | fuel + 1, it =>
    if it.Plain limit then
      match it.next mem 0 with
      | .stop => some []
      | .more it => walk mem limit fuel it
      | .hit index arg it => (walk mem limit fuel it).map ((index, arg) :: ·)
    else none

end RadiotapIterator

open RadiotapIterator in
theorem radiotapLoop_of_walk {limit : Nat} {mem mem' : List UInt8} (ha : AgreeBelow limit mem mem')
    (stack : Nat) {fuel : Nat} {it : RadiotapIterator} {hs : List (Nat × Nat)}
    (h : it.walk mem' limit fuel = some hs) (s : MonitorSel) :
    radiotapLoop mem stack fuel it s =
      some (hs.foldl (fun s hit => s.radiotapArg mem hit.1 hit.2) s) := by
  induction fuel generalizing it hs s with
  | zero => cases h
  | succ fuel ih =>
    unfold walk at h
    split at h
    · rename_i hp
      unfold radiotapLoop
      rw [next_congr ha hp]
      cases hnext : it.next mem' 0 with
      | stop =>
        rw [hnext] at h
        cases h
        rfl
      | more it' =>
        rw [hnext] at h
        exact ih h s
      | hit index arg it' =>
        rw [hnext] at h
        obtain ⟨hs, hw, rfl⟩ := Option.map_eq_some_iff.1 h
        exact ih hw _
    · cases h

/-- The arguments that `rtw_monitor_xmit_entry` looks at. -/
def isMonitorArg (hit : Nat × Nat) : Bool :=
  hit.1 == rtapRate || hit.1 == rtapTxFlags || hit.1 == rtapMcs || hit.1 == rtapVht

theorem foldl_radiotapArg_filter (mem : List UInt8) (hs : List (Nat × Nat)) (s : MonitorSel) :
    hs.foldl (fun s hit => s.radiotapArg mem hit.1 hit.2) s =
      (hs.filter isMonitorArg).foldl (fun s hit => s.radiotapArg mem hit.1 hit.2) s := by
  induction hs generalizing s with
  | nil => rfl
  | cons hit hs ih =>
    by_cases h : isMonitorArg hit = true
    · rw [List.filter_cons_of_pos h, List.foldl_cons, List.foldl_cons, ih]
    · have hid : s.radiotapArg mem hit.1 hit.2 = s := by
        simp only [isMonitorArg, Bool.or_eq_true, beq_iff_eq, not_or] at h
        unfold MonitorSel.radiotapArg
        rw [if_neg h.1.1.1, if_neg h.1.1.2, if_neg h.1.2, if_neg h.2]
      rw [List.filter_cons_of_neg h, List.foldl_cons, hid, ih]

namespace MonitorRx

/-! ## The shapes of a header -/

/-- What the present words depend on. -/
structure Shape where
  paths : Fin 5
  physt : Bool
  tsft : Bool
  ht : Bool
  vht : Bool
  deriving DecidableEq

def shape (r : MonitorRx) : Shape where
  paths := r.numTotalRFPath
  physt := r.physt
  tsft := decide (r.tsfl ≠ 0)
  ht := r.isHt
  vht := r.isVht

/-- The first rate of the class. -/
def Shape.rate (c : Shape) : Nat := if c.vht then 44 else if c.ht then 12 else 0

theorem Shape.rate_lt (c : Shape) : c.rate < 84 := by
  unfold rate
  split
  · decide
  · split <;> decide

theorem bw20_lt : 0 < 4 := by decide

/-- A frame of each shape. -/
def Shape.sample (c : Shape) : MonitorRx where
  dataRate := ⟨c.rate, c.rate_lt⟩
  bw := ⟨0, bw20_lt⟩
  sgi := false
  stbc := false
  ldpc := false
  tsfl := if c.tsft then 1 else 0
  encrypt := 0
  mfrag := false
  crcErr := false
  physt := c.physt
  recvSignalPower := 0
  signalQuality := 0
  rxPwr := fun _ => 0
  numTotalRFPath := c.paths
  band5G := false
  operCh := 1

variable {r r' : MonitorRx}

theorem isLegacy_eq : r.isLegacy = (!r.isHt && !r.isVht) := by
  unfold isLegacy isHt isVht
  by_cases h : r.dataRate.val < 12
  · simp [h, show ¬12 ≤ r.dataRate.val by omega, show ¬44 ≤ r.dataRate.val by omega]
  · simp [h, show 12 ≤ r.dataRate.val by omega]

theorem length_antennas : r.antennas.length = if r.physt then 2 * r.numTotalRFPath.val else 0 := by
  unfold antennas
  split
  · simp [List.length_flatMap, Nat.mul_comm]
  · rfl

theorem length_fields : r.fields.length = (if r.tsfl ≠ 0 then 8 else 0) + 6 + (if r.physt then 2 else 0) + 4 +
    (if r.isHt then 3 else 0) + (if r.isVht then 12 else 0) +
      (if r.physt then 2 * r.numTotalRFPath.val else 0) := by
  have htsft : r.tsft.length = if r.tsfl ≠ 0 then 8 else 0 := by
    unfold tsft
    split <;> simp
  have hsig : r.antsignal.length = if r.physt then 2 else 0 := by
    unfold antsignal
    split <;> rfl
  have hmcs : r.mcs.length = if r.isHt then 3 else 0 := by
    unfold mcs
    split <;> rfl
  have hvht : r.vht.length = if r.isVht then 12 else 0 := by
    unfold vht
    split <;> simp
  unfold fields
  simp only [List.length_append, List.length_cons, List.length_nil, length_leBytes, htsft, hsig, hmcs, hvht,
    length_antennas]
  omega

theorem extWords_congr (h : r.shape = r'.shape) : r.extWords = r'.extWords := by
  simp only [shape, Shape.mk.injEq] at h
  unfold extWords perAntenna
  rw [h.1, h.2.1]

theorem words_congr (h : r.shape = r'.shape) : r.words = r'.words := by
  have hext := extWords_congr h
  have hlen : r.fields.length = r'.fields.length := by
    simp only [shape, Shape.mk.injEq, decide_eq_decide] at h
    rw [length_fields, length_fields, h.1, h.2.1, if_congr h.2.2.1 rfl rfl, h.2.2.2.1, h.2.2.2.2]
  have hpresent : r.itPresent = r'.itPresent := by
    simp only [shape, Shape.mk.injEq, decide_eq_decide] at h
    unfold itPresent perAntenna
    rw [isLegacy_eq, isLegacy_eq, h.1, h.2.1, if_congr h.2.2.1 rfl rfl, h.2.2.2.1, h.2.2.2.2]
  unfold words rtLen
  rw [hext, hlen, hpresent]

theorem Shape.isVht_sample (c : Shape) : c.sample.isVht = c.vht := by
  show decide (44 ≤ c.rate) = c.vht
  unfold rate
  cases c.vht <;> cases c.ht <;> rfl

theorem Shape.isHt_sample (c : Shape) : c.sample.isHt = (c.ht && !c.vht) := by
  show decide (12 ≤ c.rate ∧ c.rate < 44) = (c.ht && !c.vht)
  unfold rate
  cases c.vht <;> cases c.ht <;> rfl

theorem shape_sample_shape (r : MonitorRx) : r.shape.sample.shape = r.shape := by
  have hht : r.shape.sample.isHt = r.isHt := by
    rw [Shape.isHt_sample]
    show (r.isHt && !r.isVht) = r.isHt
    unfold isHt isVht
    by_cases h : 44 ≤ r.dataRate.val
    · simp [h, Nat.not_lt.2 h]
    · simp [h]
  have htsft : (r.shape.sample.tsfl ≠ 0) ↔ r.tsfl ≠ 0 := by
    show ((if decide (r.tsfl ≠ 0) = true then (1 : BitVec 32) else 0) ≠ 0) ↔ r.tsfl ≠ 0
    by_cases h : r.tsfl = 0 <;> simp [h]
  show (⟨_, _, _, _, _⟩ : Shape) = ⟨_, _, _, _, _⟩
  rw [hht, Shape.isVht_sample, decide_eq_decide.2 htsft]
  rfl

/-! ## The argument that counts -/

/-- The timestamp is 8 bytes at a multiple of 8; `fill_radiotap_hdr` puts it right behind the present words. -/
def Shape.shift (c : Shape) : Nat := if c.tsft && c.physt && decide (c.paths.val % 2 = 1) then 4 else 0

/-- The argument with the rate, and how far behind the present words the iterator sees it. -/
def Shape.rateArg (c : Shape) : Nat × Nat :=
  let base := (if c.tsft then 8 else 0) + c.shift
  let radio := base + 6 + (if c.physt then 2 else 0) + 4
  if c.vht then (rtapVht, radio) else if c.ht then (rtapMcs, radio) else (rtapRate, base + 1)

/-- The walk over the sample. -/
def Shape.run (c : Shape) : Option (List (Nat × Nat)) :=
  let mem := fillRadiotapHdr c.sample []
  let limit := c.sample.words.length
  (radiotapIteratorInit mem mem.length).bind fun it =>
    if it.arg ≤ limit then (it.walk mem limit (32 * (c.sample.rtLen + 2))).map (·.filter isMonitorArg) else none

theorem Shape.run_eq_of_args : ∀ (paths : Fin 5) (physt tsft ht vht : Bool),
    let c : Shape := ⟨paths, physt, tsft, ht, vht⟩
    c.run = some [(c.rateArg.1, c.sample.words.length + c.rateArg.2)] ∨
      c.shift = 4 ∧ (c.ht || c.vht) = true ∧ c.run = some [] := by
  decide +kernel

/-- An argument that is seen too far behind may be beyond the header, which ends the walk. -/
theorem Shape.run_eq (c : Shape) :
    c.run = some [(c.rateArg.1, c.sample.words.length + c.rateArg.2)] ∨
      c.shift = 4 ∧ (c.ht || c.vht) = true ∧ c.run = some [] :=
  run_eq_of_args c.paths c.physt c.tsft c.ht c.vht

theorem length_words : r.words.length = 8 + 4 * r.extWords.length := by
  unfold words
  simp only [List.length_append, List.length_cons, List.length_nil, length_leBytes, List.length_flatMap,
    List.map_const', List.sum_replicate_nat]
  omega

theorem rtLen_eq : r.rtLen = r.words.length + r.fields.length := by
  rw [length_words]
  rfl

theorem length_fill (r : MonitorRx) (data : List UInt8) :
    (fillRadiotapHdr r data).length = r.rtLen + data.length := by
  rw [rtLen_eq]
  simp [fillRadiotapHdr, Nat.add_assoc]

theorem rtLen_lt : r.rtLen < 65536 := by
  have hext : r.extWords.length ≤ 4 := by
    unfold extWords
    have := r.numTotalRFPath.isLt
    split
    · simp only [List.length_append, List.length_replicate, List.length_cons, List.length_nil]
      omega
    · exact Nat.zero_le _
  have hfields : r.fields.length ≤ 43 := by
    have := r.numTotalRFPath.isLt
    rw [length_fields]
    split <;> split <;> split <;> split <;> omega
  unfold rtLen
  omega

theorem le16_words : getUnalignedLe16 r.words 2 = r.rtLen := by
  have h := rtLen_lt (r := r)
  have h0 : r.words[2]? = some (UInt8.ofNat r.rtLen) := by simp [words, leBytes_two]
  have h1 : r.words[2 + 1]? = some (UInt8.ofNat (r.rtLen / 256)) := by simp [words, leBytes_two]
  unfold getUnalignedLe16 byteAt
  rw [h0, h1, Option.getD_some, Option.getD_some, UInt8.toNat_ofNat', UInt8.toNat_ofNat']
  omega

theorem agreeBelow_fill (h : r.shape = r'.shape) (data data' : List UInt8) :
    AgreeBelow r'.words.length (fillRadiotapHdr r data) (fillRadiotapHdr r' data') := by
  intro i hi
  unfold fillRadiotapHdr
  rw [List.append_assoc, List.append_assoc, words_congr h, byteAt_append_left hi, byteAt_append_left hi]

/-- What the driver makes of the header it has written. -/
theorem rtwMonitorXmitEntry_fill (r : MonitorRx) (data : List UInt8) (stack : Nat) :
    ∃ s : MonitorSel,
      rtwMonitorXmitEntry stack (fillRadiotapHdr r data) =
        some (s.attrib data) ∧
      (s = ({} : MonitorSel).radiotapArg (fillRadiotapHdr r data) r.shape.rateArg.1
          (r.words.length + r.shape.rateArg.2) ∨
        r.shape.shift = 4 ∧ (r.isHt || r.isVht) = true ∧ s = {}) := by
  have hshape := shape_sample_shape r
  have hwords := words_congr hshape
  have hagree := agreeBelow_fill hshape.symm data []
  have hle16 : getUnalignedLe16 (fillRadiotapHdr r data) 2 = r.rtLen := by
    have hself : AgreeBelow r.words.length (fillRadiotapHdr r data) r.words := by
      intro i hi
      unfold fillRadiotapHdr
      rw [List.append_assoc, byteAt_append_left hi]
    rw [hself.le16 (by rw [length_words]; omega), le16_words]
  have hlen' : r.shape.sample.rtLen = r.rtLen := by
    rw [← le16_words, ← le16_words, hwords]
  have h0 : byteAt (fillRadiotapHdr r data) 0 = 0 := rfl
  have hdrop : (fillRadiotapHdr r data).drop r.rtLen = data := by
    rw [rtLen_eq, ← List.length_append]
    exact List.drop_left
  have hinit : ∀ hs, r.shape.run = some hs →
      rtwMonitorXmitEntry stack (fillRadiotapHdr r data) =
        (some (hs.foldl (fun s hit => s.radiotapArg (fillRadiotapHdr r data) hit.1 hit.2)
          ({} : MonitorSel))).map (·.attrib data) := by
    intro hs hrun
    unfold Shape.run at hrun
    obtain ⟨it, hit, hrest⟩ := Option.bind_eq_some_iff.1 hrun
    split at hrest
    · rename_i harg
      obtain ⟨all, hwalk, rfl⟩ := Option.map_eq_some_iff.1 hrest
      have hle : (fillRadiotapHdr r.shape.sample []).length ≤ (fillRadiotapHdr r data).length := by
        rw [length_fill, length_fill, hlen', List.length_nil]
        omega
      have hinit := radiotapIteratorInit_congr hagree hit hle (by rw [length_words]; omega) harg
      have hloop := radiotapLoop_of_walk hagree stack hwalk {}
      rw [hlen', foldl_radiotapArg_filter] at hloop
      unfold rtwMonitorXmitEntry
      dsimp only
      rw [if_neg (by rw [length_fill, hle16, h0, rtLen_eq, length_words]; omega), hinit, hle16, hdrop]
      dsimp only
      rw [hloop]
    · cases hrest
  rcases r.shape.run_eq with hrun | ⟨hshift, hclass, hrun⟩
  · exact ⟨_, hinit _ hrun, .inl (by rw [hwords]; rfl)⟩
  · exact ⟨_, hinit _ hrun, .inr ⟨hshift, hclass, rfl⟩⟩

/-! ## The bytes it finds -/

/-- Flags, rate, channel, signal and quality: the fields that every rate has, behind the timestamp. -/
def common (r : MonitorRx) : List UInt8 :=
  [r.flags, r.rate] ++ (leBytes 2 (chan2freq r.operCh) ++ leBytes 2 r.channelFlags) ++ r.antsignal ++
    [r.signalQuality, 0, 0, 0]

theorem fields_eq : r.fields = r.tsft ++ (r.common ++ (r.mcs ++ (r.vht ++ r.antennas))) := by
  simp [fields, common]

theorem length_tsft : r.tsft.length = if r.shape.tsft then 8 else 0 := by
  show (if r.tsfl ≠ 0 then leBytes 8 r.tsfl.toNat else []).length = if decide (r.tsfl ≠ 0) = true then 8 else 0
  by_cases h : r.tsfl ≠ 0
  · rw [if_pos h, if_pos (decide_eq_true h), length_leBytes]
  · rw [if_neg h, if_neg (by rw [decide_eq_true_eq]; exact h)]
    rfl

theorem length_common : r.common.length = 6 + (if r.physt then 2 else 0) + 4 := by
  have hsig : r.antsignal.length = if r.physt then 2 else 0 := by
    unfold antsignal
    split <;> rfl
  simp only [common, List.length_append, List.length_cons, List.length_nil, length_leBytes, hsig]

theorem byteAt_behind_tsft (r : MonitorRx) (data : List UInt8) (k : Nat) :
    byteAt (fillRadiotapHdr r data) (r.words.length + ((if r.shape.tsft then 8 else 0) + k)) =
      byteAt (r.common ++ (r.mcs ++ (r.vht ++ r.antennas)) ++ data) k := by
  unfold fillRadiotapHdr
  rw [List.append_assoc, byteAt_append_right, fields_eq, List.append_assoc, ← length_tsft, byteAt_append_right]

theorem byteAt_behind_common (r : MonitorRx) (data : List UInt8) (k : Nat) :
    byteAt (fillRadiotapHdr r data)
        (r.words.length + ((if r.shape.tsft then 8 else 0) + (6 + (if r.physt then 2 else 0) + 4 + k))) =
      byteAt (r.mcs ++ (r.vht ++ r.antennas) ++ data) k := by
  rw [byteAt_behind_tsft, ← length_common, List.append_assoc, byteAt_append_right]

/-- The bytes of the rate: the second one, and, four further, the upper one of the channel flags. -/
theorem byteAt_rate (r : MonitorRx) (data : List UInt8) :
    byteAt (fillRadiotapHdr r data) (r.words.length + ((if r.shape.tsft then 8 else 0) + 1)) = r.rate.toNat ∧
      byteAt (fillRadiotapHdr r data) (r.words.length + ((if r.shape.tsft then 8 else 0) + 5)) =
        r.channelFlags / 256 % 256 := by
  constructor
  · rw [byteAt_behind_tsft]
    rfl
  · rw [byteAt_behind_tsft]
    simp only [common, leBytes_two]
    exact UInt8.toNat_ofNat'

/-- What is at the place of the first antenna. -/
theorem antennas_of_shift (h : r.shape.shift = 4) : ∃ p rest, r.antennas = p :: 0 :: rest := by
  have hodd : r.physt = true ∧ r.numTotalRFPath.val % 2 = 1 := by
    unfold Shape.shift shape at h
    dsimp only at h
    split at h
    · rename_i hc
      simp only [Bool.and_eq_true, decide_eq_true_eq] at hc
      exact ⟨hc.1.2, hc.2⟩
    · cases h
  obtain ⟨n, hn⟩ : ∃ n, r.numTotalRFPath.val = n + 1 := ⟨r.numTotalRFPath.val - 1, by omega⟩
  unfold antennas
  rw [if_pos hodd.1, hn, List.range_succ_eq_map]
  exact ⟨_, _, rfl⟩

theorem shift_eq (r : MonitorRx) : r.shape.shift = 0 ∨ r.shape.shift = 4 := by
  unfold Shape.shift
  split
  · exact .inr rfl
  · exact .inl rfl

end MonitorRx

/-- The transmission is with the rate, bandwidth, guard interval, STBC and LDPC of the reception. -/
def MonitorTxAttrib.SameRadio (a : MonitorTxAttrib) (r : MonitorRx) : Prop :=
  a.rate = hwRateToMRate r.dataRate ∧ a.bwmode = r.bw.val ∧ a.sgi = r.sgi.toNat ∧ a.stbc = r.stbc.toNat ∧
    a.ldpc = r.ldpc.toNat

/-- No timestamp off its alignment, no LDPC, and what the header has room for with such a rate. -/
def MonitorRx.Trips (r : MonitorRx) : Prop :=
  ¬(r.tsfl ≠ 0 ∧ r.physt = true ∧ r.numTotalRFPath.val % 2 = 1) ∧ r.ldpc = false ∧
    if r.dataRate.val < 12 then r.dataRate.val ≠ 10 ∧ r.sgi = false ∧ r.bw.val = 0 ∧ r.stbc = false
    else if r.dataRate.val < 44 then r.bw.val ≤ 1
    else r.dataRate.val < 54 ∧ r.bw.val ≤ 2

section
variable {r : MonitorRx} {data : List UInt8} {stack : Nat} {s : MonitorSel}

theorem MonitorRx.shift_eq_zero_iff :
    r.shape.shift = 0 ↔ ¬(r.tsfl ≠ 0 ∧ r.physt = true ∧ r.numTotalRFPath.val % 2 = 1) := by
  unfold Shape.shift shape
  dsimp only
  simp only [Bool.and_eq_true, decide_eq_true_eq, and_assoc]
  split <;> simp_all

theorem rtapDataRate_eq_iff : ∀ dataRate : Fin 84, dataRate.val < 12 →
    ((UInt8.ofNat (rtapDataRate dataRate)).toNat = hwRateToMRate dataRate ↔ dataRate.val ≠ 10) ∧
      1 < hwRateToMRate dataRate := by
  decide

theorem hwRateToMRate_ht : ∀ dataRate : Fin 84, 12 ≤ dataRate.val → dataRate.val < 44 →
    (UInt8.ofNat (rtapDataRate dataRate)).toNat % 128 = dataRate.val - 12 ∧
      hwRateToMRate dataRate = dataRate.val - 12 + mgnMcs0 := by
  decide

theorem hwRateToMRate_vht : ∀ dataRate : Fin 84, 44 ≤ dataRate.val →
    hwRateToMRate dataRate = mgnVht1ssMcs0 + (dataRate.val - 44) := by
  decide

/-- CCK and OFDM. -/
theorem sameRadio_legacy (h : r.dataRate.val < 12)
    (hs : s = ({} : MonitorSel).radiotapArg (fillRadiotapHdr r data) r.shape.rateArg.1
      (r.words.length + r.shape.rateArg.2)) :
    (s.attrib data).SameRadio r ↔ r.Trips := by
  have hht : r.shape.ht = false := decide_eq_false (by omega)
  have hvht : r.shape.vht = false := decide_eq_false (by omega)
  have harg : r.shape.rateArg = (rtapRate, (if r.shape.tsft then 8 else 0) + r.shape.shift + 1) := by
    unfold MonitorRx.Shape.rateArg
    rw [hht, hvht]
    rfl
  have hrate : r.rate = UInt8.ofNat (rtapDataRate r.dataRate) := by
    unfold MonitorRx.rate MonitorRx.isLegacy
    rw [decide_eq_true h]
    rfl
  have hflags : r.channelFlags / 256 % 256 ≤ 1 := by
    unfold MonitorRx.channelFlags
    rw [if_pos h]
    split <;> split <;> decide
  obtain ⟨htable, hlow⟩ := rtapDataRate_eq_iff r.dataRate h
  rw [harg] at hs
  unfold MonitorRx.Trips
  rw [if_pos h, ← MonitorRx.shift_eq_zero_iff]
  rcases r.shift_eq with h0 | h4
  · have hsel : s = { fixedRate := (UInt8.ofNat (rtapDataRate r.dataRate)).toNat } := by
      rw [hs, h0, ← hrate, ← (MonitorRx.byteAt_rate r data).1]
      rfl
    rw [hsel]
    unfold MonitorTxAttrib.SameRadio MonitorSel.attrib
    dsimp only
    rw [htable, h0]
    cases r.sgi <;> cases r.stbc <;> cases r.ldpc <;> simp [eq_comm]
  · have hsel : s = { fixedRate := r.channelFlags / 256 % 256 } := by
      rw [hs, h4, ← (MonitorRx.byteAt_rate r data).2, Nat.add_assoc]
      rfl
    rw [hsel, h4]
    constructor
    · intro hsame
      have := hsame.1
      dsimp only [MonitorSel.attrib] at this
      omega
    · intro ht
      cases ht.1

/-- Where the iterator sees the MCS or VHT field. -/
theorem rateArg_radio (h : 12 ≤ r.dataRate.val) :
    r.words.length + r.shape.rateArg.2 =
      r.words.length + ((if r.shape.tsft then 8 else 0) + (6 + (if r.physt then 2 else 0) + 4 + r.shape.shift)) := by
  have harg : r.shape.rateArg.2 =
      (if r.shape.tsft then 8 else 0) + r.shape.shift + 6 + (if r.physt then 2 else 0) + 4 := by
    unfold MonitorRx.Shape.rateArg
    dsimp only
    split
    · rfl
    · rename_i hvht
      have h44 : ¬44 ≤ r.dataRate.val := fun h44 => hvht (decide_eq_true h44)
      have hht : r.shape.ht = true := decide_eq_true ⟨h, by omega⟩
      rw [hht]
      rfl
  omega

theorem byteAt_radio (h : 12 ≤ r.dataRate.val) (i : Nat) :
    byteAt (fillRadiotapHdr r data) (r.words.length + r.shape.rateArg.2 + i) =
      byteAt (r.mcs ++ (r.vht ++ r.antennas) ++ data) (r.shape.shift + i) := by
  rw [rateArg_radio h, ← MonitorRx.byteAt_behind_common]
  congr 1
  omega

theorem mcsFlags_bits : ∀ (bw : Fin 4) (sgi stbc : Bool),
    let flags := (UInt8.ofNat (bw.val + 4 * sgi.toNat + 32 * stbc.toNat)).toNat
    flags.testBit 2 = sgi ∧ flags.testBit 0 = decide (bw.val % 2 = 1) ∧ flags / 32 % 4 = stbc.toNat := by
  decide

theorem sameRadio_ht (h12 : 12 ≤ r.dataRate.val) (h44 : r.dataRate.val < 44)
    (hs : s = ({} : MonitorSel).radiotapArg (fillRadiotapHdr r data) r.shape.rateArg.1
        (r.words.length + r.shape.rateArg.2) ∨ r.shape.shift = 4 ∧ s = {}) :
    (s.attrib data).SameRadio r ↔ r.Trips := by
  have hht : r.isHt = true := decide_eq_true ⟨h12, h44⟩
  have hvht : r.isVht = false := decide_eq_false (by omega)
  have harg : r.shape.rateArg.1 = rtapMcs := by
    unfold MonitorRx.Shape.rateArg
    rw [show r.shape.vht = false from hvht, show r.shape.ht = true from hht]
    rfl
  have hmcs : r.mcs = [0x27, UInt8.ofNat (r.bw.val + 4 * r.sgi.toNat + 32 * r.stbc.toNat),
      UInt8.ofNat (rtapDataRate r.dataRate)] := by
    unfold MonitorRx.mcs
    rw [hht]
    rfl
  have hnil : r.vht = [] := by
    unfold MonitorRx.vht
    rw [hvht]
    rfl
  obtain ⟨hindex, htable⟩ := hwRateToMRate_ht r.dataRate h12 h44
  have hbyte := fun i => @byteAt_radio r data h12 i
  rw [hmcs, hnil] at hbyte
  unfold MonitorRx.Trips
  rw [if_neg (by omega), if_pos h44, ← MonitorRx.shift_eq_zero_iff]
  rcases r.shift_eq with h0 | h4
  · rw [h0] at hs hbyte
    obtain ⟨hsgi, hbw, hstbc⟩ := mcsFlags_bits r.bw r.sgi r.stbc
    have hsel : s = {
        fixedRate := r.dataRate.val - 12 + mgnMcs0
        sgi := r.sgi.toNat
        bwidth := r.bw.val % 2
        stbc := r.stbc.toNat } := by
      rcases hs with hs | ⟨h4, -⟩
      · have hknown : byteAt (fillRadiotapHdr r data) (r.words.length + r.shape.rateArg.2) = 0x27 := hbyte 0
        have hflags : byteAt (fillRadiotapHdr r data) (r.words.length + r.shape.rateArg.2 + 1) =
            (UInt8.ofNat (r.bw.val + 4 * r.sgi.toNat + 32 * r.stbc.toNat)).toNat := hbyte 1
        have hmcsIndex : byteAt (fillRadiotapHdr r data) (r.words.length + r.shape.rateArg.2 + 2) % 128 =
            r.dataRate.val - 12 := by
          rw [← hindex]
          exact congrArg (· % 128) (hbyte 2)
        rw [hs, harg]
        show MonitorSel.mcs _ _ _ = _
        unfold MonitorSel.mcs
        dsimp only
        rw [hknown, hmcsIndex, hflags, if_neg (by omega : ¬r.dataRate.val - 12 > 31)]
        rw [hsgi, hbw, hstbc]
        rcases Nat.mod_two_eq_zero_or_one r.bw.val with h | h <;> cases r.sgi <;> simp [h, Nat.testBit]
      · cases h4
    rw [hsel, h0]
    unfold MonitorTxAttrib.SameRadio MonitorSel.attrib
    dsimp only
    rw [htable]
    have hbw' : r.bw.val % 2 = r.bw.val ↔ r.bw.val ≤ 1 := by
      have := r.bw.isLt
      omega
    cases r.ldpc <;> simp [hbw']
  · have hsel : s = {} := by
      rcases hs with hs | ⟨-, rfl⟩
      · obtain ⟨p, rest, hant⟩ := MonitorRx.antennas_of_shift h4
        have hknown : byteAt (fillRadiotapHdr r data) (r.words.length + r.shape.rateArg.2) = 0 := by
          have := hbyte 0
          rw [h4, hant] at this
          exact this
        rw [hs, harg]
        show MonitorSel.mcs _ _ _ = _
        unfold MonitorSel.mcs
        dsimp only
        rw [hknown]
        rfl
      · rfl
    rw [hsel, h4, MonitorTxAttrib.SameRadio, htable]
    constructor
    · intro hsame
      have := hsame.1
      dsimp only [MonitorSel.attrib, mgn1M, mgnMcs0] at this
      omega
    · intro ht
      cases ht.1

theorem vhtFlags_bits : ∀ stbc sgi ldpc : Bool,
    let flags := (UInt8.ofNat (stbc.toNat + 4 * sgi.toNat + 16 * ldpc.toNat)).toNat
    flags.testBit 2 = sgi ∧ flags.testBit 0 = stbc := by
  decide

/-- The bandwidth that is read back, 20 MHz for 160 MHz. -/
theorem vhtBandwidth_eq (r : MonitorRx) :
    (if 1 ≤ r.vhtBandwidth.toNat % 32 ∧ r.vhtBandwidth.toNat % 32 ≤ 3 then 1
      else if 4 ≤ r.vhtBandwidth.toNat % 32 ∧ r.vhtBandwidth.toNat % 32 ≤ 10 then 2 else 0) =
      if r.bw.val ≤ 2 then r.bw.val else 0 := by
  unfold MonitorRx.vhtBandwidth
  match r.bw with
  | 0 => rfl
  | 1 => rfl
  | 2 => rfl
  | 3 => rfl

theorem mcsNss_table : ∀ dataRate : Fin 84, 44 ≤ dataRate.val → dataRate.val < 54 →
    let mcsNss := (UInt8.ofNat (0 + 1 + 16 * rtapDataRate dataRate)).toNat
    mcsNss % 16 = 1 ∧ mcsNss / 16 % 16 = dataRate.val - 44 := by
  decide

theorem mcsNss_rate (h44 : 44 ≤ r.dataRate.val) :
    (if (r.mcsNss 0).toNat % 16 > 0 then
      mgnVht1ssMcs0 + ((min ((r.mcsNss 0).toNat % 16) 4 - 1) * 10 + min ((r.mcsNss 0).toNat / 16 % 16) 9)
    else mgn1M) = if r.dataRate.val < 54 then hwRateToMRate r.dataRate else mgn1M := by
  by_cases h : r.dataRate.val < 54
  · have hnss : r.mcsNss 0 = UInt8.ofNat (0 + 1 + 16 * rtapDataRate r.dataRate) := if_pos ⟨by omega, by omega⟩
    obtain ⟨hone, hmcs⟩ := mcsNss_table r.dataRate h44 h
    rw [hnss, hone, hmcs, if_pos h, hwRateToMRate_vht r.dataRate h44,
      Nat.min_eq_left (by omega : r.dataRate.val - 44 ≤ 9), if_pos Nat.one_pos, Nat.min_eq_left (by omega)]
    omega
  · have hnss : r.mcsNss 0 = 0 := if_neg (by omega)
    rw [hnss, if_neg h]
    rfl

/-- VHT; the rate is in the field of the first user for one spatial stream only. -/
theorem sameRadio_vht (h44 : 44 ≤ r.dataRate.val)
    (hs : s = ({} : MonitorSel).radiotapArg (fillRadiotapHdr r data) r.shape.rateArg.1
        (r.words.length + r.shape.rateArg.2) ∨ r.shape.shift = 4 ∧ s = {}) :
    (s.attrib data).SameRadio r ↔ r.Trips := by
  have hht : r.isHt = false := decide_eq_false (by omega)
  have hvht : r.isVht = true := decide_eq_true h44
  have harg : r.shape.rateArg.1 = rtapVht := by
    unfold MonitorRx.Shape.rateArg
    rw [show r.shape.vht = true from hvht]
    rfl
  have hfield : r.vht = [0xd5, 0x01, UInt8.ofNat (r.stbc.toNat + 4 * r.sgi.toNat + 16 * r.ldpc.toNat),
      r.vhtBandwidth, r.mcsNss 0, r.mcsNss 1, r.mcsNss 2, r.mcsNss 3, 0, 0, 0, 0] := by
    unfold MonitorRx.vht
    rw [hvht]
    rfl
  have hnil : r.mcs = [] := by
    unfold MonitorRx.mcs
    rw [hht]
    rfl
  have htable := hwRateToMRate_vht r.dataRate h44
  have hbyte := fun i => @byteAt_radio r data (by omega : 12 ≤ r.dataRate.val) i
  rw [hfield, hnil] at hbyte
  have hsel : s = ({} : MonitorSel).vht (fillRadiotapHdr r data) (r.words.length + r.shape.rateArg.2) ∨
      r.shape.shift = 4 ∧ s = {} := by
    rw [harg] at hs
    exact hs
  unfold MonitorRx.Trips
  rw [if_neg (by omega), if_neg (by omega), ← MonitorRx.shift_eq_zero_iff]
  rcases r.shift_eq with h0 | h4
  · rw [h0] at hbyte hsel
    have hknown : byteAt (fillRadiotapHdr r data) (r.words.length + r.shape.rateArg.2) = 0xd5 := hbyte 0
    have hflags : byteAt (fillRadiotapHdr r data) (r.words.length + r.shape.rateArg.2 + 2) =
        (UInt8.ofNat (r.stbc.toNat + 4 * r.sgi.toNat + 16 * r.ldpc.toNat)).toNat := hbyte 2
    have hbandwidth : byteAt (fillRadiotapHdr r data) (r.words.length + r.shape.rateArg.2 + 3) =
        r.vhtBandwidth.toNat := hbyte 3
    have hmcsNss : byteAt (fillRadiotapHdr r data) (r.words.length + r.shape.rateArg.2 + 4) =
        (r.mcsNss 0).toNat := hbyte 4
    have hcoding : byteAt (fillRadiotapHdr r data) (r.words.length + r.shape.rateArg.2 + 8) = 0 := hbyte 8
    obtain ⟨hsgi, hstbc⟩ := vhtFlags_bits r.stbc r.sgi r.ldpc
    rcases hsel with hsel | ⟨h4, -⟩
    · have hs' : s = {
          fixedRate := if r.dataRate.val < 54 then hwRateToMRate r.dataRate else mgn1M
          sgi := r.sgi.toNat
          bwidth := if r.bw.val ≤ 2 then r.bw.val else 0
          stbc := r.stbc.toNat } := by
        rw [hsel]
        unfold MonitorSel.vht
        dsimp only
        rw [hknown, hflags, hbandwidth, hmcsNss, hcoding, vhtBandwidth_eq, hsgi, hstbc, mcsNss_rate h44]
        cases r.sgi <;> cases r.stbc <;> rfl
      have hbw : (if r.bw.val ≤ 2 then r.bw.val else 0) = r.bw.val ↔ r.bw.val ≤ 2 := by
        have := r.bw.isLt
        split <;> omega
      have hrate : (if r.dataRate.val < 54 then hwRateToMRate r.dataRate else mgn1M) =
          hwRateToMRate r.dataRate ↔ r.dataRate.val < 54 := by
        rw [htable]
        unfold mgn1M mgnVht1ssMcs0
        split <;> omega
      rw [hs', h0]
      unfold MonitorTxAttrib.SameRadio MonitorSel.attrib
      dsimp only
      rw [hrate, hbw]
      cases r.ldpc <;> simp
    · cases h4
  · have hs' : s.fixedRate = mgn1M := by
      rcases hsel with hsel | ⟨-, rfl⟩
      · have hmcsNss : byteAt (fillRadiotapHdr r data) (r.words.length + r.shape.rateArg.2 + 4) = 0 := by
          have := hbyte 4
          rw [h4] at this
          exact this
        rw [hsel]
        unfold MonitorSel.vht
        dsimp only
        rw [hmcsNss]
        rfl
      · rfl
    rw [h4, MonitorTxAttrib.SameRadio, htable]
    constructor
    · intro hsame
      have := hsame.1
      dsimp only [MonitorSel.attrib, mgn1M, mgnVht1ssMcs0] at this hs'
      omega
    · intro ht
      cases ht.1

/-- The driver sends an injected frame as it has received it exactly if `Trips`. -/
theorem radiotap_trips_iff (r : MonitorRx) (data : List UInt8) (stack : Nat) :
    (∃ a, rtwMonitorXmitEntry stack (fillRadiotapHdr r data) = some a ∧ a.SameRadio r) ↔ r.Trips := by
  obtain ⟨s, hentry, hs⟩ := r.rtwMonitorXmitEntry_fill data stack
  have hsame : (∃ a, rtwMonitorXmitEntry stack (fillRadiotapHdr r data) = some a ∧ a.SameRadio r) ↔
      (s.attrib data).SameRadio r := by
    rw [hentry]
    constructor
    · rintro ⟨a, ha, h⟩
      cases ha
      exact h
    · intro h
      exact ⟨_, rfl, h⟩
  rw [hsame]
  by_cases h12 : r.dataRate.val < 12
  · refine sameRadio_legacy h12 (hs.resolve_right ?_)
    rintro ⟨-, hclass, -⟩
    simp only [MonitorRx.isHt, MonitorRx.isVht, Bool.or_eq_true, decide_eq_true_eq] at hclass
    omega
  · have hs' := hs.imp_right fun h => (⟨h.1, h.2.2⟩ : r.shape.shift = 4 ∧ s = {})
    by_cases h44 : r.dataRate.val < 44
    · exact sameRadio_ht (by omega) h44 hs'
    · exact sameRadio_vht (by omega) hs'

theorem rate48M_lt : 10 < 84 := by decide

theorem twoPaths_lt : 2 < 5 := by decide

/-- A frame at 48 Mbps, which `data_rate` has as 93 instead of 96 units of 500 kbps. -/
def rx48M : MonitorRx where
  dataRate := ⟨10, rate48M_lt⟩
  bw := ⟨0, MonitorRx.bw20_lt⟩
  sgi := false
  stbc := false
  ldpc := false
  tsfl := 0x1000
  encrypt := 0
  mfrag := false
  crcErr := false
  physt := true
  recvSignalPower := 0xc5
  signalQuality := 90
  rxPwr := fun _ => 0xc4
  numTotalRFPath := ⟨2, twoPaths_lt⟩
  band5G := false
  operCh := 6

theorem not_trips_48M : ¬∀ (r : MonitorRx) (data : List UInt8) (stack : Nat),
    ∃ a, rtwMonitorXmitEntry stack (fillRadiotapHdr r data) = some a ∧ a.SameRadio r := by
  intro h
  obtain ⟨a, ha, hsame⟩ := h rx48M [] 0
  have hrun : (rtwMonitorXmitEntry 0 (fillRadiotapHdr rx48M [])).map (·.rate) = some 93 := by
    decide +kernel
  rw [ha] at hrun
  have hrate : a.rate = 93 := Option.some.inj hrun
  have := hsame.1
  rw [hrate] at this
  exact absurd this (by decide)

end

end Rtw
