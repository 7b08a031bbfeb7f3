import Rtw.TxPower.LimitFile
import Rtw.TxPower.ParaSafe

/-!
# When a TXPWR_LMT file is read inside its buffer

Nothing keeps a name or a number from being longer than its buffer, and what ends a name is looked for up to the end of the
file. A channel of the 2.4G band is an index as it is. `limitLine_ne_none` gives the lines for which this goes well.
-/

namespace Rtw
open Para

/-- What ends the name of a column. -/
def isNameEnd (c : UInt8) : Bool := isBlank c ∨ c = 0

/-- Names of a label: each that is there, with a blank in front, has at most ten bytes in front of a comma. -/
def NamesFit : Nat → Ptr → Prop
  | 0, _ => True
  | n + 1, p => ∀ q, p = 0x20 :: q → 0x2c ∈ q.take 11 ∧ NamesFit n (q.dropWhile (· ≠ 0x2c)).tail

/-- Names of columns: each has at most ten bytes, up to one that is empty. -/
def RegulationsFit : Nat → Ptr → Prop
  | 0, _ => True
  | n + 1, p => ((p.dropWhile isBlank).take 11).any isNameEnd = true ∧
      ((p.dropWhile isBlank).takeWhile (!isNameEnd ·) ≠ [] → RegulationsFit n ((p.dropWhile isBlank).dropWhile (!isNameEnd ·)))

/-- The text of a line with `##` at the beginning. -/
def hashText (szLine : Ptr) : Ptr := (szLine.drop 2).dropWhile isBlank

/-- The line with the columns. -/
def ColumnsFit (st : LimitState) (szLine : Ptr) : Prop :=
  ∀ q, hashText szLine = 0x23 :: q → 0x23 ∈ q.take 11 ∧
    ∀ colNumBuf, strncpy st.colNumBuf (q.takeWhile (· ≠ 0x23)) = some colNumBuf →
      (∃ c ∈ colNumBuf.toList, isDigit c = false) ∧
        ∀ n, getU1ByteIntegerFromStringInDecimal colNumBuf.toList = some (true, n) → n ≤ 4 →
          RegulationsFit n.toNat (q.dropWhile (· ≠ 0x23)).tail

/-- There is an entry for a limit for the channel with the digits `ds`. -/
def LimitState.StoreFits (st : LimitState) (ds : List UInt8) : Prop :=
  ds.length ≤ 9 ∧ (rateSectionIdx st.rateSection st.rfPath ≠ some none → [0x32, 0x2e, 0x34, 0x47] <+: st.band.toList →
    decValue 0 ds ≤ 14)

/-- What is behind the digits of a limit: the fraction, and what is behind it. -/
def limitFraction : Ptr → Option (Option (UInt8 × Ptr))
  | [] => none
  | c :: p => if c = 0x2e then p.head?.map fun d => if isDigit d then some (d, p.tail) else none else some (some (0, c :: p))

/-- Limits of a row, up to one with a wrong fraction: each has at most nine digits, and an entry. -/
def LimitsFit (store : Prop) : Nat → Ptr → Prop
  | 0, _ => True
  | n + 1, p => p ≠ [] ∧ ((p.dropWhile isBlank).takeWhile isDigit).length ≤ 10 ∧
      ∀ fraction next, limitFraction ((p.dropWhile isBlank).dropWhile isDigit) = some (some (fraction, next)) →
        ((p.dropWhile isBlank).takeWhile isDigit).length ≤ 9 ∧ store ∧
          LimitsFit store n (if (p.dropWhile isBlank).takeWhile isDigit = [] then next.drop 2 else next)

/-- A row that is not the line END. -/
def ChannelFits (st : LimitState) (szLine : Ptr) : Prop :=
  ∀ c h q, szLine = c :: h :: q → (c = 0x63 ∨ c = 0x43) → (h = 0x68 ∨ h = 0x48) → (q.takeWhile isDigit).length ≤ 10 ∧
    LimitsFit (st.StoreFits (q.takeWhile isDigit)) (columnsOf st.colNum).length (q.dropWhile isDigit)

/-- A line. -/
def LimitLineFits (st : LimitState) (szLine : Ptr) : Prop :=
  ¬[0x2f, 0x2f] <+: szLine →
    match st.loadingStage with
    | .label => [0x23, 0x23] <+: szLine → NamesFit 4 (0x20 :: hashText szLine)
    | .start => [0x23, 0x23] <+: szLine → 5 ≤ (hashText szLine).length
    | .columns => [0x23, 0x23] <+: szLine → ColumnsFit st szLine
    | .rows => if [0x23, 0x23] <+: szLine then 3 ≤ (hashText szLine).length else ChannelFits st szLine

/-! ### Names and numbers -/

section
variable {p q : Ptr} {c left right : UInt8} {ds : List UInt8} {out name channel powerLimit : Name} {cnt : Nat} {α : Type}

theorem mem_take_iff {n : Nat} : c ∈ p.take (n + 1) ↔ c ∈ p ∧ (p.takeWhile (· ≠ c)).length ≤ n := by
  induction p generalizing n with
  | nil => simp
  | cons a p ih =>
    rw [List.take_succ_cons, List.takeWhile_cons]
    by_cases ha : a = c
    · simp [ha]
    · rw [if_pos (by simpa using ha)]
      rcases n with _ | n
      · simp [Ne.symm ha]
      · rw [List.mem_cons, ih, List.mem_cons, List.length_cons]
        simp [Ne.symm ha]

theorem strncpy_ne_none (out : Name) {l : List UInt8} : strncpy out l ≠ none ↔ l.length ≤ 10 := by
  unfold strncpy
  split
  · case isTrue h => exact iff_of_true (Option.some_ne_none _) h
  · case isFalse h => exact iff_of_false (fun h' => h' rfl) h

/-- A string between qualifiers has at most ten bytes. -/
theorem qualified_ne_none (hp : Ended p) {f : Name × Ptr → Option α} {o : Option α} (ho : o ≠ none) :
    ((parseQualifiedString p out left right).bind fun r => r.elim o f) ≠ none ↔
      ∀ q, p = left :: q → right ∈ q.take 11 ∧ ∀ name, strncpy out (q.takeWhile (· ≠ right)) = some name →
        f (name, (q.dropWhile (· ≠ right)).tail) ≠ none := by
  obtain ⟨c, p, rfl⟩ := List.exists_cons_of_ne_nil hp.ne_nil
  unfold parseQualifiedString
  simp only [List.getElem?_cons_zero, Option.bind_eq_bind, Option.bind_some, List.drop_succ_cons, List.drop_zero,
    List.cons.injEq, and_imp]
  by_cases hc : c = left
  · subst hc
    rw [if_neg (not_not.mpr rfl), scanTo_eq]
    simp only [forall_true_left, forall_eq', mem_take_iff, ← strncpy_ne_none out]
    by_cases hmem : right ∈ p
    · rw [if_pos hmem, and_iff_right hmem, Option.bind_some]
      cases strncpy out (p.takeWhile (· ≠ right)) with
      | none => simp
      | some name => simp
    · rw [if_neg hmem]
      exact iff_of_false (fun h => h rfl) fun h => hmem h.1.1
  · rw [if_pos hc]
    exact iff_of_true ho fun q hq => absurd hq hc

theorem decimalLoop_ne_none (int : UInt8) : decimalLoop int p ≠ none ↔ ∃ c ∈ p, isDigit c = false := by
  induction p generalizing int with
  | nil => simp [decimalLoop]
  | cons c p ih =>
    rw [decimalLoop]
    by_cases h0 : c = 0
    · rw [if_pos h0]
      exact iff_of_true (Option.some_ne_none _) ⟨c, List.mem_cons_self .., by rw [h0]; rfl⟩
    · rw [if_neg h0]
      by_cases hd : isDigit c = true
      · rw [if_pos hd, ih]
        simp [hd]
      · rw [if_neg hd]
        exact iff_of_true (Option.some_ne_none _) ⟨c, List.mem_cons_self .., by simpa using hd⟩

/-- The buffer holds `ds`, and zeros behind. -/
def Holds (ds : List UInt8) (name : Name) : Prop := ds.length ≤ 10 ∧ name.toList = ds ++ List.replicate (10 - ds.length) 0

theorem holds_zeroName : Holds [] zeroName := ⟨Nat.zero_le _, Vector.toList_replicate⟩

theorem Holds.set (h : Holds ds name) (hlt : ds.length < 10) : Holds (ds ++ [c]) (name.set ds.length c hlt) := by
  obtain ⟨-, hl⟩ := h
  refine ⟨by rw [List.length_append, List.length_singleton]; omega, ?_⟩
  rw [Vector.toList_set, hl, List.set_append_right _ _ (Nat.le_refl _), Nat.sub_self,
    show 10 - ds.length = 10 - (ds ++ [c]).length + 1 by rw [List.length_append, List.length_singleton]; omega,
    List.replicate_succ, List.set_cons_zero, List.append_assoc]
  rfl

theorem decimalLoop_digits {int : UInt8} (hds : ∀ c ∈ ds, isDigit c = true) :
    decimalLoop int (ds ++ p) = decimalLoop (decValue int ds) p := by
  induction ds generalizing int with
  | nil => rfl
  | cons d ds ih =>
    have hd := hds d (List.mem_cons_self ..)
    have h0 : d ≠ 0 := by
      rintro rfl
      cases hd
    rw [List.cons_append, decimalLoop, if_neg h0, if_pos hd, ih fun c hc => hds c (List.mem_cons_of_mem _ hc)]
    rfl

/-- A number of ten digits has no end. -/
theorem Holds.decimal (h : Holds ds name) (hds : ∀ c ∈ ds, isDigit c = true) :
    getU1ByteIntegerFromStringInDecimal name.toList = if ds.length ≤ 9 then some (true, decValue 0 ds) else none := by
  obtain ⟨hlen, hl⟩ := h
  unfold getU1ByteIntegerFromStringInDecimal
  rw [hl, decimalLoop_digits hds]
  split
  · case isTrue h9 =>
    rw [show 10 - ds.length = 9 - ds.length + 1 by omega, List.replicate_succ, decimalLoop, if_pos rfl]
  · case isFalse h9 =>
    rw [show 10 - ds.length = 0 by omega]
    rfl

theorem channelLoop_eq (h : Ended p) (hn : Holds ds name) :
    if (ds ++ p.takeWhile isDigit).length ≤ 10 then
      ∃ name', Holds (ds ++ p.takeWhile isDigit) name' ∧ channelLoop ds.length name p = some (name', p.dropWhile isDigit)
    else channelLoop ds.length name p = none := by
  induction p generalizing ds name with
  | nil => exact h.elim
  | cons c p ih =>
    rw [channelLoop, List.takeWhile_cons, List.dropWhile_cons]
    by_cases hc : isDigit c = true
    · rw [if_pos hc, if_pos hc, if_pos hc]
      have hp : Ended p := by
        refine h.tail ⟨?_, ?_⟩
        · rintro rfl
          cases hc
        · rintro rfl
          cases hc
      by_cases hlt : ds.length < 10
      · rw [dif_pos hlt]
        have hlen : ds.length + 1 = (ds ++ [c]).length := by rw [List.length_append, List.length_singleton]
        rw [hlen]
        simpa only [List.append_assoc, List.singleton_append] using ih hp (hn.set hlt)
      · rw [dif_neg hlt, if_neg (by rw [List.length_append, List.length_cons]; omega)]
    · rw [if_neg hc, if_neg hc, if_neg hc, List.append_nil, if_pos hn.1]
      exact ⟨name, hn, rfl⟩

theorem limitLoop_eq : limitLoop cnt name p = (channelLoop cnt name p).bind fun r =>
    (limitFraction r.2).map fun o => o.map fun f => (cnt + (p.takeWhile isDigit).length, r.1, f) := by
  induction p generalizing cnt name with
  | nil => rfl
  | cons c p ih =>
    rw [limitLoop, channelLoop, List.takeWhile_cons]
    by_cases hdot : c = 0x2e
    · subst hdot
      rw [if_pos rfl, if_neg (by decide), if_neg (by decide)]
      rcases p with _ | ⟨d, p⟩
      · rfl
      · by_cases hd : isDigit d = true
        · simp [limitFraction, hd]
        · simp [limitFraction, hd]
    · rw [if_neg hdot]
      by_cases hc : isDigit c = true
      · rw [if_pos hc, if_pos hc, if_pos hc]
        split
        · rw [ih, List.length_cons, Nat.add_right_comm, Nat.add_assoc]
        · rfl
      · rw [if_neg hc, if_neg hc, if_neg hc]
        simp [limitFraction, hdot]

end

/-! ### A limit -/

section
variable {t : LimitTables} {band regulation bandwidth rateSection rfPath channel powerLimit name : Name} {ds : List UInt8}
  {rg bw rs bwNum chNum : Nat} {ch : UInt8} {limit : Int8} {limits : LimitIdx → Int8} {i : LimitIdx}

theorem begins_name {s : List UInt8} (hs : s.length ≤ 10) : begins name.toList s = some (decide (s <+: name.toList)) :=
  begins_eq (by rw [Vector.length_toList]; exact hs)

theorem regulationIdx_lt (name : Name) : ∃ i < 4, regulationIdx name = some i := by
  unfold regulationIdx
  rw [begins_name (by decide), begins_name (by decide), begins_name (by decide), begins_name (by decide)]
  refine ⟨_, ?_, rfl⟩
  split_ifs <;> decide

theorem bandwidthIdx_lt (name : Name) : ∃ i < 4, bandwidthIdx name = some i := by
  unfold bandwidthIdx
  rw [begins_name (by decide), begins_name (by decide), begins_name (by decide), begins_name (by decide)]
  refine ⟨_, ?_, rfl⟩
  split_ifs <;> decide

theorem rateSectionIdx_lt (rateSection rfPath : Name) : ∃ o, (∀ i ∈ o, i < 10) ∧ rateSectionIdx rateSection rfPath = some o := by
  unfold rateSectionIdx
  rw [begins_name (by decide), begins_name (by decide), begins_name (by decide), begins_name (by decide),
    begins_name (by decide), begins_name (by decide), begins_name (by decide), begins_name (by decide)]
  refine ⟨_, ?_, rfl⟩
  split_ifs <;> simp

theorem storeLimit_ne_none (h₁ : i.1 < 4) (h₂ : i.2.1 < bwNum) (h₃ : i.2.2.1 < 10) :
    storeLimit bwNum chNum limits i limit ≠ none ↔ 0 ≤ i.2.2.2 ∧ i.2.2.2 < chNum := by
  unfold storeLimit
  split
  · case isTrue h => exact iff_of_true (Option.some_ne_none _) h.2.2.2
  · case isFalse h => exact iff_of_false (fun h' => h' rfl) fun h' => h ⟨h₁, h₂, h₃, h'⟩

/-- The index of a channel above 14 is outside of the table. -/
theorem channelIndex_on2_4G (hne : phyGetChannelIndexOfTxPowerLimit .on2_4G ch ≠ -1) :
    0 ≤ (phyGetChannelIndexOfTxPowerLimit .on2_4G ch).toInt ∧ (phyGetChannelIndexOfTxPowerLimit .on2_4G ch).toInt < 14 ↔
      ch ≤ 14 := by
  have hint : (phyGetChannelIndexOfTxPowerLimit .on2_4G ch).toInt = (ch - 1).toBitVec.toInt := rfl
  rw [ne_eq, ← Int8.toInt_inj, hint, show (-1 : Int8).toInt = -1 by rfl, BitVec.toInt_eq_toNat_cond] at hne
  rw [hint, BitVec.toInt_eq_toNat_cond, UInt8.le_iff_toNat_le]
  have hlt := ch.toNat_lt
  have hsub : (ch - 1).toBitVec.toNat = (256 - 1 + ch.toNat) % 256 := UInt8.toNat_sub ..
  have h14 : (14 : UInt8).toNat = 14 := rfl
  rw [hsub] at hne ⊢
  split_ifs at hne ⊢ <;> omega

theorem channelIndex_on5G (hne : phyGetChannelIndexOfTxPowerLimit .on5G ch ≠ -1) :
    0 ≤ (phyGetChannelIndexOfTxPowerLimit .on5G ch).toInt ∧ (phyGetChannelIndexOfTxPowerLimit .on5G ch).toInt < 49 := by
  have hall : ∀ e ∈ centerCh5gAll.zipIdx, 0 ≤ (Int8.ofNat e.2).toInt ∧ (Int8.ofNat e.2).toInt < 49 := by decide
  refine Or.resolve_left ?_ hne
  unfold phyGetChannelIndexOfTxPowerLimit
  refine List.foldlRecOn (motive := fun i : Int8 => i = -1 ∨ 0 ≤ i.toInt ∧ i.toInt < 49) _ _ (Or.inl rfl) fun i hi e he => ?_
  split
  · exact Or.inr (hall e he)
  · exact hi

theorem setTxPowerLimitAt_ne_none (hrg : rg < 4) (hbw : bw < 4) (hrs : rs < 10) :
    setTxPowerLimitAt t band rg bw rs ch limit ≠ none ↔ ([0x32, 0x2e, 0x34, 0x47] <+: band.toList → ch ≤ 14) := by
  unfold setTxPowerLimitAt
  rw [begins_name (by decide), begins_name (by decide)]
  simp only [Option.bind_eq_bind, Option.bind_some, decide_eq_true_eq]
  have hbind {α β : Type} {x : Option α} {g : α → β} : (x.bind fun a => some (g a)) ≠ none ↔ x ≠ none := by
    cases x with
    | none => exact iff_of_false (fun h => h rfl) fun h => h rfl
    | some a => exact iff_of_true (Option.some_ne_none _) (Option.some_ne_none _)
  split
  · case isTrue hband =>
    rw [forall_prop_of_true hband]
    split
    · case isTrue hch =>
      refine iff_of_true (Option.some_ne_none _) ?_
      have h0 : ch = 0 := by
        have h : ch - 1 = 255 := UInt8.toBitVec_inj.mp (congrArg Int8.toBitVec hch)
        rw [← UInt8.sub_add_cancel ch 1, h]
        rfl
      rw [h0]
      decide
    · case isFalse hch =>
      refine hbind.trans ((storeLimit_ne_none hrg ?_ hrs).trans (channelIndex_on2_4G hch))
      dsimp only
      split <;> omega
  · case isFalse hband =>
    refine iff_of_true ?_ fun h => absurd h hband
    split
    · split
      · exact Option.some_ne_none _
      · case isFalse hch => exact hbind.mpr ((storeLimit_ne_none hrg hbw hrs).mpr (channelIndex_on5G hch))
    · exact Option.some_ne_none _

theorem phySetTxPowerLimit_ne_none (t : LimitTables) (regulation : Name) (st : LimitState) (hch : Holds ds channel) (hds : ∀ c ∈ ds, isDigit c = true)
    (hlim : ∃ c ∈ powerLimit.toList, isDigit c = false) :
    phySetTxPowerLimit t regulation st.band st.bandwidth st.rateSection st.rfPath channel powerLimit ≠ none ↔
      st.StoreFits ds := by
  unfold phySetTxPowerLimit LimitState.StoreFits
  rw [hch.decimal hds]
  split
  · case isTrue h9 =>
    obtain ⟨v, hv⟩ := Option.ne_none_iff_exists'.mp ((decimalLoop_ne_none 0).mpr hlim)
    obtain ⟨rg, hrg, hreg⟩ := regulationIdx_lt regulation
    obtain ⟨o, ho, hrs⟩ := rateSectionIdx_lt st.rateSection st.rfPath
    obtain ⟨bw, hbw, hband⟩ := bandwidthIdx_lt st.bandwidth
    rw [getU1ByteIntegerFromStringInDecimal, hv, hreg, hrs, hband, and_iff_right h9]
    cases o with
    | none => exact iff_of_true (Option.some_ne_none _) fun h => absurd rfl h
    | some rs =>
      rw [forall_prop_of_true (by simp)]
      exact setTxPowerLimitAt_ne_none hrg hbw (ho rs rfl)
  · case isFalse h9 => exact iff_of_false (fun h => h rfl) fun h => h9 h.1

/-! ### Rows -/

theorem isDigit_overwrite {l : List UInt8} (hl : l.length < 10) : ∃ c ∈ (overwrite name l).toList, isDigit c = false := by
  refine ⟨0, ?_, rfl⟩
  rw [Vector.mem_toList_iff, Vector.mem_iff_getElem]
  refine ⟨l.length, hl, ?_⟩
  simp [overwrite]

theorem length_limitDigits {v : UInt8} : (limitDigits v).length < 10 := by
  unfold limitDigits
  split_ifs <;> simp

/-- A limit is stored also without digits. -/
theorem doubleLimit_eq (fraction : UInt8) (p : Ptr) (hn : Holds ds name) (hds : ∀ c ∈ ds, isDigit c = true) :
    if ds.length ≤ 9 then
      ∃ powerLimit, (∃ c ∈ powerLimit.toList, isDigit c = false) ∧
        doubleLimit ds.length name fraction p = some (some (powerLimit, if ds = [] then p.drop 2 else p))
    else doubleLimit ds.length name fraction p = none := by
  unfold doubleLimit
  rw [hn.decimal hds]
  rcases ds with _ | ⟨d, ds⟩
  · exact ⟨_, isDigit_overwrite (by decide), rfl⟩
  · rw [if_neg (show (d :: ds).length ≠ 0 from Nat.succ_ne_zero _)]
    split
    · exact ⟨_, isDigit_overwrite length_limitDigits, rfl⟩
    · rfl

theorem limitFraction_ended {p : Ptr} (h : Ended p) : limitFraction p = some none ∨
    ∃ fraction next, limitFraction p = some (some (fraction, next)) ∧ Ended next := by
  obtain ⟨c, p, rfl⟩ := List.exists_cons_of_ne_nil h.ne_nil
  simp only [limitFraction]
  split
  · case isTrue hc =>
    subst hc
    have hp : Ended p := h.tail (by decide)
    obtain ⟨d, q, rfl⟩ := List.exists_cons_of_ne_nil hp.ne_nil
    rw [List.head?_cons, Option.map_some]
    split
    · case isTrue hd =>
      refine Or.inr ⟨d, q, rfl, hp.tail ⟨?_, ?_⟩⟩
      · rintro rfl
        cases hd
      · rintro rfl
        cases hd
    · exact Or.inl rfl
  · exact Or.inr ⟨0, c :: p, rfl, h⟩

theorem forall_read {α β : Type} {a : α} {b : β} {P : α → β → Prop} :
    (∀ x y, some (some (a, b)) = some (some (x, y)) → P x y) ↔ P a b := by
  constructor
  · exact fun h => h a b rfl
  · rintro h _ _ ⟨⟩
    exact h

theorem isDigit_of_mem_takeWhile {p : Ptr} : ∀ c ∈ p.takeWhile isDigit, isDigit c = true := fun _ hc => List.mem_takeWhile_imp hc

/-- The limits of a row. Storing one changes the tables only. -/
theorem limitRowLoop_ne_none (hch : Holds ds channel) (hds : ∀ c ∈ ds, isDigit c = true) {ks : List (Fin 4)} :
    ∀ {st : LimitState} {p : Ptr}, p = [] ∨ Ended p →
      (limitRowLoop channel st ks p ≠ none ↔ LimitsFit (st.StoreFits ds) ks.length p) := by
  induction ks with
  | nil => exact fun _ => iff_of_true (Option.some_ne_none _) trivial
  | cons k ks ih =>
    intro st p hp
    rw [limitRowLoop, List.length_cons, LimitsFit]
    rcases hp with rfl | hp
    · exact iff_of_false (fun h => h rfl) fun h => h.1 rfl
    · have hq := ended_dropBlanks hp
      rw [skipBlanks_eq hp, and_iff_right hp.ne_nil]
      generalize p.dropWhile isBlank = q at hq
      simp only [Option.bind_eq_bind, Option.bind_some]
      rw [limitLoop_eq, Nat.zero_add]
      have hloop := channelLoop_eq hq holds_zeroName
      rw [List.nil_append, List.length_nil] at hloop
      split at hloop
      · case isTrue h10 =>
        obtain ⟨name, hname, hloop⟩ := hloop
        rw [hloop, Option.bind_some, and_iff_right h10]
        rcases limitFraction_ended (hq.dropWhile (f := isDigit) rfl rfl) with hf | ⟨fraction, next, hf, hnext⟩
        · rw [hf]
          exact iff_of_true (Option.some_ne_none _) fun _ _ h => by cases h
        · rw [hf, forall_read]
          simp only [Option.map_some, Option.bind_some, Option.elim_some]
          have hdouble := doubleLimit_eq fraction next hname isDigit_of_mem_takeWhile
          split at hdouble
          · case isTrue h9 =>
            obtain ⟨powerLimit, hlim, hdouble⟩ := hdouble
            have hset := phySetTxPowerLimit_ne_none st.tables (st.regulation k) st hch hds hlim
            rw [hdouble, and_iff_right h9]
            simp only [Option.bind_some, Option.elim_some]
            cases hstore : phySetTxPowerLimit st.tables (st.regulation k) st.band st.bandwidth st.rateSection st.rfPath
                channel powerLimit with
            | none => exact iff_of_false (fun h => h rfl) fun h => hset.mpr h.1 hstore
            | some tables =>
              rw [hstore] at hset
              rw [and_iff_right (hset.mp (Option.some_ne_none _)), Option.bind_some]
              refine ih ?_
              split
              · rw [or_iff_not_imp_left]
                exact hnext.suffix (List.drop_suffix 2 next)
              · exact Or.inr hnext
          · case isFalse h9 =>
            rw [hdouble]
            exact iff_of_false (fun h => h rfl) fun h => h9 h.1
      · case isFalse h10 =>
        rw [hloop]
        exact iff_of_false (fun h => h rfl) fun h => h10 h.1

end

/-! ### Lines -/

section
variable {st : LimitState} {p szLine : Ptr} {name : Name} {cnt n : Nat}

theorem isHashes_eq (h : Ended p) : isHashes p = some (decide ([0x23, 0x23] <+: p)) := twice_eq h (by decide)

theorem ended_hashText (h : Ended szLine) (hh : [0x23, 0x23] <+: szLine) :
    skipBlanks (szLine.drop 2) = some (hashText szLine) ∧ Ended (hashText szLine) := by
  obtain ⟨p, rfl⟩ := hh
  have hp : Ended p := (h.tail (by decide)).tail (by decide)
  exact ⟨skipBlanks_eq hp, ended_dropBlanks hp⟩

/-- The names of a label. -/
theorem name_ne_none {f : Name × Ptr → Option (Next LimitState)} (hp : Ended p) (st : LimitState) (out : Name)
    (hf : ∀ name q, Ended q → (f (name, q) ≠ none ↔ NamesFit n q)) :
    ((parseQualifiedString p out 0x20 0x2c).bind fun r => r.elim (some (.done false st)) f) ≠ none ↔ NamesFit (n + 1) p := by
  rw [qualified_ne_none hp (Option.some_ne_none _), NamesFit]
  refine forall_congr' fun q => forall_congr' fun hq => and_congr_right fun hmem => ?_
  subst hq
  rw [mem_take_iff] at hmem
  have hrest := ended_behind (hp.tail (by decide)) hmem.1 (by decide)
  obtain ⟨name, hname⟩ := Option.ne_none_iff_exists'.mp ((strncpy_ne_none out).mpr hmem.2)
  rw [hname]
  simp only [Option.some.injEq, forall_eq']
  exact hf name _ hrest

theorem limitLabel_ne_none (h : Ended szLine) :
    limitLabel st szLine ≠ none ↔ ([0x23, 0x23] <+: szLine → NamesFit 4 (0x20 :: hashText szLine)) := by
  unfold limitLabel
  rw [isHashes_eq h]
  simp only [Option.bind_eq_bind, Option.bind_some, decide_eq_true_eq]
  split
  · case isTrue hh =>
    obtain ⟨hskip, hp⟩ := ended_hashText h hh
    rw [forall_prop_of_true hh, hskip, Option.bind_some]
    exact name_ne_none hp.cons _ _ fun _ _ hp => name_ne_none hp _ _ fun _ _ hp => name_ne_none hp _ _ fun _ _ hp =>
      name_ne_none hp _ _ fun _ _ _ => iff_of_true (Option.some_ne_none _) trivial
  · case isFalse hh => exact iff_of_true (Option.some_ne_none _) fun h => absurd h hh

theorem begins_ne_none {s : List UInt8} {α : Type} {f : Bool → α} (hs : s ≠ []) :
    ((begins p s).bind fun b => some (f b)) ≠ none ↔ s.length ≤ p.length := by
  by_cases hle : s.length ≤ p.length
  · rw [begins_eq hle]
    exact iff_of_true (Option.some_ne_none _) hle
  · rw [(begins_eq_none hs).mpr (by omega)]
    exact iff_of_false (fun h => h rfl) hle

theorem limitStart_ne_none (h : Ended szLine) :
    limitStart st szLine ≠ none ↔ ([0x23, 0x23] <+: szLine → 5 ≤ (hashText szLine).length) := by
  unfold limitStart
  rw [isHashes_eq h]
  simp only [Option.bind_eq_bind, Option.bind_some, decide_eq_true_eq]
  split
  · case isTrue hh =>
    rw [forall_prop_of_true hh, (ended_hashText h hh).1, Option.bind_some]
    exact begins_ne_none (by decide)
  · case isFalse hh => exact iff_of_true (Option.some_ne_none _) fun h => absurd h hh

theorem nameLoop_eq (name : Name) (hcnt : cnt ≤ 10) :
    if (p.take (11 - cnt)).any isNameEnd then
      ∃ name', nameLoop cnt name p = some (cnt + (p.takeWhile (!isNameEnd ·)).length, name', p.dropWhile (!isNameEnd ·))
    else nameLoop cnt name p = none := by
  induction p generalizing cnt name with
  | nil => simp [nameLoop]
  | cons c p ih =>
    have hiff : isBlank c = true ∨ c = 0 ↔ isNameEnd c = true := by simp [isNameEnd]
    rw [nameLoop, List.takeWhile_cons, List.dropWhile_cons, show 11 - cnt = 10 - cnt + 1 by omega, List.take_succ_cons]
    simp only [hiff]
    by_cases hc : isNameEnd c = true
    · rw [if_pos (by simp [hc]), if_pos hc]
      exact ⟨name, by simp [hc]⟩
    · have hno : (!isNameEnd c) = true := by simpa using hc
      have hany {l : List UInt8} : (c :: l).any isNameEnd = l.any isNameEnd := by simp [hc]
      rw [if_neg hc, hany, if_pos hno, if_pos hno, List.length_cons]
      by_cases hlt : cnt < 10
      · rw [dif_pos hlt, show 10 - cnt = 11 - (cnt + 1) by omega,
          show cnt + ((p.takeWhile (!isNameEnd ·)).length + 1) = cnt + 1 + (p.takeWhile (!isNameEnd ·)).length by omega]
        exact ih _ hlt
      · rw [dif_neg hlt, show 10 - cnt = 0 by omega, if_neg (by simp)]

/-- The names of the columns. -/
theorem regulationLoop_ne_none {ks : List (Fin 4)} :
    ∀ {st : LimitState} {p : Ptr}, Ended p → (regulationLoop st ks p ≠ none ↔ RegulationsFit ks.length p) := by
  induction ks with
  | nil => exact fun _ => iff_of_true (Option.some_ne_none _) trivial
  | cons k ks ih =>
    intro st p hp
    rw [regulationLoop, List.length_cons, RegulationsFit, skipBlanks_eq hp]
    have hq := ended_dropBlanks hp
    generalize p.dropWhile isBlank = q at hq
    simp only [Option.bind_eq_bind, Option.bind_some]
    have hname := nameLoop_eq (p := q) (st.regulation k) (Nat.zero_le 10)
    rw [Nat.sub_zero] at hname
    split at hname
    · case isTrue hend =>
      obtain ⟨name, hname⟩ := hname
      have hrest : Ended (q.dropWhile (!isNameEnd ·)) := by
        refine hq.suffix (List.dropWhile_suffix _) fun hnil => ?_
        obtain ⟨c, hc, hce⟩ := List.any_eq_true.mp hend
        have hno := List.dropWhile_eq_nil_iff.mp hnil c (List.mem_of_mem_take hc)
        rw [hce] at hno
        cases hno
      rw [hname, and_iff_right hend, Option.bind_some, Nat.zero_add]
      simp only [List.length_eq_zero_iff]
      split
      · case isTrue hnil => exact iff_of_true (Option.some_ne_none _) fun hne => absurd hnil hne
      · case isFalse hne =>
        rw [forall_prop_of_true hne]
        exact ih hrest
    · case isFalse hend =>
      rw [hname]
      exact iff_of_false (fun h => h rfl) fun h => hend h.1

theorem length_columnsOf {colNum : UInt8} (h : colNum ≤ 4) : (columnsOf colNum).length = colNum.toNat := by
  rw [columnsOf, List.length_take, List.length_finRange]
  exact Nat.min_eq_left (UInt8.le_iff_toNat_le.mp h)

theorem limitColumns_ne_none (h : Ended szLine) :
    limitColumns st szLine ≠ none ↔ ([0x23, 0x23] <+: szLine → ColumnsFit st szLine) := by
  unfold limitColumns ColumnsFit
  rw [isHashes_eq h]
  simp only [Option.bind_eq_bind, Option.bind_some, decide_eq_true_eq]
  split
  · case isTrue hh =>
    obtain ⟨hskip, hp⟩ := ended_hashText h hh
    rw [forall_prop_of_true hh, hskip, Option.bind_some, qualified_ne_none hp (Option.some_ne_none _)]
    refine forall_congr' fun q => forall_congr' fun hq => and_congr_right fun hmem => ?_
    refine forall_congr' fun colNumBuf => forall_congr' fun _ => ?_
    rw [hq] at hp
    have hrest := ended_behind (hp.tail (by decide)) (List.mem_of_mem_take hmem) (by decide)
    rw [← decimalLoop_ne_none 0]
    unfold getU1ByteIntegerFromStringInDecimal
    rcases decimalLoop 0 colNumBuf.toList with _ | ⟨b, v⟩
    · simp
    · rw [and_iff_right (Option.some_ne_none _), Option.bind_some]
      dsimp only
      cases b with
      | false => simp
      | true =>
        by_cases hv : v ≤ 4
        · rw [if_neg (by simpa using hv), regulationLoop_ne_none hrest, length_columnsOf hv]
          simp [hv]
        · rw [if_pos (Or.inr (by simpa using hv))]
          simp [hv]
  · case isFalse hh => exact iff_of_true (Option.some_ne_none _) fun h => absurd h hh

theorem limitRow_ne_none (h : Ended szLine) : limitRow st szLine ≠ none ↔
    if [0x23, 0x23] <+: szLine then 3 ≤ (hashText szLine).length else ChannelFits st szLine := by
  unfold limitRow ChannelFits
  rw [isHashes_eq h]
  simp only [Option.bind_eq_bind, Option.bind_some, decide_eq_true_eq]
  split
  · case isTrue hh =>
    rw [(ended_hashText h hh).1, Option.bind_some]
    exact begins_ne_none (by decide)
  · obtain ⟨c, p, rfl⟩ := List.exists_cons_of_ne_nil h.ne_nil
    rw [List.getElem?_cons_zero, Option.bind_some]
    split
    · case isTrue hc =>
      have hp : Ended p := by
        refine h.tail ?_
        rcases hc with rfl | rfl <;> decide
      obtain ⟨e, q, rfl⟩ := List.exists_cons_of_ne_nil hp.ne_nil
      rw [List.getElem?_cons_succ, List.getElem?_cons_zero, Option.bind_some]
      simp only [List.cons.injEq, and_imp]
      split
      · case isTrue he =>
        have hq : Ended q := by
          refine hp.tail ?_
          rcases he with rfl | rfl <;> decide
        have hloop := channelLoop_eq hq holds_zeroName
        rw [List.nil_append, List.length_nil] at hloop
        have hcond {P : Ptr → Prop} : (∀ c' e' q', c = c' → e = e' → q = q' → (c' = 0x63 ∨ c' = 0x43) →
            (e' = 0x68 ∨ e' = 0x48) → P q') ↔ P q := by
          constructor
          · exact fun h => h c e q rfl rfl rfl hc he
          · rintro h _ _ _ rfl rfl rfl - -
            exact h
        rw [hcond (P := fun q => (q.takeWhile isDigit).length ≤ 10 ∧ LimitsFit (st.StoreFits (q.takeWhile isDigit))
          (columnsOf st.colNum).length (q.dropWhile isDigit))]
        simp only [List.drop_succ_cons, List.drop_zero]
        split at hloop
        · case isTrue h10 =>
          obtain ⟨name, hname, hloop⟩ := hloop
          rw [hloop, and_iff_right h10, Option.bind_some]
          exact limitRowLoop_ne_none hname isDigit_of_mem_takeWhile (Or.inr (hq.dropWhile rfl rfl))
        · case isFalse h10 =>
          rw [hloop]
          exact iff_of_false (fun h => h rfl) fun h => h10 h.1
      · case isFalse he =>
        refine iff_of_true (Option.some_ne_none _) ?_
        rintro _ _ _ rfl rfl rfl - he'
        exact absurd he' he
    · case isFalse hc =>
      refine iff_of_true (Option.some_ne_none _) ?_
      rintro c' _ _ heq hc' -
      cases heq
      exact absurd hc' hc

/-- A line is read inside the buffers exactly if it fits. -/
theorem limitLine_ne_none (h : Ended szLine) : limitLine st szLine ≠ none ↔ LimitLineFits st szLine := by
  unfold limitLine LimitLineFits
  rw [isCommentString_eq h]
  simp only [Option.bind_eq_bind, Option.bind_some, decide_eq_true_eq]
  split
  · case isTrue hcom => exact iff_of_true (Option.some_ne_none _) fun hne => absurd hcom hne
  · case isFalse hcom =>
    rw [forall_prop_of_true hcom]
    cases st.loadingStage with
    | label => exact limitLabel_ne_none h
    | start => exact limitStart_ne_none h
    | columns => exact limitColumns_ne_none h
    | rows => exact limitRow_ne_none h

end

end Rtw
