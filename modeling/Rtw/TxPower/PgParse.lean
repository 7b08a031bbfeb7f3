import Rtw.TxPower.ByRateConf
import Rtw.TxPower.PgValues

/-!
# Parsing a well-formed PHY_REG_PG text

`pgLine` is followed through the lines of a text. `parse_text`: the offsets are then what the text gives, and
`byRate_base_add`: after the configuration base and offset add up to it, but for CCK rates on 5G, for which there is no
base.
-/

namespace Rtw
open Para

variable {a : PgAdapter} {st : PgState} {p : Ptr} {c : UInt8} {l : List UInt8}

/-- The first line has been read: version 1, exact values. -/
structure PgState.Ready (st : PgState) : Prop where
  firstLine : st.firstLine = false
  version : st.phyRegPgVersion = 1
  exact : st.phyRegPgValueType = .exact

theorem pgLine_skip (x : SkipText) : pgLine a st (x.bytes ++ 0 :: p) = some (.next st) := by
  unfold pgLine
  rcases x.skip with h | ⟨c, l, h, hc⟩ | ⟨l, h⟩
  · rw [h]
    rfl
  · rw [h]
    rcases blank_cases hc with rfl | rfl
    · rfl
    · rfl
  · rw [h]
    rfl

/-- A line that begins with `#`, `[` or a digit is read. -/
theorem pgLine_cons (hc : c = 0x23 ∨ c = 0x5b ∨ c = 0x30) : pgLine a st (c :: l) =
    if st.firstLine then pgHeader st (c :: l)
    else if st.phyRegPgVersion = 0 then pgLineV0 a st (c :: l)
    else pgLineV1 a st (c :: l) := by
  rcases hc with rfl | rfl | rfl
  · rfl
  · rfl
  · rfl

theorem pgLine_ready (h : st.Ready) (hc : c = 0x23 ∨ c = 0x5b ∨ c = 0x30) : pgLine a st (c :: l) = pgLineV1 a st (c :: l) := by
  rw [pgLine_cons hc, h.firstLine, h.version]
  rfl

theorem pgLine_header (h : st.firstLine = true) :
    pgLine a st ([0x23, 0x5b, 0x76, 0x31, 0x5d, 0x5b, 0x45, 0x78, 0x61, 0x63, 0x74, 0x5d, 0x23] ++ l) =
      some (.next { st with phyRegPgVersion := 1, phyRegPgValueType := .exact, firstLine := false }) := by
  rw [List.cons_append, pgLine_cons (Or.inl rfl), h]
  rfl

/-- The two comparisons that come first. -/
theorem pgLineV1_cons (hlen : 7 ≤ (c :: l).length) (hstop : c ≠ 0x30) :
    pgLineV1 a st (c :: l) =
      if [0x23, 0x5b, 0x45, 0x4e, 0x44, 0x5d, 0x23] <+: c :: l then some (.next st)
      else if c = 0x23 then pgHeading st (c :: l) else pgRow a st (c :: l) := by
  have hbegins : begins (c :: l) [0x30, 0x78, 0x66, 0x66, 0x66, 0x66] = some false := by
    rw [begins_eq (by simp at hlen ⊢; omega)]
    refine congrArg some (decide_eq_false fun h => hstop ?_)
    exact (List.cons_prefix_cons.mp h).1.symm
  unfold pgLineV1
  rw [hbegins]
  show (eqNByte _ _ 7).bind _ = _
  rw [eqNByte_eq (by decide) hlen, Option.bind_some]
  have hiff : [0x23, 0x5b, 0x45, 0x4e, 0x44, 0x5d, 0x23].take 7 = (c :: l).take 7 ↔
      [0x23, 0x5b, 0x45, 0x4e, 0x44, 0x5d, 0x23] <+: c :: l := List.prefix_iff_eq_take.symm
  simp only [hiff, decide_eq_true_eq]
  rfl

theorem pgLine_tableEnd (h : st.Ready) : pgLine a st ([0x23, 0x5b, 0x45, 0x4e, 0x44, 0x5d, 0x23] ++ l) = some (.next st) := by
  rw [List.cons_append, pgLine_ready h (Or.inl rfl), pgLineV1_cons (by simp) (by decide)]
  exact if_pos (List.prefix_append ..)

theorem pgLine_stop (h : st.Ready) : pgLine a st ([0x30, 0x78, 0x66, 0x66, 0x66, 0x66] ++ l) = some (.done true st) := by
  rw [List.cons_append, pgLine_ready h (Or.inr (Or.inr rfl)), pgLineV1, ← List.cons_append, begins_append]
  rfl

theorem pgLine_heading (h : st.Ready) (t : PgTable) : pgLine a st (t.heading ++ 0 :: p) =
    some (.next { st with band := t.band, rfPath := UInt8.ofNat t.path.val }) := by
  have hsub : UInt8.ofNat (0x41 + t.path.val) - 0x41 = UInt8.ofNat t.path.val := by
    rw [UInt8.ofNat_add, UInt8.add_comm]
    exact UInt8.add_sub_cancel _ _
  unfold PgTable.heading
  cases hband : t.band with
  | on2_4G =>
    rw [List.append_assoc, List.cons_append, pgLine_ready h (Or.inl rfl), pgLineV1_cons (by simp) (by decide), if_neg, if_pos rfl]
    · rw [← hsub]
      rfl
    · simp
  | on5G =>
    rw [List.append_assoc, List.cons_append, pgLine_ready h (Or.inl rfl), pgLineV1_cons (by simp) (by decide), if_neg, if_pos rfl]
    · have hbegins : begins (0x23 :: ([0x5b, 0x35, 0x47, 0x5d, 0x5b] ++ (UInt8.ofNat (0x41 + t.path.val) :: t.rest ++ 0 :: p)))
          [0x23, 0x5b, 0x32, 0x2e, 0x34, 0x47, 0x5d] = some false := by
        rw [begins_eq (by simp)]
        exact congrArg some (decide_eq_false (by simp))
      unfold pgHeading
      rw [hbegins, ← hsub]
      rfl
    · simp

/-- What a row does to the state. -/
def PgRowText.apply (r : PgRowText) (st : PgState) : PgState :=
  { st with
    txNum := r.nTx - 0x31
    byRate := phyStoreTxPowerByRateNew st.byRate st.band st.rfPath (r.nTx - 0x31) r.addr.value r.mask.value
      (rowWord r.values 0) }

theorem pgRowValue_exact {band : BandType} {rfPath txNum : UInt8} {regAddr bitMask w : UInt32} (hv : st.phyRegPgVersion = 1)
    (ht : st.phyRegPgValueType = .exact) (hw : combineValues 4 0 p = some (some w)) :
    pgRowValue a st band rfPath txNum regAddr bitMask p =
      some (.next { st with byRate := phyStoreTxPowerByRateNew st.byRate band rfPath txNum regAddr bitMask w }) := by
  have hstore : phyStoreTxPowerByRate a st band rfPath txNum regAddr bitMask w =
      some { st with byRate := phyStoreTxPowerByRateNew st.byRate band rfPath txNum regAddr bitMask w } :=
    if_pos (by rw [hv]; decide)
  unfold pgRowValue orFail
  rw [ht, hw]
  show (phyStoreTxPowerByRate a st band rfPath txNum regAddr bitMask w).map Next.next = _
  rw [hstore, Option.map_some, ht]

theorem pgLine_row (h : st.Ready) (r : PgRowText) : pgLine a st (r.bytes ++ 0 :: p) = some (.next (r.apply st)) := by
  -- what is behind the values
  obtain ⟨c, q, hq, hc, hdot⟩ : ∃ c q, r.tail ++ 0 :: p = c :: q ∧ isDigit c = false ∧ c ≠ 0x2e := by
    rcases htail : r.tail with _ | ⟨c, l⟩
    · exact ⟨0, p, rfl, rfl, by decide⟩
    · exact ⟨c, l ++ 0 :: p, rfl, r.tail_head c (by rw [htail]; exact rfl)⟩
  -- the mask and the first value begin with a blank
  obtain ⟨b, q', hq', hb⟩ : ∃ b q', r.mask.bytes ++ (r.values.flatMap ValueText.bytes ++ c :: q) = b :: q' ∧
      isBlank b = true := by
    obtain ⟨b, bs, hbs⟩ := List.exists_cons_of_ne_nil r.mask_blanks
    refine ⟨b, _, by rw [HexText.bytes, hbs]; rfl, r.mask.blank b ?_⟩
    rw [hbs]
    exact List.mem_cons_self ..
  obtain ⟨b', q'', hq'', hb'⟩ : ∃ b q', r.values.flatMap ValueText.bytes ++ c :: q = b :: q' ∧ isBlank b = true := by
    obtain ⟨v₀, v₁, v₂, v₃, hv⟩ := r.exists_values
    obtain ⟨b, bs, hbs⟩ := List.exists_cons_of_ne_nil v₀.blanks_ne
    refine ⟨b, _, by rw [hv, List.flatMap_cons, ValueText.bytes, hbs]; rfl, v₀.blank b ?_⟩
    rw [hbs]
    exact List.mem_cons_self ..
  rw [hq''] at hq'
  have hline : r.bytes ++ 0 :: p = 0x5b :: r.nTx :: (r.label ++ 0x5d :: (r.addr.bytes ++ b :: q')) := by
    rw [← hq', ← hq'', ← hq]
    simp [PgRowText.bytes]
  have hlen : 7 ≤ (0x5b :: r.nTx :: (r.label ++ 0x5d :: (r.addr.bytes ++ b :: q'))).length := by
    have haddr := List.length_pos_iff.mpr r.addr.digits_ne
    have hmask := List.length_pos_iff.mpr r.mask.digits_ne
    have hblanks := List.length_pos_iff.mpr r.mask_blanks
    have hq'len := congrArg List.length hq'
    simp only [HexText.bytes, List.length_append, List.length_cons] at hq'len ⊢
    omega
  have hnum := r.nTx_mem
  have hopen : 0x5d ∉ 0x5b :: r.nTx :: r.label := by
    rw [List.mem_cons, List.mem_cons, not_or, not_or]
    refine ⟨by decide, fun h => ?_, r.label_open⟩
    rw [← h] at hnum
    exact absurd hnum (by decide)
  have hscan : scanTo 0x5d (0x5b :: r.nTx :: (r.label ++ 0x5d :: (r.addr.bytes ++ b :: q'))) =
      some (0x5b :: r.nTx :: r.label, r.addr.bytes ++ b :: q') := scanTo_append (t := 0x5b :: r.nTx :: r.label) hopen
  have hvalues : combineValues 4 0 (b' :: q'') = some (some (rowWord r.values 0)) := by
    rw [← hq'', ← r.values_length]
    exact combineValues_eq hc hdot
  rw [hline, pgLine_ready h (Or.inr (Or.inl rfl)), pgLineV1_cons hlen (by decide), if_neg (by simp), if_neg (by decide)]
  unfold pgRow
  rw [hscan, List.getElem?_cons_succ, List.getElem?_cons_zero]
  simp only [Option.bind_eq_bind, Option.bind_some, if_pos hnum]
  rw [r.addr.get hb]
  simp only [orFail, Option.bind_some, Option.elim_some]
  rw [← hq', r.mask.get hb']
  simp only [Option.bind_some, Option.elim_some]
  exact pgRowValue_exact h.version h.exact hvalues

/-! ### The text -/

/-- What a line of a table does. -/
def PgTableLine.apply : PgTableLine → PgState → PgState
  | row r, st => r.apply st
  | _, st => st

/-- The offsets are what `v` gives. -/
structure PgState.Holds (st : PgState) (v : BandType → Fin 4 → Rate → Option Nat) : Prop extends st.Ready where
  stored : st.byRate.txPwrByRateOffset = storedOf v

variable {v : BandType → Fin 4 → Rate → Option Nat}

theorem steps_skips (l : List SkipText) : Steps (pgLine a) st (l.map SkipText.bytes) st := by
  induction l with
  | nil => exact .nil
  | cons x l ih => exact .cons x.plain (fun _ => pgLine_skip x) ih

theorem plain_row (r : PgRowText) : Plain r.bytes := by
  have hnum : r.nTx ≠ 0x0a ∧ r.nTx ≠ 0 := by
    have h := r.nTx_mem
    constructor
    · intro he
      rw [he] at h
      exact absurd h (by decide)
    · intro he
      rw [he] at h
      exact absurd h (by decide)
  have hvalues : Plain (r.values.flatMap ValueText.bytes) := by
    intro c hc
    obtain ⟨x, -, hx⟩ := List.mem_flatMap.mp hc
    exact x.plain_bytes c hx
  unfold PgRowText.bytes
  simp only [plain_cons, plain_append]
  exact ⟨by decide, hnum, r.label_plain, by decide, r.addr.plain_bytes, r.mask.plain_bytes, hvalues, r.tail_plain⟩

theorem plain_heading (t : PgTable) : Plain t.heading := by
  have hletter : UInt8.ofNat (0x41 + t.path.val) ≠ 0x0a ∧ UInt8.ofNat (0x41 + t.path.val) ≠ 0 := by
    have h : (UInt8.ofNat (0x41 + t.path.val)).toNat = 0x41 + t.path.val := Nat.mod_eq_of_lt (by omega)
    constructor
    · intro he
      rw [he] at h
      change 10 = 0x41 + t.path.val at h
      omega
    · intro he
      rw [he] at h
      change 0 = 0x41 + t.path.val at h
      omega
  refine plain_append.mpr ⟨?_, plain_cons.mpr ⟨hletter, t.rest_plain⟩⟩
  cases t.band <;> decide

theorem steps_table {t : PgTable} (h : st.Holds v) : ∃ st', Steps (pgLine a) st (t.heading :: t.lines.map PgTableLine.bytes) st' ∧
    st'.Holds fun b p r => t.gives b p r (v b p r) := by
  have hlines (l : List PgTableLine) : ∀ (st : PgState) (v : BandType → Fin 4 → Rate → Option Nat), st.Holds v →
      st.band = t.band → st.rfPath = UInt8.ofNat t.path.val → ∃ st', Steps (pgLine a) st (l.map PgTableLine.bytes) st' ∧
        st'.Holds fun b p r => l.foldl (fun v line => line.gives (t.band = b ∧ t.path = p) r v) (v b p r) := by
    induction l with
    | nil => exact fun st v h _ _ => ⟨st, .nil, h⟩
    | cons x l ih =>
      intro st v h hband hpath
      cases x with
      | skip x =>
        obtain ⟨st', hst, hh⟩ := ih st v h hband hpath
        exact ⟨st', .cons x.plain (fun _ => pgLine_skip x) hst, hh⟩
      | row r =>
        obtain ⟨st', hst, hh⟩ := ih (r.apply st) _ ⟨⟨h.firstLine, h.version, h.exact⟩, by
          unfold PgRowText.apply
          dsimp only
          rw [hband, hpath]
          exact storeNew_storedOf h.stored r t.band t.path⟩ hband hpath
        refine ⟨st', .cons (plain_row r) (fun _ => pgLine_row h.toReady r) hst, ?_⟩
        simpa only [List.foldl_cons, PgTableLine.gives, decide_eq_true_eq] using hh
      | tableEnd rest plain =>
        obtain ⟨st', hst, hh⟩ := ih st v h hband hpath
        refine ⟨st', .cons ?_ (fun _ => ?_) hst, hh⟩
        · exact plain_append.mpr ⟨by decide, plain⟩
        · rw [PgTableLine.bytes, List.append_assoc]
          exact pgLine_tableEnd h.toReady
  obtain ⟨st', hst, hh⟩ := hlines t.lines { st with band := t.band, rfPath := UInt8.ofNat t.path.val } v
    ⟨⟨h.firstLine, h.version, h.exact⟩, h.stored⟩ rfl rfl
  exact ⟨st', .cons (plain_heading t) (fun _ => pgLine_heading h.toReady t) hst, hh⟩

theorem steps_tables (l : List PgTable) : ∀ (st : PgState) (v : BandType → Fin 4 → Rate → Option Nat), st.Holds v →
    ∃ st', Steps (pgLine a) st (l.flatMap fun t => t.heading :: t.lines.map PgTableLine.bytes) st' ∧
      st'.Holds fun b p r => l.foldl (fun v t => t.gives b p r v) (v b p r) := by
  induction l with
  | nil => exact fun st v h => ⟨st, .nil, h⟩
  | cons t l ih =>
    intro st v h
    obtain ⟨st₁, hst₁, h₁⟩ := steps_table (a := a) (t := t) h
    obtain ⟨st₂, hst₂, h₂⟩ := ih st₁ _ h₁
    exact ⟨st₂, hst₁.append hst₂, h₂⟩

/-- Version 1 and exact values are read from the first line. -/
def PgState.headed (st : PgState) : PgState :=
  { st with phyRegPgVersion := 1, phyRegPgValueType := .exact, firstLine := false }

/-- What is parsed are the offsets that the text gives. -/
theorem parse_text (t : PgText) (st : PgState) {buffer rest : Ptr}
    (htext : paraText a.regDecryptCustomFile buffer = some (linesBuffer rest t.lines)) :
    ∃ st', phyParseBBPgParaFile a { st with byRate := ByRate.phyInitTxPowerByRate st.byRate } buffer = some (true, st') ∧
      st'.byRate.txPwrByRateOffset = storedOf t.lastGiven := by
  let st₀ : PgState :=
    { st with byRate := ByRate.phyInitTxPowerByRate st.byRate, firstLine := true, txNum := 0, band := .on2_4G, rfPath := 0 }
  have hbefore : Steps (pgLine a) st₀ (t.before.map SkipText.bytes) st₀ := steps_skips t.before
  have hhead : Steps (pgLine a) st₀
      [[0x23, 0x5b, 0x76, 0x31, 0x5d, 0x5b, 0x45, 0x78, 0x61, 0x63, 0x74, 0x5d, 0x23] ++ t.headRest] st₀.headed := by
    refine .cons (plain_append.mpr ⟨by decide, t.head_plain⟩) (fun p => ?_) .nil
    rw [List.append_assoc]
    exact pgLine_header rfl
  have hholds : st₀.headed.Holds fun _ _ _ => none := by
    refine ⟨⟨rfl, rfl, rfl⟩, funext fun k => ?_⟩
    obtain ⟨b, p, n, i⟩ := k
    unfold storedOf offsetsOf
    exact (ite_self _).symm
  obtain ⟨st', htables, hh⟩ := steps_tables (a := a) t.tables st₀.headed _ hholds
  have hsteps : Steps (pgLine a) st₀ (t.before.map SkipText.bytes ++
      ([[0x23, 0x5b, 0x76, 0x31, 0x5d, 0x5b, 0x45, 0x78, 0x61, 0x63, 0x74, 0x5d, 0x23] ++ t.headRest] ++
        (t.between.map SkipText.bytes ++ t.tableLines))) st' :=
    hbefore.append (hhead.append ((steps_skips t.between).append htables))
  have hparse : phyParseBBPgParaFile a { st with byRate := ByRate.phyInitTxPowerByRate st.byRate } buffer =
      forLines (pgLine a) st₀ (linesBuffer rest t.lines) := by
    unfold phyParseBBPgParaFile
    rw [htext]
    rfl
  refine ⟨st', ?_, hh.stored⟩
  rw [hparse]
  cases hstop : t.stop with
  | none =>
    have hlines : t.lines = t.before.map SkipText.bytes ++
        ([[0x23, 0x5b, 0x76, 0x31, 0x5d, 0x5b, 0x45, 0x78, 0x61, 0x63, 0x74, 0x5d, 0x23] ++ t.headRest] ++
          (t.between.map SkipText.bytes ++ t.tableLines)) := by
      unfold PgText.lines
      rw [hstop, t.behind_eq hstop]
      simp
    rw [hlines]
    exact hsteps.forLines_eq (by simp)
  | some l =>
    have hplain := t.stop_plain l hstop
    have hlines : t.lines = t.before.map SkipText.bytes ++
        ([[0x23, 0x5b, 0x76, 0x31, 0x5d, 0x5b, 0x45, 0x78, 0x61, 0x63, 0x74, 0x5d, 0x23] ++ t.headRest] ++
          (t.between.map SkipText.bytes ++ t.tableLines)) ++ ([0x30, 0x78, 0x66, 0x66, 0x66, 0x66] ++ l) :: t.behind := by
      unfold PgText.lines
      rw [hstop]
      simp
    have hdone (q : Ptr) := pgLine_stop (a := a) (l := l ++ 0 :: q) hh.toReady
    have hstopPlain : Plain ([0x30, 0x78, 0x66, 0x66, 0x66, 0x66] ++ l) :=
      plain_append.mpr ⟨by decide, hplain⟩
    rw [hlines, hsteps.forLines_append (List.cons_ne_nil _ _)]
    rcases t.behind with _ | ⟨m, ms⟩
    · exact forLines_done hstopPlain (Or.inr rfl) (by rw [List.append_assoc]; exact hdone _)
    · exact forLines_done hstopPlain (Or.inl rfl) (by rw [List.append_assoc]; exact hdone _)

theorem twiceAt_le {r : PgRowText} {i n : Nat} (h : r.twiceAt i = some n) : n ≤ 127 := by
  unfold PgRowText.twiceAt at h
  split at h
  · obtain ⟨x, -, rfl⟩ := Option.map_eq_some_iff.mp h
    exact x.twice_le
  · cases h

namespace PgText

variable {t : PgText} {band : BandType} {path : Fin 4} {rate : Rate} {n : Nat}

theorem lastGiven_le (h : t.lastGiven band path rate = some n) : n ≤ 127 := by
  have hline (o : Option Nat) (ho : ∀ n ∈ o, n ≤ 127) (x : PgTableLine) (b : Bool) : ∀ n ∈ x.gives b rate o, n ≤ 127 := by
    cases x with
    | skip x => exact ho
    | tableEnd rest plain => exact ho
    | row r =>
      intro n hn
      rw [PgTableLine.gives, Option.mem_def] at hn
      split_ifs at hn
      · rcases Option.or_eq_some_iff.mp hn with hr | ⟨-, hr⟩
        · obtain ⟨e, -, he⟩ := Option.bind_eq_some_iff.mp hr
          exact twiceAt_le he
        · exact ho n hr
      · exact ho n hn
  have hlines (b : Bool) (l : List PgTableLine) : ∀ o : Option Nat, (∀ n ∈ o, n ≤ 127) →
      ∀ n ∈ l.foldl (fun v line => line.gives b rate v) o, n ≤ 127 := by
    induction l with
    | nil => exact fun o ho => ho
    | cons x l ih => exact fun o ho => ih _ (hline o ho x b)
  have htables (l : List PgTable) : ∀ o : Option Nat, (∀ n ∈ o, n ≤ 127) →
      ∀ n ∈ l.foldl (fun v t => t.gives band path rate v) o, n ≤ 127 := by
    induction l with
    | nil => exact fun o ho => ho
    | cons x l ih => exact fun o ho => ih _ (hlines _ x.lines o ho)
  exact htables t.tables none (fun _ hn => by cases hn) n h

theorem toInt_stored {o : Option Nat} (h : ∀ n ∈ o, n ≤ 127) : (Int8.ofNat (o.getD 0)).toInt = o.getD 0 := by
  have hle : o.getD 0 ≤ 127 := by
    cases o with
    | none => exact Nat.zero_le _
    | some n => exact h n rfl
  exact Int8.toInt_ofNat_of_lt (by omega)

theorem stored_nonneg (t : PgText) (k : OffsetIdx) : 0 ≤ (storedOf t.lastGiven k).toInt := by
  obtain ⟨b, p, m, i⟩ := k
  unfold storedOf offsetsOf
  dsimp only
  split
  · rw [toInt_stored fun n hn => lastGiven_le hn]
    exact Int.natCast_nonneg _
  · decide

end PgText

/-- Base and offset add up to twice the last value that the text gives, but for CCK on 5G. -/
theorem byRate_base_add (a : PgAdapter) (t : PgText) (st : PgState) (buffer rest : Ptr) (band : BandType) (path : Fin 4)
    (rate : Rate) (n : Nat) (ha : a.enabled = true)
    (htext : paraText a.regDecryptCustomFile buffer = some (linesBuffer rest t.lines))
    (hnss : rate.sec.txNum.val < a.chip.nssNum) (hcck : ¬(band = .on5G ∧ rate.sec = .cck))
    (hgiven : t.lastGiven band path rate = some n) :
    ∃ st', phyParseBBPgParaFile a { st with byRate := ByRate.phyInitTxPowerByRate st.byRate } buffer = some (true, st') ∧
      ((ByRate.phyGetTxPowerByRateBase (ByRate.phyTxPowerByRateConfiguration a.toByRateAdapter st'.byRate).txPwrByRateBase
          band path rate.sec.txNum rate.sec).toNat : Int) +
        (ByRate.phyGetTxPowerByRate a.toByRateAdapter
          (ByRate.phyTxPowerByRateConfiguration a.toByRateAdapter st'.byRate).txPwrByRateOffset
          band path rate.sec.txNum rate).toInt = n := by
  obtain ⟨st', hparse, hstored⟩ := parse_text t st htext
  refine ⟨st', hparse, ?_⟩
  have hsum := ByRate.base_add_offset (t := st'.byRate) band path ha hnss hcck fun k => by
    rw [hstored]
    exact t.stored_nonneg k
  rw [hstored] at hsum
  refine hsum.trans ?_
  unfold storedOf offsetsOf
  dsimp only
  rw [Rate.ofIndex_rateIndex, if_pos rfl, hgiven, Option.getD_some]
  exact Int8.toInt_ofNat_of_lt (by have := PgText.lastGiven_le hgiven; omega)

/-- The row `[1Tx] c20 ffffffff 10 10.5 11 11.5`, which is for the CCK rates. -/
def cckRow : PgRowText where
  nTx := 0x31
  label := [0x54, 0x78]
  addr := ⟨[0x20], [], [0x63, 0x32, 0x30], List.all_eq_true.mp rfl, Or.inl rfl, by decide, List.all_eq_true.mp rfl⟩
  mask := ⟨[0x20], [], List.replicate 8 0x66, List.all_eq_true.mp rfl, Or.inl rfl, by decide,
    List.all_eq_true.mp rfl⟩
  values := [⟨[0x20], [0x31, 0x30], none, by decide, List.all_eq_true.mp rfl, by decide, List.all_eq_true.mp rfl, by decide⟩,
    ⟨[0x20], [0x31, 0x30], some true, by decide, List.all_eq_true.mp rfl, by decide, List.all_eq_true.mp rfl, by decide⟩,
    ⟨[0x20], [0x31, 0x31], none, by decide, List.all_eq_true.mp rfl, by decide, List.all_eq_true.mp rfl, by decide⟩,
    ⟨[0x20], [0x31, 0x31], some true, by decide, List.all_eq_true.mp rfl, by decide, List.all_eq_true.mp rfl, by decide⟩]
  tail := []
  nTx_mem := by decide
  label_plain := by decide
  label_open := by decide
  mask_blanks := by decide
  values_length := rfl
  tail_plain := fun _ h => by cases h
  tail_head := fun _ h => by cases h

theorem pathA_lt : 0 < 4 := Nat.zero_lt_succ 3

/-- A text with that row for path A. -/
def cckText (band : BandType) : PgText where
  before := []
  headRest := []
  head_plain := fun _ h => by cases h
  between := []
  tables := [⟨band, ⟨0, pathA_lt⟩, [0x5d, 0x23], by decide, [.row cckRow]⟩]
  stop := none
  stop_plain := fun _ h => by cases h
  behind := []
  behind_eq := fun _ => rfl

/-- An 8812 with offsets by rate. -/
def byRate8812 : PgAdapter := ⟨⟨.rtl8812, 1, 0⟩, 0, false⟩

/-- Before the file is read. -/
def pgStart : PgState where
  firstLine := true
  phyRegPgVersion := 0
  phyRegPgValueType := .relative
  txNum := 0
  band := .on2_4G
  rfPath := 0
  byRate := ⟨fun _ => 0, fun _ => 0⟩
  mcsTxPowerLevelOriginalOffset := fun _ _ => 0
  pwrGroupCnt := 0

/-- 10 dBm at 11 Mbit/s. -/
theorem byRate_base_add_11M : ∃ st', phyParseBBPgParaFile byRate8812
      { pgStart with byRate := ByRate.phyInitTxPowerByRate pgStart.byRate } (linesBuffer [] (cckText .on2_4G).lines) =
        some (true, st') ∧
      ((ByRate.phyGetTxPowerByRateBase
          (ByRate.phyTxPowerByRateConfiguration byRate8812.toByRateAdapter st'.byRate).txPwrByRateBase .on2_4G
          ⟨0, Nat.zero_lt_succ 3⟩ RateSection.cck.base.sec.txNum RateSection.cck.base.sec).toNat : Int) +
        (ByRate.phyGetTxPowerByRate byRate8812.toByRateAdapter
          (ByRate.phyTxPowerByRateConfiguration byRate8812.toByRateAdapter st'.byRate).txPwrByRateOffset
          .on2_4G ⟨0, Nat.zero_lt_succ 3⟩ RateSection.cck.base.sec.txNum RateSection.cck.base).toInt = (20 : Nat) :=
  byRate_base_add byRate8812 (cckText .on2_4G) pgStart _ [] .on2_4G ⟨0, Nat.zero_lt_succ 3⟩ RateSection.cck.base 20 rfl rfl
    (by decide) (by decide) (by decide +kernel)

/-- On 5G there is no base for CCK. -/
theorem not_byRate_base_add_cck5G : ¬ ∀ (a : PgAdapter) (t : PgText) (st : PgState) (buffer rest : Ptr) (band : BandType)
    (path : Fin 4) (rate : Rate) (n : Nat), a.enabled = true →
    paraText a.regDecryptCustomFile buffer = some (linesBuffer rest t.lines) → rate.sec.txNum.val < a.chip.nssNum →
    t.lastGiven band path rate = some n →
    ∃ st', phyParseBBPgParaFile a { st with byRate := ByRate.phyInitTxPowerByRate st.byRate } buffer = some (true, st') ∧
      ((ByRate.phyGetTxPowerByRateBase (ByRate.phyTxPowerByRateConfiguration a.toByRateAdapter st'.byRate).txPwrByRateBase
          band path rate.sec.txNum rate.sec).toNat : Int) +
        (ByRate.phyGetTxPowerByRate a.toByRateAdapter
          (ByRate.phyTxPowerByRateConfiguration a.toByRateAdapter st'.byRate).txPwrByRateOffset
          band path rate.sec.txNum rate).toInt = n := by
  intro h
  obtain ⟨st', -, hsum⟩ := h byRate8812 (cckText .on5G) pgStart _ [] .on5G ⟨0, Nat.zero_lt_succ 3⟩ RateSection.cck.base 20 rfl
    rfl (by decide) (by decide +kernel)
  have hoff := ByRate.convert_offset (a := byRate8812.toByRateAdapter)
    (t := ByRate.phyStoreTxPowerByRateBase byRate8812.toByRateAdapter st'.byRate) .on5G ⟨0, Nat.zero_lt_succ 3⟩
    RateSection.cck.txNum RateSection.cck.base rfl (by decide)
  have hzero : (ByRate.phyTxPowerByRateConfiguration byRate8812.toByRateAdapter st'.byRate).txPwrByRateOffset
      (.on5G, ⟨0, Nat.zero_lt_succ 3⟩, RateSection.cck.txNum, RateSection.cck.base.phyGetRateIndexOfTxPowerByRate) = 0 :=
    hoff.trans (by rw [show RateSection.cck.base.sec.base = RateSection.cck.base from rfl, UInt8.sub_self]; rfl)
  have hget : ByRate.phyGetTxPowerByRate byRate8812.toByRateAdapter
      (ByRate.phyTxPowerByRateConfiguration byRate8812.toByRateAdapter st'.byRate).txPwrByRateOffset .on5G
      ⟨0, Nat.zero_lt_succ 3⟩ RateSection.cck.base.sec.txNum RateSection.cck.base = 0 := hzero
  have hbase : ByRate.phyGetTxPowerByRateBase
      (ByRate.phyTxPowerByRateConfiguration byRate8812.toByRateAdapter st'.byRate).txPwrByRateBase .on5G
      ⟨0, Nat.zero_lt_succ 3⟩ RateSection.cck.base.sec.txNum RateSection.cck.base.sec = 0 := if_pos ⟨rfl, rfl⟩
  rw [hbase, hget] at hsum
  exact absurd hsum (by decide)

end Rtw
