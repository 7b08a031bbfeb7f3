import Mathlib.Algebra.Group.Nat.Defs
import Mathlib.Tactic.IntervalCases
import Rtw.TxPower.PgText

/-!
# The values of a row

A row's values go into a register as two decimal digits each, the first value into the highest byte, and are taken out of
it by `PHY_GetRateValuesOfTxPowerByRate`. `storeNew_offsetsOf`: what is stored for a rate is what the row gives.
-/

namespace Rtw
open Para

/-- Two decimal digits in a byte. -/
def bcd (n : Nat) : UInt32 := UInt32.ofNat (n / 10 * 16 + n % 10)

section
variable {n : Nat} {w b : UInt32}

theorem toNat_bcd (h : n ≤ 127) : (bcd n).toNat = n / 10 * 16 + n % 10 :=
  Nat.mod_eq_of_lt (by omega)

theorem toNat_shift_or (hw : w.toNat < 2 ^ 24) (hb : b.toNat < 256) : ((w <<< 8) ||| b).toNat = w.toNat * 256 + b.toNat := by
  have hshift : (w <<< 8).toNat = 2 ^ 8 * w.toNat := by
    rw [UInt32.toNat_shiftLeft, Nat.shiftLeft_eq, Nat.mul_comm]
    exact Nat.mod_eq_of_lt (by show 256 * w.toNat < 2 ^ 32; omega)
  rw [UInt32.toNat_or, hshift, ← Nat.two_pow_add_eq_or_of_lt (by omega)]
  omega

/-- The digits of a byte of the register. -/
def byteDigits (w i : Nat) : Nat := w / 2 ^ (i * 8 + 4) % 16 * 10 + w / 2 ^ (i * 8) % 16

theorem byteDigits_zero {w : Nat} (h : n ≤ 127) : byteDigits (w * 256 + (n / 10 * 16 + n % 10)) 0 = n := by
  unfold byteDigits
  show _ / 16 % 16 * 10 + _ / 1 % 16 = n
  omega

theorem byteDigits_succ {w b i : Nat} (hb : b < 256) : byteDigits (w * 256 + b) (i + 1) = byteDigits w i := by
  have hdiv (k : Nat) : (w * 256 + b) / 2 ^ (k + 8) = w / 2 ^ k := by
    rw [Nat.pow_add, Nat.mul_comm (2 ^ k), ← Nat.div_div_eq_div_mul]
    show (w * 256 + b) / 256 / 2 ^ k = _
    rw [show (w * 256 + b) / 256 = w by omega]
  unfold byteDigits
  rw [show (i + 1) * 8 + 4 = i * 8 + 4 + 8 by omega, show (i + 1) * 8 = i * 8 + 8 by omega, hdiv, hdiv]

theorem pwrByRateVal_eq {i : Nat} (hi : i < 4) : pwrByRateVal w i = Int8.ofNat (byteDigits w.toNat i) := by
  have hnibble (k : Nat) (hk : k < 32) : ((w >>> UInt32.ofNat k) &&& 0xf).toNat = w.toNat / 2 ^ k % 16 := by
    rw [UInt32.toNat_and, UInt32.toNat_shiftRight, Nat.shiftRight_eq_div_pow]
    rw [UInt32.toNat_ofNat_of_lt' (by show k < 2 ^ 32; omega), Nat.mod_eq_of_lt hk]
    exact Nat.and_two_pow_sub_one_eq_mod _ 4
  have hsum : (((w >>> UInt32.ofNat (i * 8 + 4)) &&& 0xf) * 10 + ((w >>> UInt32.ofNat (i * 8)) &&& 0xf)).toNat =
      byteDigits w.toNat i := by
    rw [UInt32.toNat_add, UInt32.toNat_mul, hnibble _ (by omega), hnibble _ (by omega)]
    unfold byteDigits
    show (_ * 10 % 2 ^ 32 + _) % 2 ^ 32 = _
    omega
  unfold pwrByRateVal
  rw [← hsum]
  rfl

end

/-! ### The word of a row -/

theorem toNat_decValue {ds : List UInt8} (h : ∀ c ∈ ds, isDigit c = true) {i : UInt8} {n : Nat} (hi : i.toNat = n % 256) :
    (decValue i ds).toNat = ds.foldl (fun n c => 10 * n + (c.toNat - 0x30)) n % 256 := by
  induction ds generalizing i n with
  | nil => exact hi
  | cons c ds ih =>
    refine ih (fun c hc => h c (List.mem_cons_of_mem _ hc)) ?_
    have hc : 0x30 ≤ c ∧ c ≤ 0x39 := of_decide_eq_true (h c (List.mem_cons_self ..))
    rw [UInt8.toNat_add, UInt8.toNat_mul, UInt8.toNat_sub_of_le _ _ hc.1, hi]
    show (n % 256 * 10 % 256 + (c.toNat - 48)) % 256 = (10 * n + (c.toNat - 48)) % 256
    omega

namespace ValueText

variable (x : ValueText)

theorem twice_le : x.twice ≤ 127 := by
  have h := x.small
  unfold twice
  split_ifs <;> omega

theorem combineByte_eq : combineByte (decValue 0 x.digits) (if x.half = some true then 5 else 0) = bcd x.twice := by
  have hdec : (decValue 0 x.digits).toNat = decimal x.digits := by
    rw [toNat_decValue x.digit (n := 0) rfl]
    exact Nat.mod_eq_of_lt (Nat.lt_of_le_of_lt x.small (by decide))
  have hsmall := x.small
  have hbyte (i : UInt8) (hi : i.toNat = x.twice) : (i / 10).toUInt32 <<< 4 + (i % 10).toUInt32 = bcd x.twice := by
    have hle := x.twice_le
    have hshift : ((i / 10).toUInt32 <<< 4).toNat = 16 * (x.twice / 10) := by
      rw [UInt32.toNat_shiftLeft, Nat.shiftLeft_eq, UInt8.toNat_toUInt32, UInt8.toNat_div, hi, Nat.mul_comm]
      exact Nat.mod_eq_of_lt (by show 16 * (x.twice / 10) < 2 ^ 32; omega)
    refine UInt32.toNat_inj.mp ?_
    rw [toNat_bcd hle, UInt32.toNat_add, hshift, UInt8.toNat_toUInt32, UInt8.toNat_mod, hi]
    show (16 * (x.twice / 10) + x.twice % 10) % 2 ^ 32 = _
    omega
  have hdouble : (decValue 0 x.digits * 2).toNat = 2 * decimal x.digits := by
    rw [UInt8.toNat_mul, hdec]
    show decimal x.digits * 2 % 256 = _
    omega
  unfold combineByte
  refine hbyte _ ?_
  unfold twice
  by_cases h : x.half = some true
  · rw [if_pos h, if_pos h, if_pos rfl, UInt8.toNat_add, hdouble]
    show (2 * decimal x.digits + 1) % 256 = _
    omega
  · rw [if_neg h, if_neg h, if_neg (by decide), hdouble, Nat.add_zero]

end ValueText

/-- The word that the values of a row make. -/
def rowWord (l : List ValueText) (w : UInt32) : UInt32 := l.foldl (fun w v => (w <<< 8) ||| bcd v.twice) w

/-- What is behind a value begins with no digit and no point. -/
theorem values_head {l : List ValueText} {c : UInt8} {p : Ptr} (hc : isDigit c = false) (hdot : c ≠ 0x2e) :
    ∃ c' q, l.flatMap ValueText.bytes ++ c :: p = c' :: q ∧ isDigit c' = false ∧ c' ≠ 0x2e := by
  rcases l with _ | ⟨x, l⟩
  · exact ⟨c, p, rfl, hc, hdot⟩
  · obtain ⟨b, bs, hbs⟩ := List.exists_cons_of_ne_nil x.blanks_ne
    refine ⟨b, ?_⟩
    rw [List.flatMap_cons, ValueText.bytes, hbs, List.cons_append, List.cons_append, List.cons_append]
    refine ⟨_, rfl, ?_⟩
    rcases blank_cases (x.blank b (by rw [hbs]; exact List.mem_cons_self ..)) with rfl | rfl
    · decide
    · decide

theorem combineValues_eq {l : List ValueText} {c : UInt8} {p : Ptr} {w : UInt32} (hc : isDigit c = false) (hdot : c ≠ 0x2e) :
    combineValues l.length w (l.flatMap ValueText.bytes ++ c :: p) = some (some (rowWord l w)) := by
  induction l generalizing w with
  | nil => rfl
  | cons x l ih =>
    obtain ⟨c', q, hq, hc', hdot'⟩ := values_head (l := l) (p := p) hc hdot
    rw [List.length_cons, combineValues, List.flatMap_cons, List.append_assoc, hq, x.get hc' hdot', ← hq]
    show combineValues _ _ _ = _
    rw [x.combineByte_eq, ih]
    rfl

namespace PgRowText

variable {r : PgRowText} {i n : Nat}

theorem exists_values (r : PgRowText) : ∃ v₀ v₁ v₂ v₃, r.values = [v₀, v₁, v₂, v₃] := by
  have h := r.values_length
  generalize r.values = l at h
  match l, h with
  | [v₀, v₁, v₂, v₃], _ => exact ⟨v₀, v₁, v₂, v₃, rfl⟩

/-- A byte of the word is what the row has at its place. -/
theorem pwrByRateVal_word (h : r.twiceAt i = some n) : pwrByRateVal (rowWord r.values 0) i = Int8.ofNat n := by
  obtain ⟨v₀, v₁, v₂, v₃, hv⟩ := r.exists_values
  have h₀ := v₀.twice_le
  have h₁ := v₁.twice_le
  have h₂ := v₂.twice_le
  have h₃ := v₃.twice_le
  let w₀ := (0 : UInt32) <<< 8 ||| bcd v₀.twice
  have hw₀ : w₀.toNat = (bcd v₀.twice).toNat := by
    refine (toNat_shift_or (by decide) (by rw [toNat_bcd h₀]; omega)).trans ?_
    rw [UInt32.toNat_zero, Nat.zero_mul, Nat.zero_add]
  have hw : (rowWord r.values 0).toNat =
      (((bcd v₀.twice).toNat * 256 + (bcd v₁.twice).toNat) * 256 + (bcd v₂.twice).toNat) * 256 + (bcd v₃.twice).toNat := by
    have hlt₀ : (bcd v₀.twice).toNat < 256 := by rw [toNat_bcd h₀]; omega
    have hlt₁ : (bcd v₁.twice).toNat < 256 := by rw [toNat_bcd h₁]; omega
    have hlt₂ : (bcd v₂.twice).toNat < 256 := by rw [toNat_bcd h₂]; omega
    have hlt₃ : (bcd v₃.twice).toNat < 256 := by rw [toNat_bcd h₃]; omega
    let w₁ := w₀ <<< 8 ||| bcd v₁.twice
    let w₂ := w₁ <<< 8 ||| bcd v₂.twice
    have hw₁ : w₁.toNat = w₀.toNat * 256 + (bcd v₁.twice).toNat := toNat_shift_or (by omega) hlt₁
    have hw₂ : w₂.toNat = w₁.toNat * 256 + (bcd v₂.twice).toNat := toNat_shift_or (by omega) hlt₂
    have hw₃ : (w₂ <<< 8 ||| bcd v₃.twice).toNat = w₂.toNat * 256 + (bcd v₃.twice).toNat := toNat_shift_or (by omega) hlt₃
    rw [hv]
    show (w₂ <<< 8 ||| bcd v₃.twice).toNat = _
    rw [hw₃, hw₂, hw₁, hw₀]
  rw [toNat_bcd h₀, toNat_bcd h₁, toNat_bcd h₂, toNat_bcd h₃] at hw
  have hi : i < 4 := by
    by_contra hi
    rw [twiceAt, if_neg hi] at h
    cases h
  rw [twiceAt, if_pos hi, hv] at h
  rw [pwrByRateVal_eq hi, hw]
  refine congrArg Int8.ofNat ?_
  rw [← Nat.zero_add (_ / 10 * 16 + _ % 10), ← Nat.zero_mul 256]
  interval_cases i <;> simp only [Nat.reduceSub, List.getElem?_cons_succ, List.getElem?_cons_zero, Option.map_some,
    Option.some.injEq] at h <;> rw [← h]
  · rw [byteDigits_zero h₃]
  · rw [byteDigits_succ (by omega), byteDigits_zero h₂]
  · rw [byteDigits_succ (by omega), byteDigits_succ (by omega), byteDigits_zero h₁]
  · rw [byteDigits_succ (by omega), byteDigits_succ (by omega), byteDigits_succ (by omega), byteDigits_zero h₀]

end PgRowText

/-! ### The rates of a register -/

section
variable {l : List Rate} {k num regAddr bitMask : Nat}

/-- Each rate has one byte, of the four. -/
structure RatesOk (l : List (Rate × Nat)) : Prop where
  nodup : (l.map Prod.fst).Nodup
  lt : ∀ e ∈ l, e.2 < 4

theorem ratesOk_nil : RatesOk [] := ⟨List.nodup_nil, by simp⟩

theorem ratesOk_zipIdx {i : Nat} (hl : l.Nodup) (h : l.length + i ≤ 4) : RatesOk (l.zipIdx i) where
  nodup := by rwa [List.zipIdx_map_fst]
  lt e he := by
    have := List.snd_lt_add_of_mem_zipIdx he
    omega

theorem ratesOk_fromByte0 (hl : l.Nodup) (h : num ≤ 4) : RatesOk (fromByte0 l k num) :=
  ratesOk_zipIdx (hl.sublist ((List.take_sublist _ _).trans (List.drop_sublist _ _)))
    (by rw [List.length_take]; omega)

theorem ratesOk_fromByte1 (hl : l.Nodup) (h : num ≤ 3) : RatesOk (fromByte1 l num) :=
  ratesOk_zipIdx (hl.sublist (List.take_sublist _ _)) (by rw [List.length_take]; omega)

theorem nodup_mcsRates : mcsRates.Nodup := (List.nodup_finRange 32).map fun _ _ h => by simpa using h

theorem nodup_vhtRates : vhtRates.Nodup := by
  refine List.nodup_flatMap.mpr ⟨fun ss _ => RateSection.nodup_rates _, (List.nodup_finRange 4).imp fun hne => ?_⟩
  intro rate h h'
  rw [RateSection.mem_rates] at h h'
  exact hne (by simpa using h.symm.trans h')

theorem ratesOk_ite {c : Prop} [Decidable c] {l l' : List (Rate × Nat)} (h : RatesOk l) (h' : RatesOk l') :
    RatesOk (if c then l else l') := by
  split
  · exact h
  · exact h'

theorem ratesOk_pgRates (regAddr bitMask : UInt32) : RatesOk (pgRates regAddr bitMask) := by
  have hcck := RateSection.nodup_rates .cck
  have hofdm := RateSection.nodup_rates .ofdm
  have hdrop := hcck.sublist (List.drop_sublist 1 _)
  have hmcs := nodup_mcsRates
  have hvht := nodup_vhtRates
  unfold pgRates
  repeat' first
    | refine ratesOk_ite ?_ ?_
    | exact ratesOk_nil
    | refine ratesOk_fromByte0 ?_ (by decide)
    | refine ratesOk_fromByte1 ?_ (by decide)
  all_goals with_reducible assumption

end

/-! ### What is stored -/

/-- The offsets that are 0, up to those of the rates at the number of chains that each is for. -/
def offsetsOf (w : BandType → Fin 4 → Rate → Int8) : OffsetIdx → Int8
  | (band, path, txNum, i) => if txNum = (Rate.ofIndex i).txNum then w band path (Rate.ofIndex i) else 0

section
variable {w : BandType → Fin 4 → Rate → Int8} {band : BandType} {path : Fin 4} {rate : Rate} {x : Int8}

theorem set_offsetsOf : ByRate.phySetTxPowerByRate (offsetsOf w) band path rate.txNum rate x =
    offsetsOf fun b p r => if b = band ∧ p = path ∧ r = rate then x else w b p r := by
  funext k
  obtain ⟨b, p, t, i⟩ := k
  unfold ByRate.phySetTxPowerByRate offsetsOf
  by_cases h : (b, p, t, i) = (band, path, rate.txNum, rate.phyGetRateIndexOfTxPowerByRate)
  · rw [h, Function.update_self]
    dsimp only
    rw [Rate.ofIndex_rateIndex, if_pos rfl, if_pos ⟨rfl, rfl, rfl⟩]
  · rw [Function.update_of_ne h]
    dsimp only
    by_cases ht : t = (Rate.ofIndex i).txNum
    · rw [if_pos ht, if_pos ht, if_neg]
      rintro ⟨rfl, rfl, rfl⟩
      exact h (by rw [ht, Rate.rateIndex_ofIndex])
    · rw [if_neg ht, if_neg ht]

/-- Rates that are set one after the other. -/
theorem foldl_set_offsetsOf {l : List (Rate × Int8)} (hl : (l.map Prod.fst).Nodup) :
    l.foldl (fun offset r => ByRate.phySetTxPowerByRate offset band path r.1.txNum r.1 r.2) (offsetsOf w) =
      offsetsOf fun b p r =>
        if b = band ∧ p = path then ((l.find? fun e => e.1 = r).map Prod.snd).getD (w b p r) else w b p r := by
  induction l generalizing w with
  | nil =>
    refine congrArg offsetsOf (funext fun b => funext fun p => funext fun r => ?_)
    exact (ite_self _).symm
  | cons e l ih =>
    obtain ⟨he, hl⟩ := List.nodup_cons.mp hl
    rw [List.foldl_cons, set_offsetsOf, ih hl]
    refine congrArg offsetsOf (funext fun b => funext fun p => funext fun r => ?_)
    by_cases hbp : b = band ∧ p = path
    · rw [if_pos hbp, if_pos hbp]
      by_cases hr : r = e.1
      · have hnone : l.find? (fun e => e.1 = r) = none := by
          refine List.find?_eq_none.mpr fun e' he' => ?_
          simp only [decide_eq_true_eq]
          rintro rfl
          exact he (hr ▸ List.mem_map_of_mem he')
        rw [hnone, List.find?_cons_of_pos (by simp [hr]), if_pos ⟨hbp.1, hbp.2, hr⟩]
        rfl
      · rw [List.find?_cons_of_neg (by simpa using fun h : e.1 = r => hr h.symm), if_neg fun h => hr h.2.2]
    · rw [if_neg hbp, if_neg hbp, if_neg fun h => hbp ⟨h.1, h.2.1⟩]

end

/-- Twice the values, as they are stored. -/
def storedOf (v : BandType → Fin 4 → Rate → Option Nat) : OffsetIdx → Int8 :=
  offsetsOf fun b p r => Int8.ofNat ((v b p r).getD 0)

theorem PgRowText.getD_given (r : PgRowText) {rate : Rate} {o : Option Nat} :
    (((phyGetRateValuesOfTxPowerByRate r.addr.value r.mask.value (rowWord r.values 0)).find? fun e => e.1 = rate).map
      Prod.snd).getD (Int8.ofNat (o.getD 0)) = Int8.ofNat (((r.given rate).or o).getD 0) := by
  have hok := ratesOk_pgRates r.addr.value r.mask.value
  unfold phyGetRateValuesOfTxPowerByRate given
  rw [List.find?_map]
  have hcomp : ((fun e : Rate × Int8 => decide (e.1 = rate)) ∘
      fun e : Rate × Nat => (e.1, pwrByRateVal (rowWord r.values 0) e.2)) = fun e => decide (e.1 = rate) := rfl
  rw [hcomp]
  cases hfind : (pgRates r.addr.value r.mask.value).find? fun e => e.1 = rate with
  | none => rfl
  | some e =>
    have hlt := hok.lt e (List.mem_of_find?_eq_some hfind)
    obtain ⟨n, hn⟩ : ∃ n, r.twiceAt e.2 = some n := by
      obtain ⟨v₀, v₁, v₂, v₃, hv⟩ := r.exists_values
      have hget : r.values[3 - e.2]?.isSome := by
        rw [hv]
        simp
        omega
      rw [twiceAt, if_pos hlt, Option.isSome_iff_exists.mp hget |>.choose_spec]
      exact ⟨_, rfl⟩
    rw [Option.bind_some, hn, Option.map_some, Option.map_some, Option.getD_some, Option.some_or, Option.getD_some]
    exact r.pwrByRateVal_word hn

/-- What a row leaves behind for its rates is what it gives. -/
theorem storeNew_storedOf {t : ByRate} {v : BandType → Fin 4 → Rate → Option Nat} (h : t.txPwrByRateOffset = storedOf v)
    (r : PgRowText) (band : BandType) (path : Fin 4) :
    (phyStoreTxPowerByRateNew t band (UInt8.ofNat path.val) (r.nTx - 0x31) r.addr.value r.mask.value
      (rowWord r.values 0)).txPwrByRateOffset =
    storedOf fun b p rate => if band = b ∧ path = p then (r.given rate).or (v b p rate) else v b p rate := by
  have hpath : (UInt8.ofNat path.val).toNat = path.val := Nat.mod_eq_of_lt (by omega)
  have htx : ¬r.nTx - 0x31 > 3 := by
    have h := r.nTx_mem
    rw [gt_iff_lt, UInt8.lt_iff_toNat_lt, UInt8.toNat_sub_of_le _ _ h.1]
    have hle : r.nTx.toNat ≤ 52 := UInt8.le_iff_toNat_le.mp h.2
    show ¬3 < r.nTx.toNat - 49
    omega
  have hfin : (⟨(UInt8.ofNat path.val).toNat, by omega⟩ : Fin 4) = path := Fin.ext hpath
  have hok := ratesOk_pgRates r.addr.value r.mask.value
  unfold phyStoreTxPowerByRateNew
  rw [dif_pos (by omega), if_neg htx]
  dsimp only
  rw [hfin, h]
  unfold storedOf
  rw [foldl_set_offsetsOf (by
    unfold phyGetRateValuesOfTxPowerByRate
    rw [List.map_map]
    exact hok.nodup)]
  refine congrArg offsetsOf (funext fun b => funext fun p => funext fun rate => ?_)
  dsimp only
  by_cases hbp : b = band ∧ p = path
  · obtain ⟨rfl, rfl⟩ := hbp
    rw [if_pos ⟨rfl, rfl⟩, if_pos ⟨rfl, rfl⟩]
    exact r.getD_given
  · rw [if_neg hbp, if_neg fun h => hbp ⟨h.1.symm, h.2.symm⟩]

end Rtw
