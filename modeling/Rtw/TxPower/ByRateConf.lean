import Mathlib.Tactic.Ring
import Rtw.TxPower.ByRate

/-!
# What the configuration makes of the offsets

`base_add_offset`: where all offsets are at least 0, the base of a section and the relative offset of a rate in it add up
to the offset that the rate had.
-/

namespace Rtw
namespace ByRate
open Regions

variable {a : ByRateAdapter} {t : ByRate} {offset : OffsetIdx → Int8} {base : BaseIdx → UInt8} {band : BandType}
  {path txNum : Fin 4} {rs : RateSection} {rate : Rate}

/-- The section that an entry belongs to. -/
def sectionOf : OffsetIdx → BandType × Fin 4 × Fin 4 × RateSection
  | (band, path, txNum, i) => (band, path, txNum, (Rate.ofIndex i).sec)

/-- The value of an entry relative to the reference rate of its section. -/
def relative (offset : OffsetIdx → Int8) : OffsetIdx → Int8
  | (band, path, txNum, i) =>
    let base := (offset (band, path, txNum, (Rate.ofIndex i).sec.base.phyGetRateIndexOfTxPowerByRate)).toUInt8
    ((offset (band, path, txNum, i)).toUInt8 - base).toInt8

theorem local_setRate (ha : a.enabled = true) (b : UInt8) :
    Local (fun k : OffsetIdx => Rate.ofIndex k.2.2.2) fun offset rate =>
      phySetTxPowerByRate offset band path txNum rate
        ((phyGetTxPowerByRate a offset band path txNum rate).toUInt8 - b).toInt8 := by
  have h := local_update (fun k : OffsetIdx => Rate.ofIndex k.2.2.2)
    (fun rate => (band, path, txNum, rate.phyGetRateIndexOfTxPowerByRate)) (fun r => Rate.ofIndex_rateIndex r)
    fun _ v => (v.toUInt8 - b).toInt8
  simpa only [phySetTxPowerByRate, phyGetTxPowerByRate, ha, if_true] using h

/-- A section is made relative as a whole. -/
theorem convertSection_apply (ha : a.enabled = true) (r : BandType × Fin 4 × Fin 4 × RateSection) (k : OffsetIdx) :
    convertSection a offset r k = if sectionOf k = r then relative offset k else offset k := by
  obtain ⟨band, path, txNum, rs⟩ := r
  obtain ⟨band', path', txNum', i⟩ := k
  dsimp only [convertSection]
  rw [foldl_apply (local_setRate ha _) (RateSection.nodup_rates rs)]
  simp only [RateSection.mem_rates, sectionOf, Prod.mk.injEq]
  by_cases hr : (Rate.ofIndex i).sec = rs
  · subst hr
    rw [if_pos rfl]
    unfold phySetTxPowerByRate
    rw [Rate.rateIndex_ofIndex]
    by_cases hk : band' = band ∧ path' = path ∧ txNum' = txNum
    · obtain ⟨rfl, rfl, rfl⟩ := hk
      rw [Function.update_self, if_pos ⟨rfl, rfl, rfl, rfl⟩]
      simp only [phyGetTxPowerByRate, ha, if_true, relative, Rate.rateIndex_ofIndex]
    · rw [Function.update_of_ne (fun h => hk (by simpa using h)), if_neg (fun h => hk ⟨h.1, h.2.1, h.2.2.1⟩)]
  · rw [if_neg hr, if_neg fun h => hr h.2.2.2]

theorem local_convertSection (ha : a.enabled = true) : Local sectionOf (convertSection a) where
  frame m r k hk := by rw [convertSection_apply ha, if_neg hk]
  congr m m' r heq k hk := by
    obtain ⟨band, path, txNum, i⟩ := k
    rw [convertSection_apply ha, convertSection_apply ha, if_pos hk, if_pos hk]
    subst hk
    dsimp only [relative]
    rw [heq _ rfl, heq (band, path, txNum, (Rate.ofIndex i).sec.base.phyGetRateIndexOfTxPowerByRate) ?_]
    dsimp only [sectionOf]
    rw [Rate.ofIndex_rateIndex, RateSection.sec_base]

theorem mem_bands : band ∈ bands := by
  cases band
  · exact List.mem_cons_self ..
  · exact List.mem_cons_of_mem _ (List.mem_cons_self ..)

theorem nodup_bands : bands.Nodup := by
  decide

/-- Up to three chains the offsets become relative. -/
theorem convert_offset (band : BandType) (path txNum : Fin 4) (rate : Rate) (ha : a.enabled = true) (hsec : rate.sec.txNum.val < 3) :
    (phyConvertTxPowerByRateInDbmToRelativeValues a t).txPwrByRateOffset
      (band, path, txNum, rate.phyGetRateIndexOfTxPowerByRate) =
    ((t.txPwrByRateOffset (band, path, txNum, rate.phyGetRateIndexOfTxPowerByRate)).toUInt8 -
      (t.txPwrByRateOffset (band, path, txNum, rate.sec.base.phyGetRateIndexOfTxPowerByRate)).toUInt8).toInt8 := by
  have hnodup : (bands ×ˢ List.finRange 4 ×ˢ List.finRange 4 ×ˢ RateSection.converted).Nodup :=
    nodup_bands.product ((List.nodup_finRange 4).product ((List.nodup_finRange 4).product (RateSection.nodup_all.filter _)))
  have hmem : sectionOf (band, path, txNum, rate.phyGetRateIndexOfTxPowerByRate) ∈
      bands ×ˢ List.finRange 4 ×ˢ List.finRange 4 ×ˢ RateSection.converted := by
    dsimp only [sectionOf]
    rw [Rate.ofIndex_rateIndex]
    simp [mem_bands, RateSection.converted, RateSection.mem_all, hsec]
  dsimp only [phyConvertTxPowerByRateInDbmToRelativeValues]
  rw [foldl_of_mem (local_convertSection ha) hnodup hmem, convertSection_apply ha, if_pos rfl]
  dsimp only [relative]
  rw [Rate.ofIndex_rateIndex]

theorem local_storeSection : Local (fun k : BaseIdx => (k.1, k.2.1, k.2.2.2)) (storeSection a offset) where
  frame m r k hk := by
    obtain ⟨band, path, rs⟩ := r
    dsimp only [storeSection, phySetTxPowerByRateBase]
    split_ifs
    · rfl
    · rfl
    · refine Function.update_of_ne (fun h => hk ?_) ..
      rw [h]
  congr m m' r heq k hk := by
    obtain ⟨band, path, rs⟩ := r
    dsimp only [storeSection, phySetTxPowerByRateBase]
    split_ifs
    · exact heq k hk
    · exact heq k hk
    · by_cases h : k = (band, path, rs.txNum, rs)
      · rw [h, Function.update_self, Function.update_self]
      · rw [Function.update_of_ne h, Function.update_of_ne h, heq k hk]

/-- The base of a section is the offset of its reference rate. -/
theorem store_base (ha : a.enabled = true) (hnss : rs.txNum.val < a.chip.nssNum) (hcck : ¬(band = .on5G ∧ rs = .cck)) :
    phyGetTxPowerByRateBase (phyStoreTxPowerByRateBase a t).txPwrByRateBase band path rs.txNum rs =
      (t.txPwrByRateOffset (band, path, rs.txNum, rs.base.phyGetRateIndexOfTxPowerByRate)).toUInt8 := by
  have hnodup : (bands ×ˢ List.finRange 4 ×ˢ RateSection.all).Nodup :=
    nodup_bands.product ((List.nodup_finRange 4).product RateSection.nodup_all)
  have hmem : (band, path, rs) ∈ bands ×ˢ List.finRange 4 ×ˢ RateSection.all := by
    simp [mem_bands, RateSection.mem_all]
  dsimp only [phyGetTxPowerByRateBase, phyStoreTxPowerByRateBase]
  rw [if_neg hcck]
  rw [foldl_of_mem (k := (band, path, rs.txNum, rs)) local_storeSection hnodup hmem]
  simp only [storeSection, phySetTxPowerByRateBase, Nat.not_le.mpr hnss, hcck, if_false, Function.update_self,
    phyGetTxPowerByRate, ha, if_true]

theorem nssNum_le (chip : ChipType) : chip.nssNum ≤ 3 := by
  cases chip <;> decide

theorem toInt_eq (x : Int8) : x.toInt = if 2 * x.toUInt8.toNat < 256 then (x.toUInt8.toNat : Int) else x.toUInt8.toNat - 256 :=
  BitVec.toInt_eq_toNat_cond x.toBitVec

theorem toNat_add_sub {x y : Int8} (hx : 0 ≤ x.toInt) (hy : 0 ≤ y.toInt) :
    (y.toUInt8.toNat : Int) + (x.toUInt8 - y.toUInt8).toInt8.toInt = x.toInt := by
  have hx' := toInt_eq x
  have hy' := toInt_eq y
  have hd := toInt_eq (x.toUInt8 - y.toUInt8).toInt8
  have hxlt := x.toUInt8.toNat_lt
  have hylt := y.toUInt8.toNat_lt
  rw [UInt8.toUInt8_toInt8, UInt8.toNat_sub] at hd
  rw [hd, hx']
  split_ifs at * <;> omega

/-- The base and the relative offset add up to the offset before. -/
theorem base_add_offset (band : BandType) (path : Fin 4) (ha : a.enabled = true) (hnss : rate.txNum.val < a.chip.nssNum)
    (hcck : ¬(band = .on5G ∧ rate.sec = .cck)) (hpos : ∀ k, 0 ≤ (t.txPwrByRateOffset k).toInt) :
    ((phyGetTxPowerByRateBase (phyTxPowerByRateConfiguration a t).txPwrByRateBase band path rate.txNum rate.sec).toNat : Int) +
      (phyGetTxPowerByRate a (phyTxPowerByRateConfiguration a t).txPwrByRateOffset band path rate.txNum rate).toInt =
    (t.txPwrByRateOffset (band, path, rate.txNum, rate.phyGetRateIndexOfTxPowerByRate)).toInt := by
  have hbase : phyGetTxPowerByRateBase (phyTxPowerByRateConfiguration a t).txPwrByRateBase band path rate.txNum rate.sec =
      _ := store_base ha hnss hcck
  have hoff : (phyTxPowerByRateConfiguration a t).txPwrByRateOffset
      (band, path, rate.txNum, rate.phyGetRateIndexOfTxPowerByRate) = _ :=
    convert_offset band path rate.txNum rate ha (Nat.lt_of_lt_of_le hnss (nssNum_le _))
  unfold phyGetTxPowerByRate
  rw [if_pos ha, hbase, hoff]
  exact toNat_add_sub (hpos _) (hpos _)

end ByRate
end Rtw
