import Mathlib.Data.List.Nodup
import Mathlib.Data.List.ProdSigma
import Rtw.Lib.Regions

/-!
# Transmit power by rate

The tables that a PHY_REG_PG file fills: an offset for each band, path, number of transmit chains and rate, and a base for
each section of rates. `PHY_TxPowerByRateConfiguration` takes the bases from the offsets, and then makes the offsets
relative to them.
-/

namespace Rtw

inductive BandType where
  | on2_4G
  | on5G
  deriving DecidableEq

/-- `MGN_1M` … `MGN_VHT4SS_MCS9` -/
inductive Rate where
  | cck (k : Fin 4)
  | ofdm (k : Fin 8)
  | mcs (k : Fin 32)
  | vht (ss : Fin 4) (k : Fin 10)
  deriving DecidableEq

inductive RateSection where
  | cck
  | ofdm
  | ht (ss : Fin 4)
  | vht (ss : Fin 4)
  deriving DecidableEq

namespace RateSection

/-- `rate_section_to_tx_num`; `RF_1TX` is 0. -/
def txNum : RateSection → Fin 4
  | cck => ⟨0, Nat.zero_lt_succ 3⟩
  | ofdm => ⟨0, Nat.zero_lt_succ 3⟩
  | ht ss => ss
  | vht ss => ss

def rates : RateSection → List Rate
  | cck => (List.finRange 4).map .cck
  | ofdm => (List.finRange 8).map .ofdm
  | ht ss => (List.finRange 8).map fun k => .mcs ⟨8 * ss.val + k.val, by omega⟩
  | vht ss => (List.finRange 10).map (.vht ss)

/-- `rate_sec_base` -/
def base : RateSection → Rate
  | cck => .cck ⟨3, Nat.lt_succ_self 3⟩
  | ofdm => .ofdm ⟨7, Nat.lt_succ_self 7⟩
  | ht ss => .mcs ⟨8 * ss.val + 7, by omega⟩
  | vht ss => .vht ss ⟨7, by omega⟩

def all : List RateSection := [cck, ofdm] ++ (List.finRange 4).map ht ++ (List.finRange 4).map vht

/-- The sections whose offsets become relative. -/
def converted : List RateSection := all.filter fun rs => rs.txNum.val < 3

end RateSection

namespace Rate

/-- The section of a rate. -/
def sec : Rate → RateSection
  | cck _ => .cck
  | ofdm _ => .ofdm
  | mcs k => .ht ⟨k.val / 8, by omega⟩
  | vht ss _ => .vht ss

/-- `IS_1T_RATE` … `IS_4T_RATE` -/
def txNum (rate : Rate) : Fin 4 := rate.sec.txNum

/-- `PHY_GetRateIndexOfTxPowerByRate` -/
def phyGetRateIndexOfTxPowerByRate : Rate → Fin 84
  | cck k => ⟨k.val, by omega⟩
  | ofdm k => ⟨4 + k.val, by omega⟩
  | mcs k => ⟨12 + k.val, by omega⟩
  | vht ss k => ⟨44 + 10 * ss.val + k.val, by omega⟩

end Rate

/-- An entry of `TxPwrByRateOffset`. -/
abbrev OffsetIdx := BandType × Fin 4 × Fin 4 × Fin 84

/-- The chips that the driver is built for. -/
inductive ChipType where
  | rtl8812
  | rtl8821
  | rtl8814
  deriving DecidableEq

/-- `nss_num` of the `hal_spec` -/
def ChipType.nssNum : ChipType → Nat
  | rtl8812 => 2
  | rtl8821 => 1
  | rtl8814 => 3

/-- What the functions here use of the adapter. -/
structure ByRateAdapter where
  chip : ChipType
  regEnableTxPowerByRate : UInt8
  eepromRegulatory : UInt8

/-- Offsets by rate are in use. -/
def ByRateAdapter.enabled (a : ByRateAdapter) : Bool :=
  ¬(a.regEnableTxPowerByRate = 2 ∧ a.eepromRegulatory = 2 ∨ a.regEnableTxPowerByRate = 0)

/-- An entry of `TxPwrByRateBase2_4G` or `TxPwrByRateBase5G`; the second has none for CCK. -/
abbrev BaseIdx := BandType × Fin 4 × Fin 4 × RateSection

structure ByRate where
  txPwrByRateOffset : OffsetIdx → Int8
  txPwrByRateBase : BaseIdx → UInt8

namespace ByRate

variable (a : ByRateAdapter) (t : ByRate)

/-- `PHY_GetTxPowerByRate` -/
def phyGetTxPowerByRate (offset : OffsetIdx → Int8) (band : BandType) (rfPath txNum : Fin 4) (rate : Rate) : Int8 :=
  if a.enabled then offset (band, rfPath, txNum, rate.phyGetRateIndexOfTxPowerByRate) else 0

/-- `PHY_SetTxPowerByRate` -/
def phySetTxPowerByRate (offset : OffsetIdx → Int8) (band : BandType) (rfPath txNum : Fin 4) (rate : Rate) (value : Int8) :
    OffsetIdx → Int8 :=
  Function.update offset (band, rfPath, txNum, rate.phyGetRateIndexOfTxPowerByRate) value

/-- `PHY_GetTxPowerByRateBase` -/
def phyGetTxPowerByRateBase (base : BaseIdx → UInt8) (band : BandType) (rfPath txNum : Fin 4) (rs : RateSection) : UInt8 :=
  if band = .on5G ∧ rs = .cck then 0 else base (band, rfPath, txNum, rs)

/-- `phy_SetTxPowerByRateBase` -/
def phySetTxPowerByRateBase (base : BaseIdx → UInt8) (band : BandType) (rfPath : Fin 4) (rs : RateSection) (txNum : Fin 4)
    (value : UInt8) : BaseIdx → UInt8 :=
  if band = .on5G ∧ rs = .cck then base else Function.update base (band, rfPath, txNum, rs) value

def bands : List BandType := [.on2_4G, .on5G]

/-- A round of `phy_StoreTxPowerByRateBase` -/
def storeSection (offset : OffsetIdx → Int8) (base : BaseIdx → UInt8) : BandType × Fin 4 × RateSection → BaseIdx → UInt8
  | (band, path, rs) =>
    if rs.txNum.val ≥ a.chip.nssNum then base
    else if band = .on5G ∧ rs = .cck then base
    else
      phySetTxPowerByRateBase base band path rs rs.txNum
        (phyGetTxPowerByRate a offset band path rs.txNum rs.base).toUInt8

/-- `phy_StoreTxPowerByRateBase` -/
def phyStoreTxPowerByRateBase : ByRate :=
  let sections := bands ×ˢ List.finRange 4 ×ˢ RateSection.all
  { t with txPwrByRateBase := sections.foldl (storeSection a t.txPwrByRateOffset) t.txPwrByRateBase }

/-- One section of `phy_ConvertTxPowerByRateInDbmToRelativeValues`. The base is read before the loop changes it. -/
def convertSection (offset : OffsetIdx → Int8) : BandType × Fin 4 × Fin 4 × RateSection → OffsetIdx → Int8
  | (band, path, txNum, rs) =>
    let base := (phyGetTxPowerByRate a offset band path txNum rs.base).toUInt8
    rs.rates.foldl (fun offset rate =>
      let value := (phyGetTxPowerByRate a offset band path txNum rate).toUInt8
      phySetTxPowerByRate offset band path txNum rate (value - base).toInt8) offset

/-- `phy_ConvertTxPowerByRateInDbmToRelativeValues` -/
def phyConvertTxPowerByRateInDbmToRelativeValues : ByRate :=
  let sections := bands ×ˢ List.finRange 4 ×ˢ List.finRange 4 ×ˢ RateSection.converted
  { t with txPwrByRateOffset := sections.foldl (convertSection a) t.txPwrByRateOffset }

/-- `PHY_TxPowerByRateConfiguration` -/
def phyTxPowerByRateConfiguration : ByRate :=
  phyConvertTxPowerByRateInDbmToRelativeValues a (phyStoreTxPowerByRateBase a t)

/-- `PHY_InitTxPowerByRate` -/
def phyInitTxPowerByRate : ByRate := { t with txPwrByRateOffset := fun _ => 0 }

end ByRate

/-! ### Rates and sections -/

namespace Rate

/-- The rate that an index is for. -/
def ofIndex (i : Fin 84) : Rate :=
  if h₁ : i.val < 4 then cck ⟨i.val, h₁⟩
  else if h₂ : i.val < 12 then ofdm ⟨i.val - 4, by omega⟩
  else if h₃ : i.val < 44 then mcs ⟨i.val - 12, by omega⟩
  else vht ⟨(i.val - 44) / 10, by omega⟩ ⟨(i.val - 44) % 10, by omega⟩

theorem ofIndex_rateIndex (rate : Rate) : ofIndex rate.phyGetRateIndexOfTxPowerByRate = rate := by
  unfold ofIndex phyGetRateIndexOfTxPowerByRate
  rcases rate with k | k | k | ⟨ss, k⟩
  · exact dif_pos k.isLt
  · rw [dif_neg (by dsimp only; omega), dif_pos (by dsimp only; omega)]
    exact congrArg ofdm (Fin.ext (Nat.add_sub_cancel_left ..))
  · rw [dif_neg (by dsimp only; omega), dif_neg (by dsimp only; omega), dif_pos (by dsimp only; omega)]
    exact congrArg mcs (Fin.ext (Nat.add_sub_cancel_left ..))
  · rw [dif_neg (by dsimp only; omega), dif_neg (by dsimp only; omega), dif_neg (by dsimp only; omega), vht.injEq, Fin.ext_iff, Fin.ext_iff]
    dsimp only
    omega

theorem rateIndex_ofIndex (i : Fin 84) : (ofIndex i).phyGetRateIndexOfTxPowerByRate = i := by
  unfold ofIndex phyGetRateIndexOfTxPowerByRate
  split_ifs
  · rfl
  · exact Fin.ext (by dsimp only; omega)
  · exact Fin.ext (by dsimp only; omega)
  · exact Fin.ext (by dsimp only; omega)

end Rate

namespace RateSection

variable {rs : RateSection} {rate : Rate}

theorem mem_rates : rate ∈ rs.rates ↔ rate.sec = rs := by
  rcases rs with _ | _ | ss | ss <;> rcases rate with k | k | k | ⟨ss', k⟩ <;>
    simp [rates, Rate.sec, Fin.ext_iff, eq_comm]
  constructor
  · rintro ⟨j, h⟩
    omega
  · intro h
    exact ⟨⟨k.val % 8, by omega⟩, by dsimp only; omega⟩

theorem nodup_rates (rs : RateSection) : rs.rates.Nodup := by
  rcases rs with _ | _ | ss | ss
  · exact (List.nodup_finRange 4).map fun _ _ h => by simpa using h
  · exact (List.nodup_finRange 8).map fun _ _ h => by simpa using h
  · exact (List.nodup_finRange 8).map fun _ _ h => by simpa [Fin.ext_iff] using h
  · exact (List.nodup_finRange 10).map fun _ _ h => by simpa using h

theorem sec_base (rs : RateSection) : rs.base.sec = rs := by
  rcases rs with _ | _ | ss | ss
  · rfl
  · rfl
  · exact congrArg ht (Fin.ext (by dsimp only; omega))
  · rfl

theorem mem_all (rs : RateSection) : rs ∈ all := by
  rcases rs with _ | _ | ss | ss <;> simp [all]

theorem nodup_all : all.Nodup := by
  decide

end RateSection

end Rtw
