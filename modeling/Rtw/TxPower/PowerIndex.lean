import Mathlib.Data.List.Basic

/-!
# The index of the transmit power

`PHY_GetTxPowerIndex_8812A` adds up the index in eight bits, and `phy_TxPwrAdjInPercentage` takes the sum as unsigned: what
has become negative counts as 63. Besides, a card that does without the offset at USB 2 does without the limit.
`indexOk_iff` says for which sums the index is still within what base, limit, tracking and the user's setting allow.
-/

namespace Rtw

/-- `RTW_USB_SPEED_…` -/
inductive UsbSpeed where
  | v1
  | v2
  | v3
  deriving DecidableEq

/-- What `PHY_GetTxPowerIndex_8812A` reads: the index of `PHY_GetTxPowerIndexBase`, the offsets of `PHY_GetTxPowerByRate`,
`PHY_GetTxPowerLimit` and `PHY_GetTxPowerTrackingOffset`, and the fields of the adapter. -/
structure TxPowerIn where
  base : UInt8
  base_le : base ≤ 63
  byRate : Int8
  limit : Int8
  tracking : Int8
  currentTxPwrIdx : UInt8
  rate : UInt8
  usbSpeed : UsbSpeed
  is8812AU : Bool
  isNormalChip : Bool

def rf6052MaxTxPwr : UInt8 := 0x3f
def maxPowerIndex : Int8 := 0x3f

/-- `phy_TxPwrAdjInPercentage` -/
def phyTxPwrAdjInPercentage (currentTxPwrIdx txPwrIdx : UInt8) : UInt8 :=
  let txPwrIdx := if txPwrIdx > rf6052MaxTxPwr then rf6052MaxTxPwr else txPwrIdx
  let txPwrIdx := txPwrIdx + currentTxPwrIdx - 18
  if txPwrIdx > rf6052MaxTxPwr then rf6052MaxTxPwr else txPwrIdx

/-- `MGN_VHT1SS_MCS8`, `MGN_VHT1SS_MCS9`, `MGN_VHT2SS_MCS8` and `MGN_VHT2SS_MCS9` -/
def isVhtMcs89 (rate : UInt8) : Bool := rate = 0xa8 ∨ rate = 0xa9 ∨ rate = 0xb2 ∨ rate = 0xb3

namespace TxPowerIn
variable (x : TxPowerIn)

/-- The offset is not used. -/
def isUsb2Reduced : Bool := isVhtMcs89 x.rate = false ∧ x.usbSpeed = .v2 ∧ x.is8812AU = true

def powerDiffByRate : Int8 :=
  let powerDiffByRate := if x.byRate > x.limit then x.limit else x.byRate
  if x.isUsb2Reduced then 0 else powerDiffByRate

/-- `PHY_GetTxPowerIndex_8812A` -/
def phyGetTxPowerIndex8812A : UInt8 :=
  let txPower : Int8 := x.base.toInt8
  let txPower := txPower + x.powerDiffByRate
  let txPower := txPower + x.tracking
  let txPower := (phyTxPwrAdjInPercentage x.currentTxPwrIdx txPower.toUInt8).toInt8
  let txPower := if txPower > maxPowerIndex then maxPowerIndex else txPower
  let txPower := if txPower % 2 = 1 ∧ x.isNormalChip = false then txPower - 1 else txPower
  txPower.toUInt8

/-! ### The sums as integers -/

def diff : Int := if x.isUsb2Reduced then 0 else min x.byRate.toInt x.limit.toInt

def sum : Int := x.base.toNat + x.diff + x.tracking.toInt

/-- What the user's setting adds. -/
def user : Int := x.currentTxPwrIdx.toNat - 18

def bound : Int := x.base.toNat + x.limit.toInt + x.tracking.toInt + x.user

/-- The largest even number, on a chip that is none of the normal ones. -/
def evened (n : Int) : Int := if x.isNormalChip then n else n - n % 2

/-- The index is at most 63, and at most the bound. -/
def IndexOk : Prop :=
  x.phyGetTxPowerIndex8812A ≤ 63 ∧ (x.phyGetTxPowerIndex8812A.toNat : Int) ≤ max 0 x.bound

instance : Decidable x.IndexOk := inferInstanceAs (Decidable (_ ∧ _))

section
variable {x}

theorem toNat_toUInt8 (a : Int8) : (a.toUInt8.toNat : Int) = a.toInt % 256 := by
  have h := BitVec.toInt_eq_toNat_cond a.toBitVec
  have hlt := a.toBitVec.isLt
  show (a.toBitVec.toNat : Int) = a.toBitVec.toInt % 256
  split at h <;> omega

theorem toInt_powerDiffByRate : x.powerDiffByRate.toInt = x.diff := by
  unfold powerDiffByRate diff
  cases x.isUsb2Reduced with
  | true => rfl
  | false =>
    by_cases h : x.byRate > x.limit
    · have hlt := Int8.lt_iff_toInt_lt.1 h
      simp only [if_pos h]
      exact (Int.min_eq_right (Int.le_of_lt hlt)).symm
    · have hle := mt Int8.lt_iff_toInt_lt.2 h
      simp only [if_neg h]
      exact (Int.min_eq_left (Int.not_lt.1 hle)).symm

/-- The sum as the adjustment takes it. -/
theorem toNat_sum : (((x.base.toInt8 + x.powerDiffByRate + x.tracking).toUInt8).toNat : Int) = x.sum % 256 := by
  have hadd : (x.base.toInt8 + x.powerDiffByRate + x.tracking).toUInt8 =
      x.base + x.powerDiffByRate.toUInt8 + x.tracking.toUInt8 := rfl
  have hdiff := toNat_toUInt8 x.powerDiffByRate
  have htracking := toNat_toUInt8 x.tracking
  rw [toInt_powerDiffByRate] at hdiff
  rw [hadd, UInt8.toNat_add, UInt8.toNat_add, sum]
  omega

/-- `phy_TxPwrAdjInPercentage` on integers. -/
theorem toNat_adjust (cur p : UInt8) : ((phyTxPwrAdjInPercentage cur p).toNat : Int) =
    min ((min (p.toNat : Int) 63 + (cur.toNat - 18)) % 256) 63 := by
  have hmax : rf6052MaxTxPwr.toNat = 63 := rfl
  have hclamp : ∀ q : UInt8, (if q > rf6052MaxTxPwr then rf6052MaxTxPwr else q).toNat = min q.toNat 63 := by
    intro q
    by_cases hq : q > rf6052MaxTxPwr
    · have := UInt8.lt_iff_toNat_lt.1 hq
      rw [if_pos hq]
      omega
    · have := mt UInt8.lt_iff_toNat_lt.2 hq
      rw [if_neg hq]
      omega
  have h18 : (18 : UInt8).toNat = 18 := rfl
  unfold phyTxPwrAdjInPercentage
  simp only [hclamp, UInt8.toNat_sub, UInt8.toNat_add, h18]
  omega

/-- The last lines, for each index that the adjustment gives. -/
theorem last_lines : ∀ (t : Fin 64) (normal : Bool),
    let txPower := (UInt8.ofNat t.val).toInt8
    let txPower := if txPower > maxPowerIndex then maxPowerIndex else txPower
    let txPower := if txPower % 2 = 1 ∧ normal = false then txPower - 1 else txPower
    txPower.toUInt8.toNat = if normal then t.val else t.val - t.val % 2 := by
  decide +kernel

/-- The index as the integers give it. -/
theorem toNat_index : (x.phyGetTxPowerIndex8812A.toNat : Int) =
    x.evened (min ((min (x.sum % 256) 63 + x.user) % 256) 63) := by
  obtain ⟨t, ht⟩ : ∃ t, t = phyTxPwrAdjInPercentage x.currentTxPwrIdx
      (x.base.toInt8 + x.powerDiffByRate + x.tracking).toUInt8 := ⟨_, rfl⟩
  have hval := toNat_adjust x.currentTxPwrIdx (x.base.toInt8 + x.powerDiffByRate + x.tracking).toUInt8
  rw [← ht, toNat_sum] at hval
  have hlt : t.toNat < 64 := by omega
  have hlast := last_lines ⟨t.toNat, hlt⟩ x.isNormalChip
  rw [UInt8.ofNat_toNat] at hlast
  have hindex : x.phyGetTxPowerIndex8812A.toNat = if x.isNormalChip then t.toNat else t.toNat - t.toNat % 2 := by
    subst ht
    exact hlast
  rw [hindex, evened, user, ← hval]
  cases x.isNormalChip with
  | true => rfl
  | false =>
    show ((t.toNat - t.toNat % 2 : Nat) : Int) = t.toNat - (t.toNat : Int) % 2
    omega

/-- The offset is at most the limit, unless it is not used. -/
theorem diff_cases : x.diff ≤ x.limit.toInt ∨ x.diff = 0 := by
  unfold diff
  split
  · exact .inr rfl
  · exact .inl (Int.min_le_right _ _)

theorem diff_bounds : -128 ≤ x.diff ∧ x.diff ≤ 127 := by
  rw [← toInt_powerDiffByRate]
  exact ⟨x.powerDiffByRate.le_toInt, Int.le_of_lt_add_one x.powerDiffByRate.toInt_lt⟩

theorem evened_le {n : Int} (h : 0 ≤ n) : 0 ≤ x.evened n ∧ x.evened n ≤ n := by
  unfold evened
  split <;> omega

end

/-- The sum behind the adjustment, if nothing wraps. -/
def adjusted : Int := min x.sum 63 + x.user

/-- The same for a sum that is negative: it counts as 63, and if it is less than -193 as itself and 256. -/
def adjustedNeg : Int := (if x.sum < -193 then x.sum + 256 else 63) + x.user

/-- The largest index. -/
def top : Int := x.evened 63

/-- For any input. -/
theorem indexOk_iff (x : TxPowerIn) : x.IndexOk ↔
    (0 ≤ x.sum → (x.adjusted < 0 → x.top ≤ x.bound) ∧
      (0 ≤ x.adjusted → x.limit.toInt < x.diff → x.evened (min x.adjusted 63) ≤ max 0 x.bound)) ∧
    (x.sum < 0 → (x.adjustedNeg < 0 → x.top ≤ x.bound) ∧
      (0 ≤ x.adjustedNeg → x.adjustedNeg ≤ 255 → x.evened (min x.adjustedNeg 63) ≤ max 0 x.bound) ∧
      (255 < x.adjustedNeg → x.evened (x.adjustedNeg - 256) ≤ max 0 x.bound)) := by
  have hindex := toNat_index (x := x)
  have hok : x.IndexOk ↔ x.evened (min ((min (x.sum % 256) 63 + x.user) % 256) 63) ≤ max 0 x.bound := by
    have hle : x.phyGetTxPowerIndex8812A ≤ 63 := by
      have := (evened_le (x := x) (n := min ((min (x.sum % 256) 63 + x.user) % 256) 63) (by omega)).2
      refine UInt8.le_iff_toNat_le.2 ?_
      have h63 : (63 : UInt8).toNat = 63 := rfl
      omega
    rw [IndexOk, and_iff_right hle, hindex]
  have hbase : x.base.toNat ≤ 63 := UInt8.le_iff_toNat_le.1 x.base_le
  have hcur := x.currentTxPwrIdx.toNat_lt
  have htr : -128 ≤ x.tracking.toInt ∧ x.tracking.toInt < 128 := ⟨x.tracking.le_toInt, x.tracking.toInt_lt⟩
  have hlim : -128 ≤ x.limit.toInt ∧ x.limit.toInt < 128 := ⟨x.limit.le_toInt, x.limit.toInt_lt⟩
  have hd := x.diff_cases
  have hd' := x.diff_bounds
  have hsum : x.sum = x.base.toNat + x.diff + x.tracking.toInt := rfl
  have hbound : x.bound = x.base.toNat + x.limit.toInt + x.tracking.toInt + x.user := rfl
  have huser : x.user = x.currentTxPwrIdx.toNat - 18 := rfl
  have hadj : x.adjusted = min x.sum 63 + x.user := rfl
  have htop : 62 ≤ x.top := by
    unfold top evened
    split <;> omega
  have heven : ∀ n : Int, 0 ≤ n → x.evened n ≤ n := fun n hn => (evened_le hn).2
  rw [hok]
  by_cases hS : 0 ≤ x.sum
  · rw [imp_iff_right hS, and_iff_left fun h => absurd h (by omega)]
    by_cases hT : x.adjusted < 0
    · -- the adjusted sum wraps to the largest index
      have hV : min ((min (x.sum % 256) 63 + x.user) % 256) 63 = 63 := by omega
      rw [hV, ← top]
      omega
    · by_cases hsmall : x.sum ≤ 255 ∧ x.adjusted ≤ 255
      · have hV : (min (x.sum % 256) 63 + x.user) % 256 = x.adjusted := by omega
        have hle := heven (min x.adjusted 63) (by omega)
        rw [hV]
        omega
      · -- the bound is larger than any index
        have hle := heven (min ((min (x.sum % 256) 63 + x.user) % 256) 63) (by omega)
        have hle' := heven (min x.adjusted 63) (by omega)
        omega
  · rw [imp_iff_right (Int.not_le.1 hS), and_iff_right fun h => absurd h hS]
    have hneg : x.adjustedNeg = (if x.sum < -193 then x.sum + 256 else 63) + x.user := rfl
    have hfirst : min (x.sum % 256) 63 = if x.sum < -193 then x.sum + 256 else 63 := by
      split <;> omega
    rw [hfirst, ← hneg]
    have hrange : -18 ≤ x.adjustedNeg ∧ x.adjustedNeg ≤ 300 := by
      rw [hneg]
      split <;> omega
    by_cases hT : x.adjustedNeg < 0
    · have hV : min (x.adjustedNeg % 256) 63 = 63 := by omega
      rw [hV, ← top]
      omega
    · by_cases hT' : x.adjustedNeg ≤ 255
      · have hV : x.adjustedNeg % 256 = x.adjustedNeg := by omega
        rw [hV]
        omega
      · have hV : min (x.adjustedNeg % 256) 63 = x.adjustedNeg - 256 := by omega
        rw [hV]
        omega

/-- The user takes 18 from an index of 10. -/
def belowZero : TxPowerIn where
  base := 10
  base_le := by decide
  byRate := 0
  limit := 0
  tracking := 0
  currentTxPwrIdx := 0
  rate := 0x0c
  usbSpeed := .v3
  is8812AU := true
  isNormalChip := true

theorem not_indexOk : ¬ ∀ x : TxPowerIn, x.IndexOk := by
  intro h
  exact absurd (h belowZero) (by decide)

end TxPowerIn

end Rtw
