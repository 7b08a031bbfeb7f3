import Rtw.TxPower.ByRate
import Rtw.TxPower.ParaText

/-!
# PHY_REG_PG files

`phy_ParseBBPgParaFile`, for both versions of the file and both kinds of values. An access outside of the buffer or of a
table has no result.
-/

namespace Rtw
open Para

inductive PgValueType where
  | relative
  | exact
  deriving DecidableEq

structure PgAdapter extends ByRateAdapter where
  regDecryptCustomFile : UInt8
  /-- `rf_type == RF_1T1R` -/
  is1T1R : Bool

/-- What `phy_ParseBBPgParaFile` keeps from line to line, and the tables that it fills. -/
structure PgState where
  firstLine : Bool
  phyRegPgVersion : UInt8
  phyRegPgValueType : PgValueType
  txNum : UInt8
  band : BandType
  rfPath : UInt8
  byRate : ByRate
  mcsTxPowerLevelOriginalOffset : Fin 13 → Fin 16 → UInt32
  pwrGroupCnt : UInt8

/-! ### The registers -/

def vhtRates : List Rate := (List.finRange 4).flatMap fun ss => (RateSection.vht ss).rates
def mcsRates : List Rate := (List.finRange 32).map .mcs

/-- The rates from `k` on, for the bytes from the lowest on. -/
def fromByte0 (l : List Rate) (k num : Nat) : List (Rate × Nat) := ((l.drop k).take num).zipIdx

/-- The same, from the second byte on. -/
def fromByte1 (l : List Rate) (num : Nat) : List (Rate × Nat) := (l.take num).zipIdx 1

/-- A register that each path has. -/
def onPaths (regAddr offset : UInt32) : Bool :=
  regAddr = 0xc00 + offset ∨ regAddr = 0xe00 + offset ∨ regAddr = 0x1800 + offset ∨ regAddr = 0x1a00 + offset

/-- The rates of a register in `PHY_GetRateValuesOfTxPowerByRate`, each with the byte that is for it. -/
def pgRates (regAddr bitMask : UInt32) : List (Rate × Nat) :=
  if regAddr = 0xe00 ∨ regAddr = 0x830 then fromByte0 RateSection.ofdm.rates 0 4
  else if regAddr = 0xe04 ∨ regAddr = 0x834 then fromByte0 RateSection.ofdm.rates 4 4
  else if regAddr = 0xe08 then fromByte1 RateSection.cck.rates 1
  else if regAddr = 0x86c then
    if bitMask = 0xffffff00 then fromByte1 (RateSection.cck.rates.drop 1) 3
    else if bitMask = 0x000000ff then fromByte0 RateSection.cck.rates 3 1
    else []
  else if regAddr = 0xe10 ∨ regAddr = 0x83c then fromByte0 mcsRates 0 4
  else if regAddr = 0xe14 ∨ regAddr = 0x848 then fromByte0 mcsRates 4 4
  else if regAddr = 0xe18 ∨ regAddr = 0x84c then fromByte0 mcsRates 8 4
  else if regAddr = 0xe1c ∨ regAddr = 0x868 then fromByte0 mcsRates 12 4
  else if regAddr = 0x838 then fromByte1 RateSection.cck.rates 3
  else if onPaths regAddr 0x20 then fromByte0 RateSection.cck.rates 0 4
  else if onPaths regAddr 0x24 then fromByte0 RateSection.ofdm.rates 0 4
  else if onPaths regAddr 0x28 then fromByte0 RateSection.ofdm.rates 4 4
  else if onPaths regAddr 0x2c then fromByte0 mcsRates 0 4
  else if onPaths regAddr 0x30 then fromByte0 mcsRates 4 4
  else if onPaths regAddr 0x34 then fromByte0 mcsRates 8 4
  else if onPaths regAddr 0x38 then fromByte0 mcsRates 12 4
  else if onPaths regAddr 0x3c then fromByte0 vhtRates 0 4
  else if onPaths regAddr 0x40 then fromByte0 vhtRates 4 4
  else if onPaths regAddr 0x44 then fromByte0 vhtRates 8 4
  else if onPaths regAddr 0x48 then fromByte0 vhtRates 12 4
  else if onPaths regAddr 0x4c then fromByte0 vhtRates 16 4
  else if onPaths regAddr 0xd8 then fromByte0 mcsRates 16 4
  else if onPaths regAddr 0xdc then fromByte0 mcsRates 20 4
  else if onPaths regAddr 0xe0 then fromByte0 vhtRates 20 4
  else if onPaths regAddr 0xe4 then fromByte0 vhtRates 24 4
  else if onPaths regAddr 0xe8 then fromByte0 vhtRates 28 2
  else []

/-- `PwrByRateVal`: two decimal digits in a byte of the register. -/
def pwrByRateVal (value : UInt32) (i : Nat) : Int8 :=
  (((value >>> UInt32.ofNat (i * 8 + 4)) &&& 0xf) * 10 + ((value >>> UInt32.ofNat (i * 8)) &&& 0xf)).toUInt8.toInt8

/-- `PHY_GetRateValuesOfTxPowerByRate` -/
def phyGetRateValuesOfTxPowerByRate (regAddr bitMask value : UInt32) : List (Rate × Int8) :=
  (pgRates regAddr bitMask).map fun r => (r.1, pwrByRateVal value r.2)

/-- `PHY_GetRateSectionIndexOfTxPowerByRate` -/
def phyGetRateSectionIndexOfTxPowerByRate (version : UInt8) (regAddr bitMask : UInt32) : Fin 16 :=
  let index : Nat :=
    if version = 0 then
      if regAddr = 0xe00 then 0
      else if regAddr = 0xe04 then 1
      else if regAddr = 0xe08 then 6
      else if regAddr = 0x86c then if bitMask = 0xffffff00 then 7 else if bitMask = 0x000000ff then 15 else 0
      else if regAddr = 0xe10 then 2
      else if regAddr = 0xe14 then 3
      else if regAddr = 0xe18 then 4
      else if regAddr = 0xe1c then 5
      else if regAddr = 0x830 then 8
      else if regAddr = 0x834 then 9
      else if regAddr = 0x838 then 14
      else if regAddr = 0x83c then 10
      else if regAddr = 0x848 then 11
      else if regAddr = 0x84c then 12
      else if regAddr = 0x868 then 13
      else 0
    else 0
  ⟨index % 16, Nat.mod_lt _ (Nat.zero_lt_succ 15)⟩

/-- `PHY_StoreTxPowerByRateNew` -/
def phyStoreTxPowerByRateNew (t : ByRate) (band : BandType) (rfPath txNum : UInt8) (regAddr bitMask data : UInt32) : ByRate :=
  if h : rfPath.toNat < 4 then
    if txNum > 3 then t
    else
      { t with txPwrByRateOffset := (phyGetRateValuesOfTxPowerByRate regAddr bitMask data).foldl (fun offset r =>
          ByRate.phySetTxPowerByRate offset band ⟨rfPath.toNat, h⟩ r.1.txNum r.1 r.2) t.txPwrByRateOffset }
  else t

/-- `PHY_StoreTxPowerByRateOld` -/
def phyStoreTxPowerByRateOld (st : PgState) (regAddr bitMask data : UInt32) : Option PgState :=
  if h : st.pwrGroupCnt.toNat < 13 then
    let index := phyGetRateSectionIndexOfTxPowerByRate st.phyRegPgVersion regAddr bitMask
    let group := Function.update (st.mcsTxPowerLevelOriginalOffset ⟨st.pwrGroupCnt.toNat, h⟩) index data
    some { st with mcsTxPowerLevelOriginalOffset :=
            Function.update st.mcsTxPowerLevelOriginalOffset ⟨st.pwrGroupCnt.toNat, h⟩ group }
  else none

/-- `PHY_StoreTxPowerByRate` -/
def phyStoreTxPowerByRate (a : PgAdapter) (st : PgState) (band : BandType) (rfPath txNum : UInt8)
    (regAddr bitMask data : UInt32) : Option PgState :=
  if st.phyRegPgVersion > 0 then
    some { st with byRate := phyStoreTxPowerByRateNew st.byRate band rfPath txNum regAddr bitMask data }
  else do
    let st ← phyStoreTxPowerByRateOld st regAddr bitMask data
    return if regAddr = 0xe1c ∧ a.is1T1R then { st with pwrGroupCnt := st.pwrGroupCnt + 1 }
      else if regAddr = 0x868 ∧ ¬a.is1T1R then { st with pwrGroupCnt := st.pwrGroupCnt + 1 }
      else st

/-! ### The lines -/

/-- Without a value the file is given up. -/
def orFail {α : Type} (r : Option (Option α)) (st : PgState) (f : α → Option (Next PgState)) : Option (Next PgState) :=
  r.bind fun v => v.elim (some (.done false st)) f

/-- A value in steps of half a dBm, in decimal digits. -/
def combineByte (integer fraction : UInt8) : UInt32 :=
  let integer := integer * 2
  let integer := if fraction = 5 then integer + 1 else integer
  ((integer / 10).toUInt32 <<< 4) + (integer % 10).toUInt32

/-- The values of a row with exact values, from the highest byte on. -/
def combineValues : Nat → UInt32 → Ptr → Option (Option UInt32)
  | 0, combineValue, _ => some (some combineValue)
  | n + 1, combineValue, p =>
    (getFractionValueFromString p).bind fun v => v.elim (some none) fun (integer, fraction, p) =>
      combineValues n ((combineValue <<< 8) ||| combineByte integer fraction) p

/-- What is behind the register and the mask of a row. -/
def pgRowValue (a : PgAdapter) (st : PgState) (band : BandType) (rfPath txNum : UInt8) (regAddr bitMask : UInt32) (p : Ptr) :
    Option (Next PgState) :=
  match st.phyRegPgValueType with
  | .relative => orFail (getHexValueFromString p) st fun v =>
      (phyStoreTxPowerByRate a st band rfPath txNum regAddr bitMask v.1).map .next
  | .exact => orFail (combineValues 4 0 p) st fun v =>
      (phyStoreTxPowerByRate a st band rfPath txNum regAddr bitMask v).map .next

/-- The first line: version and kind of the values. -/
def pgHeader (st : PgState) (szLine : Ptr) : Option (Next PgState) := do
  -- "#[v1]", "#[v0]"
  let v1 ← begins szLine [0x23, 0x5b, 0x76, 0x31, 0x5d]
  let v0 ← begins szLine [0x23, 0x5b, 0x76, 0x30, 0x5d]
  if v1 ∨ v0 then
    let st := { st with phyRegPgVersion := if v1 then 1 else 0 }
    -- "[Exact]#", "[Relative]#"
    let exact ← begins (szLine.drop 5) [0x5b, 0x45, 0x78, 0x61, 0x63, 0x74, 0x5d, 0x23]
    if exact then return .next { st with phyRegPgValueType := .exact, firstLine := false }
    else
      let relative ← begins (szLine.drop 5) [0x5b, 0x52, 0x65, 0x6c, 0x61, 0x74, 0x69, 0x76, 0x65, 0x5d, 0x23]
      return if relative then .next { st with phyRegPgValueType := .relative, firstLine := false } else .done false st
  else return .done false st

/-- A line of a file of version 0. -/
def pgLineV0 (a : PgAdapter) (st : PgState) (szLine : Ptr) : Option (Next PgState) :=
  (getHexValueFromString szLine).bind fun v => v.elim (some (.next st)) fun (regAddr, p) =>
    if regAddr = 0xffff then some (.done true st)
    else orFail (getHexValueFromString p) st fun (bitMask, p) => pgRowValue a st .on2_4G 0 1 regAddr bitMask p

/-- The heading of a table. -/
def pgHeading (st : PgState) (szLine : Ptr) : Option (Next PgState) := do
  -- "#[2.4G]", "#[5G]"
  let g ← begins szLine [0x23, 0x5b, 0x32, 0x2e, 0x34, 0x47, 0x5d]
  if g then
    let c ← szLine[8]?
    return .next { st with band := .on2_4G, rfPath := c - 0x41 }
  else
    let a ← begins szLine [0x23, 0x5b, 0x35, 0x47, 0x5d]
    if a then
      let c ← szLine[6]?
      return .next { st with band := .on5G, rfPath := c - 0x41 }
    else return .done false st

/-- A row of a table. -/
def pgRow (a : PgAdapter) (st : PgState) (szLine : Ptr) : Option (Next PgState) := do
  let c ← szLine[1]?
  if 0x31 ≤ c ∧ c ≤ 0x34 then
    let st := { st with txNum := c - 0x31 }
    let r ← scanTo 0x5d szLine
    orFail (getHexValueFromString r.2) st fun (regAddr, p) =>
      orFail (getHexValueFromString p) st fun (bitMask, p) =>
        pgRowValue a st st.band st.rfPath st.txNum regAddr bitMask p
  else return .done false st

/-- A line of a file of version 1. -/
def pgLineV1 (a : PgAdapter) (st : PgState) (szLine : Ptr) : Option (Next PgState) := do
  -- "0xffff", "#[END]#"
  let ending ← begins szLine [0x30, 0x78, 0x66, 0x66, 0x66, 0x66]
  if ending then return .done true st
  else
    let tableEnd ← eqNByte [0x23, 0x5b, 0x45, 0x4e, 0x44, 0x5d, 0x23] szLine 7
    if tableEnd then return .next st
    else
      let c ← szLine[0]?
      if c = 0x23 then pgHeading st szLine else pgRow a st szLine

/-- A round of the loop in `phy_ParseBBPgParaFile` -/
def pgLine (a : PgAdapter) (st : PgState) (szLine : Ptr) : Option (Next PgState) := do
  let comment ← isCommentString szLine
  if comment then return .next st
  else
    let c ← szLine[0]?
    if isBlank c ∨ c = 0 then return .next st
    else if st.firstLine then pgHeader st szLine
    else if st.phyRegPgVersion = 0 then pgLineV0 a st szLine
    else pgLineV1 a st szLine

/-- `phy_ParseBBPgParaFile` -/
def phyParseBBPgParaFile (a : PgAdapter) (st : PgState) (buffer : Ptr) : Option (Bool × PgState) := do
  let text ← paraText a.regDecryptCustomFile buffer
  forLines (pgLine a) { st with firstLine := true, txNum := 0, band := .on2_4G, rfPath := 0 } text

end Rtw
