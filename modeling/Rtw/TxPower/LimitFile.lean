import Rtw.TxPower.ByRate
import Rtw.TxPower.ParaText

/-!
# TXPWR_LMT files

`phy_ParsePowerLimitTableFile`: a table has a label with four names, a line START, a line with the names of the columns,
rows for channels, and a line END. Names and numbers are copied into buffers of ten bytes; an access outside of one, of the
file's buffer or of a table of limits has no result.
-/

namespace Rtw
open Para

/-- The four indices of a limit that vary: regulation, bandwidth, rate section, channel. -/
abbrev LimitIdx := Nat × Nat × Nat × Int

/-- `TxPwrLimit_2_4G` and `TxPwrLimit_5G`, at path A. -/
structure LimitTables where
  txPwrLimit_2_4G : LimitIdx → Int8
  txPwrLimit_5G : LimitIdx → Int8

/-- `loadingStage` -/
inductive LoadingStage where
  | label
  | start
  | columns
  | rows
  deriving DecidableEq

/-- What `phy_ParsePowerLimitTableFile` keeps from line to line, and the tables that it fills. -/
structure LimitState where
  loadingStage : LoadingStage
  band : Name
  bandwidth : Name
  rateSection : Name
  rfPath : Name
  colNumBuf : Name
  regulation : Fin 4 → Name
  colNum : UInt8
  tables : LimitTables

def zeroName : Name := Vector.replicate 10 0

/-! ### A limit -/

def centerCh5gAll : List UInt8 :=
  [36, 38, 40, 42, 44, 46, 48, 52, 54, 56, 58, 60, 62, 64, 100, 102, 104, 106, 108, 110, 112, 116, 118, 120, 122, 124, 126,
    128, 132, 134, 136, 138, 140, 142, 144, 149, 151, 153, 155, 157, 159, 161, 165, 167, 169, 171, 173, 175, 177]

/-- `phy_GetChannelIndexOfTxPowerLimit` -/
def phyGetChannelIndexOfTxPowerLimit (band : BandType) (channel : UInt8) : Int8 :=
  match band with
  | .on2_4G => (channel - 1).toInt8
  | .on5G => centerCh5gAll.zipIdx.foldl (fun channelIndex e => if e.1 = channel then Int8.ofNat e.2 else channelIndex) (-1)

/-- The comparison of a limit with the one in a table of `bwNum` bandwidths and `chNum` channels. -/
def storeLimit (bwNum chNum : Nat) (limits : LimitIdx → Int8) (i : LimitIdx) (powerLimit : Int8) : Option (LimitIdx → Int8) :=
  if i.1 < 4 ∧ i.2.1 < bwNum ∧ i.2.2.1 < 10 ∧ 0 ≤ i.2.2.2 ∧ i.2.2.2 < chNum then
    some (if powerLimit < limits i then Function.update limits i powerLimit else limits)
  else none

/-- The index for a regulation. -/
def regulationIdx (regulation : Name) : Option Nat := do
  -- "FCC", "MKK", "ETSI", "WW13"
  let fcc ← begins regulation.toList [0x46, 0x43, 0x43]
  let mkk ← begins regulation.toList [0x4d, 0x4b, 0x4b]
  let etsi ← begins regulation.toList [0x45, 0x54, 0x53, 0x49]
  let ww13 ← begins regulation.toList [0x57, 0x57, 0x31, 0x33]
  return if fcc then 0 else if mkk then 1 else if etsi then 2 else if ww13 then 3 else 0

/-- The index for the kind of rates and the number of chains. -/
def rateSectionIdx (rateSection rfPath : Name) : Option (Option Nat) := do
  -- "CCK", "OFDM", "HT", "VHT"
  let cck ← begins rateSection.toList [0x43, 0x43, 0x4b]
  let ofdm ← begins rateSection.toList [0x4f, 0x46, 0x44, 0x4d]
  let ht ← begins rateSection.toList [0x48, 0x54]
  let vht ← begins rateSection.toList [0x56, 0x48, 0x54]
  -- "1T" … "4T"
  let t1 ← begins rfPath.toList [0x31, 0x54]
  let t2 ← begins rfPath.toList [0x32, 0x54]
  let t3 ← begins rfPath.toList [0x33, 0x54]
  let t4 ← begins rfPath.toList [0x34, 0x54]
  return if cck ∧ t1 then some 0
    else if ofdm ∧ t1 then some 1
    else if ht ∧ t1 then some 2
    else if ht ∧ t2 then some 3
    else if ht ∧ t3 then some 4
    else if ht ∧ t4 then some 5
    else if vht ∧ t1 then some 6
    else if vht ∧ t2 then some 7
    else if vht ∧ t3 then some 8
    else if vht ∧ t4 then some 9
    else none

/-- The index for a bandwidth. -/
def bandwidthIdx (bandwidth : Name) : Option Nat := do
  -- "20M", "40M", "80M", "160M"
  let bw20 ← begins bandwidth.toList [0x32, 0x30, 0x4d]
  let bw40 ← begins bandwidth.toList [0x34, 0x30, 0x4d]
  let bw80 ← begins bandwidth.toList [0x38, 0x30, 0x4d]
  let bw160 ← begins bandwidth.toList [0x31, 0x36, 0x30, 0x4d]
  return if bw20 then 0 else if bw40 then 1 else if bw80 then 2 else if bw160 then 3 else 0

/-- `PHY_SetTxPowerLimit`, after the names have been looked up. -/
def setTxPowerLimitAt (t : LimitTables) (band : Name) (regulation bandwidth rateSection : Nat) (channel : UInt8)
    (powerLimit : Int8) : Option LimitTables := do
  -- "2.4G", "5G"
  let on2_4G ← begins band.toList [0x32, 0x2e, 0x34, 0x47]
  let on5G ← begins band.toList [0x35, 0x47]
  if on2_4G then
    let channelIndex := phyGetChannelIndexOfTxPowerLimit .on2_4G channel
    if channelIndex = -1 then return t
    else
      let i := (regulation, (if bandwidth ≥ 2 then 1 else bandwidth), rateSection, channelIndex.toInt)
      let limits ← storeLimit 2 14 t.txPwrLimit_2_4G i powerLimit
      return { t with txPwrLimit_2_4G := limits }
  else if on5G then
    let channelIndex := phyGetChannelIndexOfTxPowerLimit .on5G channel
    if channelIndex = -1 then return t
    else
      let limits ← storeLimit 4 49 t.txPwrLimit_5G (regulation, bandwidth, rateSection, channelIndex.toInt) powerLimit
      return { t with txPwrLimit_5G := limits }
  else return t

/-- `PHY_SetTxPowerLimit`; both numbers are used also if they are illegal. -/
def phySetTxPowerLimit (t : LimitTables) (regulation band bandwidth rateSection rfPath channel powerLimit : Name) :
    Option LimitTables := do
  let channel ← getU1ByteIntegerFromStringInDecimal channel.toList
  let powerLimit ← if channel.1 then (getU1ByteIntegerFromStringInDecimal powerLimit.toList).map Prod.snd else some 0
  let powerLimit := if powerLimit.toInt8 > 63 then 63 else powerLimit.toInt8
  let regulation ← regulationIdx regulation
  let rs ← rateSectionIdx rateSection rfPath
  let bandwidth ← bandwidthIdx bandwidth
  rs.elim (some t) fun rs => setTxPowerLimitAt t band regulation bandwidth rs channel.2 powerLimit

/-! ### The lines -/

/-- `##` at the beginning. -/
def isHashes (szLine : Ptr) : Option Bool := do
  let c ← szLine[0]?
  if c = 0x23 then
    let c' ← szLine[1]?
    return c' = 0x23
  else return false

/-- The label of a table. A blank is put back in front of the first name. -/
def limitLabel (st : LimitState) (szLine : Ptr) : Option (Next LimitState) := do
  let st := { st with band := zeroName, bandwidth := zeroName, rateSection := zeroName, rfPath := zeroName,
                      colNumBuf := zeroName, regulation := fun _ => zeroName }
  let hashes ← isHashes szLine
  if hashes then
    let p ← skipBlanks (szLine.drop 2)
    let r ← parseQualifiedString (0x20 :: p) st.band 0x20 0x2c
    r.elim (some (.done false st)) fun (band, p) => do
      let st := { st with band }
      let r ← parseQualifiedString p st.bandwidth 0x20 0x2c
      r.elim (some (.done false st)) fun (bandwidth, p) => do
        let st := { st with bandwidth }
        let r ← parseQualifiedString p st.rfPath 0x20 0x2c
        r.elim (some (.done false st)) fun (rfPath, p) => do
          let st := { st with rfPath }
          let r ← parseQualifiedString p st.rateSection 0x20 0x2c
          r.elim (some (.done false st)) fun (rateSection, _) =>
            some (.next { st with rateSection, loadingStage := .start })
  else return .next st

/-- The line START. -/
def limitStart (st : LimitState) (szLine : Ptr) : Option (Next LimitState) := do
  let hashes ← isHashes szLine
  if hashes then
    let p ← skipBlanks (szLine.drop 2)
    -- "START"
    let start ← begins p [0x53, 0x54, 0x41, 0x52, 0x54]
    return if start then .next { st with loadingStage := .columns } else .done false st
  else return .next st

/-- A name up to a blank or NUL, with `regulation_name_cnt`. -/
def nameLoop (cnt : Nat) (name : Name) : Ptr → Option (Nat × Name × Ptr)
  | [] => none
  | c :: p =>
    if isBlank c ∨ c = 0 then some (cnt, name, c :: p)
    else if h : cnt < 10 then nameLoop (cnt + 1) (name.set cnt c h) p
    else none

/-- The names of the columns. -/
def regulationLoop (st : LimitState) : List (Fin 4) → Ptr → Option (Next LimitState)
  | [], _ => some (.next { st with loadingStage := .rows })
  | k :: ks, p => do
    let p ← skipBlanks p
    let r ← nameLoop 0 (st.regulation k) p
    let st := { st with regulation := Function.update st.regulation k r.2.1 }
    if r.1 = 0 then return .done false st else regulationLoop st ks r.2.2

/-- The first `colNum` columns. -/
def columnsOf (colNum : UInt8) : List (Fin 4) := (List.finRange 4).take colNum.toNat

/-- The line with the number of columns and their names. -/
def limitColumns (st : LimitState) (szLine : Ptr) : Option (Next LimitState) := do
  let hashes ← isHashes szLine
  if hashes then
    let p ← skipBlanks (szLine.drop 2)
    let r ← parseQualifiedString p st.colNumBuf 0x23 0x23
    r.elim (some (.done false st)) fun (colNumBuf, p) => do
      let n ← getU1ByteIntegerFromStringInDecimal colNumBuf.toList
      let st := { st with colNumBuf, colNum := n.2 }
      if n.1 = false ∨ n.2 > 4 then return .done false st else regulationLoop st (columnsOf n.2) p
  else return .next st

/-- The digits of a channel. -/
def channelLoop (cnt : Nat) (channel : Name) : Ptr → Option (Name × Ptr)
  | [] => none
  | c :: p =>
    if isDigit c then if h : cnt < 10 then channelLoop (cnt + 1) (channel.set cnt c h) p else none
    else some (channel, c :: p)

/-- The digits of a limit and its fraction: the count, the digits and the fraction, or nothing for a wrong one. -/
def limitLoop (cnt : Nat) (powerLimit : Name) : Ptr → Option (Option (Nat × Name × UInt8 × Ptr))
  | [] => none
  | c :: p =>
    if c = 0x2e then do
      let d ← p[0]?
      return if isDigit d then some (cnt, powerLimit, d, p.drop 1) else none
    else if isDigit c then if h : cnt < 10 then limitLoop (cnt + 1) (powerLimit.set cnt c h) p else none
    else some (some (cnt, powerLimit, 0, c :: p))

/-- `powerLimit` for a number, in decimal digits. -/
def limitDigits (limitValue : UInt8) : List UInt8 :=
  if limitValue ≥ 100 then [limitValue / 100 + 0x30, limitValue % 100 / 10 + 0x30, limitValue % 100 % 10 + 0x30]
  else if limitValue ≥ 10 then [limitValue / 10 + 0x30, limitValue % 10 + 0x30]
  else [limitValue + 0x30]

/-- A text and a NUL at the front of a name. -/
def overwrite (name : Name) (l : List UInt8) : Name :=
  Vector.ofFn fun i => if i.val < l.length then l.getD i.val 0 else if i.val = l.length then 0 else name.get i

/-- `powerLimit` is doubled, with one more for `.5`. Without a number it is 63, and two bytes are skipped. -/
def doubleLimit (cnt : Nat) (powerLimit : Name) (fraction : UInt8) (p : Ptr) : Option (Option (Name × Ptr)) :=
  if cnt = 0 then some (some (overwrite zeroName [0x36, 0x33], p.drop 2))
  else do
    let n ← getU1ByteIntegerFromStringInDecimal powerLimit.toList
    if n.1 = false then return none
    else
      let limitValue := n.2 * 2
      let limitValue := if fraction = 0x35 then limitValue + 1 else limitValue
      return some (overwrite powerLimit (limitDigits limitValue), p)

/-- The limits of a row. -/
def limitRowLoop (channel : Name) (st : LimitState) : List (Fin 4) → Ptr → Option (Next LimitState)
  | [], _ => some (.next st)
  | k :: ks, p => do
    let p ← skipBlanks p
    let r ← limitLoop 0 zeroName p
    r.elim (some (.done false st)) fun (cnt, powerLimit, fraction, p) => do
      let r ← doubleLimit cnt powerLimit fraction p
      r.elim (some (.done false st)) fun (powerLimit, p) => do
        let tables ← phySetTxPowerLimit st.tables (st.regulation k) st.band st.bandwidth st.rateSection st.rfPath channel
          powerLimit
        limitRowLoop channel { st with tables } ks p

/-- A row, or the line END. -/
def limitRow (st : LimitState) (szLine : Ptr) : Option (Next LimitState) := do
  let hashes ← isHashes szLine
  if hashes then
    let p ← skipBlanks (szLine.drop 2)
    -- "END"
    let tableEnd ← begins p [0x45, 0x4e, 0x44]
    return if tableEnd then .next { st with loadingStage := .label } else .done false st
  else
    let c ← szLine[0]?
    if c = 0x63 ∨ c = 0x43 then
      let h ← szLine[1]?
      if h = 0x68 ∨ h = 0x48 then
        let r ← channelLoop 0 zeroName (szLine.drop 2)
        limitRowLoop r.1 st (columnsOf st.colNum) r.2
      else return .next st
    else return .next st

/-- A round of the loop in `phy_ParsePowerLimitTableFile` -/
def limitLine (st : LimitState) (szLine : Ptr) : Option (Next LimitState) := do
  let comment ← isCommentString szLine
  if comment then return .next st
  else
    match st.loadingStage with
    | .label => limitLabel st szLine
    | .start => limitStart st szLine
    | .columns => limitColumns st szLine
    | .rows => limitRow st szLine

/-- `phy_ParsePowerLimitTableFile` -/
def phyParsePowerLimitTableFile (regDecryptCustomFile : UInt8) (st : LimitState) (buffer : Ptr) :
    Option (Bool × LimitState) := do
  let text ← paraText regDecryptCustomFile buffer
  forLines limitLine { st with loadingStage := .label, colNum := 0 } text

end Rtw
