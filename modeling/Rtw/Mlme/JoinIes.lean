import Rtw.Mlme.IeSearch
import Rtw.Mlme.SecIe
import Rtw.Scan.BssInfo

/-!
# The elements of a join

`rtw_joinbss_cmd` puts together the elements that the association will have: the security element of the supplicant, a
WMM element, the HT and VHT elements and the extended capabilities, each behind the last one in the same `IEs`. What it
reads of the elements of the network and what it writes behind the fixed fields is traced.
-/

namespace Rtw
open Access Traced Splice Tlv
open Scan (maxIeSz)

/-- The bytes of the network up to `IELength`, and what `IEs` has behind the fixed fields. -/
inductive JoinObj where
  | network
  | elements

def JoinObj.size (ieLength : Nat) : JoinObj → Nat
  | network => ieLength
  | elements => maxIeSz - 12

/-- `IEs` and `IELength` of `psecnetwork`. -/
structure OutIes where
  mem : Nat → UInt8
  len : BitVec 32

/-- What the card's settings put into the HT and VHT elements. -/
structure JoinCaps where
  /-- `IEEE80211_HT_CAP_SUP_WIDTH` or not -/
  htCapie : Bool → Vector UInt8 26
  cbw40Enable : Bool
  vhtCap : Vector UInt8 12
  /-- `hal_largest_bw` -/
  largestBw : Nat
  rxNss : Nat

/-- What `rtw_joinbss_cmd` goes by. -/
structure JoinIn where
  ies : List UInt8
  small : ies.length ≤ maxIeSz
  /-- the memory behind `ies` -/
  behind : List UInt8
  supplicant : Ie
  wps : Ie
  ndisauthtype : NdisAuthMode
  underWps : Bool
  pmkidList : Fin numPmkidCache → PmkidEntry
  assocBssid : MacAddr
  dot11PrivacyAlgrthm : PrivacyAlg
  wmmEnable : Bool
  htEnable : Bool
  vhtEnable : Bool
  wifiSpec : Bool
  bssCoexist : Bool
  caps : JoinCaps

/-- `rtw_set_ie` at the end of what there is -/
def rtwSetIe (index : UInt8) (source : List UInt8) (o : OutIes) : Traced JoinObj OutIes := do
  touch .elements (o.len.toNat - 12 : Int) (2 + source.length)
  return ⟨copy o.len.toNat (index :: UInt8.ofNat source.length :: source) o.mem,
    o.len + BitVec.ofNat 32 (source.length + 2)⟩

/-- The comparison with `l`, which ends at the first byte that differs. -/
def compareT (mem : Nat → UInt8) : Nat → List UInt8 → Traced JoinObj Bool
  | _, [] => pure true
  | off, c :: l => do
    touch .network off 1
    if mem off = c then compareT mem (off + 1) l else return false

def wmmOui : List UInt8 := [0x00, 0x50, 0xf2, 0x02]

/-- The comparisons of `rtw_restruct_wmm_ie` at an element. -/
def isWmmT (inIe : Nat → UInt8) (i : Nat) : Traced JoinObj Bool :=
  if inIe i = 0xdd then compareT inIe (i + 2) wmmOui else pure false

/-- The loop of `rtw_restruct_wmm_ie`: where the WMM element is. -/
def wmmLoopT (inIe : Nat → UInt8) (inLen : Nat) : Nat → Nat → Traced JoinObj (Option Nat)
  | 0, _ => pure none
  | fuel + 1, i =>
    if i < inLen then do
      touch .network i 1
      let oui ← isWmmT inIe i
      if oui ∧ i + 5 < inLen then return some i
      else
        touch .network (i + 1 : Nat) 1
        wmmLoopT inIe inLen fuel (i + ((inIe (i + 1)).toNat + 2))
    else pure none

/-- `rtw_restruct_wmm_ie` -/
def rtwRestructWmmIe (inIe : Nat → UInt8) (inLen : Nat) (o : OutIes) : Traced JoinObj OutIes := do
  let found ← wmmLoopT inIe inLen inLen 12
  match found with
  | some j =>
    touch .network j 9
    touch .elements (o.len.toNat - 12 : Int) 9
    let mem := copy o.len.toNat (read inIe j 9) o.mem
    let mem := Function.update mem (o.len + 1).toNat 7
    let mem := Function.update mem (o.len + 6).toNat 0
    return ⟨Function.update mem (o.len + 8).toNat 0, o.len + 9⟩
  -- without a round of the loop `ielength` is what it was set to at first
  | none => return ⟨o.mem, if 12 < inLen then o.len else 0⟩

def defaultWmm : List UInt8 := [0x00, 0x50, 0xf2, 0x02, 0x00, 0x01, 0x00]

namespace JoinIn
variable (x : JoinIn)

def inIe : Nat → UInt8 := fun i => (x.ies ++ x.behind).getD i 0

/-- The elements of the network. -/
def elements : List UInt8 := x.ies.drop 12

/-- `rtw_get_ie` on what is behind the fixed fields; a limit below 1 is like 0. -/
def getIe (index : Nat) : Traced JoinObj (Option (Nat × Nat)) :=
  rtwGetIeT .network 12 ((x.ies ++ x.behind).drop 12) index (x.ies.length - 12) 0

def secPriv : SecPriv where
  ndisauthtype := x.ndisauthtype
  underWps := x.underWps
  wpsIe := x.wps.bytes
  supplicantIe := fun i => x.supplicant.bytes.getD i 0
  pmkidList := x.pmkidList
  assocBssid := x.assocBssid

/-- The network's `IEs` have been copied as far as `IELength`. -/
def outIe : Nat → UInt8 := fun i => x.ies.getD i 0

/-- The element that is copied. -/
def secIe : Option Ie :=
  if x.underWps then some x.wps
  else if x.secPriv.authmode = wpaIeId ∨ x.secPriv.authmode = wpa2IeId then some x.supplicant else none

/-- `out_ie` when it has been copied. -/
def copied : Nat → UInt8 := copy 12 (x.secIe.elim [] Item.bytes) (copy 0 (read x.inIe 0 12) x.outIe)

/-- The spans of `rtw_remove_pmkid`. -/
def removePmkidSpans (ie : Nat → UInt8) : Traced JoinObj Unit := do
  touch .elements 1 1
  touchIf (ie 13 > 20) .elements 22 2

/-- The spans of `rtw_append_pmkid`. -/
def appendPmkidSpans (ie : Nat → UInt8) (ieLen : BitVec 32) (pmkid : Pmkid) : Traced JoinObj Unit := do
  touch .elements 1 1
  touchIf (ie 13 > 20) .elements 22 2
  touchIf (ie 13 > 20 ∧ rtwGetLe16 ie (14 + 20) = 1) .elements 24 16
  if ie 13 > 20 ∧ rtwGetLe16 ie (14 + 20) = 1 ∧ read ie (14 + 20 + 2) 16 = pmkid.toList then return ()
  else
    let len := if ie 13 > 20 then (cutPmkid ie ieLen).2 else ieLen
    touch .elements (len.toNat - 12 : Int) 2
    touch .elements ((len + 2).toNat - 12 : Int) 16

/-- What is done about the PMKIDs touches. -/
def pmkidSpans (ieLen : BitVec 32) : Traced JoinObj Unit :=
  if x.secPriv.authmode = wpa2IeId then
    x.secPriv.secIsInPmkidList.elim (removePmkidSpans x.copied) fun iEntry =>
      appendPmkidSpans x.copied ieLen (x.pmkidList iEntry).pmkid
  else pure ()

/-- `rtw_restruct_sec_ie` -/
def restructSecIeT : Traced JoinObj OutIes := do
  let n := (x.secIe.elim [] Item.bytes).length
  touch .elements 0 n
  x.pmkidSpans (12 + BitVec.ofNat 32 n)
  let res := rtwRestructSecIe x.secPriv x.inIe x.outIe
  return ⟨res.1, res.2⟩

/-- An element with a body, where `rtw_get_ie` finds one. -/
def getIeBody (index : Nat) : Traced JoinObj (Option (Nat × Nat)) := do
  let p ← x.getIe index
  return p.filter fun e => 0 < e.2

/-- `infos[0]` of the HT operation element at `p`. -/
def htInfos (p : Nat) : Traced JoinObj UInt8 := do
  touch .network (12 + p + 3 : Nat) 1
  return x.inIe (12 + p + 3)

/-- `rtw_build_wmm_ie_ht` -/
def rtwBuildWmmIeHt (qosOption : Bool) (o : OutIes) : Traced JoinObj OutIes :=
  if qosOption then pure o else rtwSetIe 0xdd defaultWmm o

/-- The HT operation element, if it has the length of one. -/
def getHtInfo : Traced JoinObj (Option Nat) := do
  let p ← x.getIe 61
  return (p.filter fun e => e.2 = 22).map Prod.fst

/-- Whether the network has 40 MHz by its HT operation element. -/
def htOperationBw40 : Traced JoinObj Bool := do
  let p ← x.getHtInfo
  p.elim (pure false) fun p => do
    let infos ← x.htInfos p
    return infos &&& 4 ≠ 0 ∧ (infos &&& 3 = 1 ∨ infos &&& 3 = 3)

/-- `rtw_set_ie` with `n` bytes of the element at `p` -/
def copyIe (index : UInt8) (p n : Nat) (o : OutIes) : Traced JoinObj OutIes := do
  touch .network (12 + p + 2 : Nat) n
  rtwSetIe index (read x.inIe (12 + p + 2) n) o

/-- The HT operation element is copied. -/
def copyHtInfo (o : OutIes) : Traced JoinObj OutIes := do
  let p ← x.getHtInfo
  p.elim (pure o) fun p => x.copyIe 61 p 22 o

/-- `rtw_restructure_ht_ie` -/
def rtwRestructureHtIe (o : OutIes) : Traced JoinObj OutIes := do
  let bw40 ← x.htOperationBw40
  let o ← rtwSetIe 45 (x.caps.htCapie (x.caps.cbw40Enable && bw40)).toList o
  x.copyHtInfo o

/-- `rtw_build_vht_op_mode_notify_ie`: the field. -/
def opMode (bw : Nat) : UInt8 := UInt8.ofNat (bw % 4 + 16 * ((x.caps.rxNss - 1) % 8))

/-- The HT width for `rtw_restructure_vht_ie`. -/
def htBw : Traced JoinObj Nat := do
  let p ← x.getIeBody 61
  p.elim (pure 0) fun p => do
    let infos ← x.htInfos p.1
    return if infos &&& 4 ≠ 0 then 1 else 0

/-- `operation_bw` by the VHT operation element at `p`. -/
def vhtBw (supportedChnlWidth : UInt8) (operationBw p : Nat) : Traced JoinObj Nat := do
  touch .network (12 + p + 2 : Nat) 1
  return if x.inIe (12 + p + 2) ≥ 1 then
      if supportedChnlWidth = 2 then 4 else if supportedChnlWidth = 1 then 3 else 2
    else operationBw

/-- The part of `rtw_restructure_vht_ie` behind the capabilities. -/
def buildVhtOperation (supportedChnlWidth : UInt8) (o : OutIes) : Traced JoinObj OutIes := do
  let operationBw ← x.htBw
  let p ← x.getIeBody 192
  let operationBw ← p.elim (pure operationBw) fun p => x.vhtBw supportedChnlWidth operationBw p.1
  let o ← p.elim (pure o) fun p => x.copyIe 192 p.1 p.2 o
  rtwSetIe 199 [x.opMode (min x.caps.largestBw operationBw)] o

/-- The width in the VHT capabilities at `p`. -/
def supportedChnlWidth (p : Nat) : UInt8 := (x.inIe (12 + p + 2) >>> 2) &&& 3

/-- `rtw_restructure_vht_ie`: `vht_option` as well. -/
def rtwRestructureVhtIe (o : OutIes) : Traced JoinObj (Bool × OutIes) := do
  let p ← x.getIeBody 191
  p.elim (pure (false, o)) fun p => do
    touch .network (12 + p.1 + 2 : Nat) 1
    let o ← rtwSetIe 191 x.caps.vhtCap.toList o
    let o ← x.buildVhtOperation (x.supportedChnlWidth p.1) o
    return (true, o)

/-- `cap_content` of `rtw_append_exented_cap` -/
def capContent (bssCoexist vhtOption : Bool) : List UInt8 :=
  [if bssCoexist then 1 else 0, 0, 0, 0, 0, 0, 0, if vhtOption then 0x40 else 0]

/-- `rtw_append_exented_cap` -/
def rtwAppendExentedCap (bssCoexist vhtOption : Bool) (o : OutIes) : Traced JoinObj OutIes :=
  if capContent bssCoexist vhtOption = List.replicate 8 0 then pure o
  else rtwSetIe 127 (capContent bssCoexist vhtOption) o

/-- The algorithms without HT. -/
def legacyPrivacy : Bool :=
  x.dot11PrivacyAlgrthm = .wep40 ∨ x.dot11PrivacyAlgrthm = .wep104 ∨ x.dot11PrivacyAlgrthm = .tkip

def joinWmm (o : OutIes) : Traced JoinObj OutIes :=
  if x.wmmEnable then rtwRestructWmmIe x.inIe x.ies.length o else pure o

def joinHt (htOption qosOption : Bool) (o : OutIes) : Traced JoinObj OutIes :=
  if htOption then rtwBuildWmmIeHt qosOption o >>= x.rtwRestructureHtIe else pure o

def joinVht (htOption : Bool) (o : OutIes) : Traced JoinObj (Bool × OutIes) :=
  if htOption ∧ x.vhtEnable then x.rtwRestructureVhtIe o else pure (false, o)

/-- `rtw_joinbss_cmd` behind the WMM element. -/
def joinHtVht (qosOption : Bool) (o : OutIes) : Traced JoinObj OutIes := do
  let p ← x.getIeBody 45
  let htOption : Bool := x.htEnable ∧ p.isSome ∧ x.legacyPrivacy = false
  let o ← x.joinHt htOption qosOption o
  let (vhtOption, o) ← x.joinVht htOption o
  -- `rtw_ht_use_default_setting` has set `bss_coexist` anew
  rtwAppendExentedCap (if htOption then x.wifiSpec else x.bssCoexist) vhtOption o

/-- `rtw_joinbss_cmd`: the elements it gives to the join. -/
def rtwJoinbssCmd : Traced JoinObj OutIes := do
  let o ← x.restructSecIeT
  let o' ← x.joinWmm o
  x.joinHtVht (o'.len ≠ o.len) o'

end JoinIn

end Rtw
