import Rtw.Mlme.Ie
import Rtw.Recv.Frame

/-!
# What a frame says about a network

`collect_bss_info` turns a beacon, a probe response or a probe request into a `WLAN_BSSID_EX`, and
`is_same_network` compares two of them.
-/

namespace Rtw.Scan

/-- `NDIS_802_11_NETWORK_INFRASTRUCTURE` -/
inductive InfrastructureMode where
  | ibss | infrastructure | autoUnknown | infrastructureMax | apMode | monitor
  deriving DecidableEq

/-- The fields of `WLAN_BSSID_EX` that the scan table reads. `ies` is the buffer `IEs`; what counts are its
first `ieLength` bytes. -/
structure WlanBssidEx where
  macAddress : MacAddr
  /-- `Reserved[0]`: the kind of the frame that the elements are from. -/
  reserved0 : Nat
  ssid : List UInt8
  rssi : Int
  infrastructureMode : InfrastructureMode
  signalStrength : Nat
  signalQuality : Nat
  ieLength : Nat
  ies : Nat → UInt8

namespace WlanBssidEx

/-- The memory that `rtw_zvmalloc` returns. -/
def zero : WlanBssidEx where
  macAddress := Vector.replicate 6 0
  reserved0 := 0
  ssid := []
  rssi := 0
  infrastructureMode := .ibss
  signalStrength := 0
  signalQuality := 0
  ieLength := 0
  ies _ := 0

/-- The elements. -/
def elems (b : WlanBssidEx) : List UInt8 := (List.range b.ieLength).map b.ies

/-- `memcpy` of `get_WLAN_BSSID_EX_sz` bytes: `IEs` keeps what is behind `IELength`. -/
def copyTo (src dst : WlanBssidEx) : WlanBssidEx :=
  { src with ies := fun i => if i < src.ieLength then src.ies i else dst.ies i }

def rtwGetCapability (b : WlanBssidEx) : Nat := (b.ies 10).toNat + 256 * (b.ies 11).toNat

end WlanBssidEx

def wlanCapabilityBss : Nat := 1 <<< 0
def wlanCapabilityIbss : Nat := 1 <<< 1

/-- `is_same_network`; `feature` is set when P2P is on. -/
def isSameNetwork (src dst : WlanBssidEx) (feature : Bool) : Bool :=
  let sCap := src.rtwGetCapability
  let dCap := dst.rtwGetCapability
  if feature && src.macAddress = dst.macAddress then true
  else
    decide (src.ssid.length = dst.ssid.length) && decide (src.macAddress = dst.macAddress) &&
      decide (src.ssid = dst.ssid) && decide (sCap &&& wlanCapabilityIbss = dCap &&& wlanCapabilityIbss) &&
      decide (sCap &&& wlanCapabilityBss = dCap &&& wlanCapabilityBss)

/-- What tells two networks apart when P2P is off. -/
def WlanBssidEx.key (b : WlanBssidEx) : MacAddr × List UInt8 × Nat × Nat :=
  (b.macAddress, b.ssid, b.rtwGetCapability &&& wlanCapabilityIbss, b.rtwGetCapability &&& wlanCapabilityBss)

theorem isSameNetwork_p2p_iff {a b : WlanBssidEx} : isSameNetwork a b true = true ↔ a.macAddress = b.macAddress := by
  unfold isSameNetwork
  by_cases h : a.macAddress = b.macAddress
  · simp [h]
  · simp [h]

theorem isSameNetwork_iff {a b : WlanBssidEx} : isSameNetwork a b false = true ↔ a.key = b.key := by
  simp only [isSameNetwork, WlanBssidEx.key, Bool.false_and, Bool.false_eq_true, if_false, Bool.and_eq_true,
    decide_eq_true_eq, Prod.mk.injEq]
  constructor
  · rintro ⟨⟨⟨⟨-, hmac⟩, hssid⟩, hibss⟩, hbss⟩
    exact ⟨hmac, hssid, hibss, hbss⟩
  · rintro ⟨hmac, hssid, hibss, hbss⟩
    exact ⟨⟨⟨⟨congrArg List.length hssid, hmac⟩, hssid⟩, hibss⟩, hbss⟩

/-! ### Frames -/

inductive MgntSubtype where
  | beacon | probeRsp | probeReq | other
  deriving DecidableEq

def MgntSubtype.reserved0 : MgntSubtype → Nat
  | .beacon => 1
  | .probeReq => 2
  | .probeRsp => 3
  | .other => 0

def MgntSubtype.ieOffset : MgntSubtype → Nat
  | .probeReq => 0
  | _ => 12

/-- A received management frame, without its header of three addresses. -/
structure SurveyFrame where
  subtype : MgntSubtype
  addr2 : MacAddr
  addr3 : MacAddr
  body : List UInt8
  recvSignalPower : Int
  signalQuality : Nat
  signalStrength : Nat

def maxIeSz : Nat := 768
def ndis80211LengthSsid : Nat := 32
def ndis80211LengthRatesEx : Nat := 16

/-- The elements, behind the fixed fields. -/
def SurveyFrame.ies (f : SurveyFrame) : List UInt8 := f.body.drop f.subtype.ieOffset

/-- `rtw_get_ie` on the elements. -/
def SurveyFrame.ie (f : SurveyFrame) (index : Nat) : Option (Nat × Nat) :=
  rtwGetIe f.ies index (f.body.length - f.subtype.ieOffset)

/-- `DSConfig`: the channel from the DS parameter set, else from the HT information, else the current one. -/
def SurveyFrame.dsConfig (f : SurveyFrame) (operCh : Nat) : Nat :=
  match f.ie 3 with
  | some (p, _) => byteAt f.ies (p + 2)
  | none =>
    match f.ie 61 with
    | some (p, _) => byteAt f.ies (p + 2)
    | none => operCh

/-- The lengths of the rate elements are in bounds. -/
def SurveyFrame.ratesOk (f : SurveyFrame) : Bool :=
  let i := ((f.ie 1).map (·.2)).getD 0
  decide (i ≤ ndis80211LengthRatesEx) &&
    match f.ie 50 with
    | some (_, len) => decide (len ≤ ndis80211LengthRatesEx - i)
    | none => true

/-- `collect_bss_info`; `operCh` is `rtw_get_oper_ch`. -/
def collectBssInfo (operCh : Nat) (f : SurveyFrame) : Option WlanBssidEx :=
  if f.body.length > maxIeSz then none
  else
    match f.ie 0 with
    | none => none
    | some (p, len) =>
      if len > ndis80211LengthSsid then none
      else if !f.ratesOk then none
      else
        let bssid : WlanBssidEx := {
          macAddress := f.addr2
          reserved0 := f.subtype.reserved0
          ssid := (List.range len).map fun k => (f.ies[p + 2 + k]?).getD 0
          rssi := f.recvSignalPower
          infrastructureMode := .infrastructure
          signalStrength := f.signalStrength
          signalQuality := f.signalQuality
          ieLength := f.body.length
          ies := fun i => (f.body[i]?).getD 0 }
        if f.subtype = .probeReq then some bssid
        else if f.body.length < 12 then none
        else
          -- the BSSID of an ad-hoc network is in the third address
          let bssid := if bssid.rtwGetCapability.testBit 0 then bssid
            else { bssid with infrastructureMode := .ibss, macAddress := f.addr3 }
          some (if f.dsConfig operCh ≠ operCh then { bssid with signalQuality := 101 } else bssid)

/-! ### The selected registrar -/

/-- `rtw_get_wps_ie`: where the WPS element begins, and its length with the header. -/
def rtwGetWpsIe (inIe : Nat → UInt8) (inLen : Nat) : Nat → Nat → Option (Nat × Nat)
  | 0, _ => none
  | fuel + 1, cnt =>
    if cnt + 1 + 4 < inLen then
      if cnt + 1 + 4 ≥ maxIeSz then none
      else if inIe cnt = 221 ∧ [inIe (cnt + 2), inIe (cnt + 3), inIe (cnt + 4), inIe (cnt + 5)] = [0x00, 0x50, 0xf2, 0x04]
      then some (cnt, (inIe (cnt + 1)).toNat + 2)
      else rtwGetWpsIe inIe inLen fuel (cnt + ((inIe (cnt + 1)).toNat + 2))
    else none

/-- `RTW_GET_BE16` -/
def be16At (buf : Nat → UInt8) (i : Nat) : Nat := (buf i).toNat * 256 + (buf (i + 1)).toNat

/-- The loop of `rtw_get_wps_attr`, which begins behind the OUI. -/
def rtwGetWpsAttr (wpsIe : Nat → UInt8) (wpsIelen targetAttrId : Nat) : Nat → Nat → Option Nat
  | 0, _ => none
  | fuel + 1, pos =>
    if pos < wpsIelen then
      if be16At wpsIe pos = targetAttrId then some pos
      else rtwGetWpsAttr wpsIe wpsIelen targetAttrId fuel (pos + (be16At wpsIe (pos + 2) + 4) % 2 ^ 16)
    else none

/-- `WPS_ATTR_SELECTED_REGISTRAR` is set to 0, if there is one. -/
def WlanBssidEx.clearSelectedRegistrar (b : WlanBssidEx) : WlanBssidEx :=
  let inIe := fun i => b.ies (12 + i)
  let inLen := (b.ieLength + 2 ^ 32 - 12) % 2 ^ 32
  match rtwGetWpsIe inIe inLen maxIeSz 0 with
  | none => b
  | some (cnt, len) =>
    match rtwGetWpsAttr (fun i => inIe (cnt + i)) len 0x1041 len 6 with
    | none => b
    | some pos => { b with ies := Function.update b.ies (12 + cnt + pos + 4) 0 }

end Rtw.Scan
