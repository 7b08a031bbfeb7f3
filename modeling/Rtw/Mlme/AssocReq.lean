import Rtw.Mlme.Assoc
import Rtw.Mlme.IeList

/-!
# What `OnAssocReq` reads and writes

The elements of a (re)association request have been parsed when they are searched again, so that most of the reads are
inside the frame. The exceptions: the SSID is compared before its length is, the two rate elements go into 16 octets
whatever their lengths are, and the search for the WMM element starts again behind each vendor element with the limit
of the whole list. `assocReqOk_iff` says which requests stay inside; it covers the function up to the capabilities.
-/

namespace Rtw
open Access Traced

/-- The frame, the local `supportRate`, and the fields of `sta_info`. -/
inductive ReqObj where
  | frame | supportRate | bssrateset | wpaIe | htCap | vhtCap | vhtOpModeNotify

/-- The memory from the first byte of the request on, and `pkt_len`. -/
structure AssocReqFrame where
  pframe : List UInt8
  pktLen : Nat
  pktLen_le : pktLen ≤ pframe.length

/-- What an accepted request leaves in `sta_info`. -/
structure AssocReqSta where
  bssrateset : List UInt8
  wpaIe : List UInt8
  /-- `qos_info`, if there is a WMM element. -/
  qosInfo : Option UInt8
  htCap : List UInt8
  vhtCap : List UInt8
  vhtOpModeNotify : UInt8

def wmmIe : List UInt8 := [0x00, 0x50, 0xf2, 0x02, 0x00, 0x01]
def channelWidth80 : UInt8 := 2

/-- `UpdateBrateTblForSoftAP` on one rate: the CCK rates are basic. -/
def softApRate (r : UInt8) : UInt8 := if r &&& 0x7f ∈ [0x02, 0x04, 0x0b, 0x16] then r ||| 0x80 else r

/-- The element that becomes `wpa_ie`: an RSN element (`true`), or a WPA element. -/
def wpaElem? (cfg : ApCfg) (elems : Elems) : Option (Bool × Nat × Nat) :=
  match if cfg.wpaPsk.testBit 1 then elems .rsnIe else none, if cfg.wpaPsk.testBit 0 then elems .wpaIe else none with
  | some (pos, len), _ => some (true, pos, len)
  | none, some (pos, len) => some (false, pos, len)
  | none, none => none

namespace AssocReqFrame

def size (f : AssocReqFrame) : ReqObj → Nat
  | .frame => f.pktLen
  | .supportRate => 16
  | .bssrateset => 16
  | .wpaIe => 32
  | .htCap => 26
  | .vhtCap => 32
  | .vhtOpModeNotify => 1

/-- `GetFrameSubType` is not `WIFI_ASSOCREQ`. -/
def reassoc (f : AssocReqFrame) : Bool := f.pframe[0]?.getD 0 &&& 0xfc != 0

/-- Where the elements start: `WLAN_HDR_A3_LEN + ie_offset`. -/
def base (f : AssocReqFrame) : Nat := 24 + if f.reassoc then 10 else 4

def left (f : AssocReqFrame) : Nat := f.pktLen - f.base

/-- The memory from the elements on. -/
def ies (f : AssocReqFrame) : List UInt8 := f.pframe.drop f.base

/-- `len` octets at `p`. -/
def ieOctets (f : AssocReqFrame) (p len : Nat) : List UInt8 := (List.range len).map fun i => f.ies[p + i]?.getD 0

/-- `rtw_ieee802_11_parse_elems` -/
def parsed (f : AssocReqFrame) : ParseRes × Elems := parseElemsLoop f.ies (f.left + 1) 0 f.left (fun _ => none) 0

/-- `rtw_get_ie` from the element at `q` on. -/
def getIeT (f : AssocReqFrame) (index q : Nat) : Traced ReqObj (Option (Nat × Nat)) :=
  rtwGetIeT .frame f.base f.ies index f.left q

/-- The check of the SSID. -/
def ssidT (f : AssocReqFrame) (cfg : ApCfg) : Traced ReqObj Nat := do
  match ← f.getIeT 0 0 with
  | none => return statsFailure
  | some (p, ieLen) =>
    if ieLen = 0 then return statsFailure
    else
      touch .frame (f.base + (p + 2) : Nat) cfg.ssid.length
      if f.ieOctets (p + 2) cfg.ssid.length ≠ cfg.ssid then return statsFailure
      else if ieLen ≠ cfg.ssid.length then return statsFailure
      else return statsSuccessful

/-- `bssrateset` from the first `supportRateNum` octets of `supportRate`. -/
def bssratesetT (supportRateNum : Nat) (supportRate : List UInt8) : Traced ReqObj (List UInt8) := do
  touch .supportRate 0 supportRateNum
  touch .bssrateset 0 supportRateNum
  return supportRate.map softApRate

/-- The rates, `none` without an element of supported rates. -/
def ratesT (f : AssocReqFrame) : Traced ReqObj (Option (List UInt8)) := do
  match ← f.getIeT 1 0 with
  | none => return none
  | some (p, num) =>
    touch .frame (f.base + (p + 2) : Nat) num
    touch .supportRate 0 num
    let rates := f.ieOctets (p + 2) num
    match ← f.getIeT 50 0 with
    | none =>
      let bssrateset ← bssratesetT num rates
      return some bssrateset
    | some (p, ieLen) =>
      -- `sizeof(supportRate)` is compared before the octets are added
      if num ≤ 16 then
        touch .frame (f.base + (p + 2) : Nat) ieLen
        touch .supportRate num ieLen
        let bssrateset ← bssratesetT (num + ieLen) (rates ++ f.ieOctets (p + 2) ieLen)
        return some bssrateset
      else
        let bssrateset ← bssratesetT num rates
        return some bssrateset

/-- What `rtw_parse_wpa2_ie` (`rsn`) or `rtw_parse_wpa_ie` reads of the element whose body is at `pos`. -/
def parseWpaT (f : AssocReqFrame) (rsn : Bool) (pos len : Nat) : Traced ReqObj Unit := do
  let hdr : Prop := byteAt f.ies (pos - 2) = (if rsn then 0x30 else 0xdd) ∧ byteAt f.ies (pos - 1) = len % 256
  let ok : Prop := hdr ∧ (rsn = true ∨ f.ieOctets pos 4 = [0x00, 0x50, 0xf2, 0x01])
  let skip := if rsn then 2 else 6
  -- behind the group cipher
  let p := if skip + 4 ≤ len then pos + skip + 4 else pos + skip
  let counted : Prop := ok ∧ (len ≤ skip ∨ skip + 4 ≤ len) ∧ p + 2 ≤ pos + len
  let count := byteAt f.ies p + 256 * byteAt f.ies (p + 1)
  touch .frame (f.base + (pos - 2) : Nat) 2
  touchIf (hdr ∧ rsn = false) .frame (f.base + pos : Nat) 4
  touchIf (ok ∧ skip + 4 ≤ len) .frame (f.base + (pos + skip) : Nat) 4
  touchIf counted .frame (f.base + p : Nat) 2
  touchIf (counted ∧ p + 2 + 4 * count ≤ pos + len) .frame (f.base + (p + 2) : Nat) (4 * count)

/-- The parse of `wpa_ie`, if there is one. -/
def wpaT (f : AssocReqFrame) (cfg : ApCfg) (elems : Elems) : Traced ReqObj Unit :=
  match wpaElem? cfg elems with
  | some (rsn, pos, len) => f.parseWpaT rsn pos len
  | none => pure ()

/-- The copy of `wpa_ie` to the station, which a WPS element does without. -/
def wpaIeT (f : AssocReqFrame) (cfg : ApCfg) (elems : Elems) : Traced ReqObj (List UInt8) :=
  match wpaElem? cfg elems, elems .wpsIe with
  | some (_, pos, len), none => do
    touch .frame (f.base + (pos - 2) : Nat) (min 32 (len + 2))
    touch .wpaIe 0 (min 32 (len + 2))
    return f.ieOctets (pos - 2) (min 32 (len + 2)) ++ List.replicate (32 - (len + 2)) 0
  | _, _ => pure (List.replicate 32 0)

/-- The search for the WMM element. -/
def wmmT (f : AssocReqFrame) : Nat → Nat → Traced ReqObj (Option UInt8)
  | 0, _ => pure none
  | fuel + 1, q => do
    match ← f.getIeT 221 q with
    | none => return none
    | some (p, ieLen) =>
      touch .frame (f.base + (p + 2) : Nat) 6
      if f.ieOctets (p + 2) 6 = wmmIe then
        touch .frame (f.base + (p + 8) : Nat) 1
        return some (f.ies[p + 8]?.getD 0)
      else wmmT f fuel (p + ieLen + 2)

/-- `qos_info`, with QoS. -/
def qosT (f : AssocReqFrame) (qosOption : Bool) : Traced ReqObj (Option UInt8) :=
  if qosOption then f.wmmT (f.pframe.length + 1) 0 else pure none

/-- The copy of an element's first octets to a field of `sta_info`, if it has `need` octets. -/
def capT (f : AssocReqFrame) (obj : ReqObj) (len : Nat) (need : Nat → Bool) (e : Option (Nat × Nat)) :
    Traced ReqObj (Option (List UInt8)) :=
  match e with
  | some (pos, ieLen) =>
    if need ieLen then do
      touch .frame (f.base + pos : Nat) len
      touch obj 0 len
      return some (f.ieOctets pos len)
    else pure none
  | none => pure none

/-- `vht_op_mode_notify`, with VHT. -/
def notifyT (f : AssocReqFrame) (vht : Bool) (elems : Elems) : Traced ReqObj (Option (List UInt8)) :=
  if vht then f.capT .vhtOpModeNotify 1 (fun len => decide (len = 1)) (elems .vhtOpModeNotify) else pure (some [0])

/-- `OnAssocReq` behind the rates. -/
def capsT (f : AssocReqFrame) (cfg : ApCfg) (qosOption : Bool) (bssrateset : List UInt8) :
    Traced ReqObj (Option AssocReqSta) := do
  let elems := f.parsed.2
  f.wpaT cfg elems
  let (wpaIe, status) := wpaStatus cfg f.ies elems
  if status ≠ statsSuccessful ∨ wpsStatus cfg wpaIe ≠ statsSuccessful then return none
  else
    let wpaIe ← f.wpaIeT cfg elems
    let qosInfo ← f.qosT qosOption
    let htCap ← f.capT .htCap 26 (fun len => decide (len ≥ 26)) (elems .htCapabilities)
    if !cfg.htOption && htCap.isSome then return none
    else
      let vhtCap ← f.capT .vhtCap 12 (fun len => decide (len = 12)) (elems .vhtCapabilities)
      let notify ← f.notifyT vhtCap.isSome elems
      if !cfg.vhtOption && vhtCap.isSome then return none
      else return some {
        bssrateset := bssrateset
        wpaIe := wpaIe
        qosInfo := qosInfo
        htCap := htCap.getD (List.replicate 26 0)
        vhtCap := vhtCap.getD (List.replicate 12 0)
        vhtOpModeNotify := (notify.bind List.head?).getD channelWidth80 }

/-- `OnAssocReq` up to the capabilities, with what it reads and writes; `sta` is the state of the station that
`rtw_get_stainfo` finds. -/
def onAssocReqT (f : AssocReqFrame) (cfg : ApCfg) (qosOption : Bool) (sta : Option FwState) :
    Traced ReqObj (Option AssocReqSta) := do
  if !cfg.apState then return none
  else
    touch .frame 0 2
    if f.pktLen < f.base then return none
    else
      -- the address, then the fixed fields
      touch .frame 10 6
      touchIf (sta.isSome = true) .frame 24 4
      match sta.bind FwState.onAssocReq with
      | none => return none
      | some _ =>
        let (res, elems) ← parseElemsT .frame f.base f.ies (f.left + 1) 0 f.left (fun _ => none) 0
        if res = .parseFailed ∨ elems .ssid = none then return none
        else
          let status ← f.ssidT cfg
          if status ≠ statsSuccessful then return none
          else
            match ← f.ratesT with
            | none => return none
            | some bssrateset => f.capsT cfg qosOption bssrateset

/-! ### What is asked of it -/

/-- The elements of the request. -/
def ieList (f : AssocReqFrame) : List Nat := ieOffsets f.ies (f.left + 1) 0 f.left

/-- The length octet of the element at `v`. -/
def ieLen (f : AssocReqFrame) (v : Nat) : Nat := byteAt f.ies (v + 1)

/-- The first element `index`. -/
def first? (f : AssocReqFrame) (index : Nat) : Option Nat := f.ieList.find? fun v => byteAt f.ies v = index

/-- The elements are looked at: the request is long enough and from an authenticated station, and they can be parsed
and contain an SSID. -/
def Handled (f : AssocReqFrame) (cfg : ApCfg) (sta : Option FwState) : Prop :=
  cfg.apState = true ∧ f.base ≤ f.pktLen ∧ sta.bind FwState.onAssocReq ≠ none ∧ f.parsed.1 ≠ .parseFailed ∧
    f.parsed.2 .ssid ≠ none

/-- A first SSID that is not empty is followed by as many octets as the one of the BSS has. -/
def SsidFits (f : AssocReqFrame) (cfg : ApCfg) : Prop :=
  ∀ v, f.first? 0 = some v → f.ieLen v ≠ 0 → v + 2 + cfg.ssid.length ≤ f.left

/-- The SSID is the one of the BSS. -/
def SsidOk (f : AssocReqFrame) (cfg : ApCfg) : Prop :=
  ∃ v, f.first? 0 = some v ∧ f.ieLen v ≠ 0 ∧ f.ieOctets (v + 2) cfg.ssid.length = cfg.ssid ∧
    f.ieLen v = cfg.ssid.length

/-- The two rate elements have at most 16 rates. -/
def RatesFit (f : AssocReqFrame) : Prop :=
  ∀ v, f.first? 1 = some v → f.ieLen v + ((f.first? 50).map f.ieLen).getD 0 ≤ 16

/-- The checks of the security elements let the request pass. -/
def Secured (f : AssocReqFrame) (cfg : ApCfg) : Prop :=
  (wpaStatus cfg f.ies f.parsed.2).2 = statsSuccessful ∧
    wpsStatus cfg (wpaStatus cfg f.ies f.parsed.2).1 = statsSuccessful

/-- The vendor elements. -/
def vendors (f : AssocReqFrame) (vs : List Nat) : List Nat := vs.filter fun v => byteAt f.ies v = 221

/-- One of the vendor elements is the WMM element, with its QoS octet in the frame, and each one before it has six
octets of the frame behind its header. -/
def WmmFits (f : AssocReqFrame) : List Nat → Prop
  | [] => False
  | v :: vs => v + 8 ≤ f.left ∧ if f.ieOctets (v + 2) 6 = wmmIe then v + 9 ≤ f.left else f.WmmFits vs

/-- The search for the WMM element stays inside: there is no vendor element, or it ends at one. -/
def QosFits (f : AssocReqFrame) : Prop := f.vendors f.ieList = [] ∨ f.WmmFits (f.vendors f.ieList)

/-- The request, as far as it is looked at, has room for what is read and written. -/
def Fits (f : AssocReqFrame) (cfg : ApCfg) (qosOption : Bool) (sta : Option FwState) : Prop :=
  (cfg.apState = true → 2 ≤ f.pktLen) ∧ (f.Handled cfg sta → f.SsidFits cfg ∧ (f.SsidOk cfg → f.RatesFit ∧
    (f.first? 1 ≠ none → f.Secured cfg → qosOption = true → f.QosFits)))

/-- `OnAssocReq` reads only octets of the frame, and writes only inside its arrays. -/
def AssocReqOk (f : AssocReqFrame) (cfg : ApCfg) (qosOption : Bool) (sta : Option FwState) : Prop :=
  Within f.size (f.onAssocReqT cfg qosOption sta)

end AssocReqFrame

section
variable {f : AssocReqFrame} {cfg : ApCfg} {elems : Elems} {p len : Nat}

namespace AssocReqFrame

theorem le_base (f : AssocReqFrame) : 28 ≤ f.base := by
  unfold base
  split <;> omega

theorem size_frame (h : f.base ≤ f.pktLen) : f.size .frame = f.base + f.left := by
  show f.pktLen = f.base + (f.pktLen - f.base)
  omega

theorem within_frame (h : f.base ≤ f.pktLen) :
    Within f.size (touch .frame (f.base + p : Nat) len) ↔ len = 0 ∨ p + len ≤ f.left := by
  rw [within_touch_nat, size_frame h]
  omega

theorem tiling (h : f.parsed.1 ≠ .parseFailed) : Tiling f.ies f.ieList 0 f.left := by
  have := tiling_of_parse _ _ _ _ _ h
  rwa [Nat.zero_add] at this

theorem elemsIn (f : AssocReqFrame) : ElemsIn f.parsed.2 f.left := by
  have hnone : ElemsIn (fun _ => none) (0 + f.left) := fun k p len h => by cases h
  have hin : ElemsIn f.parsed.2 (0 + f.left) := elemsIn_of_parse _ _ _ _ _ hnone
  rwa [Nat.zero_add] at hin

/-- A search from the start, in a request that could be parsed. -/
theorem getIeT_spec (hbase : f.base ≤ f.pktLen) (hparse : f.parsed.1 ≠ .parseFailed) (index : Nat) :
    Within f.size (f.getIeT index 0) ∧ (f.getIeT index 0).val = (f.first? index).map fun v => (v, f.ieLen v) :=
  rtwGetIeT_spec (tiling hparse) (size_frame hbase)

/-! ### The SSID and the rates -/

theorem within_ssidT (hbase : f.base ≤ f.pktLen) (hparse : f.parsed.1 ≠ .parseFailed) :
    Within f.size (f.ssidT cfg) ↔ f.SsidFits cfg := by
  obtain ⟨hw, hv⟩ := getIeT_spec hbase hparse 0
  unfold ssidT SsidFits
  rw [within_bind, and_iff_right hw, hv]
  cases hf : f.first? 0 with
  | none => exact iff_of_true within_pure nofun
  | some v =>
    simp only [Option.map_some, Option.some.injEq, forall_eq']
    by_cases hlen : f.ieLen v = 0
    · rw [if_pos hlen]
      exact iff_of_true within_pure fun h => absurd hlen h
    · rw [if_neg hlen, forall_prop_of_true hlen, within_bind, within_frame hbase]
      have hrest : Within f.size (if f.ieOctets (v + 2) cfg.ssid.length ≠ cfg.ssid then (pure statsFailure : Traced ReqObj Nat)
          else if f.ieLen v ≠ cfg.ssid.length then pure statsFailure else pure statsSuccessful) := by
        split
        · exact within_pure
        · split <;> exact within_pure
      rw [and_iff_left hrest]
      have hle := (tiling hparse).behind_of_mem (List.mem_of_find?_eq_some hf)
      omega

theorem ssidT_val (hbase : f.base ≤ f.pktLen) (hparse : f.parsed.1 ≠ .parseFailed) :
    (f.ssidT cfg).val = statsSuccessful ↔ f.SsidOk cfg := by
  have hfail : ¬ statsFailure = statsSuccessful := by decide
  obtain ⟨-, hv⟩ := getIeT_spec hbase hparse 0
  unfold ssidT SsidOk
  rw [val_bind, hv]
  cases hf : f.first? 0 with
  | none => exact iff_of_false hfail fun ⟨v, h, _⟩ => by cases h
  | some v =>
    simp only [Option.map_some, Option.some.injEq, exists_eq_left']
    by_cases hlen : f.ieLen v = 0
    · rw [if_pos hlen]
      exact iff_of_false hfail fun h => h.1 hlen
    · rw [if_neg hlen, val_bind]
      by_cases hssid : f.ieOctets (v + 2) cfg.ssid.length ≠ cfg.ssid
      · rw [if_pos hssid]
        exact iff_of_false hfail fun h => hssid h.2.1
      · rw [if_neg hssid]
        by_cases hne : f.ieLen v ≠ cfg.ssid.length
        · rw [if_pos hne]
          exact iff_of_false hfail fun h => hne h.2.2
        · rw [if_neg hne]
          exact iff_of_true rfl ⟨hlen, not_not.1 hssid, not_not.1 hne⟩

theorem within_bssratesetT {num : Nat} {rates : List UInt8} :
    Within f.size (bssratesetT num rates) ↔ num ≤ 16 := by
  unfold bssratesetT
  have hread : Within f.size (touch .supportRate 0 num) ↔ num ≤ 16 := within_touch_zero
  have hwrite : Within f.size (touch .bssrateset 0 num) ↔ num ≤ 16 := within_touch_zero
  simp only [within_bind, within_pure, and_true, hread, hwrite, and_self]

theorem within_ratesT (hbase : f.base ≤ f.pktLen) (hparse : f.parsed.1 ≠ .parseFailed) :
    Within f.size f.ratesT ↔ f.RatesFit := by
  obtain ⟨hw1, hv1⟩ := getIeT_spec hbase hparse 1
  obtain ⟨hw50, hv50⟩ := getIeT_spec hbase hparse 50
  unfold ratesT RatesFit
  rw [within_bind, and_iff_right hw1, hv1]
  cases hf : f.first? 1 with
  | none => exact iff_of_true within_pure nofun
  | some v =>
    have hin := (tiling hparse).behind_of_mem (List.mem_of_find?_eq_some hf)
    have hread : Within f.size (touch .frame (f.base + (v + 2) : Nat) (f.ieLen v)) :=
      (within_frame hbase).2 (.inr hin)
    have hwrite : Within f.size (touch .supportRate 0 (f.ieLen v)) ↔ f.ieLen v ≤ 16 := within_touch_zero
    simp only [Option.map_some, Option.some.injEq, forall_eq', within_bind, hread, hw50, hwrite, true_and, hv50]
    cases hf50 : f.first? 50 with
    | none =>
      simp only [Option.map_none, Option.getD_none, within_bind, within_bssratesetT, within_pure, and_true]
      omega
    | some v50 =>
      have hin50 := (tiling hparse).behind_of_mem (List.mem_of_find?_eq_some hf50)
      have hread50 : Within f.size (touch .frame (f.base + (v50 + 2) : Nat) (f.ieLen v50)) :=
        (within_frame hbase).2 (.inr hin50)
      have hwrite50 : Within f.size (touch .supportRate (f.ieLen v) (f.ieLen v50)) ↔
          f.ieLen v50 = 0 ∨ f.ieLen v + f.ieLen v50 ≤ 16 := within_touch_nat
      simp only [Option.map_some, Option.getD_some]
      by_cases hnum : f.ieLen v ≤ 16
      · simp only [hnum, if_true, true_and, within_bind, hread50, hwrite50, within_bssratesetT, within_pure, and_true]
        omega
      · simp only [hnum, if_false, false_and, false_iff]
        omega

theorem ratesT_val (hbase : f.base ≤ f.pktLen) (hparse : f.parsed.1 ≠ .parseFailed) :
    f.ratesT.val = none ↔ f.first? 1 = none := by
  obtain ⟨-, hv1⟩ := getIeT_spec hbase hparse 1
  unfold ratesT
  rw [val_bind, hv1]
  cases f.first? 1 with
  | none => exact iff_of_true rfl rfl
  | some v =>
    refine iff_of_false ?_ nofun
    simp only [Option.map_some, val_bind]
    split
    · exact nofun
    · split
      · exact nofun
      · exact nofun

/-! ### The security elements -/

theorem elem_of_wpaElem {rsn : Bool} {pos : Nat} (h : wpaElem? cfg elems = some (rsn, pos, len)) :
    ∃ k, elems k = some (pos, len) ∧ (rsn = false → k = .wpaIe) := by
  unfold wpaElem? at h
  split at h
  · rename_i hrsn
    cases h
    split at hrsn
    · exact ⟨.rsnIe, hrsn, nofun⟩
    · cases hrsn
  · rename_i hwpa
    cases h
    split at hwpa
    · exact ⟨.wpaIe, hwpa, fun _ => rfl⟩
    · cases hwpa
  · cases h

theorem within_parseWpaT {rsn : Bool} {pos : Nat} (hbase : f.base ≤ f.pktLen) (h2 : 2 ≤ pos)
    (hin : pos + len ≤ f.left) (hwpa : rsn = false → 4 ≤ len) : Within f.size (f.parseWpaT rsn pos len) := by
  unfold parseWpaT
  simp only [within_bind, within_touchIf, within_frame hbase]
  refine ⟨.inr (by omega), fun h => .inr ?_, fun h => .inr (by omega), fun h => .inr (by omega), fun h => .inr (by omega)⟩
  have := hwpa h.2
  omega

theorem within_wpaT (hbase : f.base ≤ f.pktLen) : Within f.size (f.wpaT cfg f.parsed.2) := by
  unfold wpaT
  cases h : wpaElem? cfg f.parsed.2 with
  | none => exact within_pure
  | some e =>
    obtain ⟨rsn, pos, len⟩ := e
    obtain ⟨k, hk, hwpa⟩ := elem_of_wpaElem h
    obtain ⟨h2, hin, h4⟩ := f.elemsIn k pos len hk
    exact within_parseWpaT hbase h2 hin fun hr => h4 (hwpa hr)

theorem within_wpaIeT (hbase : f.base ≤ f.pktLen) : Within f.size (f.wpaIeT cfg f.parsed.2) := by
  unfold wpaIeT
  cases h : wpaElem? cfg f.parsed.2 with
  | none => exact within_pure
  | some e =>
    obtain ⟨rsn, pos, len⟩ := e
    cases f.parsed.2 .wpsIe with
    | some wps => exact within_pure
    | none =>
      obtain ⟨k, hk, -⟩ := elem_of_wpaElem h
      obtain ⟨h2, hin, -⟩ := f.elemsIn k pos len hk
      have hread : Within f.size (touch .frame (f.base + (pos - 2) : Nat) (min 32 (len + 2))) :=
        (within_frame hbase).2 (.inr (by omega))
      have hwrite : Within f.size (touch .wpaIe 0 (min 32 (len + 2))) := within_touch_zero.2 (Nat.min_le_left _ _)
      exact within_bind.2 ⟨hread, within_bind.2 ⟨hwrite, within_pure⟩⟩

/-! ### The WMM element -/

theorem vendors_append (us vs : List Nat) : f.vendors (us ++ vs) = f.vendors us ++ f.vendors vs :=
  List.filter_append us vs

/-- The search from `q` on, where the elements `vs` are left. -/
theorem within_wmmT (hbase : f.base ≤ f.pktLen) {vs : List Nat} {q : Nat} (h : Tiling f.ies vs q f.left)
    (hleft : 0 < f.left) (fuel : Nat) (hfuel : vs.length < fuel) :
    Within f.size (f.wmmT fuel q) ↔ q = 0 ∧ f.vendors vs = [] ∨ f.WmmFits (f.vendors vs) := by
  induction fuel generalizing vs q with
  | zero => exact absurd hfuel (Nat.not_lt_zero _)
  | succ fuel ih =>
    have hlen := h.length_le
    have hlt : vs.length < f.left := by omega
    have hget : f.getIeT 221 q = rtwGetIeLoopT .frame f.base f.ies 221 f.left q f.left 0 := by
      unfold getIeT rtwGetIeT
      rw [if_neg (by omega)]
    have hspec := rtwGetIeLoopT_spec (i := 0) 221 h hlt (size_frame hbase) hleft
    rw [← hget] at hspec
    unfold wmmT
    rw [within_bind]
    cases hf : vs.find? fun v => byteAt f.ies v = 221 with
    | none =>
      rw [hf] at hspec
      have hnone : f.vendors vs = [] := List.filter_eq_nil_iff.2 fun v hv => List.find?_eq_none.1 hf v hv
      rw [hspec.1, hnone]
      constructor
      · exact fun hw => .inl ⟨hw.1, rfl⟩
      · rintro (⟨hq, -⟩ | hw)
        · rw [hspec.2 hq]
          exact ⟨hq, within_pure⟩
        · exact absurd hw id
    | some v =>
      rw [hf] at hspec
      obtain ⟨hv, us, ws, rfl, hus⟩ := List.find?_eq_some_iff_append.1 hf
      obtain ⟨-, -, hrest⟩ := h.behind
      have hvendors : f.vendors (us ++ v :: ws) = v :: f.vendors ws := by
        have hnil : f.vendors us = [] := List.filter_eq_nil_iff.2 fun u hu => by simpa using hus u hu
        rw [vendors_append, hnil, List.nil_append]
        unfold vendors
        rw [List.filter_cons, if_pos hv]
      rw [and_iff_right hspec.1, hspec.2, hvendors]
      have h6 : Within f.size (touch .frame (f.base + (v + 2) : Nat) 6) ↔ v + 8 ≤ f.left := by
        rw [within_frame hbase]
        omega
      have h1 : Within f.size (touch .frame (f.base + (v + 8) : Nat) 1) ↔ v + 9 ≤ f.left := by
        rw [within_frame hbase]
        omega
      simp only [within_bind, h6, WmmFits, reduceCtorEq, and_false, false_or]
      refine and_congr_right fun _ => ?_
      by_cases hw : f.ieOctets (v + 2) 6 = wmmIe
      · simp only [hw, if_true, within_bind, h1, within_pure, and_true]
      · simp only [hw, if_false]
        have hpos : v + 2 + byteAt f.ies (v + 1) = v + byteAt f.ies (v + 1) + 2 := by omega
        rw [hpos] at hrest
        rw [ih hrest (by simp at hfuel; omega)]
        refine or_iff_right fun hq => ?_
        omega

/-! ### The function -/

theorem within_capT {obj : ReqObj} {need : Nat → Bool} (hbase : f.base ≤ f.pktLen) (k : ElemKind)
    (hneed : ∀ n, need n = true → len ≤ n) (hlen : len ≤ f.size obj) :
    Within f.size (f.capT obj len need (f.parsed.2 k)) := by
  unfold capT
  cases hk : f.parsed.2 k with
  | none => exact within_pure
  | some e =>
    obtain ⟨pos, ieLen⟩ := e
    obtain ⟨-, hin, -⟩ := f.elemsIn k pos ieLen hk
    dsimp only
    by_cases hn : need ieLen = true
    · rw [if_pos hn]
      have := hneed _ hn
      have hread : Within f.size (touch .frame (f.base + pos : Nat) len) := (within_frame hbase).2 (.inr (by omega))
      have hwrite : Within f.size (touch obj 0 len) := within_touch_zero.2 hlen
      exact within_bind.2 ⟨hread, within_bind.2 ⟨hwrite, within_pure⟩⟩
    · rw [if_neg hn]
      exact within_pure

theorem within_notifyT (hbase : f.base ≤ f.pktLen) (vht : Bool) : Within f.size (f.notifyT vht f.parsed.2) := by
  unfold notifyT
  split
  · exact within_capT hbase _ (fun n hn => by simp at hn; omega) (Nat.le_refl 1)
  · exact within_pure

theorem within_qosT (hbase : f.base ≤ f.pktLen) (hparse : f.parsed.1 ≠ .parseFailed) (hleft : 0 < f.left)
    (qosOption : Bool) : Within f.size (f.qosT qosOption) ↔
      (qosOption = true → f.QosFits) := by
  unfold qosT QosFits
  cases qosOption with
  | false => exact iff_of_true within_pure nofun
  | true =>
    have htiling := tiling hparse
    have hfuel : f.ieList.length < f.pframe.length + 1 := by
      have := htiling.length_le
      have := f.pktLen_le
      unfold left at *
      omega
    rw [if_pos rfl, within_wmmT hbase htiling hleft _ hfuel]
    simp

theorem within_capsT (hbase : f.base ≤ f.pktLen) (hparse : f.parsed.1 ≠ .parseFailed) (hleft : 0 < f.left)
    (qosOption : Bool) (bssrateset : List UInt8) :
    Within f.size (f.capsT cfg qosOption bssrateset) ↔ (f.Secured cfg → qosOption = true → f.QosFits) := by
  unfold capsT Secured
  dsimp only
  rw [within_bind, and_iff_right (within_wpaT hbase)]
  by_cases hsec : (wpaStatus cfg f.ies f.parsed.2).2 ≠ statsSuccessful ∨
      wpsStatus cfg (wpaStatus cfg f.ies f.parsed.2).1 ≠ statsSuccessful
  · rw [if_pos hsec]
    refine iff_of_true within_pure fun h => ?_
    rcases hsec with hsec | hsec
    · exact absurd h.1 hsec
    · exact absurd h.2 hsec
  · rw [if_neg hsec]
    push Not at hsec
    rw [forall_prop_of_true hsec, within_bind, and_iff_right (within_wpaIeT hbase), within_bind,
      within_qosT hbase hparse hleft]
    refine and_iff_left ?_
    have hht : Within f.size (f.capT .htCap 26 (fun len => decide (len ≥ 26)) (f.parsed.2 .htCapabilities)) :=
      within_capT hbase _ (fun n hn => by simpa using hn) (Nat.le_refl 26)
    have hvht : Within f.size (f.capT .vhtCap 12 (fun len => decide (len = 12)) (f.parsed.2 .vhtCapabilities)) :=
      within_capT hbase _ (fun n hn => by simp at hn; omega) (by decide : (12 : Nat) ≤ 32)
    refine within_bind.2 ⟨hht, ?_⟩
    split
    · exact within_pure
    · refine within_bind.2 ⟨hvht, within_bind.2 ⟨within_notifyT hbase _, ?_⟩⟩
      split
      · exact within_pure
      · exact within_pure

theorem left_pos (hssid : f.parsed.2 .ssid ≠ none) : 0 < f.left := by
  obtain ⟨e, he⟩ := Option.ne_none_iff_exists'.1 hssid
  have := f.elemsIn .ssid e.1 e.2 he
  omega

/-- The elements of a handled request are read within the frame, and written within the arrays, exactly if they fit. -/
theorem within_handled (hbase : f.base ≤ f.pktLen) (hparse : f.parsed.1 ≠ .parseFailed)
    (hssid : f.parsed.2 .ssid ≠ none) (qosOption : Bool) :
    Within f.size (do
      let status ← f.ssidT cfg
      if status ≠ statsSuccessful then return none
      else
        match ← f.ratesT with
        | none => return none
        | some bssrateset => f.capsT cfg qosOption bssrateset) ↔
      f.SsidFits cfg ∧ (f.SsidOk cfg → f.RatesFit ∧ (f.first? 1 ≠ none → f.Secured cfg → qosOption = true → f.QosFits)) := by
  rw [within_bind, within_ssidT hbase hparse]
  refine and_congr_right fun _ => ?_
  by_cases hok : f.SsidOk cfg
  · rw [if_neg (not_not.2 ((ssidT_val hbase hparse).2 hok)), forall_prop_of_true hok, within_bind,
      within_ratesT hbase hparse]
    refine and_congr_right fun _ => ?_
    cases hr : f.ratesT.val with
    | none => exact iff_of_true within_pure fun h => absurd ((ratesT_val hbase hparse).1 hr) h
    | some bssrateset =>
      have hfirst : f.first? 1 ≠ none := fun h => by
        rw [(ratesT_val hbase hparse).2 h] at hr
        cases hr
      rw [forall_prop_of_true hfirst]
      exact within_capsT hbase hparse (left_pos hssid) qosOption bssrateset
  · rw [if_pos fun h => hok ((ssidT_val hbase hparse).1 h)]
    exact iff_of_true within_pure fun h => absurd h hok

/-- `OnAssocReq` reads only octets of the request and writes only inside its arrays exactly if a handled request has
room for the comparison of its SSID, has at most 16 rates, and ends the search for the WMM element at one. -/
theorem assocReqOk_iff (f : AssocReqFrame) (cfg : ApCfg) (qosOption : Bool) (sta : Option FwState) :
    f.AssocReqOk cfg qosOption sta ↔ f.Fits cfg qosOption sta := by
  unfold AssocReqOk onAssocReqT Fits
  cases hap : cfg.apState with
  | false =>
    refine iff_of_true within_pure ⟨nofun, fun h => ?_⟩
    rw [Handled, hap] at h
    exact absurd h.1 nofun
  | true =>
    have h2 : Within f.size (touch .frame 0 2) ↔ 2 ≤ f.pktLen := within_touch_pos (by decide)
    simp only [Bool.not_true, Bool.false_eq_true, if_false, within_bind, h2, forall_const]
    refine and_congr_right fun _ => ?_
    by_cases hbase : f.base ≤ f.pktLen
    · have hlong : 28 ≤ f.base := f.le_base
      have haddr : Within f.size (touch .frame 10 6) := within_touch_nat.2 (.inr (by show 10 + 6 ≤ f.pktLen; omega))
      have hfixed : Within f.size (touchIf (sta.isSome = true) .frame 24 4) :=
        within_touchIf.2 fun _ => within_touch_nat.2 (.inr (by show 24 + 4 ≤ f.pktLen; omega))
      rw [if_neg (Nat.not_lt.2 hbase), within_bind, and_iff_right haddr, within_bind, and_iff_right hfixed]
      cases hsta : sta.bind FwState.onAssocReq with
      | none => exact iff_of_true within_pure fun h => absurd hsta h.2.2.1
      | some _ =>
        have hparsed : Within f.size (parseElemsT .frame f.base f.ies (f.left + 1) 0 f.left (fun _ => none) 0) :=
          within_parseElemsT _ _ _ _ _ (Nat.le_of_eq (size_frame hbase).symm)
        dsimp only
        rw [within_bind, and_iff_right hparsed, parseElemsT_val]
        show Within f.size (if f.parsed.1 = .parseFailed ∨ f.parsed.2 .ssid = none then pure none else _) ↔ _
        by_cases hrefused : f.parsed.1 = .parseFailed ∨ f.parsed.2 .ssid = none
        · rw [if_pos hrefused]
          refine iff_of_true within_pure fun h => ?_
          rcases hrefused with hparse | hssid
          · exact absurd hparse h.2.2.2.1
          · exact absurd hssid h.2.2.2.2
        · rw [if_neg hrefused]
          obtain ⟨hparse, hssid⟩ := not_or.1 hrefused
          have hhandled : f.Handled cfg sta := ⟨hap, hbase, by rw [hsta]; exact nofun, hparse, hssid⟩
          rw [forall_prop_of_true hhandled]
          exact within_handled hbase hparse hssid qosOption
    · rw [if_pos (Nat.not_le.1 hbase)]
      exact iff_of_true within_pure fun h => absurd h.2.1 hbase

/-- An association request with the SSID `a` and 17 rates. -/
def longRates : AssocReqFrame where
  pframe := List.replicate 28 0 ++ [0, 1, 0x61] ++ [1, 17] ++ List.replicate 17 0x0c
  pktLen := 50
  pktLen_le := by decide

/-- An open access point with the SSID `a`. -/
def openAp : ApCfg where
  apState := true
  dot11AuthAlgrthm := 0
  dot11PrivacyAlgrthm := .noPrivacy
  aclList := { mode := 0, nodes := [] }
  ssid := [0x61]
  wpaPsk := 0
  wpaGroupCipher := 0
  wpaPairwiseCipher := 0
  wpa2GroupCipher := 0
  wpa2PairwiseCipher := 0
  wpsSelectedRegistrar := none
  htOption := true
  vhtOption := true
  p2pGo := false

theorem not_assocReqOk_rates : ¬ longRates.AssocReqOk openAp false (some { authSuccess := true }) :=
  show ¬ Within longRates.size (longRates.onAssocReqT openAp false (some { authSuccess := true })) from
    by decide +kernel

end AssocReqFrame

end

end Rtw
