import Rtw.P2p.ChList
import Rtw.P2p.NegoAttr

/-!
# The handlers of negotiation frames

`process_p2p_group_negotation_req`, `_resp` and `_confirm` on the bytes of a frame. They go over its P2P elements and
fetch attributes from each; a `break` ends the loop, and a search that does not end is never left. A request and a
response may have a WFD element behind. Copies of a fixed length are inside whatever is in the frame; they are not
recorded.
-/

namespace Rtw
open Access Splice

/-- The codes `P2P_STATUS_…` -/
def P2pStatus.code : P2pStatus → UInt8
  | success => 0
  | failInfoUnavailable => 1
  | failIncompatibleParam => 2
  | failNoCommonCh => 7
  | failBothGointent15 => 9

/-- The fields of `wifidirect_info`, `groupid_info`, `nego_req_info` and `rx_prov_disc_info` for the negotiation, with
the channels of `channel_set`. -/
structure NegoWd where
  p2pState : P2pState
  preP2pState : P2pState
  role : P2pRole
  intent : UInt8
  peerIntent : UInt8
  operatingChannel : UInt8
  peerOperatingCh : UInt8
  peerCh : UInt8
  p2pPeerInterfaceAddr : Nat → UInt8
  deviceAddr : Nat → UInt8
  goDeviceAddr : Nat → UInt8
  ssid : Nat → UInt8
  negoSsid : Nat → UInt8
  negoSsidlen : UInt8
  channelListAttr : Nat → UInt8
  channelListAttrLen : Nat
  channelSet : List UInt8
  uiGotWpsInfo : P2pWpsinfo
  strconfigMethodDesc : List Char
  peerRtspCtrlport : Nat
  negotiationDialogToken : UInt8
  restoreTimer : Bool

/-- The fields, `result`, and `operatingch_info` of a response or confirm. -/
structure NegoCur where
  wd : NegoWd
  result : UInt8
  operatingchInfo : Nat → UInt8

namespace NegoCur

def setState (c : NegoCur) (p2pState : P2pState) : NegoCur := { c with wd := { c.wd with p2pState := p2pState } }

end NegoCur

/-- The 32-bit difference of a length and `ETH_ALEN`. -/
def ssidLen (n : Nat) : Nat := (n + (2 ^ 32 - 6)) % 2 ^ 32

def wpsAttrDevicePwid : Nat := 0x1012
def wpsDpidUserSpec : Nat := 1
def wpsDpidRegistrarSpec : Nat := 5
def wfdOui : List UInt8 := [0x50, 0x6F, 0x9A, 0x0A]

namespace NegoRx
variable (f : NegoRx)

section
variable (ie : Nat × Nat) (c : NegoCur)

/-- The group owner takes its own address and the SSID that it has been given. -/
def takeOwnGroup : NegoCur :=
  { c with wd := { c.wd with
      goDeviceAddr := c.wd.deviceAddr
      ssid := fun i => if i < c.wd.negoSsidlen.toNat then c.wd.negoSsid i else c.wd.ssid i } }

def ownGroupT : Prog NegoObj NegoCur :=
  if c.wd.role = .go then do
    Prog.touch .negoSsid 0 c.wd.negoSsidlen.toNat
    Prog.touch .ssid 0 c.wd.negoSsidlen.toNat
    return takeOwnGroup c
  else return c

/-- Both sides want to be the group owner. -/
def Both15 (attr : UInt8) : Prop := c.wd.intent = attr >>> 1 ∧ c.wd.intent = 15

instance (attr : UInt8) : Decidable (Both15 c attr) := inferInstanceAs (Decidable (_ ∧ _))

/-- `peer_intent`, and the role that it leaves. -/
def takeIntent (attr : UInt8) : NegoCur :=
  { c with wd := { c.wd with peerIntent := attr, role := negoRole c.wd.intent.toNat attr.toNat } }

def reqIntent (attr : UInt8) : NegoCur :=
  { takeIntent c attr with result := if Both15 c attr then P2pStatus.failBothGointent15.code else c.result }

def respIntent (attr : UInt8) : NegoCur :=
  let c' := takeIntent c attr
  if Both15 c attr then { c'.setState .gonegoFail with result := P2pStatus.failBothGointent15.code }
  else { c' with wd := { c'.wd with p2pState := .gonegoOk, preP2pState := .gonegoOk } }

/-- The lines for the intent attribute of a request or a response. -/
def intentT (take : NegoCur → UInt8 → NegoCur) : Prog NegoObj NegoCur := do
  match ← f.attrT ie .goIntent with
  | none => return c
  | some r => ownGroupT (take c (f.copied r (fun _ => 0) 0))

/-- The listen channel, if the attribute has its length. -/
def takeListenCh : Option (Nat × Nat) → NegoCur
  | none => c
  | some r => if r.2 = 5 then { c with wd := { c.wd with peerCh := f.copied r (fun _ => 0) 4 } } else c

/-- The interface address, cleared if the attribute does not have its length. -/
def takeIfAddr : Option (Nat × Nat) → NegoCur
  | none => c
  | some r =>
    { c with wd := { c.wd with
      p2pPeerInterfaceAddr := if r.2 = 6 then f.copied r c.wd.p2pPeerInterfaceAddr else fun _ => 0 } }

/-- The operating channel; `operatingch_info` of a response is not cleared between its elements. -/
def takeOperatingCh : Option (Nat × Nat) → NegoCur
  | none => c
  | some r =>
    let info := f.copied r c.operatingchInfo
    { c with wd := { c.wd with peerOperatingCh := info 4 }, operatingchInfo := info }

/-- A group owner whose channel is not common takes the peer's, or the first one. -/
def takeChannel (common : List UInt8) (ch : UInt8) (r : Option (Nat × Nat)) : NegoCur :=
  let peerOperatingCh := r.elim 0 fun r => f.copied r (fun _ => 0) 4
  { c with wd := { c.wd with operatingChannel := if peerOperatingCh ∈ common then peerOperatingCh else ch } }

/-- What the channels in common make of it. -/
def commonT (common : List UInt8) : Prog NegoObj (Round NegoCur NegoCur) :=
  match common with
  | [] => return .stop { c.setState .gonegoFail with result := P2pStatus.failNoCommonCh.code }
  | ch :: _ =>
    if c.wd.role = .go ∧ c.wd.operatingChannel ∉ common then do
      return .next (f.takeChannel c common ch (← f.attrT ie .operatingCh))
    else return .next c

/-- The lines for a channel list attribute with `chCnt` bytes of content. -/
def checkChListT (chContent : Nat → UInt8) (chCnt : Nat) : Prog NegoObj (Round NegoCur NegoCur) := do
  let peer ← Prog.loop (fun t => liftM ((peerChRound chContent t).onto NegoObj.chArray 0)) (peerStart chCnt fun _ => 0)
  let common := rtwP2pChInclusion c.wd.channelSet peer.peerChList.arr peer.chNo
  Prog.touch (.chArray .peerChList) 0 peer.chNo.toNat
  Prog.touch .chListInclusioned 0 common.length
  f.commonT ie c common

/-- The same with what the search for the attribute comes to; `old` is what the buffer has before. -/
def chListT (old : Nat → UInt8) : Option (Nat × Nat) → Prog NegoObj (Round NegoCur NegoCur)
  | none => return .next c
  | some r => f.checkChListT ie c (f.copied r old) r.2

/-- `channel_list_attr` of a response. -/
def takeChList (r : Option (Nat × Nat)) : NegoCur :=
  { c with wd := { c.wd with
      channelListAttr := r.elim c.wd.channelListAttr fun r => f.copied r c.wd.channelListAttr
      channelListAttrLen := r.elim 0 Prod.snd } }

/-- The address and the SSID of a group id. -/
def takeGroupId (r : Nat × Nat) : NegoCur :=
  let groupid := f.copied r fun _ => 0
  { c with wd := { c.wd with
      goDeviceAddr := groupid
      ssid := fun i => if i < ssidLen r.2 then groupid (6 + i) else c.wd.ssid i } }

def groupIdT : Prog NegoObj NegoCur := do
  match ← f.attrT ie .groupId with
  | none => return c
  | some r => do
    Prog.touch .groupid 6 (ssidLen r.2)
    Prog.touch .ssid 0 (ssidLen r.2)
    return f.takeGroupId c r

/-- The status, where the attribute has one byte. -/
def statusOf (r : Option (Nat × Nat)) : Option UInt8 :=
  r.bind fun r => if r.2 = 1 then some (f.copied r (fun _ => 0) 0) else none

/-- An element of a request. -/
def reqIeT : Prog NegoObj (Round NegoCur NegoCur) := do
  let c := c.setState .gonegoIng
  let _ ← f.attrT ie .capability
  let c ← f.intentT ie c reqIntent
  let c := f.takeListenCh c (← f.attrT ie .listenCh)
  let c := f.takeIfAddr c (← f.attrT ie .intentedIfAddr)
  f.chListT ie c (fun _ => 0) (← f.attrT ie .chList)

/-- The group id of a response, unless a `break` has been before it. -/
def respGroupT : Round NegoCur NegoCur → Prog NegoObj (Round NegoCur NegoCur)
  | .stop c => return .stop c
  | .next c => do return .next (← f.groupIdT ie c)

/-- The rest of an element of a response whose status is success. -/
def respAcceptT : Prog NegoObj (Round NegoCur NegoCur) := do
  let c := f.takeIfAddr c (← f.attrT ie .intentedIfAddr)
  let c ← f.intentT ie c respIntent
  let c := f.takeOperatingCh c (← f.attrT ie .operatingCh)
  let r ← f.attrT ie .chList
  f.respGroupT ie (← f.chListT ie (f.takeChList c r) c.wd.channelListAttr r)

/-- The status decides. -/
def respStatusT : Option UInt8 → Prog NegoObj (Round NegoCur NegoCur)
  | none => f.respAcceptT ie c
  | some status =>
    if status = P2pStatus.success.code then f.respAcceptT ie c
    else
      let p2pState := if status = P2pStatus.failInfoUnavailable.code then .rxInforNoready else .gonegoFail
      return .stop { c with wd := { c.wd with p2pState := p2pState, role := .device }, result := status }

/-- An element of a response. -/
def respIeT : Prog NegoObj (Round NegoCur NegoCur) := do
  let _ ← f.attrT ie .capability
  f.respStatusT ie c (f.statusOf (← f.attrT ie .status))

/-- The negotiation has succeeded. -/
def confOk : NegoCur :=
  { c with wd := { c.wd with
      restoreTimer := false
      p2pState := .gonegoOk
      preP2pState := .gonegoOk
      role :=
        if c.wd.intent > c.wd.peerIntent >>> 1 then .go
        else if c.wd.intent < c.wd.peerIntent >>> 1 then .client
        else if c.wd.peerIntent &&& 1 ≠ 0 then .client
        else .go }, result := P2pStatus.success.code }

/-- The rest of an element of a confirm. -/
def confRestT : Prog NegoObj (Round NegoCur NegoCur) := do
  let c ← f.groupIdT ie c
  return .next (f.takeOperatingCh c (← f.attrT ie .operatingCh))

def confStatusT : Option UInt8 → Prog NegoObj (Round NegoCur NegoCur)
  | none => f.confRestT ie c
  | some status =>
    if status = P2pStatus.success.code then f.confRestT ie (confOk c)
    else return .stop { c with wd := { c.wd with role := .device, p2pState := .gonegoFail }, result := status }

/-- An element of a confirm. -/
def confIeT : Prog NegoObj (Round NegoCur NegoCur) := do
  let c := { c with wd := { c.wd with negotiationDialogToken := 1 }, operatingchInfo := fun _ => 0 }
  f.confStatusT ie c (f.statusOf (← f.attrT ie .status))

end

section
variable (body : Nat × Nat → NegoCur → Prog NegoObj (Round NegoCur NegoCur))

/-- Behind an element the next one is searched for. -/
def nextElement (ie : Nat × Nat) : Round NegoCur NegoCur → Prog NegoObj (Round ((Nat × Nat) × NegoCur) NegoCur)
  | .stop c => return .stop c
  | .next c => do
    match ← (liftM (f.p2pIeT (ie.1 + ie.2)) : Prog NegoObj _) with
    | none => return .stop c
    | some ie => return .next (ie, c)

/-- The loop over the P2P elements. -/
def elementsT (ie : Nat × Nat) (c : NegoCur) : Prog NegoObj NegoCur :=
  Prog.loop (fun t => do f.nextElement t.1 (← body t.1 t.2)) (ie, c)

end

/-! ### WPS and WFD -/

/-- A request that comes without a provision discovery says how WPS is done. -/
def devicePwidT (wpsie : Nat × Nat) (c : NegoCur) : Prog NegoObj NegoCur :=
  if c.wd.strconfigMethodDesc = ['0', '0', '0'] then do
    let r ← f.attrContentT .wps wpsie wpsAttrDevicePwid .wpsDevicepasswordId
    let byte (i : Nat) : Nat := (r.elim 0 fun r => f.copied r (fun _ => 0) i).toNat
    let id := 256 * byte 0 + byte 1
    let desc : List Char :=
      if id = wpsDpidUserSpec then ['d', 'i', 's']
      else if id = wpsDpidRegistrarSpec then ['p', 'a', 'd']
      else ['p', 'b', 'c']
    return { c with wd := { c.wd with strconfigMethodDesc := desc } }
  else return c

/-- The element at `cnt` is a WFD element. -/
def IsWfd (cnt : Nat) : Prop := byteAt f.ies cnt = 221 ∧ memcmpAt f.ies (cnt + 2) wfdOui

instance (cnt : Nat) : Decidable (f.IsWfd cnt) := inferInstanceAs (Decidable (_ ∧ _))

/-- A round of `rtw_get_wfd_ie`. -/
def wfdIeRound (cnt : Nat) : Prog NegoObj (Round Nat (Option (Nat × Nat))) :=
  if cnt < f.iesLen then do
    Prog.touch .frame (8 + cnt) 1
    Prog.touchIf (byteAt f.ies cnt = 221) .frame (8 + cnt + 2) 4
    Prog.touch .frame (8 + cnt + 1) 1
    if f.IsWfd cnt then do
      Prog.touch .frame (8 + cnt) (byteAt f.ies (cnt + 1) + 2)
      Prog.touch .wfdIe 0 (byteAt f.ies (cnt + 1) + 2)
      return .stop (some (cnt, byteAt f.ies (cnt + 1) + 2))
    else return .next (cnt + (byteAt f.ies (cnt + 1) + 2))
  else return .stop none

/-- `rtw_get_wfd_ie`: a limit that is negative as an `int` is refused. -/
def wfdIeT : Prog NegoObj (Option (Nat × Nat)) :=
  if f.iesLen ≥ 2 ^ 31 then return none else Prog.loop f.wfdIeRound 0

section
variable (wfdIe : Nat → UInt8)

def wfdAttrLen (cnt : Nat) : Nat := 256 * (wfdIe (cnt + 1)).toNat + (wfdIe (cnt + 2)).toNat

/-- The copy is that of a WFD element: one that is too short has lost its OUI. -/
def WfdHeader : Prop := wfdIe 0 = 221 ∧ read wfdIe 2 4 = wfdOui

instance : Decidable (WfdHeader wfdIe) := inferInstanceAs (Decidable (_ ∧ _))

/-- A round of `rtw_get_wfd_attr_content` for `WFD_ATTR_DEVICE_INFO`. -/
def wfdAttrRound (wfdIelen cnt : Nat) : Prog NegoObj (Round Nat (Option (Nat × Nat))) :=
  if cnt < wfdIelen then do
    Prog.touch .wfdIe cnt 3
    if wfdIe cnt = 0 then do
      Prog.touch .wfdIe (cnt + 3) (wfdAttrLen wfdIe cnt)
      Prog.touch .wfdAttrContent 0 (wfdAttrLen wfdIe cnt)
      return .stop (some (cnt + 3, wfdAttrLen wfdIe cnt))
    else return .next (cnt + (wfdAttrLen wfdIe cnt + 3))
  else return .stop none

def wfdAttrT (wfdIelen : Nat) : Prog NegoObj (Option (Nat × Nat)) := do
  Prog.touch .wfdIe 0 1
  Prog.touchIf (wfdIe 0 = 221) .wfdIe 2 4
  if WfdHeader wfdIe then Prog.loop (wfdAttrRound wfdIe wfdIelen) 6 else return none

end

/-- The TCP port of the WFD device information. -/
def wfdT (c : NegoCur) : Prog NegoObj NegoCur := do
  match ← f.wfdIeT with
  | none => return c
  | some ie => do
    let wfdIe := f.copied ie fun _ => 0
    let r ← wfdAttrT wfdIe ie.2
    let byte (i : Nat) : Nat := (r.elim 0 fun r => if i < r.2 then wfdIe (r.1 + i) else 0).toNat
    return if r.elim 0 (·.2) ≠ 0 then { c with wd := { c.wd with peerRtspCtrlport := 256 * byte 2 + byte 3 } } else c

/-! ### The handlers -/

variable (s : NegoWd)

/-- What a request comes to behind its elements. -/
def reqEndT (c : NegoCur) : Prog NegoObj NegoCur :=
  if c.wd.uiGotWpsInfo = .noWpsinfo then
    return { c.setState .txInforNoready with result := P2pStatus.failInfoUnavailable.code }
  else f.wfdT c

/-- The P2P elements of a request that has a WPS element. -/
def reqElementsT (c : NegoCur) : Prog NegoObj NegoCur := do
  match ← (liftM (f.p2pIeT 0) : Prog NegoObj _) with
  | none => f.reqEndT { c.setState .gonegoFail with result := P2pStatus.failIncompatibleParam.code }
  | some ie => f.reqEndT (← f.elementsT f.reqIeT ie c)

/-- `process_p2p_group_negotation_req` -/
def processReq : Prog NegoObj NegoCur := do
  let c : NegoCur := ⟨s, P2pStatus.success.code, fun _ => 0⟩
  match ← (liftM f.wpsIeT : Prog NegoObj _) with
  | none => return { c.setState .gonegoFail with result := P2pStatus.failIncompatibleParam.code }
  | some wpsie => f.reqElementsT (← f.devicePwidT wpsie c)

/-- `process_p2p_group_negotation_resp` -/
def processResp : Prog NegoObj NegoCur := do
  let c : NegoCur := ⟨s, P2pStatus.success.code, fun _ => 0⟩
  let failed (c : NegoCur) := { c.setState .gonegoFail with result := P2pStatus.failIncompatibleParam.code }
  let wpsie ← (liftM f.wpsIeT : Prog NegoObj _)
  let c := if wpsie.isSome then c else failed c
  match ← (liftM (f.p2pIeT 0) : Prog NegoObj _) with
  | none => f.wfdT (failed { c with wd := { c.wd with role := .device } })
  | some ie => f.wfdT (← f.elementsT f.respIeT ie c)

/-- `process_p2p_group_negotation_confirm` -/
def processConfirm : Prog NegoObj NegoCur := do
  let c : NegoCur := ⟨s, P2pStatus.success.code, fun _ => 0⟩
  match ← (liftM (f.p2pIeT 0) : Prog NegoObj _) with
  | none => return c
  | some ie => f.elementsT f.confIeT ie c

def processNego : GoNegoSubtype → Prog NegoObj NegoCur
  | .req => f.processReq s
  | .resp => f.processResp s
  | .conf => f.processConfirm s

end NegoRx

end Rtw
