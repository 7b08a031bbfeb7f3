import Mathlib.Data.List.Basic
import Mathlib.Logic.Function.Basic
import Rtw.Lib.Run

/-!
# Group owner negotiation

Two devices that both run `rtw_p2p.c`. `on_action_public_p2p` takes a role from the intent and the tie breaker
of the frame it sees last; a request always carries tie breaker 0, so a response always carries 1. A
network keeps every frame that was ever sent, and an event may deliver any of them, in any order and any
number of times; the retries that `rtw_action_public_decache` drops are lost frames. All frames are the
driver's own, with one P2P IE each.
-/

namespace Rtw

inductive P2pState where
  | none | idle | listen | scan | findPhaseListen | findPhaseSearch | txProvisionDisReq | rxProvisionDisRsp
  | rxProvisionDisReq | gonegoIng | gonegoOk | gonegoFail | recvInviteReqMatch | provisioningIng
  | provisioningDone | txInviteReq | rxInviteRespOk | recvInviteReqDismatch | recvInviteReqGo
  | recvInviteReqJoin | rxInviteRespFail | rxInforNoready | txInforNoready
  deriving DecidableEq

inductive P2pRole where
  | disable | device | client | go
  deriving DecidableEq

/-- The status codes that the negotiation uses. -/
inductive P2pStatus where
  | success | failInfoUnavailable | failIncompatibleParam | failNoCommonCh | failBothGointent15
  deriving DecidableEq

inductive P2pWpsinfo where
  | noWpsinfo | peerDisplayPin | selfDisplayPin | pbc
  deriving DecidableEq

def p2pMaxIntent : Nat := 15

/-- An entry of the channel list attribute. -/
structure P2pRegClass where
  regClass : Nat
  channel : List Nat
  deriving DecidableEq

/-- An entry of the table in `init_channel_list`; `bw40` says that its `bw` is not `BW20`. -/
structure P2pOperClass where
  opClass : Nat
  minChan : Nat
  maxChan : Nat
  inc : Nat
  bw40 : Bool

def p2pOperClasses : List P2pOperClass :=
  [⟨81, 1, 13, 1, false⟩, ⟨82, 14, 14, 1, false⟩, ⟨115, 36, 48, 4, false⟩, ⟨116, 36, 44, 8, true⟩,
    ⟨117, 40, 48, 8, true⟩, ⟨124, 149, 161, 4, false⟩, ⟨125, 149, 169, 4, false⟩, ⟨126, 149, 157, 8, true⟩,
    ⟨127, 153, 161, 8, true⟩]

namespace P2pOperClass

/-- The channels that the loop over an operating class visits. -/
def channels (o : P2pOperClass) : List Nat := List.range' o.minChan ((o.maxChan - o.minChan) / o.inc + 1) o.inc

end P2pOperClass

/-- What the user and the registry set: the intent, how WPS is done and the channels of the channel plan. -/
structure P2pCfg where
  intent : Nat
  intent_le : intent ≤ p2pMaxIntent
  uiGotWpsInfo : P2pWpsinfo
  channelSet : List Nat
  htEnable : Bool
  bw5g40 : Bool

namespace P2pCfg

/-- `init_channel_list` -/
def channelList (cfg : P2pCfg) : List P2pRegClass :=
  p2pOperClasses.filterMap fun o =>
    match o.channels.filter (· ∈ cfg.channelSet) with
    | [] => none
    | chs => if !cfg.htEnable && o.inc = 8 || cfg.bw5g40 && o.bw40 then none else some ⟨o.opClass, chs⟩

end P2pCfg

/-- `rtw_p2p_get_peer_ch_list` -/
def peerChList (l : List P2pRegClass) : List Nat := l.flatMap P2pRegClass.channel

/-- `rtw_p2p_ch_inclusion`: each search goes on from the entry that the last one found. -/
def chInclusion : List Nat → List Nat → List Nat
  | _, [] => []
  | channelSet, ch :: peer =>
    match channelSet.dropWhile (· != ch) with
    | [] => chInclusion channelSet peer
    | rest => ch :: chInclusion rest peer

/-- The attributes of a negotiation frame's P2P IE, and whether it has a WPS IE. -/
structure P2pIe where
  wpsIe : Bool
  status : Option P2pStatus
  goIntent : Option Nat
  operatingCh : Option Nat
  chList : Option (List P2pRegClass)
  deriving DecidableEq

/-- The OUI subtypes of the negotiation frames. -/
inductive GoNegoSubtype where
  | req | resp | conf
  deriving DecidableEq

structure GoNegoFrame where
  subtype : GoNegoSubtype
  ie : P2pIe
  deriving DecidableEq

/-- The fields of `wifidirect_info` that the negotiation reads and writes. `restoreTimer` says that
`restore_p2p_state_timer` runs, `restoreWk` counts the `P2P_RESTORE_STATE_WK` commands in the queue. -/
structure WifiDirect where
  p2pState : P2pState
  preP2pState : P2pState
  role : P2pRole
  peerIntent : Nat
  operatingChannel : Nat
  peerOperatingCh : Nat
  benable : Bool
  restoreTimer : Bool
  restoreWk : Nat

/-- The role that an intent and the peer's intent attribute give, as the request and the response
handler take it. -/
def negoRole (intent attr : Nat) : P2pRole :=
  if intent = attr / 2 then
    if intent = p2pMaxIntent then .device else if attr % 2 = 1 then .client else .go
  else if intent > attr / 2 then .go
  else .client

/-- The operating class of a channel. -/
def operClassOf (ch : Nat) : Nat :=
  if ch ≤ 14 then 0x51 else if 36 ≤ ch ∧ ch ≤ 48 then 0x73 else 0x7c

namespace WifiDirect
variable (cfg : P2pCfg)

/-- `issue_p2p_GO_request` -/
def goRequest (d : WifiDirect) : GoNegoFrame :=
  ⟨.req, true, none, some (2 * cfg.intent % 256), some d.operatingChannel, some cfg.channelList⟩

/-- `issue_p2p_GO_response` -/
def goResponse (d : WifiDirect) (result : P2pStatus) : GoNegoFrame :=
  ⟨.resp, true, some result,
    some (if d.peerIntent % 2 = 1 then 2 * cfg.intent % 256 else (2 * cfg.intent + 1) % 256),
    some d.operatingChannel, some cfg.channelList⟩

/-- `issue_p2p_GO_confirm` -/
def goConfirm (d : WifiDirect) (result : P2pStatus) : GoNegoFrame :=
  let ch := if d.role = .client then d.peerOperatingCh else d.operatingChannel
  ⟨.conf, false, some result, none, some ch, some [⟨operClassOf ch, [ch]⟩]⟩

/-- The channel list attribute: without a common channel the negotiation fails, and a group owner moves to a
common one. -/
def checkChList (d : WifiDirect) (ie : P2pIe) (result : P2pStatus) : WifiDirect × P2pStatus :=
  match ie.chList with
  | none => (d, result)
  | some l =>
    match chInclusion cfg.channelSet (peerChList l) with
    | [] => ({ d with p2pState := .gonegoFail }, .failNoCommonCh)
    | ch :: chs =>
      let peerOperatingCh := ie.operatingCh.getD 0
      if d.role = .go ∧ d.operatingChannel ∉ ch :: chs then
        ({ d with operatingChannel := if peerOperatingCh ∈ ch :: chs then peerOperatingCh else ch }, result)
      else (d, result)

/-- The intent attribute of a request. -/
def reqIntent (d : WifiDirect) (ie : P2pIe) : WifiDirect × P2pStatus :=
  match ie.goIntent with
  | none => (d, .success)
  | some attr =>
    ({ d with peerIntent := attr, role := negoRole cfg.intent attr },
      if cfg.intent = attr / 2 ∧ cfg.intent = p2pMaxIntent then .failBothGointent15 else .success)

/-- `process_p2p_group_negotation_req` -/
def processReq (d : WifiDirect) (ie : P2pIe) : WifiDirect × P2pStatus :=
  if ie.wpsIe then
    let (d, result) := reqIntent cfg { d with p2pState := .gonegoIng } ie
    let (d, result) := d.checkChList cfg ie result
    if cfg.uiGotWpsInfo = .noWpsinfo then ({ d with p2pState := .txInforNoready }, .failInfoUnavailable)
    else (d, result)
  else ({ d with p2pState := .gonegoFail }, .failIncompatibleParam)

/-- The intent attribute of a response. -/
def respIntent (d : WifiDirect) (ie : P2pIe) (result : P2pStatus) : WifiDirect × P2pStatus :=
  match ie.goIntent with
  | none => (d, result)
  | some attr =>
    let d := { d with peerIntent := attr, role := negoRole cfg.intent attr }
    if cfg.intent = attr / 2 ∧ cfg.intent = p2pMaxIntent then
      ({ d with p2pState := .gonegoFail }, .failBothGointent15)
    else ({ d with p2pState := .gonegoOk, preP2pState := .gonegoOk }, result)

/-- The rest of a response whose status is success. -/
def respAccept (d : WifiDirect) (ie : P2pIe) (result : P2pStatus) : WifiDirect × P2pStatus :=
  let (d, result) := d.respIntent cfg ie result
  checkChList cfg { d with peerOperatingCh := ie.operatingCh.getD d.peerOperatingCh } ie result

/-- `process_p2p_group_negotation_resp` -/
def processResp (d : WifiDirect) (ie : P2pIe) : WifiDirect × P2pStatus :=
  let (d, result) :=
    if ie.wpsIe then (d, .success) else ({ d with p2pState := .gonegoFail }, .failIncompatibleParam)
  match ie.status with
  | none | some .success => d.respAccept cfg ie result
  | some .failInfoUnavailable => ({ d with p2pState := .rxInforNoready, role := .device }, .failInfoUnavailable)
  | some status => ({ d with p2pState := .gonegoFail, role := .device }, status)

/-- `process_p2p_group_negotation_confirm`: the role comes from the peer's intent of an earlier frame. -/
def processConf (d : WifiDirect) (ie : P2pIe) : WifiDirect :=
  match ie.status with
  | none => { d with peerOperatingCh := ie.operatingCh.getD d.peerOperatingCh }
  | some .success =>
    { d with
      restoreTimer := false
      p2pState := .gonegoOk
      preP2pState := .gonegoOk
      role :=
        if cfg.intent > d.peerIntent / 2 then .go
        else if cfg.intent < d.peerIntent / 2 then .client
        else if d.peerIntent % 2 = 1 then .client
        else .go
      peerOperatingCh := ie.operatingCh.getD d.peerOperatingCh }
  | some _ => { d with role := .device, p2pState := .gonegoFail }

/-- What `on_action_public_p2p` does before it looks into a request: a state to come back to is restored, and
remembered. -/
def rememberState (d : WifiDirect) : WifiDirect :=
  let d := if d.p2pState = .rxProvisionDisReq then { d with p2pState := d.preP2pState } else d
  let d :=
    if d.p2pState = .gonegoFail then { d with restoreTimer := false, p2pState := d.preP2pState } else d
  if d.p2pState = .gonegoIng then d else { d with preP2pState := d.p2pState }

/-- The case of `P2P_GO_NEGO_REQ`. -/
def onNegoReq (d : WifiDirect) (ie : P2pIe) : WifiDirect × List GoNegoFrame :=
  let (d, result) := processReq cfg d.rememberState ie
  ({ d with restoreTimer := true }, [d.goResponse cfg result])

/-- The case of `P2P_GO_NEGO_RESP`. -/
def onNegoResp (d : WifiDirect) (ie : P2pIe) : WifiDirect × List GoNegoFrame :=
  if d.p2pState = .gonegoIng then
    let (d, result) := processResp cfg { d with restoreTimer := false, benable := false } ie
    ({ d with restoreTimer := d.restoreTimer || d.p2pState = .gonegoFail }, [d.goConfirm result])
  else (d, [])

/-- `on_action_public_p2p`: the new state, and the frames it sends. -/
def onActionPublicP2p (d : WifiDirect) (f : GoNegoFrame) : WifiDirect × List GoNegoFrame :=
  if d.p2pState = .none ∨ d.p2pState = .idle then (d, [])
  else
    match f.subtype with
    | .req => d.onNegoReq cfg f.ie
    | .resp => d.onNegoResp cfg f.ie
    | .conf => (d.processConf cfg f.ie, [])

/-- `rtw_p2p_connect`, for a peer in the scan queue. -/
def connect (d : WifiDirect) : WifiDirect :=
  if d.p2pState = .none ∨ cfg.uiGotWpsInfo = .noWpsinfo then d
  else
    { d with
      benable := true
      preP2pState := if d.p2pState = .gonegoOk then .gonegoOk else .listen
      p2pState := .gonegoIng
      restoreTimer := true }

/-- `OnProbeRsp` on a probe response of the peer. -/
def onProbeRsp (d : WifiDirect) : WifiDirect × List GoNegoFrame :=
  if d.p2pState = .gonegoIng ∧ d.benable then ({ d with benable := false }, [d.goRequest cfg]) else (d, [])

/-- `restore_p2p_state_timer_process` -/
def restoreTimerProcess (d : WifiDirect) : WifiDirect :=
  if d.restoreTimer then
    { d with restoreTimer := false, restoreWk := if d.p2pState = .none then d.restoreWk else d.restoreWk + 1 }
  else d

/-- `restore_p2p_state_handler` -/
def restoreHandler (d : WifiDirect) : WifiDirect :=
  match d.restoreWk with
  | 0 => d
  | k + 1 =>
    { d with
      restoreWk := k
      role := if d.p2pState = .gonegoIng ∨ d.p2pState = .gonegoFail then .device else d.role
      p2pState := d.preP2pState }

end WifiDirect

/-! ## The two devices and the frames between them -/

inductive P2pSide where
  | a | b
  deriving DecidableEq

def P2pSide.peer : P2pSide → P2pSide
  | .a => .b
  | .b => .a

@[simp] theorem P2pSide.peer_peer (s : P2pSide) : s.peer.peer = s := by cases s <;> rfl

theorem P2pSide.peer_ne (s : P2pSide) : s.peer ≠ s := by cases s <;> decide

theorem P2pSide.eq_or_eq_peer (s t : P2pSide) : t = s ∨ t = s.peer := by cases s <;> cases t <;> decide

/-- The devices, and every frame that each has sent. -/
structure P2pNet where
  dev : P2pSide → WifiDirect
  sent : P2pSide → List GoNegoFrame

inductive P2pEvent where
  | connect (s : P2pSide)
  | probeRsp (s : P2pSide)
  | deliver (s : P2pSide) (f : GoNegoFrame)
  | restoreTimeout (s : P2pSide)
  | restore (s : P2pSide)

namespace P2pNet
variable (cfg : P2pSide → P2pCfg)

/-- The device of `s` goes to `r.1` and sends the frames `r.2`. -/
def act (n : P2pNet) (s : P2pSide) (r : WifiDirect × List GoNegoFrame) : P2pNet where
  dev := Function.update n.dev s r.1
  sent := Function.update n.sent s (r.2 ++ n.sent s)

/-- One event; a frame is delivered to `s` only if its peer has sent it. -/
def next (n : P2pNet) : P2pEvent → P2pNet
  | .connect s => n.act s ((n.dev s).connect (cfg s), [])
  | .probeRsp s => n.act s ((n.dev s).onProbeRsp (cfg s))
  | .deliver s f => if f ∈ n.sent s.peer then n.act s ((n.dev s).onActionPublicP2p (cfg s) f) else n
  | .restoreTimeout s => n.act s ((n.dev s).restoreTimerProcess, [])
  | .restore s => n.act s ((n.dev s).restoreHandler, [])

/-- Before any frame: neither device has negotiated with success. -/
def Start (n : P2pNet) : Prop :=
  ∀ s, n.sent s = [] ∧ (n.dev s).p2pState ≠ .gonegoOk ∧ (n.dev s).preP2pState ≠ .gonegoOk

end P2pNet

end Rtw
