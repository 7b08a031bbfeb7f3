import Rtw.Lib.Run
import Rtw.P2p.GoNego

/-!
# The site survey

`sitesurvey_cmd_hdl` leaves the operating channel, surveys the channels that `rtw_scan_ch_decision` picked and
comes back, a command at a time: each command ends by arming the timer that queues the next one. Here a pass
of its switch (`operation`) is one step, so that timers, aborts, the other interfaces and the policy files of
procfs act between any two passes. The antenna diversity state, the receive aggregation settings and the noise
monitor are left out.
-/

namespace Rtw.Scan

/-- `enum SCAN_STATE`. -/
inductive ScanState where
  | disable | start | psAnncWait | enter | process
  | backingOp | backOp | leavingOp | leaveOp
  | toP2pListen | p2pListen | complete
  deriving DecidableEq, Repr

inductive ScanType where
  | passive | active
  deriving DecidableEq, Repr

/-- `struct rtw_ieee80211_channel`. -/
structure ScanChannel where
  hwValue : UInt16
  flags : UInt32
  deriving DecidableEq, Repr

def chanDisabled : UInt32 := 0x1
def chanPassiveScan : UInt32 := 0x2

/-- `RT_CHANNEL_INFO`. -/
structure ChannelInfo where
  channelNum : UInt8
  scanType : ScanType
  deriving DecidableEq, Repr

inductive SetBand where
  | auto | ghz5 | ghz2
  deriving DecidableEq, Repr

/-- A channel, its width and the place of its second half. -/
structure ChSetting where
  ch : UInt8
  bw : UInt8
  offset : UInt8
  deriving DecidableEq, Repr

/-- `CHANNEL_WIDTH_20` and `HAL_PRIME_CHNL_OFFSET_DONT_CARE`. -/
def ChSetting.width20 (ch : UInt8) : ChSetting := ⟨ch, 0, 0⟩

/-- The two bits of `pmlmeinfo->state` that go to the media status register. -/
inductive Msr where
  | nolink | adhoc | station | ap
  deriving DecidableEq, Repr

/-- What a scan reads of `struct wifidirect_info`. -/
structure WdInfo where
  state : P2pState
  preState : P2pState
  findPhaseStateExchangeCnt : UInt8
  listenChannel : UInt8
  inviteScanOpChOnly : Bool
  inviteOperationCh : List UInt8
  scanOpChOnly : Bool
  operationCh : List UInt8
  cfg80211 : Bool
  p2pEnabled : Bool

def socialChan : List UInt8 := [1, 6, 11, 0]

def ssidScanAmount : Nat := 9
def channelScanAmount : Nat := 51

namespace WdInfo

def findphaseExIsSocial (w : WdInfo) : Bool := w.findPhaseStateExchangeCnt ≥ 2

def findphaseExIsNeeded (w : WdInfo) : Bool :=
  w.findPhaseStateExchangeCnt < 4 && w.findPhaseStateExchangeCnt != 0 && !w.inviteScanOpChOnly &&
    !w.scanOpChOnly

end WdInfo

/-- An interface of the device. `psAnnounced` is the power bit of the last null data frame of a scan. -/
structure Iface where
  linked : Bool
  underLinking : Bool
  opChSwitching : Bool
  msr : Msr
  assocSuccess : Bool
  asocStaCount : Nat
  cur : ChSetting
  wd : WdInfo
  psAnnounced : Bool

namespace Iface

def isClientAssociatedToAp (f : Iface) : Bool := f.assocSuccess && decide (f.msr = .station)

def operating (f : Iface) : Bool := (f.linked || f.underLinking) && !f.opChSwitching

/-- The listen channel counts only where the listen state does. -/
def listens (f : Iface) : Bool :=
  !(f.wd.cfg80211 && !f.wd.p2pEnabled) && decide (f.wd.state = .listen)

end Iface

def unionFrom (ret : ChSetting) : List ChSetting → Option ChSetting
  | [] => some ret
  | c :: cs =>
    if ret.ch ≠ c.ch then none
    else if ret.bw < c.bw then unionFrom { ret with bw := c.bw, offset := c.offset } cs
    else if ret.bw = c.bw ∧ ret.offset ≠ c.offset then none
    else unionFrom ret cs

/-- `none` is the number 0 that `_rtw_get_ch_setting_union` returns. -/
def rtwGetChSettingUnion (ifaces : List Iface) : Option ChSetting :=
  match (ifaces.filter Iface.operating).map Iface.cur with
  | [] => none
  | c :: cs => unionFrom c cs

/-- The counts of `rtw_dev_iface_status`. -/
structure IfaceStatus where
  staNum : Nat
  ldStaNum : Nat
  apNum : Nat
  ldApNum : Nat

def rtwDevIfaceStatus (ifaces : List Iface) : IfaceStatus where
  staNum := ifaces.countP fun f => decide (f.msr = .station)
  ldStaNum := ifaces.countP fun f => decide (f.msr = .station) && f.linked
  apNum := ifaces.countP fun f => decide (f.msr = .ap) && f.linked
  ldApNum := ifaces.countP fun f => decide (f.msr = .ap) && f.linked && decide (f.asocStaCount > 2)

/-- The entry of the channel set at the index that `rtw_ch_set_search_ch` returns. -/
def rtwChSetSearchCh (ch : Nat) : Nat → List ChannelInfo → Option ChannelInfo
  | _, [] => none
  | i, c :: cs =>
    if c.channelNum = 0 then none
    else if ch = c.channelNum.toNat then if i ≥ c.channelNum.toNat then none else some c
    else rtwChSetSearchCh ch (i + 1) cs

def rtwMlmeBandCheck (setband : SetBand) (ch : Nat) : Bool :=
  match setband with
  | .auto => true
  | .ghz2 => decide (ch < 35)
  | .ghz5 => decide (ch > 35)

/-- What a scan reads of the adapter and never changes. -/
structure SurveyCfg where
  channelSet : List ChannelInfo
  setband : SetBand
  scanMode : ScanType
  wifiSpec : Bool
  adaptivityNeeded : Bool

/-- `struct sitesurvey_parm`. -/
structure SurveyParm where
  scanMode : ScanType
  ssid : List (List UInt8)
  ch : List ScanChannel
  deriving DecidableEq, Repr

/-- The parameters that `survey_timer_hdl` queues: zeros. -/
def SurveyParm.zero : SurveyParm := ⟨.passive, [], []⟩

namespace SurveyCfg

def markPassive (c : ScanChannel) (t : ScanType) : ScanChannel :=
  if t = .passive then { c with flags := c.flags ||| chanPassiveScan } else c

/-- A requested channel that is not disabled, with the scan type of the channel set. -/
def requested (a : SurveyCfg) (c : ScanChannel) : Option ScanChannel :=
  if c.hwValue ≠ 0 ∧ c.flags &&& chanDisabled = 0 then
    (rtwChSetSearchCh c.hwValue.toNat 0 a.channelSet).bind fun info =>
      if rtwMlmeBandCheck a.setband c.hwValue.toNat then some (markPassive c info.scanType) else none
  else none

def fromSet (a : SurveyCfg) (info : ChannelInfo) : Option ScanChannel :=
  if rtwMlmeBandCheck a.setband info.channelNum.toNat then
    some (markPassive ⟨info.channelNum.toUInt16, 0⟩ info.scanType)
  else none

/-- `rtw_scan_sparse` where it is built for Miracast traffic only, one channel at a time. -/
def rtwScanSparse (sparse : Bool) (token : UInt8) (ch : List ScanChannel) : List ScanChannel × UInt8 :=
  let maxAllowCh := 1
  if sparse && decide (ch.length > 6) then
    let division := ch.length / maxAllowCh + (if ch.length % maxAllowCh = 0 then 0 else 1)
    let token := UInt8.ofNat ((token.toNat + 1) % division)
    ((ch.zipIdx.filter fun c => decide (c.1.hwValue ≠ 0 ∧ c.2 % division = token.toNat)).map Prod.fst, token)
  else (ch, token)

/-- What `rtw_scan_ch_decision` has before it calls `rtw_scan_sparse`. -/
def allowed (a : SurveyCfg) (ch : List ScanChannel) : List ScanChannel :=
  if (ch.filterMap a.requested).take channelScanAmount = [] then
    (a.channelSet.filterMap a.fromSet).take channelScanAmount
  else (ch.filterMap a.requested).take channelScanAmount

def rtwScanChDecision (a : SurveyCfg) (sparse : Bool) (token : UInt8) (ch : List ScanChannel) :
    List ScanChannel × UInt8 :=
  rtwScanSparse (sparse && !a.wifiSpec) token (a.allowed ch)

end SurveyCfg

inductive ProbeReq where
  | p2p
  | sta (ssid : List UInt8) (appendWps : Bool)
  deriving DecidableEq, Repr

/-- A channel that `site_survey` went to, and the probe requests that it sent there. -/
structure Surveyed where
  ch : UInt8
  probes : List ProbeReq
  deriving DecidableEq, Repr

/-- What a scan writes of the radio. -/
structure ScanHw where
  ch : ChSetting
  msr : Msr
  mlmeSitesurvey : Bool
  igi : UInt8
  supportAbility : UInt32
  deriving DecidableEq, Repr

/-- `ODM_BB_ADAPTIVITY`. -/
def odmBbAdaptivity : UInt32 := 0x2000

def ssBackopEn : UInt8 := 0x01
def ssBackopEnNl : UInt8 := 0x02
def ssBackopPsAnnc : UInt8 := 0x10
def ssBackopTxResume : UInt8 := 0x20

inductive SurveyCmd where
  | siteSurvey (parm : SurveyParm)
  | findPhaseWk
  deriving DecidableEq, Repr

/-- A device of `n` interfaces and the scan of the interface `self`: `struct ss_res`, the command thread
(`busy` while it is in the switch, with `parm`), the timers, the radio, and what the scan has surveyed. -/
structure SiteSurvey (n : Nat) where
  cfg : SurveyCfg
  self : Fin n
  ifaces : Fin n → Iface
  state : ScanState
  nextState : ScanState
  channelIdx : Nat
  scanMode : ScanType
  ssid : List (List UInt8)
  ch : List ScanChannel
  backopFlagsSta : UInt8
  backopFlagsAp : UInt8
  backopFlags : UInt8
  scanCnt : Nat
  scanCntMax : Nat
  scanAbort : Bool
  token : UInt8
  parm : SurveyParm
  busy : Bool
  cmds : List SurveyCmd
  surveyTimer : Bool
  findPhaseTimer : Bool
  hw : ScanHw
  bkSupportAbility : UInt32
  surveyed : List Surveyed
  surveydone : Nat

namespace SiteSurvey

variable {n : Nat}

def all (s : SiteSurvey n) : List Iface := List.ofFn s.ifaces

def wd (s : SiteSurvey n) : WdInfo := (s.ifaces s.self).wd

def setWd (s : SiteSurvey n) (w : WdInfo) : SiteSurvey n :=
  { s with ifaces := Function.update s.ifaces s.self { s.ifaces s.self with wd := w } }

@[simp] def setScanState (s : SiteSurvey n) (st : ScanState) : SiteSurvey n := { s with state := st, nextState := st }

/-- `break` out of the switch. -/
@[simp] def leave (s : SiteSurvey n) : SiteSurvey n := { s with busy := false }

@[simp] def setSurveyTimer (s : SiteSurvey n) : SiteSurvey n := { s with surveyTimer := true }

@[simp] def setChannelBwmode (s : SiteSurvey n) (c : ChSetting) : SiteSurvey n := { s with hw := { s.hw with ch := c } }

@[simp] def setMsr (s : SiteSurvey n) (m : Msr) : SiteSurvey n := { s with hw := { s.hw with msr := m } }

@[simp] def setMlmeSitesurvey (s : SiteSurvey n) (on : Bool) : SiteSurvey n :=
  { s with hw := { s.hw with mlmeSitesurvey := on } }

/-- `pmlmeinfo->state & 0x3`. -/
@[simp] def ownMsr (s : SiteSurvey n) : Msr := (s.ifaces s.self).msr

/-- The radio is back on the channel `c`, under the state of its adapter and with the survey done. -/
def surveyDone (s : SiteSurvey n) (c : ChSetting) : SiteSurvey n :=
  ((s.setChannelBwmode c).setMsr s.ownMsr).setMlmeSitesurvey false

def sitesurveySetIgi (s : SiteSurvey n) (enter : Bool) : SiteSurvey n :=
  let igi : UInt8 :=
    if enter then
      if s.wd.p2pEnabled && s.wd.cfg80211 then 0x30
      else if s.wd.state ≠ .none then 0x28
      else 0x1e
    else 0xff
  { s with hw := { s.hw with igi := igi } }

@[simp] def phydmAbilityBackup (s : SiteSurvey n) : SiteSurvey n := { s with bkSupportAbility := s.hw.supportAbility }

@[simp] def phydmAbilityRestore (s : SiteSurvey n) : SiteSurvey n :=
  { s with hw := { s.hw with supportAbility := s.bkSupportAbility } }

@[simp] def phydmFuncForOffchannel (s : SiteSurvey n) : SiteSurvey n :=
  { s with hw := { s.hw with supportAbility := if s.cfg.adaptivityNeeded then odmBbAdaptivity else 0 } }

/-- The null data frames of `sitesurvey_ps_annc`. -/
def sitesurveyPsAnnc (s : SiteSurvey n) (ps : Bool) : SiteSurvey n :=
  { s with ifaces := fun i =>
      if (s.ifaces i).isClientAssociatedToAp then { s.ifaces i with psAnnounced := ps } else s.ifaces i }

/-- What `sitesurvey_ps_annc` returns. -/
def psAnncDoing (s : SiteSurvey n) : Bool := s.all.any Iface.isClientAssociatedToAp

def sitesurveyResReset (s : SiteSurvey n) (sparse : Bool) : SiteSurvey n :=
  let d := s.cfg.rtwScanChDecision sparse s.token s.parm.ch
  { s with
    channelIdx := 0, scanCnt := 0, ssid := s.parm.ssid.take ssidScanAmount, ch := d.1, token := d.2,
    scanMode := s.parm.scanMode, surveyed := [] }

def scanAbortHdl (s : SiteSurvey n) : SiteSurvey n :=
  if s.scanAbort then
    if s.wd.state ≠ .none then
      { s.setWd { s.wd with findPhaseStateExchangeCnt := 4 } with channelIdx := 3, scanAbort := false }
    else { s with channelIdx := s.ch.length, scanAbort := false }
  else s

/-- The channel that `sitesurvey_pick_ch_behavior` goes to, 0 for none, and how it is scanned. -/
def scanCh (s : SiteSurvey n) : UInt8 × ScanType :=
  if s.wd.inviteScanOpChOnly || s.wd.scanOpChOnly then
    if s.wd.inviteScanOpChOnly then (s.wd.inviteOperationCh.getD s.channelIdx 0, .active)
    else (s.wd.operationCh.getD s.channelIdx 0, .active)
  else if s.wd.findphaseExIsSocial then
    let ch := socialChan.getD s.channelIdx 0
    match rtwChSetSearchCh ch.toNat 0 s.cfg.channelSet with
    | some info => (ch, info.scanType)
    | none => (ch, .active)
  else
    match s.ch[s.channelIdx]? with
    | some c => (c.hwValue.toUInt8, if c.flags &&& chanPassiveScan = 0 then .active else .passive)
    | none => (0, .passive)

/-- The flags under which the scan is to come back to the operating channel now and then. -/
def policyFlags (s : SiteSurvey n) : UInt8 :=
  let st := rtwDevIfaceStatus s.all
  let sta := (st.ldStaNum > 0 ∧ s.backopFlagsSta &&& ssBackopEn ≠ 0) ∨
    (st.staNum > 0 ∧ s.backopFlagsSta &&& ssBackopEnNl ≠ 0)
  let ap := (st.ldApNum > 0 ∧ s.backopFlagsAp &&& ssBackopEn ≠ 0) ∨
    (st.apNum > 0 ∧ s.backopFlagsAp &&& ssBackopEnNl ≠ 0)
  (if sta then s.backopFlagsSta else 0) ||| (if ap then s.backopFlagsAp else 0)

/-- What `sitesurvey_pick_ch_behavior` does after its choice of a channel. -/
def pickBehavior (s : SiteSurvey n) (scanCh : UInt8) : ScanState × SiteSurvey n :=
  if scanCh ≠ 0 then
    if s.policyFlags = 0 then (.process, s)
    else if s.scanCnt < s.scanCntMax then (.process, { s with scanCnt := s.scanCnt + 1 })
    else (.backingOp, { s with backopFlags := s.policyFlags, scanCnt := 0 })
  else if s.wd.findphaseExIsNeeded then (.toP2pListen, { s with scanCnt := 0 })
  else (.complete, { s with scanCnt := 0 })

/-- The probe requests of `site_survey`. -/
def probes (s : SiteSurvey n) (t : ScanType) : List ProbeReq :=
  if t = .active then
    if s.wd.state = .scan ∨ s.wd.state = .findPhaseSearch then [.p2p, .p2p, .p2p]
    else
      ((s.ssid.filter fun x => !x.isEmpty).flatMap fun x => [.sta x s.cfg.wifiSpec, .sta x true]) ++
        if s.scanMode = .active then [.sta [] s.cfg.wifiSpec, .sta [] true] else []
  else []

def siteSurvey (s : SiteSurvey n) (c : UInt8 × ScanType) : SiteSurvey n :=
  { s.setChannelBwmode (.width20 c.1) with surveyed := s.surveyed ++ [⟨c.1, s.probes c.2⟩] }

/-- The setting that `survey_done_set_ch_bw` goes back to. -/
def doneSetting (s : SiteSurvey n) : ChSetting :=
  match rtwGetChSettingUnion s.all with
  | some c => c
  | none =>
    match s.all.find? Iface.listens with
    | some f => if f.wd.listenChannel = 0 then (s.ifaces s.self).cur else .width20 f.wd.listenChannel
    | none => (s.ifaces s.self).cur

def chkBackopFlags (s : SiteSurvey n) (flag : UInt8) : Bool := s.backopFlags &&& flag != 0

/-- One pass of the switch: it goes round again (`busy` stays) or breaks. `stayed`: the time on the operating
channel is up. -/
def operation (s : SiteSurvey n) (stayed sparse : Bool) : SiteSurvey n :=
  match s.state with
  | .disable => (s.sitesurveyResReset sparse).setScanState .start
  | .start =>
    if s.psAnncDoing then
      { (s.sitesurveyPsAnnc true).setScanState .psAnncWait with nextState := .enter }.setSurveyTimer.leave
    else (s.sitesurveyPsAnnc true).setScanState .enter
  | .psAnncWait => s.leave
  | .enter =>
    ((s.sitesurveySetIgi true).phydmAbilityBackup.phydmFuncForOffchannel.setMsr .nolink
      |>.setMlmeSitesurvey true).setScanState .process
  | .process =>
    let p := s.scanAbortHdl.pickBehavior s.scanAbortHdl.scanCh.1
    if p.1 ≠ .process then p.2.setScanState p.1
    else (p.2.siteSurvey s.scanAbortHdl.scanCh).setSurveyTimer.leave
  | .backingOp =>
    -- no interface on a channel gives channel 0, which the driver only warns about
    let back := (rtwGetChSettingUnion s.all).getD (.width20 0)
    let s := s.surveyDone back
    let s := if s.chkBackopFlags ssBackopPsAnnc then (s.sitesurveySetIgi false).sitesurveyPsAnnc false else s
    s.setScanState .backOp
  | .backOp =>
    if stayed || s.scanAbort then s.setScanState .leavingOp else s.setSurveyTimer.leave
  | .leavingOp =>
    if s.chkBackopFlags ssBackopPsAnnc then
      if s.psAnncDoing then
        { (s.sitesurveyPsAnnc true).setScanState .psAnncWait with nextState := .leaveOp }.setSurveyTimer.leave
      else (s.sitesurveyPsAnnc true).setScanState .leaveOp
    else s.setScanState .leaveOp
  | .leaveOp =>
    let s := if s.chkBackopFlags ssBackopPsAnnc then s.sitesurveySetIgi true else s
    ((s.setMsr .nolink).setMlmeSitesurvey true).setScanState .process
  | .toP2pListen =>
    let s := s.setChannelBwmode (.width20 s.wd.listenChannel)
    let s := (s.setWd { s.wd with state := .findPhaseListen }).phydmAbilityRestore.sitesurveySetIgi false
    { s.setScanState .p2pListen with findPhaseTimer := true }.leave
  | .p2pListen => { s.setScanState .process with channelIdx := 0 }
  | .complete =>
    let s :=
      if s.wd.state = .scan ∨ s.wd.state = .findPhaseSearch then s.setWd { s.wd with state := s.wd.preState }
      else s
    let s := s.setWd { s.wd with findPhaseStateExchangeCnt := 0 }
    let s := s.surveyDone s.doneSetting
    let s := (s.phydmAbilityRestore.sitesurveySetIgi false).sitesurveyPsAnnc false
    { s.setScanState .disable with surveydone := s.surveydone + 1 }.leave

/-- What `sitesurvey_cmd_hdl` does before its switch. -/
def begin (s : SiteSurvey n) (parm : SurveyParm) : SiteSurvey n :=
  let s := if s.state = .process then { s with channelIdx := s.channelIdx + 1 } else s
  { s.setScanState s.nextState with parm := parm, busy := true }

@[simp] def enqueue (s : SiteSurvey n) (c : SurveyCmd) : SiteSurvey n := { s with cmds := s.cmds ++ [c] }

/-- `find_phase_handler`, with the wildcard SSID of P2P. -/
def findPhaseHandler (s : SiteSurvey n) : SiteSurvey n :=
  (s.setWd { s.wd with state := .findPhaseSearch }).enqueue
    (.siteSurvey ⟨s.cfg.scanMode, ["DIRECT-".toUTF8.toList], []⟩)

/-- The command thread takes the next command, if it is not in a handler. -/
def takeCmd (s : SiteSurvey n) : SiteSurvey n :=
  if s.busy then s
  else
    match s.cmds with
    | [] => s
    | .siteSurvey parm :: cmds => { s with cmds := cmds }.begin parm
    | .findPhaseWk :: cmds => { s with cmds := cmds }.findPhaseHandler

/-- `mem`: there is memory for a command. -/
def surveyTimerHdl (s : SiteSurvey n) (mem : Bool) : SiteSurvey n :=
  if s.surveyTimer then
    if s.state ≠ .disable ∧ mem then { s with surveyTimer := false }.enqueue (.siteSurvey .zero)
    else { s with surveyTimer := false }
  else s

def findPhaseTimerProcess (s : SiteSurvey n) (mem : Bool) : SiteSurvey n :=
  if s.findPhaseTimer then
    if s.wd.state = .none then { s with findPhaseTimer := false }
    else
      let s := s.setWd { s.wd with findPhaseStateExchangeCnt := s.wd.findPhaseStateExchangeCnt + 1 }
      if mem then { s with findPhaseTimer := false }.enqueue .findPhaseWk else { s with findPhaseTimer := false }
  else s

/-- Other code makes `f` of an interface; a new association starts with the power bit off. -/
def setIface (s : SiteSurvey n) (i : Fin n) (f : Iface) : SiteSurvey n :=
  let announced := (s.ifaces i).psAnnounced && (s.ifaces i).isClientAssociatedToAp && f.isClientAssociatedToAp
  { s with ifaces := Function.update s.ifaces i { f with psAnnounced := announced } }

/-- Data frames are held back, as far as this adapter's scan says. -/
def rtwXmitAcBlocked (s : SiteSurvey n) : Bool :=
  (decide (s.state ≠ .disable) && decide (s.state ≠ .backOp)) ||
    (decide (s.state = .backOp) && !s.chkBackopFlags ssBackopTxResume)

end SiteSurvey

inductive SurveyEvent (n : Nat) where
  | rtwSitesurveyCmd (parm : SurveyParm)
  | cmdThread
  | operation (stayed sparse : Bool)
  | surveyTimer (mem : Bool)
  | findPhaseTimer (mem : Bool)
  | scanAbort (abort : Bool)
  | iface (i : Fin n) (f : Iface)
  | backopPolicy (sta ap : UInt8) (scanCntMax : Nat)

def SurveyEvent.isOperation {n : Nat} : SurveyEvent n → Bool
  | .operation _ _ => true
  | _ => false

def SurveyEvent.isBackopPolicy {n : Nat} : SurveyEvent n → Bool
  | .backopPolicy _ _ _ => true
  | _ => false

/-- The `scan_cnt_max` after the event. -/
def SurveyEvent.scanCntMax {n : Nat} (max : Nat) : SurveyEvent n → Nat
  | .backopPolicy _ _ scanCntMax => scanCntMax
  | _ => max

def SiteSurvey.next {n : Nat} (s : SiteSurvey n) : SurveyEvent n → SiteSurvey n
  | .rtwSitesurveyCmd parm => s.enqueue (.siteSurvey parm)
  | .cmdThread => s.takeCmd
  | .operation stayed sparse => if s.busy then s.operation stayed sparse else s
  | .surveyTimer mem => s.surveyTimerHdl mem
  | .findPhaseTimer mem => s.findPhaseTimerProcess mem
  | .scanAbort abort => { s with scanAbort := abort }
  | .iface i f => s.setIface i f
  | .backopPolicy sta ap scanCntMax =>
    { s with backopFlagsSta := sta, backopFlagsAp := ap, scanCntMax := scanCntMax }

end Rtw.Scan
