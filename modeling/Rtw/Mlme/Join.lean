import Rtw.Lib.Run
import Rtw.Recv.Frame

/-!
# Joining a network as a station

`join_cmd_hdl` starts an attempt; a beacon of the network starts the authentication, its answer the association,
and `link_timer` repeats the request that was not answered. That is the view of `mlmext_info` (`MlmeInfo`). The
driver has its own, the bits `_FW_UNDER_LINKING` and `_FW_LINKED` of `fw_state`, with `assoc_timer` over the whole
attempt; it learns of the other through `report_join_res` and through the events in the command queue, and tells
the operating system. Handlers run one at a time.

Ad hoc networks and P2P are left out, and with them `start_create_ibss`.
-/

namespace Rtw.Join
open Machine

inductive AuthAlgo where
  | openSystem
  | shared
  | ieee8021X
  | auto
  | wapi
  deriving DecidableEq

/-- `state` of `mlmext_info`: its role is `WIFI_FW_STATION_STATE` or `WIFI_FW_NULL_STATE`. -/
structure MlmeState where
  station : Bool
  authNull : Bool
  authState : Bool
  authSuccess : Bool
  assocState : Bool
  assocSuccess : Bool
  deriving DecidableEq

namespace MlmeState

def null : MlmeState := ⟨false, false, false, false, false, false⟩

/-- `WIFI_FW_LINKING_STATE`. -/
def linkingState (st : MlmeState) : Bool := st.authNull || st.authState || st.authSuccess || st.assocState

def isClientAssociatedToAp (st : MlmeState) : Bool := st.assocSuccess && st.station

end MlmeState

/-- What `join_cmd_hdl` reads of the network to join; `ess` is `cap_ESS`. -/
structure Bss where
  macAddress : MacAddr
  ess : Bool
  ieLength : Nat
  deriving DecidableEq

inductive Mgnt where
  | auth (ra : MacAddr) (shared : Bool) (seq : Nat)
  | assocReq (ra : MacAddr)
  | deauth (ra : MacAddr)
  deriving DecidableEq

def reauthLimit : Nat := 4
def reassocLimit : Nat := 4
def maxIeSz : Nat := 768

def reasonPrevAuthNotValid : Nat := 2
def reasonClass2FrameFromNonauthSta : Nat := 6
def reasonActiveRoam : Nat := 65533
def reasonExpirationChk : Nat := 65535

/-- What the handlers below do to the driver: `report_join_res`, `report_del_sta_event`, and `assoc_timer` set. -/
inductive Report where
  | joinRes (res : Int)
  | delSta (macaddr : MacAddr) (reason : Nat)
  | assocTimer
  deriving DecidableEq

structure MlmeInfo where
  state : MlmeState
  network : Bss
  linkTimer : Bool
  authAlgo : AuthAlgo
  authSeq : Nat
  reauthCount : Nat
  reassocCount : Nat
  issued : List Mgnt
  deriving DecidableEq

namespace MlmeInfo

def issue (m : MlmeInfo) (f : Mgnt) : MlmeInfo := { m with issued := m.issued ++ [f] }

def issueAuth (m : MlmeInfo) : MlmeInfo :=
  m.issue (.auth m.network.macAddress (m.authAlgo = .shared) m.authSeq)

def issueAssocreq (m : MlmeInfo) : MlmeInfo := m.issue (.assocReq m.network.macAddress)

def setLinkTimer (m : MlmeInfo) : MlmeInfo := { m with linkTimer := true }

def startClntAuth (m : MlmeInfo) : MlmeInfo :=
  { m with
    linkTimer := false
    state := { m.state with authNull := false, authState := true }
    authSeq := 1
    reauthCount := 0
    reassocCount := 0 }.issueAuth.setLinkTimer

def startClntAssoc (m : MlmeInfo) : MlmeInfo :=
  { m with
    linkTimer := false
    state := { m.state with
      authNull := false, authState := false, authSuccess := true, assocState := true } }.issueAssocreq.setLinkTimer

/-- The branch for an access point. A network that has neither `cap_ESS` nor `cap_IBSS` is not joined. -/
def startClntJoin (m : MlmeInfo) : MlmeInfo × Option Report :=
  if m.network.ess then
    ({ m.setLinkTimer with state := { MlmeState.null with station := true, authNull := true } }, some .assocTimer)
  else (m, none)

def receiveDisconnect (m : MlmeInfo) (macAddr : MacAddr) (reason : Nat) : MlmeInfo × Option Report :=
  if macAddr ≠ m.network.macAddress then (m, none)
  else if m.state.station then
    if m.state.assocSuccess then ({ m with state := .null }, some (.delSta macAddr reason))
    else if m.state.linkingState then ({ m with state := .null }, some (.joinRes (-2)))
    else (m, none)
  else (m, none)

/-- A beacon that is not taken for a scan. `known`: its sender has a `sta_info`; `bcnOk`: `rtw_check_bcn_info`. -/
def onBeacon (m : MlmeInfo) (a3 : MacAddr) (known bcnOk : Bool) : MlmeInfo × Option Report :=
  if a3 = m.network.macAddress then
    if m.state.authNull then (m.startClntAuth, none)
    else if m.state.station && m.state.assocSuccess then
      if known && !bcnOk then m.receiveDisconnect m.network.macAddress 0 else (m, none)
    else (m, none)
  else (m, none)

/-- `toMe`: the receiver is this station; `chgTxt`: the frame has a challenge text. -/
def onAuthClient (m : MlmeInfo) (toMe : Bool) (seq status : Nat) (chgTxt : Bool) : MlmeInfo :=
  if !toMe then m
  else if !m.state.authState then m
  else if status ≠ 0 then
    { m with
      authAlgo := if status = 13 then if m.authAlgo = .shared then .openSystem else .shared else m.authAlgo
      linkTimer := true }
  else if seq = 2 then
    if m.authAlgo = .shared then
      if chgTxt then { m with authSeq := 3 }.issueAuth.setLinkTimer else m
    else m.startClntAssoc
  else if seq = 4 then
    if m.authAlgo = .shared then m.startClntAssoc else m
  else m

def onAssocRsp (m : MlmeInfo) (toMe : Bool) (status aid : Nat) : MlmeInfo × Option Report :=
  if !toMe then (m, none)
  else if !(m.state.authSuccess || m.state.assocState) then (m, none)
  else if m.state.assocSuccess then (m, none)
  else if status > 0 then ({ m with linkTimer := false, state := .null }, some (.joinRes (-4)))
  else
    ({ m with linkTimer := false, state := { m.state with assocState := false, assocSuccess := true } },
      some (.joinRes ((aid &&& 0x3fff : Nat) : Int)))

def onDeAuth (m : MlmeInfo) (a2 a3 : MacAddr) (reason : Nat) : MlmeInfo × Option Report :=
  if a3 ≠ m.network.macAddress then (m, none)
  else if (m.state.authState || m.state.assocState) &&
      (reason = reasonClass2FrameFromNonauthSta || reason = reasonPrevAuthNotValid) then (m, none)
  else m.receiveDisconnect a2 reason

def onDisassoc (m : MlmeInfo) (a2 a3 : MacAddr) (reason : Nat) : MlmeInfo × Option Report :=
  if a3 ≠ m.network.macAddress then (m, none) else m.receiveDisconnect a2 reason

def linkTimerHdl (m : MlmeInfo) : MlmeInfo × Option Report :=
  if m.state.authNull then ({ m with state := .null }, some (.joinRes (-3)))
  else if m.state.authState then
    if m.reauthCount + 1 > reauthLimit then
      ({ m with reauthCount := m.reauthCount + 1, state := .null }, some (.joinRes (-1)))
    else ({ m with reauthCount := m.reauthCount + 1, authSeq := 1 }.issueAuth.setLinkTimer, none)
  else if m.state.assocState then
    if m.reassocCount + 1 > reassocLimit then
      ({ m with reassocCount := m.reassocCount + 1, state := .null }, some (.joinRes (-2)))
    else ({ m with reassocCount := m.reassocCount + 1 }.issueAssocreq.setLinkTimer, none)
  else (m, none)

/-- The first part of `join_cmd_hdl`: an association is given up, and the network copied. -/
def leaveAndCopy (m : MlmeInfo) (bss : Bss) : MlmeInfo :=
  let m := if m.state.assocSuccess then
      { (if m.state.station then m.issue (.deauth m.network.macAddress) else m) with
        state := .null, linkTimer := false }
    else m
  { m with network := bss }

/-- `chOk`: `rtw_chk_start_clnt_join` agrees to the channel. The last result: the return value is `H2C_SUCCESS`. -/
def joinCmdHdl (m : MlmeInfo) (bss : Bss) (chOk : Bool) : MlmeInfo × Option Report × Bool :=
  let m := m.leaveAndCopy bss
  if bss.ieLength > maxIeSz then (m, none, false)
  else if bss.ieLength < 2 then (m, some (.joinRes (-4)), true)
  else if !chOk then (m, some (.joinRes (-4)), true)
  else
    let r := { m with linkTimer := false }.startClntJoin
    (r.1, r.2, true)

def rtwMlmeextDisconnect (m : MlmeInfo) : MlmeInfo := { m with state := .null, linkTimer := false }

def disconnectHdl (m : MlmeInfo) : MlmeInfo :=
  (if m.state.isClientAssociatedToAp then m.issue (.deauth m.network.macAddress) else m).rtwMlmeextDisconnect

/-- `ibssEmpty`: `is_IBSS_empty`. -/
def mlmeextStaDelEventCallback (m : MlmeInfo) (ibssEmpty : Bool) : MlmeInfo :=
  if m.state.isClientAssociatedToAp || ibssEmpty then m.rtwMlmeextDisconnect else m

/-- The mode is below 4. -/
def setauthHdl (m : MlmeInfo) (mode : AuthAlgo) : MlmeInfo := if mode = .wapi then m else { m with authAlgo := mode }

end MlmeInfo

inductive Cmd where
  | joinBss (bss : Bss)
  | disConnect
  | joinBssEvent (res : Int)
  | delSta (macaddr : MacAddr) (reason : Nat)
  deriving DecidableEq

/-- What the driver's own handlers find: memory for a command (`mem`), and, when an association is reported, the
network in the scanned queue (`found`) and room for its `sta_info` (`staOk`). -/
structure ReportEnv where
  mem : Bool
  found : Bool
  staOk : Bool

/-- What `rtw_do_join` finds. -/
structure DoJoinEnv where
  queueEmpty : Bool
  busyTraffic : Bool
  candidate : Option Bss
  /-- `rtw_disassoc_cmd` and `rtw_sitesurvey_cmd` get through. -/
  disassocOk : Bool
  surveyOk : Bool
  /-- `rtw_joinbss_cmd` gets through. -/
  joinOk : Bool

structure RoamCfg where
  wifiSpec : Bool
  maxRoamingTimes : Nat
  roamOnExpired : Bool
  roamActive : Bool

/-- The driver. -/
structure Clnt where
  cfg : RoamCfg
  info : MlmeInfo
  underLinking : Bool
  linked : Bool
  assocTimer : Bool
  toJoin : Bool
  toRoam : Nat
  /-- The address of `cur_network`. -/
  curNetwork : MacAddr
  cmds : List Cmd

namespace Clnt

def setToRoam (s : Clnt) (n : Nat) : Clnt :=
  { s with toJoin := s.toJoin && n != 0, toRoam := n }

def enqueue (s : Clnt) (c : Cmd) (ok : Bool) : Clnt := if ok then { s with cmds := s.cmds ++ [c] } else s

def rtwIndicateConnect (s : Clnt) : Clnt := { s with toJoin := false, linked := true }.setToRoam 0

/-- Also where the operating system is not told (`to_roam > 0`), `_FW_LINKED` is cleared. -/
def rtwIndicateDisconnect (s : Clnt) : Clnt := { s with underLinking := false, linked := false }

/-- `rtw_joinbss_update_network` sets `fw_state` to `WIFI_STATION_STATE`. -/
def rtwJoinbssEventPrehandle (s : Clnt) (res : Int) (env : ReportEnv) : Clnt :=
  if res > 0 then
    if s.underLinking then
      if env.found then
        let s := { s with curNetwork := s.info.network.macAddress, underLinking := false, linked := false }
        if env.staOk then { s.rtwIndicateConnect with assocTimer := false } else s
      else s
    else s
  else { s with assocTimer := true, underLinking := false }

def reportJoinRes (s : Clnt) (res : Int) (env : ReportEnv) : Clnt :=
  if env.mem then (s.rtwJoinbssEventPrehandle res env).enqueue (.joinBssEvent res) true else s

def reportDelStaEvent (s : Clnt) (macaddr : MacAddr) (reason : Nat) (mem : Bool) : Clnt :=
  s.enqueue (.delSta macaddr reason) mem

def report (s : Clnt) (r : Option Report) (env : ReportEnv) : Clnt :=
  match r with
  | none => s
  | some (.joinRes res) => s.reportJoinRes res env
  | some (.delSta macaddr reason) => s.reportDelStaEvent macaddr reason env.mem
  | some .assocTimer => { s with assocTimer := true }

/-- A handler of `mlmext_info` and what it reports. -/
def handle (s : Clnt) (r : MlmeInfo × Option Report) (env : ReportEnv) : Clnt :=
  { s with info := r.1 }.report r.2 env

/-- `rtw_select_and_join_from_scanned_queue`, for the candidate it finds. -/
def rtwSelectAndJoinFromScannedQueue (s : Clnt) (env : DoJoinEnv) : Clnt × Bool :=
  match env.candidate with
  | none => (s, false)
  | some bss =>
    let s := if s.linked then (s.enqueue .disConnect env.disassocOk).rtwIndicateDisconnect else s
    ({ s with underLinking := true }.enqueue (.joinBss bss) env.joinOk, env.joinOk)

/-- The scan that `rtw_do_join` falls back on. -/
def surveyFirst (s : Clnt) (env : DoJoinEnv) : Clnt × Bool :=
  let ok := (!env.busyTraffic || s.toRoam > 0) && env.surveyOk
  ({ s with underLinking := false, toJoin := ok }, ok)

def rtwDoJoin (s : Clnt) (env : DoJoinEnv) : Clnt × Bool :=
  let s := { s with underLinking := true, toJoin := true }
  if env.queueEmpty then s.surveyFirst env
  else
    let r := s.rtwSelectAndJoinFromScannedQueue env
    if r.2 then ({ r.1 with toJoin := false, assocTimer := true }, true) else r.1.surveyFirst env

/-- The loop of `_rtw_join_timeout_handler` with `to_roam` tries left. -/
def roamTries (env : Nat → DoJoinEnv) : Nat → Clnt → Clnt
  | 0, s => s
  | 1, s => { s with toRoam := 0 }.rtwIndicateDisconnect
  | k + 2, s =>
    let r := { s with toRoam := k + 1 }.rtwDoJoin (env (k + 1))
    if r.2 then r.1 else roamTries env (k + 1) r.1

/-- `_rtw_roaming`. -/
def rtwRoaming (s : Clnt) (env : Nat → DoJoinEnv) : Clnt :=
  if 0 < s.toRoam then
    let r := s.rtwDoJoin (env s.toRoam)
    if r.2 then r.1 else roamTries env s.toRoam r.1
  else s

def rtwJoinTimeoutHandler (s : Clnt) (env : Nat → DoJoinEnv) : Clnt :=
  if 0 < s.toRoam then roamTries env s.toRoam s else s.rtwIndicateDisconnect

def roams (s : Clnt) (reason : Nat) : Bool :=
  !s.cfg.wifiSpec && (reason = reasonExpirationChk && s.cfg.roamOnExpired ||
    reason = reasonActiveRoam && s.cfg.roamActive)

def rtwStadelEventCallback (s : Clnt) (reason : Nat) (ibssEmpty : Bool) (env : Nat → DoJoinEnv) : Clnt :=
  let s := { s with info := s.info.mlmeextStaDelEventCallback ibssEmpty }
  let s := if s.roams reason then
      if 0 < s.toRoam then { s with toRoam := s.toRoam - 1 } else s.setToRoam s.cfg.maxRoamingTimes
    else s.setToRoam 0
  s.rtwIndicateDisconnect.rtwRoaming env

/-- `roamTo`: `rtw_select_roaming_candidate` has found a better network. -/
def rtwSurveydoneEventCallback (s : Clnt) (env : DoJoinEnv) (roamTo mem : Bool) : Clnt :=
  if s.toJoin then
    let r := { s with underLinking := true, toJoin := false }.rtwSelectAndJoinFromScannedQueue env
    if r.2 then { r.1 with assocTimer := true }
    else
      let s := r.1
      let s := if s.toRoam ≠ 0 then
          let s := { s with toRoam := s.toRoam - 1 }
          if s.toRoam = 0 || !env.surveyOk then (s.setToRoam 0).rtwIndicateDisconnect else { s with toJoin := true }
        else s.rtwIndicateDisconnect
      { s with underLinking := false }
  else if s.cfg.roamActive && s.linked && roamTo then
    s.handle (s.info.receiveDisconnect s.curNetwork reasonActiveRoam) ⟨mem, false, false⟩
  else s

def rtwDisassocCmd (s : Clnt) (ok : Bool) : Clnt := s.enqueue .disConnect ok

def rtwSet80211Disassociate (s : Clnt) (ok : Bool) : Clnt :=
  if s.linked then (s.rtwDisassocCmd ok).rtwIndicateDisconnect else s

def clntSaQueryTimeout (s : Clnt) (ok : Bool) : Clnt := (s.rtwDisassocCmd ok).rtwIndicateDisconnect

/-- `mem`: memory for the parameters of the command, which it runs itself. -/
def cfg80211RtwDisconnect (s : Clnt) (mem : Bool) : Clnt :=
  let s := s.setToRoam 0
  (if mem then { s with info := s.info.disconnectHdl } else s).rtwIndicateDisconnect

/-- What the command thread finds for the command it takes. -/
structure CmdEnv where
  chOk : Bool
  ibssEmpty : Bool
  report : ReportEnv
  join : Nat → DoJoinEnv

/-- One command, and `rtw_joinbss_cmd_callback` where a join command has failed. -/
def runCmd (s : Clnt) (env : CmdEnv) : Cmd → Clnt
  | .joinBss bss =>
    let r := s.info.joinCmdHdl bss env.chOk
    let s := s.handle (r.1, r.2.1) env.report
    if r.2.2 then s else { s with assocTimer := true }
  | .disConnect => { s with info := s.info.disconnectHdl }
  | .joinBssEvent _ => s
  | .delSta _ reason => s.rtwStadelEventCallback reason env.ibssEmpty env.join

def cmdThread (s : Clnt) (env : CmdEnv) : Clnt :=
  match s.cmds with
  | [] => s
  | c :: cs => { s with cmds := cs }.runCmd env c

end Clnt

inductive Event where
  | doJoin (env : DoJoinEnv)
  | disassociate (ok : Bool)
  | saQueryTimeout (ok : Bool)
  | disconnect (mem : Bool)
  | surveyDone (env : DoJoinEnv) (roamTo mem : Bool)
  | setAuth (mode : AuthAlgo)
  | cmdThread (env : Clnt.CmdEnv)
  | beacon (a3 : MacAddr) (scanning known bcnOk : Bool) (env : ReportEnv)
  | auth (toMe : Bool) (seq status : Nat) (chgTxt : Bool)
  | assocRsp (toMe : Bool) (status aid : Nat) (env : ReportEnv)
  | deauth (a2 a3 : MacAddr) (reason : Nat) (env : ReportEnv)
  | disassoc (a2 a3 : MacAddr) (reason : Nat) (env : ReportEnv)
  /-- `linked_status_chk` has not heard of the access point. -/
  | expired (env : ReportEnv)
  | linkTimer (env : ReportEnv)
  | assocTimer (env : Nat → DoJoinEnv)

namespace Clnt

def next (s : Clnt) : Event → Clnt
  | .doJoin env => (s.rtwDoJoin env).1
  | .disassociate ok => s.rtwSet80211Disassociate ok
  | .saQueryTimeout ok => s.clntSaQueryTimeout ok
  | .disconnect mem => s.cfg80211RtwDisconnect mem
  | .surveyDone env roamTo mem => s.rtwSurveydoneEventCallback env roamTo mem
  | .setAuth mode => { s with info := s.info.setauthHdl mode }
  | .cmdThread env => s.cmdThread env
  | .beacon a3 scanning known bcnOk env =>
    if scanning then s else s.handle (s.info.onBeacon a3 known bcnOk) env
  | .auth toMe seq status chgTxt => { s with info := s.info.onAuthClient toMe seq status chgTxt }
  | .assocRsp toMe status aid env => s.handle (s.info.onAssocRsp toMe status aid) env
  | .deauth a2 a3 reason env => s.handle (s.info.onDeAuth a2 a3 reason) env
  | .disassoc a2 a3 reason env => s.handle (s.info.onDisassoc a2 a3 reason) env
  | .expired env =>
    if s.info.state.isClientAssociatedToAp then
      s.handle (s.info.receiveDisconnect s.info.network.macAddress reasonExpirationChk) env
    else s
  | .linkTimer env => if s.info.linkTimer then s.handle { s.info with linkTimer := false }.linkTimerHdl env else s
  | .assocTimer env => if s.assocTimer then { s with assocTimer := false }.rtwJoinTimeoutHandler env else s

end Clnt
end Rtw.Join
