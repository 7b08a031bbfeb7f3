import Mathlib.Data.Vector.Basic
import Rtw.Scan.BssInfo

/-!
# The scan table

The `MAX_BSS_CNT` entries of `free_bss_buf` are in `free_bss_pool` or in `scanned_queue`. A survey event
updates an entry, takes one from the pool, or writes over the oldest one; the entry of the current network is
`fixed`, which the routines that free entries respect. Time is in milliseconds.
-/

namespace Rtw.Scan

def maxBssCnt : Nat := 128
def scanqueueLifetime : Nat := 20000

/-- An entry of `free_bss_buf`. -/
abbrev Slot := Fin maxBssCnt

/-- `struct wlan_network` -/
structure WlanNetwork where
  network : WlanBssidEx
  fixed : Bool
  lastScanned : Nat

/-- The bits of `fw_state` that the scan table reads. -/
structure FwState where
  station : Bool
  adhoc : Bool
  adhocMaster : Bool
  linked : Bool
  underLinking : Bool
  deriving DecidableEq

/-- `WIFI_NULL_STATE` -/
def FwState.null : FwState := ⟨false, false, false, false, false⟩

/-- `struct mlme_priv`, with the signal of `recv_priv` and whether P2P is on. -/
structure MlmePriv where
  fwState : FwState
  freeBssPool : List Slot
  scannedQueue : List Slot
  numOfScanned : BitVec 32
  networks : Slot → WlanNetwork
  curNetwork : WlanBssidEx
  curNetworkScanned : Option Slot
  roamNetwork : Option Slot
  roamTgtAddr : MacAddr
  signalStrength : Nat
  signalQual : Nat
  p2p : Bool
  now : Nat

def zeroMac : MacAddr := Vector.replicate 6 0

def rtwInitMlmePriv : MlmePriv where
  fwState := { FwState.null with station := true }
  freeBssPool := List.finRange maxBssCnt
  scannedQueue := []
  numOfScanned := 0
  networks _ := ⟨.zero, false, 0⟩
  curNetwork := { WlanBssidEx.zero with infrastructureMode := .autoUnknown }
  curNetworkScanned := none
  roamNetwork := none
  roamTgtAddr := zeroMac
  signalStrength := 0
  signalQual := 0
  p2p := false
  now := 0

namespace MlmePriv

def modify (s : MlmePriv) (i : Slot) (f : WlanNetwork → WlanNetwork) : MlmePriv :=
  { s with networks := Function.update s.networks i (f (s.networks i)) }

def setFixed (s : MlmePriv) (i : Slot) (fixed : Bool) : MlmePriv := s.modify i fun n => { n with fixed }

/-! ### Allocating and freeing -/

/-- `rtw_get_passing_time_ms` -/
def passingTimeMs (s : MlmePriv) (start : Nat) : Nat := (s.now - start) % 2 ^ 32

/-- The entry is taken out of its list and put at the end of `free_bss_pool`. -/
def toPool (s : MlmePriv) (i : Slot) : MlmePriv :=
  { s with
    freeBssPool := s.freeBssPool.erase i ++ [i]
    scannedQueue := s.scannedQueue.erase i
    numOfScanned := s.numOfScanned - 1 }

/-- `_rtw_alloc_network`, when the pool has an entry. -/
def rtwAllocNetwork (s : MlmePriv) : Option (Slot × MlmePriv) :=
  match s.freeBssPool with
  | [] => none
  | i :: pool =>
    some (i, { s with freeBssPool := pool, numOfScanned := s.numOfScanned + 1 }.modify i fun n =>
      { n with fixed := false, lastScanned := s.now })

/-- `rtw_list_insert_tail` on `scanned_queue` -/
def insertTail (s : MlmePriv) (i : Slot) : MlmePriv := { s with scannedQueue := s.scannedQueue ++ [i] }

def rtwFreeNetwork (s : MlmePriv) (isfreeall : Bool) (i : Slot) : MlmePriv :=
  let lifetime := if s.fwState.adhocMaster || s.fwState.adhoc then 1 else scanqueueLifetime
  if (s.networks i).fixed then s
  else if !isfreeall && decide (s.passingTimeMs (s.networks i).lastScanned < lifetime) then s
  else s.toPool i

def rtwFreeNetworkNolock (s : MlmePriv) (i : Slot) : MlmePriv :=
  if (s.networks i).fixed then s else s.toPool i

def rtwFreeNetworkQueue (s : MlmePriv) (isfreeall : Bool) : MlmePriv :=
  s.scannedQueue.foldl (fun s i => s.rtwFreeNetwork isfreeall i) s

/-- `free_scanqueue`; it takes the fixed entries too. -/
def freeScanqueue (s : MlmePriv) : MlmePriv := s.scannedQueue.foldl toPool s

/-! ### Looking up -/

def rtwFindNetwork (s : MlmePriv) (addr : MacAddr) : Option Slot :=
  if addr = zeroMac then none
  else s.scannedQueue.find? fun i => decide (addr = (s.networks i).network.macAddress)

def rtwFindSameNetwork (s : MlmePriv) (network : WlanBssidEx) : Option Slot :=
  s.scannedQueue.find? fun i => isSameNetwork network (s.networks i).network false

/-- The entry that was scanned the longest time ago, the first one of them. -/
def older (s : MlmePriv) (oldest : Option Slot) (i : Slot) : Option Slot :=
  match oldest with
  | none => some i
  | some j => if (s.networks i).lastScanned < (s.networks j).lastScanned then some i else some j

def rtwGetOldestWlanNetwork (s : MlmePriv) : Option Slot :=
  s.scannedQueue.foldl (fun oldest i => if (s.networks i).fixed then oldest else s.older oldest i) none

/-! ### Survey events -/

def updateNetwork (s : MlmePriv) (dst src : WlanBssidEx) (updateIe : Bool) : WlanBssidEx :=
  let rightChannel := src.signalQuality ≠ 101
  let rssi := if rightChannel then (src.rssi + dst.rssi * 4).tdiv 5 else dst.rssi
  let (ss, sq) :=
    if s.fwState.linked && isSameNetwork s.curNetwork src false then (s.signalStrength, s.signalQual)
    else if rightChannel then
      ((src.signalStrength + dst.signalStrength * 4) / 5, (src.signalQuality + dst.signalQuality * 4) / 5)
    else (dst.signalStrength, dst.signalQuality)
  let dst := if updateIe then src.copyTo dst else dst
  { dst with signalStrength := ss, signalQuality := sq, rssi }

def updateCurrentNetwork (s : MlmePriv) (pnetwork : WlanBssidEx) : MlmePriv :=
  if s.fwState.linked && isSameNetwork s.curNetwork pnetwork false then
    { s with curNetwork := s.updateNetwork s.curNetwork pnetwork true }
  else s

/-- The test of the loop in `rtw_update_scanned_network`; with P2P the address decides. -/
def isTarget (s : MlmePriv) (target : WlanBssidEx) (i : Slot) : Bool :=
  s.p2p && decide ((s.networks i).network.macAddress = target.macAddress) ||
    isSameNetwork (s.networks i).network target s.p2p

/-- The entry that the loop of `rtw_update_scanned_network` has in `oldest` at its end: it does not look at
`fixed`. -/
def oldest (s : MlmePriv) : Option Slot := s.scannedQueue.foldl s.older none

/-- A frame from a neighbouring channel says nothing about the signal. -/
def resetQuality (b : WlanBssidEx) : WlanBssidEx := if b.signalQuality = 101 then { b with signalQuality := 0 } else b

/-- Whether the elements are replaced; the first test of the source is overruled by the second one. -/
def updateIe (pnetwork target : WlanBssidEx) : Bool :=
  target.reserved0 != 2 && decide (target.reserved0 ≥ pnetwork.reserved0)

def rtwUpdateScannedNetwork (s : MlmePriv) (target : WlanBssidEx) : MlmePriv :=
  match s.scannedQueue.find? (s.isTarget target) with
  | some i =>
    s.modify i fun n =>
      { n with lastScanned := s.now, network := s.updateNetwork n.network target (updateIe n.network target) }
  | none =>
    match s.rtwAllocNetwork with
    | none =>
      match s.oldest with
      | none => s
      | some i => s.modify i fun n => ⟨resetQuality (target.copyTo n.network), false, s.now⟩
    | some (i, s) =>
      (s.modify i fun n => { n with network := resetQuality (target.copyTo n.network), lastScanned := s.now }).insertTail i

/-- `memcpy` of the 8 bytes of the timestamp -/
def copyTimestamp (src dst : WlanBssidEx) : WlanBssidEx :=
  { dst with ies := fun i => if i < 8 then src.ies i else dst.ies i }

/-- A name that begins with a zero is no name. -/
def hideSsid (b : WlanBssidEx) : WlanBssidEx := if (b.ssid.head?).getD 0 = 0 then { b with ssid := [] } else b

/-- `rtw_add_network`, unless the station is joining a network. -/
def rtwAddNetwork (s : MlmePriv) (pnetwork : WlanBssidEx) : MlmePriv :=
  if s.fwState.underLinking then s
  else (s.updateCurrentNetwork (hideSsid pnetwork)).rtwUpdateScannedNetwork (hideSsid pnetwork)

/-- `rtw_survey_event_callback`; the master of an ad-hoc network takes the timestamp of its own network only. -/
def rtwSurveyEventCallback (s : MlmePriv) (pnetwork : WlanBssidEx) : MlmePriv :=
  if s.fwState.adhocMaster && decide (s.curNetwork.macAddress = pnetwork.macAddress) then
    let s := { s with curNetwork := copyTimestamp pnetwork s.curNetwork }
    match s.rtwFindNetwork pnetwork.macAddress with
    | some i => s.modify i fun n => { n with network := copyTimestamp pnetwork n.network }
    | none => s.rtwAddNetwork pnetwork
  else s.rtwAddNetwork pnetwork

/-! ### Leaving a network -/

/-- The entry of the current network goes to the pool. -/
def freeCurrent (s : MlmePriv) (i : Slot) : MlmePriv := (s.setFixed i false).rtwFreeNetworkNolock i

/-- `rtw_free_assoc_resources`; `asocStaCount` is what is left of the stations. -/
def rtwFreeAssocResources (s : MlmePriv) (asocStaCount : Nat) : MlmePriv :=
  match s.rtwFindSameNetwork s.curNetwork with
  | none => s
  | some i =>
    let s := s.freeCurrent i
    if s.fwState.adhocMaster && asocStaCount == 1 then s.rtwFreeNetworkNolock i else s

def rtwIndicateDisconnect (s : MlmePriv) : MlmePriv :=
  let s := { s with fwState := { s.fwState with underLinking := false, linked := false } }
  match s.curNetworkScanned with
  | none => s
  | some i => s.modify i fun n => { n with network := n.network.clearSelectedRegistrar }

/-- The entry with the address of the current network goes to the pool. -/
def freeByAddr (s : MlmePriv) : MlmePriv :=
  match s.rtwFindNetwork s.curNetwork.macAddress with
  | none => s
  | some i => s.freeCurrent i

/-- `rtw_stadel_event_callback`, up to the attempt to roam. -/
def rtwStadelEventCallback (s : MlmePriv) (asocStaCount : Nat) : MlmePriv :=
  let s := if s.fwState.station then ((s.rtwFreeAssocResources asocStaCount).rtwIndicateDisconnect).freeByAddr else s
  if (s.fwState.adhocMaster || s.fwState.adhoc) && asocStaCount == 1 then
    let s := s.freeByAddr
    if s.fwState.adhoc then { s with fwState := { s.fwState with adhocMaster := true, adhoc := false } } else s
  else s

/-- `_rtw_join_timeout_handler`, when the station is not roaming. -/
def rtwJoinTimeoutHandler (s : MlmePriv) : MlmePriv := s.rtwIndicateDisconnect.freeScanqueue

/-! ### Joining a network -/

def rtwCreateIbssPostHdl (s : MlmePriv) (devNetwork : WlanBssidEx) : MlmePriv :=
  let put (s : MlmePriv) (i : Slot) : MlmePriv :=
    let s := s.modify i fun n => { n with network := devNetwork.copyTo n.network }
    { s with
      curNetwork := devNetwork.copyTo s.curNetwork
      fwState := { s.fwState with underLinking := false } }
  match s.rtwAllocNetwork with
  | some (i, s) => put (s.insertTail i) i
  | none =>
    match s.rtwGetOldestWlanNetwork with
    | none => s
    | some i => put (s.modify i fun n => { n with lastScanned := s.now }) i

/-- `rtw_joinbss_update_network`: the current network gets the elements of the entry. -/
def rtwJoinbssUpdateNetwork (s : MlmePriv) (i : Slot) (pnetwork : WlanBssidEx) : MlmePriv :=
  let target := (s.networks i).network
  { s with
    curNetwork := { pnetwork with ieLength := target.ieLength, ies := target.ies }
    signalStrength := target.signalStrength
    signalQual := target.signalQuality
    fwState :=
      match pnetwork.infrastructureMode with
      | .infrastructure => { FwState.null with station := true }
      | .ibss => { FwState.null with adhoc := true }
      | _ => .null }

/-- The entry of the joined network is marked. -/
def fixTarget (s : MlmePriv) (target : Option Slot) : MlmePriv :=
  match target with
  | some i => if s.fwState.station then s.setFixed i true else s
  | none => s

/-- The mark of the network before is taken back. -/
def unfixCurrent (s : MlmePriv) : MlmePriv :=
  match s.rtwFindNetwork s.curNetwork.macAddress with
  | some i => s.setFixed i false
  | none => s

/-- Step s1 of `rtw_joinbss_event_prehandle`: the entry of the network that has been joined. -/
def joinbssTarget (s : MlmePriv) (pnetwork : WlanBssidEx) : Option Slot × MlmePriv :=
  if s.fwState.linked then
    if pnetwork.macAddress = s.curNetwork.macAddress then (s.rtwFindNetwork s.curNetwork.macAddress, s)
    else
      let s := s.unfixCurrent
      let target := s.rtwFindNetwork pnetwork.macAddress
      (target, s.fixTarget target)
  else
    let target := s.rtwFindSameNetwork pnetwork
    (target, s.fixTarget target)

/-- Steps s2 to s4: `staOk` says whether `rtw_joinbss_update_stainfo` gets a station. -/
def joined (s : MlmePriv) (i : Slot) (pnetwork : WlanBssidEx) (staOk : Bool) : MlmePriv :=
  let s := s.rtwJoinbssUpdateNetwork i pnetwork
  if s.fwState.station && staOk then
    -- `rtw_indicate_connect`
    { s with curNetworkScanned := some i, fwState := { s.fwState with linked := true } }
  else s

def rtwJoinbssEventPrehandle (s : MlmePriv) (pnetwork : WlanBssidEx) (joinRes : Int) (staOk : Bool) : MlmePriv :=
  if pnetwork.ieLength > maxIeSz then s
  else if joinRes > 0 then
    if s.fwState.underLinking then
      match s.joinbssTarget pnetwork with
      | (none, s) => s
      | (some i, s) => s.joined i pnetwork staOk
    else s
  else { s with fwState := { s.fwState with underLinking := false } }

/-- `rtw_stassoc_event_callback`, the part for ad-hoc networks. -/
def rtwStassocEventCallback (s : MlmePriv) (asocStaCount : Nat) : MlmePriv :=
  if (s.fwState.adhocMaster || s.fwState.adhoc) && asocStaCount == 2 then
    let target := s.rtwFindNetwork s.curNetwork.macAddress
    let s := { s with curNetworkScanned := target, fwState := { s.fwState with linked := true } }
    match target with
    | some i => s.setFixed i true
    | none => s
  else s

/-! ### Roaming -/

def roamScanrExpMs : Nat := 5000
def roamRssiDiffTh : Int := 10

/-- `rtw_check_roaming_candidate`; `desired` is `rtw_is_desired_network`. -/
def rtwCheckRoamingCandidate (s : MlmePriv) (desired : WlanBssidEx → Bool) (cur : Slot) (candidate : Option Slot)
    (competitor : Slot) : Option Slot :=
  let c := s.networks competitor
  let rssiOf (i : Slot) := (s.networks i).network.rssi
  if c.network.ssid ≠ s.curNetwork.ssid then candidate
  else if !desired c.network then candidate
  else if s.roamTgtAddr ≠ zeroMac then
    if s.roamTgtAddr = c.network.macAddress then some competitor else candidate
  else if s.passingTimeMs c.lastScanned ≥ roamScanrExpMs then candidate
  else if c.network.rssi - rssiOf cur < roamRssiDiffTh then candidate
  else if candidate.any fun i => decide (rssiOf i ≥ c.network.rssi) then candidate
  else some competitor

def rtwSelectRoamingCandidate (s : MlmePriv) (desired : WlanBssidEx → Bool) : MlmePriv :=
  match s.curNetworkScanned with
  | none => s
  | some cur =>
    match s.scannedQueue.foldl (s.rtwCheckRoamingCandidate desired cur) none with
    | none => s
    | some i =>
      { s with
        roamNetwork := some i
        roamTgtAddr := if (s.networks i).network.macAddress = s.roamTgtAddr then zeroMac else s.roamTgtAddr }

/-- The end of `rtw_select_and_join_from_scanned_queue`, from `candidate_exist` on. -/
def candidateExist (s : MlmePriv) (asocStaCount : Nat) : MlmePriv :=
  let s := if s.fwState.linked then s.rtwIndicateDisconnect.rtwFreeAssocResources asocStaCount else s
  { s with roamNetwork := none, fwState := { s.fwState with underLinking := true } }

end MlmePriv

/-! ### Runs -/

/-- What happens to the scan table. -/
inductive ScanEvent where
  | survey (pnetwork : WlanBssidEx)
  | createIbss (devNetwork : WlanBssidEx)
  | freeNetworkQueue (isfreeall : Bool)
  | freeAssocResources (asocStaCount : Nat)
  | indicateDisconnect
  | stadel (asocStaCount : Nat)
  | joinTimeout
  | joinbss (pnetwork : WlanBssidEx) (joinRes : Int) (staOk : Bool)
  | stassoc (asocStaCount : Nat)
  | selectRoamingCandidate (desired : WlanBssidEx → Bool)
  | candidateExist (asocStaCount : Nat)
  /-- Whatever else changes `fw_state`. -/
  | fwState (fw : FwState)
  | p2p (on : Bool)
  | tick (ms : Nat)

def MlmePriv.next (s : MlmePriv) : ScanEvent → MlmePriv
  | .survey pnetwork => s.rtwSurveyEventCallback pnetwork
  | .createIbss devNetwork => s.rtwCreateIbssPostHdl devNetwork
  | .freeNetworkQueue isfreeall => s.rtwFreeNetworkQueue isfreeall
  | .freeAssocResources asocStaCount => s.rtwFreeAssocResources asocStaCount
  | .indicateDisconnect => s.rtwIndicateDisconnect
  | .stadel asocStaCount => s.rtwStadelEventCallback asocStaCount
  | .joinTimeout => s.rtwJoinTimeoutHandler
  | .joinbss pnetwork joinRes staOk => s.rtwJoinbssEventPrehandle pnetwork joinRes staOk
  | .stassoc asocStaCount => s.rtwStassocEventCallback asocStaCount
  | .selectRoamingCandidate desired => s.rtwSelectRoamingCandidate desired
  | .candidateExist asocStaCount => s.candidateExist asocStaCount
  | .fwState fw => { s with fwState := fw }
  | .p2p on => { s with p2p := on }
  | .tick ms => { s with now := s.now + ms }

end Rtw.Scan
