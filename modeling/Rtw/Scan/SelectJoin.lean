import Mathlib
import Rtw.Scan.CurNetwork

/-!
# Selecting a network

`rtw_select_and_join_from_scanned_queue` goes over `scanned_queue` and keeps the strongest entry that fits the request,
but takes the one that a roaming scan has left in `roam_network` as it is. `joinOk_iff`: the choice is right exactly if
this one, when there is one, still is.
-/

namespace Rtw.Scan

/-- `NDIS_802_11_WEP_STATUS` -/
inductive NdisWepStatus where
  | encryption1Enabled | encryptionDisabled | encryption1KeyAbsent | encryptionNotSupported | encryption2Enabled
  | encryption2KeyAbsent | encryption3Enabled | encryption3KeyAbsent | encryptionWapi
  deriving DecidableEq

/-- `NDIS_802_11_AUTHENTICATION_MODE` -/
inductive NdisAuthMode where
  | open | shared | autoSwitch | wpa | wpaPsk | wpaNone | wpa2 | wpa2Psk
  deriving DecidableEq

/-- The scan table with the request to join, and what `rtw_is_desired_network` looks at. -/
structure JoinPriv extends MlmePriv where
  /-- `Privacy` of the entries. -/
  privacy : Slot → Nat
  /-- `WIFI_UNDER_WPS` -/
  underWps : Bool
  wifiSpec : Bool
  ndisencryptstatus : NdisWepStatus
  ndisauthtype : NdisAuthMode
  assocByBssid : Bool
  assocBssid : MacAddr
  assocSsid : List UInt8
  toRoam : Nat
  roamScanrExpMs : Nat
  roamRssiDiffTh : Nat

namespace JoinPriv

variable (p : JoinPriv)

def rssi (i : Slot) : Int := (p.networks i).network.rssi

/-- `is_same_ess` with the current network. -/
def SameEss (i : Slot) : Prop := (p.networks i).network.ssid = p.curNetwork.ssid

/-- The entry has been scanned too long ago to roam to it. -/
def Expired (i : Slot) : Prop := p.passingTimeMs (p.networks i).lastScanned ≥ p.roamScanrExpMs

/-- The tests that are made also for `wifi_spec`; the one for WPA2-PSK overrules the one before it. -/
def wifiSpecSelected (i : Slot) : Bool :=
  let n := (p.networks i).network
  let bselected := !(decide (p.ndisencryptstatus = .encryptionDisabled) && decide (p.privacy i ≠ 0))
  if p.ndisauthtype = .wpa2Psk then
    match rtwGetIe ((List.range maxIeSz).map fun k => n.ies (12 + k)) 48 (n.ieLength - 12) with
    | some (_, ieLen) => decide (0 < ieLen)
    | none => false
  else bselected

def rtwIsDesiredNetwork (i : Slot) : Bool :=
  let n := (p.networks i).network
  if p.underWps then
    (rtwGetWpsIe (fun k => n.ies (12 + k)) ((n.ieLength + 2 ^ 32 - 12) % 2 ^ 32) maxIeSz 0).isSome
  else
    let bselected := if p.wifiSpec then p.wifiSpecSelected i else true
    let bselected := if p.ndisencryptstatus ≠ .encryptionDisabled ∧ p.privacy i = 0 then false else bselected
    if p.fwState.adhoc ∧ n.infrastructureMode ≠ p.curNetwork.infrastructureMode then false else bselected

/-- The request has a name. -/
def HasSsid : Prop := p.assocSsid.headD 0 ≠ 0

instance : Decidable p.HasSsid := inferInstanceAs (Decidable (_ ≠ _))

instance (i : Slot) : Decidable (p.SameEss i) := inferInstanceAs (Decidable (_ = _))

instance (i : Slot) : Decidable (p.Expired i) := inferInstanceAs (Decidable (_ ≥ _))

def rtwCheckJoinCandidate (candidate : Option Slot) (competitor : Slot) : Option Slot :=
  let c := p.networks competitor
  if p.assocByBssid ∧ c.network.macAddress ≠ p.assocBssid then candidate
  else if p.HasSsid ∧ c.network.ssid ≠ p.assocSsid then candidate
  else if p.rtwIsDesiredNetwork competitor = false then candidate
  else if p.toRoam > 0 ∧ (p.Expired competitor ∨ ¬ p.SameEss competitor) then candidate
  else
    match candidate with
    | none => some competitor
    | some i => if p.rssi i < p.rssi competitor then some competitor else some i

/-- The candidate. -/
def candidate? : Option Slot :=
  match p.roamNetwork with
  | some i => some i
  | none => p.scannedQueue.foldl p.rtwCheckJoinCandidate none

/-- `rtw_select_and_join_from_scanned_queue`: the network that is joined, and the table when `rtw_joinbss_cmd` is
called. -/
def rtwSelectAndJoinFromScannedQueue (asocStaCount : Nat) : Option (Slot × MlmePriv) :=
  p.candidate?.map fun i => (i, p.toMlmePriv.candidateExist asocStaCount)

/-- The entry fits BSSID and SSID of the request, and is desired. -/
structure Wanted (i : Slot) : Prop where
  bssid : p.assocByBssid → (p.networks i).network.macAddress = p.assocBssid
  ssid : p.HasSsid → (p.networks i).network.ssid = p.assocSsid
  desired : p.rtwIsDesiredNetwork i

/-- What is asked of a candidate besides when roaming: by the scan that set `roam_network`, for the address `tgt` or for
none, else by `rtw_check_join_candidate`. -/
def RoamRules (tgt : MacAddr) (i : Slot) : Prop :=
  match p.roamNetwork with
  | some _ => p.SameEss i ∧
      if tgt = zeroMac then ¬ p.Expired i ∧ ∀ cur ∈ p.curNetworkScanned, p.rssi i - p.rssi cur ≥ p.roamRssiDiffTh
      else (p.networks i).network.macAddress = tgt
  | none => p.toRoam > 0 → ¬ p.Expired i ∧ p.SameEss i

/-- The network is an entry that is wanted, and no other one that may be chosen is stronger. -/
structure Best (tgt : MacAddr) (i : Slot) : Prop where
  mem : i ∈ p.scannedQueue
  wanted : p.Wanted i
  strongest : ∀ j ∈ p.scannedQueue, p.Wanted j → p.RoamRules tgt j → p.rssi j ≤ p.rssi i

/-- A network that is joined is the best one; without a network from a roaming scan it is one that may be chosen. -/
def JoinOk (tgt : MacAddr) : Prop :=
  ∀ asocStaCount i s, p.rtwSelectAndJoinFromScannedQueue asocStaCount = some (i, s) →
    p.Best tgt i ∧ (p.roamNetwork = none → p.RoamRules tgt i)

instance (i : Slot) : Decidable (p.Wanted i) :=
  decidable_of_iff ((p.assocByBssid = true → (p.networks i).network.macAddress = p.assocBssid) ∧
    (p.HasSsid → (p.networks i).network.ssid = p.assocSsid) ∧ p.rtwIsDesiredNetwork i = true)
    ⟨fun h => ⟨h.1, h.2.1, h.2.2⟩, fun h => ⟨h.bssid, h.ssid, h.desired⟩⟩

/-- What `rtw_check_join_candidate` asks of an entry by itself. -/
def MayJoin (i : Slot) : Prop := p.Wanted i ∧ (p.toRoam > 0 → ¬ p.Expired i ∧ p.SameEss i)

instance (i : Slot) : Decidable (p.MayJoin i) := inferInstanceAs (Decidable (_ ∧ _))

variable {p} {i j : Slot} {tgt : MacAddr}

/-- An entry that may join takes the place of the candidate if it is stronger. -/
theorem rtwCheckJoinCandidate_eq (candidate : Option Slot) (i : Slot) : p.rtwCheckJoinCandidate candidate i =
    if p.MayJoin i then List.argAux (fun b c => p.rssi c < p.rssi b) candidate i else candidate := by
  unfold rtwCheckJoinCandidate
  dsimp only
  by_cases hbssid : p.assocByBssid ∧ (p.networks i).network.macAddress ≠ p.assocBssid
  · rw [if_pos hbssid, if_neg fun h => hbssid.2 (h.1.bssid hbssid.1)]
  by_cases hssid : p.HasSsid ∧ (p.networks i).network.ssid ≠ p.assocSsid
  · rw [if_neg hbssid, if_pos hssid, if_neg fun h => hssid.2 (h.1.ssid hssid.1)]
  by_cases hdesired : p.rtwIsDesiredNetwork i = false
  · rw [if_neg hbssid, if_neg hssid, if_pos hdesired, if_neg fun h => Bool.false_ne_true (hdesired ▸ h.1.desired)]
  by_cases hroam : p.toRoam > 0 ∧ (p.Expired i ∨ ¬ p.SameEss i)
  · rw [if_neg hbssid, if_neg hssid, if_neg hdesired, if_pos hroam, if_neg]
    rintro ⟨-, h⟩
    exact hroam.2.elim (h hroam.1).1 fun hess => hess (h hroam.1).2
  · rw [if_neg hbssid, if_neg hssid, if_neg hdesired, if_neg hroam, if_pos]
    · cases candidate <;> rfl
    · refine ⟨⟨fun h => ?_, fun h => ?_, Bool.eq_true_of_not_eq_false hdesired⟩, fun h => ?_⟩
      · exact not_not.1 fun hne => hbssid ⟨h, hne⟩
      · exact not_not.1 fun hne => hssid ⟨h, hne⟩
      · exact ⟨fun hexp => hroam ⟨h, .inl hexp⟩, not_not.1 fun hess => hroam ⟨h, .inr hess⟩⟩

/-- The loop finds the first one of the strongest entries that may join. -/
theorem foldl_rtwCheckJoinCandidate (p : JoinPriv) : p.scannedQueue.foldl p.rtwCheckJoinCandidate none =
    (p.scannedQueue.filter fun i => decide (p.MayJoin i)).argmax p.rssi := by
  unfold List.argmax
  rw [List.foldl_filter]
  simp only [decide_eq_true_eq]
  congr 1
  funext o i
  exact rtwCheckJoinCandidate_eq o i

theorem mayJoin_iff (hroam : p.roamNetwork = none) : p.MayJoin i ↔ p.Wanted i ∧ p.RoamRules tgt i := by
  unfold MayJoin RoamRules
  rw [hroam]

theorem best_of_foldl (hroam : p.roamNetwork = none) (h : p.scannedQueue.foldl p.rtwCheckJoinCandidate none = some i) :
    p.Best tgt i ∧ p.RoamRules tgt i := by
  rw [foldl_rtwCheckJoinCandidate] at h
  obtain ⟨hmem, hmay⟩ := List.mem_filter.1 (List.argmax_mem h)
  have hmay' : p.Wanted i ∧ p.RoamRules tgt i := (mayJoin_iff hroam).1 (of_decide_eq_true hmay)
  obtain ⟨hwanted, hrules⟩ := hmay'
  refine ⟨⟨hmem, hwanted, fun j hj hwantedj hrulesj => ?_⟩, hrules⟩
  exact List.le_of_mem_argmax (List.mem_filter.2 ⟨hj, decide_eq_true ((mayJoin_iff hroam).2 ⟨hwantedj, hrulesj⟩)⟩) h

theorem joinOk_iff_candidate : p.JoinOk tgt ↔
    ∀ i, p.candidate? = some i → p.Best tgt i ∧ (p.roamNetwork = none → p.RoamRules tgt i) := by
  constructor
  · intro h i hi
    refine h 0 i (p.toMlmePriv.candidateExist 0) ?_
    unfold rtwSelectAndJoinFromScannedQueue
    rw [hi]
    rfl
  · intro h n i s hs
    obtain ⟨i', hi', heq⟩ := Option.map_eq_some_iff.1 hs
    cases heq
    exact h i hi'

end JoinPriv

open JoinPriv

/-- The choice is right exactly if the network that a roaming scan has left, when there is one, is the best one now. -/
theorem joinOk_iff (p : JoinPriv) (tgt : MacAddr) : p.JoinOk tgt ↔ ∀ i, p.roamNetwork = some i → p.Best tgt i := by
  rw [joinOk_iff_candidate]
  unfold candidate?
  cases hroam : p.roamNetwork with
  | none => exact iff_of_true (fun i hi => ⟨(best_of_foldl hroam hi).1, fun _ => (best_of_foldl hroam hi).2⟩) nofun
  | some i =>
    refine forall_congr' fun j => imp_congr_right fun _ => and_iff_left ?_
    nofun

/-! ### After a roaming scan -/

namespace MlmePriv
variable (s : MlmePriv) (desired : WlanBssidEx → Bool) {cur : Slot}

theorem rtwSelectRoamingCandidate_of_none (h : s.curNetworkScanned = none) : s.rtwSelectRoamingCandidate desired = s := by
  unfold rtwSelectRoamingCandidate
  rw [h]

theorem rtwSelectRoamingCandidate_of_some (h : s.curNetworkScanned = some cur) : s.rtwSelectRoamingCandidate desired =
    match s.scannedQueue.foldl (s.rtwCheckRoamingCandidate desired cur) none with
    | none => s
    | some i =>
      { s with
        roamNetwork := some i
        roamTgtAddr := if (s.networks i).network.macAddress = s.roamTgtAddr then zeroMac else s.roamTgtAddr } := by
  unfold rtwSelectRoamingCandidate
  split
  · case h_1 hnone => exact absurd (h.symm.trans hnone) (Option.some_ne_none cur)
  · case h_2 cur' hsome =>
    obtain rfl := Option.some.inj (h.symm.trans hsome)
    rfl

end MlmePriv

namespace JoinPriv

/-- The scan with the thresholds of the request, no address given. -/
structure RoamScan (p : JoinPriv) (desired : WlanBssidEx → Bool) : Prop where
  noAddr : p.roamTgtAddr = zeroMac
  expMs : p.roamScanrExpMs = MlmePriv.roamScanrExpMs
  diffTh : (p.roamRssiDiffTh : Int) = MlmePriv.roamRssiDiffTh
  desired : ∀ i, desired (p.networks i).network = p.rtwIsDesiredNetwork i

/-- What the scan asks of an entry by itself. -/
def RoamTests (p : JoinPriv) (cur i : Slot) : Prop :=
  p.SameEss i ∧ p.rtwIsDesiredNetwork i = true ∧ ¬ p.Expired i ∧ p.rssi i - p.rssi cur ≥ p.roamRssiDiffTh

instance (p : JoinPriv) (cur i : Slot) : Decidable (p.RoamTests cur i) := inferInstanceAs (Decidable (_ ∧ _))

variable {p : JoinPriv} {desired : WlanBssidEx → Bool} {cur i : Slot}

theorem rtwCheckRoamingCandidate_eq (h : p.RoamScan desired) (candidate : Option Slot) (i : Slot) :
    p.rtwCheckRoamingCandidate desired cur candidate i =
      if p.RoamTests cur i then List.argAux (fun b c => p.rssi c < p.rssi b) candidate i else candidate := by
  have hcheck : p.rtwCheckRoamingCandidate desired cur candidate i =
      if ¬ p.SameEss i then candidate
      else if (!desired (p.networks i).network) = true then candidate
      else if p.roamTgtAddr ≠ zeroMac then
        if p.roamTgtAddr = (p.networks i).network.macAddress then some i else candidate
      else if p.passingTimeMs (p.networks i).lastScanned ≥ MlmePriv.roamScanrExpMs then candidate
      else if p.rssi i - p.rssi cur < MlmePriv.roamRssiDiffTh then candidate
      else if candidate.any (fun c => decide (p.rssi c ≥ p.rssi i)) = true then candidate
      else some i := rfl
  rw [hcheck, ← h.expMs, ← h.diffTh, h.desired, if_neg (not_not.2 h.noAddr)]
  by_cases hess : p.SameEss i
  swap
  · rw [if_pos hess, if_neg fun ht => hess ht.1]
  by_cases hdesired : p.rtwIsDesiredNetwork i = true
  swap
  · rw [if_neg (not_not.2 hess), Bool.eq_false_iff.2 hdesired, Bool.not_false, if_pos rfl, if_neg]
    exact fun ht => hdesired ht.2.1
  by_cases hexp : p.passingTimeMs (p.networks i).lastScanned ≥ p.roamScanrExpMs
  · rw [if_neg (not_not.2 hess), hdesired, Bool.not_true, if_neg Bool.false_ne_true, if_pos hexp,
      if_neg fun ht => ht.2.2.1 hexp]
  by_cases hdiff : p.rssi i - p.rssi cur < p.roamRssiDiffTh
  · rw [if_neg (not_not.2 hess), hdesired, Bool.not_true, if_neg Bool.false_ne_true, if_neg hexp, if_pos hdiff,
      if_neg fun ht => not_le.2 hdiff ht.2.2.2]
  · have htests : p.RoamTests cur i := ⟨hess, hdesired, hexp, not_lt.1 hdiff⟩
    rw [if_neg (not_not.2 hess), hdesired, Bool.not_true, if_neg Bool.false_ne_true, if_neg hexp, if_neg hdiff,
      if_pos htests]
    cases candidate with
    | none => rfl
    | some c =>
      show (if decide (p.rssi c ≥ p.rssi i) = true then some c else some i) =
        if p.rssi c < p.rssi i then some i else some c
      by_cases hlt : p.rssi c < p.rssi i
      · rw [if_pos hlt, if_neg (by rw [decide_eq_true_eq]; exact not_le.2 hlt)]
      · rw [if_neg hlt, if_pos (decide_eq_true (not_lt.1 hlt))]

theorem foldl_rtwCheckRoamingCandidate (h : p.RoamScan desired) (cur : Slot) :
    p.scannedQueue.foldl (p.rtwCheckRoamingCandidate desired cur) none =
      (p.scannedQueue.filter fun i => decide (p.RoamTests cur i)).argmax p.rssi := by
  unfold List.argmax
  rw [List.foldl_filter]
  simp only [decide_eq_true_eq]
  congr 1
  funext o i
  exact rtwCheckRoamingCandidate_eq h o i

/-- The entry that a scan has chosen is the best one as long as nothing happens, if the request is for the network. -/
theorem joinOk_of_roamScan (h : p.RoamScan desired) (hnone : p.roamNetwork = none)
    (hreq : ∀ i, p.SameEss i → p.rtwIsDesiredNetwork i = true → p.Wanted i) :
    { p with toMlmePriv := p.rtwSelectRoamingCandidate desired }.JoinOk zeroMac := by
  rw [joinOk_iff]
  intro i hi
  have hsel : (p.toMlmePriv.rtwSelectRoamingCandidate desired).roamNetwork = some i := hi
  cases hcur : p.curNetworkScanned with
  | none =>
    rw [p.rtwSelectRoamingCandidate_of_none desired hcur] at hsel
    exact absurd (hnone.symm.trans hsel) (Option.some_ne_none i).symm
  | some cur =>
    have hscan := p.rtwSelectRoamingCandidate_of_some desired hcur
    rw [foldl_rtwCheckRoamingCandidate h cur] at hscan
    cases hbest : (p.scannedQueue.filter fun i => decide (p.RoamTests cur i)).argmax p.rssi with
    | none =>
      rw [hscan, hbest] at hsel
      exact absurd (hnone.symm.trans hsel) (Option.some_ne_none i).symm
    | some k =>
      rw [hbest] at hscan
      rw [hscan] at hsel ⊢
      obtain rfl := Option.some.inj hsel
      obtain ⟨hmem, htests⟩ := List.mem_filter.1 (List.argmax_mem hbest)
      obtain ⟨hess, hdesired, -⟩ := of_decide_eq_true htests
      have hwanted := hreq k hess hdesired
      refine ⟨hmem, ⟨hwanted.bssid, hwanted.ssid, hwanted.desired⟩, fun j hj hwantedj hrules => ?_⟩
      unfold RoamRules at hrules
      dsimp only at hrules
      rw [if_pos rfl] at hrules
      obtain ⟨hessj, hfresh, hdiff⟩ := hrules
      exact List.le_of_mem_argmax (f := p.rssi)
        (List.mem_filter.2 ⟨hj, decide_eq_true ⟨hessj, hwantedj.desired, hfresh, hdiff cur hcur⟩⟩) hbest

end JoinPriv

/-! ### While linked -/

namespace MlmePriv
variable {s : MlmePriv} {i k : Slot}

theorem scannedQueue_disconnect : s.rtwIndicateDisconnect.scannedQueue = s.scannedQueue := by
  unfold rtwIndicateDisconnect
  dsimp only
  split <;> rfl

theorem curNetwork_disconnect : s.rtwIndicateDisconnect.curNetwork = s.curNetwork := by
  unfold rtwIndicateDisconnect
  dsimp only
  split <;> rfl

theorem mem_freeAssocResources_iff (hnodup : s.scannedQueue.Nodup) (asocStaCount : Nat) :
    i ∈ (s.rtwFreeAssocResources asocStaCount).scannedQueue ↔
      i ∈ s.scannedQueue ∧ s.rtwFindSameNetwork s.curNetwork ≠ some i := by
  unfold rtwFreeAssocResources
  cases hk : s.rtwFindSameNetwork s.curNetwork with
  | none => exact (and_iff_left (Option.some_ne_none i).symm).symm
  | some k =>
    have herase : (s.freeCurrent k).scannedQueue = s.scannedQueue.erase k := by
      rw [freeCurrent_eq]
      rfl
    have hmem : i ∈ s.scannedQueue.erase k ↔ i ∈ s.scannedQueue ∧ some k ≠ some i := by
      rw [hnodup.mem_erase_iff, and_comm, ne_comm, Ne, Ne, Option.some_inj]
    dsimp only
    split
    · unfold rtwFreeNetworkNolock
      split
      · rw [herase]
        exact hmem
      · show i ∈ (s.freeCurrent k).scannedQueue.erase k ↔ _
        rw [herase, (hnodup.erase k).mem_erase_iff, hmem]
        exact and_iff_right_of_imp fun h => fun heq => h.2 (congrArg some heq.symm)
    · rw [herase]
      exact hmem

/-- A station that is linked when it joins gives back the entry of the network that it leaves. -/
theorem mem_candidateExist_iff (hnodup : s.scannedQueue.Nodup) (asocStaCount : Nat) :
    i ∈ (s.candidateExist asocStaCount).scannedQueue ↔ i ∈ s.scannedQueue ∧
      (s.fwState.linked → s.rtwIndicateDisconnect.rtwFindSameNetwork s.curNetwork ≠ some i) := by
  unfold candidateExist
  dsimp only
  split
  · case isTrue hlinked =>
    have hdisc : s.rtwIndicateDisconnect.scannedQueue.Nodup := by
      rw [scannedQueue_disconnect]
      exact hnodup
    show i ∈ (s.rtwIndicateDisconnect.rtwFreeAssocResources asocStaCount).scannedQueue ↔ _
    rw [mem_freeAssocResources_iff hdisc, scannedQueue_disconnect, curNetwork_disconnect, imp_iff_right hlinked]
  · case isFalse hlinked => exact (and_iff_left fun h => absurd h hlinked).symm

end MlmePriv

/-- An access point with the same name as the first one, and stronger. -/
def strongNetwork : WlanBssidEx := { MlmePriv.apNetwork 1 with rssi := -30 }

/-- The station joins the first access point, and a roaming scan finds the second one. -/
def roamScanned : MlmePriv :=
  Machine.run MlmePriv.next rtwInitMlmePriv (MlmePriv.joinFirst ++ [.survey strongNetwork, .selectRoamingCandidate fun _ => true])

/-- Then a network `b` is asked for. -/
def joinOther : JoinPriv where
  toMlmePriv := roamScanned
  privacy _ := 0
  underWps := false
  wifiSpec := false
  ndisencryptstatus := .encryptionDisabled
  ndisauthtype := .open
  assocByBssid := false
  assocBssid := zeroMac
  assocSsid := [0x62]
  toRoam := 0
  roamScanrExpMs := 5000
  roamRssiDiffTh := 10

/-- The network of the roaming scan is joined, which is called `a`. -/
theorem not_joinOk_other : ¬ ∀ (p : JoinPriv) (tgt : MacAddr), p.JoinOk tgt := by
  intro h
  have hroam : joinOther.roamNetwork = some ⟨1, by decide⟩ := by decide +kernel
  have hsel : joinOther.rtwSelectAndJoinFromScannedQueue 0 = some (⟨1, by decide⟩, joinOther.candidateExist 0) := by
    unfold rtwSelectAndJoinFromScannedQueue candidate?
    rw [hroam]
    rfl
  have hssid := (h joinOther zeroMac 0 _ _ hsel).1.wanted.ssid (by decide)
  exact absurd hssid (by decide +kernel)

end Rtw.Scan
