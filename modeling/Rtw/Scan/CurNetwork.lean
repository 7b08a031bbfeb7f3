import Rtw.Scan.ScanMerge

/-!
# The entry of the current network

While the interface is linked as a station, `cur_network_scanned` is an entry of `scanned_queue` for the
current network. The routines that free entries respect its mark. `rtw_update_scanned_network` does not look
at the mark when it writes over the oldest entry, and with P2P it writes over an entry of the same device.
-/

namespace Rtw.Scan
namespace MlmePriv

/-- The interface is linked as a station. -/
def Sta (s : MlmePriv) : Prop := s.fwState.linked ∧ s.fwState.station

instance (s : MlmePriv) : Decidable s.Sta := inferInstanceAs (Decidable (_ ∧ _))

/-- `cur_network_scanned` is an entry of `scanned_queue` that describes the current network. -/
def CurScanned (s : MlmePriv) : Prop :=
  ∃ i, s.curNetworkScanned = some i ∧ i ∈ s.scannedQueue ∧ isSameNetwork s.curNetwork (s.networks i).network false

/-- A network is looked for in the table, and the entry of the current network is not written over. -/
def EvictOk (s : MlmePriv) (target : WlanBssidEx) : Prop :=
  (∀ i ∈ s.scannedQueue.find? (s.isTarget target), s.curNetworkScanned = some i →
    updateIe (s.networks i).network target → isSameNetwork s.curNetwork target false) ∧
  (s.scannedQueue.find? (s.isTarget target) = none → s.freeBssPool = [] → s.oldest ≠ s.curNetworkScanned)

instance (s : MlmePriv) (target : WlanBssidEx) : Decidable (s.EvictOk target) :=
  have : Decidable (∀ i ∈ s.scannedQueue.find? (s.isTarget target), s.curNetworkScanned = some i →
      updateIe (s.networks i).network target → isSameNetwork s.curNetwork target false) :=
    @Option.decidableForallMem _ _ (fun _ => inferInstance) _
  inferInstanceAs (Decidable (_ ∧ _))

/-- A join that is reported while linked: the first entry with the address is of the joined network, and it is
the marked one if the address is the current one. -/
def RejoinOk (s : MlmePriv) (pnetwork : WlanBssidEx) : Prop :=
  ∃ i, s.rtwFindNetwork pnetwork.macAddress = some i ∧ (s.networks i).network.ssid = pnetwork.ssid ∧
    (pnetwork.macAddress = s.curNetwork.macAddress → s.curNetworkScanned = some i)

/-- The step keeps the entry of the current network. Ad-hoc networks are not begun while linked as a station. -/
def LinkOk (s : MlmePriv) : ScanEvent → Prop
  | .survey pnetwork => s.Sta → s.fwState.underLinking = false → s.EvictOk (hideSsid pnetwork)
  | .createIbss _ => ¬ s.Sta
  | .freeAssocResources _ => ¬ s.Sta
  | .joinbss pnetwork joinRes _ => s.fwState.underLinking → 0 < joinRes →
    (pnetwork.infrastructureMode = .infrastructure → s.fwState.station) ∧ (s.fwState.linked → s.RejoinOk pnetwork)
  | .stassoc _ => ¬ s.fwState.station
  | .fwState fw => fw.linked → fw.station → s.Sta
  | _ => True

variable {s t : MlmePriv} {i j : Slot} {a b : WlanBssidEx}

/-- `i` is the marked entry of the current network. -/
structure Cur (s : MlmePriv) (i : Slot) : Prop where
  scanned : s.curNetworkScanned = some i
  mem : i ∈ s.scannedQueue
  fixed : (s.networks i).fixed
  key : s.curNetwork.key = (s.networks i).network.key

structure LinkInv (s : MlmePriv) : Prop where
  once : s.Once
  cur : s.Sta → ∃ i, s.Cur i

theorem LinkInv.curScanned (h : s.LinkInv) (hsta : s.Sta) : s.CurScanned := by
  obtain ⟨i, hi⟩ := h.cur hsta
  exact ⟨i, hi.scanned, hi.mem, isSameNetwork_iff.2 hi.key⟩

/-! ### What stays the same -/

/-- Copying a description of the same network does not change which network it is. -/
theorem key_copyTo (h : a.key = b.key) : (a.copyTo b).key = b.key := by
  by_cases hlen : 10 < a.ieLength
  · rw [← h]
    exact key_congr rfl rfl (if_pos hlen)
  · exact key_congr (congrArg (·.1) h) (congrArg (·.2.1) h) (if_neg hlen)

theorem key_updateNetwork (h : b.key = a.key) (ie : Bool) : (s.updateNetwork a b ie).key = a.key := by
  cases ie
  · exact key_congr rfl rfl rfl
  · exact (key_congr rfl rfl rfl : _ = (b.copyTo a).key).trans (key_copyTo h)

theorem Cur.congr (h : s.Cur i) (hscanned : t.curNetworkScanned = s.curNetworkScanned)
    (hmem : i ∈ s.scannedQueue → i ∈ t.scannedQueue) (hfixed : (t.networks i).fixed = (s.networks i).fixed)
    (hkey : (t.networks i).network.key = (s.networks i).network.key) (hcur : t.curNetwork.key = s.curNetwork.key) :
    t.Cur i where
  scanned := hscanned.trans h.scanned
  mem := hmem h.mem
  fixed := hfixed ▸ h.fixed
  key := by rw [hkey, hcur, h.key]

/-- The entry of the current network stays, whatever happens to the others. -/
theorem Cur.modify (h : s.Cur i) (hj : j ≠ i) (f : WlanNetwork → WlanNetwork) : (s.modify j f).Cur i :=
  have hne : (s.modify j f).networks i = s.networks i := Function.update_of_ne hj.symm ..
  h.congr rfl id (congrArg _ hne) (congrArg (·.network.key) hne) rfl

theorem Cur.toPool (h : s.Cur i) (hj : (s.networks j).fixed = false) : (s.toPool j).Cur i := by
  refine h.congr rfl (fun hi => (List.mem_erase_of_ne ?_).2 hi) rfl rfl rfl
  rintro rfl
  exact Bool.false_ne_true (hj.symm.trans h.fixed)

/-- `fixed` protects the entry from the routines that free entries. -/
theorem Cur.freeAll (isfreeall : Bool) (is : List Slot) (h : s.Cur i) :
    (is.foldl (fun s i => s.rtwFreeNetwork isfreeall i) s).Cur i := by
  induction is generalizing s with
  | nil => exact h
  | cons j is ih =>
    rw [List.foldl_cons]
    rcases rtwFreeNetwork_cases s isfreeall j with he | ⟨hj, he⟩
    · rw [he]
      exact ih h
    · rw [he]
      exact ih (h.toPool hj)

theorem Cur.updateCurrent (h : s.Cur i) (b : WlanBssidEx) : (s.updateCurrentNetwork b).Cur i := by
  unfold updateCurrentNetwork
  split
  · rename_i hsame
    rw [Bool.and_eq_true, isSameNetwork_iff] at hsame
    exact h.congr rfl id rfl rfl (key_updateNetwork hsame.2.symm true)
  · exact h

theorem Cur.updateScanned (h : s.Cur i) (honce : s.Once) (hok : s.EvictOk b) : (s.rtwUpdateScannedNetwork b).Cur i := by
  unfold rtwUpdateScannedNetwork
  obtain ⟨hupdate, hevict⟩ := hok
  cases hfind : s.scannedQueue.find? (s.isTarget b) with
  | some j =>
    dsimp only
    by_cases hj : j = i
    · subst hj
      have hkey : (s.updateNetwork (s.networks j).network b (updateIe (s.networks j).network b)).key =
          (s.networks j).network.key := by
        cases hie : updateIe (s.networks j).network b with
        | true => exact key_updateNetwork ((isSameNetwork_iff.1 (hupdate j hfind h.scanned hie)).symm.trans h.key) true
        | false => exact key_congr rfl rfl rfl
      refine h.congr rfl id ?_ ?_ rfl <;> simp only [MlmePriv.modify, Function.update_self]
      exact hkey
    · exact h.modify hj _
  | none =>
    dsimp only
    cases halloc : s.rtwAllocNetwork with
    | some r =>
      obtain ⟨j, t⟩ := r
      obtain ⟨pool, hpool, rfl⟩ := rtwAllocNetwork_eq_some halloc
      have hj : j ≠ i := by
        rintro rfl
        exact honce.not_mem_pool h.mem (hpool ▸ List.mem_cons_self ..)
      have hcur : Cur { s with freeBssPool := pool, numOfScanned := s.numOfScanned + 1 } i := h.congr rfl id rfl rfl rfl
      exact ((hcur.modify hj _).modify hj _).congr rfl (fun hi => List.mem_append_left _ hi) rfl rfl rfl
    | none =>
      dsimp only
      cases hold : s.oldest with
      | none => exact h
      | some j =>
        refine h.modify (fun hj => ?_) _
        subst hj
        exact hevict hfind (rtwAllocNetwork_eq_none halloc) (hold.trans h.scanned.symm)

theorem key_copyTimestamp : (copyTimestamp a b).key = b.key := key_congr rfl rfl rfl

theorem EvictOk.congr (h : s.EvictOk b) (hkey : a.key = s.curNetwork.key) : EvictOk { s with curNetwork := a } b := by
  refine ⟨fun i hi hcur hie => ?_, h.2⟩
  rw [isSameNetwork_iff, hkey]
  exact isSameNetwork_iff.1 (h.1 i hi hcur hie)

theorem Cur.setCurNetwork (h : s.Cur i) (hkey : a.key = s.curNetwork.key) : Cur { s with curNetwork := a } i :=
  h.congr rfl id rfl rfl hkey

theorem Cur.addNetwork (h : s.Cur i) (honce : s.Once) (hok : s.fwState.underLinking = false → s.EvictOk (hideSsid b)) :
    (s.rtwAddNetwork b).Cur i := by
  unfold rtwAddNetwork
  split
  · exact h
  · rename_i hlinking
    rw [Bool.not_eq_true] at hlinking
    refine (h.updateCurrent _).updateScanned (poolRules_once.updateCurrent honce _) ?_
    unfold updateCurrentNetwork
    split
    · rename_i hsame
      rw [Bool.and_eq_true, isSameNetwork_iff] at hsame
      exact (hok hlinking).congr (key_updateNetwork hsame.2.symm true)
    · exact hok hlinking

theorem Cur.survey (h : s.Cur i) (honce : s.Once) (hok : s.fwState.underLinking = false → s.EvictOk (hideSsid b)) :
    (s.rtwSurveyEventCallback b).Cur i := by
  unfold rtwSurveyEventCallback
  split
  · have hcur : Cur { s with curNetwork := copyTimestamp b s.curNetwork } i := h.setCurNetwork key_copyTimestamp
    dsimp only
    split
    · rename_i j hj
      by_cases hji : j = i
      · subst hji
        refine hcur.congr rfl id ?_ ?_ rfl <;> simp only [MlmePriv.modify, Function.update_self]
        exact key_copyTimestamp
      · exact hcur.modify hji _
    · exact hcur.addNetwork (honce.congr rfl rfl) fun hl => (hok hl).congr key_copyTimestamp
  · exact h.addNetwork honce hok

/-! ### The state of the link -/

theorem fwState_updateScanned : (s.rtwUpdateScannedNetwork b).fwState = s.fwState := by
  unfold rtwUpdateScannedNetwork
  split
  · rfl
  split
  · split <;> rfl
  · rename_i ht
    obtain ⟨pool, -, rfl⟩ := rtwAllocNetwork_eq_some ht
    rfl

theorem fwState_survey : (s.rtwSurveyEventCallback b).fwState = s.fwState := by
  have hadd : ∀ s : MlmePriv, (s.rtwAddNetwork b).fwState = s.fwState := by
    intro s
    unfold rtwAddNetwork updateCurrentNetwork
    split
    · rfl
    · rw [fwState_updateScanned]
      split <;> rfl
  unfold rtwSurveyEventCallback
  split
  · dsimp only
    split
    · rfl
    · exact hadd _
  · exact hadd s

theorem fwState_freeAll (isfreeall : Bool) (is : List Slot) :
    (is.foldl (fun s i => s.rtwFreeNetwork isfreeall i) s).fwState = s.fwState := by
  induction is generalizing s with
  | nil => rfl
  | cons i is ih =>
    rw [List.foldl_cons, ih]
    rcases rtwFreeNetwork_cases s isfreeall i with he | ⟨-, he⟩ <;> rw [he]
    rfl

theorem fwState_flush (is : List Slot) : (is.foldl MlmePriv.toPool s).fwState = s.fwState := by
  induction is generalizing s with
  | nil => rfl
  | cons i is ih => exact ih

theorem fwState_freeCurrent : (s.freeCurrent i).fwState = s.fwState := by
  rw [freeCurrent_eq]
  rfl

theorem fwState_freeByAddr : s.freeByAddr.fwState = s.fwState := by
  unfold freeByAddr
  split
  · rfl
  · exact fwState_freeCurrent

theorem fwState_freeAssoc (n : Nat) : (s.rtwFreeAssocResources n).fwState = s.fwState := by
  unfold rtwFreeAssocResources
  split
  · rfl
  dsimp only
  split
  · unfold rtwFreeNetworkNolock
    split <;> exact fwState_freeCurrent
  · exact fwState_freeCurrent

theorem linked_disconnect : s.rtwIndicateDisconnect.fwState.linked = false := by
  unfold rtwIndicateDisconnect
  dsimp only
  split <;> rfl

theorem not_sta_stadel (n : Nat) : ¬ (s.rtwStadelEventCallback n).Sta := by
  unfold rtwStadelEventCallback
  dsimp only
  generalize ht : (if s.fwState.station = true then _ else s) = t
  have hsta : ¬ (t.fwState.linked ∧ t.fwState.station) := by
    rw [← ht]
    split
    · rw [fwState_freeByAddr, linked_disconnect]
      exact fun h => Bool.false_ne_true h.1
    · exact fun h => absurd h.2 (by assumption)
  have hfw : t.freeByAddr.fwState = t.fwState := fwState_freeByAddr
  unfold Sta
  split
  · split
    · rw [hfw]
      exact hsta
    · rw [hfw]
      exact hsta
  · exact hsta

theorem not_sta_candidateExist (n : Nat) : ¬ (s.candidateExist n).Sta := by
  unfold candidateExist Sta
  dsimp only
  split
  · rw [fwState_freeAssoc, linked_disconnect]
    exact fun h => Bool.false_ne_true h.1
  · exact fun h => absurd h.1 (by assumption)

theorem sta_of_createIbss {dev : WlanBssidEx} (h : (s.rtwCreateIbssPostHdl dev).Sta) : s.Sta := by
  unfold rtwCreateIbssPostHdl at h
  dsimp only at h
  split at h
  · rename_i ht
    obtain ⟨pool, -, rfl⟩ := rtwAllocNetwork_eq_some ht
    exact h
  split at h
  · exact h
  · exact h

theorem station_stassoc (n : Nat) : (s.rtwStassocEventCallback n).fwState.station = s.fwState.station := by
  unfold rtwStassocEventCallback
  dsimp only
  split
  · split <;> rfl
  · rfl

/-! ### Joining -/

theorem network_setFixed (fixed : Bool) : ((s.setFixed j fixed).networks i).network = (s.networks i).network := by
  by_cases hij : i = j
  · subst hij
    simp only [setFixed, MlmePriv.modify, Function.update_self]
  · simp only [setFixed, MlmePriv.modify, Function.update_of_ne hij]

theorem rtwFindNetwork_unfixCurrent (addr : MacAddr) : s.unfixCurrent.rtwFindNetwork addr = s.rtwFindNetwork addr := by
  unfold unfixCurrent
  split
  · unfold rtwFindNetwork
    simp only [network_setFixed]
    rfl
  · rfl

/-- The entry that is joined in station mode is marked. -/
theorem fixTarget_spec (hmem : i ∈ s.scannedQueue) :
    i ∈ (s.fixTarget (some i)).scannedQueue ∧
      ((s.fixTarget (some i)).networks i).network = (s.networks i).network ∧
      (s.fwState.station → ((s.fixTarget (some i)).networks i).fixed) := by
  unfold fixTarget
  dsimp only
  split
  · refine ⟨hmem, network_setFixed _, fun _ => ?_⟩
    simp only [setFixed, MlmePriv.modify, Function.update_self]
  · exact ⟨hmem, rfl, fun hst => absurd hst (by assumption)⟩

/-- A station that has joined is linked to the marked entry. -/
theorem Cur.joined {staOk : Bool} (hmem : i ∈ s.scannedQueue) (hmac : b.macAddress = (s.networks i).network.macAddress)
    (hssid : b.ssid = (s.networks i).network.ssid)
    (hfixed : b.infrastructureMode = .infrastructure → (s.networks i).fixed) (hsta : (s.joined i b staOk).Sta) :
    (s.joined i b staOk).Cur i := by
  unfold MlmePriv.joined rtwJoinbssUpdateNetwork at *
  dsimp only at *
  cases hmode : b.infrastructureMode with
  | infrastructure =>
    cases staOk with
    | true => exact ⟨rfl, hmem, hfixed hmode, key_congr hmac hssid rfl⟩
    | false =>
      rw [hmode] at hsta
      exact absurd hsta.1 Bool.false_ne_true
  | _ =>
    rw [hmode] at hsta
    exact absurd hsta.1 Bool.false_ne_true

theorem joinbssTarget_spec (h : s.LinkInv) (hinfra : b.infrastructureMode = .infrastructure → s.fwState.station)
    (hrejoin : s.fwState.linked → s.RejoinOk b) :
    s.joinbssTarget b = (none, s) ∨
      ∃ i t, s.joinbssTarget b = (some i, t) ∧ i ∈ t.scannedQueue ∧ b.macAddress = (t.networks i).network.macAddress ∧
        b.ssid = (t.networks i).network.ssid ∧ (b.infrastructureMode = .infrastructure → (t.networks i).fixed) := by
  unfold joinbssTarget
  dsimp only
  by_cases hlinked : s.fwState.linked
  · obtain ⟨i, hfind, hssid, hcur⟩ := hrejoin hlinked
    have hmem : i ∈ s.scannedQueue := mem_of_findNetwork hfind
    have hmac : b.macAddress = (s.networks i).network.macAddress := mac_of_findNetwork hfind
    rw [if_pos hlinked]
    by_cases hsame : b.macAddress = s.curNetwork.macAddress
    · rw [if_pos hsame, ← hsame, hfind]
      refine .inr ⟨i, s, rfl, hmem, hmac, hssid.symm, fun hmode => ?_⟩
      obtain ⟨j, hj⟩ := h.cur ⟨hlinked, hinfra hmode⟩
      have hij : i = j := Option.some.inj ((hcur hsame).symm.trans hj.scanned)
      rw [hij]
      exact hj.fixed
    · rw [if_neg hsame, rtwFindNetwork_unfixCurrent, hfind]
      have hunfix : s.unfixCurrent.scannedQueue = s.scannedQueue ∧ s.unfixCurrent.fwState = s.fwState ∧
          (s.unfixCurrent.networks i).network = (s.networks i).network := by
        unfold unfixCurrent
        split
        · exact ⟨rfl, rfl, network_setFixed _⟩
        · exact ⟨rfl, rfl, rfl⟩
      obtain ⟨hscan, hfw, hnet⟩ := hunfix
      obtain ⟨hmem', hnet', hfixed⟩ := fixTarget_spec (s := s.unfixCurrent) (hscan ▸ hmem)
      rw [hnet] at hnet'
      refine .inr ⟨i, _, rfl, hmem', by rw [hnet', hmac], by rw [hnet', hssid], fun hmode => hfixed ?_⟩
      rw [hfw]
      exact hinfra hmode
  · rw [if_neg hlinked]
    cases hfind : s.rtwFindSameNetwork b with
    | none => exact .inl rfl
    | some i =>
      obtain ⟨hmem, hnet, hfixed⟩ := fixTarget_spec (mem_of_findSameNetwork hfind)
      have hkey : b.key = (s.networks i).network.key := key_of_findSameNetwork hfind
      refine .inr ⟨i, _, rfl, hmem, ?_, ?_, fun hmode => hfixed (hinfra hmode)⟩
      · rw [hnet]
        exact congrArg (·.1) hkey
      · rw [hnet]
        exact congrArg (·.2.1) hkey

theorem cur_joinbss {joinRes : Int} {staOk : Bool} (h : s.LinkInv) (hok : s.LinkOk (.joinbss b joinRes staOk))
    (hsta : (s.rtwJoinbssEventPrehandle b joinRes staOk).Sta) :
    ∃ i, (s.rtwJoinbssEventPrehandle b joinRes staOk).Cur i := by
  revert hsta
  unfold rtwJoinbssEventPrehandle
  split
  · exact h.cur
  split
  · rename_i hres
    split
    · rename_i hlinking
      obtain ⟨hinfra, hrejoin⟩ := hok hlinking hres
      rcases joinbssTarget_spec h hinfra hrejoin with he | ⟨i, t, he, hmem, hmac, hssid, hfixed⟩
      · rw [he]
        exact h.cur
      · rw [he]
        exact fun hsta => ⟨i, .joined hmem hmac hssid hfixed hsta⟩
    · exact h.cur
  · intro hsta
    obtain ⟨i, hi⟩ := h.cur hsta
    exact ⟨i, hi.congr rfl id rfl rfl rfl⟩

theorem LinkInv.next (h : s.LinkInv) (e : ScanEvent) (hok : s.LinkOk e) : (s.next e).LinkInv where
  once := h.once.next e
  cur hsta := by
    cases e with
    | survey pnetwork =>
      have hs : s.Sta := by
        rw [Sta, ← fwState_survey]
        exact hsta
      obtain ⟨i, hi⟩ := h.cur hs
      exact ⟨i, hi.survey h.once (hok hs)⟩
    | createIbss devNetwork => exact absurd (sta_of_createIbss hsta) hok
    | freeNetworkQueue isfreeall =>
      have hs : s.Sta := by
        rw [Sta, ← fwState_freeAll isfreeall s.scannedQueue]
        exact hsta
      obtain ⟨i, hi⟩ := h.cur hs
      exact ⟨i, hi.freeAll isfreeall _⟩
    | freeAssocResources asocStaCount =>
      refine absurd ?_ hok
      rw [Sta, ← fwState_freeAssoc asocStaCount]
      exact hsta
    | indicateDisconnect => exact absurd (linked_disconnect.symm.trans hsta.1) Bool.false_ne_true
    | stadel asocStaCount => exact absurd hsta (not_sta_stadel _)
    | joinTimeout =>
      have hlinked : s.rtwJoinTimeoutHandler.fwState.linked = false := by
        unfold rtwJoinTimeoutHandler freeScanqueue
        rw [fwState_flush, linked_disconnect]
      exact absurd (hlinked.symm.trans hsta.1) Bool.false_ne_true
    | joinbss pnetwork joinRes staOk => exact cur_joinbss h hok hsta
    | stassoc asocStaCount => exact absurd ((station_stassoc _).symm.trans hsta.2) hok
    | selectRoamingCandidate desired =>
      revert hsta
      show (s.rtwSelectRoamingCandidate desired).Sta → ∃ i, (s.rtwSelectRoamingCandidate desired).Cur i
      unfold rtwSelectRoamingCandidate
      split
      · exact h.cur
      split
      · exact h.cur
      · intro hsta
        obtain ⟨i, hi⟩ := h.cur hsta
        exact ⟨i, hi.congr rfl id rfl rfl rfl⟩
    | candidateExist asocStaCount => exact absurd hsta (not_sta_candidateExist _)
    | fwState fw =>
      obtain ⟨i, hi⟩ := h.cur (hok hsta.1 hsta.2)
      exact ⟨i, hi.congr rfl id rfl rfl rfl⟩
    | p2p on =>
      obtain ⟨i, hi⟩ := h.cur hsta
      exact ⟨i, hi.congr rfl id rfl rfl rfl⟩
    | tick ms =>
      obtain ⟨i, hi⟩ := h.cur hsta
      exact ⟨i, hi.congr rfl id rfl rfl rfl⟩

/-- The access point 02:00:00:00:00:n. -/
def apNetwork (n : Nat) : WlanBssidEx where
  macAddress := #v[2, 0, 0, 0, 0, UInt8.ofNat n]
  reserved0 := 1
  ssid := [0x61]
  rssi := -50
  infrastructureMode := .infrastructure
  signalStrength := 50
  signalQuality := 50
  ieLength := 12
  ies i := if i = 10 then 1 else 0

/-- The station joins the first access point. -/
def joinFirst : List ScanEvent :=
  [.survey (apNetwork 0), .fwState { FwState.null with station := true, underLinking := true }, .joinbss (apNetwork 0) 1 true,
    .tick 1]

theorem macAddress_apNetwork {m n : Nat} (hm : m < 256) (hn : n < 256)
    (h : (apNetwork m).macAddress = (apNetwork n).macAddress) : m = n := by
  have hlast : UInt8.ofNat m = UInt8.ofNat n := congrArg (fun v : MacAddr => v.get 5) h
  have hnat := congrArg UInt8.toNat hlast
  rwa [UInt8.toNat_ofNat', UInt8.toNat_ofNat', Nat.mod_eq_of_lt hm, Nat.mod_eq_of_lt hn] at hnat

/-- The entry that is written over was not scanned after any other. -/
theorem oldest_spec (hi : i ∈ s.scannedQueue) :
    ∃ j, s.oldest = some j ∧ ∀ i ∈ s.scannedQueue, (s.networks j).lastScanned ≤ (s.networks i).lastScanned := by
  have hfold : ∀ (is : List Slot) (j : Slot), ∃ k, is.foldl s.older (some j) = some k ∧
      ∀ i ∈ j :: is, (s.networks k).lastScanned ≤ (s.networks i).lastScanned := by
    intro is
    induction is with
    | nil => exact fun j => ⟨j, rfl, by simp⟩
    | cons i is ih =>
      intro j
      have holder : s.older (some j) i = if (s.networks i).lastScanned < (s.networks j).lastScanned then some i else some j :=
        rfl
      rw [List.foldl_cons, holder]
      split
      · rename_i hlt
        obtain ⟨k, hk, hle⟩ := ih i
        have hki := hle i (List.mem_cons_self ..)
        exact ⟨k, hk, List.forall_mem_cons.2 ⟨hki.trans hlt.le, hle⟩⟩
      · rename_i hge
        obtain ⟨k, hk, hle⟩ := ih j
        obtain ⟨hkj, his⟩ := List.forall_mem_cons.1 hle
        exact ⟨k, hk, List.forall_mem_cons.2 ⟨hkj, List.forall_mem_cons.2 ⟨hkj.trans (not_lt.1 hge), his⟩⟩⟩
  cases hscan : s.scannedQueue with
  | nil =>
    rw [hscan] at hi
    cases hi
  | cons j is =>
    unfold oldest
    rw [hscan]
    exact hfold is j

/-- `k` access points have been found: the joined one first, the others later. -/
structure Crowded (s : MlmePriv) (k : Nat) : Prop where
  once : s.Once
  fwState : s.fwState = ⟨true, false, false, true, false⟩
  p2p : s.p2p = false
  now : s.now = 1
  length : s.scannedQueue.length = k
  curMac : s.curNetwork.macAddress = (apNetwork 0).macAddress
  cur : ∃ i, s.curNetworkScanned = some i ∧ i ∈ s.scannedQueue ∧ (s.networks i).lastScanned = 0 ∧
    ∀ j ∈ s.scannedQueue, j ≠ i → (s.networks j).lastScanned = 1
  mac : ∀ j ∈ s.scannedQueue, ∃ n < k, (s.networks j).network.macAddress = (apNetwork n).macAddress

theorem crowded_joinFirst : (Machine.run next rtwInitMlmePriv joinFirst).Crowded 1 where
  once := once_run _
  fwState := by decide +kernel
  p2p := by decide +kernel
  now := by decide +kernel
  length := by decide +kernel
  curMac := by decide +kernel
  cur := ⟨⟨0, by decide⟩, by decide +kernel⟩
  mac := by
    have hmac : ∀ j ∈ (Machine.run next rtwInitMlmePriv joinFirst).scannedQueue,
        ((Machine.run next rtwInitMlmePriv joinFirst).networks j).network.macAddress = (apNetwork 0).macAddress := by
      decide +kernel
    exact fun j hj => ⟨0, Nat.one_pos, hmac j hj⟩

variable {k : Nat}

theorem Crowded.survey_eq (h : s.Crowded k) (hk : k < 256) (hk0 : 0 < k) :
    s.next (.survey (apNetwork k)) = s.rtwUpdateScannedNetwork (apNetwork k) ∧
      s.scannedQueue.find? (s.isTarget (apNetwork k)) = none := by
  constructor
  · have hcur : isSameNetwork s.curNetwork (apNetwork k) false = false := by
      rw [← Bool.not_eq_true, isSameNetwork_iff]
      intro hkey
      have hmac := (congrArg (·.1) hkey).symm.trans h.curMac
      exact hk0.ne' (macAddress_apNetwork hk (by decide) hmac)
    have hmaster : s.fwState.adhocMaster = false := by rw [h.fwState]
    have hlinking : s.fwState.underLinking = false := by rw [h.fwState]
    have hhide : hideSsid (apNetwork k) = apNetwork k := rfl
    simp only [MlmePriv.next, rtwSurveyEventCallback, rtwAddNetwork, updateCurrentNetwork, hmaster, hlinking, hhide, hcur,
      Bool.false_and, Bool.and_false, Bool.false_eq_true, if_false]
  · rw [List.find?_eq_none]
    intro j hj htarget
    obtain ⟨n, hn, hmac⟩ := h.mac j hj
    have hkey := congrArg (·.1) (isTarget_iff.1 htarget)
    have hnk := macAddress_apNetwork (by omega) hk (hmac.symm.trans hkey)
    omega

theorem Crowded.next (h : s.Crowded k) (hk : k < maxBssCnt) (hk0 : 0 < k) :
    (s.next (.survey (apNetwork k))).Crowded (k + 1) := by
  have honce := h.once.next (.survey (apNetwork k))
  obtain ⟨heq, hfind⟩ := h.survey_eq (hk.trans (by decide)) hk0
  rw [heq] at honce ⊢
  unfold rtwUpdateScannedNetwork at *
  rw [hfind] at honce ⊢
  dsimp only at honce ⊢
  cases halloc : s.rtwAllocNetwork with
  | none =>
    have hlen := h.once.length_eq
    rw [rtwAllocNetwork_eq_none halloc, h.length] at hlen
    simp at hlen
    omega
  | some r =>
    obtain ⟨j, t⟩ := r
    rw [halloc] at honce
    obtain ⟨pool, hpool, rfl⟩ := rtwAllocNetwork_eq_some halloc
    dsimp only at honce ⊢
    generalize hu : MlmePriv.insertTail _ j = u at honce ⊢
    have hscan : u.scannedQueue = s.scannedQueue ++ [j] := by rw [← hu]; rfl
    have hother : ∀ i, i ≠ j → u.networks i = s.networks i := fun i hi => by
      rw [← hu]
      exact (Function.update_of_ne hi ..).trans (Function.update_of_ne hi ..)
    have hj : j ∉ s.scannedQueue := fun hmem => h.once.not_mem_pool hmem (hpool ▸ List.mem_cons_self ..)
    have hnew : (u.networks j).network.macAddress = (apNetwork k).macAddress ∧ (u.networks j).lastScanned = 1 := by
      rw [← hu]
      simp only [insertTail, MlmePriv.modify, Function.update_self]
      exact ⟨rfl, h.now⟩
    obtain ⟨i, hcur, hi, hlast, hlater⟩ := h.cur
    have hij : i ≠ j := ne_of_mem_of_not_mem hi hj
    refine ⟨honce, ?_, ?_, ?_, ?_, ?_, ⟨i, ?_, ?_, ?_, ?_⟩, ?_⟩
    · rw [← hu]
      exact h.fwState
    · rw [← hu]
      exact h.p2p
    · rw [← hu]
      exact h.now
    · rw [hscan, List.length_append, h.length]
      rfl
    · rw [← hu]
      exact h.curMac
    · rw [← hu]
      exact hcur
    · rw [hscan]
      exact List.mem_append_left _ hi
    · rw [hother i hij]
      exact hlast
    · intro l hl hli
      by_cases hlj : l = j
      · rw [hlj]
        exact hnew.2
      · rw [hscan, List.mem_append, List.mem_singleton] at hl
        rw [hother l hlj]
        exact hlater l (hl.resolve_right hlj) hli
    · intro l hl
      by_cases hlj : l = j
      · rw [hlj]
        exact ⟨k, Nat.lt_succ_self k, hnew.1⟩
      · rw [hscan, List.mem_append, List.mem_singleton] at hl
        rw [hother l hlj]
        obtain ⟨n, hn, hmac⟩ := h.mac l (hl.resolve_right hlj)
        exact ⟨n, hn.trans (Nat.lt_succ_self k), hmac⟩

/-- The networks that are found before the pool is empty. -/
def crowd (k : Nat) : List ScanEvent := joinFirst ++ (List.range k).map fun n => .survey (apNetwork (n + 1))

theorem run_crowd_succ (k : Nat) : Machine.run next rtwInitMlmePriv (crowd (k + 1)) =
    (Machine.run next rtwInitMlmePriv (crowd k)).next (.survey (apNetwork (k + 1))) := by
  have hcrowd : crowd (k + 1) = crowd k ++ [.survey (apNetwork (k + 1))] := by
    unfold crowd
    rw [List.range_succ, List.map_append, List.append_assoc]
    rfl
  rw [hcrowd, Machine.run_append]
  rfl

theorem crowded_crowd (hk : k < maxBssCnt) : (Machine.run next rtwInitMlmePriv (crowd k)).Crowded (k + 1) := by
  induction k with
  | zero => exact crowded_joinFirst
  | succ k ih =>
    rw [run_crowd_succ]
    exact (ih (Nat.lt_of_succ_lt hk)).next hk (Nat.succ_pos k)

/-- The joined network was scanned before all others, and its entry is written over. -/
theorem Crowded.evict (h : s.Crowded maxBssCnt) :
    (s.next (.survey (apNetwork maxBssCnt))).Sta ∧ ¬ (s.next (.survey (apNetwork maxBssCnt))).CurScanned := by
  obtain ⟨heq, hfind⟩ := h.survey_eq (by decide) (by decide)
  have hpool : s.freeBssPool = [] := by
    have hlen := h.once.length_eq
    rw [h.length] at hlen
    exact List.length_eq_zero_iff.1 (by omega)
  have halloc : s.rtwAllocNetwork = none := by
    unfold rtwAllocNetwork
    rw [hpool]
  obtain ⟨i, hcur, hi, hlast, hlater⟩ := h.cur
  obtain ⟨j, hj, hle⟩ := oldest_spec hi
  have hji : j = i := by
    by_contra hne
    have hone := hlater j (oldest_mem hj) hne
    have hzero := hle i hi
    omega
  subst hji
  rw [heq]
  unfold rtwUpdateScannedNetwork
  rw [hfind, halloc, hj]
  constructor
  · show s.fwState.linked ∧ s.fwState.station
    rw [h.fwState]
    exact ⟨rfl, rfl⟩
  · rintro ⟨l, hl, -, hsame⟩
    have hlj : l = j := Option.some.inj (hl.symm.trans hcur)
    subst hlj
    have hmac := congrArg (·.1) (isSameNetwork_iff.1 hsame)
    simp only [MlmePriv.modify, Function.update_self] at hmac
    exact absurd (macAddress_apNetwork (by decide) (by decide) (h.curMac.symm.trans hmac)) (by decide)

end MlmePriv
end Rtw.Scan
