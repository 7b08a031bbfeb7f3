import Mathlib.Data.List.Nodup
import Mathlib.Data.List.FinRange
import Rtw.Lib.Run
import Rtw.Scan.ScanQueue

/-!
# The entries of the scan table are conserved

Every entry is in `free_bss_pool` or in `scanned_queue`, whatever happens. `num_of_scanned` counts the
latter as long as no entry is freed twice, which `rtw_free_assoc_resources` does for an ad-hoc master.
-/

namespace Rtw.Scan

namespace MlmePriv

/-- Each entry is in one of the two lists, and `num_of_scanned` is the length of `scanned_queue`. -/
structure Conserved (s : MlmePriv) : Prop where
  once : ∀ i, s.freeBssPool.count i + s.scannedQueue.count i = 1
  num : s.numOfScanned.toNat = s.scannedQueue.length

/-- `rtw_free_assoc_resources` frees the entry of the current network twice. -/
def FreesTwice (s : MlmePriv) (asocStaCount : Nat) : Prop :=
  s.fwState.adhocMaster ∧ asocStaCount = 1 ∧ s.rtwFindSameNetwork s.curNetwork ≠ none

/-- A call of `rtw_free_assoc_resources` in the step, if there is one, has the property `P`. -/
def FreeAssoc (P : MlmePriv → Nat → Prop) (s : MlmePriv) : ScanEvent → Prop
  | .freeAssocResources asocStaCount => P s asocStaCount
  | .stadel asocStaCount => s.fwState.station → P s asocStaCount
  | .candidateExist asocStaCount => s.fwState.linked → P s.rtwIndicateDisconnect asocStaCount
  | _ => True

/-- The step frees no entry twice. -/
def FreeOk (s : MlmePriv) (e : ScanEvent) : Prop := FreeAssoc (fun s asocStaCount => ¬ s.FreesTwice asocStaCount) s e

variable {s t : MlmePriv} {i j : Slot} {I : MlmePriv → Prop} {asocStaCount : Nat}

/-! ### The lists -/

/-- Each entry is in one of the two lists. -/
def Once (s : MlmePriv) : Prop := ∀ i, s.freeBssPool.count i + s.scannedQueue.count i = 1

theorem Once.congr (h : s.Once) (hfree : t.freeBssPool = s.freeBssPool) (hscan : t.scannedQueue = s.scannedQueue) :
    t.Once := fun i => by
  rw [hfree, hscan]
  exact h i

theorem Once.nodup (h : s.Once) : s.scannedQueue.Nodup :=
  List.nodup_iff_count_le_one.2 fun i => (Nat.le_add_left ..).trans (h i).le

theorem Once.not_mem_pool (h : s.Once) (hi : i ∈ s.scannedQueue) : i ∉ s.freeBssPool := fun hp => by
  have hc := h i
  have hscan := List.count_pos_iff.2 hi
  have hfree := List.count_pos_iff.2 hp
  omega

/-- An entry goes to the pool from wherever it is. -/
theorem Once.toPool (h : s.Once) (i : Slot) : (s.toPool i).Once := fun j => by
  have hj := h j
  show (s.freeBssPool.erase i ++ [i]).count j + (s.scannedQueue.erase i).count j = 1
  rw [List.count_append, List.count_erase, List.count_erase, List.count_singleton]
  by_cases hij : i = j
  · subst hij
    simp only [beq_self_eq_true, if_true]
    omega
  · simp only [beq_iff_eq, hij, if_false]
    omega

theorem rtwAllocNetwork_eq_some (h : s.rtwAllocNetwork = some (i, t)) :
    ∃ pool, s.freeBssPool = i :: pool ∧
      t = MlmePriv.modify { s with freeBssPool := pool, numOfScanned := s.numOfScanned + 1 } i fun n =>
        { n with fixed := false, lastScanned := s.now } := by
  unfold rtwAllocNetwork at h
  split at h
  · cases h
  · rename_i j pool hpool
    cases h
    exact ⟨pool, hpool, rfl⟩

theorem rtwAllocNetwork_eq_none (h : s.rtwAllocNetwork = none) : s.freeBssPool = [] := by
  unfold rtwAllocNetwork at h
  split at h
  · assumption
  · cases h

theorem Once.alloc (h : s.Once) (ht : s.rtwAllocNetwork = some (i, t)) : (t.insertTail i).Once := fun j => by
  obtain ⟨pool, hpool, rfl⟩ := rtwAllocNetwork_eq_some ht
  have hj := h j
  rw [hpool, List.count_cons] at hj
  show pool.count j + (s.scannedQueue ++ [i]).count j = 1
  rw [List.count_append, List.count_singleton]
  omega

theorem Once.length_eq (h : s.Once) : s.freeBssPool.length + s.scannedQueue.length = maxBssCnt := by
  have hperm : (s.freeBssPool ++ s.scannedQueue).Perm (List.finRange maxBssCnt) := List.perm_iff_count.2 fun i => by
    rw [List.count_append, h i, List.count_eq_one_of_mem (List.nodup_finRange _) (List.mem_finRange i)]
  rw [← List.length_append, hperm.length_eq, List.length_finRange]

/-! ### The counter -/

/-- The number of entries in `scanned_queue`, as an `u32`. -/
def Counted (s : MlmePriv) : Prop := s.numOfScanned = BitVec.ofNat 32 s.scannedQueue.length

structure PoolInv (s : MlmePriv) : Prop where
  once : s.Once
  counted : s.Counted

theorem PoolInv.conserved (h : s.PoolInv) : s.Conserved where
  once := h.once
  num := by
    have hlen := h.once.length_eq
    unfold maxBssCnt at hlen
    rw [h.counted, BitVec.toNat_ofNat, Nat.mod_eq_of_lt (by omega)]

/-! ### What the routines do -/

/-- An invariant of the two lists and the counter: an entry may be allocated and put at the end of
`scanned_queue`, and one of `scanned_queue` may go to the pool. -/
structure PoolRules (I : MlmePriv → Prop) : Prop where
  once : ∀ {s}, I s → s.Once
  congr : ∀ {s t}, I s → t.freeBssPool = s.freeBssPool → t.scannedQueue = s.scannedQueue →
    t.numOfScanned = s.numOfScanned → I t
  toPool : ∀ {s i}, I s → i ∈ s.scannedQueue → I (s.toPool i)
  alloc : ∀ {s t i}, I s → s.rtwAllocNetwork = some (i, t) → I (t.insertTail i)

theorem poolRules_once : PoolRules Once where
  once h := h
  congr h hfree hscan _ := h.congr hfree hscan
  toPool h _ := h.toPool _
  alloc h ht := h.alloc ht

theorem poolRules_poolInv : PoolRules PoolInv where
  once h := h.once
  congr := by
    intro s t h hfree hscan hnum
    refine ⟨h.once.congr hfree hscan, ?_⟩
    unfold Counted
    rw [hscan, hnum]
    exact h.counted
  toPool := by
    intro s i h hi
    refine ⟨h.once.toPool i, ?_⟩
    show s.numOfScanned - 1 = BitVec.ofNat 32 (s.scannedQueue.erase i).length
    have hpos := List.length_pos_of_mem hi
    have hlen := h.once.length_eq
    have hone : (1 : BitVec 32).toNat = 1 := rfl
    unfold maxBssCnt at hlen
    rw [h.counted, List.length_erase_of_mem hi]
    apply BitVec.eq_of_toNat_eq
    simp only [BitVec.toNat_sub, BitVec.toNat_ofNat, hone]
    omega
  alloc := by
    intro s t i h ht
    refine ⟨h.once.alloc ht, ?_⟩
    obtain ⟨pool, -, rfl⟩ := rtwAllocNetwork_eq_some ht
    show s.numOfScanned + 1 = BitVec.ofNat 32 (s.scannedQueue ++ [i]).length
    rw [h.counted, List.length_append, BitVec.ofNat_add]
    rfl

theorem mem_of_findNetwork {addr : MacAddr} (h : s.rtwFindNetwork addr = some i) : i ∈ s.scannedQueue := by
  unfold rtwFindNetwork at h
  split at h
  · cases h
  · exact List.mem_of_find?_eq_some h

theorem mem_of_findSameNetwork {b : WlanBssidEx} (h : s.rtwFindSameNetwork b = some i) : i ∈ s.scannedQueue :=
  List.mem_of_find?_eq_some h

theorem mac_of_findNetwork {addr : MacAddr} (h : s.rtwFindNetwork addr = some i) :
    addr = (s.networks i).network.macAddress := by
  unfold rtwFindNetwork at h
  split at h
  · cases h
  · exact of_decide_eq_true (List.find?_some (p := fun i => decide (addr = (s.networks i).network.macAddress)) h)

theorem key_of_findSameNetwork {b : WlanBssidEx} (h : s.rtwFindSameNetwork b = some i) :
    b.key = (s.networks i).network.key :=
  isSameNetwork_iff.1 (List.find?_some (p := fun i => isSameNetwork b (s.networks i).network false) h)

/-- A free routine leaves the table alone or puts the entry into the pool. -/
theorem rtwFreeNetwork_cases (s : MlmePriv) (isfreeall : Bool) (i : Slot) :
    s.rtwFreeNetwork isfreeall i = s ∨ (s.networks i).fixed = false ∧ s.rtwFreeNetwork isfreeall i = s.toPool i := by
  unfold rtwFreeNetwork
  dsimp only
  generalize (if s.fwState.adhocMaster || s.fwState.adhoc then 1 else scanqueueLifetime) = lifetime
  split
  · exact .inl rfl
  rename_i hfixed
  rw [Bool.not_eq_true] at hfixed
  split
  · exact .inl rfl
  · exact .inr ⟨hfixed, rfl⟩

theorem freeCurrent_eq (s : MlmePriv) (i : Slot) : s.freeCurrent i = (s.setFixed i false).toPool i := by
  have hfixed : ((s.setFixed i false).networks i).fixed = false := by
    simp [setFixed, MlmePriv.modify]
  unfold freeCurrent rtwFreeNetworkNolock
  rw [hfixed]
  rfl

/-- The second call takes the entry out of the pool again. -/
theorem Once.freeAssoc (h : s.Once) (asocStaCount : Nat) : (s.rtwFreeAssocResources asocStaCount).Once := by
  unfold rtwFreeAssocResources
  split
  · exact h
  rename_i i hi
  have honce : (s.freeCurrent i).Once := by
    rw [freeCurrent_eq]
    exact (h.congr (t := s.setFixed i false) rfl rfl).toPool i
  dsimp only
  split
  · unfold rtwFreeNetworkNolock
    split
    · exact honce
    · exact honce.toPool i
  · exact honce

namespace PoolRules
variable (R : PoolRules I)
include R

theorem modify (h : I s) (i : Slot) (f : WlanNetwork → WlanNetwork) : I (s.modify i f) := R.congr h rfl rfl rfl

theorem freeCurrent (h : I s) (hi : i ∈ s.scannedQueue) : I (s.freeCurrent i) := by
  rw [freeCurrent_eq]
  exact R.toPool (R.modify h i _) hi

theorem freeAll (isfreeall : Bool) {is : List Slot} (h : I s) (hnd : is.Nodup) (his : ∀ i ∈ is, i ∈ s.scannedQueue) :
    I (is.foldl (fun s i => s.rtwFreeNetwork isfreeall i) s) := by
  induction is generalizing s with
  | nil => exact h
  | cons i is ih =>
    obtain ⟨hi, hnd⟩ := List.nodup_cons.1 hnd
    rw [List.forall_mem_cons] at his
    rw [List.foldl_cons]
    rcases rtwFreeNetwork_cases s isfreeall i with he | ⟨-, he⟩
    · rw [he]
      exact ih h hnd his.2
    · rw [he]
      refine ih (R.toPool h his.1) hnd fun j hj => ?_
      exact (List.mem_erase_of_ne (ne_of_mem_of_not_mem hj hi)).2 (his.2 j hj)

theorem flush {is : List Slot} (h : I s) (hnd : is.Nodup) (his : ∀ i ∈ is, i ∈ s.scannedQueue) :
    I (is.foldl MlmePriv.toPool s) := by
  induction is generalizing s with
  | nil => exact h
  | cons i is ih =>
    obtain ⟨hi, hnd⟩ := List.nodup_cons.1 hnd
    rw [List.forall_mem_cons] at his
    refine ih (R.toPool h his.1) hnd fun j hj => ?_
    exact (List.mem_erase_of_ne (ne_of_mem_of_not_mem hj hi)).2 (his.2 j hj)

theorem updateScanned (h : I s) (target : WlanBssidEx) : I (s.rtwUpdateScannedNetwork target) := by
  unfold rtwUpdateScannedNetwork
  split
  · exact R.modify h _ _
  split
  · split
    · exact h
    · exact R.modify h _ _
  · rename_i i t ht
    exact R.congr (R.alloc h ht) rfl rfl rfl

theorem updateCurrent (h : I s) (target : WlanBssidEx) : I (s.updateCurrentNetwork target) := by
  unfold updateCurrentNetwork
  split
  · exact R.congr h rfl rfl rfl
  · exact h

theorem addNetwork (h : I s) (target : WlanBssidEx) : I (s.rtwAddNetwork target) := by
  unfold rtwAddNetwork
  split
  · exact h
  · exact R.updateScanned (R.updateCurrent h _) _

theorem survey (h : I s) (target : WlanBssidEx) : I (s.rtwSurveyEventCallback target) := by
  unfold rtwSurveyEventCallback
  split
  · have hcur : I { s with curNetwork := copyTimestamp target s.curNetwork } := R.congr h rfl rfl rfl
    dsimp only
    split
    · exact R.modify hcur _ _
    · exact R.addNetwork hcur target
  · exact R.addNetwork h target

theorem createIbss (h : I s) (dev : WlanBssidEx) : I (s.rtwCreateIbssPostHdl dev) := by
  unfold rtwCreateIbssPostHdl
  dsimp only
  split
  · rename_i i t ht
    exact R.congr (R.alloc h ht) rfl rfl rfl
  split
  · exact h
  · exact R.congr h rfl rfl rfl

theorem disconnect (h : I s) : I s.rtwIndicateDisconnect := by
  unfold rtwIndicateDisconnect
  dsimp only
  split <;> exact R.congr h rfl rfl rfl

theorem freeByAddr (h : I s) : I s.freeByAddr := by
  unfold MlmePriv.freeByAddr
  split
  · exact h
  · rename_i hi
    exact R.freeCurrent h (mem_of_findNetwork hi)

theorem freeAssoc (h : I s) (hok : ¬ s.FreesTwice asocStaCount) : I (s.rtwFreeAssocResources asocStaCount) := by
  unfold rtwFreeAssocResources
  split
  · exact h
  rename_i i hi
  have hfw : (s.freeCurrent i).fwState = s.fwState := by
    rw [freeCurrent_eq]
    rfl
  dsimp only
  rw [hfw]
  have htwice : ¬ (s.fwState.adhocMaster && asocStaCount == 1) = true := by
    rw [Bool.and_eq_true, beq_iff_eq]
    rintro ⟨hmaster, hcount⟩
    refine hok ⟨hmaster, hcount, ?_⟩
    rw [hi]
    exact Option.some_ne_none i
  rw [if_neg htwice]
  exact R.freeCurrent h (mem_of_findSameNetwork hi)

theorem stadel (h : I s) (hfree : s.fwState.station → I (s.rtwFreeAssocResources asocStaCount)) :
    I (s.rtwStadelEventCallback asocStaCount) := by
  unfold rtwStadelEventCallback
  dsimp only
  generalize ht : (if s.fwState.station = true then _ else s) = t
  have hinv : I t := by
    rw [← ht]
    split
    · rename_i hst
      exact R.freeByAddr (R.disconnect (hfree hst))
    · exact h
  split
  · split
    · exact R.congr (R.freeByAddr hinv) rfl rfl rfl
    · exact R.freeByAddr hinv
  · exact hinv

theorem fixTarget (h : I s) (target : Option Slot) : I (s.fixTarget target) := by
  unfold MlmePriv.fixTarget
  split
  · split
    · exact R.modify h _ _
    · exact h
  · exact h

theorem unfixCurrent (h : I s) : I s.unfixCurrent := by
  unfold MlmePriv.unfixCurrent
  split
  · exact R.modify h _ _
  · exact h

theorem joinbss (h : I s) (pnetwork : WlanBssidEx) (joinRes : Int) (staOk : Bool) :
    I (s.rtwJoinbssEventPrehandle pnetwork joinRes staOk) := by
  have htarget : I (s.joinbssTarget pnetwork).2 := by
    unfold joinbssTarget
    dsimp only
    split
    · split
      · exact h
      · exact R.fixTarget (R.unfixCurrent h) _
    · exact R.fixTarget h _
  unfold rtwJoinbssEventPrehandle
  split
  · exact h
  split
  · split
    · generalize s.joinbssTarget pnetwork = r at htarget ⊢
      obtain ⟨target, t⟩ := r
      cases target with
      | none => exact htarget
      | some i =>
        unfold joined
        dsimp only
        split <;> exact R.congr htarget rfl rfl rfl
    · exact h
  · exact R.congr h rfl rfl rfl

theorem stassoc (h : I s) (asocStaCount : Nat) : I (s.rtwStassocEventCallback asocStaCount) := by
  unfold rtwStassocEventCallback
  dsimp only
  split
  · split <;> exact R.congr h rfl rfl rfl
  · exact h

theorem selectRoaming (h : I s) (desired : WlanBssidEx → Bool) : I (s.rtwSelectRoamingCandidate desired) := by
  unfold rtwSelectRoamingCandidate
  split
  · exact h
  split
  · exact h
  · exact R.congr h rfl rfl rfl

theorem candidateExist (h : I s)
    (hfree : s.fwState.linked → I (s.rtwIndicateDisconnect.rtwFreeAssocResources asocStaCount)) :
    I (s.candidateExist asocStaCount) := by
  unfold MlmePriv.candidateExist
  dsimp only
  split
  · rename_i hlinked
    exact R.congr (hfree hlinked) rfl rfl rfl
  · exact R.congr h rfl rfl rfl

theorem next (h : I s) (e : ScanEvent)
    (hfree : FreeAssoc (fun s asocStaCount => I (s.rtwFreeAssocResources asocStaCount)) s e) :
    I (s.next e) := by
  cases e with
  | survey pnetwork => exact R.survey h pnetwork
  | createIbss devNetwork => exact R.createIbss h devNetwork
  | freeNetworkQueue isfreeall => exact R.freeAll isfreeall h (R.once h).nodup fun _ hi => hi
  | freeAssocResources asocStaCount => exact hfree
  | indicateDisconnect => exact R.disconnect h
  | stadel asocStaCount => exact R.stadel h hfree
  | joinTimeout => exact R.flush (R.disconnect h) (R.once (R.disconnect h)).nodup fun _ hi => hi
  | joinbss pnetwork joinRes staOk => exact R.joinbss h pnetwork joinRes staOk
  | stassoc asocStaCount => exact R.stassoc h asocStaCount
  | selectRoamingCandidate desired => exact R.selectRoaming h desired
  | candidateExist asocStaCount => exact R.candidateExist h hfree
  | fwState fw => exact R.congr h rfl rfl rfl
  | p2p on => exact R.congr h rfl rfl rfl
  | tick ms => exact R.congr h rfl rfl rfl

end PoolRules

/-- Each entry stays in one of the two lists, whatever happens. -/
theorem Once.next (h : s.Once) (e : ScanEvent) : (s.next e).Once := by
  refine poolRules_once.next h e ?_
  cases e with
  | freeAssocResources asocStaCount => exact h.freeAssoc asocStaCount
  | stadel asocStaCount => exact fun _ => h.freeAssoc asocStaCount
  | candidateExist asocStaCount => exact fun _ => (poolRules_once.disconnect h).freeAssoc asocStaCount
  | _ => trivial

theorem once_run (evs : List ScanEvent) : (Machine.run MlmePriv.next rtwInitMlmePriv evs).Once := by
  refine Machine.run_invariant (I := Once) (fun _ e h => h.next e) (fun i => ?_) evs
  show (List.finRange maxBssCnt).count i + 0 = 1
  rw [List.count_eq_one_of_mem (List.nodup_finRange _) (List.mem_finRange i)]

theorem PoolInv.next (h : s.PoolInv) (e : ScanEvent) (hok : s.FreeOk e) : (s.next e).PoolInv := by
  refine poolRules_poolInv.next h e ?_
  cases e with
  | freeAssocResources asocStaCount => exact poolRules_poolInv.freeAssoc h hok
  | stadel asocStaCount => exact fun hst => poolRules_poolInv.freeAssoc h (hok hst)
  | candidateExist asocStaCount => exact fun hl => poolRules_poolInv.freeAssoc (poolRules_poolInv.disconnect h) (hok hl)
  | _ => trivial

theorem PoolInv.init : rtwInitMlmePriv.PoolInv where
  once := once_run []
  counted := rfl

/-- In every run in which `rtw_free_assoc_resources` frees no entry twice, the entries are conserved. -/
theorem conserved_run (evs : List ScanEvent) (hok : Machine.RunOk next FreeOk rtwInitMlmePriv evs) :
    (Machine.run next rtwInitMlmePriv evs).Conserved :=
  have hinv : (Machine.run next rtwInitMlmePriv evs).PoolInv :=
    Machine.run_invariant_of_ok (I := PoolInv) (fun _ e h hok => h.next e hok) .init hok
  hinv.conserved

/-- An ad-hoc network on the address 02:11:87:00:00:01. -/
def ibssNetwork : WlanBssidEx where
  macAddress := #v[0x02, 0x11, 0x87, 0, 0, 1]
  reserved0 := 0
  ssid := [0x61]
  rssi := -50
  infrastructureMode := .ibss
  signalStrength := 50
  signalQuality := 50
  ieLength := 12
  ies i := if i = 10 then 2 else 0

theorem conserved_run_ibss :
    (Machine.run next rtwInitMlmePriv
      [.survey ibssNetwork, .fwState { FwState.null with adhoc := true }, .createIbss ibssNetwork, .freeAssocResources 1,
        .joinTimeout]).Conserved :=
  conserved_run _ ⟨trivial, trivial, trivial, fun h => Bool.false_ne_true h.1, trivial, trivial⟩

/-- The master of an ad-hoc network leaves it: `num_of_scanned` goes from 1 to 2^32 - 1. -/
theorem not_conserved_adhocMaster :
    ¬ (Machine.run next rtwInitMlmePriv
      [.fwState { FwState.null with adhocMaster := true }, .createIbss ibssNetwork, .freeAssocResources 1]).Conserved := by
  intro h
  have hnum := h.num
  revert hnum
  decide +kernel

end MlmePriv

end Rtw.Scan
