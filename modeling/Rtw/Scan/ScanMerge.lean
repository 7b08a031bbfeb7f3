import Rtw.Lib.Latest
import Rtw.Scan.ScanPool

/-!
# One entry for each network

Frames come in and the scan table keeps what they say. No two entries are of the same network, if P2P is not
switched on over two entries of one device; and the elements of an entry are those of the latest frame of the
highest kind, if no entry begins with a probe request and is then met by anything but a probe response.
-/

namespace Rtw.Scan
open MlmePriv (hideSsid resetQuality updateIe)

/-! ### What a frame says -/

/-- A frame that `OnBeacon`, `OnProbeRsp` or `OnProbeReq` reports. A probe request has been found to have a
name, a rate and a P2P element. -/
structure ScanFrame extends SurveyFrame where
  subtype_ne : subtype ≠ .other
  length_of_probeReq : subtype = .probeReq → 10 < body.length

/-- A probe response outranks a beacon, and a beacon outranks a probe request. -/
def ScanFrame.rank (f : ScanFrame) : Nat :=
  match f.subtype with
  | .probeRsp => 3
  | .beacon => 2
  | .probeReq => 1
  | .other => 0

variable {operCh : Nat} {a b : WlanBssidEx} {f : ScanFrame} {p2p : Bool}

theorem elems_ofBody (body : List UInt8) : ((List.range body.length).map fun i => (body[i]?).getD 0) = body := by
  refine List.ext_getElem (by simp) fun i hi hi' => ?_
  simp [hi']

theorem collectBssInfo_spec (h : collectBssInfo operCh f.toSurveyFrame = some b) :
    b.reserved0 = f.subtype.reserved0 ∧ b.elems = f.body ∧ 10 < b.ieLength := by
  unfold collectBssInfo at h
  split at h
  · cases h
  split at h
  · cases h
  split at h
  · cases h
  split at h
  · cases h
  dsimp only at h
  split at h
  · rename_i hreq
    cases h
    exact ⟨rfl, elems_ofBody f.body, f.length_of_probeReq hreq⟩
  split at h
  · cases h
  · rename_i hlen
    have hlt : 10 < f.body.length := by omega
    cases h
    split <;> split <;> exact ⟨rfl, elems_ofBody f.body, hlt⟩

theorem elems_congr (hlen : a.ieLength = b.ieLength) (hies : ∀ i, i < b.ieLength → a.ies i = b.ies i) :
    a.elems = b.elems := by
  unfold WlanBssidEx.elems
  rw [hlen]
  exact List.map_congr_left fun i hi => hies i (List.mem_range.1 hi)

theorem elems_copyTo : (a.copyTo b).elems = a.elems := elems_congr rfl fun _ hi => if_pos hi

/-! ### Which network it is -/

/-- What tells two networks apart: with P2P, the address alone. -/
def WlanBssidEx.netKey (p2p : Bool) (b : WlanBssidEx) : MacAddr × Option (List UInt8 × Nat × Nat) :=
  (b.macAddress, if p2p then none else some b.key.2)

theorem isSameNetwork_iff_netKey : isSameNetwork a b p2p = true ↔ a.netKey p2p = b.netKey p2p := by
  cases p2p
  · rw [isSameNetwork_iff]
    simp only [WlanBssidEx.netKey, WlanBssidEx.key, Bool.false_eq_true, if_false, Prod.mk.injEq, Option.some.injEq]
  · rw [isSameNetwork_p2p_iff]
    simp only [WlanBssidEx.netKey, if_true, Prod.mk.injEq, and_true]

theorem netKey_of_false (h : a.netKey false = b.netKey false) : a.netKey p2p = b.netKey p2p := by
  cases p2p
  · exact h
  · exact Prod.ext (congrArg (·.1) h) rfl

theorem capability_and (b : WlanBssidEx) {n : Nat} (hn : n < 256) : b.rtwGetCapability &&& n = (b.ies 10).toNat &&& n := by
  have hlt : (b.ies 10).toNat < 2 ^ 8 := (b.ies 10).toNat_lt
  refine Nat.eq_of_testBit_eq fun i => ?_
  rw [Nat.testBit_and, Nat.testBit_and, WlanBssidEx.rtwGetCapability, Nat.add_comm,
    show (256 : Nat) = 2 ^ 8 from rfl, Nat.testBit_two_pow_mul_add _ hlt]
  split
  · rfl
  · rename_i hi
    have hni : n.testBit i = false :=
      Nat.testBit_lt_two_pow (hn.trans_le (Nat.pow_le_pow_right (Nat.le_succ 1) (Nat.le_of_not_lt hi)))
    rw [hni, Bool.and_false, Bool.and_false]

theorem key_congr (hmac : a.macAddress = b.macAddress) (hssid : a.ssid = b.ssid) (hcap : a.ies 10 = b.ies 10) :
    a.key = b.key := by
  simp only [WlanBssidEx.key, capability_and _ (show wlanCapabilityIbss < 256 by decide),
    capability_and _ (show wlanCapabilityBss < 256 by decide), hmac, hssid, hcap]

theorem netKey_congr (hmac : a.macAddress = b.macAddress) (hssid : a.ssid = b.ssid) (hcap : a.ies 10 = b.ies 10) :
    a.netKey p2p = b.netKey p2p := by
  rw [WlanBssidEx.netKey, WlanBssidEx.netKey, key_congr hmac hssid hcap, hmac]

theorem netKey_copyTo (ha : 10 < a.ieLength) : (a.copyTo b).netKey p2p = a.netKey p2p := netKey_congr rfl rfl (if_pos ha)

namespace MlmePriv

variable {s t : MlmePriv} {i j : Slot} {ie : Bool}

theorem elems_updateNetwork : (s.updateNetwork a b ie).elems = if ie then b.elems else a.elems := by
  cases ie
  · rfl
  · exact elems_copyTo

theorem reserved0_updateNetwork : (s.updateNetwork a b ie).reserved0 = if ie then b.reserved0 else a.reserved0 := by
  cases ie <;> rfl

theorem netKey_updateNetwork (hb : 10 < b.ieLength) :
    (s.updateNetwork a b ie).netKey p2p = if ie then b.netKey p2p else a.netKey p2p := by
  cases ie
  · exact netKey_congr rfl rfl rfl
  · exact (netKey_congr rfl rfl rfl : _ = (b.copyTo a).netKey p2p).trans (netKey_copyTo hb)

theorem isTarget_iff : s.isTarget b i = true ↔ (s.networks i).network.netKey s.p2p = b.netKey s.p2p := by
  unfold isTarget
  rw [Bool.or_eq_true, isSameNetwork_iff_netKey]
  constructor
  · rintro (h | h)
    · rw [Bool.and_eq_true, decide_eq_true_eq] at h
      rw [h.1, ← isSameNetwork_iff_netKey, isSameNetwork_p2p_iff]
      exact h.2
    · exact h
  · exact .inr

theorem oldest_mem (h : s.oldest = some i) : i ∈ s.scannedQueue := by
  have hfold : ∀ (is : List Slot) (o : Option Slot), is.foldl s.older o = some i → o = some i ∨ i ∈ is := by
    intro is
    induction is with
    | nil => exact fun o h => .inl h
    | cons j is ih =>
      intro o h
      rcases ih _ h with h | h
      · unfold older at h
        split at h
        · cases h
          exact .inr (List.mem_cons_self ..)
        split at h
        · cases h
          exact .inr (List.mem_cons_self ..)
        · exact .inl h
      · exact .inr (List.mem_cons_of_mem _ h)
  exact (hfold _ _ h).resolve_left (Option.some_ne_none i).symm

end MlmePriv

/-! ### Runs of frames -/

/-- The scan table, and for each entry the frames that came in for it since it was created. -/
structure Heard where
  mlme : MlmePriv
  heard : Slot → List ScanFrame

/-- An event: a frame comes in on the channel `operCh`, P2P is switched, time passes. -/
inductive FrameEvent where
  | frame (operCh : Nat) (f : ScanFrame)
  | p2p (on : Bool)
  | tick (ms : Nat)

/-- The network is the own one of an ad-hoc master, which takes nothing but the timestamp. -/
def MlmePriv.TakesTimestamp (s : MlmePriv) (b : WlanBssidEx) : Prop :=
  s.fwState.adhocMaster ∧ s.curNetwork.macAddress = b.macAddress ∧ s.rtwFindNetwork b.macAddress ≠ none

instance (s : MlmePriv) (b : WlanBssidEx) : Decidable (s.TakesTimestamp b) := inferInstanceAs (Decidable (_ ∧ _ ∧ _))

/-- What `rtw_update_scanned_network` does with the frame: it goes to an entry, or begins one. -/
def MlmePriv.hear (s : MlmePriv) (b : WlanBssidEx) (f : ScanFrame) (heard : Slot → List ScanFrame) :
    Slot → List ScanFrame :=
  match s.scannedQueue.find? (s.isTarget b) with
  | some i => Function.update heard i (heard i ++ [f])
  | none =>
    match s.freeBssPool with
    | i :: _ => Function.update heard i [f]
    | [] =>
      match s.oldest with
      | some i => Function.update heard i [f]
      | none => heard

/-- `OnProbeReq` reports nothing when P2P is off. -/
def MlmePriv.reports (s : MlmePriv) (f : ScanFrame) : Bool := f.subtype ≠ .probeReq || s.p2p

def Heard.next (h : Heard) : FrameEvent → Heard
  | .frame operCh f =>
    if h.mlme.reports f then
      match collectBssInfo operCh f.toSurveyFrame with
      | none => h
      | some b =>
        { mlme := h.mlme.next (.survey b)
          heard := if h.mlme.TakesTimestamp b ∨ h.mlme.fwState.underLinking then h.heard
            else h.mlme.hear (hideSsid b) f h.heard }
    else h
  | .p2p on => { h with mlme := h.mlme.next (.p2p on) }
  | .tick ms => { h with mlme := h.mlme.next (.tick ms) }

/-- Nothing has been scanned; the rest of the state may be anything. -/
def Heard.start (fw : FwState) (cur : WlanBssidEx) : Heard where
  mlme := { rtwInitMlmePriv with fwState := fw, curNetwork := cur }
  heard _ := []

/-- No two entries are of the same network, and each keeps the elements of the latest of its highest-ranked
frames. -/
structure Heard.Merged (h : Heard) : Prop where
  distinct : ∀ i ∈ h.mlme.scannedQueue, ∀ j ∈ h.mlme.scannedQueue, i ≠ j →
    ¬ isSameNetwork (h.mlme.networks i).network (h.mlme.networks j).network h.mlme.p2p
  latest : ∀ i ∈ h.mlme.scannedQueue, ∃ f, IsLatest ScanFrame.rank f (h.heard i) ∧
    (h.mlme.networks i).network.elems = f.body

/-- An entry that a probe request has created gets a probe response next; the master of an ad-hoc network does
not hear itself; and P2P is switched on when no two entries have the same address. -/
def Heard.MergeOk (h : Heard) : FrameEvent → Prop
  | .frame operCh f => ∀ b ∈ collectBssInfo operCh f.toSurveyFrame,
    ¬ h.mlme.TakesTimestamp b ∧
      ∀ i ∈ h.mlme.scannedQueue.find? (h.mlme.isTarget (hideSsid b)),
        (h.mlme.networks i).network.reserved0 = 2 → f.subtype = .probeRsp
  | .p2p on => on → ∀ i ∈ h.mlme.scannedQueue, ∀ j ∈ h.mlme.scannedQueue, i ≠ j →
    (h.mlme.networks i).network.macAddress ≠ (h.mlme.networks j).network.macAddress
  | .tick _ => True

instance (h : Heard) (e : FrameEvent) : Decidable (h.MergeOk e) :=
  match e with
  | .frame operCh f => @Option.decidableForallMem _ _ (fun b =>
    have : Decidable (∀ i ∈ h.mlme.scannedQueue.find? (h.mlme.isTarget (hideSsid b)),
        (h.mlme.networks i).network.reserved0 = 2 → f.subtype = .probeRsp) :=
      @Option.decidableForallMem _ _ (fun _ => inferInstance) _
    inferInstanceAs (Decidable (_ ∧ _))) (collectBssInfo operCh f.toSurveyFrame)
  | .p2p on => inferInstanceAs (Decidable (on = true → _))
  | .tick _ => .isTrue trivial

/-- The invariant of such runs. -/
structure MergeInv (s : MlmePriv) (heard : Slot → List ScanFrame) : Prop where
  pool : s.PoolInv
  keys : Set.InjOn (fun i => (s.networks i).network.netKey s.p2p) {i | i ∈ s.scannedQueue}
  latest : ∀ i ∈ s.scannedQueue, ∃ f, IsLatest ScanFrame.rank f (heard i) ∧
    (s.networks i).network.elems = f.body ∧ (s.networks i).network.reserved0 = f.subtype.reserved0

/-- The network that a frame describes. -/
structure Describes (b : WlanBssidEx) (f : ScanFrame) : Prop where
  reserved0 : b.reserved0 = f.subtype.reserved0
  elems : b.elems = f.body
  lt : 10 < b.ieLength

variable {s t : MlmePriv} {i j : Slot} {heard : Slot → List ScanFrame} {h : Heard} {g : ScanFrame}

theorem Describes.hide (h : Describes b f) : Describes (hideSsid b) f := by
  unfold hideSsid
  split <;> exact ⟨h.reserved0, h.elems, h.lt⟩

theorem MergeInv.merged {h : Heard} (hinv : MergeInv h.mlme h.heard) : h.Merged where
  distinct i hi j hj hij hsame := hij (hinv.keys hi hj (isSameNetwork_iff_netKey.1 hsame))
  latest i hi := by
    obtain ⟨f, hf, helems, -⟩ := hinv.latest i hi
    exact ⟨f, hf, helems⟩

theorem MergeInv.replace (h : MergeInv s heard) (hb : Describes b f) (ht : t.PoolInv) (hp2p : t.p2p = s.p2p)
    (hscan : ∀ j, j ∈ t.scannedQueue → j = i ∨ j ∈ s.scannedQueue) (hne : ∀ j, j ≠ i → t.networks j = s.networks j)
    (hi : (t.networks i).network = resetQuality (b.copyTo (s.networks i).network))
    (hnew : ∀ j ∈ s.scannedQueue, ¬ s.isTarget b j) : MergeInv t (Function.update heard i [f]) where
  pool := ht
  keys := by
    have hkey : (t.networks i).network.netKey s.p2p = b.netKey s.p2p := by
      rw [hi, ← netKey_copyTo hb.lt]
      unfold resetQuality
      split <;> exact netKey_congr rfl rfl rfl
    have hupd : (fun j => (t.networks j).network.netKey t.p2p) =
        Function.update (fun j => (s.networks j).network.netKey s.p2p) i (b.netKey s.p2p) := by
      funext j
      by_cases hj : j = i
      · rw [hj, Function.update_self, hp2p, hkey]
      · rw [Function.update_of_ne hj, hne j hj, hp2p]
    rw [hupd]
    refine (injOn_update h.keys fun j hj _ he => hnew j hj ?_).mono fun j hj => hscan j hj
    exact MlmePriv.isTarget_iff.2 he
  latest j hj := by
    by_cases hji : j = i
    · subst hji
      rw [Function.update_self, hi]
      refine ⟨f, .singleton _ f, ?_⟩
      unfold resetQuality
      split <;> exact ⟨elems_copyTo.trans hb.elems, hb.reserved0⟩
    · rw [Function.update_of_ne hji, hne j hji]
      exact h.latest j ((hscan j hj).resolve_left hji)

/-- The marker of the kinds orders them as it should, but for entries from probe requests. -/
theorem updateIe_iff (ha : a.reserved0 = g.subtype.reserved0) (hb : b.reserved0 = f.subtype.reserved0)
    (hok : a.reserved0 = 2 → f.subtype = .probeRsp) :
    updateIe a b = true ∧ g.rank ≤ f.rank ∨ updateIe a b = false ∧ f.rank < g.rank := by
  unfold updateIe
  unfold ScanFrame.rank
  rw [ha] at hok ⊢
  rw [hb]
  have hg := g.subtype_ne
  have hf := f.subtype_ne
  revert hok hg hf
  cases g.subtype <;> cases f.subtype <;> decide

theorem MergeInv.update (h : MergeInv s heard) (hb : Describes b f) (hi : i ∈ s.scannedQueue) (htarget : s.isTarget b i)
    (hok : (s.networks i).network.reserved0 = 2 → f.subtype = .probeRsp) :
    MergeInv (s.modify i fun n =>
      { n with lastScanned := s.now, network := s.updateNetwork n.network b (updateIe n.network b) })
      (Function.update heard i (heard i ++ [f])) where
  pool := MlmePriv.poolRules_poolInv.modify h.pool i _
  keys := by
    have hkey : (fun j => ((s.modify i fun n =>
        { n with lastScanned := s.now, network := s.updateNetwork n.network b (updateIe n.network b) }).networks j).network.netKey
          s.p2p) = fun j => (s.networks j).network.netKey s.p2p := by
      funext j
      by_cases hj : j = i
      · subst hj
        simp only [MlmePriv.modify, Function.update_self]
        rw [MlmePriv.netKey_updateNetwork hb.lt, ← MlmePriv.isTarget_iff.1 htarget, ite_self]
      · simp only [MlmePriv.modify, Function.update_of_ne hj]
    intro j hj j' hj' he
    refine h.keys hj hj' ?_
    rw [← hkey]
    exact he
  latest j hj := by
    by_cases hji : j = i
    · subst hji
      obtain ⟨g, hg, helems, hres⟩ := h.latest j hi
      simp only [MlmePriv.modify, Function.update_self, MlmePriv.elems_updateNetwork, MlmePriv.reserved0_updateNetwork]
      rcases updateIe_iff hres hb.reserved0 hok with ⟨hie, hrank⟩ | ⟨hie, hrank⟩
      · rw [hie]
        exact ⟨f, hg.replace hrank, hb.elems, hb.reserved0⟩
      · rw [hie]
        exact ⟨g, hg.keep hrank, helems, hres⟩
    · simp only [MlmePriv.modify, Function.update_of_ne hji]
      exact h.latest j hj

theorem MergeInv.updateScanned (h : MergeInv s heard) (hb : Describes b f)
    (hok : ∀ i, s.scannedQueue.find? (s.isTarget b) = some i →
      (s.networks i).network.reserved0 = 2 → f.subtype = .probeRsp) :
    MergeInv (s.rtwUpdateScannedNetwork b) (s.hear b f heard) := by
  have hpool := MlmePriv.poolRules_poolInv.updateScanned h.pool b
  unfold MlmePriv.rtwUpdateScannedNetwork MlmePriv.hear at *
  cases hfind : s.scannedQueue.find? (s.isTarget b) with
  | some i => exact h.update hb (List.mem_of_find?_eq_some hfind) (List.find?_some hfind) (hok i hfind)
  | none =>
    have hnew : ∀ j ∈ s.scannedQueue, ¬ s.isTarget b j := List.find?_eq_none.1 hfind
    rw [hfind] at hpool
    dsimp only at hpool ⊢
    cases halloc : s.rtwAllocNetwork with
    | some r =>
      obtain ⟨i, t⟩ := r
      rw [halloc] at hpool
      obtain ⟨pool, hfree, rfl⟩ := MlmePriv.rtwAllocNetwork_eq_some halloc
      rw [hfree]
      refine h.replace hb hpool rfl (fun j hj => ?_) (fun j hj => ?_) ?_ hnew
      · exact (List.mem_append.1 hj).symm.imp List.mem_singleton.1 id
      · exact (Function.update_of_ne hj ..).trans (Function.update_of_ne hj ..)
      · simp only [MlmePriv.insertTail, MlmePriv.modify, Function.update_self]
    | none =>
      rw [halloc] at hpool
      rw [MlmePriv.rtwAllocNetwork_eq_none halloc]
      dsimp only at hpool ⊢
      cases hold : s.oldest with
      | some i =>
        rw [hold] at hpool
        refine h.replace hb hpool rfl (fun j hj => .inr hj) (fun j hj => Function.update_of_ne hj ..) ?_ hnew
        simp only [MlmePriv.modify, Function.update_self]
      | none => exact h

theorem MergeInv.congr (h : MergeInv s heard) (ht : t.PoolInv) (hscan : t.scannedQueue = s.scannedQueue)
    (hnet : t.networks = s.networks) (hp2p : t.p2p = s.p2p) : MergeInv t heard where
  pool := ht
  keys := by
    rw [hscan, hnet, hp2p]
    exact h.keys
  latest := by
    rw [hscan, hnet]
    exact h.latest

theorem MergeInv.updateCurrent (h : MergeInv s heard) (b : WlanBssidEx) : MergeInv (s.updateCurrentNetwork b) heard := by
  have hpool := MlmePriv.poolRules_poolInv.updateCurrent h.pool b
  unfold MlmePriv.updateCurrentNetwork at *
  split
  · exact h.congr (by simpa [*] using hpool) rfl rfl rfl
  · exact h

theorem hear_updateCurrentNetwork : (s.updateCurrentNetwork a).hear b f heard = s.hear b f heard := by
  unfold MlmePriv.updateCurrentNetwork
  split <;> rfl

theorem MergeInv.addNetwork (h : MergeInv s heard) (hb : Describes b f)
    (hok : ∀ i, s.scannedQueue.find? (s.isTarget (hideSsid b)) = some i →
      (s.networks i).network.reserved0 = 2 → f.subtype = .probeRsp) :
    MergeInv (s.rtwAddNetwork b) (if s.fwState.underLinking then heard else s.hear (hideSsid b) f heard) := by
  unfold MlmePriv.rtwAddNetwork
  split
  · exact h
  · rw [← hear_updateCurrentNetwork (a := hideSsid b)]
    refine (h.updateCurrent _).updateScanned hb.hide ?_
    unfold MlmePriv.updateCurrentNetwork
    split <;> exact hok

theorem MergeInv.survey (h : MergeInv s heard) (hb : Describes b f) (hown : ¬ s.TakesTimestamp b)
    (hok : ∀ i, s.scannedQueue.find? (s.isTarget (hideSsid b)) = some i →
      (s.networks i).network.reserved0 = 2 → f.subtype = .probeRsp) :
    MergeInv (s.rtwSurveyEventCallback b)
      (if s.TakesTimestamp b ∨ s.fwState.underLinking then heard else s.hear (hideSsid b) f heard) := by
  simp only [hown, false_or]
  unfold MlmePriv.rtwSurveyEventCallback
  split
  · rename_i hmaster
    rw [Bool.and_eq_true, decide_eq_true_eq] at hmaster
    have hfind : s.rtwFindNetwork b.macAddress = none := by
      by_contra hne
      exact hown ⟨hmaster.1, hmaster.2, hne⟩
    have hcur : MergeInv { s with curNetwork := MlmePriv.copyTimestamp b s.curNetwork } heard :=
      h.congr (MlmePriv.poolRules_poolInv.congr h.pool rfl rfl rfl) rfl rfl rfl
    have hfind' : MlmePriv.rtwFindNetwork { s with curNetwork := MlmePriv.copyTimestamp b s.curNetwork } b.macAddress =
        none := hfind
    dsimp only
    rw [hfind']
    exact hcur.addNetwork hb hok
  · exact h.addNetwork hb hok

theorem MergeInv.next (hinv : MergeInv h.mlme h.heard) (e : FrameEvent) (hok : h.MergeOk e) :
    MergeInv (h.next e).mlme (h.next e).heard := by
  cases e with
  | frame operCh f =>
    unfold Heard.next
    dsimp only
    split
    · cases hb : collectBssInfo operCh f.toSurveyFrame with
      | none => exact hinv
      | some b =>
        obtain ⟨hres, helems, hlt⟩ := collectBssInfo_spec hb
        obtain ⟨hown, hentry⟩ := hok b hb
        exact hinv.survey ⟨hres, helems, hlt⟩ hown hentry
    · exact hinv
  | p2p on =>
    refine ⟨MlmePriv.poolRules_poolInv.congr hinv.pool rfl rfl rfl, fun i hi j hj he => ?_, hinv.latest⟩
    by_contra hij
    cases on with
    | true => exact hok rfl i hi j hj hij (congrArg Prod.fst he)
    | false =>
      exact hij (hinv.keys hi hj (netKey_of_false he))
  | tick ms => exact hinv.congr (MlmePriv.poolRules_poolInv.congr hinv.pool rfl rfl rfl) rfl rfl rfl

theorem MergeInv.start (fw : FwState) (cur : WlanBssidEx) :
    MergeInv (Heard.start fw cur).mlme (Heard.start fw cur).heard where
  pool := MlmePriv.poolRules_poolInv.congr MlmePriv.PoolInv.init rfl rfl rfl
  keys _ hi := nomatch hi
  latest _ hi := nomatch hi

/-- The device 02:00:00:00:01:01 sends an unnamed frame. -/
def unnamed (subtype : MgntSubtype) (hne : subtype ≠ .other) (ies : List UInt8) (hlen : 10 < ies.length) : ScanFrame where
  subtype
  addr2 := #v[2, 0, 0, 0, 1, 1]
  addr3 := #v[2, 0, 0, 0, 1, 1]
  body := ies
  recvSignalPower := -50
  signalQuality := 50
  signalStrength := 50
  subtype_ne := hne
  length_of_probeReq _ := hlen

/-- A P2P probe request. -/
def p2pProbeReq : ScanFrame :=
  unnamed .probeReq (by decide) [0, 0, 1, 1, 0x8c, 221, 4, 0x50, 0x6f, 0x9a, 9] (by decide)

def unnamedBeacon : ScanFrame :=
  unnamed .beacon (by decide) [0, 0, 0, 0, 0, 0, 0, 0, 100, 0, 1, 0, 0, 0, 1, 1, 0x8c] (by decide)

def unnamedProbeRsp : ScanFrame :=
  unnamed .probeRsp (by decide) [9, 0, 0, 0, 0, 0, 0, 0, 100, 0, 1, 0, 0, 0, 1, 1, 0x8c] (by decide)

end Rtw.Scan
