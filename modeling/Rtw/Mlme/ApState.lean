import Rtw.Mlme.AidInv
import Mathlib.Data.Int.Basic

/-!
# The stations of an access point

`Ap` puts beside the stations of `StaPriv` the rest of `struct sta_info` that the handlers of an access
point keep up: what the station advertised (`StaCap`) and its power save state with the queues (`PsSta`);
and of `struct sta_priv` and `struct mlme_priv` the two bitmaps, the two lists of stations and the
counters of the BSS. `Ap.onAuth` and `Ap.onAssocReq` do to the stations what `onAuth` and `onAssocReq` do
(`Ap.onAuth_pool`, `Ap.onAssocReq_pool`).
-/

namespace Rtw

/-- What a BSS counts its stations by, each kind under the name of its counter `num_sta_…`. -/
inductive BssCapKind where
  | nonErp | noShortPreamble | noShortSlotTime | noHt | htNoGf | ht20mhz | fortyMhzIntolerant
  deriving DecidableEq

/-- What `OnAssocReq` stores of the elements of a request. The flags are bits of `sta_info.flags`. -/
structure StaCap where
  capability : Nat := 0
  bssrateset : List UInt8 := []
  nonerp : Bool := false
  shortPreamble : Bool := false
  wme : Bool := false
  ht : Bool := false
  vht : Bool := false
  /-- `htpriv.ht_cap.cap_info` -/
  htCapInfo : Nat := 0
  qosOption : Bool := false
  qosInfo : Nat := 0
  hasLegacyAc : Bool := false
  uapsdVo : Nat := 0
  uapsdVi : Nat := 0
  uapsdBe : Nat := 0
  uapsdBk : Nat := 0
  deriving DecidableEq

/-- A frame for a station, with the attributes that power save handling reads and writes. -/
structure XmitFrame where
  ra : MacAddr
  psta : StaId
  priority : Nat
  triggered : Bool := false
  mdata : Bool := false
  eosp : Bool := false
  deriving DecidableEq

/-- The queues of `struct sta_xmit_priv`. -/
inductive Ac where
  | bk | be | vi | vo
  deriving DecidableEq

/-- The power save state of a station. There are no more frames than `NR_XMITFRAME`, so of the two
lengths, which are `unsigned int`, only a decrement can wrap. -/
structure PsSta where
  /-- `_FW_LINKED` -/
  linked : Bool := false
  /-- `WIFI_SLEEP_STATE` -/
  sleep : Bool := false
  /-- `WIFI_STA_ALIVE_CHK_STATE` -/
  aliveChk : Bool := false
  sleepQ : List XmitFrame := []
  sleepqLen : Nat := 0
  sleepqAcLen : Nat := 0
  pending : Ac → List XmitFrame := fun _ => []

structure Ap where
  pool : StaPriv
  cap : StaId → StaCap
  /-- The `…_set` marks of a station: what of it the counters count. -/
  capSet : StaId → BssCapKind → Bool
  ps : StaId → PsSta
  staDzBitmap : BitVec 16
  timBitmap : BitVec 16
  authList : List StaId
  asocList : List StaId
  num : BssCapKind → Int

/-- The configuration of the BSS, with `qospriv.qos_option`. -/
structure BssCfg extends ApCfg where
  qosOption : Bool

/-- `BIT(aid)`, cut to the width of the bitmaps. The shift of an `int` by 32, which C leaves undefined, is
0 here. -/
def bit (aid : Nat) : BitVec 16 := 1#16 <<< aid

/-! ### What a request advertises -/

/-- A station counts as `k` by what it advertised last. -/
def StaCap.has (c : StaCap) : BssCapKind → Bool
  | .nonErp => c.nonerp
  | .noShortPreamble => !c.shortPreamble
  | .noShortSlotTime => !c.capability.testBit 10
  | .noHt => !c.ht
  | .htNoGf => c.ht && !c.htCapInfo.testBit 4
  | .ht20mhz => c.ht && !c.htCapInfo.testBit 1
  | .fortyMhzIntolerant => c.ht && c.htCapInfo.testBit 14

/-- The search for a WMM element. Every round gives `rtw_get_ie` the length of all elements. -/
def wmmIeLoop (ies : List UInt8) : Nat → Nat → Option Nat
  | 0, _ => none
  | fuel + 1, p =>
    match rtwGetIe (ies.drop p) 221 ies.length with
    | none => none
    | some (off, ieLen) =>
      let p := p + off
      if (List.range 6).map (fun i => byteAt ies (p + 2 + i)) = [0x00, 0x50, 0xf2, 0x02, 0x00, 0x01] then some p
      else wmmIeLoop ies fuel (p + ieLen + 2)

/-- The check for a WMM element and WMM power save. -/
def StaCap.wmm (cfg : BssCfg) (ies : List UInt8) (c : StaCap) : StaCap :=
  let c := { c with
    wme := false, qosOption := false, qosInfo := 0, hasLegacyAc := true
    uapsdVo := 0, uapsdVi := 0, uapsdBe := 0, uapsdBk := 0 }
  if !cfg.qosOption then c
  else
    match wmmIeLoop ies (ies.length + 1) 0 with
    | none => c
    | some p =>
      let qosInfo := byteAt ies (p + 8)
      let uapsd (bit : Nat) := if qosInfo.testBit bit then 3 else 0
      { c with
        wme := true, qosOption := true, qosInfo
        hasLegacyAc := qosInfo &&& 0xf ≠ 0xf
        uapsdVo := uapsd 0, uapsdVi := uapsd 1, uapsdBk := uapsd 2, uapsdBe := uapsd 3 }

/-- The supported rates and the extended supported rates, `none` without the first. -/
def supportRate (ies : List UInt8) : Option (List UInt8) :=
  let content (p len : Nat) := (List.range len).map fun i => UInt8.ofNat (byteAt ies (p + 2 + i))
  (rtwGetIe ies 1 ies.length).map fun (p, len) =>
    match rtwGetIe ies 50 ies.length with
    | some (q, extLen) => if len ≤ 16 then content p len ++ content q extLen else content p len
    | none => content p len

/-- The pairwise ciphers of the station have TKIP among them. -/
def usesTkip (cfg : ApCfg) (ies : List UInt8) (elems : Elems) : Bool :=
  let tkip (parsed : Option (Nat × Nat)) (cipher : Nat) :=
    parsed.any fun (_, pairwise) => pairwise &&& cipher &&& wpaCipherTkip ≠ 0
  let enabled (bit : Nat) (k : ElemKind) := if cfg.wpaPsk.testBit bit then elems k else none
  match enabled 1 .rsnIe, enabled 0 .wpaIe with
  | some (pos, len), _ => tkip (rtwParseWpa2Ie ies pos len) cfg.wpa2PairwiseCipher
  | none, some (pos, len) => tkip (rtwParseWpaIe ies pos len) cfg.wpaPairwiseCipher
  | none, none => false

/-- Whether there are HT capabilities, and their `cap_info`. -/
def htElem (ies : List UInt8) (elems : Elems) : Bool × Nat :=
  match elems .htCapabilities with
  | some (pos, len) => if len ≥ 26 then (true, byteAt ies pos + 256 * byteAt ies (pos + 1)) else (false, 0)
  | none => (false, 0)

def hasVhtElem (elems : Elems) : Bool :=
  match elems .vhtCapabilities with
  | some (_, len) => decide (len = 12)
  | none => false

/-- The (V)HT part of `OnAssocReq` and what comes behind it; each check that fails ends it early. -/
def StaCap.phy (cfg : ApCfg) (ies : List UInt8) (elems : Elems) (c : StaCap) : StaCap :=
  let ht := (htElem ies elems).1
  let vht := hasVhtElem elems
  let c := { c with ht, htCapInfo := (htElem ies elems).2, wme := c.wme || ht }
  if !cfg.htOption && ht then c
  else
    let c := { c with vht }
    if !cfg.vhtOption && vht then c
    else
      let c := if (ht || vht) && usesTkip cfg ies elems then { c with ht := false, vht := false } else c
      { c with
        nonerp := !c.bssrateset.any fun r => decide (r.toNat % 128 > 22)
        shortPreamble := c.capability.testBit 5 }

/-- What `OnAssocReq` stores of a request, as far as its checks let it come. -/
def assocReqCap (cfg : BssCfg) (f : MgmtFrame) (c : StaCap) : StaCap :=
  let (res, elems) := rtwIeee80211ParseElems f.ies
  let c := { c with capability := byteAt f.body 0 + 256 * byteAt f.body 1 }
  if res = .parseFailed ∨ elems .ssid = none then c
  else if ssidStatus cfg.toApCfg f.ies ≠ statsSuccessful then c
  else
    match supportRate f.ies with
    | none => c
    | some bssrateset =>
      let c := { c with bssrateset }
      let (wpaIe, status) := wpaStatus cfg.toApCfg f.ies elems
      if status ≠ statsSuccessful then c
      else if wpsStatus cfg.toApCfg wpaIe ≠ statsSuccessful then c
      else (c.wmm cfg f.ies).phy cfg.toApCfg f.ies elems

/-- The station whose request `OnAssocReq` looks into. -/
def assocReqSta (cfg : ApCfg) (f : MgmtFrame) (s : StaPriv) : Option StaId :=
  if !cfg.apState then none
  else if f.body.length < f.ieOffset then none
  else (rtwGetStainfo s f.sa).filter fun i => (s.sta i).state.onAssocReq.isSome

namespace Ap

/-- The access point after `start_ap_mode`, with the station for broadcast frames
(`update_bmc_sta`). -/
def start (maxNumSta : Nat) : Ap where
  pool := .start maxNumSta
  cap _ := {}
  capSet _ _ := false
  ps i := { linked := i ∈ (StaPriv.start maxNumSta).staHash }
  staDzBitmap := 0
  timBitmap := 0
  authList := []
  asocList := []
  num _ := 0

def rtwAllocStainfo (a : Ap) (hwaddr : MacAddr) : Option (Ap × StaId) :=
  (Rtw.rtwAllocStainfo a.pool hwaddr).map fun (pool, i) =>
    ({ a with
      pool
      cap := Function.update a.cap i {}
      capSet := Function.update a.capSet i fun _ => false
      ps := Function.update a.ps i {} }, i)

def rtwFreeStainfo (a : Ap) (i : StaId) : Ap :=
  let aid := (a.pool.sta i).aid
  { a with
    pool := Rtw.rtwFreeStainfo a.pool i
    cap := Function.update a.cap i { a.cap i with
      qosInfo := 0, uapsdBk := 0, uapsdBe := 0, uapsdVi := 0, uapsdVo := 0, hasLegacyAc := false }
    ps := Function.update a.ps i { a.ps i with
      linked := false, sleepQ := [], sleepqLen := 0, sleepqAcLen := 0, pending := fun _ => [] }
    authList := a.authList.erase i
    staDzBitmap := a.staDzBitmap &&& ~~~ bit aid
    timBitmap := a.timBitmap &&& ~~~ bit aid }

/-! ### The counters -/

/-- `if (!psta->…_set) { psta->…_set = 1; pmlmepriv->num_sta_…++; }` -/
def setKind (a : Ap) (i : StaId) (k : BssCapKind) : Ap :=
  if !a.capSet i k then
    { a with
      capSet := Function.update a.capSet i (Function.update (a.capSet i) k true)
      num := Function.update a.num k (a.num k + 1) }
  else a

/-- `if (psta->…_set) { psta->…_set = 0; pmlmepriv->num_sta_…--; }` -/
def clearKind (a : Ap) (i : StaId) (k : BssCapKind) : Ap :=
  if a.capSet i k then
    { a with
      capSet := Function.update a.capSet i (Function.update (a.capSet i) k false)
      num := Function.update a.num k (a.num k - 1) }
  else a

def bssCapUpdateOnStaJoin (a : Ap) (i : StaId) : Ap :=
  let c := a.cap i
  let a := if !c.shortPreamble then a.setKind i .noShortPreamble else a.clearKind i .noShortPreamble
  let a := if c.nonerp then a.setKind i .nonErp else a.clearKind i .nonErp
  let a := if !c.capability.testBit 10 then a.setKind i .noShortSlotTime else a.clearKind i .noShortSlotTime
  if c.ht then
    let a := a.clearKind i .noHt
    -- a capability that the station had and has no more is not taken back
    let a := if !c.htCapInfo.testBit 4 then a.setKind i .htNoGf else a
    let a := if !c.htCapInfo.testBit 1 then a.setKind i .ht20mhz else a
    if c.htCapInfo.testBit 14 then a.setKind i .fortyMhzIntolerant else a
  else a.setKind i .noHt

def bssCapUpdateOnStaLeave (a : Ap) (i : StaId) : Ap :=
  let a := a.clearKind i .noShortPreamble
  let a := a.clearKind i .nonErp
  let a := a.clearKind i .noShortSlotTime
  let a := a.clearKind i .htNoGf
  let a := a.clearKind i .noHt
  let a := a.clearKind i .ht20mhz
  a.clearKind i .fortyMhzIntolerant

/-! ### The handlers -/

def apFreeSta (a : Ap) (i : StaId) : Ap :=
  let a := { a with ps := Function.update a.ps i { a.ps i with linked := false } }
  (a.bssCapUpdateOnStaLeave i).rtwFreeStainfo i

def onAuth (cfg : ApCfg) (f : MgmtFrame) (a : Ap) : Ap :=
  if !cfg.apState then a
  else if (f.authAlg > 0 ∧ authMode cfg = 0) ∨ (f.authAlg = 0 ∧ authMode cfg = 1) then a
  else if !rtwAccessCtrl cfg.aclList f.sa then a
  else
    let found : Option (Ap × StaId) :=
      match rtwGetStainfo a.pool f.sa with
      | some i => some ({ a with asocList := a.asocList.erase i }, i)
      | none =>
        (a.rtwAllocStainfo f.sa).map fun (a, i) =>
          ({ a with pool := a.pool.modify i fun p => { p with state := { authNull := true }, authSeq := 0 } }, i)
    match found with
    | none => a
    | some (a, i) =>
      let a := { a with authList := if i ∈ a.authList then a.authList else a.authList ++ [i] }
      match authStep cfg f.authAlg f.authSeq f.body (a.pool.sta i) with
      | .error _ => a.rtwFreeStainfo i
      | .ok p => { a with pool := a.pool.modify i fun _ => p }

/-- The station moves from `auth_list` to `asoc_list`. -/
def toAsocList (a : Ap) (i : StaId) : Ap :=
  { a with
    authList := a.authList.erase i
    asocList := if i ∈ a.asocList then a.asocList else a.asocList ++ [i] }

def staInfoUpdate (cfg : BssCfg) (a : Ap) (i : StaId) : Ap :=
  let c := a.cap i
  { a with
    cap := Function.update a.cap i { c with qosOption := (c.wme && cfg.qosOption) || c.ht }
    ps := Function.update a.ps i { a.ps i with linked := true } }

def onAssocReq (cfg : BssCfg) (f : MgmtFrame) (a : Ap) : Ap :=
  match assocReqSta cfg.toApCfg f a.pool with
  | none => a
  | some i =>
    let (pool, ok, _) := Rtw.onAssocReq cfg.toApCfg f a.pool
    let a := { a with pool, cap := Function.update a.cap i (assocReqCap cfg f (a.cap i)) }
    if ok then ((a.toAsocList i).bssCapUpdateOnStaJoin i).staInfoUpdate cfg i else a

/-- `expire_timeout_chk` for a station of `auth_list` whose time is over. -/
def authExpire (a : Ap) (i : StaId) : Ap :=
  if i ∈ a.authList then { a with authList := a.authList.erase i }.rtwFreeStainfo i else a

/-- `expire_timeout_chk` for a station of `asoc_list` whose time is over, and `rtw_sta_flush` for one
station. -/
def asocExpire (a : Ap) (i : StaId) : Ap :=
  if i ∈ a.asocList then { a with asocList := a.asocList.erase i }.apFreeSta i else a

/-- `OnDeAuth` and `OnDisassoc` -/
def onDeAuth (a : Ap) (sa : MacAddr) : Ap :=
  match rtwGetStainfo a.pool sa with
  | none => a
  | some i => a.asocExpire i

end Ap

/-! ### What the handlers do to the stations -/

section
variable {s t : StaPriv} {i j : StaId} {cfg : ApCfg} {f : MgmtFrame} {p q : StaInfo} {addr : MacAddr}

theorem rtwGetStainfo_isMcast (h : rtwGetStainfo s addr = some i) :
    (s.sta i).hwaddr.isMcast = addr.isMcast := by
  have haddr : (s.sta i).hwaddr = if addr.isMcast then bcAddr else addr := by
    simpa using List.find?_some h
  rw [haddr]
  cases hm : addr.isMcast
  · rw [if_neg (by simp), hm]
  · rw [if_pos rfl]
    decide

theorem rtwFreeStainfo_hwaddr : ((rtwFreeStainfo s i).sta j).hwaddr = (s.sta j).hwaddr := by
  unfold rtwFreeStainfo
  dsimp only
  split
  · split
    · rcases eq_or_ne j i with rfl | hj
      · simp [StaPriv.modify]
      · simp [StaPriv.modify, hj]
    · rfl
  · rfl

theorem authStep_hwaddr {algorithm seq : Nat} {body : List UInt8}
    (h : authStep cfg algorithm seq body p = .ok q) : q.hwaddr = p.hwaddr := by
  unfold authStep at h
  dsimp only at h
  split at h
  · cases h
  split at h
  · split at h
    · cases h; rfl
    · cases h
  split at h
  · cases h; rfl
  split at h
  · cases hc : challengeMatches body p.chgTxt with
    | error e => rw [hc] at h; cases h
    | ok u => rw [hc] at h; cases h; rfl
  · cases h

/-- The same entries are in use, with the same addresses. -/
structure SameEntries (s t : StaPriv) : Prop where
  staHash : t.staHash = s.staHash
  freeStaQueue : t.freeStaQueue = s.freeStaQueue
  hwaddr : ∀ i, (t.sta i).hwaddr = (s.sta i).hwaddr

theorem SameEntries.refl (s : StaPriv) : SameEntries s s := ⟨rfl, rfl, fun _ => rfl⟩

theorem SameEntries.trans {u : StaPriv} (h : SameEntries s t) (h' : SameEntries t u) : SameEntries s u :=
  ⟨h'.staHash.trans h.staHash, h'.freeStaQueue.trans h.freeStaQueue, fun i => (h'.hwaddr i).trans (h.hwaddr i)⟩

theorem SameEntries.modify {g : StaInfo → StaInfo} (hg : (g (s.sta i)).hwaddr = (s.sta i).hwaddr) :
    SameEntries s (s.modify i g) := by
  refine ⟨rfl, rfl, fun j => ?_⟩
  rcases eq_or_ne j i with rfl | hj
  · rw [StaPriv.modify_sta_self, hg]
  · rw [StaPriv.modify_sta_of_ne hj]

theorem getUniqueAid_entries (h : getUniqueAid s i = some t) : SameEntries s t := by
  rcases getUniqueAid_cases h with ⟨-, rfl⟩ | ⟨-, ⟨k, -, -, rfl⟩ | ⟨-, rfl⟩⟩
  · exact .refl _
  · obtain ⟨h1, h2, h3⟩ := SameEntries.modify (s := s) (i := i) (g := fun p => { p with aid := k + 1 }) rfl
    exact ⟨h1, h2, h3⟩
  · exact .modify rfl

theorem onAssocReq_entries (cfg : ApCfg) (f : MgmtFrame) (s : StaPriv) :
    SameEntries s (onAssocReq cfg f s).1 := by
  rcases onAssocReq_cases cfg f s with he | ⟨i, st, t, -, -, rfl, ⟨-, he⟩ | ⟨u, hu, he⟩⟩
  · rw [he]
    exact .refl s
  · rw [he]
    exact .trans (.modify rfl) (.modify rfl)
  · rw [he]
    exact .trans (.modify rfl) (.trans (getUniqueAid_entries hu) (.modify rfl))

/-- The request passes every check, and there is an AID for the station. -/
def Accepts (cfg : ApCfg) (f : MgmtFrame) (s : StaPriv) (i : StaId) : Prop :=
  assocReqStatus cfg f.ies = statsSuccessful ∧ getUniqueAid s i ≠ none

instance : Decidable (Accepts cfg f s i) :=
  decidable_of_iff (assocReqStatus cfg f.ies = statsSuccessful ∧ (getUniqueAid s i).isSome) (by
    rw [Accepts, Option.isSome_iff_ne_none])

theorem getUniqueAid_modify_state {g : StaInfo → StaInfo} (hg : (g (s.sta i)).aid = (s.sta i).aid) :
    getUniqueAid (s.modify i g) i = none ↔ getUniqueAid s i = none := by
  unfold getUniqueAid
  rw [StaPriv.modify_sta_self, hg, StaPriv.modify_staAid, StaPriv.modify_maxNumSta]
  split
  · exact iff_of_false (by simp) (by simp)
  · split
    · split <;> simp
    · exact iff_of_false (by simp) (by simp)

/-- A request that is looked into ends in one of two ways. -/
theorem onAssocReq_of_sta (h : assocReqSta cfg f s = some i) :
    rtwGetStainfo s f.sa = some i ∧ ∃ st t, (s.sta i).state.onAssocReq = some st ∧
      t = s.modify i (fun p => { p with state := st }) ∧
      (¬ Accepts cfg f s i ∧ (onAssocReq cfg f s).2.1 = false ∧
          (onAssocReq cfg f s).1 = t.modify i (fun p => { p with aid := 0 }) ∨
        Accepts cfg f s i ∧ (onAssocReq cfg f s).2.1 = true ∧ ∃ u, getUniqueAid t i = some u ∧
          (onAssocReq cfg f s).1 =
            u.modify i fun p => { p with state := { p.state with assocState := false, assocSuccess := true } }) := by
  unfold assocReqSta at h
  split at h
  · cases h
  rename_i hap
  split at h
  · cases h
  rename_i hlen
  obtain ⟨hi, hst⟩ := Option.filter_eq_some_iff.1 h
  obtain ⟨st, hst⟩ := Option.isSome_iff_exists.1 hst
  refine ⟨hi, st, _, hst, rfl, ?_⟩
  unfold onAssocReq
  dsimp only
  rw [if_neg hap, if_neg hlen, hi]
  dsimp only
  rw [hst]
  dsimp only
  split
  · rename_i hstatus
    exact .inl ⟨fun hacc => hstatus hacc.1, rfl, rfl⟩
  rename_i hstatus
  have hnone := getUniqueAid_modify_state (s := s) (i := i) (g := fun p => { p with state := st }) rfl
  split
  · rename_i hg
    exact .inl ⟨fun hacc => hacc.2 (hnone.1 hg), rfl, rfl⟩
  · rename_i u hg
    refine .inr ⟨⟨by simpa using hstatus, fun hn => ?_⟩, rfl, u, hg, rfl⟩
    rw [hnone.2 hn] at hg
    cases hg

theorem onAssocReq_of_sta_none (h : assocReqSta cfg f s = none) : (onAssocReq cfg f s).1 = s := by
  rcases onAssocReq_cases cfg f s with he | ⟨i, st, t, hi, hst, -, -⟩
  · exact he
  · unfold assocReqSta at h
    unfold onAssocReq
    dsimp only
    split
    · rfl
    rename_i hap
    split
    · rfl
    rename_i hlen
    rw [if_neg hap, if_neg hlen, hi, Option.filter_some, if_pos (by rw [hst]; rfl)] at h
    cases h

end

namespace Ap
variable {a b c : Ap} {i j : StaId} {k l : BssCapKind} {f : MgmtFrame} {addr : MacAddr}

/-- Nothing but the counters and the marks of the stations changes. -/
def OnlyCounts (a b : Ap) : Prop := b = { a with capSet := b.capSet, num := b.num }

theorem OnlyCounts.trans (h : OnlyCounts a b) (h' : OnlyCounts b c) : OnlyCounts a c := by
  unfold OnlyCounts at h h' ⊢
  rw [h'.trans (by rw [h])]

theorem onlyCounts_setKind (a : Ap) (i : StaId) (k : BssCapKind) : OnlyCounts a (a.setKind i k) := by
  unfold setKind
  split <;> rfl

theorem onlyCounts_clearKind (a : Ap) (i : StaId) (k : BssCapKind) : OnlyCounts a (a.clearKind i k) := by
  unfold clearKind
  split <;> rfl

theorem onlyCounts_update (p : Prop) [Decidable p] (a : Ap) (i : StaId) (k : BssCapKind) :
    OnlyCounts a (if p then a.setKind i k else a.clearKind i k) := by
  split
  · exact onlyCounts_setKind a i k
  · exact onlyCounts_clearKind a i k

theorem onlyCounts_setIf (p : Prop) [Decidable p] (a : Ap) (i : StaId) (k : BssCapKind) :
    OnlyCounts a (if p then a.setKind i k else a) := by
  split
  · exact onlyCounts_setKind a i k
  · rfl

theorem onlyCounts_join (a : Ap) (i : StaId) : OnlyCounts a (a.bssCapUpdateOnStaJoin i) := by
  unfold bssCapUpdateOnStaJoin
  dsimp only
  split
  · refine .trans (.trans (.trans (.trans ?_ (onlyCounts_clearKind ..)) (onlyCounts_setIf ..)) (onlyCounts_setIf ..))
      (onlyCounts_setIf ..)
    exact .trans (.trans (onlyCounts_update ..) (onlyCounts_update ..)) (onlyCounts_update ..)
  · refine .trans ?_ (onlyCounts_setKind ..)
    exact .trans (.trans (onlyCounts_update ..) (onlyCounts_update ..)) (onlyCounts_update ..)

theorem onlyCounts_leave (a : Ap) (i : StaId) : OnlyCounts a (a.bssCapUpdateOnStaLeave i) := by
  unfold bssCapUpdateOnStaLeave
  dsimp only
  iterate 6 refine .trans ?_ (onlyCounts_clearKind ..)
  exact onlyCounts_clearKind ..

/-- `b` is `a` with the station that sent `f` on `auth_list`, found or new. -/
def Found (f : MgmtFrame) (a b : Ap) (i : StaId) : Prop :=
  ∃ c, (rtwGetStainfo a.pool f.sa = some i ∧ c = { a with asocList := a.asocList.erase i } ∨
      rtwGetStainfo a.pool f.sa = none ∧ ∃ d, a.rtwAllocStainfo f.sa = some (d, i) ∧
        c = { d with pool := d.pool.modify i fun p => { p with state := { authNull := true }, authSeq := 0 } }) ∧
    b = { c with authList := if i ∈ c.authList then c.authList else c.authList ++ [i] }

/-- `OnAuth` looks at the sequence number of the frame, that is, it does not reject it before. -/
def AuthConsidered (cfg : ApCfg) (f : MgmtFrame) : Prop :=
  cfg.apState ∧ ¬ ((f.authAlg > 0 ∧ authMode cfg = 0) ∨ (f.authAlg = 0 ∧ authMode cfg = 1)) ∧
    rtwAccessCtrl cfg.aclList f.sa

instance (cfg : ApCfg) (f : MgmtFrame) : Decidable (AuthConsidered cfg f) :=
  inferInstanceAs (Decidable (_ ∧ _ ∧ _))

theorem onAuth_cases (cfg : ApCfg) (f : MgmtFrame) (a : Ap) :
    a.onAuth cfg f = a ∨
    ∃ b i, Found f a b i ∧ AuthConsidered cfg f ∧
      ((∃ e, authStep cfg f.authAlg f.authSeq f.body (b.pool.sta i) = .error e ∧
          a.onAuth cfg f = b.rtwFreeStainfo i) ∨
        ∃ p, authStep cfg f.authAlg f.authSeq f.body (b.pool.sta i) = .ok p ∧
          a.onAuth cfg f = { b with pool := b.pool.modify i fun _ => p }) := by
  unfold onAuth
  dsimp only
  split
  · exact .inl rfl
  rename_i hap
  split
  · exact .inl rfl
  rename_i halg
  split
  · exact .inl rfl
  rename_i hacl
  split
  · exact .inl rfl
  rename_i c i hfound
  refine .inr ⟨_, i, ⟨c, ?_, rfl⟩, ⟨by simpa using hap, halg, by simpa using hacl⟩, ?_⟩
  · split at hfound
    · rename_i j hj
      obtain ⟨rfl, rfl⟩ := Prod.mk.inj (Option.some.inj hfound)
      exact .inl ⟨hj, rfl⟩
    · rename_i hnone
      obtain ⟨⟨d, j⟩, hd, hm⟩ := Option.map_eq_some_iff.1 hfound
      obtain ⟨rfl, rfl⟩ := Prod.mk.inj hm
      exact .inr ⟨hnone, d, hd, rfl⟩
  · dsimp only
    split
    · rename_i e he
      exact .inl ⟨e, he, rfl⟩
    · rename_i p hp
      exact .inr ⟨p, hp, rfl⟩

theorem rtwAllocStainfo_eq_some (h : a.rtwAllocStainfo addr = some (b, i)) :
    ∃ pool, Rtw.rtwAllocStainfo a.pool addr = some (pool, i) ∧ b = { a with
      pool
      cap := Function.update a.cap i {}
      capSet := Function.update a.capSet i fun _ => false
      ps := Function.update a.ps i {} } := by
  obtain ⟨⟨pool, j⟩, hp, hm⟩ := Option.map_eq_some_iff.1 h
  obtain ⟨rfl, rfl⟩ := Prod.mk.inj hm
  exact ⟨pool, hp, rfl⟩

theorem onAuth_pool (cfg : ApCfg) (f : MgmtFrame) (a : Ap) :
    (a.onAuth cfg f).pool = (Rtw.onAuth cfg f a.pool).1 := by
  unfold onAuth Rtw.onAuth rtwAllocStainfo
  dsimp only
  rw [← MgmtFrame.authAlg, ← MgmtFrame.authSeq]
  split
  · rfl
  split
  · rfl
  split
  · rfl
  cases hg : rtwGetStainfo a.pool f.sa with
  | some i =>
    dsimp only
    generalize authStep cfg _ _ _ _ = res
    cases res <;> rfl
  | none =>
    cases ha : Rtw.rtwAllocStainfo a.pool f.sa with
    | none => rfl
    | some r =>
      dsimp only [Option.map_some]
      generalize authStep cfg _ _ _ _ = res
      cases res <;> rfl

theorem onAssocReq_pool (cfg : BssCfg) (f : MgmtFrame) (a : Ap) :
    (a.onAssocReq cfg f).pool = (Rtw.onAssocReq cfg.toApCfg f a.pool).1 := by
  unfold onAssocReq
  split
  · rename_i h
    exact (onAssocReq_of_sta_none h).symm
  · dsimp only
    split
    · exact congrArg Ap.pool (onlyCounts_join _ _)
    · rfl

end Ap

end Rtw
