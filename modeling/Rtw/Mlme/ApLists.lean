import Rtw.Xmit.PowerSave

/-!
# Station lists, ageing and protected management frames

`MlmeAp` puts beside `Ap` what the handlers of an access point keep up besides: the counters of the two
lists, the time that a station has left on its list, and, for a build with `CONFIG_IEEE80211W`, whether its
pairwise key is installed. In such a build `OnAuth` and `OnAssocReq` leave out the moves between the lists
and the state changes of a station with a key or an association. The flag `w` of the handlers is the
build; without it they do to the stations what the handlers of `Ap` do (`MlmeAp.onAuth_toAp`,
`MlmeAp.onAssocReq_toAp`).
-/

namespace Rtw

def nrXmitframe : Nat := 256

/-- What `OnAssocReq` stores of the security elements and of the (V)HT elements of a request. -/
structure StaAssoc where
  dot8021xalg : Nat := 0
  wpaPsk : Nat := 0
  wpaGroupCipher : Nat := 0
  wpa2GroupCipher : Nat := 0
  wpaPairwiseCipher : Nat := 0
  wpa2PairwiseCipher : Nat := 0
  wpaIe : List UInt8 := .replicate 32 0
  wps : Bool := false
  maybeWps : Bool := false
  htCap : List UInt8 := .replicate 26 0
  vhtCap : List UInt8 := .replicate 12 0
  vhtOpModeNotify : Nat := 0
  deriving DecidableEq

/-- What says whether a station is still there. -/
structure StaAge where
  expireTo : UInt32 := 0
  keepAliveTrycnt : UInt8 := 0
  underExistChecking : Bool := false
  deriving DecidableEq

/-- The aggregation state of a station, as far as `expire_timeout_chk` uses it. -/
structure StaBa where
  htOption : Bool := false
  ampduEnable : Bool := false
  aggEnableBitmap : UInt8 := 0
  candidateTidBitmap : UInt8 := 0
  deriving DecidableEq

structure MlmeAp extends Ap where
  assoc : StaId → StaAssoc
  bpairwiseKeyInstalled : StaId → Bool
  age : StaId → StaAge
  ba : StaId → StaBa
  rxMgmtFrameSeqNum : StaId → Nat
  authListCnt : UInt8
  asocListCnt : UInt8

/-- The timeouts of `struct sta_priv`. -/
structure StaTimeouts where
  authTo : UInt32
  assocTo : UInt32
  expireTo : UInt32

/-- What a round of `expire_timeout_chk` finds: `chk_sta_is_alive` compares packet counters that the
receive path keeps. -/
structure ExpireEnv extends StaTimeouts where
  alive : StaId → Bool
  freeXmitframeCnt : StaId → Nat
  wifiSpec : Bool

/-! ### What a request says -/

/-- `len` bytes from `pos` on. -/
def elemBytes (buf : List UInt8) (pos len : Nat) : List UInt8 :=
  (List.range len).map fun i => UInt8.ofNat (byteAt buf (pos + i))

/-- The check of the RSN or WPA element, with what it stores of the ciphers. -/
def StaAssoc.wpa (cfg : ApCfg) (ies : List UInt8) (elems : Elems) (c : StaAssoc) : StaAssoc :=
  let c := { c with
    dot8021xalg := 0, wpaPsk := 0, wpaGroupCipher := 0, wpa2GroupCipher := 0
    wpaPairwiseCipher := 0, wpa2PairwiseCipher := 0, wpaIe := .replicate 32 0 }
  let enabled (bit : Nat) (k : ElemKind) := if cfg.wpaPsk.testBit bit then elems k else none
  match enabled 1 .rsnIe, enabled 0 .wpaIe with
  | some (pos, len), _ =>
    match rtwParseWpa2Ie ies pos len with
    | some (group, pairwise) =>
      { c with
        dot8021xalg := 1, wpaPsk := 2
        wpa2GroupCipher := group &&& cfg.wpa2GroupCipher
        wpa2PairwiseCipher := pairwise &&& cfg.wpa2PairwiseCipher }
    | none => c
  | none, some (pos, len) =>
    match rtwParseWpaIe ies pos len with
    | some (group, pairwise) =>
      { c with
        dot8021xalg := 1, wpaPsk := 1
        wpaGroupCipher := group &&& cfg.wpaGroupCipher
        wpaPairwiseCipher := pairwise &&& cfg.wpaPairwiseCipher }
    | none => c
  | none, none => c

/-- `wpa_ie` and `wpa_ie_len`: the element with its two bytes in front. -/
def wpaIeBytes (cfg : ApCfg) (ies : List UInt8) (elems : Elems) : List UInt8 :=
  let enabled (bit : Nat) (k : ElemKind) := if cfg.wpaPsk.testBit bit then elems k else none
  match enabled 1 .rsnIe, enabled 0 .wpaIe with
  | some (pos, len), _ | none, some (pos, len) => elemBytes ies (pos - 2) (len + 2)
  | none, none => []

/-- The WPS flags, and the copy of the element into `wpa_ie[32]`. -/
def StaAssoc.wpsFlags (elems : Elems) (wpaIe : Bool) (c : StaAssoc) : StaAssoc :=
  let wps := (elems .wpsIe).isSome
  { c with wps, maybeWps := !wpaIe && !wps }

def StaAssoc.copyWpaIe (cfg : ApCfg) (ies : List UInt8) (elems : Elems) (wpaIe : Bool) (c : StaAssoc) :
    StaAssoc :=
  if wpaIe && !c.wps then
    let copied := (wpaIeBytes cfg ies elems).take 32
    { c with wpaIe := copied ++ .replicate (32 - copied.length) 0 }
  else c

/-- The HT and VHT elements, up to the check that fails. -/
def StaAssoc.phy (cfg : ApCfg) (ies : List UInt8) (elems : Elems) (c : StaAssoc) : StaAssoc :=
  let ht := (htElem ies elems).1
  let htCap :=
    match elems .htCapabilities with
    | some (pos, _) => if ht then elemBytes ies pos 26 else .replicate 26 0
    | none => .replicate 26 0
  let c := { c with htCap }
  if !cfg.htOption && ht then c
  else
    match elems .vhtCapabilities with
    | some (pos, 12) =>
      let vhtOpModeNotify :=
        match elems .vhtOpModeNotify with
        | some (pos, 1) => byteAt ies pos
        -- `CHANNEL_WIDTH_80`
        | _ => 2
      { c with vhtCap := elemBytes ies pos 12, vhtOpModeNotify }
    | _ => { c with vhtCap := .replicate 12 0, vhtOpModeNotify := 0 }

/-- What `OnAssocReq` stores in a `StaAssoc`, as far as its checks let it come. -/
def assocReqAssoc (cfg : ApCfg) (f : MgmtFrame) (c : StaAssoc) : StaAssoc :=
  let (res, elems) := rtwIeee80211ParseElems f.ies
  if res = .parseFailed ∨ elems .ssid = none then c
  else if ssidStatus cfg f.ies ≠ statsSuccessful then c
  else if supportRate f.ies = none then c
  else
    let c := c.wpa cfg f.ies elems
    let (wpaIe, status) := wpaStatus cfg f.ies elems
    if status ≠ statsSuccessful then c
    else
      let c := c.wpsFlags elems wpaIe
      if wpsStatus cfg wpaIe ≠ statsSuccessful then c
      else (c.copyWpaIe cfg f.ies elems wpaIe).phy cfg f.ies elems

/-- What an accepted sequence number does to the station, or the status of the rejection. The state of a
`locked` station stays. -/
def authStepPmf (cfg : ApCfg) (locked : Bool) (algorithm seq : Nat) (body : List UInt8) (p : StaInfo) :
    Except Nat StaInfo :=
  let update (p : StaInfo) (st : FwState) := if locked then p else { p with state := st }
  if p.authSeq + 1 ≠ seq then .error statsOutOfAuthSeq
  else
    let open_ := algorithm = 0 ∧ (authMode cfg = 0 ∨ authMode cfg = 2 ∨ authMode cfg = 3)
    let step : Except Nat StaInfo :=
      if open_ then
        if seq = 1 then
          .ok { update p { p.state with authNull := false, authSuccess := true } with authalg := algorithm }
        else .error statsOutOfAuthSeq
      else if seq = 1 then
        .ok { update p { p.state with authNull := false, authState := true } with
          chgTxt := .replicate 128 78, authalg := algorithm, authSeq := 2 }
      else if seq = 3 then do
        challengeMatches body p.chgTxt
        return update p { p.state with authState := false, authSuccess := true }
      else .error statsOutOfAuthSeq
    step.map fun p =>
      { p with authSeq := if p.state.authSuccess || p.state.assocSuccess then 0 else seq + 1 }

/-- The branches of `OnAuth` that complete an authentication. -/
def authCompletes (cfg : ApCfg) (f : MgmtFrame) : Bool :=
  f.authAlg = 0 && (authMode cfg = 0 || authMode cfg = 2 || authMode cfg = 3) || f.authSeq = 3

namespace MlmeAp

def start (maxNumSta : Nat) : MlmeAp where
  toAp := .start maxNumSta
  assoc _ := {}
  bpairwiseKeyInstalled _ := false
  age _ := {}
  ba _ := {}
  rxMgmtFrameSeqNum _ := 0xffff
  authListCnt := 0
  asocListCnt := 0

def setAge (a : MlmeAp) (i : StaId) (p : StaAge) : MlmeAp := { a with age := Function.update a.age i p }

def setExpireTo (a : MlmeAp) (i : StaId) (t : UInt32) : MlmeAp := a.setAge i { a.age i with expireTo := t }

def setBa (a : MlmeAp) (i : StaId) (p : StaBa) : MlmeAp := { a with ba := Function.update a.ba i p }

/-- The entry, if it is on `auth_list`, leaves it. -/
def authUnlink (a : MlmeAp) (i : StaId) : MlmeAp :=
  if i ∈ a.authList then { a with authList := a.authList.erase i, authListCnt := a.authListCnt - 1 } else a

/-- The entry, if it is on no `auth_list`, joins it at its tail. -/
def authLink (a : MlmeAp) (i : StaId) : MlmeAp :=
  if i ∈ a.authList then a else { a with authList := a.authList ++ [i], authListCnt := a.authListCnt + 1 }

/-- The entry, if it is on `asoc_list`, leaves it. -/
def asocUnlink (a : MlmeAp) (i : StaId) : MlmeAp :=
  if i ∈ a.asocList then { a with asocList := a.asocList.erase i, asocListCnt := a.asocListCnt - 1 } else a

/-- The entry, if it is on no `asoc_list`, joins it at its tail. -/
def asocLink (t : StaTimeouts) (a : MlmeAp) (i : StaId) : MlmeAp :=
  if i ∈ a.asocList then a
  else { a.setExpireTo i t.expireTo with asocList := a.asocList ++ [i], asocListCnt := a.asocListCnt + 1 }

def rtwAllocStainfo (a : MlmeAp) (hwaddr : MacAddr) : Option (MlmeAp × StaId) :=
  (a.toAp.rtwAllocStainfo hwaddr).map fun (b, i) =>
    ({ a with
      toAp := b
      assoc := Function.update a.assoc i {}
      bpairwiseKeyInstalled := Function.update a.bpairwiseKeyInstalled i false
      age := Function.update a.age i {}
      ba := Function.update a.ba i {}
      rxMgmtFrameSeqNum := Function.update a.rxMgmtFrameSeqNum i 0xffff }, i)

/-- `rtw_free_stainfo`: of the two lists it looks at `auth_list` only. -/
def rtwFreeStainfo (a : MlmeAp) (i : StaId) : MlmeAp :=
  { a.setAge i { a.age i with expireTo := 0, underExistChecking := false } with
    toAp := a.toAp.rtwFreeStainfo i
    authListCnt := if i ∈ a.authList then a.authListCnt - 1 else a.authListCnt }

def apFreeSta (a : MlmeAp) (i : StaId) : MlmeAp :=
  let a := a.setBa i { a.ba i with aggEnableBitmap := 0, candidateTidBitmap := 0 }
  let left := { a.toAp with ps := Function.update a.ps i { a.ps i with linked := false } }
  { a with toAp := left.bssCapUpdateOnStaLeave i }.rtwFreeStainfo i

/-- The station has its key, or is associated, in a build that protects such a station. -/
def locked (w : Bool) (a : MlmeAp) (i : StaId) : Bool :=
  w && (a.bpairwiseKeyInstalled i || (a.pool.sta i).state.assocSuccess)

/-- The station of an authentication frame, found or new. -/
def authSta (w : Bool) (f : MgmtFrame) (a : MlmeAp) : Option (MlmeAp × StaId) :=
  match rtwGetStainfo a.pool f.sa with
  | some i => some (if a.locked w i then a else a.asocUnlink i, i)
  | none =>
    (a.rtwAllocStainfo f.sa).map fun (a, i) =>
      ({ a with pool := a.pool.modify i fun p => { p with state := { authNull := true }, authSeq := 0 } }, i)

/-- `OnAuth` from the insertion into `auth_list` on. -/
def authEntry (w : Bool) (cfg : ApCfg) (t : StaTimeouts) (f : MgmtFrame) (a : MlmeAp) (i : StaId) : MlmeAp :=
  let locked := a.locked w i
  let a := if locked then a else a.authLink i
  let a := if (a.pool.sta i).authSeq = 0 then a.setExpireTo i t.authTo else a
  match authStepPmf cfg locked f.authAlg f.authSeq f.body (a.pool.sta i) with
  | .error _ => a.rtwFreeStainfo i
  | .ok p =>
    let a := { a with pool := a.pool.modify i fun _ => p }
    if !locked && authCompletes cfg f then a.setExpireTo i t.assocTo else a

def onAuth (w : Bool) (cfg : ApCfg) (t : StaTimeouts) (f : MgmtFrame) (a : MlmeAp) : MlmeAp :=
  if !cfg.apState then a
  else if (f.authAlg > 0 ∧ authMode cfg = 0) ∨ (f.authAlg = 0 ∧ authMode cfg = 1) then a
  else if !rtwAccessCtrl cfg.aclList f.sa then a
  else
    match a.authSta w f with
    | none => a
    | some (a, i) => a.authEntry w cfg t f i

def onAssocReq (w : Bool) (cfg : BssCfg) (t : StaTimeouts) (f : MgmtFrame) (a : MlmeAp) : MlmeAp :=
  match assocReqSta cfg.toApCfg f a.pool with
  | none => a
  | some i =>
    let (pool, ok, _) := Rtw.onAssocReq cfg.toApCfg f a.pool
    let a := { a with
      pool
      cap := Function.update a.cap i (assocReqCap cfg f (a.cap i))
      assoc := Function.update a.assoc i (assocReqAssoc cfg.toApCfg f (a.assoc i)) }
    if !ok then a
    -- refused for the moment, with the state and the association id of an accepted station
    else if w && a.bpairwiseKeyInstalled i then a
    else
      let a := (a.authUnlink i).asocLink t i
      { a with toAp := (a.toAp.bssCapUpdateOnStaJoin i).staInfoUpdate cfg i }

/-- `OnDeAuth` and `OnDisassoc`, for a frame that may name another BSS. -/
def onDeAuth (ownBss : Bool) (sa : MacAddr) (a : MlmeAp) : MlmeAp :=
  if !ownBss then a
  else
    match rtwGetStainfo a.pool sa with
    | none => a
    | some i => if i ∈ a.asocList then (a.asocUnlink i).apFreeSta i else a

/-! ### `expire_timeout_chk` -/

/-- A round of the loop over `auth_list`. -/
def authAge (a : MlmeAp) (i : StaId) : MlmeAp :=
  if (a.age i).expireTo > 0 then
    let a := a.setExpireTo i ((a.age i).expireTo - 1)
    if (a.age i).expireTo = 0 then
      { a with authList := a.authList.erase i, authListCnt := a.authListCnt - 1 }.rtwFreeStainfo i
    else a
  else a

/-- The time that a station of `asoc_list` has left, and the check of an HT station by a DELBA. -/
def asocCheck (e : ExpireEnv) (a : MlmeAp) (i : StaId) : MlmeAp :=
  let p := a.age i
  let p :=
    if e.alive i || p.expireTo = 0 then
      { expireTo := e.expireTo, keepAliveTrycnt := 0, underExistChecking := false : StaAge }
    else { p with expireTo := p.expireTo - 1 }
  if (a.cap i).ht && (decide ((a.ba i).aggEnableBitmap ≠ 0) || p.underExistChecking) then
    if p.expireTo ≤ e.expireTo - 50 then a.setAge i { p with underExistChecking := false, expireTo := 0 }
    else if p.expireTo ≤ e.expireTo - 3 ∧ !p.underExistChecking then
      (a.setAge i { p with underExistChecking := true }).setBa i
        { a.ba i with aggEnableBitmap := 0, candidateTidBitmap := 0 }
    else a.setAge i p
  else a.setAge i p

/-- The bookkeeping of an earlier probe, before a station that timed out is probed again. -/
def keepAliveTry (a : MlmeAp) (i : StaId) : MlmeAp :=
  let cnt := (a.age i).keepAliveTrycnt
  let chk := (a.ps i).aliveChk
  if cnt > 0 ∧ cnt ≤ 3 then
    if chk then { a with ps := Function.update a.ps i { a.ps i with aliveChk := false } }
    else a.setAge i { a.age i with keepAliveTrycnt := 0 }
  else if cnt > 3 ∧ !chk then a.setAge i { a.age i with keepAliveTrycnt := 0 }
  else a

/-- A probe is on its way already: the station is asked another way. -/
def keepAliveChange (a : MlmeAp) (i : StaId) : MlmeAp :=
  if (a.age i).keepAliveTrycnt > 0 ∧ (a.ps i).aliveChk then
    { a.setAge i { a.age i with keepAliveTrycnt := 0 } with
      ps := Function.update a.ps i { a.ps i with aliveChk := false } }
  else a

/-- A sleeping station is asked by the beacon once, and then goes as the others do. -/
def asocExpire (e : ExpireEnv) (a : MlmeAp) (i : StaId) : MlmeAp :=
  if (a.ps i).sleep && !(a.ps i).aliveChk then
    { a.setExpireTo i e.expireTo with
      ps := Function.update a.ps i { a.ps i with aliveChk := true }
      timBitmap := a.timBitmap ||| bit (a.pool.sta i).aid }
  else { a with asocList := a.asocList.erase i, asocListCnt := a.asocListCnt - 1 }.apFreeSta i

/-- A station of `asoc_list` whose time is over: it is probed by an ADDBA request, or it expires. -/
def asocTimeout (e : ExpireEnv) (a : MlmeAp) (i : StaId) : MlmeAp :=
  if e.wifiSpec then a.setExpireTo i e.expireTo
  else
    let a := a.keepAliveTry i
    let ba := a.ba i
    if ba.htOption && ba.ampduEnable && !ba.candidateTidBitmap.toNat.testBit 1 && !(a.ps i).aliveChk then
      { (a.setBa i { ba with candidateTidBitmap := ba.candidateTidBitmap ||| 2 }).setAge i
          { a.age i with
            expireTo := if (a.ps i).sleep then 2 else 1
            keepAliveTrycnt := (a.age i).keepAliveTrycnt + 1 } with
        ps := Function.update a.ps i { a.ps i with aliveChk := true } }
    else (a.keepAliveChange i).asocExpire e i

/-- A round of the loop over `asoc_list`, with the value of `asoc_list_cnt` that it divides by. -/
def asocAge (e : ExpireEnv) (a : MlmeAp) (i : StaId) : MlmeAp × Option UInt8 :=
  let a := a.asocCheck e i
  if (a.age i).expireTo = 0 then (a.asocTimeout e i, none)
  else
    let share := nrXmitframe / a.asocListCnt.toNat
    if (a.ps i).sleepqLen > share ∧ e.freeXmitframeCnt i < share / 2 then
      ({ a with toAp := a.toAp.wakeupStaToXmit i }, some a.asocListCnt)
    else (a, some a.asocListCnt)

/-- The loop over `asoc_list`, with the values that it divides by. A round takes no station but its own
off the list, so the loop meets the stations that were on it at the start. -/
def asocAgeLoop (e : ExpireEnv) : List StaId → MlmeAp → MlmeAp × List UInt8
  | [], a => (a, [])
  | i :: rest, a =>
    let (a, divisor) := a.asocAge e i
    let (a, divisors) := asocAgeLoop e rest a
    (a, divisor.toList ++ divisors)

/-- `expire_timeout_chk`, with the values of `asoc_list_cnt` that it divides by. -/
def expireTimeoutChk (e : ExpireEnv) (a : MlmeAp) : MlmeAp × List UInt8 :=
  let a := a.authList.foldl authAge a
  a.asocAgeLoop e a.asocList

def rtwStaFlush (apState : Bool) (a : MlmeAp) : MlmeAp :=
  if !apState then a
  else
    let flushList := a.asocList
    let a := flushList.foldl
      (fun a i => { a with asocList := a.asocList.erase i, asocListCnt := a.asocListCnt - 1 }) a
    flushList.foldl apFreeSta a

end MlmeAp

/-- What happens at an access point. `installKey` and `other` are the rest of the driver: the key handlers,
and what keeps the power save and the aggregation state. -/
inductive MlmeEvent where
  | auth (cfg : ApCfg) (t : StaTimeouts) (f : MgmtFrame)
  | assocReq (cfg : BssCfg) (t : StaTimeouts) (f : MgmtFrame)
  | deAuth (ownBss : Bool) (sa : MacAddr)
  | disassoc (ownBss : Bool) (sa : MacAddr)
  | expire (e : ExpireEnv)
  | flush (apState : Bool)
  | installKey (i : StaId)
  | other (ps : StaId → PsSta) (ba : StaId → StaBa)

def MlmeAp.next (w : Bool) (a : MlmeAp) : MlmeEvent → MlmeAp
  | .auth cfg t f => a.onAuth w cfg t f
  | .assocReq cfg t f => a.onAssocReq w cfg t f
  | .deAuth ownBss sa => a.onDeAuth ownBss sa
  | .disassoc ownBss sa => a.onDeAuth ownBss sa
  | .expire e => (a.expireTimeoutChk e).1
  | .flush apState => a.rtwStaFlush apState
  | .installKey i => { a with bpairwiseKeyInstalled := Function.update a.bpairwiseKeyInstalled i true }
  | .other ps ba => { a with ps, ba }

/-! ### The build does not change which frames are refused -/

section
variable {cfg : ApCfg} {f : MgmtFrame} {p q : StaInfo} {algorithm seq : Nat} {body : List UInt8}

theorem authStepPmf_false : authStepPmf cfg false algorithm seq body p = authStep cfg algorithm seq body p := rfl

/-- A locked station is refused the same frames as another; one that is accepted leaves its state alone. -/
theorem authStepPmf_true : authStepPmf cfg true algorithm seq body p =
    (authStep cfg algorithm seq body p).map fun q => { q with
      state := p.state
      authSeq := if p.state.authSuccess || p.state.assocSuccess then 0 else seq + 1 } := by
  unfold authStepPmf authStep
  dsimp only
  split
  · rfl
  split
  · split
    · rfl
    · rfl
  split
  · rfl
  split
  · cases challengeMatches body p.chgTxt <;> rfl
  · rfl

/-- `OnAuth` refuses the frame of a station that it looks at: the sequence number is not the next one, or
open system authentication goes on, or the challenge text is wrong. -/
def AuthRejected (cfg : ApCfg) (f : MgmtFrame) (p : StaInfo) : Prop :=
  p.authSeq + 1 ≠ f.authSeq ∨
    if f.authAlg = 0 ∧ (authMode cfg = 0 ∨ authMode cfg = 2 ∨ authMode cfg = 3) then f.authSeq ≠ 1
    else f.authSeq ≠ 1 ∧ (f.authSeq = 3 → challengeMatches f.body p.chgTxt ≠ .ok ())

instance : Decidable (AuthRejected cfg f p) := inferInstanceAs (Decidable (_ ∨ _))

theorem authRejected_iff :
    AuthRejected cfg f p ↔ ∃ e, authStep cfg f.authAlg f.authSeq f.body p = .error e := by
  unfold AuthRejected authStep
  dsimp only
  by_cases hseq : p.authSeq + 1 = f.authSeq
  · rw [if_neg (not_not.2 hseq), or_iff_right (not_not.2 hseq)]
    split
    · split
      · rename_i h1
        exact iff_of_false (not_not.2 h1) (by rintro ⟨e, he⟩; cases he)
      · rename_i h1
        exact iff_of_true h1 ⟨_, rfl⟩
    split
    · rename_i h1
      exact iff_of_false (fun h => h.1 h1) (by rintro ⟨e, he⟩; cases he)
    rename_i h1
    rw [and_iff_right h1]
    split
    · rename_i h3
      cases hc : challengeMatches f.body p.chgTxt with
      | error e => exact iff_of_true (fun _ h => by cases h) ⟨e, rfl⟩
      | ok u => exact iff_of_false (fun h => h h3 rfl) (by rintro ⟨e, he⟩; cases he)
    · rename_i h3
      exact iff_of_true (fun h => absurd h h3) ⟨_, rfl⟩
  · rw [if_pos hseq]
    exact iff_of_true (.inl hseq) ⟨_, rfl⟩

theorem authStepPmf_error {locked : Bool} :
    (∃ e, authStepPmf cfg locked f.authAlg f.authSeq f.body p = .error e) ↔ AuthRejected cfg f p := by
  rw [authRejected_iff]
  cases locked
  · rw [authStepPmf_false]
  · rw [authStepPmf_true]
    cases authStep cfg f.authAlg f.authSeq f.body p with
    | error e => exact iff_of_true ⟨e, rfl⟩ ⟨e, rfl⟩
    | ok q => exact iff_of_false (by rintro ⟨e, he⟩; cases he) (by rintro ⟨e, he⟩; cases he)

/-- An accepted frame leaves the association alone, and a locked station its whole state. -/
theorem authStepPmf_ok {locked : Bool} (h : authStepPmf cfg locked algorithm seq body p = .ok q) :
    q.hwaddr = p.hwaddr ∧ q.aid = p.aid ∧ q.state.assocSuccess = p.state.assocSuccess ∧
      (locked → q.state = p.state) := by
  cases locked
  · rw [authStepPmf_false] at h
    exact ⟨authStep_hwaddr h, (authStep_ok h).1, (authStep_ok h).2, fun hl => by cases hl⟩
  · rw [authStepPmf_true] at h
    cases hs : authStep cfg algorithm seq body p with
    | error e => rw [hs] at h; cases h
    | ok r =>
      rw [hs] at h
      obtain rfl := Except.ok.inj h
      have hw := authStep_hwaddr hs
      have ha := (authStep_ok hs).1
      exact ⟨hw, ha, rfl, fun _ => rfl⟩

end

namespace MlmeAp
variable {a b : MlmeAp} {i j : StaId} {t : StaTimeouts} {f : MgmtFrame}

/-! ### The handlers without protected management frames -/

theorem authUnlink_toAp : (a.authUnlink i).toAp = { a.toAp with authList := a.authList.erase i } := by
  unfold authUnlink
  split
  · rfl
  · rename_i hi
    rw [List.erase_of_not_mem hi]

theorem authUnlink_asocList : (a.authUnlink i).asocList = a.asocList := by rw [authUnlink_toAp]

theorem asocUnlink_toAp : (a.asocUnlink i).toAp = { a.toAp with asocList := a.asocList.erase i } := by
  unfold asocUnlink
  split
  · rfl
  · rename_i hi
    rw [List.erase_of_not_mem hi]

theorem authLink_toAp : (a.authLink i).toAp =
    { a.toAp with authList := if i ∈ a.authList then a.authList else a.authList ++ [i] } := by
  unfold authLink
  split <;> rfl

theorem asocLink_toAp : (asocLink t a i).toAp =
    { a.toAp with asocList := if i ∈ a.asocList then a.asocList else a.asocList ++ [i] } := by
  unfold asocLink
  split <;> rfl

theorem apFreeSta_toAp : (a.apFreeSta i).toAp = a.toAp.apFreeSta i := rfl

/-- What an authentication frame does to its entry: the lists and the pool, without the time that is left. -/
theorem authEntry_cases (w : Bool) (cfg : ApCfg) (t : StaTimeouts) (f : MgmtFrame) (a : MlmeAp) (i : StaId) :
    ∃ age, (AuthRejected cfg f (a.pool.sta i) ∧
        a.authEntry w cfg t f i = { (if a.locked w i then a else a.authLink i) with age }.rtwFreeStainfo i ∨
      ∃ p, authStepPmf cfg (a.locked w i) f.authAlg f.authSeq f.body (a.pool.sta i) = .ok p ∧
        ∃ b, b = (if a.locked w i then a else a.authLink i) ∧
          a.authEntry w cfg t f i = { b with age, pool := b.pool.modify i fun _ => p }) := by
  have hpool : (if a.locked w i then a else a.authLink i).pool = a.pool := by
    split
    · rfl
    · unfold authLink
      split <;> rfl
  unfold authEntry
  dsimp only
  generalize hb : (if a.locked w i then a else a.authLink i) = b at hpool ⊢
  have hage : ∃ age, (if (b.pool.sta i).authSeq = 0 then b.setExpireTo i t.authTo else b) = { b with age } := by
    split
    · exact ⟨_, rfl⟩
    · exact ⟨_, rfl⟩
  obtain ⟨age, hage⟩ := hage
  rw [hage]
  dsimp only
  rw [hpool]
  cases hs : authStepPmf cfg (a.locked w i) f.authAlg f.authSeq f.body (a.pool.sta i) with
  | error e => exact ⟨age, .inl ⟨authStepPmf_error.1 ⟨e, hs⟩, rfl⟩⟩
  | ok p =>
    dsimp only
    split
    · exact ⟨_, .inr ⟨p, rfl, b, rfl, by rw [hpool]; rfl⟩⟩
    · exact ⟨age, .inr ⟨p, rfl, b, rfl, by rw [hpool]⟩⟩

/-- `OnAuth` looks at the station in exactly the frames that are considered. -/
theorem onAuth_eq {w : Bool} (cfg : ApCfg) : a.onAuth w cfg t f =
    if Ap.AuthConsidered cfg f then
      match a.authSta w f with
      | none => a
      | some (a, i) => a.authEntry w cfg t f i
    else a := by
  unfold onAuth
  by_cases hap : cfg.apState = true
  · rw [if_neg (by simp [hap])]
    by_cases halg : (f.authAlg > 0 ∧ authMode cfg = 0) ∨ (f.authAlg = 0 ∧ authMode cfg = 1)
    · rw [if_pos halg, if_neg fun h : Ap.AuthConsidered cfg f => h.2.1 halg]
    · rw [if_neg halg]
      by_cases hacl : rtwAccessCtrl cfg.aclList f.sa = true
      · rw [if_neg (by simp [hacl])]
        exact (if_pos (show Ap.AuthConsidered cfg f from ⟨hap, halg, hacl⟩)).symm
      · rw [if_pos (by simpa using hacl), if_neg fun h : Ap.AuthConsidered cfg f => hacl h.2.2]
  · rw [if_pos (by simpa using hap), if_neg fun h : Ap.AuthConsidered cfg f => hap h.1]

theorem authSta_of_locked {w : Bool} (hg : rtwGetStainfo a.pool f.sa = some i) (hl : a.locked w i = true) :
    a.authSta w f = some (a, i) := by
  unfold authSta
  rw [hg]
  dsimp only
  rw [if_pos hl]

theorem onAuth_of_rejected {w : Bool} {cfg : ApCfg} (hg : rtwGetStainfo a.pool f.sa = some i)
    (hl : a.locked w i = true) (hcons : Ap.AuthConsidered cfg f) (hrej : AuthRejected cfg f (a.pool.sta i)) :
    ∃ age, a.onAuth w cfg t f = { a with age }.rtwFreeStainfo i := by
  rw [onAuth_eq, if_pos hcons, authSta_of_locked hg hl]
  obtain ⟨age, ⟨-, he⟩ | ⟨p, hp, -⟩⟩ := authEntry_cases w cfg t f a i
  · rw [if_pos hl] at he
    exact ⟨age, he⟩
  · obtain ⟨e, hstep⟩ := authStepPmf_error.2 hrej
    rw [hstep] at hp
    cases hp

/-- An accepted one changes neither its association nor its state. -/
theorem onAuth_of_accepted {w : Bool} {cfg : ApCfg} (hg : rtwGetStainfo a.pool f.sa = some i)
    (hl : a.locked w i = true) (hcons : Ap.AuthConsidered cfg f) (hrej : ¬ AuthRejected cfg f (a.pool.sta i)) :
    ∃ age p, a.onAuth w cfg t f = { a with age, pool := a.pool.modify i fun _ => p } ∧
      p.hwaddr = (a.pool.sta i).hwaddr ∧ p.aid = (a.pool.sta i).aid ∧ p.state = (a.pool.sta i).state := by
  rw [onAuth_eq, if_pos hcons, authSta_of_locked hg hl]
  obtain ⟨age, ⟨hr, -⟩ | ⟨p, hp, b, hb, he⟩⟩ := authEntry_cases w cfg t f a i
  · exact absurd hr hrej
  · rw [if_pos hl] at hb
    obtain rfl := hb
    obtain ⟨hw, haid, -, hst⟩ := authStepPmf_ok hp
    exact ⟨age, p, he, hw, haid, hst hl⟩

/-- A request of a station with its key writes the station's record, and leaves out the rest. -/
theorem onAssocReq_of_key {w : Bool} {cfg : BssCfg} (hsta : assocReqSta cfg.toApCfg f a.pool = some i)
    (hk : (w && a.bpairwiseKeyInstalled i) = true) : a.onAssocReq w cfg t f = { a with
      pool := (Rtw.onAssocReq cfg.toApCfg f a.pool).1
      cap := Function.update a.cap i (assocReqCap cfg f (a.cap i))
      assoc := Function.update a.assoc i (assocReqAssoc cfg.toApCfg f (a.assoc i)) } := by
  unfold onAssocReq
  rw [hsta]
  dsimp only
  rw [if_pos hk, ite_self]

theorem locked_false : a.locked false i = false := rfl

theorem authEntry_toAp (cfg : ApCfg) : (a.authEntry false cfg t f i).toAp =
    match authStep cfg f.authAlg f.authSeq f.body (a.pool.sta i) with
    | .error _ =>
      { a.toAp with authList := if i ∈ a.authList then a.authList else a.authList ++ [i] }.rtwFreeStainfo i
    | .ok p =>
      { a.toAp with
        authList := if i ∈ a.authList then a.authList else a.authList ++ [i]
        pool := a.pool.modify i fun _ => p } := by
  obtain ⟨age, ⟨hrej, he⟩ | ⟨p, hp, -, rfl, he⟩⟩ := authEntry_cases false cfg t f a i
  · obtain ⟨e, hstep⟩ := authRejected_iff.1 hrej
    rw [he, locked_false, if_neg (by simp), hstep]
    show (a.authLink i).toAp.rtwFreeStainfo i = _
    rw [authLink_toAp]
  · rw [locked_false, authStepPmf_false] at hp
    rw [he, locked_false, if_neg (by simp), hp]
    show { (a.authLink i).toAp with pool := (a.authLink i).toAp.pool.modify i fun _ => p } = _
    rw [authLink_toAp]

theorem onAuth_toAp (cfg : ApCfg) : (a.onAuth false cfg t f).toAp = a.toAp.onAuth cfg f := by
  unfold onAuth Ap.onAuth
  dsimp only
  split
  · rfl
  split
  · rfl
  split
  · rfl
  unfold authSta rtwAllocStainfo
  cases rtwGetStainfo a.pool f.sa with
  | some i =>
    dsimp only
    have hentry := authEntry_toAp (a := a.asocUnlink i) (i := i) (t := t) (f := f) cfg
    rw [asocUnlink_toAp] at hentry
    rw [locked_false, if_neg (by simp)]
    exact hentry
  | none =>
    cases a.toAp.rtwAllocStainfo f.sa with
    | none => rfl
    | some r =>
      dsimp only [Option.map_some]
      exact authEntry_toAp cfg

theorem onAssocReq_toAp (cfg : BssCfg) : (a.onAssocReq false cfg t f).toAp = a.toAp.onAssocReq cfg f := by
  unfold onAssocReq Ap.onAssocReq
  cases assocReqSta cfg.toApCfg f a.pool with
  | none => rfl
  | some i =>
    dsimp only
    cases (Rtw.onAssocReq cfg.toApCfg f a.pool).2.1 with
    | false => rfl
    | true =>
      rw [if_neg (by simp), if_neg (by simp), if_pos rfl]
      dsimp only
      rw [asocLink_toAp, authUnlink_asocList, authUnlink_toAp]
      rfl

theorem onDeAuth_toAp {sa : MacAddr} : (a.onDeAuth true sa).toAp = a.toAp.onDeAuth sa := by
  unfold onDeAuth Ap.onDeAuth
  rw [if_neg (by simp)]
  cases rtwGetStainfo a.pool sa with
  | none => rfl
  | some i =>
    unfold Ap.asocExpire
    dsimp only
    split
    · rw [apFreeSta_toAp, asocUnlink_toAp]
    · rfl

end MlmeAp

end Rtw
