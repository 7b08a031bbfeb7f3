import Rtw.Mlme.BssCap

/-!
# The ERP element of the beacon

`update_bcn_erpinfo_ie` protects for exactly one station without ERP, not for more. It is only ever called
where `num_sta_non_erp` has become 1 or 0, so this is never seen. What is seen is its first return: an element
that `change_band_update_ie` puts into the beacon comes without `ERP_enable`, and is never rewritten.
`ErpAp.updatesOk_run`: in a run that takes the counter to 1 or to 0 only where the element is enabled, every
call leaves the bits that the counters ask for.
-/

namespace Rtw

/-- `NDIS_802_11_VARIABLE_IEs` -/
structure BcnIe where
  elementId : Nat
  data : List UInt8
  deriving DecidableEq

def eidDsset : Nat := 3
def eidErpinfo : Nat := 42

/-- `WIFI_CCKRATES` and `WIFI_OFDMRATES` -/
def wifiCckrates : List UInt8 := [0x82, 0x84, 0x8b, 0x96]
def wifiOfdmrates : List UInt8 := [0x0c, 0x12, 0x18, 0x24, 0x30, 0x48, 0x60, 0x6c]

/-- `f` applied to the data of the element that `rtw_get_ie` finds. -/
def modifyIe (id : Nat) (f : List UInt8 → List UInt8) : List BcnIe → List BcnIe
  | [] => []
  | ie :: ies => if ie.elementId = id then { ie with data := f ie.data } :: ies else ie :: modifyIe id f ies

/-- `rtw_add_bcn_ie`: the element goes behind those with smaller numbers, unless the last of these is empty
or there is none. -/
def rtwAddBcnIe (id : Nat) (data : List UInt8) (ies : List BcnIe) : List BcnIe :=
  let before := ies.takeWhile fun ie => decide (ie.elementId < id)
  let behind := ies.dropWhile fun ie => decide (ie.elementId < id)
  match behind with
  | ie :: rest =>
    if ie.elementId = id then if ie.data = [] then ies else before ++ ⟨id, data⟩ :: rest
    else if before.getLast?.any fun p => p.data ≠ [] then before ++ ⟨id, data⟩ :: behind else ies
  | [] => if before.getLast?.any fun p => p.data ≠ [] then before ++ [⟨id, data⟩] else ies

def rtwRemoveBcnIe (id : Nat) (ies : List BcnIe) : List BcnIe :=
  if (ies.find? fun ie => decide (ie.elementId = id)).any fun ie => ie.data ≠ [] then
    ies.eraseP fun ie => decide (ie.elementId = id)
  else ies

def changeBandUpdateIe (ch : Nat) (ies : List BcnIe) : List BcnIe :=
  let ies := if ch ≥ 36 then rtwRemoveBcnIe eidErpinfo ies else rtwAddBcnIe eidErpinfo [0x04] ies
  let supportedRates := if ch ≥ 36 then wifiOfdmrates else wifiCckrates ++ wifiOfdmrates
  let ies := rtwAddBcnIe 1 (supportedRates.take 8) ies
  if supportedRates.length > 8 then rtwAddBcnIe 50 (supportedRates.drop 8) ies else rtwRemoveBcnIe 50 ies

/-- The bits that `update_bcn_erpinfo_ie` rewrites. -/
def erpInfo (nonErp noShortPreamble : Int) (b : UInt8) : UInt8 :=
  let b := if nonErp = 1 then b ||| 0x03 else b &&& ~~~0x03
  if noShortPreamble > 0 then b ||| 0x04 else b &&& ~~~0x04

/-- The first octet of the ERP element. -/
def erpOctet (ies : List BcnIe) : Option UInt8 :=
  (ies.find? fun ie => decide (ie.elementId = eidErpinfo)).bind fun ie => ie.data.head?

/-- What a call of `update_bcn_erpinfo_ie` leaves, beside the counters that it found. -/
structure ErpUpdate where
  erp : Option UInt8
  nonErp : Int
  noShortPreamble : Int

/-- The element has `NonERP_Present` and `Use_Protection` exactly if there are stations without ERP, and Barker
preamble mode exactly if there are some without short preambles. -/
def ErpUpdate.Ok (u : ErpUpdate) : Prop :=
  ∀ b ∈ u.erp, b.toNat.testBit 0 = decide (u.nonErp > 0) ∧ b.toNat.testBit 1 = decide (u.nonErp > 0) ∧
    b.toNat.testBit 2 = decide (u.noShortPreamble > 0)

instance (u : ErpUpdate) : Decidable u.Ok :=
  inferInstanceAs (Decidable (∀ b, u.erp = some b → _))

structure ErpAp where
  ap : Ap
  bstartBss : Bool := false
  erpEnable : Bool
  erpIe : UInt8 := 0
  /-- `Configuration.DSConfig` -/
  dsConfig : Nat := 0
  /-- The elements of `mlmepriv.cur_network`. -/
  curIes : List BcnIe := []
  /-- The elements of `mlmext_info.network`, which the beacon is made of. -/
  ies : List BcnIe := []
  /-- What the calls of `update_bcn_erpinfo_ie` left. -/
  updates : List ErpUpdate := []

/-- The part of `bss_cap_update_on_sta_join` behind the stations without ERP. -/
def Ap.joinBehindErp (a : Ap) (i : StaId) : Ap :=
  let c := a.cap i
  let a := if !c.capability.testBit 10 then a.setKind i .noShortSlotTime else a.clearKind i .noShortSlotTime
  if c.ht then
    let a := a.clearKind i .noHt
    let a := if !c.htCapInfo.testBit 4 then a.setKind i .htNoGf else a
    let a := if !c.htCapInfo.testBit 1 then a.setKind i .ht20mhz else a
    if c.htCapInfo.testBit 14 then a.setKind i .fortyMhzIntolerant else a
  else a.setKind i .noHt

/-- The part of `bss_cap_update_on_sta_leave` behind the stations without ERP. -/
def Ap.leaveBehindErp (a : Ap) (i : StaId) : Ap :=
  let a := a.clearKind i .noShortSlotTime
  let a := a.clearKind i .htNoGf
  let a := a.clearKind i .noHt
  let a := a.clearKind i .ht20mhz
  a.clearKind i .fortyMhzIntolerant

namespace ErpAp

def erpIeHandler (data : List UInt8) (s : ErpAp) : ErpAp :=
  if data.length > 1 then s else { s with erpEnable := true, erpIe := data.headD s.erpIe }

def updateBcnErpinfoIe (s : ErpAp) : ErpAp :=
  if !s.erpEnable then s
  else
    match s.ies.find? fun ie => decide (ie.elementId = eidErpinfo) with
    | none | some ⟨_, []⟩ => s
    | some ⟨_, b :: data⟩ =>
      let b := erpInfo (s.ap.num .nonErp) (s.ap.num .noShortPreamble) b
      { s with ies := modifyIe eidErpinfo (fun _ => b :: data) s.ies }.erpIeHandler (b :: data)

/-- The call is over. -/
def recordUpdate (s : ErpAp) : ErpAp :=
  { s with updates := s.updates ++ [⟨erpOctet s.ies, s.ap.num .nonErp, s.ap.num .noShortPreamble⟩] }

/-- `update_beacon` for the ERP element. -/
def updateBeaconErp (s : ErpAp) : ErpAp := if s.bstartBss then s.updateBcnErpinfoIe.recordUpdate else s

/-- The mark for a station without ERP is set, if it is not. -/
def setNonErp (s : ErpAp) (i : StaId) : ErpAp :=
  if !s.ap.capSet i .nonErp then
    let s := { s with ap := s.ap.setKind i .nonErp }
    if s.ap.num .nonErp = 1 then s.updateBeaconErp else s
  else s

/-- The mark for a station without ERP is taken back, if it is set. -/
def clearNonErp (s : ErpAp) (i : StaId) : ErpAp :=
  if s.ap.capSet i .nonErp then
    let s := { s with ap := s.ap.clearKind i .nonErp }
    if s.ap.num .nonErp = 0 then s.updateBeaconErp else s
  else s

def bssCapUpdateOnStaJoin (s : ErpAp) (i : StaId) : ErpAp :=
  let c := s.ap.cap i
  let s := { s with
    ap := if !c.shortPreamble then s.ap.setKind i .noShortPreamble else s.ap.clearKind i .noShortPreamble }
  let s := if c.nonerp then s.setNonErp i else s.clearNonErp i
  { s with ap := s.ap.joinBehindErp i }

def bssCapUpdateOnStaLeave (s : ErpAp) (i : StaId) : ErpAp :=
  let s := { s with ap := s.ap.clearKind i .noShortPreamble }
  let s := s.clearNonErp i
  { s with ap := s.ap.leaveBehindErp i }

def onAssocReq (cfg : BssCfg) (f : MgmtFrame) (s : ErpAp) : ErpAp :=
  match assocReqSta cfg.toApCfg f s.ap.pool with
  | none => s
  | some i =>
    let (pool, ok, _) := Rtw.onAssocReq cfg.toApCfg f s.ap.pool
    let a := { s.ap with pool, cap := Function.update s.ap.cap i (assocReqCap cfg f (s.ap.cap i)) }
    if ok then
      let s := { s with ap := a.toAsocList i }.bssCapUpdateOnStaJoin i
      { s with ap := s.ap.staInfoUpdate cfg i }
    else { s with ap := a }

def apFreeSta (s : ErpAp) (i : StaId) : ErpAp :=
  let a := { s.ap with ps := Function.update s.ap.ps i { s.ap.ps i with linked := false } }
  let s := { s with ap := a }.bssCapUpdateOnStaLeave i
  { s with ap := s.ap.rtwFreeStainfo i }

/-- A station of `asoc_list` goes: `expire_timeout_chk`, `rtw_sta_flush`. -/
def asocExpire (s : ErpAp) (i : StaId) : ErpAp :=
  if i ∈ s.ap.asocList then { s with ap := { s.ap with asocList := s.ap.asocList.erase i } }.apFreeSta i else s

/-- `OnDeAuth` and `OnDisassoc` -/
def onDeAuth (s : ErpAp) (sa : MacAddr) : ErpAp :=
  match rtwGetStainfo s.ap.pool sa with
  | none => s
  | some i => s.asocExpire i

def rtwApUpdateBssChbw (ch : Nat) (s : ErpAp) : ErpAp :=
  let old := s.dsConfig
  let s := { s with
    curIes := modifyIe eidDsset (fun data => data.modifyHead fun _ => UInt8.ofNat ch) s.curIes
    dsConfig := ch }
  if (ch ≤ 14 ∧ old ≥ 36) ∨ (ch ≥ 36 ∧ old ≤ 14) then { s with curIes := changeBandUpdateIe ch s.curIes } else s

/-- `start_bss_network` without a requested channel (`req_ch` is -1) and with one. `ch` is the channel that
`rtw_ap_chbw_decision` comes to, `none` where it leaves the beacon alone. -/
def startBssNetwork (requested : Bool) (ch : Option Nat) (s : ErpAp) : ErpAp :=
  let wps := s.curIes.any fun ie => decide (ie.elementId = 221 ∧ ie.data.take 4 = [0x00, 0x50, 0xf2, 0x04])
  let s := if !requested && !wps then { s with bstartBss := true } else s
  let s := match ch with
    | some ch => s.rtwApUpdateBssChbw ch
    | none => s
  { s with ies := s.curIes }

/-- `rtw_check_beacon_data` on the beacon of the host, as far as it comes to the ERP element, and the command
that it ends with. -/
def rtwCheckBeaconData (ies : List BcnIe) (ch : Option Nat) (s : ErpAp) : ErpAp :=
  if ies.foldl (fun len ie => len + 2 + ie.data.length) 12 > 768 then s
  else
    let channel := ((ies.find? fun ie => decide (ie.elementId = eidDsset)).bind fun ie => ie.data.head?).getD 0
    let s := { s with
      curIes := ies
      dsConfig := channel.toNat
      ap := { s.ap with num := Function.update s.ap.num .noHt 0 } }
    let s := match ies.find? fun ie => decide (ie.elementId = eidErpinfo) with
      | none | some ⟨_, []⟩ => s
      | some ⟨_, b :: data⟩ => s.erpIeHandler (b :: data)
    s.startBssNetwork false ch

/-- After `start_ap_mode`. `ERP_enable` is as the last BSS has left it. -/
def start (maxNumSta : Nat) (erpEnable : Bool) : ErpAp := { ap := .start maxNumSta, erpEnable }

end ErpAp

inductive ErpEvent where
  | bss (e : BssEvent)
  | beacon (ies : List BcnIe) (ch : Option Nat)
  | startBss (requested : Bool) (ch : Option Nat)

namespace ErpAp

def next (s : ErpAp) : ErpEvent → ErpAp
  | .bss (.auth cfg f) => { s with ap := s.ap.onAuth cfg f }
  | .bss (.assocReq cfg f) => s.onAssocReq cfg f
  | .bss (.deAuth sa) => s.onDeAuth sa
  | .bss (.authExpire i) => { s with ap := s.ap.authExpire i }
  | .bss (.asocExpire i) => s.asocExpire i
  | .beacon ies ch => s.rtwCheckBeaconData ies ch
  | .startBss requested ch => s.startBssNetwork requested ch

/-- `num_sta_non_erp` becomes 1 from below, or 0 from above. -/
def Turns (n m : Int) : Prop := (m = 1 ∧ n = 0) ∨ (m = 0 ∧ n = 1)

instance (n m : Int) : Decidable (Turns n m) := inferInstanceAs (Decidable (_ ∨ _))

/-- A station that takes `num_sta_non_erp` to 1 or back to 0 finds `ERP_enable` set, or a beacon without an ERP
element. -/
def StepOk (s : ErpAp) : ErpEvent → Prop
  | .bss e => s.bstartBss = true → Turns (s.ap.num .nonErp) ((s.ap.bssNext e).num .nonErp) →
      s.erpEnable = true ∨ erpOctet s.ies = none
  | .beacon .. | .startBss .. => True

instance (s : ErpAp) : (e : ErpEvent) → Decidable (s.StepOk e)
  | .bss e => inferInstanceAs (Decidable (s.bstartBss = true →
      Turns (s.ap.num .nonErp) ((s.ap.bssNext e).num .nonErp) → s.erpEnable = true ∨ erpOctet s.ies = none))
  | .beacon .. | .startBss .. => .isTrue trivial

/-- Every call of `update_bcn_erpinfo_ie` left the bits that the counters ask for. -/
def UpdatesOk (s : ErpAp) : Prop := ∀ u ∈ s.updates, u.Ok

instance (s : ErpAp) : Decidable s.UpdatesOk := inferInstanceAs (Decidable (∀ u ∈ _, _))

end ErpAp

/-! ### The counters -/

namespace Ap
variable {a : Ap} {i : StaId} {k l : BssCapKind}

theorem setKind_num_of_ne (h : l ≠ k) : (a.setKind i k).num l = a.num l := by
  unfold setKind
  split
  · exact Function.update_of_ne h _ _
  · rfl

theorem clearKind_num_of_ne (h : l ≠ k) : (a.clearKind i k).num l = a.num l := by
  unfold clearKind
  split
  · exact Function.update_of_ne h _ _
  · rfl

theorem updateKind_num_of_ne (p : Prop) [Decidable p] (h : l ≠ k) :
    (if p then a.setKind i k else a.clearKind i k).num l = a.num l := by
  split
  · exact setKind_num_of_ne h
  · exact clearKind_num_of_ne h

theorem setIf_num_of_ne (p : Prop) [Decidable p] (h : l ≠ k) :
    (if p then a.setKind i k else a).num l = a.num l := by
  split
  · exact setKind_num_of_ne h
  · rfl

theorem setKind_num_self (h : a.capSet i k = false) : (a.setKind i k).num k = a.num k + 1 := by
  rw [setKind, h]
  exact Function.update_self ..

theorem clearKind_num_self (h : a.capSet i k = true) : (a.clearKind i k).num k = a.num k - 1 := by
  rw [clearKind, h]
  exact Function.update_self ..

theorem joinBehindErp_num (a : Ap) (i : StaId) : (a.joinBehindErp i).num .nonErp = a.num .nonErp := by
  unfold joinBehindErp
  dsimp only
  split
  · simp (disch := decide) only [setIf_num_of_ne, clearKind_num_of_ne, updateKind_num_of_ne]
  · simp (disch := decide) only [setKind_num_of_ne, updateKind_num_of_ne]

theorem leaveBehindErp_num (a : Ap) (i : StaId) : (a.leaveBehindErp i).num .nonErp = a.num .nonErp := by
  unfold leaveBehindErp
  dsimp only
  simp (disch := decide) only [clearKind_num_of_ne]

end Ap

/-! ### One call -/

theorem erpInfo_of_fin : ∀ (m : Fin 256) (protect barker : Bool),
    let b := if protect then UInt8.ofNat m ||| 0x03 else UInt8.ofNat m &&& ~~~0x03
    let b := if barker then b ||| 0x04 else b &&& ~~~0x04
    b.toNat.testBit 0 = protect ∧ b.toNat.testBit 1 = protect ∧ b.toNat.testBit 2 = barker := by
  decide +kernel

/-- With the counter at 0 or 1 the bits are the right ones. -/
theorem erpInfo_testBit {nonErp : Int} (noShortPreamble : Int) (b : UInt8) (h : nonErp = 1 ∨ nonErp = 0) :
    (erpInfo nonErp noShortPreamble b).toNat.testBit 0 = decide (nonErp > 0) ∧
      (erpInfo nonErp noShortPreamble b).toNat.testBit 1 = decide (nonErp > 0) ∧
      (erpInfo nonErp noShortPreamble b).toNat.testBit 2 = decide (noShortPreamble > 0) := by
  have hdec : decide (nonErp = 1) = decide (nonErp > 0) := by rcases h with rfl | rfl <;> rfl
  have hfin := erpInfo_of_fin ⟨b.toNat, b.toNat_lt⟩ (decide (nonErp = 1)) (decide (noShortPreamble > 0))
  simp only [UInt8.ofNat_toNat, decide_eq_true_eq] at hfin
  rwa [hdec] at hfin

theorem erpOctet_modifyIe {ies : List BcnIe} {ie : BcnIe} (b : UInt8) (data : List UInt8)
    (h : ies.find? (fun ie => decide (ie.elementId = eidErpinfo)) = some ie) :
    erpOctet (modifyIe eidErpinfo (fun _ => b :: data) ies) = some b := by
  unfold erpOctet
  induction ies with
  | nil => cases h
  | cons e ies ih =>
    unfold modifyIe
    by_cases he : e.elementId = eidErpinfo
    · rw [if_pos he, List.find?_cons_of_pos (by simpa using he)]
      rfl
    · rw [if_neg he, List.find?_cons_of_neg (by simpa using he)]
      exact ih (by rwa [List.find?_cons_of_neg (by simpa using he)] at h)

namespace ErpAp
variable {s : ErpAp} {i : StaId}

theorem erpIeHandler_ap (data : List UInt8) (s : ErpAp) : (s.erpIeHandler data).ap = s.ap := by
  unfold erpIeHandler
  split <;> rfl

theorem erpIeHandler_ies (data : List UInt8) (s : ErpAp) : (s.erpIeHandler data).ies = s.ies := by
  unfold erpIeHandler
  split <;> rfl

theorem erpIeHandler_updates (data : List UInt8) (s : ErpAp) : (s.erpIeHandler data).updates = s.updates := by
  unfold erpIeHandler
  split <;> rfl

theorem updateBcnErpinfoIe_ap (s : ErpAp) : s.updateBcnErpinfoIe.ap = s.ap := by
  unfold updateBcnErpinfoIe
  split
  · rfl
  · split
    · rfl
    · rfl
    · exact erpIeHandler_ap _ _

theorem updateBcnErpinfoIe_updates (s : ErpAp) : s.updateBcnErpinfoIe.updates = s.updates := by
  unfold updateBcnErpinfoIe
  split
  · rfl
  · split
    · rfl
    · rfl
    · exact erpIeHandler_updates _ _

theorem updateBeaconErp_ap (s : ErpAp) : s.updateBeaconErp.ap = s.ap := by
  unfold updateBeaconErp
  split
  · exact updateBcnErpinfoIe_ap s
  · rfl

/-- An element that is enabled, or not there, is rewritten. -/
theorem updateBcnErpinfoIe_octet {b : UInt8} (hen : s.erpEnable = true ∨ erpOctet s.ies = none)
    (hb : erpOctet s.updateBcnErpinfoIe.ies = some b) :
    ∃ c, b = erpInfo (s.ap.num .nonErp) (s.ap.num .noShortPreamble) c := by
  unfold updateBcnErpinfoIe at hb
  cases he : s.erpEnable with
  | false =>
    rw [he, if_pos (by rfl), hen.resolve_left (by simp [he])] at hb
    cases hb
  | true =>
    rw [he, if_neg (by simp)] at hb
    cases hf : s.ies.find? fun ie => decide (ie.elementId = eidErpinfo) with
    | none => simp [hf, erpOctet] at hb
    | some ie =>
      obtain ⟨id, data⟩ := ie
      cases data with
      | nil => simp [hf, erpOctet] at hb
      | cons c data =>
        rw [hf] at hb
        dsimp only at hb
        rw [erpIeHandler_ies, erpOctet_modifyIe _ _ hf] at hb
        exact ⟨c, (Option.some.inj hb).symm⟩

theorem UpdatesOk.updateBeacon (h : s.UpdatesOk)
    (hen : s.bstartBss = true → s.erpEnable = true ∨ erpOctet s.ies = none)
    (hn : s.ap.num .nonErp = 1 ∨ s.ap.num .nonErp = 0) : s.updateBeaconErp.UpdatesOk := by
  unfold updateBeaconErp
  split
  · rename_i hstart
    intro u hu
    unfold recordUpdate at hu
    rw [updateBcnErpinfoIe_updates, updateBcnErpinfoIe_ap] at hu
    rcases List.mem_append.1 hu with hu | hu
    · exact h u hu
    · obtain rfl := List.mem_singleton.1 hu
      intro b hb
      obtain ⟨c, rfl⟩ := updateBcnErpinfoIe_octet (hen hstart) hb
      exact erpInfo_testBit _ c hn
  · exact h

/-! ### The marks -/

theorem setNonErp_ap (s : ErpAp) (i : StaId) : (s.setNonErp i).ap = s.ap.setKind i .nonErp := by
  unfold setNonErp
  split
  · dsimp only
    split
    · exact updateBeaconErp_ap _
    · rfl
  · rename_i hc
    exact (if_neg hc).symm

theorem clearNonErp_ap (s : ErpAp) (i : StaId) : (s.clearNonErp i).ap = s.ap.clearKind i .nonErp := by
  unfold clearNonErp
  split
  · dsimp only
    split
    · exact updateBeaconErp_ap _
    · rfl
  · rename_i hc
    exact (if_neg hc).symm

theorem UpdatesOk.setNonErp (h : s.UpdatesOk)
    (hen : s.bstartBss = true → Turns (s.ap.num .nonErp) ((s.ap.setKind i .nonErp).num .nonErp) →
      s.erpEnable = true ∨ erpOctet s.ies = none) : (s.setNonErp i).UpdatesOk := by
  unfold ErpAp.setNonErp
  split
  · rename_i hc
    have hnum := Ap.setKind_num_self (by simpa using hc)
    dsimp only
    split
    · rename_i hone
      refine UpdatesOk.updateBeacon (s := { s with ap := s.ap.setKind i .nonErp }) h (fun hb => ?_) (.inl hone)
      exact hen hb (.inl ⟨hone, by omega⟩)
    · exact h
  · exact h

theorem UpdatesOk.clearNonErp (h : s.UpdatesOk)
    (hen : s.bstartBss = true → Turns (s.ap.num .nonErp) ((s.ap.clearKind i .nonErp).num .nonErp) →
      s.erpEnable = true ∨ erpOctet s.ies = none) : (s.clearNonErp i).UpdatesOk := by
  unfold ErpAp.clearNonErp
  split
  · rename_i hc
    have hnum := Ap.clearKind_num_self hc
    dsimp only
    split
    · rename_i hzero
      refine UpdatesOk.updateBeacon (s := { s with ap := s.ap.clearKind i .nonErp }) h (fun hb => ?_) (.inr hzero)
      exact hen hb (.inr ⟨hzero, by omega⟩)
    · exact h
  · exact h

/-! ### The stations -/

theorem setOrClear_ap (p : Bool) (s : ErpAp) (i : StaId) :
    (if p then s.setNonErp i else s.clearNonErp i).ap =
      if p then s.ap.setKind i .nonErp else s.ap.clearKind i .nonErp := by
  cases p
  · exact clearNonErp_ap s i
  · exact setNonErp_ap s i

theorem bssCapUpdateOnStaJoin_ap (s : ErpAp) (i : StaId) :
    (s.bssCapUpdateOnStaJoin i).ap = s.ap.bssCapUpdateOnStaJoin i := by
  unfold bssCapUpdateOnStaJoin
  dsimp only
  rw [setOrClear_ap]
  unfold Ap.bssCapUpdateOnStaJoin Ap.joinBehindErp
  have hcap : ∀ (p q : Bool) (a : Ap),
      Ap.cap (if q then (if p then a.setKind i .noShortPreamble else a.clearKind i .noShortPreamble).setKind i .nonErp
        else (if p then a.setKind i .noShortPreamble else a.clearKind i .noShortPreamble).clearKind i .nonErp) =
      a.cap := by
    intro p q a
    have hp := Ap.onlyCounts_update (p = true) a i .noShortPreamble
    have hq := Ap.onlyCounts_update (q = true)
      (if p then a.setKind i .noShortPreamble else a.clearKind i .noShortPreamble) i .nonErp
    rw [(hp.trans hq)]
  dsimp only
  rw [hcap]

theorem bssCapUpdateOnStaLeave_ap (s : ErpAp) (i : StaId) :
    (s.bssCapUpdateOnStaLeave i).ap = s.ap.bssCapUpdateOnStaLeave i := by
  unfold bssCapUpdateOnStaLeave
  dsimp only
  rw [clearNonErp_ap]
  rfl

theorem onAssocReq_ap (cfg : BssCfg) (f : MgmtFrame) (s : ErpAp) :
    (s.onAssocReq cfg f).ap = s.ap.onAssocReq cfg f := by
  unfold onAssocReq Ap.onAssocReq
  cases assocReqSta cfg.toApCfg f s.ap.pool with
  | none => rfl
  | some i =>
    dsimp only
    split
    · show Ap.staInfoUpdate cfg (ErpAp.bssCapUpdateOnStaJoin _ i).ap i = _
      rw [bssCapUpdateOnStaJoin_ap]
    · rfl

theorem asocExpire_ap (s : ErpAp) (i : StaId) : (s.asocExpire i).ap = s.ap.asocExpire i := by
  unfold asocExpire Ap.asocExpire
  split
  · unfold apFreeSta Ap.apFreeSta
    dsimp only
    rw [bssCapUpdateOnStaLeave_ap]
  · rfl

theorem next_ap (s : ErpAp) (e : BssEvent) : (s.next (.bss e)).ap = s.ap.bssNext e := by
  cases e with
  | auth cfg f => rfl
  | assocReq cfg f => exact onAssocReq_ap cfg f s
  | deAuth sa =>
    show (s.onDeAuth sa).ap = s.ap.onDeAuth sa
    unfold onDeAuth Ap.onDeAuth
    cases rtwGetStainfo s.ap.pool sa with
    | none => rfl
    | some i => exact asocExpire_ap s i
  | authExpire i => rfl
  | asocExpire i => exact asocExpire_ap s i

/-! ### Every run -/

theorem UpdatesOk.join (h : s.UpdatesOk)
    (hen : s.bstartBss = true → Turns (s.ap.num .nonErp) ((s.ap.bssCapUpdateOnStaJoin i).num .nonErp) →
      s.erpEnable = true ∨ erpOctet s.ies = none) : (s.bssCapUpdateOnStaJoin i).UpdatesOk := by
  rw [← bssCapUpdateOnStaJoin_ap] at hen
  unfold ErpAp.bssCapUpdateOnStaJoin at hen ⊢
  dsimp only at hen ⊢
  rw [Ap.joinBehindErp_num] at hen
  rw [← Ap.updateKind_num_of_ne (a := s.ap) (i := i) (k := .noShortPreamble) (!(s.ap.cap i).shortPreamble) (by decide)] at hen
  cases hp : (s.ap.cap i).nonerp with
  | true =>
    rw [hp, if_pos rfl, setNonErp_ap] at hen
    exact UpdatesOk.setNonErp (s := { s with ap := _ }) h hen
  | false =>
    rw [hp, if_neg Bool.false_ne_true, clearNonErp_ap] at hen
    exact UpdatesOk.clearNonErp (s := { s with ap := _ }) h hen

theorem UpdatesOk.leave (h : s.UpdatesOk)
    (hen : s.bstartBss = true → Turns (s.ap.num .nonErp) ((s.ap.bssCapUpdateOnStaLeave i).num .nonErp) →
      s.erpEnable = true ∨ erpOctet s.ies = none) : (s.bssCapUpdateOnStaLeave i).UpdatesOk := by
  rw [← bssCapUpdateOnStaLeave_ap] at hen
  unfold ErpAp.bssCapUpdateOnStaLeave at hen ⊢
  dsimp only at hen ⊢
  rw [Ap.leaveBehindErp_num, clearNonErp_ap] at hen
  rw [← Ap.clearKind_num_of_ne (a := s.ap) (i := i) (k := .noShortPreamble) (by decide)] at hen
  exact UpdatesOk.clearNonErp (s := { s with ap := s.ap.clearKind i .noShortPreamble }) h hen

theorem UpdatesOk.asocExpire (h : s.UpdatesOk)
    (hen : s.bstartBss = true → Turns (s.ap.num .nonErp) ((s.ap.asocExpire i).num .nonErp) →
      s.erpEnable = true ∨ erpOctet s.ies = none) : (s.asocExpire i).UpdatesOk := by
  unfold Ap.asocExpire Ap.apFreeSta at hen
  unfold ErpAp.asocExpire
  split
  · rename_i hi
    rw [if_pos hi] at hen
    unfold ErpAp.apFreeSta
    exact UpdatesOk.leave (s := { s with ap := _ }) h hen
  · exact h

theorem UpdatesOk.startBssNetwork (h : s.UpdatesOk) (requested : Bool) (ch : Option Nat) :
    (s.startBssNetwork requested ch).UpdatesOk := by
  have hch : ∀ (ch : Nat) (t : ErpAp), (t.rtwApUpdateBssChbw ch).updates = t.updates := by
    intro ch t
    unfold rtwApUpdateBssChbw
    dsimp only
    split <;> rfl
  have hupd : (s.startBssNetwork requested ch).updates = s.updates := by
    unfold ErpAp.startBssNetwork
    dsimp only
    cases ch with
    | none =>
      dsimp only
      split <;> rfl
    | some ch =>
      dsimp only
      rw [hch]
      split <;> rfl
  unfold UpdatesOk
  rw [hupd]
  exact h

theorem UpdatesOk.next (h : s.UpdatesOk) (e : ErpEvent) (hok : s.StepOk e) : (s.next e).UpdatesOk := by
  cases e with
  | bss e =>
    cases e with
    | auth cfg f => exact h
    | authExpire i => exact h
    | asocExpire i => exact h.asocExpire hok
    | deAuth sa =>
      show (s.onDeAuth sa).UpdatesOk
      unfold onDeAuth
      cases hi : rtwGetStainfo s.ap.pool sa with
      | none => exact h
      | some i =>
        refine h.asocExpire fun hb ht => hok hb ?_
        show Turns _ ((s.ap.onDeAuth sa).num .nonErp)
        unfold Ap.onDeAuth
        rwa [hi]
    | assocReq cfg f =>
      show (s.onAssocReq cfg f).UpdatesOk
      unfold onAssocReq
      cases hi : assocReqSta cfg.toApCfg f s.ap.pool with
      | none => exact h
      | some i =>
        dsimp only
        split
        · rename_i hacc
          refine UpdatesOk.join (s := { s with ap := _ }) h fun hb ht => hok hb ?_
          show Turns _ ((s.ap.onAssocReq cfg f).num .nonErp)
          unfold Ap.onAssocReq
          rw [hi]
          dsimp only
          rw [if_pos hacc]
          exact ht
        · exact h
  | beacon ies ch =>
    show (s.rtwCheckBeaconData ies ch).UpdatesOk
    unfold rtwCheckBeaconData
    split
    · exact h
    · refine UpdatesOk.startBssNetwork ?_ false ch
      split
      · exact h
      · exact h
      · unfold UpdatesOk
        rw [erpIeHandler_updates]
        exact h
  | startBss requested ch => exact h.startBssNetwork requested ch

theorem updatesOk_start (maxNumSta : Nat) (erpEnable : Bool) : (start maxNumSta erpEnable).UpdatesOk :=
  fun u hu => absurd hu (List.not_mem_nil (a := u))

/-- In a run that takes `num_sta_non_erp` to 1 or back to 0 only where the element is enabled, or not there,
every call of `update_bcn_erpinfo_ie` leaves the bits that the counters ask for. -/
theorem updatesOk_run (maxNumSta : Nat) (erpEnable : Bool) (evs : List ErpEvent)
    (hok : Machine.RunOk next StepOk (start maxNumSta erpEnable) evs) :
    (Machine.run next (start maxNumSta erpEnable) evs).UpdatesOk :=
  Machine.run_invariant_of_ok (fun _ e h hok => h.next e hok) (updatesOk_start maxNumSta erpEnable) hok

/-- On channel 1 with an ERP element: two stations without ERP join, and leave again. -/
theorem updatesOk_run_two : (Machine.run next (start 32 false)
    ([.beacon [⟨0, [0x61]⟩, ⟨1, [0x82]⟩, ⟨3, [1]⟩, ⟨42, [0]⟩] (some 1)] ++
      (Ap.joinBss 1 1 0 ++ Ap.joinBss 2 1 4 ++
          [BssEvent.deAuth (StaPriv.staAddr 1), .deAuth (StaPriv.staAddr 2)]).map .bss)).UpdatesOk :=
  updatesOk_run 32 false _ (by decide +kernel)

/-- From channel 36 to channel 1: the element is not enabled, and a station without ERP is not protected. -/
theorem not_updatesOk_band : ¬ (Machine.run next (start 32 false)
    ([.beacon [⟨0, [0x61]⟩, ⟨1, [0x8c]⟩] (some 36), .startBss true (some 1)] ++
      (Ap.joinBss 1 1 0).map .bss)).UpdatesOk := by
  decide +kernel

end ErpAp

end Rtw
