import Mathlib.Data.List.FinRange
import Rtw.Mlme.BssCap

/-!
# The HT Operation element of the beacon

An HT access point on a 2.4 GHz channel, 40 MHz wide. The element says 20 MHz while something asks for it,
and carries the operation mode; `update_bcn_htinfo_ie` rewrites it, with `sw_to_20mhz` as a latch.
`HtAp` puts the element and what it depends on beside the stations of `Ap`; `HtAp.elemOk_iff`: after every
event it is as it should be, exactly in the runs of `HtAp.StepOk` steps.
-/

namespace Rtw

/-- The fields of the element that are rewritten. -/
structure HtInfoElement where
  secondaryChannelOffset : Nat
  staChannelWidth : Bool
  /-- `infos[1]` and `infos[2]` -/
  operationMode : BitVec 16
  deriving DecidableEq

/-- What `struct mlme_priv` keeps for the element. `ht_option` and `HT_info_enable` are set, `cur_channel` is
at most 14, and `cur_bwmode` is `CHANNEL_WIDTH_40`. -/
structure HtAp where
  ap : Ap
  /-- `IEEE80211_HT_CAP_SUP_WIDTH` of the access point's own capabilities -/
  supWidth : Bool
  /-- `cur_ch_offset` is `HAL_PRIME_CHNL_OFFSET_LOWER`. -/
  lower : Bool
  olbc : Bool
  olbcHt : Bool
  ht20mhzWidthReq : Bool := false
  htIntolerantChReported : Bool := false
  swTo20mhz : Bool := false
  htOpMode : BitVec 16 := 0
  elem : HtInfoElement

/-- `rtw_ht_operation_update` on `ht_op_mode`, with the number of changes; the flags say which of the counters
are not 0. -/
def htOperationUpdate (supWidth olbcHt noGf noHt ht20mhz : Bool) (mode : BitVec 16) : BitVec 16 × Nat :=
  let (mode, changes) :=
    if mode &&& 0x04 = 0 ∧ noGf then (mode ||| 0x04, 1)
    else if mode &&& 0x04 ≠ 0 ∧ !noGf then (mode &&& ~~~0x04, 1)
    else (mode, 0)
  let (mode, changes) :=
    if mode &&& 0x10 = 0 ∧ (noHt || olbcHt) then (mode ||| 0x10, changes + 1)
    else if mode &&& 0x10 ≠ 0 ∧ (!noHt && !olbcHt) then (mode &&& ~~~0x10, changes + 1)
    else (mode, changes)
  let newOpMode := if noHt then 3 else if supWidth && ht20mhz then 2 else if olbcHt then 1 else 0
  if mode &&& 0x03 ≠ newOpMode then (mode &&& ~~~0x03 ||| newOpMode, changes + 1) else (mode, changes)

/-- The mode that the rules of `rtw_ht_operation_update` give. -/
def htOpModeOf (supWidth olbcHt noGf noHt ht20mhz : Bool) : BitVec 16 :=
  (if noHt then 3 else if supWidth && ht20mhz then 2 else if olbcHt then 1 else 0) |||
    (if noGf then 0x04 else 0) ||| (if noHt || olbcHt then 0x10 else 0)

/-- The bits of `ht_op_mode` that are in use. -/
def usedModeBits : BitVec 16 := 0x17

theorem htOperationUpdate_of_fin : ∀ (m : Fin 24) (supWidth olbcHt noGf noHt ht20mhz : Bool),
    let mode := BitVec.ofNat 16 m.val
    let rules := htOpModeOf supWidth olbcHt noGf noHt ht20mhz
    mode &&& usedModeBits = mode →
      (htOperationUpdate supWidth olbcHt noGf noHt ht20mhz mode).1 = rules ∧
        ((htOperationUpdate supWidth olbcHt noGf noHt ht20mhz mode).2 = 0 ↔ mode = rules) := by
  decide +kernel

/-- From any mode the update arrives at what the rules give, and counts no change only if it was there. -/
theorem htOperationUpdate_eq (supWidth olbcHt noGf noHt ht20mhz : Bool) {mode : BitVec 16}
    (h : mode &&& usedModeBits = mode) :
    (htOperationUpdate supWidth olbcHt noGf noHt ht20mhz mode).1 = htOpModeOf supWidth olbcHt noGf noHt ht20mhz ∧
      ((htOperationUpdate supWidth olbcHt noGf noHt ht20mhz mode).2 = 0 ↔
        mode = htOpModeOf supWidth olbcHt noGf noHt ht20mhz) := by
  have hlt : mode.toNat < 24 := by
    have hand : mode.toNat = mode.toNat &&& 0x17 := by
      conv_lhs => rw [← h]
      rfl
    have : mode.toNat &&& 0x17 ≤ 0x17 := Nat.and_le_right
    omega
  have hfin := htOperationUpdate_of_fin ⟨mode.toNat, hlt⟩ supWidth olbcHt noGf noHt ht20mhz
  simp only [BitVec.ofNat_toNat, BitVec.setWidth_eq] at hfin
  exact hfin h

theorem htOpModeOf_used : ∀ supWidth olbcHt noGf noHt ht20mhz : Bool,
    htOpModeOf supWidth olbcHt noGf noHt ht20mhz &&& usedModeBits = htOpModeOf supWidth olbcHt noGf noHt ht20mhz := by
  decide

/-- With a legacy BSS around, the mode says that there may be stations without HT. -/
theorem htOpModeOf_olbc : ∀ supWidth noGf noHt ht20mhz : Bool,
    (htOpModeOf supWidth true noGf noHt ht20mhz).getLsbD 4 = true := by
  decide

namespace HtAp

/-- The secondary channel of the access point: above or below. -/
def ownOffset (s : HtAp) : Nat := if s.lower then 1 else 3

/-- Something asks for 20 MHz. -/
def needs20 (s : HtAp) : Bool :=
  decide (s.ap.num .fortyMhzIntolerant > 0) || s.ht20mhzWidthReq || s.htIntolerantChReported || s.olbc

/-- What the rules give for the counters. -/
def modeRules (s : HtAp) : BitVec 16 :=
  htOpModeOf s.supWidth s.olbcHt (s.ap.num .htNoGf ≠ 0) (s.ap.num .noHt ≠ 0) (s.ap.num .ht20mhz ≠ 0)

def updateBcnHtinfoIe (s : HtAp) : HtAp :=
  let s :=
    if !s.swTo20mhz then
      if s.needs20 then
        { s with
          elem := { s.elem with secondaryChannelOffset := 0, staChannelWidth := false }
          swTo20mhz := true }
      else s
    else if s.ap.num .fortyMhzIntolerant = 0 ∧ !s.ht20mhzWidthReq ∧ !s.htIntolerantChReported ∧ !s.olbc then
      { s with
        elem := { s.elem with secondaryChannelOffset := s.ownOffset, staChannelWidth := true }
        swTo20mhz := false }
    else s
  { s with elem := { s.elem with operationMode := s.htOpMode } }

/-- `rtw_ht_operation_update`, and the rewriting of the element if there was a change. -/
def htOperationChange (s : HtAp) : HtAp :=
  let (mode, changes) := htOperationUpdate s.supWidth s.olbcHt (s.ap.num .htNoGf ≠ 0) (s.ap.num .noHt ≠ 0)
    (s.ap.num .ht20mhz ≠ 0) s.htOpMode
  let s := { s with htOpMode := mode }
  if changes > 0 then s.updateBcnHtinfoIe else s

def bssCapUpdateOnStaJoin (s : HtAp) (i : StaId) : HtAp :=
  { s with ap := s.ap.bssCapUpdateOnStaJoin i }.htOperationChange

def bssCapUpdateOnStaLeave (s : HtAp) (i : StaId) : HtAp :=
  let intolerant := s.ap.capSet i .fortyMhzIntolerant
  let s := { s with ap := s.ap.bssCapUpdateOnStaLeave i }
  let s := if intolerant then s.updateBcnHtinfoIe else s
  s.htOperationChange

/-- The access point as it is started. A legacy BSS seen by `rtw_ap_check_scan` sets `olbc` and `olbc_ht`, and
`start_bss_network` begins with another mode. -/
def start (maxNumSta : Nat) (supWidth lower olbc : Bool) : HtAp :=
  let s : HtAp := { ap := .start maxNumSta, supWidth, lower, olbc, olbcHt := olbc, elem := ⟨0, true, 0⟩ }
  let s := { s with elem := { s.elem with secondaryChannelOffset := s.ownOffset } }
  if olbc then { s with htOpMode := s.htOpMode &&& ~~~0x03 ||| 1 }.updateBcnHtinfoIe else s

def onAssocReq (cfg : BssCfg) (f : MgmtFrame) (s : HtAp) : HtAp :=
  match assocReqSta cfg.toApCfg f s.ap.pool with
  | none => s
  | some i =>
    let (pool, ok, _) := Rtw.onAssocReq cfg.toApCfg f s.ap.pool
    let a := { s.ap with pool, cap := Function.update s.ap.cap i (assocReqCap cfg f (s.ap.cap i)) }
    if ok then
      let s := { s with ap := a.toAsocList i }.bssCapUpdateOnStaJoin i
      { s with ap := s.ap.staInfoUpdate cfg i }
    else { s with ap := a }

def apFreeSta (s : HtAp) (i : StaId) : HtAp :=
  let a := { s.ap with ps := Function.update s.ap.ps i { s.ap.ps i with linked := false } }
  let s := { s with ap := a }.bssCapUpdateOnStaLeave i
  { s with ap := s.ap.rtwFreeStainfo i }

/-- A station of `asoc_list` goes: `expire_timeout_chk`, `rtw_sta_flush`. -/
def asocExpire (s : HtAp) (i : StaId) : HtAp :=
  if i ∈ s.ap.asocList then { s with ap := { s.ap with asocList := s.ap.asocList.erase i } }.apFreeSta i else s

/-- `OnDeAuth` and `OnDisassoc` -/
def onDeAuth (s : HtAp) (sa : MacAddr) : HtAp :=
  match rtwGetStainfo s.ap.pool sa with
  | none => s
  | some i => s.asocExpire i

/-- `rtw_process_public_act_bsscoex`; `body` is what follows the header. -/
def processPublicActBsscoex (s : HtAp) (ta : MacAddr) (body : List UInt8) : HtAp :=
  match rtwGetStainfo s.ap.pool ta with
  | none => s
  | some i =>
    let (s, updated) :=
      if body.length > 0 ∧ byteAt body 2 = 72 ∧ byteAt body 3 > 0 then
        if (byteAt body 4).testBit 1 then
          if !s.ap.capSet i .fortyMhzIntolerant then
            ({ s with ap := s.ap.setKind i .fortyMhzIntolerant }, true)
          else (s, false)
        else if (byteAt body 4).testBit 2 then
          if !s.ht20mhzWidthReq then ({ s with ht20mhzWidthReq := true }, true) else (s, false)
        else (s, false)
      else (s, false)
    let (s, updated) :=
      if body.length > 8 ∧ byteAt body 5 = 73 ∧ byteAt body 6 > 0 ∧ !s.htIntolerantChReported then
        ({ s with htIntolerantChReported := true }, true)
      else (s, updated)
    if updated then s.updateBcnHtinfoIe else s

end HtAp

inductive HtEvent where
  | bss (e : BssEvent)
  /-- A 20/40 BSS coexistence frame. -/
  | bsscoex (ta : MacAddr) (body : List UInt8)

namespace HtAp

def next (s : HtAp) : HtEvent → HtAp
  | .bss (.auth cfg f) => { s with ap := s.ap.onAuth cfg f }
  | .bss (.assocReq cfg f) => s.onAssocReq cfg f
  | .bss (.deAuth sa) => s.onDeAuth sa
  | .bss (.authExpire i) => { s with ap := s.ap.authExpire i }
  | .bss (.asocExpire i) => s.asocExpire i
  | .bsscoex ta body => s.processPublicActBsscoex ta body

/-- The element says 20 MHz exactly if something asks for it, the access point's own setting otherwise, and
the mode that the rules give. -/
def ElemOk (s : HtAp) : Prop :=
  (if s.needs20 then s.elem.secondaryChannelOffset = 0 ∧ s.elem.staChannelWidth = false
    else s.elem.secondaryChannelOffset = s.ownOffset ∧ s.elem.staChannelWidth = true) ∧
    s.elem.operationMode = s.modeRules

instance (s : HtAp) : Decidable s.ElemOk := inferInstanceAs (Decidable (_ ∧ _))

/-- The mode after a station with HT and the capabilities `c` has joined. -/
def modeAfterJoin (s : HtAp) (i : StaId) (c : StaCap) : BitVec 16 :=
  htOpModeOf s.supWidth s.olbcHt (s.ap.num .htNoGf ≠ 0 || c.has .htNoGf)
    (s.ap.num .noHt ≠ if s.ap.capSet i .noHt then 1 else 0) (s.ap.num .ht20mhz ≠ 0 || c.has .ht20mhz)

/-- No legacy BSS was seen, or a station has come or gone since the start. -/
def Settled (s : HtAp) : Prop := s.olbc = true → s.htOpMode.getLsbD 4 = true

/-- A station that joins as the only one to ask for 20 MHz changes the mode too. What is no association and no
departure finds the mode settled. -/
def StepOk (s : HtAp) : HtEvent → Prop
  | .bss (.assocReq cfg f) =>
    match assocReqSta cfg.toApCfg f s.ap.pool with
    | none => s.Settled
    | some i =>
      if Accepts cfg.toApCfg f s.ap.pool i then
        s.needs20 = false → (assocReqCap cfg f (s.ap.cap i)).has .fortyMhzIntolerant = true →
          s.htOpMode ≠ s.modeAfterJoin i (assocReqCap cfg f (s.ap.cap i))
      else s.Settled
  | .bss (.deAuth sa) => (∃ i, rtwGetStainfo s.ap.pool sa = some i ∧ i ∈ s.ap.asocList) ∨ s.Settled
  | .bss (.asocExpire i) => i ∈ s.ap.asocList ∨ s.Settled
  | .bss (.auth ..) | .bss (.authExpire _) | .bsscoex .. => s.Settled

/-! ### The stations -/

section
variable {s : HtAp} {i : StaId}

@[simp] theorem updateBcnHtinfoIe_ap : s.updateBcnHtinfoIe.ap = s.ap := by
  unfold updateBcnHtinfoIe
  dsimp only
  split
  · split <;> rfl
  · split <;> rfl

@[simp] theorem htOperationChange_ap : s.htOperationChange.ap = s.ap := by
  unfold htOperationChange
  dsimp only
  split
  · rw [updateBcnHtinfoIe_ap]
  · rfl

theorem bssCapUpdateOnStaJoin_ap : (s.bssCapUpdateOnStaJoin i).ap = s.ap.bssCapUpdateOnStaJoin i :=
  htOperationChange_ap

theorem bssCapUpdateOnStaLeave_ap : (s.bssCapUpdateOnStaLeave i).ap = s.ap.bssCapUpdateOnStaLeave i := by
  unfold bssCapUpdateOnStaLeave
  dsimp only
  rw [htOperationChange_ap]
  split
  · rw [updateBcnHtinfoIe_ap]
  · rfl

theorem onAssocReq_ap (cfg : BssCfg) (f : MgmtFrame) (s : HtAp) :
    (s.onAssocReq cfg f).ap = s.ap.onAssocReq cfg f := by
  unfold onAssocReq Ap.onAssocReq
  cases assocReqSta cfg.toApCfg f s.ap.pool with
  | none => rfl
  | some i =>
    dsimp only
    split
    · show Ap.staInfoUpdate cfg (HtAp.bssCapUpdateOnStaJoin _ i).ap i = _
      rw [bssCapUpdateOnStaJoin_ap]
    · rfl

theorem asocExpire_ap (s : HtAp) (i : StaId) : (s.asocExpire i).ap = s.ap.asocExpire i := by
  unfold asocExpire Ap.asocExpire
  split
  · unfold apFreeSta Ap.apFreeSta
    dsimp only
    rw [bssCapUpdateOnStaLeave_ap]
  · rfl

theorem next_ap (s : HtAp) (e : BssEvent) : (s.next (.bss e)).ap = s.ap.bssNext e := by
  cases e with
  | auth cfg f => rfl
  | assocReq cfg f => exact onAssocReq_ap cfg f s
  | deAuth sa =>
    show (s.onDeAuth sa).ap = s.ap.onDeAuth sa
    unfold onDeAuth Ap.onDeAuth
    cases rtwGetStainfo s.ap.pool sa with
    | none => rfl
    | some i => exact asocExpire_ap s i
  | authExpire i => rfl
  | asocExpire i => exact asocExpire_ap s i

end

end HtAp

/-! ### The counters are not too small

A counter is never behind the marks: a station that is freed with its marks leaves it too large. -/

namespace Ap

/-- Each counter is the number of marks, and more by what has been lost. -/
def Counted (a : Ap) : Prop :=
  ∀ k, ∃ lost : Nat, Tally (a.num k - lost) (List.finRange numSta) fun i => a.capSet i k

variable {a b : Ap} {i : StaId} {k : BssCapKind}

theorem Counted.congr (h : a.Counted) (hset : b.capSet = a.capSet) (hnum : b.num = a.num) : b.Counted := by
  unfold Counted at h ⊢
  rw [hset, hnum]
  exact h

theorem Counted.start (maxNumSta : Nat) : (start maxNumSta).Counted := fun _ => ⟨0, .zero _⟩

theorem Counted.nonneg (h : a.Counted) (k : BssCapKind) : 0 ≤ a.num k := by
  obtain ⟨lost, h⟩ := h k
  have := h.nonneg
  omega

theorem Counted.pos (h : a.Counted) (hi : a.capSet i k = true) : 0 < a.num k := by
  obtain ⟨lost, h⟩ := h k
  have := h.pos (List.mem_finRange i) hi
  omega

theorem Counted.setKind (h : a.Counted) (i : StaId) (k : BssCapKind) : (a.setKind i k).Counted := by
  unfold Ap.setKind
  split
  · rename_i hc
    intro l
    obtain ⟨lost, hl⟩ := h l
    refine ⟨lost, ?_⟩
    dsimp only
    rcases eq_or_ne l k with rfl | hne
    · rw [Function.update_self, show a.num l + 1 - lost = a.num l - lost + 1 by omega]
      exact hl.update_mark (List.nodup_finRange _) (List.mem_finRange i) (by simpa using hc)
    · rw [Function.update_of_ne hne]
      exact hl.update_of_ne hne _
  · exact h

theorem Counted.clearKind (h : a.Counted) (i : StaId) (k : BssCapKind) : (a.clearKind i k).Counted := by
  unfold Ap.clearKind
  split
  · rename_i hc
    intro l
    obtain ⟨lost, hl⟩ := h l
    refine ⟨lost, ?_⟩
    dsimp only
    rcases eq_or_ne l k with rfl | hne
    · rw [Function.update_self, show a.num l - 1 - lost = a.num l - lost - 1 by omega]
      exact hl.update_unmark (List.nodup_finRange _) (List.mem_finRange i) hc
    · rw [Function.update_of_ne hne]
      exact hl.update_of_ne hne _
  · exact h

/-- A new entry begins without marks, and the counters keep those it had. -/
theorem Counted.unmark (h : a.Counted) (hset : b.capSet = Function.update a.capSet i fun _ => false)
    (hnum : b.num = a.num) : b.Counted := by
  intro l
  obtain ⟨lost, hl⟩ := h l
  rw [hnum, hset]
  have hself : (Function.update a.capSet i fun _ => false) i l = false := by rw [Function.update_self]
  have hother : ∀ j, j ≠ i → (Function.update a.capSet i fun _ => false) j l = a.capSet j l := by
    intro j hj
    rw [Function.update_of_ne hj]
  cases hc : a.capSet i l
  · refine ⟨lost, hl.congr fun j _ => ?_⟩
    rcases eq_or_ne j i with rfl | hj
    · rw [hself, hc]
    · exact hother j hj
  · refine ⟨lost + 1, ?_⟩
    rw [show a.num l - (lost + 1 : Nat) = a.num l - lost - 1 by omega]
    exact hl.unmark (List.nodup_finRange _) (List.mem_finRange i) hc hself hother

/-- From `a` to `b` each counter has changed by the mark of the station. -/
def Balanced (i : StaId) (a b : Ap) : Prop :=
  ∀ k, b.num k - (if b.capSet i k then 1 else 0) = a.num k - if a.capSet i k then 1 else 0

theorem setKind_num (a : Ap) (i : StaId) (k l : BssCapKind) :
    (a.setKind i k).num l = if l = k ∧ a.capSet i k = false then a.num l + 1 else a.num l := by
  unfold setKind
  split
  · rename_i hc
    have hc : a.capSet i k = false := by simpa using hc
    dsimp only
    rcases eq_or_ne l k with rfl | hne
    · rw [Function.update_self, if_pos ⟨rfl, hc⟩]
    · rw [Function.update_of_ne hne, if_neg fun h => hne h.1]
  · rename_i hc
    have hc : a.capSet i k = true := by simpa using hc
    rw [if_neg fun h => by rw [hc] at h; cases h.2]

theorem clearKind_num (a : Ap) (i : StaId) (k l : BssCapKind) :
    (a.clearKind i k).num l = if l = k ∧ a.capSet i k = true then a.num l - 1 else a.num l := by
  unfold clearKind
  split
  · rename_i hc
    dsimp only
    rcases eq_or_ne l k with rfl | hne
    · rw [Function.update_self, if_pos ⟨rfl, hc⟩]
    · rw [Function.update_of_ne hne, if_neg fun h => hne h.1]
  · rename_i hc
    rw [if_neg fun h => hc h.2]

theorem Balanced.setKind (h : Balanced i a b) : Balanced i a (b.setKind i k) := by
  intro l
  rw [← h l, setKind_self, setKind_num]
  rcases eq_or_ne l k with rfl | hne
  · cases b.capSet i l <;> simp
  · rw [if_neg fun h => hne h.1, if_neg hne]

theorem Balanced.clearKind (h : Balanced i a b) : Balanced i a (b.clearKind i k) := by
  intro l
  rw [← h l, clearKind_self, clearKind_num]
  rcases eq_or_ne l k with rfl | hne
  · cases b.capSet i l <;> simp
  · rw [if_neg fun h => hne h.1, if_neg hne]

theorem Balanced.updateKind (p : Prop) [Decidable p] (h : Balanced i a b) :
    Balanced i a (if p then b.setKind i k else b.clearKind i k) := by
  split
  · exact h.setKind
  · exact h.clearKind

theorem Balanced.setIf (p : Prop) [Decidable p] (h : Balanced i a b) :
    Balanced i a (if p then b.setKind i k else b) := by
  split
  · exact h.setKind
  · exact h

theorem Counted.updateKind (p : Prop) [Decidable p] (h : a.Counted) :
    (if p then a.setKind i k else a.clearKind i k).Counted := by
  split
  · exact h.setKind i k
  · exact h.clearKind i k

theorem Counted.setIf (p : Prop) [Decidable p] (h : a.Counted) : (if p then a.setKind i k else a).Counted := by
  split
  · exact h.setKind i k
  · exact h

theorem Counted.join (h : a.Counted) (i : StaId) : (a.bssCapUpdateOnStaJoin i).Counted := by
  unfold bssCapUpdateOnStaJoin
  dsimp only
  split
  · refine .setIf _ (.setIf _ (.setIf _ (.clearKind ?_ i _)))
    exact .updateKind _ (.updateKind _ (.updateKind _ h))
  · exact .setKind (.updateKind _ (.updateKind _ (.updateKind _ h))) i _

theorem Counted.leave (h : a.Counted) (i : StaId) : (a.bssCapUpdateOnStaLeave i).Counted := by
  unfold bssCapUpdateOnStaLeave
  exact ((((((h.clearKind i _).clearKind i _).clearKind i _).clearKind i _).clearKind i _).clearKind i _).clearKind i _

/-- A counter and the mark of a station change together. -/
theorem join_num (a : Ap) (i : StaId) (k : BssCapKind) :
    (a.bssCapUpdateOnStaJoin i).num k = a.num k - (if a.capSet i k then 1 else 0) +
      if (a.cap i).has k || (k.sticky && a.capSet i k) then 1 else 0 := by
  have hjoin : Balanced i a (a.bssCapUpdateOnStaJoin i) := by
    unfold bssCapUpdateOnStaJoin
    dsimp only
    split
    · refine .setIf _ (.setIf _ (.setIf _ (.clearKind ?_)))
      exact .updateKind _ (.updateKind _ (.updateKind _ fun _ => rfl))
    · exact .setKind (.updateKind _ (.updateKind _ (.updateKind _ fun _ => rfl)))
  have := hjoin k
  rw [join_capSet_self] at this
  omega

theorem leave_num (a : Ap) (i : StaId) (k : BssCapKind) :
    (a.bssCapUpdateOnStaLeave i).num k = a.num k - if a.capSet i k then 1 else 0 := by
  have hleave : Balanced i a (a.bssCapUpdateOnStaLeave i) := by
    unfold bssCapUpdateOnStaLeave
    dsimp only
    iterate 6 refine .clearKind ?_
    exact .clearKind fun _ => rfl
  have := hleave k
  rw [leave_capSet_self, if_neg Bool.false_ne_true] at this
  omega

theorem Counted.onAuth (h : a.Counted) (cfg : ApCfg) (f : MgmtFrame) : (a.onAuth cfg f).Counted := by
  rcases onAuth_cases cfg f a with he | ⟨b, i, hfound, -, hres⟩
  · rw [he]
    exact h
  have hb : b.Counted := by
    obtain ⟨c, ⟨-, rfl⟩ | ⟨-, d, hd, rfl⟩, rfl⟩ := hfound
    · exact h.congr rfl rfl
    · obtain ⟨pool, -, rfl⟩ := rtwAllocStainfo_eq_some hd
      exact h.unmark rfl rfl
  rcases hres with ⟨e, -, he⟩ | ⟨p, -, he⟩
  · rw [he]
    exact hb.congr rfl rfl
  · rw [he]
    exact hb.congr rfl rfl

theorem Counted.next (h : a.Counted) (e : BssEvent) : (a.bssNext e).Counted := by
  have hexpire : ∀ i, (a.asocExpire i).Counted := by
    intro i
    unfold Ap.asocExpire
    split
    · refine Counted.congr (Counted.leave ?_ i) rfl rfl
      exact h.congr rfl rfl
    · exact h
  cases e with
  | auth cfg f => exact h.onAuth cfg f
  | assocReq cfg f =>
    show (a.onAssocReq cfg f).Counted
    unfold Ap.onAssocReq
    split
    · exact h
    · dsimp only
      split
      · refine Counted.congr (Counted.join ?_ _) rfl rfl
        exact h.congr rfl rfl
      · exact h.congr rfl rfl
  | deAuth sa =>
    show (a.onDeAuth sa).Counted
    unfold Ap.onDeAuth
    split
    · exact h
    · exact hexpire _
  | authExpire i =>
    show (a.authExpire i).Counted
    unfold Ap.authExpire
    split
    · exact h.congr rfl rfl
    · exact h
  | asocExpire i => exact hexpire i

end Ap

namespace HtAp

section
variable {s t : HtAp} {i : StaId} {e : HtEvent}

/-! ### The element -/

/-- The latch says what the element has, and `ht_op_mode` is there; it is what the rules give, or still what
`start_bss_network` has put there. -/
structure Inv (s : HtAp) : Prop where
  counted : s.ap.Counted
  olbc : s.olbcHt = s.olbc
  mode : s.htOpMode = s.modeRules ∨ s.olbc = true ∧ s.htOpMode = 1
  opMode : s.elem.operationMode = s.htOpMode
  offset : s.elem.secondaryChannelOffset = if s.swTo20mhz then 0 else s.ownOffset
  width : s.elem.staChannelWidth = !s.swTo20mhz

theorem ownOffset_ne : s.ownOffset ≠ 0 := by
  unfold ownOffset
  split <;> decide

theorem Inv.elemOk_eq (h : s.Inv) : s.ElemOk ↔ s.swTo20mhz = s.needs20 ∧ s.htOpMode = s.modeRules := by
  unfold ElemOk
  rw [h.opMode, h.offset, h.width]
  cases s.swTo20mhz <;> cases s.needs20 <;> simp [ownOffset_ne, ownOffset_ne.symm]

theorem Inv.settled_iff (h : s.Inv) : s.Settled ↔ s.htOpMode = s.modeRules := by
  unfold Settled
  constructor
  · intro hs
    rcases h.mode with hm | ⟨holbc, hm⟩
    · exact hm
    · have := hs holbc
      rw [hm] at this
      exact absurd this (by decide)
  · intro hm holbc
    rw [hm]
    unfold modeRules
    rw [h.olbc, holbc]
    exact htOpModeOf_olbc ..

theorem Inv.usedMode (h : s.Inv) : s.htOpMode &&& usedModeBits = s.htOpMode := by
  rcases h.mode with hm | ⟨-, hm⟩
  · rw [hm]
    exact htOpModeOf_used ..
  · rw [hm]
    decide

theorem updateBcnHtinfoIe_fields : s.updateBcnHtinfoIe = { s with
    swTo20mhz := s.updateBcnHtinfoIe.swTo20mhz
    elem := s.updateBcnHtinfoIe.elem } := by
  unfold updateBcnHtinfoIe
  dsimp only
  split
  · split <;> rfl
  · split <;> rfl

theorem needs20_eq_false (h : s.ap.Counted) : s.needs20 = false ↔
    s.ap.num .fortyMhzIntolerant = 0 ∧ !s.ht20mhzWidthReq ∧ !s.htIntolerantChReported ∧ !s.olbc := by
  have := h.nonneg .fortyMhzIntolerant
  unfold needs20
  simp only [Bool.or_eq_false_iff, decide_eq_false_iff_not, Bool.not_eq_true', and_assoc]
  refine and_congr_left fun _ => ?_
  omega

/-- After it is rewritten, the element says what it should. -/
theorem updateBcnHtinfoIe_elem (hc : s.ap.Counted)
    (ho : s.elem.secondaryChannelOffset = if s.swTo20mhz then 0 else s.ownOffset)
    (hw : s.elem.staChannelWidth = !s.swTo20mhz) :
    s.updateBcnHtinfoIe.swTo20mhz = s.needs20 ∧ s.updateBcnHtinfoIe.elem.operationMode = s.htOpMode ∧
      s.updateBcnHtinfoIe.elem.secondaryChannelOffset = (if s.needs20 then 0 else s.ownOffset) ∧
      s.updateBcnHtinfoIe.elem.staChannelWidth = !s.needs20 := by
  unfold updateBcnHtinfoIe
  dsimp only
  cases hsw : s.swTo20mhz
  · rw [hsw] at ho hw
    rw [if_pos (show (!false) = true from rfl)]
    cases hn : s.needs20
    · rw [if_neg Bool.false_ne_true]
      exact ⟨hsw, rfl, ho, hw⟩
    · rw [if_pos rfl]
      exact ⟨rfl, rfl, rfl, rfl⟩
  · rw [hsw] at ho hw
    rw [if_neg (show ¬(!true) = true by decide)]
    cases hn : s.needs20
    · rw [if_pos ((needs20_eq_false hc).1 hn)]
      exact ⟨rfl, rfl, rfl, rfl⟩
    · rw [if_neg fun h => by rw [(needs20_eq_false hc).2 h] at hn; cases hn]
      exact ⟨hsw, rfl, ho, hw⟩

/-- The rewriting keeps the invariant, and ends with the latch as it should be. -/
theorem Inv.updateBcn (hc : s.ap.Counted) (ho : s.olbcHt = s.olbc)
    (hm : s.htOpMode = s.modeRules ∨ s.olbc = true ∧ s.htOpMode = 1)
    (hoff : s.elem.secondaryChannelOffset = if s.swTo20mhz then 0 else s.ownOffset)
    (hw : s.elem.staChannelWidth = !s.swTo20mhz) :
    s.updateBcnHtinfoIe.Inv ∧ s.updateBcnHtinfoIe.swTo20mhz = s.updateBcnHtinfoIe.needs20 := by
  obtain ⟨h1, h2, h3, h4⟩ := updateBcnHtinfoIe_elem hc hoff hw
  have hf := s.updateBcnHtinfoIe_fields
  generalize s.updateBcnHtinfoIe = t at h1 h2 h3 h4 hf ⊢
  have hn : t.needs20 = s.needs20 := by rw [hf]; rfl
  have hown : t.ownOffset = s.ownOffset := by rw [hf]; rfl
  have hmode : t.htOpMode = s.htOpMode := by rw [hf]
  have hrules : t.modeRules = s.modeRules := by rw [hf]; rfl
  refine ⟨⟨by rw [hf]; exact hc, by rw [hf]; exact ho, ?_, by rw [h2, hmode], ?_, ?_⟩, by rw [h1, hn]⟩
  · rw [hmode, hrules, show t.olbc = s.olbc by rw [hf]]
    exact hm
  · rw [h1, hown]
    exact h3
  · rw [h1]
    exact h4

/-- The counters of `s` have changed since its mode was computed: `rtw_ht_operation_update` sets the mode
right, and leaves the element only where the mode was right. -/
theorem Inv.operationChange (hc : s.ap.Counted) (ho : s.olbcHt = s.olbc)
    (hm : s.htOpMode &&& usedModeBits = s.htOpMode) (hop : s.elem.operationMode = s.htOpMode)
    (hoff : s.elem.secondaryChannelOffset = if s.swTo20mhz then 0 else s.ownOffset)
    (hw : s.elem.staChannelWidth = !s.swTo20mhz) :
    s.htOperationChange.Inv ∧
      (s.htOperationChange.ElemOk ↔ (s.swTo20mhz = s.needs20 ∨ s.htOpMode ≠ s.modeRules)) := by
  obtain ⟨hmode, hzero⟩ := htOperationUpdate_eq s.supWidth s.olbcHt (s.ap.num .htNoGf ≠ 0) (s.ap.num .noHt ≠ 0)
    (s.ap.num .ht20mhz ≠ 0) hm
  change _ = s.modeRules at hmode
  change _ ↔ s.htOpMode = s.modeRules at hzero
  unfold htOperationChange
  dsimp only
  rw [hmode]
  by_cases hch : s.htOpMode = s.modeRules
  · rw [if_neg (by rw [hzero.2 hch]; omega)]
    have hinv : Inv { s with htOpMode := s.modeRules } := ⟨hc, ho, .inl rfl, hop.trans hch, hoff, hw⟩
    refine ⟨hinv, hinv.elemOk_eq.trans ⟨fun h => .inl h.1, fun h => ⟨?_, rfl⟩⟩⟩
    exact h.resolve_right fun hne => hne hch
  · rw [if_pos (Nat.pos_of_ne_zero fun h => hch (hzero.1 h))]
    obtain ⟨hinv, hsw⟩ := Inv.updateBcn (s := { s with htOpMode := s.modeRules }) hc ho (.inl rfl) hoff hw
    refine ⟨hinv, hinv.elemOk_eq.trans (iff_of_true ⟨hsw, ?_⟩ (.inr hch))⟩
    rw [updateBcnHtinfoIe_fields]
    rfl

theorem modeRules_congr (hw : t.supWidth = s.supWidth) (ho : t.olbcHt = s.olbcHt)
    (hnum : ∀ k, k ≠ .fortyMhzIntolerant → t.ap.num k = s.ap.num k) : t.modeRules = s.modeRules := by
  unfold modeRules
  rw [hw, ho, hnum .htNoGf (by decide), hnum .noHt (by decide), hnum .ht20mhz (by decide)]

theorem Inv.of_num (h : s.Inv) {b : Ap} (hb : b.Counted) (hnum : b.num = s.ap.num) :
    Inv { s with ap := b } ∧ (s.swTo20mhz = s.needs20 → (({ s with ap := b } : HtAp).ElemOk ↔ s.Settled)) := by
  have hrules : ({ s with ap := b } : HtAp).modeRules = s.modeRules :=
    modeRules_congr rfl rfl fun k _ => by dsimp only; rw [hnum]
  have hneeds : ({ s with ap := b } : HtAp).needs20 = s.needs20 := by
    unfold needs20
    dsimp only
    rw [hnum]
  have hinv : Inv { s with ap := b } := by
    refine ⟨hb, h.olbc, ?_, h.opMode, h.offset, h.width⟩
    rw [hrules]
    exact h.mode
  refine ⟨hinv, fun hq => ?_⟩
  rw [hinv.elemOk_eq, hneeds, hrules, h.settled_iff]
  exact and_iff_right hq

theorem Inv.stays (h : s.Inv) (hq : s.swTo20mhz = s.needs20) : s.ElemOk ↔ s.Settled :=
  (h.of_num h.counted rfl).2 hq

/-! ### Stations that come and go -/

theorem elemOk_congr {b : Ap} (hnum : b.num = s.ap.num) : ({ s with ap := b } : HtAp).ElemOk ↔ s.ElemOk := by
  unfold ElemOk needs20 modeRules
  dsimp only
  rw [hnum]
  rfl

theorem Inv.congr_num (h : s.Inv) {b : Ap} (hb : b.Counted) (hnum : b.num = s.ap.num) : Inv { s with ap := b } :=
  (h.of_num hb hnum).1

/-- What joining does to the wish for 20 MHz and to the mode. -/
theorem Inv.join (h : s.Inv) (hq : s.swTo20mhz = s.needs20) {a : Ap} (i : StaId) (hnum : a.num = s.ap.num)
    (hset : a.capSet = s.ap.capSet) :
    (bssCapUpdateOnStaJoin { s with ap := a } i).Inv ∧
      ((bssCapUpdateOnStaJoin { s with ap := a } i).ElemOk ↔
        (s.needs20 = false → (a.cap i).has .fortyMhzIntolerant = true → s.htOpMode ≠ s.modeAfterJoin i (a.cap i))) := by
  have ha : a.Counted := h.counted.congr hset hnum
  have hjn := a.join_num i
  rw [hnum, hset] at hjn
  obtain ⟨hinv, hok⟩ := Inv.operationChange (s := { s with ap := a.bssCapUpdateOnStaJoin i }) (ha.join i) h.olbc h.usedMode
    h.opMode h.offset h.width
  refine ⟨hinv, hok.trans ?_⟩
  show s.swTo20mhz = _ ∨ s.htOpMode ≠ _ ↔ _
  have hforty := hjn .fortyMhzIntolerant
  rw [show BssCapKind.sticky .fortyMhzIntolerant = true from rfl, Bool.true_and] at hforty
  cases hn : s.needs20
  · -- nobody is counted as intolerant, so nobody is marked
    have hzero := (needs20_eq_false h.counted).1 hn
    have hmark : s.ap.capSet i .fortyMhzIntolerant = false := by
      cases hm : s.ap.capSet i .fortyMhzIntolerant
      · rfl
      · have := h.counted.pos hm
        omega
    rw [hmark, hzero.1, if_neg Bool.false_ne_true, Bool.or_false] at hforty
    have hneeds : needs20 { s with ap := a.bssCapUpdateOnStaJoin i } = (a.cap i).has .fortyMhzIntolerant := by
      unfold needs20 at hn ⊢
      dsimp only
      simp only [Bool.or_eq_false_iff] at hn
      rw [hforty, hn.1.1.2, hn.1.2, hn.2]
      cases (a.cap i).has .fortyMhzIntolerant <;> rfl
    cases hint : (a.cap i).has .fortyMhzIntolerant
    · exact iff_of_true (.inl (by rw [hneeds, hint, hq, hn])) fun _ h => absurd h (by decide)
    · have hht : (a.cap i).ht = true := by
        unfold StaCap.has at hint
        simp only [Bool.and_eq_true] at hint
        exact hint.1
      have hmode : modeRules { s with ap := a.bssCapUpdateOnStaJoin i } = s.modeAfterJoin i (a.cap i) := by
        have hflag : ∀ k : BssCapKind, k.sticky = true →
            decide ((a.bssCapUpdateOnStaJoin i).num k ≠ 0) = (decide (s.ap.num k ≠ 0) || (a.cap i).has k) := by
          intro k hk
          have hpos := h.counted.nonneg k
          rw [hjn k, hk, Bool.true_and]
          cases hm : s.ap.capSet i k
          · cases (a.cap i).has k
            · simp
            · simp only [Bool.or_false, ↓reduceIte, Bool.or_true, decide_eq_true_eq]
              rw [if_neg Bool.false_ne_true]
              omega
          · have := h.counted.pos hm
            simp only [Bool.or_true, ↓reduceIte]
            rw [decide_eq_true (by omega), decide_eq_true (by omega), Bool.true_or]
        have hnoHt : (a.cap i).has .noHt = false := by
          show (!(a.cap i).ht) = false
          rw [hht]
          rfl
        have hno := hjn .noHt
        rw [hnoHt, show BssCapKind.sticky .noHt = false from rfl, Bool.false_and, Bool.or_false,
          if_neg Bool.false_ne_true] at hno
        unfold modeRules modeAfterJoin
        dsimp only
        rw [hflag .htNoGf rfl, hflag .ht20mhz rfl, hno]
        congr 1
        exact decide_eq_decide.2 (by omega)
      rw [hneeds, hint, hmode]
      exact ⟨fun h _ _ => h.resolve_left (by rw [hq, hn]; decide), fun h => .inr (h rfl rfl)⟩
  · have hneeds : needs20 { s with ap := a.bssCapUpdateOnStaJoin i } = true := by
      unfold needs20 at hn ⊢
      dsimp only
      simp only [Bool.or_eq_true, decide_eq_true_eq] at hn ⊢
      rcases hn with ((hn | hn) | hn) | hn
      · refine .inl (.inl (.inl ?_))
        rw [hforty]
        cases s.ap.capSet i .fortyMhzIntolerant
        · rw [if_neg Bool.false_ne_true]
          split <;> omega
        · rw [if_pos rfl, Bool.or_true, if_pos rfl]
          omega
      · exact .inl (.inl (.inr hn))
      · exact .inl (.inr hn)
      · exact .inr hn
    exact iff_of_true (.inl (by rw [hneeds, hq, hn])) fun h => absurd h (by decide)

/-- A station that leaves always leaves the element in order. -/
theorem Inv.leave (h : s.Inv) (hq : s.swTo20mhz = s.needs20) {a : Ap} (i : StaId) (hnum : a.num = s.ap.num)
    (hset : a.capSet = s.ap.capSet) :
    (bssCapUpdateOnStaLeave { s with ap := a } i).Inv ∧ (bssCapUpdateOnStaLeave { s with ap := a } i).ElemOk := by
  have hl : (a.bssCapUpdateOnStaLeave i).Counted := (h.counted.congr hset hnum).leave i
  have hln := a.leave_num i .fortyMhzIntolerant
  unfold bssCapUpdateOnStaLeave
  dsimp only
  split
  · obtain ⟨h1, h2, h3, h4⟩ := updateBcnHtinfoIe_elem (s := { s with ap := a.bssCapUpdateOnStaLeave i }) hl h.offset h.width
    have hf := updateBcnHtinfoIe_fields (s := { s with ap := a.bssCapUpdateOnStaLeave i })
    generalize updateBcnHtinfoIe { s with ap := a.bssCapUpdateOnStaLeave i } = t at h1 h2 h3 h4 hf ⊢
    have hn : t.needs20 = needs20 { s with ap := a.bssCapUpdateOnStaLeave i } := by rw [hf]; rfl
    have hmode : t.htOpMode = s.htOpMode := by rw [hf]
    have hown : t.ownOffset = s.ownOffset := by rw [hf]; rfl
    obtain ⟨hinv, hok⟩ := Inv.operationChange (s := t) (by rw [hf]; exact hl) (by rw [hf]; exact h.olbc)
      (by rw [hmode]; exact h.usedMode) (by rw [h2, hmode]) (by rw [h1, hown]; exact h3) (by rw [h1]; exact h4)
    exact ⟨hinv, hok.2 (.inl (by rw [h1, hn]))⟩
  · rename_i hmark
    obtain ⟨hinv, hok⟩ := Inv.operationChange (s := { s with ap := a.bssCapUpdateOnStaLeave i }) hl h.olbc h.usedMode
      h.opMode h.offset h.width
    refine ⟨hinv, hok.2 (.inl ?_)⟩
    rw [if_neg hmark, hnum] at hln
    show s.swTo20mhz = _
    rw [hq]
    unfold needs20
    dsimp only
    rw [hln, Int.sub_zero]

/-- A coexistence frame changes nothing, or the element is rewritten. -/
theorem processPublicActBsscoex_cases (s : HtAp) (ta : MacAddr) (body : List UInt8) :
    s.processPublicActBsscoex ta body = s ∨ ∃ a req ch,
      (a = s.ap ∨ ∃ i, a = s.ap.setKind i .fortyMhzIntolerant) ∧
        s.processPublicActBsscoex ta body =
          { s with ap := a, ht20mhzWidthReq := req, htIntolerantChReported := ch }.updateBcnHtinfoIe := by
  unfold processPublicActBsscoex
  split
  · exact .inl rfl
  rename_i i _
  have hmid : ∀ (t : HtAp) (updated : Bool),
      (t = s ∧ updated = false ∨ updated = true ∧ ∃ a req, (a = s.ap ∨ ∃ i, a = s.ap.setKind i .fortyMhzIntolerant) ∧
        t = { s with ap := a, ht20mhzWidthReq := req }) →
      let r : HtAp × Bool :=
        if body.length > 8 ∧ byteAt body 5 = 73 ∧ byteAt body 6 > 0 ∧ !t.htIntolerantChReported then
          ({ t with htIntolerantChReported := true }, true)
        else (t, updated)
      (if r.2 then r.1.updateBcnHtinfoIe else r.1) = s ∨ ∃ a req ch,
        (a = s.ap ∨ ∃ i, a = s.ap.setKind i .fortyMhzIntolerant) ∧
          (if r.2 then r.1.updateBcnHtinfoIe else r.1) =
            { s with ap := a, ht20mhzWidthReq := req, htIntolerantChReported := ch }.updateBcnHtinfoIe := by
    intro t updated ht
    dsimp only
    split
    · right
      rcases ht with ⟨rfl, -⟩ | ⟨-, a, req, ha, rfl⟩
      · exact ⟨_, _, _, .inl rfl, rfl⟩
      · exact ⟨a, req, _, ha, rfl⟩
    · rcases ht with ⟨rfl, rfl⟩ | ⟨rfl, a, req, ha, rfl⟩
      · exact .inl rfl
      · exact .inr ⟨a, req, _, ha, rfl⟩
  dsimp only
  split
  · split
    · split
      · exact hmid _ _ (.inr ⟨rfl, _, _, .inr ⟨i, rfl⟩, rfl⟩)
      · exact hmid _ _ (.inl ⟨rfl, rfl⟩)
    · split
      · split
        · exact hmid _ _ (.inr ⟨rfl, _, _, .inl rfl, rfl⟩)
        · exact hmid _ _ (.inl ⟨rfl, rfl⟩)
      · exact hmid _ _ (.inl ⟨rfl, rfl⟩)
  · exact hmid _ _ (.inl ⟨rfl, rfl⟩)

theorem Inv.bsscoex (h : s.Inv) (hq : s.swTo20mhz = s.needs20) (ta : MacAddr) (body : List UInt8) :
    (s.processPublicActBsscoex ta body).Inv ∧ ((s.processPublicActBsscoex ta body).ElemOk ↔ s.Settled) := by
  rcases s.processPublicActBsscoex_cases ta body with he | ⟨a, req, ch, ha, he⟩
  · rw [he]
    exact ⟨h, h.stays hq⟩
  · have hcounted : a.Counted := by
      rcases ha with rfl | ⟨i, rfl⟩
      · exact h.counted
      · exact h.counted.setKind i _
    have hnum : ∀ k, k ≠ .fortyMhzIntolerant → a.num k = s.ap.num k := by
      intro k hk
      rcases ha with rfl | ⟨i, rfl⟩
      · rfl
      · rw [Ap.setKind_num, if_neg fun h => hk h.1]
    have hrules : modeRules { s with ap := a, ht20mhzWidthReq := req, htIntolerantChReported := ch } = s.modeRules :=
      modeRules_congr rfl rfl hnum
    obtain ⟨hinv, hsw⟩ := Inv.updateBcn (s := { s with ap := a, ht20mhzWidthReq := req, htIntolerantChReported := ch })
      hcounted h.olbc (by rw [hrules]; exact h.mode) h.offset h.width
    rw [he]
    refine ⟨hinv, ?_⟩
    rw [hinv.elemOk_eq, h.settled_iff, and_iff_right hsw]
    have hf := updateBcnHtinfoIe_fields (s := { s with ap := a, ht20mhzWidthReq := req, htIntolerantChReported := ch })
    have hmode : (updateBcnHtinfoIe
        { s with ap := a, ht20mhzWidthReq := req, htIntolerantChReported := ch }).modeRules = s.modeRules := by
      rw [hf]
      exact hrules
    rw [hmode, hf]

theorem Inv.onAssocReq (h : s.Inv) (hq : s.swTo20mhz = s.needs20) (cfg : BssCfg) (f : MgmtFrame) :
    (s.onAssocReq cfg f).Inv ∧ ((s.onAssocReq cfg f).ElemOk ↔ s.StepOk (.bss (.assocReq cfg f))) := by
  unfold HtAp.onAssocReq StepOk
  dsimp only
  cases hi : assocReqSta cfg.toApCfg f s.ap.pool with
  | none => exact ⟨h, h.stays hq⟩
  | some i =>
    obtain ⟨-, st, t, -, -, ⟨hno, hfalse, -⟩ | ⟨hacc, htrue, -⟩⟩ := onAssocReq_of_sta hi
    · dsimp only
      rw [hfalse, if_neg Bool.false_ne_true, if_neg hno]
      obtain ⟨hinv, hok⟩ := h.of_num (b := { s.ap with
        pool := (Rtw.onAssocReq cfg.toApCfg f s.ap.pool).1
        cap := Function.update s.ap.cap i (assocReqCap cfg f (s.ap.cap i)) }) (h.counted.congr rfl rfl) rfl
      exact ⟨hinv, hok hq⟩
    · dsimp only
      rw [htrue, if_pos rfl, if_pos hacc]
      obtain ⟨hinv, hok⟩ := h.join hq (a := Ap.toAsocList { s.ap with
        pool := (Rtw.onAssocReq cfg.toApCfg f s.ap.pool).1
        cap := Function.update s.ap.cap i (assocReqCap cfg f (s.ap.cap i)) } i) i rfl rfl
      have hcap : (Ap.toAsocList { s.ap with
        pool := (Rtw.onAssocReq cfg.toApCfg f s.ap.pool).1
        cap := Function.update s.ap.cap i (assocReqCap cfg f (s.ap.cap i)) } i).cap i = assocReqCap cfg f (s.ap.cap i) :=
        Function.update_self ..
      rw [hcap] at hok
      exact ⟨hinv.congr_num (hinv.counted.congr rfl rfl) rfl, (elemOk_congr rfl).trans hok⟩

theorem Inv.asocExpire (h : s.Inv) (hq : s.swTo20mhz = s.needs20) (i : StaId) :
    (s.asocExpire i).Inv ∧ ((s.asocExpire i).ElemOk ↔ i ∈ s.ap.asocList ∨ s.Settled) := by
  unfold HtAp.asocExpire
  split
  · rename_i hi
    obtain ⟨hinv, hok⟩ := h.leave hq i (a := { s.ap with
      asocList := s.ap.asocList.erase i
      ps := Function.update s.ap.ps i { s.ap.ps i with linked := false } }) rfl rfl
    exact ⟨hinv.congr_num (hinv.counted.congr rfl rfl) rfl,
      (elemOk_congr rfl).trans (iff_of_true hok (.inl hi))⟩
  · rename_i hi
    exact ⟨h, (h.stays hq).trans (or_iff_right hi).symm⟩

/-! ### Every run -/

theorem Inv.next (h : s.Inv) (hq : s.swTo20mhz = s.needs20) (e : HtEvent) :
    (s.next e).Inv ∧ ((s.next e).ElemOk ↔ s.StepOk e) := by
  cases e with
  | bsscoex ta body => exact h.bsscoex hq ta body
  | bss e =>
    cases e with
    | auth cfg f =>
      have hcounted := h.counted.onAuth cfg f
      have hnum : (s.ap.onAuth cfg f).num = s.ap.num := by
        rcases Ap.onAuth_cases cfg f s.ap with he | ⟨b, i, ⟨c, hc, rfl⟩, -, hres⟩
        · rw [he]
        have hb : c.num = s.ap.num := by
          rcases hc with ⟨-, rfl⟩ | ⟨-, d, hd, rfl⟩
          · rfl
          · obtain ⟨pool, -, rfl⟩ := Ap.rtwAllocStainfo_eq_some hd
            rfl
        rcases hres with ⟨e, -, he⟩ | ⟨p, -, he⟩
        · rw [he]
          exact hb
        · rw [he]
          exact hb
      obtain ⟨hinv, hok⟩ := h.of_num hcounted hnum
      exact ⟨hinv, hok hq⟩
    | assocReq cfg f => exact h.onAssocReq hq cfg f
    | deAuth sa =>
      show (s.onDeAuth sa).Inv ∧ ((s.onDeAuth sa).ElemOk ↔
        (∃ i, rtwGetStainfo s.ap.pool sa = some i ∧ i ∈ s.ap.asocList) ∨ s.Settled)
      unfold onDeAuth
      cases hget : rtwGetStainfo s.ap.pool sa with
      | none => exact ⟨h, (h.stays hq).trans (by simp)⟩
      | some i =>
        obtain ⟨hinv, hok⟩ := h.asocExpire hq i
        exact ⟨hinv, hok.trans (by simp)⟩
    | authExpire i =>
      have hnum : (s.ap.authExpire i).num = s.ap.num := by
        unfold Ap.authExpire
        split <;> rfl
      obtain ⟨hinv, hok⟩ := h.of_num (h.counted.next (.authExpire i)) hnum
      exact ⟨hinv, hok hq⟩
    | asocExpire i => exact h.asocExpire hq i

theorem Inv.start (maxNumSta : Nat) (supWidth lower olbc : Bool) :
    (start maxNumSta supWidth lower olbc).Inv ∧
      (start maxNumSta supWidth lower olbc).swTo20mhz = (start maxNumSta supWidth lower olbc).needs20 := by
  unfold HtAp.start
  dsimp only
  cases olbc
  · rw [if_neg Bool.false_ne_true]
    refine ⟨⟨.start maxNumSta, rfl, .inl ?_, rfl, rfl, rfl⟩, rfl⟩
    have hnum : ∀ k, (Ap.start maxNumSta).num k = 0 := fun _ => rfl
    unfold modeRules
    cases supWidth <;> simp [htOpModeOf, hnum]
  · rw [if_pos rfl]
    exact Inv.updateBcn (.start maxNumSta) rfl (.inr ⟨rfl, rfl⟩) rfl rfl

/-- After every event the element is as it should be, exactly in the runs whose steps are all `StepOk`. -/
theorem elemOk_iff (maxNumSta : Nat) (supWidth lower olbc : Bool) (evs : List HtEvent) :
    (∀ pre e, pre ++ [e] <+: evs → (Machine.run next (start maxNumSta supWidth lower olbc) (pre ++ [e])).ElemOk) ↔
      Machine.RunOk next StepOk (start maxNumSta supWidth lower olbc) evs := by
  obtain ⟨hinv, hq⟩ := Inv.start maxNumSta supWidth lower olbc
  exact Machine.forall_next_iff_runOk (fun s h hok => (h.elemOk_eq.1 hok).1) (fun s e h hq => h.next hq e) hinv hq evs

end

/-- A station that is intolerant of 40 MHz associates: HT capabilities with greenfield and 40 MHz. -/
def intolerantJoin : HtEvent :=
  .bss (.assocReq { StaPriv.openAp with qosOption := true } ⟨StaPriv.staAddr 1, false, false,
    [0x21, 4, 10, 0, 0, 2, 0x61, 0x70, 1, 1, 0x8c, 45, 26, 0x12, 0x40, 0, 0, 0, 0, 0, 0, 0, 0, 0, 0, 0, 0, 0, 0, 0, 0,
      0, 0, 0, 0, 0, 0, 0, 0]⟩)

/-- The mode stays as it is, and the beacon goes on with 40 MHz. -/
theorem not_elemOk_intolerant : ¬∀ (maxNumSta : Nat) (supWidth lower olbc : Bool) (evs pre : List HtEvent)
    (e : HtEvent), pre ++ [e] <+: evs →
      (Machine.run next (start maxNumSta supWidth lower olbc) (pre ++ [e])).ElemOk := by
  intro h
  have h := h 32 true true false _
    [.bss (.auth StaPriv.openAp ⟨StaPriv.staAddr 1, false, false, [0, 0, 1, 0, 0, 0]⟩)] intolerantJoin
    (List.prefix_refl _)
  revert h
  decide +kernel

end HtAp

end Rtw
