import Rtw.Lib.Run
import Rtw.Lib.Tally
import Rtw.Mlme.ApWf

/-!
# The capability counters of a BSS

`bss_cap_update_on_sta_join` and `bss_cap_update_on_sta_leave` keep a counter for each `BssCapKind`, by a
mark at each station that the counter counts it. A station that fails its re-authentication, or that times
out on `auth_list`, is freed without its marks being taken back; three marks are never taken back when a
station associates again; and a refused request overwrites what the station advertised. In a run without
these every counter is the number of stations it is named for (`Ap.capCountsOk_run`).
-/

namespace Rtw

inductive BssEvent where
  | auth (cfg : ApCfg) (f : MgmtFrame)
  | assocReq (cfg : BssCfg) (f : MgmtFrame)
  | deAuth (sa : MacAddr)
  | authExpire (i : StaId)
  | asocExpire (i : StaId)

/-- `bss_cap_update_on_sta_join` sets the mark and never takes it back. -/
def BssCapKind.sticky : BssCapKind → Bool
  | .htNoGf | .ht20mhz | .fortyMhzIntolerant => true
  | .nonErp | .noShortPreamble | .noShortSlotTime | .noHt => false

namespace Ap

def bssNext (a : Ap) : BssEvent → Ap
  | .auth cfg f => a.onAuth cfg f
  | .assocReq cfg f => a.onAssocReq cfg f
  | .deAuth sa => a.onDeAuth sa
  | .authExpire i => a.authExpire i
  | .asocExpire i => a.asocExpire i

/-- The station has been associated; the entry for group frames is none. -/
def known (a : Ap) (i : StaId) : Bool := (a.ps i).linked && !(a.pool.sta i).hwaddr.isMcast

/-- Each counter is the number of known stations that advertised the capability last. -/
def CapCountsOk (a : Ap) : Prop :=
  ∀ k, Tally (a.num k) a.pool.staHash fun i => a.known i && (a.cap i).has k

/-- A station without marks only fails its authentication or times out on `auth_list`. A request is not
from a group address; an accepted one takes no capability back that has a sticky mark; a refused one
changes nothing of what a known station advertised. -/
def BssStepOk (a : Ap) : BssEvent → Prop
  | .auth cfg f => ∀ i, rtwGetStainfo a.pool f.sa = some i → AuthConsidered cfg f →
    ¬ (authStep cfg f.authAlg f.authSeq f.body (a.pool.sta i)).isOk → ∀ k, a.capSet i k = false
  | .assocReq cfg f => ∀ i, assocReqSta cfg.toApCfg f a.pool = some i →
    ¬ f.sa.isMcast ∧
      if Accepts cfg.toApCfg f a.pool i then
        ∀ k, k.sticky → a.capSet i k → (assocReqCap cfg f (a.cap i)).has k
      else a.known i → ∀ k, (assocReqCap cfg f (a.cap i)).has k = (a.cap i).has k
  | .authExpire i => i ∈ a.authList → ∀ k, a.capSet i k = false
  | .deAuth _ | .asocExpire _ => True

/-- The counters count the marks, and the marks of a station are its capabilities. -/
structure CapInv (a : Ap) : Prop where
  wf : a.Wf
  num : ∀ k, Tally (a.num k) a.pool.staHash fun i => a.capSet i k
  marks : ∀ i ∈ a.pool.staHash, ∀ k, a.capSet i k = (a.known i && (a.cap i).has k)

section
variable {a b : Ap} {i j : StaId} {k l : BssCapKind}

/-! ### The marks -/

theorem setKind_capSet (a : Ap) (i : StaId) (k : BssCapKind) :
    (a.setKind i k).capSet = Function.update a.capSet i (Function.update (a.capSet i) k true) := by
  unfold setKind
  split
  · rfl
  · rename_i hc
    have hc : a.capSet i k = true := by simpa using hc
    conv_rhs => rw [← hc, Function.update_eq_self, Function.update_eq_self]

theorem clearKind_capSet (a : Ap) (i : StaId) (k : BssCapKind) :
    (a.clearKind i k).capSet = Function.update a.capSet i (Function.update (a.capSet i) k false) := by
  unfold clearKind
  split
  · rfl
  · rename_i hc
    have hc : a.capSet i k = false := by simpa using hc
    conv_rhs => rw [← hc, Function.update_eq_self, Function.update_eq_self]

theorem setKind_self : (a.setKind i k).capSet i l = if l = k then true else a.capSet i l := by
  rw [setKind_capSet, Function.update_self, Function.update_apply]

theorem clearKind_self : (a.clearKind i k).capSet i l = if l = k then false else a.capSet i l := by
  rw [clearKind_capSet, Function.update_self, Function.update_apply]

theorem updateKind_self (p : Prop) [Decidable p] :
    (if p then a.setKind i k else a.clearKind i k).capSet i l = if l = k then decide p else a.capSet i l := by
  by_cases hp : p
  · rw [if_pos hp, setKind_self, decide_eq_true hp]
  · rw [if_neg hp, clearKind_self, decide_eq_false hp]

theorem setIf_self (p : Prop) [Decidable p] :
    (if p then a.setKind i k else a).capSet i l = if l = k then decide p || a.capSet i k else a.capSet i l := by
  by_cases hp : p
  · rw [if_pos hp, setKind_self, decide_eq_true hp, Bool.true_or]
  · rw [if_neg hp, decide_eq_false hp, Bool.false_or]
    split
    · rename_i he
      rw [he]
    · rfl

/-- After an association a mark says what the station has, or stays. -/
theorem join_capSet_self :
    (a.bssCapUpdateOnStaJoin i).capSet i k = ((a.cap i).has k || (k.sticky && a.capSet i k)) := by
  unfold bssCapUpdateOnStaJoin
  dsimp only
  cases hht : (a.cap i).ht
  · rw [if_neg (by simp), setKind_self, updateKind_self, updateKind_self, updateKind_self]
    cases k <;> simp [StaCap.has, BssCapKind.sticky, hht]
  · rw [if_pos rfl]
    simp only [setIf_self, clearKind_self, updateKind_self]
    cases k <;> simp [StaCap.has, BssCapKind.sticky, hht]

theorem leave_capSet_self : (a.bssCapUpdateOnStaLeave i).capSet i k = false := by
  unfold bssCapUpdateOnStaLeave
  simp only [clearKind_self]
  cases k <;> rfl

/-! ### The counters follow the marks -/

/-- `b` is `a` with other marks of the station `i`, and the counters count the marks. -/
structure Recount (i : StaId) (a b : Ap) : Prop where
  pool : b.pool = a.pool
  others : ∀ j, j ≠ i → b.capSet j = a.capSet j
  num : ∀ k, Tally (b.num k) a.pool.staHash fun j => b.capSet j k

section
variable (hnd : a.pool.staHash.Nodup) (hi : i ∈ a.pool.staHash)
include hnd hi

theorem Recount.setKind (h : Recount i a b) (k : BssCapKind) : Recount i a (b.setKind i k) := by
  unfold Ap.setKind
  split
  · rename_i hc
    refine ⟨h.pool, fun j hj => (Function.update_of_ne hj _ _).trans (h.others j hj), fun l => ?_⟩
    dsimp only
    rcases eq_or_ne l k with rfl | hl
    · rw [Function.update_self]
      exact (h.num l).update_mark hnd hi (by simpa using hc)
    · rw [Function.update_of_ne hl]
      exact (h.num l).update_of_ne hl _
  · exact h

theorem Recount.clearKind (h : Recount i a b) (k : BssCapKind) : Recount i a (b.clearKind i k) := by
  unfold Ap.clearKind
  split
  · rename_i hc
    refine ⟨h.pool, fun j hj => (Function.update_of_ne hj _ _).trans (h.others j hj), fun l => ?_⟩
    dsimp only
    rcases eq_or_ne l k with rfl | hl
    · rw [Function.update_self]
      exact (h.num l).update_unmark hnd hi hc
    · rw [Function.update_of_ne hl]
      exact (h.num l).update_of_ne hl _
  · exact h

theorem Recount.updateKind (h : Recount i a b) (p : Prop) [Decidable p] (k : BssCapKind) :
    Recount i a (if p then b.setKind i k else b.clearKind i k) := by
  split
  · exact h.setKind hnd hi k
  · exact h.clearKind hnd hi k

theorem Recount.setIf (h : Recount i a b) (p : Prop) [Decidable p] (k : BssCapKind) :
    Recount i a (if p then b.setKind i k else b) := by
  split
  · exact h.setKind hnd hi k
  · exact h

theorem recount_join (hnum : ∀ k, Tally (a.num k) a.pool.staHash fun j => a.capSet j k) :
    Recount i a (a.bssCapUpdateOnStaJoin i) := by
  have h0 : Recount i a a := ⟨rfl, fun _ _ => rfl, hnum⟩
  unfold bssCapUpdateOnStaJoin
  dsimp only
  split
  · refine .setIf hnd hi (.setIf hnd hi (.setIf hnd hi (.clearKind hnd hi ?_ _) _ _) _ _) _ _
    exact ((h0.updateKind hnd hi _ _).updateKind hnd hi _ _).updateKind hnd hi _ _
  · refine .setKind hnd hi ?_ _
    exact ((h0.updateKind hnd hi _ _).updateKind hnd hi _ _).updateKind hnd hi _ _

theorem recount_leave (hnum : ∀ k, Tally (a.num k) a.pool.staHash fun j => a.capSet j k) :
    Recount i a (a.bssCapUpdateOnStaLeave i) := by
  have h0 : Recount i a a := ⟨rfl, fun _ _ => rfl, hnum⟩
  unfold bssCapUpdateOnStaLeave
  iterate 6 refine .clearKind hnd hi ?_ _
  exact h0.clearKind hnd hi _

end

/-! ### The handlers -/

theorem known_congr (hl : (b.ps i).linked = (a.ps i).linked)
    (hw : (b.pool.sta i).hwaddr = (a.pool.sta i).hwaddr) : b.known i = a.known i := by
  unfold known
  rw [hl, hw]

theorem CapInv.nodup (h : a.CapInv) : a.pool.staHash.Nodup := (List.nodup_append.1 h.wf.pool.nodup).1

theorem capInv_free (hwf : (b.rtwFreeStainfo i).Wf) (hpool : b.pool.Wf)
    (hnum : ∀ k, Tally (b.num k) b.pool.staHash fun j => b.capSet j k)
    (hmarks : ∀ j ∈ b.pool.staHash, j ≠ i → ∀ k, b.capSet j k = (b.known j && (b.cap j).has k))
    (hnone : ∀ k, b.capSet i k = false) : (b.rtwFreeStainfo i).CapInv := by
  refine ⟨hwf, fun k => ?_, fun j hj k => ?_⟩
  · show Tally (b.num k) (Rtw.rtwFreeStainfo b.pool i).staHash _
    rw [StaPriv.rtwFreeStainfo_lists.1]
    exact (hnum k).erase (hnone k)
  · obtain ⟨hne, hj⟩ := hpool.mem_free.1 hj
    have hps : (b.rtwFreeStainfo i).ps j = b.ps j := Function.update_of_ne hne _ _
    have hcap : (b.rtwFreeStainfo i).cap j = b.cap j := Function.update_of_ne hne _ _
    have hknown : (b.rtwFreeStainfo i).known j = b.known j := known_congr (by rw [hps]) rtwFreeStainfo_hwaddr
    show b.capSet j k = _
    rw [hknown, hcap]
    exact hmarks j hj hne k

theorem CapInv.found {f : MgmtFrame} (h : a.CapInv) (hf : Found f a b i) : b.CapInv := by
  obtain ⟨hwf, -⟩ := h.wf.found hf
  obtain ⟨c, ⟨-, rfl⟩ | ⟨-, d, hd, rfl⟩, rfl⟩ := hf
  · exact ⟨hwf, h.num, h.marks⟩
  obtain ⟨pool, hpool, rfl⟩ := rtwAllocStainfo_eq_some hd
  obtain ⟨-, hnew⟩ := StaPriv.nodup_alloc h.wf.pool.nodup hpool
  obtain ⟨-, ht⟩ := Rtw.rtwAllocStainfo_eq_some hpool
  have hhash : pool.staHash = a.pool.staHash ++ [i] := by rw [ht]
  have hother : ∀ j, j ≠ i → pool.sta j = a.pool.sta j := by
    intro j hj
    rw [ht]
    exact Function.update_of_ne hj _ _
  have hne : ∀ j ∈ a.pool.staHash, j ≠ i := fun j hj he => hnew (he ▸ hj)
  refine ⟨hwf, fun k => ?_, fun j hj k => ?_⟩
  · dsimp only
    rw [StaPriv.modify_staHash, hhash]
    refine Tally.append ((h.num k).congr fun j hj => ?_) (by rw [Function.update_self])
    rw [Function.update_of_ne (hne j hj)]
  · dsimp only at hj ⊢
    rw [StaPriv.modify_staHash, hhash] at hj
    rcases List.mem_append.1 hj with hj | hj
    · have hji := hne j hj
      rw [Function.update_of_ne hji, Function.update_of_ne hji, h.marks j hj k]
      congr 1
      refine (known_congr ?_ ?_).symm
      · dsimp only
        rw [Function.update_of_ne hji]
      · dsimp only
        rw [StaPriv.modify_sta_of_ne hji, hother j hji]
    · obtain rfl := List.mem_singleton.1 hj
      rw [Function.update_self]
      simp [known]

theorem CapInv.onAuth {cfg : ApCfg} {f : MgmtFrame} (h : a.CapInv) (hok : a.BssStepOk (.auth cfg f)) :
    (a.onAuth cfg f).CapInv := by
  rcases onAuth_cases cfg f a with he | ⟨b, i, hfound, hcons, ⟨e, herr, he⟩ | ⟨p, hp, he⟩⟩
  · rw [he]
    exact h
  · have hb := h.found hfound
    obtain ⟨-, hi, -, hni⟩ := h.wf.found hfound
    rw [he]
    refine capInv_free (hb.wf.free hi hni) hb.wf.pool hb.num (fun j hj _ => hb.marks j hj) fun k => ?_
    obtain ⟨c, ⟨hget, rfl⟩ | ⟨-, d, hd, rfl⟩, rfl⟩ := hfound
    · refine hok i hget hcons ?_ k
      dsimp only at herr
      rw [herr]
      exact Bool.false_ne_true
    · -- a new station has no marks
      obtain ⟨pool, -, rfl⟩ := rtwAllocStainfo_eq_some hd
      dsimp only
      rw [Function.update_self]
  · have hb := h.found hfound
    have hwf := h.wf.onAuth cfg f
    rw [he] at hwf ⊢
    refine ⟨hwf, hb.num, fun j hj k => ?_⟩
    show b.capSet j k = _
    rw [hb.marks j hj k]
    congr 1
    refine known_congr rfl ?_
    dsimp only
    rcases eq_or_ne j i with rfl | hne
    · rw [StaPriv.modify_sta_self, authStep_hwaddr hp]
    · rw [StaPriv.modify_sta_of_ne hne]

theorem staInfoUpdate_has (cfg : BssCfg) (a : Ap) (i : StaId) :
    ((a.staInfoUpdate cfg i).cap i).has k = (a.cap i).has k := by
  unfold staInfoUpdate
  dsimp only
  rw [Function.update_self]
  cases k <;> rfl

theorem CapInv.onAssocReq {cfg : BssCfg} {f : MgmtFrame} (h : a.CapInv) (hok : a.BssStepOk (.assocReq cfg f)) :
    (a.onAssocReq cfg f).CapInv := by
  have hwf := h.wf.onAssocReq cfg f
  unfold Ap.onAssocReq at hwf ⊢
  split
  · exact h
  rename_i i hi
  rw [hi] at hwf
  obtain ⟨hgroup, hcond⟩ := hok i hi
  obtain ⟨hget, st, t, -, -, hres⟩ := onAssocReq_of_sta hi
  have hentries := onAssocReq_entries cfg.toApCfg f a.pool
  have hmem := rtwGetStainfo_mem hget
  dsimp only at hwf ⊢
  rcases hres with ⟨hno, hfalse, -⟩ | ⟨hacc, htrue, -⟩
  · rw [if_neg hno] at hcond
    rw [hfalse] at hwf ⊢
    rw [if_neg Bool.false_ne_true] at hwf ⊢
    refine ⟨hwf, fun k => ?_, fun j hj k => ?_⟩
    · show Tally (a.num k) (Rtw.onAssocReq cfg.toApCfg f a.pool).1.staHash _
      rw [hentries.staHash]
      exact h.num k
    · have hj : j ∈ a.pool.staHash := hentries.staHash ▸ hj
      have hknown : Ap.known { a with
          pool := (Rtw.onAssocReq cfg.toApCfg f a.pool).1
          cap := Function.update a.cap i (assocReqCap cfg f (a.cap i)) } j = a.known j :=
        known_congr rfl (hentries.hwaddr j)
      show a.capSet j k = (Ap.known _ j && (Function.update a.cap i _ j).has k)
      rw [hknown, h.marks j hj k]
      rcases eq_or_ne j i with rfl | hne
      · rw [Function.update_self]
        cases hk : a.known j
        · rfl
        · rw [hcond hk k]
      · rw [Function.update_of_ne hne]
  · rw [if_pos hacc] at hcond
    rw [htrue] at hwf ⊢
    rw [if_pos rfl] at hwf ⊢
    generalize hc : toAsocList { a with
      pool := (Rtw.onAssocReq cfg.toApCfg f a.pool).1
      cap := Function.update a.cap i (assocReqCap cfg f (a.cap i)) } i = c at hwf ⊢
    have hcpool : c.pool = (Rtw.onAssocReq cfg.toApCfg f a.pool).1 := by rw [← hc]; rfl
    have hccap : c.cap = Function.update a.cap i (assocReqCap cfg f (a.cap i)) := by rw [← hc]; rfl
    have hcps : c.ps = a.ps := by rw [← hc]; rfl
    have hcset : c.capSet = a.capSet := by rw [← hc]; rfl
    have hcnum : c.num = a.num := by rw [← hc]; rfl
    have hchash : c.pool.staHash = a.pool.staHash := by
      rw [hcpool]
      exact hentries.staHash
    have hjoin := recount_join (a := c) (i := i) (by rw [hchash]; exact h.nodup) (by rw [hchash]; exact hmem)
      (by rw [hchash, hcset, hcnum]; exact h.num)
    have hself := fun k => join_capSet_self (a := c) (i := i) (k := k)
    have honly := onlyCounts_join c i
    generalize c.bssCapUpdateOnStaJoin i = b at hwf hjoin hself honly ⊢
    have hbcap : b.cap = Function.update a.cap i (assocReqCap cfg f (a.cap i)) := by rw [honly]; exact hccap
    have hbps : b.ps = a.ps := by rw [honly]; exact hcps
    have hw : ∀ j, (b.pool.sta j).hwaddr = (a.pool.sta j).hwaddr := by
      intro j
      rw [hjoin.pool, hcpool]
      exact hentries.hwaddr j
    refine ⟨hwf, fun k => ?_, fun j hj k => ?_⟩
    · show Tally (b.num k) b.pool.staHash _
      rw [hjoin.pool]
      exact hjoin.num k
    · have hj : j ∈ a.pool.staHash := by
        rw [← hchash, ← hjoin.pool]
        exact hj
      show b.capSet j k = _
      rcases eq_or_ne j i with rfl | hne
      · have hknown : (b.staInfoUpdate cfg j).known j = true := by
          have hm : (a.pool.sta j).hwaddr.isMcast = false := by
            rw [rtwGetStainfo_isMcast hget]
            simpa using hgroup
          show ((Function.update b.ps j _ j).linked && !(b.pool.sta j).hwaddr.isMcast) = true
          rw [Function.update_self, hw, hm]
          rfl
        rw [hself k, hknown, staInfoUpdate_has, hccap, hbcap, hcset, Function.update_self, Bool.true_and]
        cases hs : (k.sticky && a.capSet j k)
        · rw [Bool.or_false]
        · rw [Bool.and_eq_true] at hs
          rw [hcond k hs.1 hs.2]
          rfl
      · have hcap : (b.staInfoUpdate cfg i).cap j = a.cap j := by
          show Function.update b.cap i _ j = _
          rw [Function.update_of_ne hne, hbcap, Function.update_of_ne hne]
        have hknown : (b.staInfoUpdate cfg i).known j = a.known j := by
          refine known_congr ?_ (hw j)
          show (Function.update b.ps i _ j).linked = _
          rw [Function.update_of_ne hne, hbps]
        rw [hjoin.others j hne, hcset, hknown, hcap]
        exact h.marks j hj k

theorem CapInv.asocExpire (h : a.CapInv) (i : StaId) : (a.asocExpire i).CapInv := by
  have hwf := h.wf.asocExpire i
  unfold Ap.asocExpire apFreeSta at hwf ⊢
  dsimp only at hwf ⊢
  split
  · rename_i hi
    have hmem := h.wf.live i (List.mem_append_right _ hi)
    rw [if_pos hi] at hwf
    generalize hc : ({ a with
      asocList := a.asocList.erase i, ps := Function.update a.ps i { a.ps i with linked := false } } : Ap) = c at hwf ⊢
    have hcpool : c.pool = a.pool := by rw [← hc]
    have hleave := recount_leave (a := c) (i := i) (by rw [hcpool]; exact h.nodup) (by rw [hcpool]; exact hmem)
      (by rw [← hc]; exact h.num)
    have hself := fun k => leave_capSet_self (a := c) (i := i) (k := k)
    have honly := onlyCounts_leave c i
    generalize c.bssCapUpdateOnStaLeave i = b at hwf hleave hself honly ⊢
    have hbpool : b.pool = a.pool := hleave.pool.trans hcpool
    refine capInv_free hwf (by rw [hbpool]; exact h.wf.pool) (by rw [hleave.pool]; exact hleave.num) (fun j hj hne k => ?_)
      hself
    rw [hbpool] at hj
    have hcap : b.cap j = a.cap j := by rw [honly, ← hc]
    have hknown : b.known j = a.known j := by
      refine known_congr ?_ (by rw [hbpool])
      rw [honly, ← hc]
      dsimp only
      rw [Function.update_of_ne hne]
    have hset : c.capSet = a.capSet := by rw [← hc]
    rw [hleave.others j hne, hset, hknown, hcap]
    exact h.marks j hj k
  · exact h

theorem CapInv.authExpire (h : a.CapInv) (hok : a.BssStepOk (.authExpire i)) : (a.authExpire i).CapInv := by
  have hwf := h.wf.authExpire i
  unfold Ap.authExpire at hwf ⊢
  split
  · rename_i hi
    rw [if_pos hi] at hwf
    exact capInv_free hwf h.wf.pool h.num (fun j hj _ => h.marks j hj) (hok hi)
  · exact h

/-! ### Every run -/

theorem CapInv.next (h : a.CapInv) (e : BssEvent) (hok : a.BssStepOk e) : (a.bssNext e).CapInv := by
  cases e with
  | auth cfg f => exact h.onAuth hok
  | assocReq cfg f => exact h.onAssocReq hok
  | deAuth sa =>
    show (a.onDeAuth sa).CapInv
    unfold onDeAuth
    split
    · exact h
    · exact h.asocExpire _
  | authExpire i => exact h.authExpire hok
  | asocExpire i => exact h.asocExpire i

theorem CapInv.start (maxNumSta : Nat) : (start maxNumSta).CapInv := by
  refine ⟨.start maxNumSta, fun k => .zero _, fun i hi k => ?_⟩
  have hknown : (Ap.start maxNumSta).known i = false := by
    show (_ && !((StaPriv.start maxNumSta).sta i).hwaddr.isMcast) = false
    rw [StaPriv.start_isMcast hi, Bool.not_true, Bool.and_false]
  rw [hknown]
  rfl

theorem CapInv.capCountsOk (h : a.CapInv) : a.CapCountsOk :=
  fun k => (h.num k).congr fun i hi => (h.marks i hi k).symm

/-- In every run in which only stations without marks are freed by a failed or forgotten
authentication, and the requests of a station take nothing back that the marks keep, every counter is the
number of stations it is named for. -/
theorem capCountsOk_run (maxNumSta : Nat) (evs : List BssEvent)
    (hok : Machine.RunOk bssNext BssStepOk (start maxNumSta) evs) :
    (Machine.run bssNext (start maxNumSta) evs).CapCountsOk :=
  (Machine.run_invariant_of_ok (fun _ e h hok => h.next e hok) (CapInv.start maxNumSta) hok).capCountsOk

/-- An open authentication and an association with the given capability field. -/
def joinBss (n capLo capHi : UInt8) : List BssEvent :=
  [.auth StaPriv.openAp ⟨StaPriv.staAddr n, false, false, [0, 0, 1, 0, 0, 0]⟩,
    .assocReq { StaPriv.openAp with qosOption := true } ⟨StaPriv.staAddr n, false, false,
      [capLo, capHi, 10, 0, 0, 2, 0x61, 0x70, 1, 1, 0x82]⟩]

end

instance {p : BssCapKind → Prop} [DecidablePred p] : Decidable (∀ k, p k) :=
  decidable_of_iff (∀ k ∈ ([.nonErp, .noShortPreamble, .noShortSlotTime, .noHt, .htNoGf, .ht20mhz,
    .fortyMhzIntolerant] : List BssCapKind), p k) ⟨fun h k => h k (by cases k <;> decide), fun h k _ => h k⟩

instance (a : Ap) : (e : BssEvent) → Decidable (a.BssStepOk e)
  | .auth cfg f => inferInstanceAs (Decidable (∀ i, rtwGetStainfo a.pool f.sa = some i → AuthConsidered cfg f →
    ¬ (authStep cfg f.authAlg f.authSeq f.body (a.pool.sta i)).isOk → ∀ k, a.capSet i k = false))
  | .assocReq cfg f => inferInstanceAs (Decidable (∀ i, assocReqSta cfg.toApCfg f a.pool = some i →
    ¬ f.sa.isMcast ∧
      if Accepts cfg.toApCfg f a.pool i then
        ∀ k, k.sticky → a.capSet i k → (assocReqCap cfg f (a.cap i)).has k
      else a.known i → ∀ k, (assocReqCap cfg f (a.cap i)).has k = (a.cap i).has k))
  | .authExpire i => inferInstanceAs (Decidable (i ∈ a.authList → ∀ k, a.capSet i k = false))
  | .deAuth _ | .asocExpire _ => .isTrue trivial

/-- Two stations join, one comes back with a short preamble, and the other leaves. -/
theorem capCountsOk_run_two : (Machine.run bssNext (start 32) (joinBss 1 1 0 ++ joinBss 2 1 4 ++ joinBss 1 0x21 0 ++
    [.deAuth (StaPriv.staAddr 2)])).CapCountsOk :=
  capCountsOk_run 32 _ (by decide +kernel)

/-- A station without HT fails its second authentication: it is gone, and still counted. -/
theorem not_capCountsOk_reauth : ¬ (Machine.run bssNext (start 32) (joinBss 1 1 0 ++
    [.auth StaPriv.openAp ⟨StaPriv.staAddr 1, false, false, [0, 0, 2, 0, 0, 0]⟩])).CapCountsOk := by
  intro h
  have hcount := h .noHt
  unfold Tally at hcount
  revert hcount
  decide +kernel

end Ap

end Rtw
