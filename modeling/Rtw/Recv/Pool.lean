import Mathlib.Data.Fintype.Sigma
import Mathlib.Data.Fintype.Sum
import Mathlib.Tactic.DeriveFintype
import Rtw.Lib.Places
import Rtw.Mlme.StaMgt
import Rtw.Recv.Reorder

/-!
# The pool of received frames

`_rtw_init_recv_priv` puts `NR_RECVFRAME` frames on the free queue; from then on a frame is there, in
the queue of frames that wait for a key, in the `defrag_q` or a pending queue of a station entry, or in
the hands of the running call. `RecvPriv` is these queues; `held` is what no queue has. A frame on the
free queue has no contents, so there only its `id` is kept.
-/

namespace Rtw

def nrRecvframe : Nat := 256

/-- Where a frame can be. -/
inductive Place where
  | freeRecvQueue
  | ucSwdecPendingQueue
  | defragQ (i : StaId)
  | pendingRecvframeQueue (i : StaId) (tid : Fin 16)
  | held
  deriving DecidableEq, Fintype

/-- The queues of `struct recv_priv` and of the station entries. `preorderCtrl` is the field of that
name in the header of each frame; `bcmcSta` is the entry for broadcasts, which is there whenever a frame
comes in. -/
structure RecvPriv where
  freeRecvQueue : List Nat
  freeRecvframeCnt : Nat
  ucSwdecPendingQueue : List RecvFrame
  defragQ : StaId → List RecvFrame
  recvreorderCtrl : StaId → Fin 16 → RecvReorderCtrl
  preorderCtrl : Nat → StaId × Fin 16
  stapriv : StaPriv
  bcmcSta : StaId
  held : List Nat

namespace RecvPriv

/-- The frames at a place. -/
def place (s : RecvPriv) : Place → List Nat
  | .freeRecvQueue => s.freeRecvQueue
  | .ucSwdecPendingQueue => s.ucSwdecPendingQueue.map (·.id)
  | .defragQ i => (s.defragQ i).map (·.id)
  | .pendingRecvframeQueue i tid => (s.recvreorderCtrl i tid).pending.map (·.id)
  | .held => s.held

/-- Every frame of the pool is in exactly one place, there once, and the count of free frames is right.
As `rtw_free_recvframe` always counts, it is not right any more when a frame is freed that is free. -/
structure Conserved (s : RecvPriv) : Prop where
  onePlace : ∀ id < nrRecvframe, ∃! p, id ∈ s.place p
  nodup : ∀ p, (s.place p).Nodup
  fromPool : ∀ p, ∀ id ∈ s.place p, id < nrRecvframe
  cnt : s.freeRecvframeCnt = s.freeRecvQueue.length

/-- `rtw_list_delete`: the frame leaves the list it is in. -/
def listDelete (s : RecvPriv) (id : Nat) : RecvPriv :=
  { s with
    freeRecvQueue := s.freeRecvQueue.filter (· ≠ id)
    ucSwdecPendingQueue := s.ucSwdecPendingQueue.filter (·.id ≠ id)
    defragQ := fun i => (s.defragQ i).filter (·.id ≠ id)
    recvreorderCtrl := fun i tid =>
      { s.recvreorderCtrl i tid with pending := (s.recvreorderCtrl i tid).pending.filter (·.id ≠ id) }
    held := s.held.filter (· ≠ id) }

def rtwFreeRecvframe (s : RecvPriv) (id : Nat) : RecvPriv :=
  let s := s.listDelete id
  { s with freeRecvQueue := s.freeRecvQueue ++ [id], freeRecvframeCnt := s.freeRecvframeCnt + 1 }

/-- `rtw_alloc_recvframe` from the free queue -/
def rtwAllocRecvframe (s : RecvPriv) : Option (RecvPriv × Nat) :=
  match s.freeRecvQueue with
  | [] => none
  | id :: l =>
    some ({ s with freeRecvQueue := l, freeRecvframeCnt := s.freeRecvframeCnt - 1, held := id :: s.held }, id)

/-- `rtw_alloc_recvframe` from `uc_swdec_pending_queue` -/
def dequeueUcSwdec (s : RecvPriv) : Option (RecvPriv × RecvFrame) :=
  match s.ucSwdecPendingQueue with
  | [] => none
  | f :: l => some ({ s with ucSwdecPendingQueue := l, held := f.id :: s.held }, f)

/-- `rtw_enqueue_recvframe` into `uc_swdec_pending_queue` -/
def enqueueUcSwdec (s : RecvPriv) (f : RecvFrame) : RecvPriv :=
  let s := s.listDelete f.id
  { s with ucSwdecPendingQueue := s.ucSwdecPendingQueue ++ [f] }

/-- A fragment goes to the tail of a `defrag_q`. -/
def insertDefrag (s : RecvPriv) (i : StaId) (f : RecvFrame) : RecvPriv :=
  { s with defragQ := Function.update s.defragQ i (s.defragQ i ++ [f]), held := s.held.erase f.id }

/-- The first fragment is taken off a `defrag_q`. -/
def takeDefrag (s : RecvPriv) (i : StaId) (f : RecvFrame) : RecvPriv :=
  { s with defragQ := Function.update s.defragQ i (s.defragQ i).tail, held := f.id :: s.held }

def modifyReorderCtrl (s : RecvPriv) (i : StaId) (tid : Fin 16) (c : RecvReorderCtrl → RecvReorderCtrl) : RecvPriv :=
  { s with
    recvreorderCtrl := Function.update s.recvreorderCtrl i
      (Function.update (s.recvreorderCtrl i) tid (c (s.recvreorderCtrl i tid))) }

/-- A reorder control block changes; the pending queue stays as it is. -/
def setReorderCtrl (s : RecvPriv) (i : StaId) (tid : Fin 16) (ctrl : RecvReorderCtrl) : RecvPriv :=
  s.modifyReorderCtrl i tid fun c => { ctrl with pending := c.pending }

/-- The pending queue of a TID changes, and with it what the call holds. -/
def setPending (s : RecvPriv) (i : StaId) (tid : Fin 16) (l : List RecvFrame) (held : List Nat) : RecvPriv :=
  { s.modifyReorderCtrl i tid fun c => { c with pending := l } with held }

/-- A frame goes into a pending queue, which is `l` with the frame in its place. -/
def insertPending (s : RecvPriv) (i : StaId) (tid : Fin 16) (l : List RecvFrame) (f : RecvFrame) : RecvPriv :=
  s.setPending i tid l (s.held.erase f.id)

/-- The first frame is taken off a pending queue. -/
def takePending (s : RecvPriv) (i : StaId) (tid : Fin 16) (f : RecvFrame) : RecvPriv :=
  s.setPending i tid (s.recvreorderCtrl i tid).pending.tail (f.id :: s.held)

/-- `rtw_alloc_stainfo`, which starts the queues of the entry afresh. -/
def allocStainfo (s : RecvPriv) (hwaddr : MacAddr) : RecvPriv :=
  match rtwAllocStainfo s.stapriv hwaddr with
  | none => s
  | some (stapriv, i) =>
    { s with
      stapriv
      bcmcSta := if hwaddr = bcAddr then i else s.bcmcSta
      defragQ := Function.update s.defragQ i []
      recvreorderCtrl := Function.update s.recvreorderCtrl i fun _ =>
        { enable := false, indicateSeq := 0xFFFF, wsizeB := 64, ampduSize := 0xFF, pending := [] } }

/-- `_rtw_init_recv_priv`, and `_rtw_init_sta_priv` -/
def rtwInitRecvPriv (maxNumSta : Nat) : RecvPriv where
  freeRecvQueue := List.range nrRecvframe
  freeRecvframeCnt := nrRecvframe
  ucSwdecPendingQueue := []
  defragQ _ := []
  recvreorderCtrl _ _ := { enable := false, indicateSeq := 0xFFFF, wsizeB := 64, ampduSize := 0xFF, pending := [] }
  preorderCtrl _ := (0, 0)
  stapriv := .init maxNumSta
  bcmcSta := 0
  held := []

/-- The queues when `rtw_init_bcmc_stainfo` has been called as well. -/
def init (maxNumSta : Nat) : RecvPriv := (rtwInitRecvPriv maxNumSta).allocStainfo bcAddr

/-! ### The law of conservation -/

/-- The pool is spread over the places, and the count of free frames is right. -/
structure Inv (s : RecvPriv) : Prop where
  spread : Places.Spread (Multiset.range nrRecvframe) fun p => (s.place p : Multiset Nat)
  cnt : s.freeRecvframeCnt = s.freeRecvQueue.length

variable {s s' : RecvPriv} {id : Nat} {f : RecvFrame} {p q : Place} {i : StaId} {tid : Fin 16}
  {h l : List Nat} {k : List RecvFrame}

theorem Inv.conserved (hs : s.Inv) : s.Conserved where
  onePlace _ hid := hs.spread.existsUnique (Multiset.nodup_range _) (Multiset.mem_range.2 hid)
  nodup p := Multiset.coe_nodup.1 (hs.spread.nodup (Multiset.nodup_range _) p)
  fromPool _ _ hid := Multiset.mem_range.1 (hs.spread.mem hid)
  cnt := hs.cnt

theorem Inv.notMem (hs : s.Inv) (hid : id ∈ s.place p) (hne : q ≠ p) : id ∉ s.place q :=
  fun hq => hne (hs.spread.eq_of_mem (Multiset.nodup_range _) hq hid)

theorem Inv.move (hs : s.Inv) (id : Nat) (p q : Place) (hne : p ≠ q) (hp : (s.place p).Perm (id :: s'.place p))
    (hq : (s'.place q).Perm (id :: s.place q)) (hrest : ∀ r, r ≠ p → r ≠ q → s'.place r = s.place r)
    (hcnt : s'.freeRecvframeCnt = s'.freeRecvQueue.length) : s'.Inv where
  spread := hs.spread.move hne (Multiset.coe_eq_coe.2 hp) (Multiset.coe_eq_coe.2 hq)
    fun r hrp hrq => congrArg _ (hrest r hrp hrq)
  cnt := hcnt

theorem Inv.congr (hs : s.Inv) (hplace : ∀ p, s'.place p = s.place p)
    (hcnt : s'.freeRecvframeCnt = s.freeRecvframeCnt) : s'.Inv where
  spread := by simpa only [hplace] using hs.spread
  cnt := by rw [hcnt, hs.cnt]; exact congrArg List.length (hplace .freeRecvQueue).symm

theorem place_listDelete : (s.listDelete id).place p = (s.place p).filter (· ≠ id) := by
  cases p <;> simp [place, listDelete, List.filter_map, Function.comp_def]

/-- A frame is taken from wherever it is and put at `q`. -/
theorem Inv.relocate (hs : s.Inv) (hid : id < nrRecvframe)
    (hplace : ∀ p, s'.place p = (s.place p).filter (· ≠ id) ++ if p = q then [id] else [])
    (hcnt : s'.freeRecvframeCnt = s'.freeRecvQueue.length) : s'.Inv where
  spread := by
    have hrel : (fun p => (s'.place p : Multiset Nat)) = Places.relocate id q fun p => (s.place p : Multiset Nat) := by
      funext p
      rw [hplace, Places.relocate, ← Multiset.coe_add]
      congr 1
      split <;> rfl
    rw [hrel]
    exact hs.spread.relocate (Multiset.nodup_range _) (Multiset.mem_range.2 hid)
  cnt := hcnt

theorem filter_freeRecvQueue (hfree : id ∉ s.freeRecvQueue) : s.freeRecvQueue.filter (· ≠ id) = s.freeRecvQueue :=
  List.filter_eq_self.2 fun _ ha => decide_eq_true fun he => hfree (he ▸ ha)

theorem Inv.rtwFreeRecvframe (hs : s.Inv) (hid : id < nrRecvframe) (hfree : id ∉ s.freeRecvQueue) :
    (s.rtwFreeRecvframe id).Inv := by
  refine hs.relocate (q := .freeRecvQueue) hid (fun p => ?_) ?_
  · rw [← place_listDelete]
    cases p <;> simp [place, RecvPriv.rtwFreeRecvframe]
  · simp only [RecvPriv.rtwFreeRecvframe, listDelete, filter_freeRecvQueue hfree, hs.cnt, List.length_append,
      List.length_singleton]

theorem Inv.enqueueUcSwdec (hs : s.Inv) (hid : f.id < nrRecvframe) (hfree : f.id ∉ s.freeRecvQueue) :
    (s.enqueueUcSwdec f).Inv := by
  refine hs.relocate (q := .ucSwdecPendingQueue) hid (fun p => ?_) ?_
  · rw [← place_listDelete]
    cases p <;> simp [place, RecvPriv.enqueueUcSwdec]
  · simp only [RecvPriv.enqueueUcSwdec, listDelete, filter_freeRecvQueue hfree, hs.cnt]

theorem Inv.rtwAllocRecvframe (hs : s.Inv) (ha : s.rtwAllocRecvframe = some (s', id)) :
    s'.Inv ∧ s'.held = id :: s.held ∧ id < nrRecvframe := by
  have hcnt := hs.cnt
  unfold RecvPriv.rtwAllocRecvframe at ha
  split at ha
  · cases ha
  case h_2 a l hl =>
    obtain ⟨rfl, rfl⟩ := Prod.mk.inj (Option.some.inj ha)
    refine ⟨hs.move a .freeRecvQueue .held (by simp) (by simp [place, hl]) (by simp [place]) ?_ ?_, rfl,
      Multiset.mem_range.1 (hs.spread.mem (p := .freeRecvQueue) (by simp [place, hl]))⟩
    · rintro (_ | _ | _ | _ | _) hp hq <;> simp_all [place]
    · rw [hl] at hcnt; simp [hcnt]

theorem Inv.dequeueUcSwdec (hs : s.Inv) (ha : s.dequeueUcSwdec = some (s', f)) :
    s'.Inv ∧ s'.held = f.id :: s.held := by
  unfold RecvPriv.dequeueUcSwdec at ha
  split at ha
  · cases ha
  case h_2 g l hl =>
    obtain ⟨rfl, rfl⟩ := Prod.mk.inj (Option.some.inj ha)
    refine ⟨hs.move g.id .ucSwdecPendingQueue .held (by simp) (by simp [place, hl]) (by simp [place]) ?_ hs.cnt,
      rfl⟩
    rintro (_ | _ | _ | _ | _) hp hq <;> simp_all [place]

theorem Inv.insertDefrag (hs : s.Inv) (hh : s.held = f.id :: h) : (s.insertDefrag i f).Inv := by
  refine hs.move f.id .held (.defragQ i) (by simp) (by simp [place, RecvPriv.insertDefrag, hh]) ?_ ?_ hs.cnt
  · simp [place, RecvPriv.insertDefrag]
  · rintro (_ | _ | j | _ | _) hp hq
    · rfl
    · rfl
    · simp only [place, RecvPriv.insertDefrag]
      rw [Function.update_of_ne fun hj => hq (by rw [hj])]
    · rfl
    · exact absurd rfl hp

theorem Inv.takeDefrag (hs : s.Inv) (hl : s.defragQ i = f :: k) : (s.takeDefrag i f).Inv := by
  refine hs.move f.id (.defragQ i) .held (by simp) (by simp [place, RecvPriv.takeDefrag, hl])
    (by simp [place, RecvPriv.takeDefrag]) ?_ hs.cnt
  rintro (_ | _ | j | _ | _) hp hq
  · rfl
  · rfl
  · simp only [place, RecvPriv.takeDefrag]
    rw [Function.update_of_ne fun hj => hp (by rw [hj])]
  · rfl
  · exact absurd rfl hq

@[simp] theorem modifyReorderCtrl_self {c : RecvReorderCtrl → RecvReorderCtrl} :
    (s.modifyReorderCtrl i tid c).recvreorderCtrl i tid = c (s.recvreorderCtrl i tid) := by
  simp [modifyReorderCtrl]

theorem modifyReorderCtrl_of_ne {c : RecvReorderCtrl → RecvReorderCtrl} {j : StaId} {t : Fin 16}
    (hne : Place.pendingRecvframeQueue j t ≠ .pendingRecvframeQueue i tid) :
    (s.modifyReorderCtrl i tid c).recvreorderCtrl j t = s.recvreorderCtrl j t := by
  unfold modifyReorderCtrl
  dsimp only
  by_cases hj : j = i
  · subst hj
    rw [Function.update_self, Function.update_of_ne fun ht => hne (by rw [ht])]
  · rw [Function.update_of_ne hj]

theorem place_setReorderCtrl {ctrl : RecvReorderCtrl} : (s.setReorderCtrl i tid ctrl).place p = s.place p := by
  cases p with
  | pendingRecvframeQueue j t =>
    unfold place setReorderCtrl
    dsimp only
    by_cases hne : Place.pendingRecvframeQueue j t = .pendingRecvframeQueue i tid
    · cases hne; rw [modifyReorderCtrl_self]
    · rw [modifyReorderCtrl_of_ne hne]
  | _ => rfl

theorem place_setPending_of_ne {j : StaId} {t : Fin 16}
    (hne : Place.pendingRecvframeQueue j t ≠ .pendingRecvframeQueue i tid) :
    (s.setPending i tid k h).place (.pendingRecvframeQueue j t) = s.place (.pendingRecvframeQueue j t) := by
  unfold setPending place
  dsimp only
  rw [modifyReorderCtrl_of_ne hne]

@[simp] theorem setPending_pending_self : ((s.setPending i tid k h).recvreorderCtrl i tid).pending = k := by
  unfold setPending
  dsimp only
  rw [modifyReorderCtrl_self]

theorem Inv.insertPending (hs : s.Inv) (hh : s.held = f.id :: h)
    (hk : k.Perm (f :: (s.recvreorderCtrl i tid).pending)) : (s.insertPending i tid k f).Inv := by
  refine hs.move f.id .held (.pendingRecvframeQueue i tid) (by simp)
    (by simp [place, RecvPriv.insertPending, setPending, hh])
    (by simpa [place, RecvPriv.insertPending] using hk.map (·.id)) ?_ hs.cnt
  rintro (_ | _ | _ | _ | _) hp hq
  · rfl
  · rfl
  · rfl
  · exact place_setPending_of_ne hq
  · exact absurd rfl hp

theorem Inv.takePending (hs : s.Inv) (hk : (s.recvreorderCtrl i tid).pending = f :: k) :
    (s.takePending i tid f).Inv := by
  refine hs.move f.id (.pendingRecvframeQueue i tid) .held (by simp) (by simp [place, RecvPriv.takePending, hk])
    (by simp [place, RecvPriv.takePending, setPending]) ?_ hs.cnt
  rintro (_ | _ | _ | _ | _) hp hq
  · rfl
  · rfl
  · rfl
  · exact place_setPending_of_ne hp
  · exact absurd rfl hq

@[simp] theorem freeRecvframeCnt_allocStainfo {hwaddr : MacAddr} :
    (s.allocStainfo hwaddr).freeRecvframeCnt = s.freeRecvframeCnt := by
  unfold allocStainfo; split <;> rfl

/-- An entry whose queues are empty can be taken into use. -/
theorem place_allocStainfo {hwaddr : MacAddr} (hempty : ∀ r ∈ rtwAllocStainfo s.stapriv hwaddr,
    s.defragQ r.2 = [] ∧ ∀ tid, (s.recvreorderCtrl r.2 tid).pending = []) :
    (s.allocStainfo hwaddr).place p = s.place p := by
  unfold allocStainfo
  cases ha : rtwAllocStainfo s.stapriv hwaddr with
  | none => rfl
  | some r =>
    obtain ⟨hdefrag, hpend⟩ := hempty r ha
    cases p with
    | defragQ j =>
      by_cases hj : j = r.2
      · subst hj; simp [place, hdefrag]
      · simp [place, hj]
    | pendingRecvframeQueue j tid =>
      by_cases hj : j = r.2
      · subst hj; simp [place, hpend tid]
      · simp [place, hj]
    | _ => rfl

theorem Inv.init (maxNumSta : Nat) : (init maxNumSta).Inv := by
  have hfree : (rtwInitRecvPriv maxNumSta).place .freeRecvQueue = List.range nrRecvframe := by
    simp only [place, rtwInitRecvPriv]
  have hbase : (rtwInitRecvPriv maxNumSta).Inv := by
    refine ⟨?_, by simp [rtwInitRecvPriv]⟩
    unfold Places.Spread
    rw [Finset.sum_eq_single Place.freeRecvQueue, hfree, Multiset.coe_range]
    · rintro (_ | _ | _ | _ | _) - hp
      · exact absurd rfl hp
      all_goals rfl
    · exact fun hp => absurd (Finset.mem_univ _) hp
  exact hbase.congr (fun _ => place_allocStainfo fun _ _ => ⟨rfl, fun _ => rfl⟩) freeRecvframeCnt_allocStainfo

end RecvPriv

end Rtw
