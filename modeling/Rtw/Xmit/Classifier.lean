import Mathlib.Algebra.BigOperators.Group.Finset.Basic
import Mathlib.Algebra.BigOperators.Fin
import Mathlib.Algebra.Order.Group.Int
import Rtw.Lib.Run
import Rtw.Xmit.SleepQueue

/-!
# The transmit scheduler

A frame waits in the queue `sta_pending` of its station and access category, `qcnt` counts the frames of
that queue and `accnt` those of an access category; a queue is linked into the list of its access category
by `tx_pending`. `stop_sta_xmit` unlinks a queue whether or not all its frames went to sleep: a frame that
`xmitframe_enqueue_for_sleeping_sta` does not take stays behind in a queue that no one looks into. Runs in
which it takes them all keep queues, counters and lists in step (`TxSched.schedOk_run`).
-/

namespace Rtw

/-- `struct hw_xmit` with its `sta_queue` -/
structure HwXmit where
  staQueue : List StaId := []
  accnt : Int := 0

/-- The queues `sta_pending` are those of `ap`. There are no more frames than `NR_XMITFRAME`, so no counter
overflows. -/
structure TxSched where
  ap : Ap
  /-- `WIFI_AP_STATE` -/
  apState : Bool
  qcnt : StaId → Ac → Int
  hwxmits : Ac → HwXmit

namespace TxSched

/-- `sta_pending` -/
def pending (s : TxSched) (i : StaId) (ac : Ac) : List XmitFrame := (s.ap.ps i).pending ac

def setPending (s : TxSched) (i : StaId) (ac : Ac) (fs : List XmitFrame) : TxSched :=
  { s with ap := s.ap.setPs i { s.ap.ps i with pending := Function.update (s.ap.ps i).pending ac fs } }

/-- `qcnt` and `accnt` go up by `n`. -/
def count (s : TxSched) (i : StaId) (ac : Ac) (n : Int) : TxSched :=
  { s with
    qcnt := Function.update s.qcnt i (Function.update (s.qcnt i) ac (s.qcnt i ac + n))
    hwxmits := Function.update s.hwxmits ac { s.hwxmits ac with accnt := (s.hwxmits ac).accnt + n } }

def setStaQueue (s : TxSched) (ac : Ac) (l : List StaId) : TxSched :=
  { s with hwxmits := Function.update s.hwxmits ac { s.hwxmits ac with staQueue := l } }

/-- `rtw_list_delete` on `tx_pending` -/
def unlink (s : TxSched) (i : StaId) (ac : Ac) : TxSched :=
  s.setStaQueue ac ((s.hwxmits ac).staQueue.erase i)

/-- `rtw_xmit_classifier`, `none` for `_FAIL` -/
def rtwXmitClassifier (s : TxSched) (f : XmitFrame) : Option TxSched :=
  if rtwGetStainfo s.ap.pool f.ra ≠ some f.psta then none
  else if !(s.ap.ps f.psta).linked then none
  else
    let ac := acOf f.priority
    let queue := (s.hwxmits ac).staQueue
    let s := if f.psta ∈ queue then s else s.setStaQueue ac (queue ++ [f.psta])
    some ((s.setPending f.psta ac (s.pending f.psta ac ++ [f])).count f.psta ac 1)

/-- `dequeue_one_xmitframe`, and what `rtw_dequeue_xframe` does when it gives a frame. -/
def dequeueOneXmitframe (s : TxSched) (i : StaId) (ac : Ac) : Option (XmitFrame × TxSched) :=
  match s.pending i ac with
  | [] => none
  | f :: fs =>
    let s := (s.setPending i ac fs).count i ac (-1)
    some (f, if fs.isEmpty then s.unlink i ac else s)

def rtwDequeueXframe (s : TxSched) (wifiSpec : Bool) (wmmParaSeq : List Ac) : Option (XmitFrame × TxSched) :=
  let inx := if wifiSpec then wmmParaSeq else [.vo, .vi, .be, .bk]
  inx.findSome? fun ac => (s.hwxmits ac).staQueue.findSome? fun i => s.dequeueOneXmitframe i ac

def xmitframeEnqueueForSleepingSta (s : TxSched) (f : XmitFrame) : TxSched × Bool :=
  if !s.apState then (s, false)
  else
    let (ap, ret) := s.ap.xmitframeEnqueueForSleepingSta f
    ({ s with ap }, ret)

/-- The loop of `dequeue_xmitframes_to_sleeping_queue`, with the frames that stay in the queue. -/
def dequeueLoop (s : TxSched) (i : StaId) : List XmitFrame → TxSched × List XmitFrame
  | [] => (s, [])
  | f :: fs =>
    let f := { f with triggered := false }
    match s.xmitframeEnqueueForSleepingSta f with
    | (s, true) => (s.count i (acOf f.priority) (-1)).dequeueLoop i fs
    | (s, false) =>
      let (s, kept) := s.dequeueLoop i fs
      (s, f :: kept)

def dequeueXmitframesToSleepingQueue (s : TxSched) (i : StaId) (ac : Ac) : TxSched :=
  let (s, kept) := s.dequeueLoop i (s.pending i ac)
  s.setPending i ac kept

/-- Two lines of `stop_sta_xmit`, the same for each queue. -/
def stopQueue (s : TxSched) (i : StaId) (ac : Ac) : TxSched :=
  (s.dequeueXmitframesToSleepingQueue i ac).unlink i ac

/-- `WIFI_SLEEP_STATE` and the bit in `sta_dz_bitmap`, with which `stop_sta_xmit` begins. -/
def doze (s : TxSched) (i : StaId) : TxSched :=
  { s with ap := { s.ap.setPs i { s.ap.ps i with sleep := true } with
      staDzBitmap := s.ap.staDzBitmap ||| bit (s.ap.pool.sta i).aid } }

def stopStaXmit (s : TxSched) (i : StaId) : TxSched :=
  let pstaBmc := rtwGetBcmcStainfo s.ap.pool
  let s := s.doze i
  let s := s.stopQueue i .vo
  let s := s.stopQueue i .vi
  let s := s.stopQueue i .be
  let s := s.stopQueue i .bk
  match pstaBmc with
  -- the source takes the address of a member of the null pointer
  | none => s
  | some bmc => s.stopQueue bmc .be

/-- What `rtw_free_stainfo` does to one of the four queues, its frames apart. -/
def freeQueue (s : TxSched) (i : StaId) (ac : Ac) : TxSched :=
  (s.unlink i ac).count i ac (-s.qcnt i ac)

def rtwFreeStainfo (s : TxSched) (i : StaId) : TxSched :=
  let s := { s with ap := s.ap.rtwFreeStainfo i }
  (((s.freeQueue i .vo).freeQueue i .vi).freeQueue i .be).freeQueue i .bk

/-- Anything else that the driver does: stations come and associate, wake up and move to another list. None
of it touches the pending queues; `rtw_alloc_stainfo` initializes those of an entry that `rtw_free_stainfo`
has emptied, and a frame that is to be sent goes through `rtw_xmit_classifier`. -/
def other (s : TxSched) (ap : Ap) (apState : Bool) : TxSched :=
  { s with ap := { ap with ps := fun i => { ap.ps i with pending := s.pending i } }, apState }

/-- Nothing is pending. -/
def start (ap : Ap) (apState : Bool) : TxSched where
  ap := { ap with ps := fun i => { ap.ps i with pending := fun _ => [] } }
  apState
  qcnt _ _ := 0
  hwxmits _ := {}

end TxSched

inductive TxSchedEvent where
  | classify (f : XmitFrame)
  | dequeue (wifiSpec : Bool) (wmmParaSeq : List Ac)
  | stop (i : StaId)
  | free (i : StaId)
  | other (ap : Ap) (apState : Bool)

namespace TxSched

def next (s : TxSched) : TxSchedEvent → TxSched
  | .classify f => (s.rtwXmitClassifier f).getD s
  | .dequeue wifiSpec wmmParaSeq => ((s.rtwDequeueXframe wifiSpec wmmParaSeq).map (·.2)).getD s
  | .stop i => s.stopStaXmit i
  | .free i => s.rtwFreeStainfo i
  | .other ap apState => s.other ap apState

/-- Queues, counters and lists are in step. -/
structure SchedOk (s : TxSched) : Prop where
  qcnt : ∀ i ac, s.qcnt i ac = (s.pending i ac).length
  accnt : ∀ ac, (s.hwxmits ac).accnt = ∑ i, s.qcnt i ac
  linked : ∀ i ac, i ∈ (s.hwxmits ac).staQueue ↔ s.pending i ac ≠ []

/-- `xmitframe_enqueue_for_sleeping_sta` takes the frame when `stop_sta_xmit` has put `i` to sleep. -/
def Sleeps (s : TxSched) (i : StaId) (f : XmitFrame) : Prop :=
  s.apState ∧ rtwGetStainfo s.ap.pool f.ra = some f.psta ∧ (s.ap.ps f.psta).linked ∧
    ((f.ra.isMcast ∧ s.ap.staDzBitmap ≠ 0) ∨ (s.ap.pool.sta i).aid < 16)

/-- `stop_sta_xmit` leaves no frame in the queues that it unlinks. -/
def StepOk (s : TxSched) : TxSchedEvent → Prop
  | .stop i => (∀ ac, ∀ f ∈ s.pending i ac, s.Sleeps i f) ∧
      ∀ bmc, rtwGetBcmcStainfo s.ap.pool = some bmc → ∀ f ∈ s.pending bmc .be, s.Sleeps i f
  | _ => True

variable {s t u : TxSched} {i j bmc : StaId} {ac : Ac} {f : XmitFrame} {fs : List XmitFrame} {n m : Int}

/-! ### Queues, counters and lists apart -/

@[simp] theorem setPending_qcnt : (s.setPending i ac fs).qcnt = s.qcnt := rfl
@[simp] theorem setPending_hwxmits : (s.setPending i ac fs).hwxmits = s.hwxmits := rfl
@[simp] theorem count_pending : (s.count i ac n).pending = s.pending := rfl
@[simp] theorem setStaQueue_pending {l : List StaId} : (s.setStaQueue ac l).pending = s.pending := rfl
@[simp] theorem setStaQueue_qcnt {l : List StaId} : (s.setStaQueue ac l).qcnt = s.qcnt := rfl

@[simp] theorem setPending_pending_self : (s.setPending i ac fs).pending i ac = fs := by
  simp [pending, setPending]

theorem setPending_pending_of_ne {b : Ac} (h : (j, b) ≠ (i, ac)) :
    (s.setPending i ac fs).pending j b = s.pending j b := by
  rcases eq_or_ne j i with rfl | hj
  · have hb : b ≠ ac := fun hb => h (by rw [hb])
    simp [pending, setPending, hb]
  · simp [pending, setPending, Ap.setPs_ps_of_ne hj]

@[simp] theorem count_staQueue {b : Ac} : ((s.count i ac n).hwxmits b).staQueue = (s.hwxmits b).staQueue := by
  rcases eq_or_ne b ac with rfl | hb
  · simp [count]
  · simp [count, hb]

@[simp] theorem setStaQueue_self {l : List StaId} : ((s.setStaQueue ac l).hwxmits ac).staQueue = l := by
  simp [setStaQueue]

theorem setStaQueue_of_ne {b : Ac} {l : List StaId} (hb : b ≠ ac) : (s.setStaQueue ac l).hwxmits b = s.hwxmits b := by
  simp [setStaQueue, hb]

@[simp] theorem setStaQueue_accnt {b : Ac} {l : List StaId} :
    ((s.setStaQueue ac l).hwxmits b).accnt = (s.hwxmits b).accnt := by
  rcases eq_or_ne b ac with rfl | hb
  · simp [setStaQueue]
  · rw [setStaQueue_of_ne hb]

theorem count_qcnt {b : Ac} :
    (s.count i ac n).qcnt j b = s.qcnt j b + if (j, b) = (i, ac) then n else 0 := by
  rcases eq_or_ne j i with rfl | hj
  · rcases eq_or_ne b ac with rfl | hb
    · simp [count]
    · simp [count, hb]
  · simp [count, hj]

theorem count_accnt {b : Ac} :
    ((s.count i ac n).hwxmits b).accnt = (s.hwxmits b).accnt + if b = ac then n else 0 := by
  rcases eq_or_ne b ac with rfl | hb
  · simp [count]
  · simp [count, hb]

theorem count_count : (s.count i ac n).count i ac m = s.count i ac (n + m) := by
  simp [count, Int.add_assoc]

theorem count_zero : s.count i ac 0 = s := by
  simp [count]

theorem count_qcnt_congr (h : t.qcnt = s.qcnt) : (t.count i ac n).qcnt = (s.count i ac n).qcnt := by
  simp only [count, h]

theorem count_hwxmits_congr (h : t.hwxmits = s.hwxmits) :
    (t.count i ac n).hwxmits = (s.count i ac n).hwxmits := by
  simp only [count, h]

theorem sum_count_qcnt (b : Ac) :
    ∑ j, (s.count i ac n).qcnt j b = (∑ j, s.qcnt j b) + if b = ac then n else 0 := by
  simp only [count_qcnt, Finset.sum_add_distrib, Prod.mk.injEq]
  rcases eq_or_ne b ac with rfl | hb
  · simp
  · simp [hb]

/-! ### What always holds -/

/-- The counters are right, and each frame is in the queue of its station and priority. -/
structure Counted (s : TxSched) : Prop where
  qcnt : ∀ i ac, s.qcnt i ac = (s.pending i ac).length
  accnt : ∀ ac, (s.hwxmits ac).accnt = ∑ i, s.qcnt i ac
  frames : ∀ i ac, ∀ f ∈ s.pending i ac, f.psta = i ∧ acOf f.priority = ac
  nodup : ∀ ac, (s.hwxmits ac).staQueue.Nodup

theorem Counted.congr (h : s.Counted) (hp : t.pending = s.pending) (hq : t.qcnt = s.qcnt)
    (hw : t.hwxmits = s.hwxmits) : t.Counted := by
  refine ⟨?_, ?_, ?_, ?_⟩
  · rw [hp, hq]
    exact h.qcnt
  · rw [hw, hq]
    exact h.accnt
  · rw [hp]
    exact h.frames
  · rw [hw]
    exact h.nodup

theorem Counted.setStaQueue (h : s.Counted) {l : List StaId} (hl : l.Nodup) : (s.setStaQueue ac l).Counted := by
  refine ⟨h.qcnt, fun b => ?_, h.frames, fun b => ?_⟩
  · rw [setStaQueue_accnt]
    exact h.accnt b
  · rcases eq_or_ne b ac with rfl | hb
    · rw [setStaQueue_self]
      exact hl
    · rw [setStaQueue_of_ne hb]
      exact h.nodup b

theorem Counted.unlink (h : s.Counted) (i : StaId) (ac : Ac) : (s.unlink i ac).Counted :=
  h.setStaQueue ((h.nodup ac).erase i)

theorem Counted.recount (h : s.Counted) (hn : (fs.length : Int) = (s.pending i ac).length + n)
    (hfs : ∀ f ∈ fs, f.psta = i ∧ acOf f.priority = ac) : ((s.setPending i ac fs).count i ac n).Counted := by
  refine ⟨fun j b => ?_, fun b => ?_, fun j b => ?_, fun b => ?_⟩
  · rw [count_qcnt, count_pending, setPending_qcnt, h.qcnt]
    by_cases hjb : (j, b) = (i, ac)
    · obtain ⟨rfl, rfl⟩ := Prod.mk.inj hjb
      rw [if_pos rfl, setPending_pending_self, hn]
    · rw [if_neg hjb, setPending_pending_of_ne hjb, Int.add_zero]
  · rw [count_accnt, sum_count_qcnt, setPending_hwxmits, setPending_qcnt, h.accnt]
  · rw [count_pending]
    by_cases hjb : (j, b) = (i, ac)
    · obtain ⟨rfl, rfl⟩ := Prod.mk.inj hjb
      rw [setPending_pending_self]
      exact hfs
    · rw [setPending_pending_of_ne hjb]
      exact h.frames j b
  · rw [count_staQueue, setPending_hwxmits]
    exact h.nodup b

theorem unlink_mem (h : s.Counted) {b : Ac} :
    j ∈ ((s.unlink i ac).hwxmits b).staQueue ↔ j ∈ (s.hwxmits b).staQueue ∧ (j, b) ≠ (i, ac) := by
  unfold TxSched.unlink
  rcases eq_or_ne b ac with rfl | hb
  · rw [setStaQueue_self, (h.nodup b).mem_erase_iff]
    simp [and_comm]
  · rw [setStaQueue_of_ne hb]
    simp [hb]

/-! ### The classifier -/

theorem rtwXmitClassifier_eq_some (h : s.rtwXmitClassifier f = some t) :
    ∃ u, (u = s ∧ f.psta ∈ (s.hwxmits (acOf f.priority)).staQueue ∨
        f.psta ∉ (s.hwxmits (acOf f.priority)).staQueue ∧
          u = s.setStaQueue (acOf f.priority) ((s.hwxmits (acOf f.priority)).staQueue ++ [f.psta])) ∧
      t = (u.setPending f.psta (acOf f.priority) (u.pending f.psta (acOf f.priority) ++ [f])).count
        f.psta (acOf f.priority) 1 := by
  unfold rtwXmitClassifier at h
  split at h
  · cases h
  split at h
  · cases h
  dsimp only at h
  split at h
  · rename_i hmem
    exact ⟨s, .inl ⟨rfl, hmem⟩, (Option.some.inj h).symm⟩
  · rename_i hmem
    exact ⟨_, .inr ⟨hmem, rfl⟩, (Option.some.inj h).symm⟩

theorem Counted.classify (h : s.Counted) (hf : s.rtwXmitClassifier f = some t) : t.Counted := by
  obtain ⟨u, hu, rfl⟩ := rtwXmitClassifier_eq_some hf
  have hcounted : u.Counted := by
    rcases hu with ⟨rfl, -⟩ | ⟨hnot, rfl⟩
    · exact h
    · refine h.setStaQueue (List.nodup_append.2 ⟨h.nodup _, List.nodup_singleton _, ?_⟩)
      rintro a ha b hb rfl
      rw [List.mem_singleton.1 hb] at ha
      exact hnot ha
  refine hcounted.recount (by simp) fun g hg => ?_
  rcases List.mem_append.1 hg with hg | hg
  · exact hcounted.frames _ _ g hg
  · rw [List.mem_singleton.1 hg]
    exact ⟨rfl, rfl⟩

/-- A queue is linked exactly when it is not empty. -/
def Linked (s : TxSched) : Prop := ∀ i ac, i ∈ (s.hwxmits ac).staQueue ↔ s.pending i ac ≠ []

theorem schedOk_iff_linked (h : s.Counted) : s.SchedOk ↔ s.Linked :=
  ⟨fun hs => hs.linked, fun hl => ⟨h.qcnt, h.accnt, hl⟩⟩

theorem Linked.classify (h : s.Linked) (hf : s.rtwXmitClassifier f = some t) : t.Linked := by
  obtain ⟨u, hu, rfl⟩ := rtwXmitClassifier_eq_some hf
  intro j b
  rw [count_staQueue, setPending_hwxmits, count_pending]
  by_cases hjb : (j, b) = (f.psta, acOf f.priority)
  · obtain ⟨rfl, rfl⟩ := Prod.mk.inj hjb
    rw [setPending_pending_self]
    refine iff_of_true ?_ (List.append_ne_nil_of_right_ne_nil _ (List.cons_ne_nil _ _))
    rcases hu with ⟨rfl, hmem⟩ | ⟨-, rfl⟩
    · exact hmem
    · rw [setStaQueue_self]
      exact List.mem_append_right _ (List.mem_singleton_self _)
  · rw [setPending_pending_of_ne hjb]
    rcases hu with ⟨rfl, -⟩ | ⟨-, rfl⟩
    · exact h j b
    · rw [setStaQueue_pending, ← h j b]
      rcases eq_or_ne b (acOf f.priority) with rfl | hb
      · have hj : j ≠ f.psta := fun hj => hjb (by rw [hj])
        rw [setStaQueue_self]
        simp [hj]
      · rw [setStaQueue_of_ne hb]

/-! ### Dequeueing -/

theorem rtwDequeueXframe_eq_some {wifiSpec : Bool} {wmmParaSeq : List Ac}
    (h : s.rtwDequeueXframe wifiSpec wmmParaSeq = some (f, t)) :
    ∃ i ac fs, s.pending i ac = f :: fs ∧
      (fs = [] ∧ t = ((s.setPending i ac fs).count i ac (-1)).unlink i ac ∨
        fs ≠ [] ∧ t = (s.setPending i ac fs).count i ac (-1)) := by
  obtain ⟨ac, -, h⟩ := List.exists_of_findSome?_eq_some h
  obtain ⟨i, -, h⟩ := List.exists_of_findSome?_eq_some h
  unfold dequeueOneXmitframe at h
  split at h
  · cases h
  rename_i g gs hp
  obtain ⟨rfl, rfl⟩ := Prod.mk.inj (Option.some.inj h)
  refine ⟨i, ac, gs, hp, ?_⟩
  cases gs with
  | nil => exact .inl ⟨rfl, rfl⟩
  | cons g' gs => exact .inr ⟨List.cons_ne_nil _ _, rfl⟩

theorem Counted.pop (h : s.Counted) (hp : s.pending i ac = f :: fs) :
    ((s.setPending i ac fs).count i ac (-1)).Counted := by
  refine h.recount (by rw [hp, List.length_cons]; omega) fun g hg => ?_
  exact h.frames i ac g (by rw [hp]; exact List.mem_cons_of_mem _ hg)

theorem Counted.dequeue {wifiSpec : Bool} {wmmParaSeq : List Ac} (h : s.Counted)
    (hd : s.rtwDequeueXframe wifiSpec wmmParaSeq = some (f, t)) : t.Counted := by
  obtain ⟨i, ac, fs, hp, ⟨-, rfl⟩ | ⟨-, rfl⟩⟩ := rtwDequeueXframe_eq_some hd
  · exact (h.pop hp).unlink i ac
  · exact h.pop hp

theorem Linked.dequeue {wifiSpec : Bool} {wmmParaSeq : List Ac} (h : s.Linked) (hc : s.Counted)
    (hd : s.rtwDequeueXframe wifiSpec wmmParaSeq = some (f, t)) : t.Linked := by
  obtain ⟨i, ac, fs, hp, ⟨rfl, rfl⟩ | ⟨hne, rfl⟩⟩ := rtwDequeueXframe_eq_some hd
  · intro j b
    rw [unlink_mem (hc.pop hp), count_staQueue, setPending_hwxmits, h j b]
    show _ ↔ ((s.setPending i ac []).count i ac (-1)).pending j b ≠ []
    rw [count_pending]
    by_cases hjb : (j, b) = (i, ac)
    · obtain ⟨rfl, rfl⟩ := Prod.mk.inj hjb
      simp
    · rw [setPending_pending_of_ne hjb]
      simp [hjb]
  · intro j b
    rw [count_staQueue, setPending_hwxmits, h j b, count_pending]
    by_cases hjb : (j, b) = (i, ac)
    · obtain ⟨rfl, rfl⟩ := Prod.mk.inj hjb
      rw [setPending_pending_self, hp]
      exact iff_of_true (List.cons_ne_nil _ _) hne
    · rw [setPending_pending_of_ne hjb]

/-! ### A station is freed -/

theorem freeQueue_qcnt {b : Ac} :
    (s.freeQueue i ac).qcnt j b = if (j, b) = (i, ac) then 0 else s.qcnt j b := by
  rw [freeQueue, count_qcnt]
  show s.qcnt j b + _ = _
  split
  · rename_i hjb
    obtain ⟨rfl, rfl⟩ := Prod.mk.inj hjb
    omega
  · exact Int.add_zero _

theorem freeQueue_accnt {b : Ac} :
    ((s.freeQueue i ac).hwxmits b).accnt = (s.hwxmits b).accnt - if b = ac then s.qcnt i ac else 0 := by
  rw [freeQueue, count_accnt, unlink, setStaQueue_accnt]
  split
  · rfl
  · omega

theorem freeQueue_staQueue {b : Ac} : ((s.freeQueue i ac).hwxmits b).staQueue =
    if b = ac then (s.hwxmits b).staQueue.erase i else (s.hwxmits b).staQueue := by
  rw [freeQueue, count_staQueue, unlink]
  split
  · rename_i hb
    rw [hb, setStaQueue_self]
  · rename_i hb
    rw [setStaQueue_of_ne hb]

theorem free_pending {b : Ac} : (s.rtwFreeStainfo i).pending j b = if j = i then [] else s.pending j b := by
  show ((s.ap.rtwFreeStainfo i).ps j).pending b = _
  unfold Ap.rtwFreeStainfo
  dsimp only
  split
  · rename_i hj
    rw [hj, Function.update_self]
  · rename_i hj
    rw [Function.update_of_ne hj]
    rfl

theorem free_qcnt {b : Ac} : (s.rtwFreeStainfo i).qcnt j b = if j = i then 0 else s.qcnt j b := by
  unfold rtwFreeStainfo
  dsimp only
  simp only [freeQueue_qcnt, Prod.mk.injEq]
  cases b <;> simp

theorem free_accnt {b : Ac} : ((s.rtwFreeStainfo i).hwxmits b).accnt = (s.hwxmits b).accnt - s.qcnt i b := by
  unfold rtwFreeStainfo
  dsimp only
  simp only [freeQueue_accnt, freeQueue_qcnt]
  cases b <;> simp

theorem free_staQueue {b : Ac} :
    ((s.rtwFreeStainfo i).hwxmits b).staQueue = (s.hwxmits b).staQueue.erase i := by
  unfold rtwFreeStainfo
  dsimp only
  simp only [freeQueue_staQueue]
  cases b <;> simp

theorem Counted.free (h : s.Counted) (i : StaId) : (s.rtwFreeStainfo i).Counted := by
  refine ⟨fun j b => ?_, fun b => ?_, fun j b f hf => ?_, fun b => ?_⟩
  · rw [free_qcnt, free_pending, h.qcnt]
    split <;> rfl
  · have hsum : ∑ j, (s.rtwFreeStainfo i).qcnt j b = (∑ j, s.qcnt j b) - s.qcnt i b := by
      have hone : ∀ j, (s.rtwFreeStainfo i).qcnt j b = s.qcnt j b - if j = i then s.qcnt j b else 0 := by
        intro j
        rw [free_qcnt]
        split
        · exact (Int.sub_self _).symm
        · exact (Int.sub_zero _).symm
      simp only [hone, Finset.sum_sub_distrib, Finset.sum_ite_eq', Finset.mem_univ, if_true]
    rw [free_accnt, hsum, h.accnt]
  · rw [free_pending] at hf
    split at hf
    · cases hf
    · exact h.frames j b f hf
  · rw [free_staQueue]
    exact (h.nodup b).erase i

theorem Linked.free (h : s.Linked) (hc : s.Counted) (i : StaId) : (s.rtwFreeStainfo i).Linked := by
  intro j b
  rw [free_staQueue, free_pending, (hc.nodup b).mem_erase_iff, h j b]
  split
  · rename_i hj
    simp [hj]
  · rename_i hj
    simp [hj]

/-! ### A station goes to sleep -/

/-- What decides whether a frame goes to a sleeping queue is the same; a bit of `sta_dz_bitmap` may be set when
there is one already. -/
structure SameSta (s t : TxSched) : Prop where
  apState : t.apState = s.apState
  pool : t.ap.pool = s.ap.pool
  linked : ∀ i, (t.ap.ps i).linked = (s.ap.ps i).linked
  sleep : ∀ i, (t.ap.ps i).sleep = (s.ap.ps i).sleep
  dz_eq_zero : t.ap.staDzBitmap = 0 ↔ s.ap.staDzBitmap = 0
  dz_le : ∀ k, s.ap.staDzBitmap.getLsbD k = true → t.ap.staDzBitmap.getLsbD k = true

theorem SameSta.refl (s : TxSched) : SameSta s s := ⟨rfl, rfl, fun _ => rfl, fun _ => rfl, Iff.rfl, fun _ h => h⟩

theorem SameSta.trans (h : SameSta s t) (h' : SameSta t u) : SameSta s u :=
  ⟨h'.apState.trans h.apState, h'.pool.trans h.pool, fun i => (h'.linked i).trans (h.linked i),
    fun i => (h'.sleep i).trans (h.sleep i), h'.dz_eq_zero.trans h.dz_eq_zero, fun k hk => h'.dz_le k (h.dz_le k hk)⟩

/-- The frame goes to a sleeping queue. -/
def Fits (s : TxSched) (f : XmitFrame) : Prop :=
  s.apState ∧ rtwGetStainfo s.ap.pool f.ra = some f.psta ∧ (s.ap.ps f.psta).linked ∧
    if f.ra.isMcast then s.ap.staDzBitmap ≠ 0 else (s.ap.ps f.psta).sleep ∧ (s.ap.pool.sta f.psta).aid < 16

instance (s : TxSched) (f : XmitFrame) : Decidable (s.Fits f) := inferInstanceAs (Decidable (_ ∧ _ ∧ _ ∧ _))

/-- The bit of the station is set, if the bitmap has one, or it is the station for group frames. -/
def Dozing (s : TxSched) (i : StaId) : Prop :=
  (s.ap.pool.sta i).hwaddr.isMcast ∨
    ((s.ap.pool.sta i).aid < 16 → s.ap.staDzBitmap.getLsbD (s.ap.pool.sta i).aid = true)

theorem SameSta.fits (h : SameSta s t) (f : XmitFrame) : t.Fits f ↔ s.Fits f := by
  unfold Fits
  rw [h.apState, h.pool, h.linked, h.sleep, Ne, h.dz_eq_zero]

theorem SameSta.dozing (h : SameSta s t) (hd : s.Dozing i) : t.Dozing i := by
  unfold Dozing at hd ⊢
  rw [h.pool]
  exact hd.imp_right fun hbit haid => h.dz_le _ (hbit haid)

section
variable {a : Ap} {p : PsSta}

theorem sameSta_setPs (hl : p.linked = (s.ap.ps i).linked) (hs : p.sleep = (s.ap.ps i).sleep) :
    SameSta s { s with ap := s.ap.setPs i p } := by
  refine ⟨rfl, rfl, fun j => ?_, fun j => ?_, Iff.rfl, fun _ h => h⟩
  · rcases eq_or_ne j i with rfl | hj
    · exact (congrArg PsSta.linked Ap.setPs_ps_self).trans hl
    · exact congrArg PsSta.linked (Ap.setPs_ps_of_ne hj)
  · rcases eq_or_ne j i with rfl | hj
    · exact (congrArg PsSta.sleep Ap.setPs_ps_self).trans hs
    · exact congrArg PsSta.sleep (Ap.setPs_ps_of_ne hj)

theorem setPs_pending (hp : p.pending = (s.ap.ps i).pending) :
    TxSched.pending { s with ap := s.ap.setPs i p } = s.pending := by
  funext j b
  rcases eq_or_ne j i with rfl | hj
  · exact (congrArg (fun q : PsSta => q.pending b) Ap.setPs_ps_self).trans (congrFun hp b)
  · exact congrArg (fun q : PsSta => q.pending b) (Ap.setPs_ps_of_ne hj)

end

/-- A frame that is taken or not: the pending queues, counters and lists stay, and so does what decides. -/
theorem enqueue_same (s : TxSched) (f : XmitFrame) :
    SameSta s (s.xmitframeEnqueueForSleepingSta f).1 ∧
      (s.xmitframeEnqueueForSleepingSta f).1.pending = s.pending ∧
      (s.xmitframeEnqueueForSleepingSta f).1.qcnt = s.qcnt ∧
      (s.xmitframeEnqueueForSleepingSta f).1.hwxmits = s.hwxmits := by
  unfold xmitframeEnqueueForSleepingSta Ap.xmitframeEnqueueForSleepingSta
  dsimp only
  have hsame : SameSta s s ∧ s.pending = s.pending ∧ s.qcnt = s.qcnt ∧ s.hwxmits = s.hwxmits :=
    ⟨.refl s, rfl, rfl, rfl⟩
  split
  · exact hsame
  split
  · exact hsame
  split
  · exact hsame
  split
  · exact hsame
  split
  · split
    · rename_i hdz
      obtain ⟨h1, h2, h3, h4, -, -⟩ := sameSta_setPs (s := s) (i := f.psta) (p := { s.ap.ps f.psta with
        sleepQ := (s.ap.ps f.psta).sleepQ ++ [f], sleepqLen := (s.ap.ps f.psta).sleepqLen + 1 }) rfl rfl
      refine ⟨⟨h1, h2, h3, h4, iff_of_false (fun h0 => hdz ?_) hdz, fun k hk => ?_⟩, setPs_pending rfl, rfl, rfl⟩
      · exact (BitVec.or_eq_zero_iff.1 h0).1
      · show (s.ap.staDzBitmap ||| bit 0).getLsbD k = true
        rw [BitVec.getLsbD_or, hk, Bool.true_or]
    · exact hsame
  split
  · obtain ⟨h1, h2, h3, h4, h5, h6⟩ := sameSta_setPs (s := s) (i := f.psta) (p := { s.ap.ps f.psta with
      sleepQ := (s.ap.ps f.psta).sleepQ ++ [f]
      sleepqLen := (s.ap.ps f.psta).sleepqLen + 1
      sleepqAcLen := if (s.ap.cap f.psta).wmmpsAc f.priority 0 then (s.ap.ps f.psta).sleepqAcLen + 1
        else (s.ap.ps f.psta).sleepqAcLen }) rfl rfl
    exact ⟨⟨h1, h2, h3, h4, h5, h6⟩, setPs_pending rfl, rfl, rfl⟩
  · exact hsame

theorem enqueue_eq_true_iff (hd : s.Dozing f.psta) (ht : f.triggered = false) :
    (s.xmitframeEnqueueForSleepingSta f).2 = true ↔ s.Fits f := by
  unfold xmitframeEnqueueForSleepingSta Ap.xmitframeEnqueueForSleepingSta Fits
  dsimp only
  split
  · rename_i hap
    exact iff_of_false Bool.false_ne_true fun h => by simp [h.1] at hap
  rename_i hap
  split
  · rename_i hfound
    exact iff_of_false Bool.false_ne_true fun h => hfound h.2.1
  rename_i hfound
  rw [ne_eq, not_not] at hfound
  split
  · rename_i hlinked
    exact iff_of_false Bool.false_ne_true fun h => by simp [h.2.2.1] at hlinked
  rename_i hlinked
  rw [if_neg (by simp [ht])]
  have hap : s.apState = true := by simpa using hap
  have hlinked : (s.ap.ps f.psta).linked = true := by simpa using hlinked
  split
  · split
    · rename_i hdz
      exact iff_of_true rfl ⟨hap, hfound, hlinked, hdz⟩
    · rename_i hdz
      exact iff_of_false Bool.false_ne_true fun h => hdz h.2.2.2
  · rename_i hm
    have hbit : s.ap.staDzBitmap.getLsbD (s.ap.pool.sta f.psta).aid = true ↔ (s.ap.pool.sta f.psta).aid < 16 := by
      rcases hd with hgroup | hset
      · rw [rtwGetStainfo_isMcast hfound] at hgroup
        exact absurd hgroup hm
      · exact ⟨fun h => BitVec.lt_of_getLsbD h, hset⟩
    split
    · rename_i hs
      rw [Bool.and_eq_true, hbit] at hs
      exact iff_of_true rfl ⟨hap, hfound, hlinked, hs⟩
    · rename_i hs
      rw [Bool.and_eq_true, hbit] at hs
      exact iff_of_false Bool.false_ne_true fun h => hs h.2.2.2

/-- The counters of a queue go up by `n`, and frames may go to the sleeping queues. -/
structure Moved (i : StaId) (ac : Ac) (n : Int) (s t : TxSched) : Prop extends SameSta s t where
  pending : t.pending = s.pending
  qcnt : t.qcnt = (s.count i ac n).qcnt
  hwxmits : t.hwxmits = (s.count i ac n).hwxmits

theorem Moved.refl (i : StaId) (ac : Ac) (s : TxSched) : Moved i ac 0 s s := by
  refine ⟨.refl s, rfl, ?_, ?_⟩
  · rw [count_zero]
  · rw [count_zero]

theorem moved_count (s : TxSched) (i : StaId) (ac : Ac) (n : Int) : Moved i ac n s (s.count i ac n) :=
  ⟨⟨rfl, rfl, fun _ => rfl, fun _ => rfl, Iff.rfl, fun _ h => h⟩, rfl, rfl, rfl⟩

theorem moved_enqueue (s : TxSched) (f : XmitFrame) (i : StaId) (ac : Ac) :
    Moved i ac 0 s (s.xmitframeEnqueueForSleepingSta f).1 := by
  obtain ⟨hsame, hp, hq, hw⟩ := enqueue_same s f
  refine ⟨hsame, hp, ?_, ?_⟩
  · rw [count_zero, hq]
  · rw [count_zero, hw]

theorem Moved.trans (h : Moved i ac n s t) (h' : Moved i ac m t u) : Moved i ac (n + m) s u := by
  refine ⟨h.toSameSta.trans h'.toSameSta, h'.pending.trans h.pending, ?_, ?_⟩
  · rw [h'.qcnt, ← count_count]
    exact count_qcnt_congr h.qcnt
  · rw [h'.hwxmits, ← count_count]
    exact count_hwxmits_congr h.hwxmits

/-- The frames that do not go to a sleeping queue. -/
def stay (s : TxSched) (l : List XmitFrame) : List XmitFrame :=
  (l.filter fun f => ¬ s.Fits f).map fun f => { f with triggered := false }

theorem SameSta.stay (h : SameSta s t) (l : List XmitFrame) : t.stay l = s.stay l := by
  unfold TxSched.stay
  simp only [h.fits]

theorem stay_eq_nil {l : List XmitFrame} : s.stay l = [] ↔ ∀ f ∈ l, s.Fits f := by
  simp [stay]

/-- Frames that stay do not go the next time either. -/
theorem fits_stay {l : List XmitFrame} : (∀ f ∈ s.stay l, s.Fits f) ↔ s.stay l = [] := by
  refine ⟨fun h => List.eq_nil_iff_forall_not_mem.2 fun g hg => ?_, fun h f hf => ?_⟩
  · obtain ⟨f, hf, rfl⟩ := List.mem_map.1 hg
    have hfits : s.Fits f := h { f with triggered := false } hg
    exact of_decide_eq_true (List.mem_filter.1 hf).2 hfits
  · rw [h] at hf
    cases hf

theorem dequeueLoop_moved {l : List XmitFrame} (hl : ∀ f ∈ l, f.psta = i ∧ acOf f.priority = ac) (hd : s.Dozing i) :
    Moved i ac ((s.stay l).length - l.length) s (s.dequeueLoop i l).1 ∧ (s.dequeueLoop i l).2 = s.stay l := by
  induction l generalizing s with
  | nil => exact ⟨.refl i ac s, rfl⟩
  | cons f fs ih =>
    obtain ⟨⟨rfl, rfl⟩, hfs⟩ := List.forall_mem_cons.1 hl
    have hiff := enqueue_eq_true_iff (f := { f with triggered := false }) hd rfl
    have hmoved := moved_enqueue s { f with triggered := false } f.psta (acOf f.priority)
    rw [dequeueLoop]
    generalize s.xmitframeEnqueueForSleepingSta { f with triggered := false } = r at hiff hmoved ⊢
    obtain ⟨t, taken⟩ := r
    cases taken with
    | true =>
      have hfits : s.Fits f := hiff.1 rfl
      have hcount := hmoved.trans (moved_count t f.psta (acOf f.priority) (-1))
      obtain ⟨hrest, hkept⟩ := ih hfs (hcount.dozing hd)
      have hstay : s.stay (f :: fs) = s.stay fs := by simp [stay, hfits]
      rw [hcount.stay] at hrest hkept
      rw [hstay]
      refine ⟨?_, hkept⟩
      have hn : ((s.stay fs).length : Int) - (f :: fs).length = 0 + -1 + ((s.stay fs).length - fs.length) := by
        rw [List.length_cons]
        omega
      rw [hn]
      exact hcount.trans hrest
    | false =>
      have hfits : ¬ s.Fits f := fun h => Bool.false_ne_true (hiff.2 h)
      obtain ⟨hrest, hkept⟩ := ih hfs (hmoved.dozing hd)
      have hstay : s.stay (f :: fs) = { f with triggered := false } :: s.stay fs := by simp [stay, hfits]
      rw [hmoved.stay] at hrest hkept
      rw [hstay]
      refine ⟨?_, congrArg (_ :: ·) hkept⟩
      have hn : ((({ f with triggered := false } :: s.stay fs).length : Nat) : Int) - (f :: fs).length =
          0 + ((s.stay fs).length - fs.length) := by
        rw [List.length_cons, List.length_cons]
        omega
      rw [hn]
      exact hmoved.trans hrest

/-- What `stop_sta_xmit` does to one queue: what stays in it is in no list any more. -/
structure Stopped (i : StaId) (ac : Ac) (s t : TxSched) : Prop extends SameSta s t where
  counted : t.Counted
  pending_self : t.pending i ac = s.stay (s.pending i ac)
  pending_of_ne : ∀ j b, (j, b) ≠ (i, ac) → t.pending j b = s.pending j b
  staQueue : ∀ j b, j ∈ (t.hwxmits b).staQueue ↔ j ∈ (s.hwxmits b).staQueue ∧ (j, b) ≠ (i, ac)

theorem Counted.stopQueue (h : s.Counted) (hd : s.Dozing i) (ac : Ac) : Stopped i ac s (s.stopQueue i ac) := by
  obtain ⟨hmoved, hkept⟩ := dequeueLoop_moved (h.frames i ac) hd
  unfold TxSched.stopQueue dequeueXmitframesToSleepingQueue
  generalize s.dequeueLoop i (s.pending i ac) = r at hmoved hkept ⊢
  obtain ⟨t, kept⟩ := r
  dsimp only at hmoved hkept ⊢
  rw [hkept]
  have hcounted : (t.setPending i ac (s.stay (s.pending i ac))).Counted := by
    have hc : ((s.setPending i ac (s.stay (s.pending i ac))).count i ac
        ((s.stay (s.pending i ac)).length - (s.pending i ac).length)).Counted := h.recount (by omega) fun f hf => ?_
    · refine hc.congr ?_ hmoved.qcnt hmoved.hwxmits
      funext j b
      rw [count_pending]
      by_cases hjb : (j, b) = (i, ac)
      · obtain ⟨rfl, rfl⟩ := Prod.mk.inj hjb
        rw [setPending_pending_self, setPending_pending_self]
      · rw [setPending_pending_of_ne hjb, setPending_pending_of_ne hjb, hmoved.pending]
    · obtain ⟨g, hg, rfl⟩ := List.mem_map.1 hf
      exact h.frames i ac g (List.mem_filter.1 hg).1
  have hset : SameSta t (t.setPending i ac (s.stay (s.pending i ac))) := sameSta_setPs rfl rfl
  obtain ⟨h1, h2, h3, h4, h5, h6⟩ := hmoved.toSameSta.trans hset
  refine ⟨⟨h1, h2, h3, h4, h5, h6⟩, hcounted.unlink i ac, setPending_pending_self, fun j b hjb => ?_, fun j b => ?_⟩
  · exact (setPending_pending_of_ne hjb).trans (by rw [hmoved.pending])
  · rw [unlink_mem hcounted, setPending_hwxmits, hmoved.hwxmits, count_staQueue]

/-- Several queues, one after the other. -/
def stopQueues (s : TxSched) (qs : List (StaId × Ac)) : TxSched := qs.foldl (fun s q => s.stopQueue q.1 q.2) s

theorem Counted.stopQueues {qs : List (StaId × Ac)} (h : s.Counted) (hd : ∀ q ∈ qs, s.Dozing q.1) :
    (s.stopQueues qs).Counted ∧ ∀ j b,
      ((j, b) ∈ qs → j ∉ ((s.stopQueues qs).hwxmits b).staQueue ∧
        ((s.stopQueues qs).pending j b = [] ↔ ∀ f ∈ s.pending j b, s.Fits f)) ∧
      ((j, b) ∉ qs → (j ∈ ((s.stopQueues qs).hwxmits b).staQueue ↔ j ∈ (s.hwxmits b).staQueue) ∧
        (s.stopQueues qs).pending j b = s.pending j b) := by
  induction qs generalizing s with
  | nil => exact ⟨h, fun j b => ⟨fun hmem => absurd hmem List.not_mem_nil, fun _ => ⟨Iff.rfl, rfl⟩⟩⟩
  | cons q qs ih =>
    obtain ⟨i, ac⟩ := q
    obtain ⟨hi, hqs⟩ := List.forall_mem_cons.1 hd
    have hstop := h.stopQueue hi ac
    obtain ⟨hcounted, hrest⟩ := ih hstop.counted fun q hq => hstop.dozing (hqs q hq)
    refine ⟨hcounted, fun j b => ?_⟩
    obtain ⟨hin, hout⟩ := hrest j b
    show ((j, b) ∈ (i, ac) :: qs → j ∉ (((s.stopQueue i ac).stopQueues qs).hwxmits b).staQueue ∧ _) ∧ _
    have hfits : (∀ f ∈ (s.stopQueue i ac).pending j b, (s.stopQueue i ac).Fits f) ↔ ∀ f ∈ s.pending j b, s.Fits f := by
      simp only [hstop.fits]
      by_cases hjb : (j, b) = (i, ac)
      · obtain ⟨rfl, rfl⟩ := Prod.mk.inj hjb
        rw [hstop.pending_self, fits_stay, stay_eq_nil]
      · rw [hstop.pending_of_ne j b hjb]
    constructor
    · intro hmem
      by_cases hqs : (j, b) ∈ qs
      · exact ⟨(hin hqs).1, (hin hqs).2.trans hfits⟩
      · obtain ⟨rfl, rfl⟩ : j = i ∧ b = ac := by
          simpa [hqs] using hmem
        obtain ⟨hlist, hpend⟩ := hout hqs
        refine ⟨fun hj => ((hstop.staQueue j b).1 (hlist.1 hj)).2 rfl, ?_⟩
        show ((s.stopQueue j b).stopQueues qs).pending j b = [] ↔ _
        rw [hpend, hstop.pending_self, stay_eq_nil]
    · intro hmem
      obtain ⟨hne, hqs⟩ := not_or.1 (fun h => hmem (List.mem_cons.2 h))
      obtain ⟨hlist, hpend⟩ := hout hqs
      exact ⟨hlist.trans ((hstop.staQueue j b).trans (and_iff_left hne)), hpend.trans (hstop.pending_of_ne j b hne)⟩

/-- The queues that `stop_sta_xmit` goes through. -/
def stoppedQueues (s : TxSched) (i : StaId) : List (StaId × Ac) :=
  [(i, .vo), (i, .vi), (i, .be), (i, .bk)] ++ ((rtwGetBcmcStainfo s.ap.pool).map fun bmc => (bmc, .be)).toList

theorem stopStaXmit_eq (s : TxSched) (i : StaId) : s.stopStaXmit i = (s.doze i).stopQueues (s.stoppedQueues i) := by
  unfold stopStaXmit stoppedQueues
  cases rtwGetBcmcStainfo s.ap.pool <;> rfl

theorem mem_stoppedQueues {b : Ac} :
    (j, b) ∈ s.stoppedQueues i ↔ j = i ∨ b = .be ∧ rtwGetBcmcStainfo s.ap.pool = some j := by
  unfold stoppedQueues
  cases hb : rtwGetBcmcStainfo s.ap.pool with
  | none => cases b <;> simp
  | some bmc => cases b <;> simp [eq_comm]

theorem doze_pending : (s.doze i).pending = s.pending := setPs_pending rfl

theorem bit_eq_zero {aid : Nat} : bit aid = 0 ↔ 16 ≤ aid := by
  constructor
  · intro h
    by_contra hlt
    have hget : (bit aid).getLsbD aid = true := by
      simp [bit, Nat.lt_of_not_le hlt]
    rw [h] at hget
    simp at hget
  · intro h
    exact BitVec.shiftLeft_eq_zero h

theorem dozing_doze (s : TxSched) (i : StaId) : (s.doze i).Dozing i := by
  refine .inr fun haid => ?_
  have haid : (s.ap.pool.sta i).aid < 16 := haid
  show (s.ap.staDzBitmap ||| bit (s.ap.pool.sta i).aid).getLsbD (s.ap.pool.sta i).aid = true
  simp [bit, haid]

theorem dozing_bmc (s : TxSched) (i : StaId) (hb : rtwGetBcmcStainfo s.ap.pool = some bmc) :
    (s.doze i).Dozing bmc := by
  refine .inl ?_
  show (s.ap.pool.sta bmc).hwaddr.isMcast = true
  rw [rtwGetStainfo_isMcast hb]
  decide

/-- In a queue that `stop_sta_xmit` goes through, a frame fits if and only if the condition on it holds
before. -/
theorem fits_doze (hq : f.psta = i ∨ rtwGetBcmcStainfo s.ap.pool = some f.psta) :
    (s.doze i).Fits f ↔ s.Sleeps i f := by
  have hdz : (s.ap.staDzBitmap ||| bit (s.ap.pool.sta i).aid) ≠ 0 ↔
      s.ap.staDzBitmap ≠ 0 ∨ (s.ap.pool.sta i).aid < 16 := by
    have hor : s.ap.staDzBitmap ||| bit (s.ap.pool.sta i).aid = 0 ↔
        s.ap.staDzBitmap = 0 ∧ bit (s.ap.pool.sta i).aid = 0 := BitVec.or_eq_zero_iff
    rw [ne_eq, hor, bit_eq_zero, not_and_or, not_le]
  have hlinked : ((s.doze i).ap.ps f.psta).linked = (s.ap.ps f.psta).linked := by
    show ((s.ap.setPs i { s.ap.ps i with sleep := true }).ps f.psta).linked = _
    rcases eq_or_ne f.psta i with hi | hi
    · rw [hi, Ap.setPs_ps_self]
    · rw [Ap.setPs_ps_of_ne hi]
  unfold Fits Sleeps
  rw [hlinked]
  refine and_congr_right fun _ => and_congr_right fun hfound => and_congr_right fun _ => ?_
  have hfound : rtwGetStainfo s.ap.pool f.ra = some f.psta := hfound
  split
  · rename_i hm
    simp only [hm, true_and]
    exact hdz
  · rename_i hm
    have hi : f.psta = i := by
      rcases hq with hi | hbmc
      · exact hi
      · have hmc := (rtwGetStainfo_isMcast hfound).symm.trans (rtwGetStainfo_isMcast hbmc)
        exact absurd (hmc.trans (by decide)) hm
    have hsleep : ((s.doze i).ap.ps f.psta).sleep = true := by
      rw [hi]
      exact congrArg PsSta.sleep Ap.setPs_ps_self
    rw [hsleep, hi]
    simp only [hm, Bool.false_eq_true, false_and, false_or, true_and]
    exact Iff.rfl

theorem Counted.doze (h : s.Counted) (i : StaId) : (s.doze i).Counted := h.congr doze_pending rfl rfl

theorem dozing_stoppedQueues (s : TxSched) (i : StaId) : ∀ q ∈ s.stoppedQueues i, (s.doze i).Dozing q.1 := by
  rintro ⟨j, b⟩ hq
  rcases mem_stoppedQueues.1 hq with rfl | ⟨-, hb⟩
  · exact dozing_doze s j
  · exact dozing_bmc s i hb

theorem stepOk_stop_iff : s.StepOk (.stop i) ↔ ∀ j b, (j, b) ∈ s.stoppedQueues i → ∀ f ∈ s.pending j b, s.Sleeps i f := by
  simp only [mem_stoppedQueues]
  constructor
  · rintro ⟨hown, hgroup⟩ j b (rfl | ⟨rfl, hb⟩)
    · exact hown b
    · exact hgroup j hb
  · intro h
    exact ⟨fun ac => h i ac (.inl rfl), fun bmc hb => h bmc .be (.inr ⟨rfl, hb⟩)⟩

/-- After `stop_sta_xmit` the lists are right if and only if it left no frame behind. -/
theorem linked_stop_iff (hc : s.Counted) (hl : s.Linked) (i : StaId) :
    (s.stopStaXmit i).Linked ↔ s.StepOk (.stop i) := by
  obtain ⟨-, hqueue⟩ := (hc.doze i).stopQueues (dozing_stoppedQueues s i)
  rw [← stopStaXmit_eq, doze_pending] at hqueue
  rw [stepOk_stop_iff]
  refine forall_congr' fun j => forall_congr' fun b => ?_
  by_cases hq : (j, b) ∈ s.stoppedQueues i
  · obtain ⟨hlist, hpend⟩ := (hqueue j b).1 hq
    have hfits : (∀ f ∈ s.pending j b, (s.doze i).Fits f) ↔ ∀ f ∈ s.pending j b, s.Sleeps i f := by
      refine forall₂_congr fun f hf => fits_doze ?_
      rw [(hc.frames j b f hf).1]
      exact (mem_stoppedQueues.1 hq).imp_right fun hb => hb.2
    rw [← hfits, ← hpend]
    simp only [hlist, false_iff, not_not, hq, true_imp_iff]
  · obtain ⟨hlist, hpend⟩ := (hqueue j b).2 hq
    rw [hlist, hpend]
    exact iff_of_true (hl j b) fun h => absurd h hq

/-! ### Runs -/

theorem other_pending (ap : Ap) (apState : Bool) : (s.other ap apState).pending = s.pending := rfl

theorem Counted.next (h : s.Counted) (e : TxSchedEvent) : (s.next e).Counted := by
  cases e with
  | classify f =>
    show ((s.rtwXmitClassifier f).getD s).Counted
    cases hf : s.rtwXmitClassifier f with
    | none => exact h
    | some t => exact h.classify hf
  | dequeue wifiSpec wmmParaSeq =>
    show (((s.rtwDequeueXframe wifiSpec wmmParaSeq).map (·.2)).getD s).Counted
    cases hd : s.rtwDequeueXframe wifiSpec wmmParaSeq with
    | none => exact h
    | some r => exact h.dequeue hd
  | stop i =>
    show (s.stopStaXmit i).Counted
    rw [stopStaXmit_eq]
    exact ((h.doze i).stopQueues (dozing_stoppedQueues s i)).1
  | free i => exact h.free i
  | other ap apState => exact h.congr (other_pending ap apState) rfl rfl

theorem linked_next_iff (hc : s.Counted) (hl : s.Linked) (e : TxSchedEvent) : (s.next e).Linked ↔ s.StepOk e := by
  cases e with
  | classify f =>
    refine iff_of_true ?_ trivial
    show ((s.rtwXmitClassifier f).getD s).Linked
    cases hf : s.rtwXmitClassifier f with
    | none => exact hl
    | some t => exact hl.classify hf
  | dequeue wifiSpec wmmParaSeq =>
    refine iff_of_true ?_ trivial
    show (((s.rtwDequeueXframe wifiSpec wmmParaSeq).map (·.2)).getD s).Linked
    cases hd : s.rtwDequeueXframe wifiSpec wmmParaSeq with
    | none => exact hl
    | some r => exact hl.dequeue hc hd
  | stop i => exact linked_stop_iff hc hl i
  | free i => exact iff_of_true (hl.free hc i) trivial
  | other ap apState => exact iff_of_true hl trivial

theorem counted_start (ap : Ap) (apState : Bool) : (start ap apState).Counted := by
  refine ⟨fun _ _ => rfl, fun ac => ?_, fun i ac f hf => ?_, fun ac => List.nodup_nil⟩
  · exact Finset.sum_const_zero.symm
  · cases hf

theorem linked_start (ap : Ap) (apState : Bool) : (start ap apState).Linked :=
  fun _ _ => iff_of_false List.not_mem_nil fun h => h rfl

/-- Queues, counters and lists are in step all along a run if and only if `stop_sta_xmit` never leaves a frame
behind. -/
theorem schedOk_run (ap : Ap) (apState : Bool) (evs : List TxSchedEvent) :
    (∀ pre, pre <+: evs → (Machine.run next (start ap apState) pre).SchedOk) ↔
      Machine.RunOk next StepOk (start ap apState) evs :=
  Machine.forall_prefix_iff_runOk (I := Counted) (fun _ e h => h.next e)
    (fun s e hc hs => by
      rw [schedOk_iff_linked (hc.next e)]
      exact linked_next_iff hc hs.linked e)
    (counted_start ap apState)
    ((schedOk_iff_linked (counted_start ap apState)).2 (linked_start ap apState)) evs

/-- A frame for the station with the AID 16 is pending when it falls asleep: its queue is in no list any
more. -/
theorem not_schedOk_aid16 : ¬ (Machine.run next (start (Machine.run Ap.psNext (Ap.start 32) ((List.range 16).flatMap
    fun n => Ap.joinWmm (UInt8.ofNat (n + 1)) 0)) true)
      [.classify { ra := StaPriv.staAddr 16, psta := 16, priority := 0 }, .stop 16]).SchedOk := by
  intro h
  have hlinked := h.linked 16 .be
  revert hlinked
  decide +kernel

end TxSched

end Rtw
