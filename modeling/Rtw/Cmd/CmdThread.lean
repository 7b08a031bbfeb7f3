import Mathlib.Data.List.Pairwise
import Mathlib.Logic.Function.Basic
import Rtw.Lib.Run

/-!
# The command queue and its thread

`rtw_enqueue_cmd` and `rtw_cmd_thread`: a command object goes from the submitter to the queue, the handler
and the callback, and one of them releases it, its payload and its waiter. The commands have numbers in
the order in which they are submitted. `CmdRun.released_iff`: when the thread is gone everything has been
released once, exactly if no step was one of those that lose something (`StepOk`).
-/

namespace Rtw

/-- The parameters of `_Set_Drv_Extra`. -/
structure DrvextraCmdParm where
  ecId : Nat := 0
  /-- `pbuf` is not null. -/
  pbuf : Bool := false
  size : Int := 0

/-- `struct cmd_obj`; `parm` is read for `_Set_Drv_Extra` only. -/
structure CmdObj where
  cmdcode : Nat := 0
  res : Nat := 0
  cmdsz : Nat := 0
  /-- `sctx` is not null. -/
  sctx : Bool := false
  parm : DrvextraCmdParm := {}

def maxCmdsz : Nat := 1024

def h2cSuccess : Nat := 0
def h2cDropped : Nat := 3
def h2cParametersError : Nat := 4

def disConnectCmd : Nat := 15
def setDrvExtraCmd : Nat := 57
def setChannelPlanCmd : Nat := 59

def c2hWkCid : Nat := 11

/-- The length of `wlancmds` and of `rtw_cmd_callback`. -/
def maxH2ccmd : Nat := 65

/-- `wlancmds[cmdcode].h2cfuns` is not null. The entries 1 to 5 are `NULL_hdl`. -/
def hasCmdHdl (cmdcode : Nat) : Bool :=
  cmdcode ≤ 5 || 14 ≤ cmdcode && cmdcode ≤ 21 || 45 ≤ cmdcode && cmdcode ≤ 46 || 55 ≤ cmdcode && cmdcode ≤ 64

/-- The test that stands before every `rtw_mfree` of a payload. -/
def CmdObj.hasPayload (o : CmdObj) : Bool := o.cmdcode = setDrvExtraCmd && o.parm.pbuf && o.parm.size > 0

/-- The callback of the command, or the thread where it has none, frees the object. All do but
`rtw_disassoc_cmd_callback`, which does so on success. -/
def CmdObj.freedByCallback (o : CmdObj) (res : Nat) : Bool :=
  if o.cmdcode = disConnectCmd then res = h2cSuccess else true

/-- Where `rtw_cmd_thread` stands. -/
inductive ThreadPc where
  | start
  /-- before `_rtw_down_sema` -/
  | wait
  /-- `_next` -/
  | next
  /-- `post_process` -/
  | postProcess (res : Nat)
  /-- behind the loop -/
  | leave
  /-- in the loop that frees all that is left -/
  | drain
  | exited
  deriving DecidableEq

/-- The queue with the command that the thread has in hand, and what was done to each command. -/
structure CmdLog where
  cmds : Nat
  obj : Nat → CmdObj
  cmdQueue : List Nat
  pcmd : Option Nat
  /-- The commands for which `rtw_enqueue_cmd` returned `_SUCCESS`. -/
  accepted : Nat → Bool
  /-- The commands whose handler ran, in order. -/
  handled : List Nat
  freed : Nat → Nat
  payloadFreed : Nat → Nat
  sctxDone : Nat → Nat

structure CmdRun extends CmdLog where
  cmdQueueSema : Nat
  cmdthdRunning : Bool
  stopReq : Bool
  hwInitCompleted : Bool
  /-- `RTW_CANNOT_RUN` -/
  cannotRun : Bool
  pc : ThreadPc

inductive CmdEvent where
  | enqueue (o : CmdObj)
  | hwInit (completed : Bool)
  | drvStop (cannotRun : Bool)
  /-- `rtw_stop_cmd_thread` -/
  | stopThread
  /-- The thread takes a step: `sema` when `_rtw_down_sema` is not interrupted, `ret` from a handler. -/
  | thread (sema : Bool) (ret : Nat)

namespace CmdLog

/-- A number for the next command. -/
def submit (s : CmdLog) (o : CmdObj) (accepted : Bool) : CmdLog :=
  { s with
    cmds := s.cmds + 1
    obj := Function.update s.obj s.cmds o
    accepted := Function.update s.accepted s.cmds accepted }

/-- `rtw_list_insert_tail` -/
def insert (s : CmdLog) (k : Nat) : CmdLog := { s with cmdQueue := s.cmdQueue ++ [k] }

def rtwFreeCmdObj (s : CmdLog) (k : Nat) : CmdLog := { s with freed := Function.update s.freed k (s.freed k + 1) }

/-- `rtw_mfree(extra_parm->pbuf, extra_parm->size)`, if there is something to be freed. -/
def freePayload (s : CmdLog) (k : Nat) : CmdLog :=
  if (s.obj k).hasPayload then { s with payloadFreed := Function.update s.payloadFreed k (s.payloadFreed k + 1) } else s

/-- `rtw_sctx_done` and `rtw_sctx_done_err` -/
def rtwSctxDone (s : CmdLog) (k : Nat) : CmdLog :=
  if (s.obj k).sctx then { s with sctxDone := Function.update s.sctxDone k (s.sctxDone k + 1) } else s

/-- `rtw_drvextra_cmd_hdl` frees the payload; no other handler has one. -/
def runHandler (s : CmdLog) (k : Nat) : CmdLog := { s with handled := s.handled ++ [k] }.freePayload k

/-- What `rtw_cmd_thread` does from `post_process` on. -/
def postProcess (s : CmdLog) (k res : Nat) : CmdLog :=
  let s := s.rtwSctxDone k
  let s := if (s.obj k).freedByCallback res then s.rtwFreeCmdObj k else s
  { s with pcmd := none }

end CmdLog

namespace CmdRun

def start : CmdRun where
  cmds := 0
  obj _ := {}
  cmdQueue := []
  pcmd := none
  accepted _ := false
  handled := []
  freed _ := 0
  payloadFreed _ := 0
  sctxDone _ := 0
  cmdQueueSema := 0
  cmdthdRunning := false
  stopReq := false
  hwInitCompleted := false
  cannotRun := false
  pc := .start

def rtwCmdFilter (s : CmdRun) (o : CmdObj) : Bool :=
  let bAllow := o.cmdcode = setDrvExtraCmd && o.parm.ecId = c2hWkCid || o.cmdcode = setChannelPlanCmd
  !(!s.hwInitCompleted && !bAllow || !s.cmdthdRunning)

def rtwEnqueueCmd (s : CmdRun) (o : CmdObj) : CmdRun :=
  if !s.rtwCmdFilter o then { s with toCmdLog := (s.submit o false).rtwFreeCmdObj s.cmds }
  -- `_rtw_enqueue_cmd` returns `_SUCCESS` all the same
  else if o.cmdsz > maxCmdsz then { s with toCmdLog := s.submit o true, cmdQueueSema := s.cmdQueueSema + 1 }
  else { s with toCmdLog := (s.submit o true).insert s.cmds, cmdQueueSema := s.cmdQueueSema + 1 }

/-- What `rtw_cmd_thread` does from `_next` up to `post_process`. -/
def nextCmd (s : CmdRun) (ret : Nat) : CmdRun :=
  if s.cannotRun then { s with pc := .leave }
  else
    match s.cmdQueue with
    | [] => { s with pc := .wait }
    | k :: cmdQueue =>
      let o := s.obj k
      let log := { s.toCmdLog with cmdQueue, pcmd := some k }
      if !s.rtwCmdFilter o then { s with toCmdLog := log.freePayload k, pc := .postProcess h2cDropped }
      else if o.cmdcode < maxH2ccmd then
        if hasCmdHdl o.cmdcode then { s with toCmdLog := log.runHandler k, pc := .postProcess ret }
        else { s with toCmdLog := log, pc := .postProcess o.res }
      else { s with toCmdLog := log, pc := .postProcess h2cParametersError }

/-- One step of `rtw_cmd_thread`. -/
def thread (s : CmdRun) (sema : Bool) (ret : Nat) : CmdRun :=
  match s.pc with
  | .start => { s with stopReq := false, cmdthdRunning := true, pc := .wait }
  | .wait =>
    if !sema then { s with pc := .leave }
    else if s.cmdQueueSema = 0 then s
    else
      let s := { s with cmdQueueSema := s.cmdQueueSema - 1 }
      if s.cannotRun then { s with pc := .leave }
      else if s.stopReq then { s with pc := .leave }
      else if s.cmdQueue = [] then s
      else { s with pc := .next }
  | .next => s.nextCmd ret
  | .postProcess res =>
    match s.pcmd with
    | some k => { s with toCmdLog := s.postProcess k res, pc := .next }
    | none => s
  | .leave => { s with cmdthdRunning := false, pc := .drain }
  | .drain =>
    match s.cmdQueue with
    | [] => { s with pc := .exited }
    | k :: cmdQueue => { s with toCmdLog := ({ s.toCmdLog with cmdQueue }.freePayload k).rtwFreeCmdObj k }
  | .exited => s

def next (s : CmdRun) : CmdEvent → CmdRun
  | .enqueue o => s.rtwEnqueueCmd o
  | .hwInit completed => { s with hwInitCompleted := completed }
  | .drvStop cannotRun => { s with cannotRun }
  | .stopThread => { s with stopReq := true, cmdQueueSema := s.cmdQueueSema + 1 }
  | .thread sema ret => s.thread sema ret

/-- Everything has been released once. -/
structure Released (s : CmdRun) : Prop where
  freed : ∀ k < s.cmds, s.freed k = 1
  /-- In the order of submission, and each at most once. -/
  handled : s.handled.Pairwise (· < ·)
  payload : ∀ k < s.cmds, (s.obj k).hasPayload → k ∉ s.handled → s.payloadFreed k = 1
  sctx : ∀ k < s.cmds, s.accepted k → (s.obj k).sctx → s.sctxDone k = 1

/-- A command that the filter stops has no payload, and one that it lets through is not too large; a
disconnection succeeds; and no command with a waiter is left when the thread goes. -/
def StepOk (s : CmdRun) : CmdEvent → Prop
  | .enqueue o => if s.rtwCmdFilter o then o.cmdsz ≤ maxCmdsz else o.hasPayload = false
  | .thread _ _ =>
    match s.pc with
    | .postProcess res => ∀ k ∈ s.pcmd, (s.obj k).cmdcode = disConnectCmd → res = h2cSuccess
    | .drain => ∀ k ∈ s.cmdQueue.head?, (s.obj k).sctx = false
    | _ => True
  | _ => True

instance (s : CmdRun) (e : CmdEvent) : Decidable (s.StepOk e) := by
  unfold StepOk
  split
  · infer_instance
  · split <;> infer_instance
  · infer_instance

end CmdRun

/-! ### What the steps do to the commands -/

namespace CmdLog
variable {s : CmdLog} {o : CmdObj} {k j : Nat} {q : List Nat}

/-- Nothing has happened yet to the commands that wait. -/
structure Inv (s : CmdLog) : Prop where
  lt : ∀ k ∈ s.cmdQueue, k < s.cmds
  sorted : s.cmdQueue.Pairwise (· < ·)
  pcmdLt : ∀ k ∈ s.pcmd, k < s.cmds ∧ k ∉ s.cmdQueue
  handledLt : ∀ k ∈ s.handled, k < s.cmds ∧ ∀ j ∈ s.cmdQueue, k < j
  handled : s.handled.Pairwise (· < ·)
  fresh : ∀ k, s.cmds ≤ k → s.freed k = 0 ∧ s.payloadFreed k = 0 ∧ s.sctxDone k = 0
  queued : ∀ k ∈ s.cmdQueue, s.accepted k = true ∧ s.freed k = 0 ∧ s.payloadFreed k = 0 ∧ s.sctxDone k = 0
  pcmd : ∀ k ∈ s.pcmd, s.freed k = 0 ∧ s.sctxDone k = 0

/-- A command that has left the queue, and the hand of the thread, has been released once. -/
def GoodAt (s : CmdLog) (k : Nat) : Prop :=
  (s.pcmd ≠ some k → s.freed k = 1 ∧ (s.accepted k → (s.obj k).sctx → s.sctxDone k = 1)) ∧
    ((s.obj k).hasPayload → k ∉ s.handled → s.payloadFreed k = 1)

def Good (s : CmdLog) : Prop := ∀ k < s.cmds, k ∉ s.cmdQueue → s.GoodAt k

/-- `t` is as `s` but for the command `k`. -/
structure Elsewhere (s t : CmdLog) (k : Nat) : Prop where
  obj : ∀ j, j ≠ k → t.obj j = s.obj j
  cmdQueue : ∀ j, j ≠ k → (j ∈ t.cmdQueue ↔ j ∈ s.cmdQueue)
  pcmd : ∀ j, j ≠ k → (t.pcmd = some j ↔ s.pcmd = some j)
  accepted : ∀ j, j ≠ k → t.accepted j = s.accepted j
  handled : ∀ j, j ≠ k → (j ∈ t.handled ↔ j ∈ s.handled)
  freed : ∀ j, j ≠ k → t.freed j = s.freed j
  payloadFreed : ∀ j, j ≠ k → t.payloadFreed j = s.payloadFreed j
  sctxDone : ∀ j, j ≠ k → t.sctxDone j = s.sctxDone j

theorem Elsewhere.goodAt {t : CmdLog} (h : Elsewhere s t k) (hj : j ≠ k) : t.GoodAt j ↔ s.GoodAt j := by
  unfold GoodAt
  rw [h.obj j hj, h.accepted j hj, h.freed j hj, h.payloadFreed j hj, h.sctxDone j hj, Ne, h.pcmd j hj, h.handled j hj]

theorem Elsewhere.good {t : CmdLog} (h : Elsewhere s t k) (hcmds : t.cmds = s.cmds ∨ t.cmds = s.cmds + 1 ∧ k = s.cmds) :
    t.Good ↔ (∀ j < s.cmds, j ∉ s.cmdQueue → j ≠ k → s.GoodAt j) ∧ (k < t.cmds → k ∉ t.cmdQueue → t.GoodAt k) := by
  constructor
  · refine fun hg => ⟨fun j hj hq hne => (h.goodAt hne).1 (hg j (by omega) fun hm => hq ((h.cmdQueue j hne).1 hm)), ?_⟩
    exact hg k
  · rintro ⟨hs, hk⟩ j hj hq
    by_cases hne : j = k
    · subst hne
      exact hk hj hq
    · exact (h.goodAt hne).2 (hs j (by omega) (fun hm => hq ((h.cmdQueue j hne).2 hm)) hne)

theorem good_iff (k : Nat) :
    s.Good ↔ (∀ j < s.cmds, j ∉ s.cmdQueue → j ≠ k → s.GoodAt j) ∧ (k < s.cmds → k ∉ s.cmdQueue → s.GoodAt k) :=
  Elsewhere.good ⟨fun _ _ => rfl, fun _ _ => Iff.rfl, fun _ _ => Iff.rfl, fun _ _ => rfl, fun _ _ => Iff.rfl,
    fun _ _ => rfl, fun _ _ => rfl, fun _ _ => rfl⟩ (.inl rfl)

/-! #### A command is submitted -/

theorem Inv.not_mem_cmds (h : s.Inv) : s.cmds ∉ s.cmdQueue := fun hm => absurd (h.lt _ hm) (Nat.lt_irrefl _)

theorem Inv.pcmd_ne (h : s.Inv) : s.pcmd ≠ some s.cmds := fun hp => absurd (h.pcmdLt _ hp).1 (Nat.lt_irrefl _)

theorem Inv.not_handled (h : s.Inv) : s.cmds ∉ s.handled := fun hm => absurd (h.handledLt _ hm).1 (Nat.lt_irrefl _)

theorem elsewhere_submit (s : CmdLog) (o : CmdObj) (b : Bool) : Elsewhere s (s.submit o b) s.cmds where
  obj _ hj := Function.update_of_ne hj ..
  cmdQueue _ _ := Iff.rfl
  pcmd _ _ := Iff.rfl
  accepted _ hj := Function.update_of_ne hj ..
  handled _ _ := Iff.rfl
  freed _ _ := rfl
  payloadFreed _ _ := rfl
  sctxDone _ _ := rfl

theorem Inv.submit (h : s.Inv) (o : CmdObj) (b : Bool) : (s.submit o b).Inv where
  lt k hk := Nat.lt_succ_of_lt (h.lt k hk)
  sorted := h.sorted
  pcmdLt k hk := ⟨Nat.lt_succ_of_lt (h.pcmdLt k hk).1, (h.pcmdLt k hk).2⟩
  handledLt k hk := ⟨Nat.lt_succ_of_lt (h.handledLt k hk).1, (h.handledLt k hk).2⟩
  handled := h.handled
  fresh k hk := h.fresh k (Nat.le_of_succ_le hk)
  queued k hk := by
    have hne : k ≠ s.cmds := ne_of_mem_of_not_mem hk h.not_mem_cmds
    rw [show (s.submit o b).accepted k = s.accepted k from Function.update_of_ne hne ..]
    exact h.queued k hk
  pcmd := h.pcmd

theorem Inv.enqueue (h : s.Inv) (o : CmdObj) :
    ((s.submit o true).insert s.cmds).Inv ∧ (((s.submit o true).insert s.cmds).Good ↔ s.Good) := by
  have hs := h.submit o true
  have he := elsewhere_submit s o true
  refine ⟨⟨?_, ?_, ?_, ?_, hs.handled, hs.fresh, ?_, hs.pcmd⟩, ?_⟩
  · intro k hk
    rcases List.mem_append.1 hk with hk | hk
    · exact hs.lt k hk
    · rw [List.mem_singleton.1 hk]
      exact Nat.lt_succ_self _
  · refine List.pairwise_append.2 ⟨h.sorted, List.pairwise_singleton .., fun j hj k hk => ?_⟩
    rw [List.mem_singleton.1 hk]
    exact h.lt j hj
  · intro k hk
    refine ⟨(hs.pcmdLt k hk).1, fun hm => ?_⟩
    rcases List.mem_append.1 hm with hm | hm
    · exact (h.pcmdLt k hk).2 hm
    · exact absurd (h.pcmdLt k hk).1 (by rw [List.mem_singleton.1 hm]; exact Nat.lt_irrefl _)
  · intro k hk
    refine ⟨(hs.handledLt k hk).1, fun j hj => ?_⟩
    rcases List.mem_append.1 hj with hj | hj
    · exact (h.handledLt k hk).2 j hj
    · rw [List.mem_singleton.1 hj]
      exact (h.handledLt k hk).1
  · intro k hk
    rcases List.mem_append.1 hk with hk | hk
    · exact hs.queued k hk
    · rw [List.mem_singleton.1 hk]
      exact ⟨Function.update_self .., h.fresh _ (Nat.le_refl _)⟩
  · have hel : Elsewhere s ((s.submit o true).insert s.cmds) s.cmds :=
      { he with cmdQueue := fun j hj => by simp [CmdLog.insert, CmdLog.submit, hj] }
    rw [hel.good (.inr ⟨rfl, rfl⟩), good_iff s.cmds]
    refine and_congr_right fun _ => iff_of_true (fun _ hq => absurd ?_ hq) fun hlt => absurd hlt (Nat.lt_irrefl _)
    exact List.mem_append_right _ (List.mem_singleton_self _)

theorem Inv.drop (h : s.Inv) (o : CmdObj) :
    ((s.submit o false).rtwFreeCmdObj s.cmds).Inv ∧
      (((s.submit o false).rtwFreeCmdObj s.cmds).Good ↔ s.Good ∧ o.hasPayload = false) := by
  have hs := h.submit o false
  have hfreed : ∀ j, j ≠ s.cmds → ((s.submit o false).rtwFreeCmdObj s.cmds).freed j = s.freed j :=
    fun j hj => Function.update_of_ne hj ..
  have hel : Elsewhere s ((s.submit o false).rtwFreeCmdObj s.cmds) s.cmds :=
    { elsewhere_submit s o false with freed := hfreed }
  refine ⟨⟨hs.lt, hs.sorted, hs.pcmdLt, hs.handledLt, hs.handled, fun k hk => ?_, fun k hk => ?_, fun k hk => ?_⟩, ?_⟩
  · rw [hfreed k (Nat.ne_of_gt hk)]
    exact hs.fresh k hk
  · rw [hfreed k (ne_of_mem_of_not_mem hk h.not_mem_cmds)]
    exact hs.queued k hk
  · rw [hfreed k (Nat.ne_of_lt (h.pcmdLt k hk).1)]
    exact h.pcmd k hk
  · rw [hel.good (.inr ⟨rfl, rfl⟩), good_iff s.cmds, and_assoc]
    refine and_congr_right fun _ => ?_
    have hobj : (s.submit o false).obj s.cmds = o := Function.update_self ..
    have hat : ((s.submit o false).rtwFreeCmdObj s.cmds).GoodAt s.cmds ↔ o.hasPayload = false := by
      have hone : ((s.submit o false).rtwFreeCmdObj s.cmds).freed s.cmds = 1 := by
        simp [rtwFreeCmdObj, CmdLog.submit, (h.fresh _ (Nat.le_refl _)).1]
      have hacc : (s.submit o false).accepted s.cmds = false := Function.update_self ..
      have hzero : ((s.submit o false).rtwFreeCmdObj s.cmds).payloadFreed s.cmds = 0 := (h.fresh _ (Nat.le_refl _)).2.1
      unfold GoodAt
      rw [hone, hzero]
      simp [rtwFreeCmdObj, hobj, hacc, show (s.submit o false).handled = s.handled from rfl, h.not_handled]
    rw [hat]
    constructor
    · exact fun hp => ⟨fun hlt => absurd hlt (Nat.lt_irrefl _), hp (Nat.lt_succ_self _) h.not_mem_cmds⟩
    · exact fun hp _ _ => hp.2

theorem Inv.lose (h : s.Inv) (o : CmdObj) : ¬ (s.submit o true).Good := by
  intro hg
  have hat := hg s.cmds (Nat.lt_succ_self _) h.not_mem_cmds
  have hone := (hat.1 h.pcmd_ne).1
  rw [show (s.submit o true).freed s.cmds = s.freed s.cmds from rfl, (h.fresh _ (Nat.le_refl _)).1] at hone
  cases hone

/-! #### The thread takes a command -/

theorem freePayload_eq (s : CmdLog) (k : Nat) : s.freePayload k = { s with
    payloadFreed := Function.update s.payloadFreed k (s.payloadFreed k + if (s.obj k).hasPayload then 1 else 0) } := by
  unfold freePayload
  split <;> simp

theorem rtwSctxDone_eq (s : CmdLog) (k : Nat) : s.rtwSctxDone k = { s with
    sctxDone := Function.update s.sctxDone k (s.sctxDone k + if (s.obj k).sctx then 1 else 0) } := by
  unfold rtwSctxDone
  split <;> simp

theorem Inv.head (h : s.Inv) (hq : s.cmdQueue = k :: q) :
    k < s.cmds ∧ k ∉ q ∧ q.Pairwise (· < ·) ∧ (∀ j ∈ q, k < j) ∧ k ∉ s.handled ∧ ∀ j ∈ q, j ∈ s.cmdQueue := by
  have hk : k ∈ s.cmdQueue := by
    rw [hq]
    exact List.mem_cons_self
  have hsorted := h.sorted
  rw [hq, List.pairwise_cons] at hsorted
  refine ⟨h.lt k hk, fun hm => Nat.lt_irrefl _ (hsorted.1 k hm), hsorted.2, hsorted.1, fun hm => ?_, fun j hj => ?_⟩
  · exact Nat.lt_irrefl _ ((h.handledLt k hm).2 k hk)
  · rw [hq]
    exact List.mem_cons_of_mem _ hj

/-- The next command comes into the hand of the thread, and its handler runs or does not; `n` says how
often the payload is freed. -/
theorem Inv.take (h : s.Inv) (hq : s.cmdQueue = k :: q) (hp : s.pcmd = none) {handled : List Nat} {n : Nat}
    (hh : handled = s.handled ∨ handled = s.handled ++ [k]) (hn : (s.obj k).hasPayload → k ∉ handled → n = 1)
    {t : CmdLog} (ht : t = { s with
      cmdQueue := q, pcmd := some k, handled, payloadFreed := Function.update s.payloadFreed k n }) :
    t.Inv ∧ (t.Good ↔ s.Good) := by
  obtain ⟨hlt, hkq, hsorted, hfirst, hnh, hsub⟩ := h.head hq
  have hkm : k ∈ s.cmdQueue := by
    rw [hq]
    exact List.mem_cons_self
  have hmem : ∀ j ∈ handled, j ∈ s.handled ∨ j = k := by
    rintro j hj
    rcases hh with rfl | rfl
    · exact .inl hj
    · simpa using hj
  subst ht
  refine ⟨⟨fun j hj => h.lt j (hsub j hj), hsorted, ?_, ?_, ?_, ?_, ?_, ?_⟩, ?_⟩
  · rintro j hj
    obtain rfl : k = j := by simpa using hj
    exact ⟨hlt, hkq⟩
  · intro j hj
    rcases hmem j hj with hj | rfl
    · exact ⟨(h.handledLt j hj).1, fun i hi => (h.handledLt j hj).2 i (hsub i hi)⟩
    · exact ⟨hlt, hfirst⟩
  · rcases hh with rfl | rfl
    · exact h.handled
    · refine List.pairwise_append.2 ⟨h.handled, List.pairwise_singleton .., fun j hj i hi => ?_⟩
      rw [List.mem_singleton.1 hi]
      exact (h.handledLt j hj).2 k hkm
  · intro j hj
    have hne : j ≠ k := fun he => absurd hlt (by rw [← he]; exact Nat.not_lt.2 hj)
    dsimp only
    rw [Function.update_of_ne hne]
    exact h.fresh j hj
  · intro j hj
    have hne : j ≠ k := fun he => hkq (he ▸ hj)
    dsimp only
    rw [Function.update_of_ne hne]
    exact h.queued j (hsub j hj)
  · rintro j hj
    obtain rfl : k = j := by simpa using hj
    exact ⟨(h.queued k hkm).2.1, (h.queued k hkm).2.2.2⟩
  · have hel : Elsewhere s { s with
        cmdQueue := q, pcmd := some k, handled, payloadFreed := Function.update s.payloadFreed k n } k := by
      refine ⟨fun _ _ => rfl, fun j hj => ?_, fun j hj => ?_, fun _ _ => rfl, fun j hj => ?_, fun _ _ => rfl,
        fun j hj => Function.update_of_ne hj .., fun _ _ => rfl⟩
      · simp [hq, hj]
      · simp [hp, hj.symm]
      · rcases hh with rfl | rfl
        · exact Iff.rfl
        · simp [hj]
    rw [hel.good (.inl rfl), good_iff k]
    refine and_congr_right fun _ => iff_of_true (fun _ _ => ?_) fun _ hno => absurd hkm hno
    refine ⟨fun hne => absurd rfl hne, fun hpay hno => ?_⟩
    dsimp only
    rw [Function.update_self, hn hpay hno]

/-- The thread is done with the command in its hand. -/
theorem Inv.postProcess (h : s.Inv) (hp : s.pcmd = some k) (res : Nat) :
    (s.postProcess k res).Inv ∧ ((s.postProcess k res).Good ↔ s.Good ∧ (s.obj k).freedByCallback res) := by
  obtain ⟨hlt, hkq⟩ := h.pcmdLt k hp
  obtain ⟨hf, hd⟩ := h.pcmd k hp
  have heq : s.postProcess k res = { s with
      sctxDone := Function.update s.sctxDone k (if (s.obj k).sctx then 1 else 0)
      freed := Function.update s.freed k (if (s.obj k).freedByCallback res then 1 else 0)
      pcmd := none } := by
    unfold CmdLog.postProcess
    dsimp only
    rw [rtwSctxDone_eq, hd, Nat.zero_add]
    dsimp only
    split
    · simp [rtwFreeCmdObj, hf]
    · have hself : Function.update s.freed k 0 = s.freed := by
        rw [← hf, Function.update_eq_self]
      rw [hself]
  rw [heq]
  refine ⟨⟨h.lt, h.sorted, ?_, h.handledLt, h.handled, ?_, ?_, ?_⟩, ?_⟩
  · rintro j hj
    cases hj
  · intro j hj
    have hne : j ≠ k := fun he => absurd hlt (by rw [← he]; exact Nat.not_lt.2 hj)
    dsimp only
    rw [Function.update_of_ne hne, Function.update_of_ne hne]
    exact h.fresh j hj
  · intro j hj
    have hne : j ≠ k := fun he => hkq (he ▸ hj)
    dsimp only
    rw [Function.update_of_ne hne, Function.update_of_ne hne]
    exact h.queued j hj
  · rintro j hj
    cases hj
  · have hel : Elsewhere s { s with
        sctxDone := Function.update s.sctxDone k (if (s.obj k).sctx then 1 else 0)
        freed := Function.update s.freed k (if (s.obj k).freedByCallback res then 1 else 0)
        pcmd := none } k := by
      refine ⟨fun _ _ => rfl, fun _ _ => Iff.rfl, fun j hj => ?_, fun _ _ => rfl, fun _ _ => Iff.rfl,
        fun j hj => Function.update_of_ne hj .., fun _ _ => rfl, fun j hj => Function.update_of_ne hj ..⟩
      simp [hp, hj.symm]
    rw [hel.good (.inl rfl), good_iff k, and_assoc]
    refine and_congr_right fun _ => ?_
    constructor
    · intro hg
      obtain ⟨hdone, hpay⟩ := hg hlt hkq
      refine ⟨fun _ _ => ⟨fun hne => absurd hp hne, hpay⟩, ?_⟩
      simpa using (hdone (by simp)).1
    · rintro ⟨hg, hfree⟩ _ _
      refine ⟨fun _ => ⟨by simp [hfree], fun _ hs => ?_⟩, (hg hlt hkq).2⟩
      dsimp only at hs ⊢
      rw [Function.update_self, if_pos hs]

theorem Inv.drain (h : s.Inv) (hq : s.cmdQueue = k :: q) (hp : s.pcmd = none) :
    (({ s with cmdQueue := q }.freePayload k).rtwFreeCmdObj k).Inv ∧
      ((({ s with cmdQueue := q }.freePayload k).rtwFreeCmdObj k).Good ↔ s.Good ∧ (s.obj k).sctx = false) := by
  obtain ⟨hlt, hkq, hsorted, -, hnh, hsub⟩ := h.head hq
  have hkm : k ∈ s.cmdQueue := by
    rw [hq]
    exact List.mem_cons_self
  obtain ⟨hacc, hf, hpf, hd⟩ := h.queued k hkm
  have heq : ({ s with cmdQueue := q }.freePayload k).rtwFreeCmdObj k = { s with
      cmdQueue := q
      freed := Function.update s.freed k 1
      payloadFreed := Function.update s.payloadFreed k (if (s.obj k).hasPayload then 1 else 0) } := by
    rw [freePayload_eq]
    simp [rtwFreeCmdObj, hf, hpf]
  rw [heq]
  refine ⟨⟨fun j hj => h.lt j (hsub j hj), hsorted, ?_, fun j hj => ?_, h.handled, fun j hj => ?_, fun j hj => ?_, ?_⟩, ?_⟩
  · rintro j hj
    rw [show (_ : Option Nat) = none from hp] at hj
    cases hj
  · exact ⟨(h.handledLt j hj).1, fun i hi => (h.handledLt j hj).2 i (hsub i hi)⟩
  · have hne : j ≠ k := fun he => absurd hlt (by rw [← he]; exact Nat.not_lt.2 hj)
    dsimp only
    rw [Function.update_of_ne hne, Function.update_of_ne hne]
    exact h.fresh j hj
  · have hne : j ≠ k := fun he => hkq (he ▸ hj)
    dsimp only
    rw [Function.update_of_ne hne, Function.update_of_ne hne]
    exact h.queued j (hsub j hj)
  · rintro j hj
    rw [show (_ : Option Nat) = none from hp] at hj
    cases hj
  · have hel : Elsewhere s { s with
        cmdQueue := q
        freed := Function.update s.freed k 1
        payloadFreed := Function.update s.payloadFreed k (if (s.obj k).hasPayload then 1 else 0) } k := by
      refine ⟨fun _ _ => rfl, fun j hj => ?_, fun _ _ => Iff.rfl, fun _ _ => rfl, fun _ _ => Iff.rfl,
        fun j hj => Function.update_of_ne hj .., fun j hj => Function.update_of_ne hj .., fun _ _ => rfl⟩
      simp [hq, hj]
    rw [hel.good (.inl rfl), good_iff k, and_assoc]
    refine and_congr_right fun _ => ?_
    constructor
    · intro hg
      refine ⟨fun _ hno => absurd hkm hno, ?_⟩
      have hdone := ((hg hlt hkq).1 (by simp [hp])).2 hacc
      cases hs : (s.obj k).sctx
      · rfl
      · rw [show (_ : Nat) = 0 from hd] at hdone
        exact absurd (hdone hs) (by decide)
    · rintro ⟨-, hs⟩ _ _
      refine ⟨fun _ => ⟨by simp, fun _ hsc => ?_⟩, fun hpay _ => ?_⟩
      · dsimp only at hsc
        rw [hs] at hsc
        cases hsc
      · dsimp only at hpay ⊢
        rw [Function.update_self, if_pos hpay]

end CmdLog

/-! ### Runs -/

namespace CmdRun
variable {s : CmdRun} {o : CmdObj} {e : CmdEvent} {evs : List CmdEvent}

structure Inv (s : CmdRun) : Prop extends s.toCmdLog.Inv where
  inHand : s.pcmd ≠ none ↔ ∃ res, s.pc = .postProcess res
  notRunning : s.pc = .start ∨ s.pc = .drain ∨ s.pc = .exited → s.cmdthdRunning = false
  empty : s.pc = .exited → s.cmdQueue = []

theorem inv_start : start.Inv where
  lt := nofun
  sorted := .nil
  pcmdLt := nofun
  handledLt := nofun
  handled := .nil
  fresh _ _ := ⟨rfl, rfl, rfl⟩
  queued := nofun
  pcmd := nofun
  inHand := by simp [start]
  notRunning _ := rfl
  empty _ := rfl

theorem running_of_filter (h : s.rtwCmdFilter o = true) : s.cmdthdRunning = true := by
  unfold rtwCmdFilter at h
  simp at h
  exact h.2

theorem Inv.enqueue (h : s.Inv) (o : CmdObj) :
    (s.rtwEnqueueCmd o).Inv ∧ ((s.rtwEnqueueCmd o).Good ↔ s.Good ∧ s.StepOk (.enqueue o)) := by
  unfold rtwEnqueueCmd StepOk
  cases hf : s.rtwCmdFilter o with
  | false =>
    obtain ⟨hinv, hgood⟩ := h.toInv.drop o
    simp only [hf, Bool.not_false, if_true, Bool.false_eq_true, if_false]
    exact ⟨⟨hinv, h.inHand, h.notRunning, h.empty⟩, hgood⟩
  | true =>
    simp only [hf, Bool.not_true, if_true, Bool.false_eq_true, if_false]
    by_cases hsz : o.cmdsz ≤ maxCmdsz
    · obtain ⟨hinv, hgood⟩ := h.toInv.enqueue o
      simp only [if_neg (Nat.not_lt.2 hsz)]
      refine ⟨⟨hinv, h.inHand, h.notRunning, fun hpc => ?_⟩, hgood.trans (and_iff_left hsz).symm⟩
      have hno := h.notRunning (.inr (.inr hpc))
      rw [running_of_filter hf] at hno
      cases hno
    · simp only [if_pos (Nat.lt_of_not_le hsz)]
      refine ⟨⟨h.toInv.submit o true, h.inHand, h.notRunning, h.empty⟩, iff_of_false ?_ fun hok => hsz hok.2⟩
      exact h.toInv.lose o

theorem Inv.goto (h : s.Inv) {t : CmdRun} (hlog : t.toCmdLog = s.toCmdLog) (hp : s.pcmd = none)
    (hpc : ∀ res, t.pc ≠ .postProcess res)
    (hrun : t.pc = .start ∨ t.pc = .drain ∨ t.pc = .exited → t.cmdthdRunning = false)
    (hempty : t.pc = .exited → s.cmdQueue = []) : t.Inv ∧ (t.Good ↔ s.Good) := by
  refine ⟨⟨hlog ▸ h.toInv, ?_, hrun, fun he => by rw [hlog]; exact hempty he⟩, by rw [hlog]⟩
  rw [hlog, hp]
  refine iff_of_false (fun hne => hne rfl) ?_
  rintro ⟨res, he⟩
  exact hpc res he

theorem Inv.nextCmd (h : s.Inv) (hpc : s.pc = .next) (ret : Nat) :
    (s.nextCmd ret).Inv ∧ ((s.nextCmd ret).Good ↔ s.Good) := by
  have hp : s.pcmd = none := by
    by_contra hne
    obtain ⟨res, he⟩ := h.inHand.1 hne
    rw [hpc] at he
    cases he
  unfold CmdRun.nextCmd
  split
  · exact h.goto rfl hp (by simp) (by simp) (by simp)
  split
  · exact h.goto rfl hp (by simp) (by simp) (by simp)
  rename_i k q hq
  dsimp only
  have hpf := (h.queued k (by rw [hq]; exact List.mem_cons_self)).2.2.1
  have hctl : ∀ {t : CmdRun} {res : Nat}, t.toCmdLog.Inv → t.pcmd = some k → t.pc = .postProcess res → t.Inv :=
    fun ht hk hr => ⟨ht, by simp [hk, hr], by simp [hr], by simp [hr]⟩
  split
  · rename_i hf
    have heq := CmdLog.freePayload_eq { s.toCmdLog with cmdQueue := q, pcmd := some k } k
    obtain ⟨hinv, hgood⟩ := h.toInv.take hq hp (.inl rfl) (fun hpay _ => by simp [hpf, hpay]) heq
    exact ⟨hctl hinv (by rw [heq]) rfl, hgood⟩
  split
  · split
    · have heq : ({ s.toCmdLog with cmdQueue := q, pcmd := some k }.runHandler k) = _ :=
        CmdLog.freePayload_eq { s.toCmdLog with cmdQueue := q, pcmd := some k, handled := s.handled ++ [k] } k
      obtain ⟨hinv, hgood⟩ := h.toInv.take hq hp (.inr rfl) (fun _ hno => absurd (by simp) hno) heq
      exact ⟨hctl hinv (by rw [heq]) rfl, hgood⟩
    · rename_i hhdl
      have hno : (s.obj k).hasPayload = true → s.payloadFreed k = 1 := by
        intro hpay
        rw [CmdObj.hasPayload, Bool.and_eq_true, Bool.and_eq_true, decide_eq_true_eq] at hpay
        rw [hpay.1.1] at hhdl
        exact absurd rfl hhdl
      have heq : { s.toCmdLog with cmdQueue := q, pcmd := some k } = { s.toCmdLog with
          cmdQueue := q, pcmd := some k, payloadFreed := Function.update s.payloadFreed k (s.payloadFreed k) } := by
        rw [Function.update_eq_self]
      obtain ⟨hinv, hgood⟩ := h.toInv.take hq hp (.inl rfl) (fun hpay _ => hno hpay) heq
      exact ⟨hctl hinv rfl rfl, hgood⟩
  · rename_i hmax
    have hno : (s.obj k).hasPayload = true → s.payloadFreed k = 1 := by
      intro hpay
      rw [CmdObj.hasPayload, Bool.and_eq_true, Bool.and_eq_true, decide_eq_true_eq] at hpay
      rw [hpay.1.1] at hmax
      exact absurd (by decide) hmax
    have heq : { s.toCmdLog with cmdQueue := q, pcmd := some k } = { s.toCmdLog with
        cmdQueue := q, pcmd := some k, payloadFreed := Function.update s.payloadFreed k (s.payloadFreed k) } := by
      rw [Function.update_eq_self]
    obtain ⟨hinv, hgood⟩ := h.toInv.take hq hp (.inl rfl) (fun hpay _ => hno hpay) heq
    exact ⟨hctl hinv rfl rfl, hgood⟩

theorem freedByCallback_iff {res : Nat} :
    o.freedByCallback res = true ↔ (o.cmdcode = disConnectCmd → res = h2cSuccess) := by
  unfold CmdObj.freedByCallback
  split <;> simp_all

theorem Inv.thread (h : s.Inv) (sema : Bool) (ret : Nat) :
    (s.thread sema ret).Inv ∧ ((s.thread sema ret).Good ↔ s.Good ∧ s.StepOk (.thread sema ret)) := by
  have hno : (∀ res, s.pc ≠ .postProcess res) → s.pcmd = none := fun hne => by
    by_contra hp
    obtain ⟨res, he⟩ := h.inHand.1 hp
    exact hne res he
  unfold CmdRun.thread StepOk
  cases hpc : s.pc with
  | start =>
    have hp := hno (by simp [hpc])
    simpa using h.goto (t := { s with stopReq := false, cmdthdRunning := true, pc := .wait }) rfl hp (by simp) (by simp)
      (by simp)
  | wait =>
    have hp := hno (by simp [hpc])
    simp only [and_true]
    have hgo : ∀ {t : CmdRun}, t.toCmdLog = s.toCmdLog → t.pc = .leave ∨ t.pc = .wait ∨ t.pc = .next →
        t.Inv ∧ (t.Good ↔ s.Good) := by
      rintro t hlog (ht | ht | ht) <;> exact h.goto hlog hp (by simp [ht]) (by simp [ht]) (by simp [ht])
    split
    · exact hgo rfl (.inl rfl)
    split
    · exact hgo rfl (.inr (.inl hpc))
    split
    · exact hgo rfl (.inl rfl)
    split
    · exact hgo rfl (.inl rfl)
    split
    · exact hgo rfl (.inr (.inl rfl))
    · exact hgo rfl (.inr (.inr rfl))
  | next => simpa using h.nextCmd hpc ret
  | postProcess res =>
    obtain ⟨k, hk⟩ := Option.ne_none_iff_exists'.1 (h.inHand.2 ⟨res, hpc⟩)
    obtain ⟨hinv, hgood⟩ := h.toInv.postProcess hk res
    have hnone : (s.toCmdLog.postProcess k res).pcmd = none := rfl
    simp only [hk]
    refine ⟨⟨hinv, by simp [hnone], by simp, by simp⟩, ?_⟩
    rw [hgood, freedByCallback_iff]
    simp
  | leave =>
    have hp := hno (by simp [hpc])
    simpa using h.goto (t := { s with cmdthdRunning := false, pc := .drain }) rfl hp (by simp) (by simp) (by simp)
  | drain =>
    have hp := hno (by simp [hpc])
    have hrun := h.notRunning (.inr (.inl hpc))
    cases hq : s.cmdQueue with
    | nil =>
      simpa [hq] using h.goto (t := { s with pc := .exited }) rfl hp (by simp) (fun _ => hrun) (fun _ => hq)
    | cons k q =>
      obtain ⟨hinv, hgood⟩ := h.toInv.drain hq hp
      have hnone : (({ s.toCmdLog with cmdQueue := q }.freePayload k).rtwFreeCmdObj k).pcmd = none := by
        rw [CmdLog.freePayload_eq]
        exact hp
      dsimp only
      refine ⟨⟨hinv, by simp [hnone], fun _ => hrun, by simp⟩, ?_⟩
      rw [hgood]
      simp
  | exited => exact ⟨h, (and_iff_left trivial).symm⟩

theorem Inv.next (h : s.Inv) (e : CmdEvent) : (s.next e).Inv ∧ ((s.next e).Good ↔ s.Good ∧ s.StepOk e) := by
  cases e with
  | enqueue o => exact h.enqueue o
  | hwInit completed => exact ⟨⟨h.toInv, h.inHand, h.notRunning, h.empty⟩, (and_iff_left trivial).symm⟩
  | drvStop cannotRun => exact ⟨⟨h.toInv, h.inHand, h.notRunning, h.empty⟩, (and_iff_left trivial).symm⟩
  | stopThread => exact ⟨⟨h.toInv, h.inHand, h.notRunning, h.empty⟩, (and_iff_left trivial).symm⟩
  | thread sema ret => exact h.thread sema ret

/-- Once the thread is gone, everything is where it belongs. -/
theorem Inv.released_iff_good (h : s.Inv) (hpc : s.pc = .exited) : s.Released ↔ s.Good := by
  have hq := h.empty hpc
  have hp : s.pcmd = none := by
    by_contra hne
    obtain ⟨res, he⟩ := h.inHand.1 hne
    rw [hpc] at he
    cases he
  constructor
  · intro hr k hk _
    exact ⟨fun _ => ⟨hr.freed k hk, hr.sctx k hk⟩, hr.payload k hk⟩
  · intro hg
    have hat : ∀ k < s.cmds, s.GoodAt k := fun k hk => hg k hk (by rw [hq]; exact List.not_mem_nil)
    have hne : ∀ k : Nat, s.pcmd ≠ some k := fun k => by simp [hp]
    exact ⟨fun k hk => ((hat k hk).1 (hne k)).1, h.handled, fun k hk => (hat k hk).2,
      fun k hk => ((hat k hk).1 (hne k)).2⟩

theorem released_iff (h : (Machine.run next start evs).pc = .exited) :
    (Machine.run next start evs).Released ↔ Machine.RunOk next StepOk start evs := by
  have hinv := Machine.run_invariant (I := Inv) (fun _ e h => (h.next e).1) inv_start evs
  have hgood := Machine.run_iff_and_runOk (P := fun s : CmdRun => s.Good) (fun _ e h => (Inv.next h e).1)
    (fun _ e h => (Inv.next h e).2) inv_start evs
  have hstart : start.Good := nofun
  rw [hinv.released_iff_good h, hgood]
  exact and_iff_right hstart

/-- A command is run, and the thread is stopped. -/
theorem released_iff_oneCmd :
    (Machine.run next start [.hwInit true, .thread true 0, .enqueue { cmdcode := 20, cmdsz := 64, sctx := true },
      .thread true 0, .thread true 0, .thread true 0, .thread true 0, .stopThread, .thread true 0, .thread true 0,
      .thread true 0]).pc = .exited ∧
    (Machine.run next start [.hwInit true, .thread true 0, .enqueue { cmdcode := 20, cmdsz := 64, sctx := true },
      .thread true 0, .thread true 0, .thread true 0, .thread true 0, .stopThread, .thread true 0, .thread true 0,
      .thread true 0]).Released :=
  ⟨by decide, (released_iff (by decide)).2 (by decide)⟩

/-- A command whose waiter is still there when the thread is stopped. -/
theorem not_released_waiter : ¬ ∀ evs, (Machine.run next start evs).pc = .exited →
    (Machine.run next start evs).Released := by
  intro h
  have hr := h [.hwInit true, .thread true 0, .enqueue { cmdcode := 20, cmdsz := 64, sctx := true }, .stopThread,
    .thread true 0, .thread true 0, .thread true 0, .thread true 0] (by decide)
  exact absurd (hr.sctx 0 (by decide) (by decide) (by decide)) (by decide)

end CmdRun

end Rtw
