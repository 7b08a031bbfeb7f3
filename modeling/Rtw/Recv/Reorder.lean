import Rtw.Lib.Serial
import Rtw.Recv.Ethhdr

/-!
# The receive reorder buffer of one TID

`RecvReorderCtrl` is a `struct recv_reorder_ctrl` with its pending queue. The four functions that
move the window or the queue (`check_indicate_seq`, `enqueue_reorder_recvframe`,
`recv_indicatepkts_in_order`, `recv_indicatepkt_reorder`) and the timeout handler return the new
control block and what became of the frames they took out of the driver's hands (`Indication`).
The timer itself is not part of the state: a timeout may come at any time.
-/

namespace Rtw

/-- `SN_LESS`, on the 32-bit integers that the macro computes with. -/
def snLess (a b : Nat) : Bool := (BitVec.ofNat 32 a - BitVec.ofNat 32 b) &&& 0x800#32 != 0#32

/-- `struct recv_reorder_ctrl` -/
structure RecvReorderCtrl where
  enable : Bool
  indicateSeq : Nat
  wsizeB : Nat
  ampduSize : Nat
  pending : List RecvFrame
  deriving DecidableEq

/-- What becomes of a frame that leaves `recv_indicatepkt_reorder` or the pending queue. -/
inductive Indication where
  /-- handed up at once, past the queue -/
  | direct (f : RecvFrame)
  /-- taken off the queue and handed up -/
  | inOrder (f : RecvFrame)
  /-- taken off the queue and left alone, since the driver is stopping -/
  | stopped (f : RecvFrame)
  deriving DecidableEq

namespace Indication

def frame : Indication → RecvFrame
  | direct f | inOrder f | stopped f => f

/-- The frame was handed up past the queue. -/
def isDirect : Indication → Bool
  | direct _ => true
  | _ => false

/-- The frame, if `recv_indicatepkts_in_order` handed it up. -/
def inOrder? : Indication → Option RecvFrame
  | inOrder f => some f
  | _ => none

/-- The frame, if it came out of the queue. -/
def queued? : Indication → Option RecvFrame
  | direct _ => none
  | inOrder f | stopped f => some f

end Indication

/-- What a function of the reorder buffer returns. -/
structure ReorderResult where
  ctrl : RecvReorderCtrl
  out : List Indication
  ret : Bool
  deriving DecidableEq

def checkIndicateSeq (ctrl : RecvReorderCtrl) (seqNum : Nat) : Bool × RecvReorderCtrl :=
  let wsize := ctrl.wsizeB
  let wend := (ctrl.indicateSeq + wsize - 1) % 4096
  let indicateSeq := if ctrl.indicateSeq = 0xFFFF then seqNum else ctrl.indicateSeq
  if snLess seqNum indicateSeq then
    (false, { ctrl with indicateSeq })
  else if seqNum = indicateSeq then
    (true, { ctrl with indicateSeq := (indicateSeq + 1) % 4096 })
  else if snLess wend seqNum then
    if wsize - 1 ≤ seqNum then (true, { ctrl with indicateSeq := seqNum + 1 - wsize })
    else (true, { ctrl with indicateSeq := 0xFFF - (wsize - (seqNum + 1)) + 1 })
  else
    (true, { ctrl with indicateSeq })

/-- `enqueue_reorder_recvframe`: the queue with the frame in it, `none` for a duplicate. -/
def enqueueReorderRecvframe (f : RecvFrame) : List RecvFrame → Option (List RecvFrame)
  | [] => some [f]
  | next :: l =>
    if snLess next.attrib.seqNum f.attrib.seqNum then
      (enqueueReorderRecvframe f l).map (next :: ·)
    else if next.attrib.seqNum = f.attrib.seqNum then none
    else some (f :: next :: l)

/-- What `recv_indicatepkts_in_order` does with a frame it took off the queue; an A-MSDU is split
and handed up whether the driver is stopping or not. -/
def indicateQueued (stop : Bool) (f : RecvFrame) : Indication :=
  if !f.attrib.amsdu && stop then .stopped f else .inOrder f

/-- The loop of `recv_indicatepkts_in_order`. -/
def indicateLoop (stop : Bool) (ctrl : RecvReorderCtrl) (out : List Indication) :
    List RecvFrame → ReorderResult
  | [] => ⟨{ ctrl with pending := [] }, out, false⟩
  | f :: l =>
    if snLess ctrl.indicateSeq f.attrib.seqNum then ⟨{ ctrl with pending := f :: l }, out, true⟩
    else
      let ctrl :=
        if ctrl.indicateSeq = f.attrib.seqNum then
          { ctrl with indicateSeq := (ctrl.indicateSeq + 1) % 4096 }
        else ctrl
      indicateLoop stop ctrl (out ++ [indicateQueued stop f]) l

def recvIndicatepktsInOrder (stop : Bool) (ctrl : RecvReorderCtrl) (bforced : Bool) : ReorderResult :=
  if bforced then
    match ctrl.pending with
    | [] => ⟨ctrl, [], true⟩
    | f :: _ => indicateLoop stop { ctrl with indicateSeq := f.attrib.seqNum } [] ctrl.pending
  else indicateLoop stop ctrl [] ctrl.pending

/-- The part of `recv_indicatepkt_reorder` under the lock of the pending queue. -/
def reorderRecvframe (stop : Bool) (ctrl : RecvReorderCtrl) (f : RecvFrame) : ReorderResult :=
  match checkIndicateSeq ctrl f.attrib.seqNum with
  | (false, ctrl) => ⟨ctrl, [], false⟩
  | (true, ctrl) =>
    match enqueueReorderRecvframe f ctrl.pending with
    | none => ⟨ctrl, [], false⟩
    | some l => { recvIndicatepktsInOrder stop { ctrl with pending := l } false with ret := true }

/-- A frame handed up past the queue when no block-ack session is active. -/
def indicateDirect (ctrl : RecvReorderCtrl) (f : RecvFrame) : ReorderResult :=
  ⟨{ ctrl with indicateSeq := (f.attrib.seqNum + 1) % 4096 }, [.direct f], true⟩

def recvIndicatepktReorder (stop mp : Bool) (ctrl : RecvReorderCtrl) (f : RecvFrame) : ReorderResult :=
  if !f.attrib.amsdu then
    match wlanhdrToEthhdr mp f with
    | none => ⟨ctrl, [], false⟩
    | some f =>
      if !f.attrib.qos then
        if !stop then ⟨ctrl, [.direct f], true⟩ else ⟨ctrl, [], false⟩
      else if !ctrl.enable then indicateDirect ctrl f
      else reorderRecvframe stop ctrl f
  else if !ctrl.enable then indicateDirect ctrl f
  else reorderRecvframe stop ctrl f

def rtwReorderingCtrlTimeoutHandler (stop : Bool) (ctrl : RecvReorderCtrl) : ReorderResult :=
  if stop then ⟨ctrl, [], false⟩ else recvIndicatepktsInOrder stop ctrl true

/-- The queue with the frame in its place: the frame has passed `check_indicate_seq` and is no
duplicate. -/
def enqueued? (ctrl : RecvReorderCtrl) (f : RecvFrame) : Option (List RecvFrame) :=
  if (checkIndicateSeq ctrl f.attrib.seqNum).1 then enqueueReorderRecvframe f ctrl.pending else none

/-- The frame that a call of `recv_indicatepkt_reorder` takes into the queue. -/
def accepted? (mp : Bool) (ctrl : RecvReorderCtrl) (f : RecvFrame) : Option RecvFrame :=
  let f? := if f.attrib.amsdu then some f else (wlanhdrToEthhdr mp f).filter (·.attrib.qos)
  f?.filter fun f => ctrl.enable && (enqueued? ctrl f).isSome

/-- The frame that a call of `recv_indicatepkt_reorder` hands up past the queue. -/
def direct? (stop mp : Bool) (ctrl : RecvReorderCtrl) (f : RecvFrame) : Option RecvFrame :=
  let f? := if f.attrib.amsdu then some f else wlanhdrToEthhdr mp f
  f?.filter fun f => if !f.attrib.amsdu && !f.attrib.qos then !stop else !ctrl.enable

/-! ### What the functions do with the queue -/

section
variable {stop mp bforced : Bool} {ctrl : RecvReorderCtrl} {f : RecvFrame} {l l' : List RecvFrame}
  {out : List Indication} {seqNum : Nat}

@[simp] theorem checkIndicateSeq_pending : (checkIndicateSeq ctrl seqNum).2.pending = ctrl.pending := by
  unfold checkIndicateSeq; dsimp only; repeat' split
  all_goals rfl

@[simp] theorem checkIndicateSeq_enable : (checkIndicateSeq ctrl seqNum).2.enable = ctrl.enable := by
  unfold checkIndicateSeq; dsimp only; repeat' split
  all_goals rfl

@[simp] theorem checkIndicateSeq_wsizeB : (checkIndicateSeq ctrl seqNum).2.wsizeB = ctrl.wsizeB := by
  unfold checkIndicateSeq; dsimp only; repeat' split
  all_goals rfl

/-- The frame goes behind those before it in `SN_LESS` order, in front of all others. -/
theorem enqueue_eq_some (h : enqueueReorderRecvframe f l = some l') :
    l' = l.takeWhile (fun x => snLess x.attrib.seqNum f.attrib.seqNum) ++
      f :: l.dropWhile (fun x => snLess x.attrib.seqNum f.attrib.seqNum) := by
  induction l generalizing l' with
  | nil => obtain rfl := Option.some.inj h; rfl
  | cons x l ih =>
    simp only [enqueueReorderRecvframe] at h
    split at h
    case isTrue hx =>
      obtain ⟨m, hm, rfl⟩ := Option.map_eq_some_iff.1 h
      simp [hx, ih hm]
    case isFalse hx =>
      split at h
      · cases h
      · obtain rfl := Option.some.inj h
        simp [hx]

theorem enqueue_perm (h : enqueueReorderRecvframe f l = some l') : l'.Perm (f :: l) := by
  rw [enqueue_eq_some h]
  exact List.perm_middle.trans (.of_eq (by rw [List.takeWhile_append_dropWhile]))

theorem indicateQueued_false (f : RecvFrame) : indicateQueued false f = .inOrder f := by
  simp [indicateQueued]

theorem indicateQueued_queued : (indicateQueued stop f).queued? = some f := by
  unfold indicateQueued; split <;> rfl

/-- The loop takes frames off the front of the queue. -/
theorem indicateLoop_flow :
    (indicateLoop stop ctrl out l).out ++ (indicateLoop stop ctrl out l).ctrl.pending.map (indicateQueued stop) =
      out ++ l.map (indicateQueued stop) := by
  induction l generalizing ctrl out with
  | nil => rfl
  | cons f l ih =>
    rw [indicateLoop]; split
    · rfl
    · rw [ih]; simp

theorem recvIndicatepktsInOrder_flow :
    (recvIndicatepktsInOrder stop ctrl bforced).out ++
      (recvIndicatepktsInOrder stop ctrl bforced).ctrl.pending.map (indicateQueued stop) =
        ctrl.pending.map (indicateQueued stop) := by
  unfold recvIndicatepktsInOrder
  split
  · split
    case h_1 h => simp [h]
    case h_2 h => exact indicateLoop_flow
  · exact indicateLoop_flow

theorem timeout_flow :
    (rtwReorderingCtrlTimeoutHandler stop ctrl).out ++
      (rtwReorderingCtrlTimeoutHandler stop ctrl).ctrl.pending.map (indicateQueued stop) =
        ctrl.pending.map (indicateQueued stop) := by
  unfold rtwReorderingCtrlTimeoutHandler
  split
  · rfl
  · exact recvIndicatepktsInOrder_flow

theorem reorderRecvframe_flow :
    (reorderRecvframe stop ctrl f).out ++
      (reorderRecvframe stop ctrl f).ctrl.pending.map (indicateQueued stop) =
        ((enqueued? ctrl f).getD ctrl.pending).map (indicateQueued stop) := by
  have hp : (checkIndicateSeq ctrl f.attrib.seqNum).2.pending = ctrl.pending := checkIndicateSeq_pending
  unfold reorderRecvframe enqueued?
  rcases hc : checkIndicateSeq ctrl f.attrib.seqNum with ⟨ok, c⟩
  rw [hc] at hp
  cases ok with
  | false => simp [← hp]
  | true =>
    rw [← hp]
    cases hl : enqueueReorderRecvframe f c.pending with
    | none => simp [hl]
    | some l => simp [hl, recvIndicatepktsInOrder_flow]

theorem reorderRecvframe_refused (h : enqueued? ctrl f = none) :
    (reorderRecvframe stop ctrl f).out = [] ∧ (reorderRecvframe stop ctrl f).ctrl.pending = ctrl.pending := by
  have hp : (checkIndicateSeq ctrl f.attrib.seqNum).2.pending = ctrl.pending := checkIndicateSeq_pending
  unfold enqueued? at h
  unfold reorderRecvframe
  rcases hc : checkIndicateSeq ctrl f.attrib.seqNum with ⟨ok, c⟩
  rw [hc] at hp h
  cases ok with
  | false => exact ⟨rfl, hp⟩
  | true =>
    rw [← hp] at h
    rw [if_pos rfl] at h
    simp only [h]
    exact ⟨trivial, hp⟩

theorem reorderRecvframe_cases (stop : Bool) (ctrl : RecvReorderCtrl) (f : RecvFrame) :
    (enqueued? ctrl f = none ∧ (reorderRecvframe stop ctrl f).out = [] ∧
      (reorderRecvframe stop ctrl f).ctrl.pending = ctrl.pending) ∨
    ((enqueued? ctrl f).isSome = true ∧ ∃ l, enqueueReorderRecvframe f ctrl.pending = some l ∧
      (reorderRecvframe stop ctrl f).out ++
        (reorderRecvframe stop ctrl f).ctrl.pending.map (indicateQueued stop) = l.map (indicateQueued stop)) := by
  cases h : enqueued? ctrl f with
  | none => exact .inl ⟨rfl, reorderRecvframe_refused h⟩
  | some l =>
    refine .inr ⟨rfl, l, ?_, by rw [reorderRecvframe_flow, h]; rfl⟩
    unfold enqueued? at h
    split at h
    · exact h
    · cases h

/-- What a call does: it hands the frame up past the queue, or refuses it, or puts it into the queue
and then takes frames off the front. -/
theorem recvIndicatepktReorder_cases (stop mp : Bool) (ctrl : RecvReorderCtrl) (f : RecvFrame) :
    (∃ g, direct? stop mp ctrl f = some g ∧ accepted? mp ctrl f = none ∧ g.id = f.id ∧
      (recvIndicatepktReorder stop mp ctrl f).out = [.direct g] ∧
      (recvIndicatepktReorder stop mp ctrl f).ctrl.pending = ctrl.pending) ∨
    (direct? stop mp ctrl f = none ∧ accepted? mp ctrl f = none ∧
      (recvIndicatepktReorder stop mp ctrl f).out = [] ∧
      (recvIndicatepktReorder stop mp ctrl f).ctrl.pending = ctrl.pending) ∨
    (∃ g l, accepted? mp ctrl f = some g ∧ g.id = f.id ∧ enqueueReorderRecvframe g ctrl.pending = some l ∧
      (recvIndicatepktReorder stop mp ctrl f).out ++
        (recvIndicatepktReorder stop mp ctrl f).ctrl.pending.map (indicateQueued stop) =
          l.map (indicateQueued stop)) := by
  unfold recvIndicatepktReorder direct? accepted?
  cases ha : f.attrib.amsdu with
  | true =>
    simp only [Bool.not_true, Bool.false_eq_true, if_false, if_true, ha, Bool.false_and, Option.filter_some]
    cases ctrl.enable with
    | false => exact .inl ⟨f, by simp [indicateDirect]⟩
    | true =>
      rcases reorderRecvframe_cases stop ctrl f with ⟨hn, hout⟩ | ⟨hs, l, hl, hflow⟩
      · exact .inr (.inl (by simpa [hn] using hout))
      · exact .inr (.inr ⟨f, l, by simp [hs], rfl, hl, hflow⟩)
  | false =>
    simp only [Bool.not_false, if_true, Bool.false_eq_true, if_false]
    cases hg : wlanhdrToEthhdr mp f with
    | none => exact .inr (.inl ⟨rfl, rfl, rfl, rfl⟩)
    | some g =>
      obtain ⟨hid, hattr⟩ := wlanhdrToEthhdr_eq_some hg
      have hga : g.attrib.amsdu = false := by rw [hattr]; exact ha
      cases hq : g.attrib.qos with
      | false =>
        cases stop with
        | false => exact .inl ⟨g, by simp [hga, hq, hid]⟩
        | true => exact .inr (.inl (by simp [hga, hq]))
      | true =>
        cases ctrl.enable with
        | false => exact .inl ⟨g, by simp [hga, hq, hid, indicateDirect]⟩
        | true =>
          rcases reorderRecvframe_cases stop ctrl g with ⟨hn, hout⟩ | ⟨hs, l, hl, hflow⟩
          · exact .inr (.inl (by simpa [hga, hq, hn] using hout))
          · exact .inr (.inr ⟨g, l, by simp [hq, hs], hid, hl, by simpa [hq] using hflow⟩)

theorem reorderRecvframe_ret : (reorderRecvframe stop ctrl f).ret = (enqueued? ctrl f).isSome := by
  have hp : (checkIndicateSeq ctrl f.attrib.seqNum).2.pending = ctrl.pending := checkIndicateSeq_pending
  unfold reorderRecvframe enqueued?
  rcases hc : checkIndicateSeq ctrl f.attrib.seqNum with ⟨ok, c⟩
  rw [hc] at hp
  cases ok with
  | false => rfl
  | true => rw [← hp]; cases hl : enqueueReorderRecvframe f c.pending <;> simp [hl]

/-- A call fails exactly when it does nothing with the frame. -/
theorem recvIndicatepktReorder_ret : (recvIndicatepktReorder stop mp ctrl f).ret =
    ((direct? stop mp ctrl f).isSome || (accepted? mp ctrl f).isSome) := by
  unfold recvIndicatepktReorder direct? accepted?
  cases ha : f.attrib.amsdu with
  | true => cases he : ctrl.enable <;> simp [ha, indicateDirect, reorderRecvframe_ret]
  | false =>
    cases hg : wlanhdrToEthhdr mp f with
    | none => rfl
    | some g =>
      have hga : g.attrib.amsdu = false := by rw [(wlanhdrToEthhdr_eq_some hg).2]; exact ha
      cases hq : g.attrib.qos with
      | false => cases stop <;> simp [hga, hq]
      | true => cases he : ctrl.enable <;> simp [hga, hq, indicateDirect, reorderRecvframe_ret]

end

end Rtw
