import Rtw.Recv.ReorderSim

/-!
# Block-ack sessions

ADDBA requests and DELBAs act on the reorder buffer of a TID while frames are waiting in it: they
switch `enable` and reset `indicate_seq`, and leave the pending queue to the timer. A frame that
arrives afterwards can be handed up before the frames of the old session. `StepOk` is the condition
on the single step under which it is not, and `inSessionOrder_run` says what follows for a run.
-/

namespace Rtw

def rxAmpduSizeInvalid : Nat := 0xFF

/-- What the rest of the driver says when a block-ack action frame is handled. -/
structure BackEnv where
  raMatch : Bool
  apState : Bool
  assocSuccess : Bool
  staKnown : Bool
  htEnable : Bool
  rxAmpduIsAccept : Bool
  rxAmpduSize : Nat

/-- `process_addba_req`: the control block and the status code and buffer size of the response. -/
def processAddbaReq (env : BackEnv) (ctrl : RecvReorderCtrl) : RecvReorderCtrl × Nat × Nat :=
  let ctrl := { ctrl with indicateSeq := 0xFFFF, enable := env.rxAmpduIsAccept }
  if ctrl.enable then ({ ctrl with ampduSize := env.rxAmpduSize }, 0, env.rxAmpduSize)
  else (ctrl, 37, env.rxAmpduSize)

/-- A DELBA of the originator, or the recipient's own. -/
def disableRx (ctrl : RecvReorderCtrl) : RecvReorderCtrl :=
  { ctrl with enable := false, ampduSize := rxAmpduSizeInvalid }

/-- `OnAction_back` for the receive session of `tid`: the new control block, `none` when the frame does
not concern it. `body` starts at the category. -/
def onActionBack (env : BackEnv) (tid : Nat) (body : List UInt8) (ctrl : RecvReorderCtrl) :
    Option RecvReorderCtrl :=
  let byte (i : Nat) : Nat := (body[i]?.getD 0).toNat
  if !env.raMatch then none
  else if !env.apState && !env.assocSuccess then none
  else if !env.staKnown then none
  else if byte 0 ≠ 3 then none
  else if !env.htEnable then none
  else
    match byte 1 with
    | 0 =>
      -- dialog token, parameter set, timeout, starting sequence: the TID is in the parameter set
      let param := byte 3 + 256 * byte 4
      if param / 4 % 16 = tid then some (processAddbaReq env ctrl).1 else none
    | 2 =>
      if byte 3 / 8 % 2 = 1 ∧ byte 3 / 16 % 16 = tid then some (disableRx ctrl) else none
    | _ => none

/-- The arguments of a call of `_send_delba_sta_tid` and how the transmission went. -/
structure DelbaCall where
  initiator : Nat
  sta : Bool
  force : Bool
  waitAck : Bool
  testNoTx : Bool
  acked : Bool

/-- `_send_delba_sta_tid`: the return code and the new control block, `none` when it is not touched. -/
def sendDelbaStaTid (call : DelbaCall) (ctrl : RecvReorderCtrl) : Bool × Option RecvReorderCtrl :=
  if !call.sta then (false, none)
  else if call.initiator = 0 then
    if call.force || ctrl.enable then
      let ret := if call.testNoTx then false else if call.waitAck then call.acked else true
      let c := disableRx ctrl
      (ret, some (if !ret && !c.enable then { c with ampduSize := ctrl.ampduSize } else c))
    else (true, none)
  else (true, none)

section
variable {env : BackEnv} {tid : Nat} {body : List UInt8} {ctrl c : RecvReorderCtrl} {call : DelbaCall}

theorem processAddbaReq_pending : (processAddbaReq env ctrl).1.pending = ctrl.pending := by
  unfold processAddbaReq; dsimp only; split <;> rfl

theorem onActionBack_pending (h : onActionBack env tid body ctrl = some c) : c.pending = ctrl.pending := by
  unfold onActionBack at h
  dsimp only at h
  repeat' split at h
  all_goals cases h
  · exact processAddbaReq_pending
  · rfl

theorem sendDelbaStaTid_pending (h : (sendDelbaStaTid call ctrl).2 = some c) : c.pending = ctrl.pending := by
  unfold sendDelbaStaTid at h
  dsimp only at h
  repeat' split at h
  all_goals cases h
  all_goals rfl

end

/-! ### Runs with session changes -/

/-- The reorder state of a TID with its history, and the numbers of frames that had arrived at each
setup or teardown of a session. -/
structure BaTid where
  rx : RxTid
  cuts : List Nat

/-- What can happen to a TID while the driver runs. -/
inductive BaEvent where
  | recv (mp : Bool) (f : RecvFrame)
  | timeout
  | actionBack (env : BackEnv) (body : List UInt8)
  | sendDelba (call : DelbaCall)

namespace BaTid

/-- The state that `rtw_alloc_stainfo` leaves behind. -/
def start : BaTid := ⟨.start false rxAmpduSizeInvalid, []⟩

/-- A session is set up or torn down. -/
def setCtrl (s : BaTid) (ctrl : RecvReorderCtrl) : BaTid :=
  { rx := { s.rx with ctrl }, cuts := s.cuts ++ [s.rx.arrivals] }

def next (tid : Nat) (s : BaTid) : BaEvent → BaTid
  | .recv mp f => { s with rx := s.rx.recv false mp { f with id := s.rx.arrivals } }
  | .timeout => { s with rx := s.rx.timeout false }
  | .actionBack env body => ((onActionBack env tid body s.rx.ctrl).map s.setCtrl).getD s
  | .sendDelba call => ((sendDelbaStaTid call s.rx.ctrl).2.map s.setCtrl).getD s

/-- `f` arrived before a setup or teardown and `g` after it. -/
def Separated (s : BaTid) (f g : RecvFrame) : Prop := ∃ k ∈ s.cuts, f.id < k ∧ k ≤ g.id

/-- `f` arrived before the last setup or teardown. -/
def IsOld (s : BaTid) (f : RecvFrame) : Prop := ∃ k ∈ s.cuts, f.id < k

instance (s : BaTid) (f g : RecvFrame) : Decidable (s.Separated f g) := List.decidableBEx ..

instance (s : BaTid) (f : RecvFrame) : Decidable (s.IsOld f) := List.decidableBEx ..

/-- `y` may leave the driver after `x`: it does not come from an earlier session, and if `x` was handed
up past the queue then `y` arrived after it. -/
def MayFollow (s : BaTid) (x y : Indication) : Prop :=
  ¬ s.Separated y.frame x.frame ∧ (x.isDirect → x.frame.id < y.frame.id)

instance (s : BaTid) (x y : Indication) : Decidable (s.MayFollow x y) := inferInstanceAs (Decidable (_ ∧ _))

/-- What the history of a TID should look like. -/
structure InSessionOrder (s : BaTid) : Prop where
  /-- Frames of an old session are handed up before those received after its end, and what waits in
  the queue is handed up before a frame received later goes past the queue. -/
  handed : s.rx.log.Pairwise s.MayFollow
  /-- What still waits has not been overtaken. -/
  waiting : ∀ x ∈ s.rx.log, ∀ f ∈ s.rx.ctrl.pending, s.MayFollow x (.inOrder f)
  /-- Every frame taken into the queue is there or has been handed up, once. -/
  once : (s.rx.handed ++ s.rx.ctrl.pending).Perm s.rx.accepted ∧ (s.rx.accepted.map (·.id)).Nodup

/-- The condition on a step: a frame goes past the queue only when nothing waits there, and a frame
that is taken into the queue does not go in front of one from an earlier session. -/
def StepOk (s : BaTid) : BaEvent → Prop
  | .recv mp f =>
    let f := { f with id := s.rx.arrivals }
    ((direct? false mp s.rx.ctrl f).isSome → s.rx.ctrl.pending = []) ∧
      ∀ g ∈ accepted? mp s.rx.ctrl f,
        ∀ p ∈ s.rx.ctrl.pending.dropWhile fun p => snLess p.attrib.seqNum g.attrib.seqNum, ¬ s.IsOld p
  | _ => True

instance (s : BaTid) : (e : BaEvent) → Decidable (s.StepOk e)
  | .recv _ _ => inferInstanceAs (Decidable ((_ → _) ∧ _))
  | .timeout | .actionBack _ _ | .sendDelba _ => .isTrue trivial

/-! ### The invariant -/

/-- What left the driver and what waits, in the order in which it leaves. -/
def flow (s : BaTid) : List Indication := s.rx.log ++ s.rx.ctrl.pending.map (indicateQueued false)

structure Inv (s : BaTid) : Prop where
  flow : s.flow.Pairwise s.MayFollow
  old : ∀ x ∈ s.flow, x.frame.id < s.rx.arrivals
  cuts : ∀ k ∈ s.cuts, k ≤ s.rx.arrivals
  conserved : s.rx.Conserved
  noneStopped : s.rx.NoneStopped

theorem pairwise_insert {α : Type} {R : α → α → Prop} {l₁ l₂ : List α} {a : α} (h : (l₁ ++ l₂).Pairwise R)
    (h₁ : ∀ x ∈ l₁, R x a) (h₂ : ∀ y ∈ l₂, R a y) : (l₁ ++ a :: l₂).Pairwise R := by
  obtain ⟨hl₁, hl₂, hcross⟩ := List.pairwise_append.1 h
  refine List.pairwise_append.2 ⟨hl₁, List.pairwise_cons.2 ⟨h₂, hl₂⟩, fun x hx y hy => ?_⟩
  rcases List.mem_cons.1 hy with rfl | hy
  · exact h₁ x hx
  · exact hcross x hx y hy

namespace Inv
variable {s : BaTid}

theorem start : BaTid.start.Inv where
  flow := .nil
  old := by simp [BaTid.flow, BaTid.start, RxTid.start]
  cuts := by simp [BaTid.start]
  conserved := .start ..
  noneStopped := RxTid.NoneStopped.start _ _

theorem mayFollow_new (h : s.Inv) {x y : Indication} (hx : x ∈ s.flow) (hy : y.frame.id = s.rx.arrivals) :
    s.MayFollow x y := by
  have hold := h.old x hx
  refine ⟨fun ⟨k, _, hyk, hkx⟩ => by omega, fun _ => by omega⟩

/-- A frame of the running session may follow any other out of the queue. -/
theorem mayFollow_of_not_old {f g : RecvFrame} (hf : ¬ s.IsOld f) : s.MayFollow (.inOrder g) (.inOrder f) :=
  ⟨fun ⟨k, hk, hfk, _⟩ => hf ⟨k, hk, hfk⟩, fun hd => by cases hd⟩

theorem setCtrl (h : s.Inv) {ctrl : RecvReorderCtrl} (hp : ctrl.pending = s.rx.ctrl.pending) :
    (s.setCtrl ctrl).Inv := by
  have hflow : (s.setCtrl ctrl).flow = s.flow := by simp only [BaTid.flow, BaTid.setCtrl, hp]
  refine ⟨?_, by rw [hflow]; exact h.old, fun k hk => ?_, ⟨?_, h.conserved.old, h.conserved.distinct⟩, h.noneStopped⟩
  · rw [hflow]
    refine h.flow.imp_of_mem fun {x y} hx _ hxy => ⟨fun ⟨k, hk, hyk, hkx⟩ => ?_, hxy.2⟩
    -- the new cut lies behind every frame
    rcases List.mem_append.1 hk with hk | hk
    · exact hxy.1 ⟨k, hk, hyk, hkx⟩
    · have := h.old x hx
      rw [List.mem_singleton.1 hk] at hkx; omega
  · rcases List.mem_append.1 hk with hk | hk
    · exact h.cuts k hk
    · exact (List.mem_singleton.1 hk).le
  · dsimp only [BaTid.setCtrl]; rw [hp]; exact h.conserved.perm

theorem timeout (h : s.Inv) : Inv { s with rx := s.rx.timeout false } := by
  have hflow : BaTid.flow { s with rx := s.rx.timeout false } = s.flow := by
    simp only [BaTid.flow, RxTid.timeout, List.append_assoc, timeout_flow]
  exact ⟨by rw [hflow]; exact h.flow, by rw [hflow]; exact h.old, h.cuts, h.conserved.timeout false,
    h.noneStopped.timeout⟩

theorem recv (h : s.Inv) {mp : Bool} {f : RecvFrame} (hok : s.StepOk (.recv mp f)) :
    Inv { s with rx := s.rx.recv false mp { f with id := s.rx.arrivals } } := by
  obtain ⟨hdirect, hplace⟩ := hok
  set f' : RecvFrame := { f with id := s.rx.arrivals }
  set r := recvIndicatepktReorder false mp s.rx.ctrl f' with hr
  have hflow : BaTid.flow { s with rx := s.rx.recv false mp f' } =
      s.rx.log ++ r.out ++ r.ctrl.pending.map (indicateQueued false) := rfl
  suffices hmain : (s.rx.log ++ r.out ++ r.ctrl.pending.map (indicateQueued false)).Pairwise s.MayFollow ∧
      ∀ x ∈ s.rx.log ++ r.out ++ r.ctrl.pending.map (indicateQueued false),
        x ∈ s.flow ∨ x.frame.id = s.rx.arrivals by
    refine ⟨by rw [hflow]; exact hmain.1, fun x hx => ?_, fun k hk => Nat.le_succ_of_le (h.cuts k hk),
      h.conserved.recv false mp rfl, h.noneStopped.recv mp f'⟩
    rcases hmain.2 x (hflow ▸ hx) with hx | hx
    · exact Nat.lt_succ_of_lt (h.old x hx)
    · rw [hx]; exact Nat.lt_succ_self _
  rcases recvIndicatepktReorder_cases false mp s.rx.ctrl f' with
    ⟨g, hd, -, hid, hout, hp⟩ | ⟨-, -, hout, hp⟩ | ⟨g, l, hacc, hid, hl, hq⟩
  · -- handed up past an empty queue
    have hnil := hdirect (by rw [hd]; rfl)
    have hfl : s.flow = s.rx.log := by rw [BaTid.flow, hnil, List.map_nil, List.append_nil]
    rw [hout, hp, hnil, List.map_nil, List.append_nil, ← hfl]
    refine ⟨?_, fun x hx => ?_⟩
    · refine pairwise_insert (by rw [List.append_nil]; exact h.flow) (fun x hx => h.mayFollow_new hx hid) ?_
      simp
    · refine (List.mem_append.1 hx).imp_right fun hx => ?_
      rw [List.mem_singleton.1 hx]; exact hid
  · rw [hout, hp, List.append_nil]
    exact ⟨h.flow, fun x hx => .inl hx⟩
  · -- put into the queue behind everything old
    set before := s.rx.ctrl.pending.takeWhile fun p => snLess p.attrib.seqNum g.attrib.seqNum
    set behind := s.rx.ctrl.pending.dropWhile fun p => snLess p.attrib.seqNum g.attrib.seqNum
    have hfl : s.flow = (s.rx.log ++ before.map (indicateQueued false)) ++ behind.map (indicateQueued false) := by
      rw [BaTid.flow, ← List.takeWhile_append_dropWhile (l := s.rx.ctrl.pending), List.map_append,
        ← List.append_assoc]
    rw [List.append_assoc, hq, enqueue_eq_some hl, List.map_append, List.map_cons, ← List.append_assoc,
      indicateQueued_false]
    refine ⟨pairwise_insert (hfl ▸ h.flow) (fun x hx => ?_) (fun y hy => ?_), fun x hx => ?_⟩
    · exact h.mayFollow_new (hfl ▸ List.mem_append_left _ hx) hid
    · obtain ⟨p, hp, rfl⟩ := List.mem_map.1 hy
      rw [indicateQueued_false]
      exact mayFollow_of_not_old (hplace g hacc p hp)
    · rw [hfl]
      rcases List.mem_append.1 hx with hx | hx
      · exact .inl (List.mem_append_left _ hx)
      · rcases List.mem_cons.1 hx with rfl | hx
        · exact .inr hid
        · exact .inl (List.mem_append_right _ hx)

theorem next {tid : Nat} {e : BaEvent} (h : s.Inv) (hok : s.StepOk e) : (s.next tid e).Inv := by
  cases e with
  | recv mp f => exact h.recv hok
  | timeout => exact h.timeout
  | actionBack env body =>
    simp only [BaTid.next]
    cases hc : onActionBack env tid body s.rx.ctrl with
    | none => exact h
    | some ctrl => exact h.setCtrl (onActionBack_pending hc)
  | sendDelba call =>
    simp only [BaTid.next]
    cases hc : (sendDelbaStaTid call s.rx.ctrl).2 with
    | none => exact h
    | some ctrl => exact h.setCtrl (sendDelbaStaTid_pending hc)

theorem inSessionOrder (h : s.Inv) : s.InSessionOrder := by
  obtain ⟨hlog, -, hwait⟩ := List.pairwise_append.1 h.flow
  refine ⟨hlog, fun x hx f hf => ?_, ?_, h.conserved.distinct⟩
  · have := hwait x hx _ (List.mem_map_of_mem hf)
    rwa [indicateQueued_false] at this
  · rw [h.noneStopped.handed_eq]; exact h.conserved.perm

end Inv

/-- In a run whose steps all meet the condition no waiting frame is overtaken by one received later
that goes past the queue, and each session is handed up before the next. -/
theorem inSessionOrder_run (tid : Nat) (evs : List BaEvent)
    (hok : Machine.RunOk (next tid) StepOk start evs) : (Machine.run (next tid) start evs).InSessionOrder :=
  (Machine.run_invariant_of_ok (fun _ _ h hok => h.next hok) Inv.start hok).inSessionOrder

/-- An associated station with HT, aggregation accepted. -/
def backEnv : BackEnv where
  raMatch := true
  apState := false
  assocSuccess := true
  staKnown := true
  htEnable := true
  rxAmpduIsAccept := true
  rxAmpduSize := 64

/-- ADDBA request for TID 0. -/
def addbaReq : BaEvent := .actionBack backEnv [3, 0, 1, 2, 0, 0, 0, 0, 0]

/-- DELBA of the originator for TID 0. -/
def delba : BaEvent := .actionBack backEnv [3, 2, 0, 8, 37, 0]

/-- With the queue flushed by the timer before the DELBA everything comes in order. -/
theorem inSessionOrder_flushed :
    let s := Machine.run (next 0) start [addbaReq, .recv false (RxTid.qosFrame 0),
      .recv false (RxTid.qosFrame 2), .timeout, delba, .recv false (RxTid.qosFrame 3)]
    s.rx.log.map (·.frame.attrib.seqNum) = [0, 2, 3] ∧ s.InSessionOrder :=
  ⟨by decide, inSessionOrder_run 0 _ (by decide)⟩

/-- Frame 2 waits for frame 1 when the DELBA comes; frame 3 is handed up at once and frame 2 only when
the timer fires. -/
theorem not_inSessionOrder_delba :
    ¬ ∀ (tid : Nat) (evs : List BaEvent), (Machine.run (next tid) start evs).InSessionOrder := by
  intro h
  have := (h 0 [addbaReq, .recv false (RxTid.qosFrame 0), .recv false (RxTid.qosFrame 2), delba,
    .recv false (RxTid.qosFrame 3), .timeout]).handed
  exact absurd this (by decide)

end BaTid

end Rtw
