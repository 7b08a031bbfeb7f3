import Rtw.Lib.ReorderBuffer
import Rtw.Lib.Run
import Rtw.Recv.Reorder

/-!
# Runs of the reorder buffer of one TID

Frames arrive with any sequence numbers and timeouts come at any time. The 12-bit numbers of one
session are unwrapped to natural numbers: `Sim` relates the control block to a reorder buffer over
the natural numbers (`ReorderBuffer.Buf`) whose numbers have the right remainders. Every step of the
driver is a step of that buffer (`Sim.next`), so the facts about whole runs are read off its
invariant.
-/

namespace Rtw
open ReorderBuffer
open scoped List

/-! ### `SN_LESS` -/

theorem snLess_iff {a b : Nat} : snLess a b = true ↔ Serial.Less 2048 a b := by
  have hbit : ∀ x : BitVec 32, (x &&& 0x800#32 ≠ 0#32) ↔ x.toNat / 2048 % 2 = 1 := by
    intro x
    rw [show 0x800#32 = BitVec.twoPow 32 11 from rfl, BitVec.and_twoPow, BitVec.getLsbD,
      Nat.testBit_eq_decide_div_mod_eq]
    split
    case isTrue h => exact iff_of_true (by decide) (by simpa using h)
    case isFalse h => exact iff_of_false (by simp) (by simpa using h)
  unfold snLess Serial.Less Serial.dist
  rw [bne_iff_ne, hbit, BitVec.toNat_sub, BitVec.toNat_ofNat, BitVec.toNat_ofNat]
  omega

/-- Sequence numbers of natural numbers less than 2048 apart compare as these do. -/
theorem snLess_mod {m n : Nat} (hmn : m < n + 2048) (hnm : n < m + 2048) :
    snLess (m % 4096) (n % 4096) = decide (m < n) := by
  rw [Bool.eq_iff_iff, snLess_iff, decide_eq_true_iff]
  exact (Serial.less_mod_left (H := 2048)).trans
    ((Serial.less_mod_right (H := 2048)).trans (Serial.less_iff_lt hmn hnm))

theorem mod_eq_mod {m n : Nat} (hmn : m < n + 2048) (hnm : n < m + 2048) :
    m % 4096 = n % 4096 ↔ m = n := by omega

/-! ### The functions on unwrapped numbers -/

section
variable {stop : Bool} {ctrl : RecvReorderCtrl} {next n : Nat} {f : RecvFrame} {l handed : List (Nat × RecvFrame)}

theorem checkIndicateSeq_drop (hi : ctrl.indicateSeq = next % 4096) (hn : next + 2048 ≤ n) (hlt : n < next + 4096) :
    checkIndicateSeq ctrl (n % 4096) = (false, ctrl) := by
  have hless : snLess (n % 4096) (next % 4096) = true := by
    rw [snLess_iff]
    refine (Serial.less_mod_left (H := 2048)).2 ((Serial.less_mod_right (H := 2048)).2 ?_)
    unfold Serial.Less
    rw [Serial.dist_of_le (by omega) (by omega)]; omega
  have hne : ctrl.indicateSeq ≠ 0xFFFF := by omega
  unfold checkIndicateSeq
  simp only [if_neg hne]
  rw [hi, if_pos hless, ← hi]

/-- A number in the half space ahead passes and moves the window as it should. The first number of a
session passes whatever it is. -/
theorem checkIndicateSeq_pass (hi : ctrl.indicateSeq = next % 4096 ∨ ctrl.indicateSeq = 0xFFFF ∧ n = next)
    (hW : 0 < ctrl.wsizeB) (hW' : ctrl.wsizeB ≤ 2048) (hle : next ≤ n) (hlt : n < next + 2048) :
    checkIndicateSeq ctrl (n % 4096) =
      (true, { ctrl with indicateSeq := advance ctrl.wsizeB next n % 4096 }) := by
  have hless : snLess (n % 4096) (next % 4096) = false := by
    rw [snLess_mod hlt (by omega)]; simpa using hle
  have hinit : (if ctrl.indicateSeq = 0xFFFF then n % 4096 else ctrl.indicateSeq) = next % 4096 := by
    rcases hi with hi | ⟨hi, rfl⟩
    · rw [if_neg (by omega), hi]
    · rw [if_pos hi]
  unfold checkIndicateSeq advance
  simp only [hinit, hless, Bool.false_eq_true, if_false, mod_eq_mod hlt (by omega : next < n + 2048)]
  by_cases hnn : n = next
  · rw [if_pos hnn, if_pos hnn]; congr 2; omega
  · have hi := hi.resolve_right fun h => hnn h.2
    have hwend : (ctrl.indicateSeq + ctrl.wsizeB - 1) % 4096 = (next + ctrl.wsizeB - 1) % 4096 := by omega
    rw [if_neg hnn, if_neg hnn, hwend, snLess_mod (by omega) (by omega)]
    by_cases hw : next + ctrl.wsizeB ≤ n
    · rw [if_pos hw, if_pos (by simp only [decide_eq_true_eq]; omega)]
      split <;> congr 2 <;> omega
    · rw [if_neg hw, if_neg (by simp only [decide_eq_true_eq]; omega)]

theorem enqueue_eq_place (hf : f.attrib.seqNum = n % 4096)
    (hl : ∀ x ∈ l, x.2.attrib.seqNum = x.1 % 4096 ∧ x.1 < n + 2048 ∧ n < x.1 + 2048) :
    enqueueReorderRecvframe f (l.map Prod.snd) = (place n f l).map (List.map Prod.snd) := by
  induction l with
  | nil => rfl
  | cons x l ih =>
    obtain ⟨hx, hxn, hnx⟩ := hl x (List.mem_cons_self ..)
    have hseq : x.2.attrib.seqNum = f.attrib.seqNum ↔ x.1 = n := by
      rw [← Fin.val_inj, hx, hf, mod_eq_mod hxn hnx]
    simp only [List.map_cons, enqueueReorderRecvframe, place, hx, hf, snLess_mod hxn hnx, decide_eq_true_eq, hseq,
      ih fun y hy => hl y (List.mem_cons_of_mem x hy)]
    split
    · rw [Option.map_map, Option.map_map]; rfl
    · split <;> rfl

theorem indicateLoop_eq_drain (stop : Bool) (ctrl : RecvReorderCtrl) (next : Nat) (hi : ctrl.indicateSeq = next % 4096)
    (hl : ∀ x ∈ l, x.2.attrib.seqNum = x.1 % 4096 ∧ x.1 < next + 2048 ∧ next < x.1 + 2048)
    (hs : l.Pairwise (fun x y => x.1 < y.1)) (out : List Indication) (handed : List (Nat × RecvFrame)) :
    ∃ popped, (drain next handed l).handed = handed ++ popped ∧
      indicateLoop stop ctrl out (l.map Prod.snd) =
        ⟨{ ctrl with
            indicateSeq := (drain next handed l).next % 4096
            pending := (drain next handed l).pending.map Prod.snd },
          out ++ popped.map fun x => indicateQueued stop x.2,
          !(drain next handed l).pending.isEmpty⟩ := by
  induction l generalizing next ctrl out handed with
  | nil => exact ⟨[], by simp [drain], by simp [drain, indicateLoop, ← hi]⟩
  | cons x l ih =>
    obtain ⟨hx, hxn, hnx⟩ := hl x (List.mem_cons_self ..)
    obtain ⟨hxl, hs⟩ := List.pairwise_cons.1 hs
    have hseq : next % 4096 = x.1 % 4096 ↔ x.1 = next := by rw [mod_eq_mod hnx hxn]; exact eq_comm
    rw [drain, List.map_cons, indicateLoop, hi, hx, snLess_mod hnx hxn]
    simp only [decide_eq_true_eq, hseq]
    rcases Nat.lt_trichotomy x.1 next with hlt | heq | hgt
    · obtain ⟨popped, hp, hloop⟩ := ih ctrl next hi
        (fun y hy => hl y (List.mem_cons_of_mem x hy)) hs (out ++ [indicateQueued stop x.2]) (handed ++ [x])
      rw [if_pos hlt.le, if_neg hlt.ne, if_neg hlt.not_gt, if_neg hlt.ne, hp, hloop]
      exact ⟨x :: popped, by simp, by simp⟩
    · -- the next frame in order: everything behind it is beyond the new `next` or equal to it
      obtain ⟨popped, hp, hloop⟩ := ih { ctrl with indicateSeq := (next % 4096 + 1) % 4096 }
        (next + 1) (by dsimp only; omega)
        (fun y hy => by
          have hy' := hl y (List.mem_cons_of_mem x hy)
          have := hxl y hy
          exact ⟨hy'.1, by omega, by omega⟩) hs (out ++ [indicateQueued stop x.2]) (handed ++ [x])
      rw [if_pos heq.le, if_pos heq, if_neg heq.not_gt, if_pos heq, hp, hloop]
      exact ⟨x :: popped, by simp, by simp⟩
    · rw [if_neg hgt.not_ge, if_pos hgt]
      exact ⟨[], by simp, by simp [← hi]⟩

theorem reorderRecvframe_eq_offer (stop : Bool) {b : Buf RecvFrame} (hb : b.Inv ctrl.wsizeB 2048)
    (hi : ctrl.indicateSeq = b.next % 4096 ∨ ctrl.indicateSeq = 0xFFFF ∧ n = b.next)
    (hW : 0 < ctrl.wsizeB) (hW' : ctrl.wsizeB ≤ 2048) (hp : ctrl.pending = b.pending.map Prod.snd)
    (hnum : ∀ x ∈ b.pending, x.2.attrib.seqNum = x.1 % 4096) (hf : f.attrib.seqNum = n % 4096)
    (hle : b.next ≤ n) (hlt : n < b.next + 2048) :
    ∃ popped, (b.offer ctrl.wsizeB n f).handed = b.handed ++ popped ∧
      (reorderRecvframe stop ctrl f).ctrl =
        { ctrl with
          indicateSeq := (b.offer ctrl.wsizeB n f).next % 4096
          pending := (b.offer ctrl.wsizeB n f).pending.map Prod.snd } ∧
      (reorderRecvframe stop ctrl f).out = popped.map fun x => indicateQueued stop x.2 := by
  have hadv := le_advance ctrl.wsizeB b.next n
  have hadv' : advance ctrl.wsizeB b.next n ≤ max b.next (n + 1) := advance_le hW
  have hnear : ∀ x ∈ b.pending, b.next < x.1 ∧ x.1 < b.next + ctrl.wsizeB := fun x hx =>
    ⟨hb.ahead x hx, hb.window x hx⟩
  have henq := enqueue_eq_place (l := b.pending) hf fun x hx => by
    have := hnear x hx; exact ⟨hnum x hx, by omega, by omega⟩
  unfold reorderRecvframe Buf.offer
  rw [hf, checkIndicateSeq_pass hi hW hW' hle hlt]
  simp only [hp, henq]
  cases hl : place n f b.pending with
  | none => exact ⟨[], by simp, by simp, rfl⟩
  | some l =>
    obtain ⟨popped, hpop, hloop⟩ := indicateLoop_eq_drain (l := l) stop
      { ctrl with indicateSeq := advance ctrl.wsizeB b.next n % 4096, pending := l.map Prod.snd }
      (advance ctrl.wsizeB b.next n) rfl
      (fun x hx => by
        rcases (mem_place hl).1 hx with rfl | hx
        · have : n < advance ctrl.wsizeB b.next n + ctrl.wsizeB := lt_advance_add hW
          exact ⟨hf, by omega, by omega⟩
        · have := hnear x hx; exact ⟨hnum x hx, by omega, by omega⟩)
      (hb.sorted_place hW' hle hlt hl) [] b.handed
    refine ⟨popped, hpop, ?_, ?_⟩ <;> simp [recvIndicatepktsInOrder, hloop]

theorem timeout_eq_flush {b : Buf RecvFrame} (hb : b.Inv ctrl.wsizeB 2048) (hW' : ctrl.wsizeB ≤ 2048)
    (hp : ctrl.pending = b.pending.map Prod.snd) (hne : b.pending ≠ [])
    (hnum : ∀ x ∈ b.pending, x.2.attrib.seqNum = x.1 % 4096) :
    ∃ popped, b.flush.handed = b.handed ++ popped ∧
      (rtwReorderingCtrlTimeoutHandler false ctrl).ctrl =
        { ctrl with
          indicateSeq := b.flush.next % 4096
          pending := b.flush.pending.map Prod.snd } ∧
      (rtwReorderingCtrlTimeoutHandler false ctrl).out = popped.map fun x => indicateQueued false x.2 := by
  unfold rtwReorderingCtrlTimeoutHandler recvIndicatepktsInOrder Buf.flush
  cases hl : b.pending with
  | nil => exact absurd hl hne
  | cons x l =>
    have hx : x ∈ b.pending := by rw [hl]; exact List.mem_cons_self ..
    obtain ⟨popped, hpop, hloop⟩ := indicateLoop_eq_drain (l := b.pending) false
      { ctrl with indicateSeq := x.2.attrib.seqNum } x.1 (hnum x hx)
      (fun y hy => by
        have := hb.window y hy; have := hb.ahead y hy; have := hb.ahead x hx; have := hb.window x hx
        exact ⟨hnum y hy, by omega, by omega⟩) hb.sorted [] b.handed
    simp only [hl, hp, List.map_cons] at hpop hloop ⊢
    refine ⟨popped, hpop, ?_, ?_⟩ <;> simp [hloop]

end

/-! ### Runs -/

/-- The reorder buffer of one TID together with the history of a run: how many frames have arrived,
which of them took their place in the queue, and what was done with those that left. -/
structure RxTid where
  ctrl : RecvReorderCtrl
  arrivals : Nat
  accepted : List RecvFrame
  log : List Indication

/-- What can happen to it: a frame arrives, or the timer fires. The flags say whether the driver is
stopping and whether it is in MP state. -/
inductive RxEvent where
  | recv (stop mp : Bool) (f : RecvFrame)
  | timeout (stop : Bool)

/-- The driver is not stopping. -/
def RxEvent.running : RxEvent → Bool
  | .recv stop _ _ | .timeout stop => !stop

/-- `seqNum` is one of the `wsize_b` numbers from `indicate_seq` on. -/
def RecvReorderCtrl.InWindow (ctrl : RecvReorderCtrl) (seqNum : SeqNum) : Prop :=
  ctrl.indicateSeq < 4096 ∧ ∃ k < ctrl.wsizeB, (seqNum : Nat) = (ctrl.indicateSeq + k) % 4096

/-- The pending queue is strictly increasing, has no duplicates and lies in the window. -/
structure RecvReorderCtrl.QueueOk (ctrl : RecvReorderCtrl) : Prop where
  ordered : ctrl.pending.Pairwise fun f g => snLess f.attrib.seqNum g.attrib.seqNum
  distinct : (ctrl.pending.map (·.attrib.seqNum)).Nodup
  window : ∀ f ∈ ctrl.pending, ctrl.InWindow f.attrib.seqNum

namespace RxTid

/-- The state that `rtw_alloc_stainfo` leaves behind, with a block-ack session or without. -/
def start (enable : Bool) (ampduSize : Nat) : RxTid where
  ctrl := { enable, indicateSeq := 0xFFFF, wsizeB := 64, ampduSize, pending := [] }
  arrivals := 0
  accepted := []
  log := []

def recv (s : RxTid) (stop mp : Bool) (f : RecvFrame) : RxTid :=
  let r := recvIndicatepktReorder stop mp s.ctrl f
  { ctrl := r.ctrl
    arrivals := s.arrivals + 1
    accepted := s.accepted ++ (accepted? mp s.ctrl f).toList
    log := s.log ++ r.out }

def timeout (s : RxTid) (stop : Bool) : RxTid :=
  let r := rtwReorderingCtrlTimeoutHandler stop s.ctrl
  { s with ctrl := r.ctrl, log := s.log ++ r.out }

/-- An arriving frame is known by its place in the order of arrival. -/
def next (s : RxTid) : RxEvent → RxTid
  | .recv stop mp f => s.recv stop mp { f with id := s.arrivals }
  | .timeout stop => s.timeout stop

/-- The frames handed up by `recv_indicatepkts_in_order`, in order. -/
def handed (s : RxTid) : List RecvFrame := s.log.filterMap (·.inOrder?)

/-- `b` is the reorder state with the sequence numbers unwrapped. -/
structure Sim (s : RxTid) (b : Buf RecvFrame) : Prop where
  inv : b.Inv s.ctrl.wsizeB 2048
  wsize : 0 < s.ctrl.wsizeB ∧ s.ctrl.wsizeB ≤ 2048
  seq : s.ctrl.indicateSeq = b.next % 4096 ∨ s.ctrl.indicateSeq = 0xFFFF ∧ b.handed = [] ∧ b.pending = []
  idle : s.ctrl.enable = false → b.handed = [] ∧ b.pending = []
  pending : s.ctrl.pending = b.pending.map Prod.snd
  queued : s.log.filterMap (·.queued?) = b.handed.map Prod.snd
  num : ∀ x ∈ b.handed ++ b.pending, x.2.attrib.seqNum = x.1 % 4096

namespace Sim
variable {s : RxTid} {b : Buf RecvFrame} {stop mp : Bool} {f : RecvFrame}

theorem start (enable : Bool) (ampduSize : Nat) : (RxTid.start enable ampduSize).Sim ⟨0, [], []⟩ where
  inv := .start 0
  wsize := by simp [RxTid.start]
  seq := by simp [RxTid.start]
  idle := by simp
  pending := rfl
  queued := rfl
  num := by simp

/-- Sequence number and distance of the number that an arriving frame stands for. -/
theorem unwrap (h : s.Sim b) (seqNum : SeqNum) :
    ∃ (b' : Buf RecvFrame) (n : Nat), s.Sim b' ∧ (seqNum : Nat) = n % 4096 ∧ b'.next ≤ n ∧ n < b'.next + 4096 ∧
      (s.ctrl.indicateSeq = b'.next % 4096 ∨ s.ctrl.indicateSeq = 0xFFFF ∧ n = b'.next) := by
  rcases h.seq with hs | ⟨hs, hh, hp⟩
  · refine ⟨b, Serial.unwrap 2048 b.next seqNum, h, ?_, Serial.le_unwrap, ?_, .inl hs⟩
    · exact (Serial.unwrap_mod (H := 2048) seqNum.isLt).symm
    · exact Nat.add_lt_add_left (Serial.dist_lt (H := 2048) (by omega)) _
  · -- a session that has seen no frame yet starts with this one
    refine ⟨⟨seqNum, [], []⟩, seqNum, ⟨.start _, h.wsize, .inr ⟨hs, rfl, rfl⟩, by simp, ?_, ?_, by simp⟩, ?_,
      le_rfl, by dsimp only; omega, .inr ⟨hs, rfl⟩⟩
    · rw [h.pending, hp]
    · rw [h.queued, hh]
    · omega

/-- The ghost state after some frames have left and nothing else has changed. -/
theorem log_direct (h : s.Sim b) (arrivals : Nat) (accepted : List RecvFrame) {out : List Indication}
    (hout : out.filterMap (·.queued?) = []) :
    Sim ⟨s.ctrl, arrivals, accepted, s.log ++ out⟩ b :=
  { h with queued := by rw [List.filterMap_append, hout, List.append_nil, h.queued] }

theorem reorder (h : s.Sim b) (hen : s.ctrl.enable = true) (arrivals : Nat) (accepted : List RecvFrame) :
    ∃ b', Sim ⟨(reorderRecvframe stop s.ctrl f).ctrl, arrivals, accepted,
      s.log ++ (reorderRecvframe stop s.ctrl f).out⟩ b' := by
  obtain ⟨b, n, h, hf, hle, hlt, hi⟩ := h.unwrap f.attrib.seqNum
  have hnum : ∀ x ∈ b.pending, x.2.attrib.seqNum = x.1 % 4096 := fun x hx => h.num x (List.mem_append_right _ hx)
  by_cases hfar : b.next + 2048 ≤ n
  · refine ⟨b, ?_⟩
    have hi := hi.resolve_right fun hi => by omega
    unfold reorderRecvframe
    rw [hf, checkIndicateSeq_drop hi hfar hlt]
    exact h.log_direct _ _ rfl
  · obtain ⟨popped, hpop, hctrl, hout⟩ := reorderRecvframe_eq_offer stop h.inv hi h.wsize.1 h.wsize.2
      h.pending hnum hf hle (by omega)
    refine ⟨b.offer s.ctrl.wsizeB n f, ?_, ?_, ?_, ?_, ?_, ?_, ?_⟩
    · rw [hctrl]; exact h.inv.offer h.wsize.1 h.wsize.2 hle (by omega)
    · rw [hctrl]; exact h.wsize
    · rw [hctrl]; exact .inl rfl
    · rw [hctrl]; intro he; rw [hen] at he; cases he
    · rw [hctrl]
    · rw [hout, hpop, List.filterMap_append, h.queued, List.filterMap_map, List.map_append]
      simp [indicateQueued_queued]
    · intro x hx
      rcases Buf.mem_offer hx with rfl | hx
      · exact hf
      · exact h.num x hx

theorem direct (h : s.Sim b) (hen : s.ctrl.enable = false) (arrivals : Nat) (accepted : List RecvFrame) :
    ∃ b', Sim ⟨(indicateDirect s.ctrl f).ctrl, arrivals, accepted, s.log ++ (indicateDirect s.ctrl f).out⟩ b' := by
  obtain ⟨hh, hp⟩ := h.idle hen
  refine ⟨⟨f.attrib.seqNum + 1, [], []⟩, .start _, h.wsize, .inl rfl, by simp, ?_, ?_, by simp⟩
  · exact h.pending.trans (by rw [hp])
  · rw [List.filterMap_append, h.queued, hh]; rfl

theorem recv (h : s.Sim b) : ∃ b', (s.recv stop mp f).Sim b' := by
  dsimp only [RxTid.recv]
  unfold recvIndicatepktReorder
  have hpast : ∀ g arrivals accepted, ∃ b', Sim ⟨(if !s.ctrl.enable then indicateDirect s.ctrl g else
      reorderRecvframe stop s.ctrl g).ctrl, arrivals, accepted,
      s.log ++ (if !s.ctrl.enable then indicateDirect s.ctrl g else
        reorderRecvframe stop s.ctrl g).out⟩ b' := by
    intro g arrivals accepted
    cases hen : s.ctrl.enable with
    | false => exact h.direct hen _ _
    | true => exact h.reorder hen _ _
  split
  · cases wlanhdrToEthhdr mp f with
    | none => exact ⟨b, h.log_direct _ _ rfl⟩
    | some g =>
      dsimp only
      split
      · split <;> exact ⟨b, h.log_direct _ _ rfl⟩
      · exact hpast g _ _
  · exact hpast f _ _

theorem timeout (h : s.Sim b) : ∃ b', (s.timeout stop).Sim b' := by
  dsimp only [RxTid.timeout]
  cases hp : b.pending with
  | nil =>
    have hc : s.ctrl.pending = [] := by rw [h.pending, hp]; rfl
    refine ⟨b, ?_⟩
    cases stop <;> simpa [rtwReorderingCtrlTimeoutHandler, recvIndicatepktsInOrder, hc] using h
  | cons x l =>
    cases stop with
    | true => exact ⟨b, by simpa [rtwReorderingCtrlTimeoutHandler] using h⟩
    | false =>
      obtain ⟨popped, hpop, hctrl, hout⟩ := timeout_eq_flush h.inv h.wsize.2 h.pending (by simp [hp])
        (fun x hx => h.num x (List.mem_append_right _ hx))
      refine ⟨b.flush, ?_, ?_, ?_, ?_, ?_, ?_, ?_⟩
      · rw [hctrl]; exact h.inv.flush
      · rw [hctrl]; exact h.wsize
      · rw [hctrl]; exact .inl rfl
      · intro he; rw [hctrl] at he; have := (h.idle he).2; rw [hp] at this; cases this
      · rw [hctrl]
      · rw [hout, hpop, List.filterMap_append, h.queued, List.filterMap_map, List.map_append]
        simp [indicateQueued_queued]
      · rw [Buf.flush_append]; exact h.num

/-- Every step of the driver is a step of the unwrapped buffer. -/
theorem next (h : s.Sim b) (e : RxEvent) : ∃ b', (s.next e).Sim b' := by
  cases e with
  | recv stop mp f => exact h.recv
  | timeout stop => exact h.timeout

end Sim

/-! ### What a run keeps -/

theorem exists_sim (enable : Bool) (ampduSize : Nat) (evs : List RxEvent) :
    ∃ b, (Machine.run next (start enable ampduSize) evs).Sim b :=
  Machine.run_invariant (I := fun s : RxTid => ∃ b, s.Sim b) (fun _ e ⟨_, h⟩ => h.next e) ⟨_, .start enable ampduSize⟩ evs

/-- Accepted frames are in the queue or have left it, each once. -/
structure Conserved (s : RxTid) : Prop where
  perm : (s.log.filterMap (·.queued?) ++ s.ctrl.pending).Perm s.accepted
  old : ∀ f ∈ s.accepted, f.id < s.arrivals
  distinct : (s.accepted.map (·.id)).Nodup

/-- What came out of the queue and what is still in it. -/
theorem queued_flow {out : List Indication} {l l' : List RecvFrame} {stop : Bool}
    (h : out ++ l'.map (indicateQueued stop) = l.map (indicateQueued stop)) :
    out.filterMap (·.queued?) ++ l' = l := by
  have := congrArg (List.filterMap (·.queued?)) h
  simpa [List.filterMap_append, List.filterMap_map, Function.comp_def, indicateQueued_queued] using this

namespace Conserved
variable {s : RxTid}

theorem start (enable : Bool) (ampduSize : Nat) : (RxTid.start enable ampduSize).Conserved :=
  ⟨.nil, by simp [RxTid.start], by simp [RxTid.start]⟩

theorem timeout (h : s.Conserved) (stop : Bool) : (s.timeout stop).Conserved := by
  refine ⟨?_, h.old, h.distinct⟩
  dsimp only [RxTid.timeout]
  rw [List.filterMap_append, List.append_assoc, queued_flow timeout_flow]; exact h.perm

theorem arrive (h : s.Conserved) (ctrl : RecvReorderCtrl) (out : List Indication)
    (hout : out.filterMap (·.queued?) = []) (hp : ctrl.pending = s.ctrl.pending) :
    Conserved ⟨ctrl, s.arrivals + 1, s.accepted, s.log ++ out⟩ := by
  refine ⟨?_, fun g hg => Nat.lt_succ_of_lt (h.old g hg), h.distinct⟩
  dsimp only
  rw [List.filterMap_append, hout, List.append_nil, hp]; exact h.perm

theorem recv (h : s.Conserved) (stop mp : Bool) {f : RecvFrame} (hf : f.id = s.arrivals) :
    (s.recv stop mp f).Conserved := by
  rcases recvIndicatepktReorder_cases stop mp s.ctrl f with
    ⟨g, -, hacc, -, hout, hp⟩ | ⟨-, hacc, hout, hp⟩ | ⟨g, l, hacc, hid, hl, hflow⟩
  · have := h.arrive (recvIndicatepktReorder stop mp s.ctrl f).ctrl [.direct g] rfl hp
    simpa [RxTid.recv, hacc, hout] using this
  · have := h.arrive (recvIndicatepktReorder stop mp s.ctrl f).ctrl [] rfl hp
    simpa [RxTid.recv, hacc, hout] using this
  · have hg : g.id = s.arrivals := hid.trans hf
    refine ⟨?_, fun x hx => ?_, ?_⟩ <;> dsimp only [RxTid.recv] at * <;> rw [hacc] at *
    · calc (s.log ++ (recvIndicatepktReorder stop mp s.ctrl f).out).filterMap (·.queued?) ++
            (recvIndicatepktReorder stop mp s.ctrl f).ctrl.pending
        _ = s.log.filterMap (·.queued?) ++ l := by
          rw [List.filterMap_append, List.append_assoc, queued_flow hflow]
        _ ~ s.log.filterMap (·.queued?) ++ (g :: s.ctrl.pending) := (enqueue_perm hl).append_left _
        _ ~ g :: (s.log.filterMap (·.queued?) ++ s.ctrl.pending) := List.perm_middle
        _ ~ g :: s.accepted := h.perm.cons g
        _ ~ s.accepted ++ [g] := (List.perm_append_singleton ..).symm
    · rcases List.mem_append.1 hx with hx | hx
      · exact Nat.lt_succ_of_lt (h.old x hx)
      · rw [List.mem_singleton.1 hx, hg]; exact Nat.lt_succ_self _
    · rw [Option.toList_some, List.map_append, List.map_singleton, hg]
      refine List.nodup_append.2 ⟨h.distinct, by simp, fun a ha b hb hab => ?_⟩
      obtain ⟨x, hx, rfl⟩ := List.mem_map.1 ha
      have := h.old x hx
      rw [List.mem_singleton.1 hb] at hab; omega

theorem next (h : s.Conserved) (e : RxEvent) : (s.next e).Conserved := by
  cases e with
  | recv stop mp f => exact h.recv stop mp rfl
  | timeout stop => exact h.timeout stop

end Conserved

/-- In a run without driver stop everything that left the queue was handed up. -/
def NoneStopped (s : RxTid) : Prop := ∀ x ∈ s.log, x.queued? = x.inOrder?

namespace NoneStopped
variable {s : RxTid}

theorem start (enable : Bool) (ampduSize : Nat) : (RxTid.start enable ampduSize).NoneStopped := by
  simp [NoneStopped, RxTid.start]

theorem handed_eq (h : s.NoneStopped) : s.handed = s.log.filterMap (·.queued?) :=
  List.filterMap_congr fun x hx => (h x hx).symm

theorem of_flow {out : List Indication} {l l' : List RecvFrame}
    (h : out ++ l'.map (indicateQueued false) = l.map (indicateQueued false)) :
    ∀ x ∈ out, x.queued? = x.inOrder? := by
  intro x hx
  have hx : x ∈ l.map (indicateQueued false) := h ▸ List.mem_append_left _ hx
  obtain ⟨f, -, rfl⟩ := List.mem_map.1 hx
  simp [indicateQueued, Indication.queued?, Indication.inOrder?]

theorem timeout (h : s.NoneStopped) : (s.timeout false).NoneStopped := fun x hx =>
  (List.mem_append.1 hx).elim (h x) (of_flow timeout_flow x)

theorem recv (h : s.NoneStopped) (mp : Bool) (f : RecvFrame) : (s.recv false mp f).NoneStopped := fun x hx => by
  refine (List.mem_append.1 hx).elim (h x) fun hx => ?_
  rcases recvIndicatepktReorder_cases false mp s.ctrl f with
    ⟨g, -, -, -, hout, -⟩ | ⟨-, -, hout, -⟩ | ⟨g, l, -, -, -, hflow⟩
  · rw [hout] at hx; rw [List.mem_singleton.1 hx]; rfl
  · rw [hout] at hx; cases hx
  · exact of_flow hflow x hx

theorem next {e : RxEvent} (h : s.NoneStopped) (he : e.running) : (s.next e).NoneStopped := by
  cases e with
  | recv stop mp f =>
    cases stop
    · exact h.recv mp _
    · cases he
  | timeout stop =>
    cases stop
    · exact h.timeout
    · cases he

end NoneStopped

/-! ### The pending queue lies ordered in the window -/

namespace Sim
variable {s : RxTid} {b : Buf RecvFrame}

theorem queueOk (h : s.Sim b) : s.ctrl.QueueOk := by
  have hnum : ∀ x ∈ b.pending, x.2.attrib.seqNum = x.1 % 4096 := fun x hx => h.num x (List.mem_append_right _ hx)
  have hnear : ∀ x ∈ b.pending, b.next < x.1 ∧ x.1 < b.next + s.ctrl.wsizeB := fun x hx =>
    ⟨h.inv.ahead x hx, h.inv.window x hx⟩
  have hW := h.wsize.2
  refine ⟨?_, ?_, ?_⟩
  · rw [h.pending, List.pairwise_map]
    refine h.inv.sorted.imp_of_mem fun {x y} hx hy hxy => ?_
    have := hnear x hx; have := hnear y hy
    rw [hnum x hx, hnum y hy, snLess_mod (by omega) (by omega)]
    simpa using hxy
  · rw [h.pending, List.map_map, List.Nodup, List.pairwise_map]
    refine h.inv.sorted.imp_of_mem fun {x y} hx hy hxy heq => ?_
    have := hnear x hx; have := hnear y hy
    have heq : x.1 % 4096 = y.1 % 4096 := by rw [← hnum x hx, ← hnum y hy]; exact congrArg Fin.val heq
    rw [mod_eq_mod (by omega) (by omega)] at heq
    omega
  · intro f hf
    rw [h.pending] at hf
    obtain ⟨x, hx, rfl⟩ := List.mem_map.1 hf
    have := hnear x hx
    rcases h.seq with hs | ⟨-, -, hnil⟩
    · refine ⟨by omega, x.1 - b.next, by omega, ?_⟩
      rw [hnum x hx, hs]; omega
    · rw [hnil] at hx; cases hx

/-- Consecutive frames that left the queue are in `SN_LESS` order. -/
theorem queued_chain (h : s.Sim b) :
    (s.log.filterMap (·.queued?)).IsChain fun f g => snLess f.attrib.seqNum g.attrib.seqNum := by
  rw [h.queued, List.isChain_map]
  refine (List.isChain_append.1 h.inv.chain).1.imp_of_mem_imp fun x y hx hy hxy => ?_
  rw [h.num x (List.mem_append_left _ hx), h.num y (List.mem_append_left _ hy), snLess_iff]
  exact (Serial.less_mod_left (H := 2048)).2 ((Serial.less_mod_right (H := 2048)).2
    (Serial.less_of_lt hxy.1 hxy.2))

end Sim

/-- In every state of every run the pending queue is strictly increasing in `SN_LESS` order, without
duplicates, inside the window. -/
theorem queueOk_run (enable : Bool) (ampduSize : Nat) (evs : List RxEvent) :
    (Machine.run next (start enable ampduSize) evs).ctrl.QueueOk :=
  let ⟨_, h⟩ := exists_sim enable ampduSize evs
  h.queueOk

/-! ### Frames are handed up in order, none lost and none twice -/

theorem reorder_conserved_run (enable : Bool) (ampduSize : Nat) (evs : List RxEvent) :
    (Machine.run next (start enable ampduSize) evs).Conserved :=
  Machine.run_invariant (fun _ e h => h.next e) (.start enable ampduSize) evs

/-- In a run without driver stop each frame that passed `check_indicate_seq` and
`enqueue_reorder_recvframe` is pending or has been handed up, once, and every frame handed up has a
sequence number before that of the next one. -/
theorem handed_in_order (enable : Bool) (ampduSize : Nat) (evs : List RxEvent) (h : ∀ e ∈ evs, e.running) :
    let s := Machine.run next (start enable ampduSize) evs
    (s.handed.IsChain fun f g => snLess f.attrib.seqNum g.attrib.seqNum) ∧
      (s.handed ++ s.ctrl.pending).Perm s.accepted ∧ (s.accepted.map (·.id)).Nodup := by
  intro s
  have hstep : ∀ (s : RxTid) (e : RxEvent), s.NoneStopped → e.running → (s.next e).NoneStopped :=
    fun _ _ hs he => hs.next he
  have hlog : s.NoneStopped :=
    Machine.run_invariant_of_ok hstep (.start enable ampduSize) (Machine.runOk_of_forall h)
  obtain ⟨b, hsim⟩ := exists_sim enable ampduSize evs
  have hcons := reorder_conserved_run enable ampduSize evs
  rw [hlog.handed_eq]
  exact ⟨hsim.queued_chain, hcons.perm, hcons.distinct⟩

/-- A QoS data frame with an empty LLC header and four bytes of payload. -/
def qosFrame (seqNum : SeqNum) : RecvFrame where
  id := 0
  attrib :=
    { hdrlen := 26, toFrDs := 2, amsdu := false, qos := true, priority := 0, seqNum, fragNum := 0
      mfrag := false, privacy := false, bdecrypted := false, encrypt := .noPrivacy, ivLen := 0, icvLen := 0
      ethType := 0, dst := .replicate 6 0, src := .replicate 6 2, ta := .replicate 6 4, ra := .replicate 6 0
      bssid := .replicate 6 4 }
  head := []
  data := List.replicate 38 0
  slack := []

/-- 4095 and 1 arrive, 1 waits for 0 until the timer fires; 0 comes too late. -/
theorem handed_in_order_wrap :
    let s := Machine.run next (start true 64)
      [.recv false false (qosFrame 4095), .recv false false (qosFrame 1), .timeout false,
        .recv false false (qosFrame 0)]
    s.handed.map (·.attrib.seqNum) = [4095, 1] ∧
      (s.handed.IsChain fun f g => snLess f.attrib.seqNum g.attrib.seqNum) ∧
      (s.handed ++ s.ctrl.pending).Perm s.accepted ∧ (s.accepted.map (·.id)).Nodup :=
  ⟨by decide, handed_in_order true 64 _ (by decide)⟩

end RxTid

end Rtw
