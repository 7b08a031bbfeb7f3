import Mathlib.Data.Fintype.Sigma
import Mathlib.Data.Fintype.Sum
import Rtw.Lib.Places
import Rtw.Lib.Run
import Rtw.Usb.TxPool
import Rtw.Usb.XmitLayout

/-!
# No transmit frame, buffer or packet is lost or used twice

`Held s h`: the counts of the free queues are right, and all frames, buffers and packets are spread over the
queues, the calls and the transfers, but for `h`, which the running step has in its hands. Each function has one
rule that says what it does to `h`. Only `rtw_dump_xframe` breaks it: it gives one buffer to the USB core once
for each fragment, whether or not the core still has it (`TxPool.conserved_run_iff`).
-/

namespace Rtw.Usb
open Places

inductive TxObj where
  | frame (id : Nat)
  | buf (b : Nat)
  | pkt (n : Nat)
  deriving DecidableEq

inductive TxPlace where
  | freeXmitQueue
  | freeXmitbufQueue
  | pending (servq : TxServq)
  | sleepQ (i : StaId)
  | call
  | transfer
  | rejected
  | completed
  deriving DecidableEq, Fintype

namespace PoolFrame

def pktObjs (f : PoolFrame) : Multiset TxObj := ↑(f.pkt.toList.map TxObj.pkt)

/-- The frame, and the packet that it has to complete. -/
def objs (f : PoolFrame) : Multiset TxObj := .frame f.id ::ₘ f.pktObjs

end PoolFrame

/-- What a call has in its hands: the buffer of `rtw_dump_xframe` until it is written. -/
def TxCall.objs : TxCall → Multiset TxObj
  | .attrib id pkt => .frame id ::ₘ {.pkt pkt}
  | .sleeping f | .preXmit f | .last f => f.objs
  | .direct b f | .first b f | .agg b f _ | .write b f => .buf b ::ₘ f.objs
  | .dump b f _ written => if written then f.objs else .buf b ::ₘ f.objs
  | .pick b => {.buf b}
  | .behind b f _ g => g.objs + .buf b ::ₘ f.objs

namespace TxPool

/-- What is at a place. -/
def place (s : TxPool) : TxPlace → Multiset TxObj
  | .freeXmitQueue => ↑(s.freeXmitQueue.map TxObj.frame)
  | .freeXmitbufQueue => ↑(s.freeXmitbufQueue.map TxObj.buf)
  | .pending servq => ((s.pending servq).map PoolFrame.objs).sum
  | .sleepQ i => ((s.sleepQ i).map PoolFrame.objs).sum
  | .call => (s.calls.map TxCall.objs).sum
  | .transfer => ↑(s.transfers.map TxObj.buf)
  | .rejected => ↑(s.rejected.map TxObj.pkt)
  | .completed => ↑(s.completed.map TxObj.pkt)

/-- The data pools, and the packets of all calls of `rtw_xmit`. -/
def univ (pkts : Nat) : Multiset TxObj :=
  ↑((List.range nrXmitframe).map TxObj.frame ++ (List.range nrXmitbuff).map TxObj.buf ++
    (List.range pkts).map TxObj.pkt)

theorem univ_nodup (pkts : Nat) : (univ pkts).Nodup := by
  have hmap : ∀ {f : Nat → TxObj}, Function.Injective f → ∀ n, ((List.range n).map f).Nodup := fun hf n =>
    List.nodup_range.map hf
  refine Multiset.coe_nodup.2 (List.Nodup.append (List.Nodup.append (hmap ?_ _) (hmap ?_ _) ?_) (hmap ?_ _) ?_)
  · exact fun _ _ h => TxObj.frame.inj h
  · exact fun _ _ h => TxObj.buf.inj h
  · simp [List.disjoint_left]
  · exact fun _ _ h => TxObj.pkt.inj h
  · intro a ha hp
    obtain ⟨n, -, rfl⟩ := List.mem_map.1 hp
    simp at ha

/-- Every frame, buffer and packet is in exactly one place, there once (`Places.Spread.existsUnique`,
`Places.Spread.nodup`), and the counts of the free queues are right. As `rtw_free_xmitframe` and
`rtw_free_xmitbuf` always count, they are not right any more when something is freed that is free. -/
structure Conserved (s : TxPool) : Prop where
  spread : Places.Spread (univ s.pkts) s.place
  frameCnt : s.freeXmitframeCnt = s.freeXmitQueue.length
  bufCnt : s.freeXmitbufCnt = s.freeXmitbufQueue.length

/-- The same in the middle of a step, with `h` in its hands. -/
structure Held (s : TxPool) (h : Multiset TxObj) : Prop where
  spread : SpreadBut (univ s.pkts) s.place h
  frameCnt : s.freeXmitframeCnt = s.freeXmitQueue.length
  bufCnt : s.freeXmitbufCnt = s.freeXmitbufQueue.length

theorem held_zero {s : TxPool} : s.Held 0 ↔ s.Conserved :=
  ⟨fun h => ⟨spreadBut_zero.1 h.spread, h.frameCnt, h.bufCnt⟩,
    fun h => ⟨spreadBut_zero.2 h.spread, h.frameCnt, h.bufCnt⟩⟩

variable {s s' : TxPool} {h : Multiset TxObj} {f : PoolFrame} {fs : List PoolFrame} {c : TxCall} {b id k : Nat}
  {servq : TxServq} {i : StaId} {env : TxEnv}

namespace Held

theorem setStaQueue (hs : s.Held h) (ac : Ac) (l : List StaId) : (s.setStaQueue ac l).Held h :=
  ⟨hs.spread.congr fun p => by cases p <;> rfl, hs.frameCnt, hs.bufCnt⟩

theorem unlink (hs : s.Held h) (servq : TxServq) : (s.unlink servq).Held h := hs.setStaQueue ..

theorem call (hs : s.Held (c.objs + h)) : (s.call c).Held h :=
  ⟨hs.spread.put (q := .call) (by simp [place, TxPool.call]) fun p hp => by cases p <;> first | rfl | exact absurd rfl hp,
    hs.frameCnt, hs.bufCnt⟩

/-- `rtw_free_xmitframe` gets the frame back on the free queue, where it is not yet. -/
theorem freeFrame (hs : s.Held (.frame id ::ₘ h)) : (s.freeFrame id).Held h := by
  have hfree : id ∉ s.freeXmitQueue := fun hm =>
    hs.spread.notMem (univ_nodup _) (Multiset.mem_cons_self ..) .freeXmitQueue (List.mem_map_of_mem hm)
  have hkeep : s.freeXmitQueue.filter (· ≠ id) = s.freeXmitQueue :=
    List.filter_eq_self.2 fun a ha => decide_eq_true fun he => hfree (he ▸ ha)
  have hqueue : (s.freeFrame id).freeXmitQueue = s.freeXmitQueue ++ [id] := by rw [TxPool.freeFrame, hkeep]
  refine ⟨hs.spread.put (A := {.frame id}) (q := .freeXmitQueue) ?_ fun p hp => ?_, ?_, hs.bufCnt⟩
  · rw [place, hqueue, List.map_append, ← Multiset.coe_add, add_comm]
    rfl
  · cases p <;> first | rfl | exact absurd rfl hp
  · rw [hqueue, List.length_append]
    exact congrArg (· + 1) hs.frameCnt

theorem rtwFreeXmitbuf (hs : s.Held (.buf b ::ₘ h)) : (s.rtwFreeXmitbuf b).Held h := by
  have hfree : b ∉ s.freeXmitbufQueue := fun hm =>
    hs.spread.notMem (univ_nodup _) (Multiset.mem_cons_self ..) .freeXmitbufQueue (List.mem_map_of_mem hm)
  have hkeep : s.freeXmitbufQueue.filter (· ≠ b) = s.freeXmitbufQueue :=
    List.filter_eq_self.2 fun a ha => decide_eq_true fun he => hfree (he ▸ ha)
  have hqueue : (s.rtwFreeXmitbuf b).freeXmitbufQueue = s.freeXmitbufQueue ++ [b] := by
    rw [TxPool.rtwFreeXmitbuf, hkeep]
  refine ⟨hs.spread.put (A := {.buf b}) (q := .freeXmitbufQueue) ?_ fun p hp => ?_, hs.frameCnt, ?_⟩
  · rw [place, hqueue, List.map_append, ← Multiset.coe_add, add_comm]
    rfl
  · cases p <;> first | rfl | exact absurd rfl hp
  · rw [hqueue, List.length_append]
    exact congrArg (· + 1) hs.bufCnt

theorem osXmitComplete (hs : s.Held (f.pktObjs + h)) : (s.osXmitComplete f).Held h := by
  refine ⟨hs.spread.put (q := .completed) ?_ fun p hp => ?_, hs.frameCnt, hs.bufCnt⟩
  · simp [place, TxPool.osXmitComplete, PoolFrame.pktObjs]
  · cases p <;> first | rfl | exact absurd rfl hp

theorem rtwFreeXmitframe (hs : s.Held (f.objs + h)) : (s.rtwFreeXmitframe f).Held h := by
  rw [PoolFrame.objs, Multiset.cons_add] at hs
  exact hs.freeFrame.osXmitComplete

/-- The packet is completed, and the frame stays in the hands of the step. -/
theorem complete (hs : s.Held (f.objs + h)) : (s.osXmitComplete f).Held (PoolFrame.objs { f with pkt := none } + h) := by
  have hobjs : PoolFrame.objs { f with pkt := none } = {.frame f.id} := rfl
  rw [PoolFrame.objs, Multiset.cons_add, ← Multiset.add_cons] at hs
  rw [hobjs, Multiset.singleton_add]
  exact hs.osXmitComplete

theorem reject {n : Nat} (hs : s.Held (.pkt n ::ₘ h)) : { s with rejected := n :: s.rejected }.Held h :=
  ⟨hs.spread.put (A := {.pkt n}) (q := .rejected) rfl fun p hp => by cases p <;> first | rfl | exact absurd rfl hp,
    hs.frameCnt, hs.bufCnt⟩

theorem rtwAllocXmitframe (ha : s.rtwAllocXmitframe = some (id, s')) (hs : s.Held h) : s'.Held (.frame id ::ₘ h) := by
  unfold TxPool.rtwAllocXmitframe at ha
  split at ha
  · cases ha
  · rename_i l hl
    cases ha
    refine ⟨hs.spread.take (A := {.frame id}) (q := .freeXmitQueue) ?_ fun p hp => ?_, ?_, hs.bufCnt⟩
    · simp [place, hl]
    · cases p <;> first | rfl | exact absurd rfl hp
    · have hcnt := hs.frameCnt
      rw [hl, List.length_cons] at hcnt
      show s.freeXmitframeCnt - 1 = (l.length : Int)
      omega

theorem rtwAllocXmitbuf (ha : s.rtwAllocXmitbuf = some (b, s')) (hs : s.Held h) : s'.Held (.buf b ::ₘ h) := by
  unfold TxPool.rtwAllocXmitbuf at ha
  split at ha
  · cases ha
  · rename_i l hl
    cases ha
    refine ⟨hs.spread.take (A := {.buf b}) (q := .freeXmitbufQueue) ?_ fun p hp => ?_, hs.frameCnt, ?_⟩
    · simp [place, hl]
    · cases p <;> first | rfl | exact absurd rfl hp
    · have hcnt := hs.bufCnt
      rw [hl, List.length_cons] at hcnt
      show s.freeXmitbufCnt - 1 = (l.length : Int)
      omega

end Held

theorem place_setPending_self : (s.setPending servq fs).place (.pending servq) = (fs.map PoolFrame.objs).sum := by
  simp [place, setPending]

theorem place_setPending_of_ne {p : TxPlace} (hp : p ≠ .pending servq) :
    (s.setPending servq fs).place p = s.place p := by
  cases p with
  | pending q =>
    have hq : q ≠ servq := fun he => hp (congrArg TxPlace.pending he)
    simp only [place, setPending, Function.update_of_ne hq]
  | _ => rfl

theorem place_setSleepQ_self : (s.setSleepQ i fs).place (.sleepQ i) = (fs.map PoolFrame.objs).sum := by
  simp [place, setSleepQ]

theorem place_setSleepQ_of_ne {p : TxPlace} (hp : p ≠ .sleepQ i) : (s.setSleepQ i fs).place p = s.place p := by
  cases p with
  | sleepQ j =>
    have hj : j ≠ i := fun he => hp (congrArg TxPlace.sleepQ he)
    simp only [place, setSleepQ, Function.update_of_ne hj]
  | _ => rfl

theorem sum_objs_perm {l l' : List PoolFrame} (hl : l.Perm l') :
    (l.map PoolFrame.objs).sum = (l'.map PoolFrame.objs).sum :=
  (hl.map _).sum_eq

namespace Held

theorem pushPending (hs : s.Held (f.objs + h)) : (s.setPending servq (s.pending servq ++ [f])).Held h := by
  refine ⟨hs.spread.put (q := .pending servq) ?_ fun p hp => place_setPending_of_ne hp, hs.frameCnt, hs.bufCnt⟩
  rw [place_setPending_self, sum_objs_perm List.perm_append_comm]
  rfl

theorem takePending (hp : (s.pending servq).Perm (f :: fs)) (hs : s.Held h) :
    (s.setPending servq fs).Held (f.objs + h) := by
  refine ⟨hs.spread.take (q := .pending servq) ?_ fun p hp => place_setPending_of_ne hp, hs.frameCnt, hs.bufCnt⟩
  rw [place_setPending_self]
  exact sum_objs_perm hp

theorem pushSleepQ (hs : s.Held (f.objs + h)) : (s.setSleepQ i (s.sleepQ i ++ [f])).Held h := by
  refine ⟨hs.spread.put (q := .sleepQ i) ?_ fun p hp => place_setSleepQ_of_ne hp, hs.frameCnt, hs.bufCnt⟩
  rw [place_setSleepQ_self, sum_objs_perm List.perm_append_comm]
  rfl

theorem takeSleepQ (hp : (s.sleepQ i).Perm (f :: fs)) (hs : s.Held h) : (s.setSleepQ i fs).Held (f.objs + h) := by
  refine ⟨hs.spread.take (q := .sleepQ i) ?_ fun p hp => place_setSleepQ_of_ne hp, hs.frameCnt, hs.bufCnt⟩
  rw [place_setSleepQ_self]
  exact sum_objs_perm hp

theorem enqueue (hs : s.Held (f.objs + h)) (classified : Bool) : (s.enqueue f classified).Held h := by
  rw [TxPool.enqueue]
  split
  · rw [rtwXmitClassifier]
    split
    · exact hs.pushPending
    · exact (hs.setStaQueue ..).pushPending
  · exact hs.rtwFreeXmitframe

theorem rtwWritePort (hs : s.Held (.buf b ::ₘ h)) (submitted : Bool) : (s.rtwWritePort b submitted).Held h := by
  rw [TxPool.rtwWritePort]
  split
  · exact ⟨hs.spread.put (A := {.buf b}) (q := .transfer) rfl
      fun p hp => by cases p <;> first | rfl | exact absurd rfl hp, hs.frameCnt, hs.bufCnt⟩
  · exact hs.rtwFreeXmitbuf

theorem dequeueServq (hd : s.dequeueServq servq = some (f, s')) (hs : s.Held h) : s'.Held (f.objs + h) := by
  unfold TxPool.dequeueServq at hd
  split at hd
  · cases hd
  · rename_i g gs hp
    cases hd
    have htake := hs.takePending (List.Perm.of_eq hp)
    split
    · exact htake.unlink _
    · exact htake

theorem rtwDequeueXframe (hd : s.rtwDequeueXframe env = some (f, s')) (hs : s.Held h) : s'.Held (f.objs + h) := by
  obtain ⟨ac, -, hd⟩ := List.exists_of_findSome?_eq_some hd
  obtain ⟨i, -, hd⟩ := List.exists_of_findSome?_eq_some hd
  exact hs.dequeueServq hd

theorem rearrange (hs : s.Held h) (servq : TxServq) : (s.rearrange servq).Held h := by
  rw [TxPool.rearrange]
  split_ifs
  · exact hs.unlink _
  · exact hs
  · exact (hs.unlink _).setStaQueue ..

theorem aggStart (hs : s.Held (.buf b ::ₘ (f.objs + h))) : (s.aggStart env b f).Held h := by
  rw [← Multiset.cons_add] at hs
  rw [TxPool.aggStart]
  split
  · exact hs.call (c := .write b f)
  · exact hs.call (c := .agg b f _)

theorem aggEnd (hs : s.Held (.buf b ::ₘ (f.objs + h))) : ((s.rearrange f.servq).call (.write b f)).Held h := by
  rw [← Multiset.cons_add] at hs
  exact (hs.rearrange _).call (c := .write b f)

theorem aggNext {v : AggVars} (hs : s.Held (.buf b ::ₘ (f.objs + h))) : (s.aggNext env b f v).Held h := by
  unfold TxPool.aggNext
  split
  · exact hs.aggEnd
  · rename_i g gs hp
    dsimp only
    split
    · exact hs.aggEnd
    · have htake := hs.takePending (List.Perm.of_eq hp)
      rw [← Multiset.cons_add, ← add_assoc] at htake
      exact htake.call (c := .behind b f v g)

theorem aggPut {v : AggVars} {g : PoolFrame} (hs : s.Held (.buf b ::ₘ (f.objs + h))) :
    (s.aggPut env b f v g).Held h := by
  rw [TxPool.aggPut]
  split
  · exact hs.aggEnd
  · split
    · exact hs.aggEnd
    · rw [← Multiset.cons_add] at hs
      exact hs.call (c := .agg b f _)

/-- A call goes on. `rtw_dump_xframe` keeps to the rule if it writes its buffer once. -/
theorem step {a : TxAnswer} (hs : s.Held (c.objs + h))
    (hok : ∀ b f n written, c = .dump b f n written → written = decide (n = 0)) : (s.step env a c).Held h := by
  cases c with
  | attrib id pkt =>
    simp only [TxCall.objs, Multiset.cons_add, Multiset.singleton_add] at hs
    unfold TxPool.step
    dsimp only
    split
    · exact hs.freeFrame.reject
    · refine Held.call (c := .sleeping _) ?_
      simpa [TxCall.objs, PoolFrame.objs, PoolFrame.pktObjs] using hs
  | sleeping f =>
    unfold TxPool.step
    dsimp only
    split
    · exact hs.pushSleepQ
    · exact hs.call (c := .preXmit f)
  | preXmit f =>
    unfold TxPool.step
    dsimp only
    split
    · cases hb : s.rtwAllocXmitbuf with
      | none => exact hs.enqueue _
      | some r =>
        have halloc := hs.rtwAllocXmitbuf hb
        rw [← Multiset.cons_add] at halloc
        exact halloc.call (c := .direct r.1 f)
    · exact hs.enqueue _
  | direct b f =>
    unfold TxPool.step
    dsimp only
    split
    · exact hs.call (c := .dump b f _ false)
    · rw [TxCall.objs, Multiset.cons_add] at hs
      exact hs.rtwFreeXmitbuf.rtwFreeXmitframe
  | dump b f n written =>
    obtain rfl := hok b f n written rfl
    cases n with
    | zero => exact hs.rtwFreeXmitframe
    | succ n =>
      unfold TxPool.step
      dsimp only
      rw [TxCall.objs, if_neg (by simp), Multiset.cons_add] at hs
      exact (hs.rtwWritePort _).call (c := .dump b f n true)
  | pick b =>
    rw [TxCall.objs, Multiset.singleton_add] at hs
    unfold TxPool.step
    dsimp only
    cases hd : s.rtwDequeueXframe env with
    | none => exact hs.rtwFreeXmitbuf
    | some r =>
      have hdeq := hs.rtwDequeueXframe hd
      rw [Multiset.add_cons, ← Multiset.cons_add] at hdeq
      exact hdeq.call (c := .first b r.1)
  | first b f =>
    rw [TxCall.objs, Multiset.cons_add] at hs
    unfold TxPool.step
    dsimp only
    split
    · rw [← Multiset.add_cons] at hs
      have hcomplete := hs.complete
      rw [Multiset.add_cons] at hcomplete
      exact hcomplete.aggStart
    · rw [← Multiset.add_cons] at hs
      exact hs.rtwFreeXmitframe.call (c := .pick b)
  | agg b f v =>
    rw [TxCall.objs, Multiset.cons_add] at hs
    exact hs.aggNext
  | behind b f v g =>
    rw [TxCall.objs, add_assoc, Multiset.cons_add] at hs
    unfold TxPool.step
    dsimp only
    split
    · exact hs.complete.rtwFreeXmitframe.aggPut
    · rw [← Multiset.cons_add] at hs
      exact hs.rtwFreeXmitframe.call (c := .agg b f v)
  | write b f =>
    rw [TxCall.objs, Multiset.cons_add] at hs
    exact (hs.rtwWritePort _).call (c := .last f)
  | last f => exact hs.rtwFreeXmitframe

theorem takeCall (hs : s.Held h) (hk : s.calls[k]? = some c) :
    { s with calls := s.calls.eraseIdx k }.Held (c.objs + h) := by
  obtain ⟨hlt, rfl⟩ := List.getElem?_eq_some_iff.1 hk
  refine ⟨hs.spread.take (q := .call) ?_ fun p hp => ?_, hs.frameCnt, hs.bufCnt⟩
  · have hperm := ((List.getElem_cons_eraseIdx_perm hlt).map TxCall.objs).sum_eq
    rw [List.map_cons, List.sum_cons] at hperm
    exact hperm.symm
  · cases p <;> first | rfl | exact absurd rfl hp

theorem newPkt (hs : s.Held h) : { s with pkts := s.pkts + 1 }.Held (.pkt s.pkts ::ₘ h) := by
  refine ⟨?_, hs.frameCnt, hs.bufCnt⟩
  have huniv : univ (s.pkts + 1) = univ s.pkts + {.pkt s.pkts} := by
    rw [univ, List.range_succ, List.map_append, ← List.append_assoc, ← Multiset.coe_add]
    rfl
  have hplace : TxPool.place { s with pkts := s.pkts + 1 } = s.place := by
    funext p
    cases p <;> rfl
  rw [SpreadBut, hplace, huniv, ← show _ = univ s.pkts from hs.spread, ← Multiset.singleton_add,
    add_comm {TxObj.pkt s.pkts} h, add_assoc]

theorem usbWritePortComplete (hs : s.Held h) : (s.usbWritePortComplete k).Held h := by
  unfold TxPool.usbWritePortComplete
  split
  · exact hs
  · rename_i b hk
    obtain ⟨hlt, rfl⟩ := List.getElem?_eq_some_iff.1 hk
    refine Held.rtwFreeXmitbuf ⟨hs.spread.take (A := {.buf _}) (q := .transfer) ?_ fun p hp => ?_, hs.frameCnt, hs.bufCnt⟩
    · have hperm := (List.getElem_cons_eraseIdx_perm hlt).map TxObj.buf
      exact (Multiset.coe_eq_coe.2 hperm).symm
    · cases p <;> first | rfl | exact absurd rfl hp

theorem takePendingAt {next : TxPool → PoolFrame → TxPool} (hs : s.Held h)
    (hnext : ∀ {s : TxPool} {f}, s.Held (f.objs + h) → (next s f).Held h) : (s.takePending servq k next).Held h := by
  unfold TxPool.takePending
  split
  · exact hs
  · rename_i f hk
    obtain ⟨hlt, rfl⟩ := List.getElem?_eq_some_iff.1 hk
    exact hnext (hs.takePending (List.getElem_cons_eraseIdx_perm hlt).symm)

theorem takeSleepingAt {next : TxPool → PoolFrame → TxPool} (hs : s.Held h)
    (hnext : ∀ {s : TxPool} {f}, s.Held (f.objs + h) → (next s f).Held h) : (s.takeSleeping i k next).Held h := by
  unfold TxPool.takeSleeping
  split
  · exact hs
  · rename_i f hk
    obtain ⟨hlt, rfl⟩ := List.getElem?_eq_some_iff.1 hk
    exact hnext (hs.takeSleepQ (List.getElem_cons_eraseIdx_perm hlt).symm)

end Held

/-- A step that keeps the pools: `rtw_dump_xframe` writes its buffer if it has not done so, and ends if it
has. So `nr_frags` is 1. -/
def StepOk (s : TxPool) : TxPoolEvent → Prop
  | .step k _ _ => ∀ b f n written, s.calls[k]? = some (.dump b f n written) → written = decide (n = 0)
  | _ => True

theorem Conserved.next (hs : s.Conserved) {e : TxPoolEvent} (hok : s.StepOk e) : (s.next e).Conserved := by
  rw [← held_zero] at hs ⊢
  cases e with
  | xmit =>
    unfold TxPool.next
    dsimp only
    cases ha : s.rtwAllocXmitframe with
    | none => exact hs.newPkt.reject
    | some r =>
      have hpkts : r.2.pkts = s.pkts := by
        unfold rtwAllocXmitframe at ha
        split at ha
        · cases ha
        · cases ha
          rfl
      refine Held.call (c := .attrib r.1 r.2.pkts) ?_
      have halloc := (hs.rtwAllocXmitframe ha).newPkt
      rw [Multiset.cons_swap] at halloc
      exact halloc
  | xmitframeComplete =>
    unfold TxPool.next
    dsimp only
    cases ha : s.rtwAllocXmitbuf with
    | none => exact hs
    | some r => exact (hs.rtwAllocXmitbuf ha).call (c := .pick r.1)
  | step k env a =>
    unfold TxPool.next
    dsimp only
    cases hk : s.calls[k]? with
    | none => exact hs
    | some c => exact (hs.takeCall hk).step fun b f n written hc => hok b f n written (hc ▸ hk)
  | usbComplete k => exact hs.usbWritePortComplete
  | toSleep servq k =>
    have hmove : ∀ {s : TxPool} {f : PoolFrame}, s.Held (f.objs + 0) →
        (s.setSleepQ f.frame.psta (s.sleepQ f.frame.psta ++ [f])).Held 0 := fun h => h.pushSleepQ
    exact hs.takePendingAt hmove
  | unlink servq => exact hs.unlink servq
  | wakeup i k classified => exact hs.takeSleepingAt fun h => h.enqueue _
  | freePending servq k => exact hs.takePendingAt Held.rtwFreeXmitframe
  | freeSleeping i k => exact hs.takeSleepingAt Held.rtwFreeXmitframe

/-- What is still in the hands of a step that has ended is lost. -/
theorem Held.not_conserved (hs : s.Held h) (hne : h ≠ 0) : ¬ s.Conserved := by
  intro hc
  have hlost := hs.spread
  rw [SpreadBut, show _ = univ s.pkts from hc.spread] at hlost
  exact hne (left_eq_add.1 hlost.symm)

theorem call_rtwWritePort (submitted : Bool) :
    (s.rtwWritePort b submitted).call c = (s.call c).rtwWritePort b submitted := by
  cases submitted <;> rfl

/-- A buffer that is in its place already, written once more, is in two places, or free and counted twice. -/
theorem not_conserved_rtwWritePort (hs : s.Conserved) (submitted : Bool) :
    ¬ (s.rtwWritePort b submitted).Conserved := by
  intro hs'
  cases submitted with
  | true =>
    have hgrow : (((s.rtwWritePort b true).place .transfer).card) = (s.place .transfer).card + 1 := rfl
    have hle : ∀ p, (s.place p).card ≤ ((s.rtwWritePort b true).place p).card := by
      intro p
      cases p with
      | transfer => exact hgrow ▸ Nat.le_succ _
      | _ => exact Nat.le_refl _
    have hcard := hs.spread.card_eq hs'.spread hle .transfer
    omega
  | false =>
    have hcnt := hs'.bufCnt
    rw [show (s.rtwWritePort b false).freeXmitbufCnt = s.freeXmitbufCnt + 1 from rfl, hs.bufCnt] at hcnt
    have hgrow : (((s.rtwWritePort b false).place .freeXmitbufQueue).card) = (s.place .freeXmitbufQueue).card + 1 := by
      simp only [place, Multiset.coe_card, List.length_map]
      omega
    have hle : ∀ p, (s.place p).card ≤ ((s.rtwWritePort b false).place p).card := by
      intro p
      cases p with
      | freeXmitbufQueue => exact hgrow ▸ Nat.le_succ _
      | _ => exact Nat.le_refl _
    have hcard := hs.spread.card_eq hs'.spread hle .freeXmitbufQueue
    omega

theorem stepOk_of_conserved (hs : s.Conserved) {e : TxPoolEvent} (hnext : (s.next e).Conserved) : s.StepOk e := by
  cases e with
  | step k env a =>
    intro b f n written hk
    have hheld := (held_zero.2 hs).takeCall hk
    unfold TxPool.next at hnext
    dsimp only at hnext
    rw [hk] at hnext
    by_contra hbad
    cases n with
    | zero =>
      -- the buffer has not been written and never will be
      obtain rfl : written = false := by simpa using hbad
      rw [TxCall.objs, if_neg Bool.false_ne_true, Multiset.cons_add, ← Multiset.add_cons] at hheld
      exact hheld.rtwFreeXmitframe.not_conserved (Multiset.cons_ne_zero) hnext
    | succ n =>
      -- the buffer has been written
      obtain rfl : written = true := by simpa using hbad
      have hput : ({ s with calls := s.calls.eraseIdx k }.call (.dump b f n true)).Conserved :=
        held_zero.1 (Held.call (c := .dump b f n true) hheld)
      have hwrite := not_conserved_rtwWritePort (b := b) hput a.submitted
      rw [← call_rtwWritePort] at hwrite
      exact hwrite hnext
  | _ => trivial

theorem conserved_start : start.Conserved := by
  have hnone : SpreadBut (univ 0) (fun _ : TxPlace => 0) (univ 0) := by
    rw [SpreadBut, Finset.sum_const_zero, zero_add]
  have huniv : univ 0 = start.place .freeXmitQueue + (start.place .freeXmitbufQueue + 0) := by
    simp only [univ, place, start, List.range_zero, List.map_nil, List.append_nil, Multiset.coe_add, add_zero]
  have hframes : SpreadBut (univ 0) (Function.update (fun _ : TxPlace => 0) .freeXmitQueue (start.place .freeXmitQueue))
      (start.place .freeXmitbufQueue + 0) := by
    rw [huniv] at hnone ⊢
    refine hnone.put (q := .freeXmitQueue) ?_ fun p hp => ?_
    · rw [Function.update_self, add_zero]
    · rw [Function.update_of_ne hp]
  have hspread : SpreadBut (univ 0) start.place 0 := hframes.put (q := .freeXmitbufQueue) (add_zero _).symm fun p hp => by
    cases p <;> first | rfl | exact absurd rfl hp
  exact ⟨spreadBut_zero.1 hspread, by simp [start, nrXmitframe], by simp [start, nrXmitbuff]⟩

/-- The pools are conserved all along a run if and only if every call of `rtw_dump_xframe` in it has one
fragment to write. -/
theorem conserved_run_iff (evs : List TxPoolEvent) :
    (∀ pre, pre <+: evs → (Machine.run TxPool.next start pre).Conserved) ↔
      Machine.RunOk TxPool.next StepOk start evs :=
  Machine.forall_prefix_iff_of_invariant (I := Conserved) (fun _ h => h) (fun _ _ h => h.next)
    (fun _ _ hs hnext => stepOk_of_conserved hs hnext) conserved_start evs

/-- A packet of two fragments is sent at once, and the USB core takes none of them. -/
def fragRun : List TxPoolEvent :=
  .xmit :: List.replicate 6 (.step 0 fragEnv ⟨some fragFrame, false, false, true, false⟩)

set_option maxRecDepth 4000 in
/-- The buffer of two fragments is freed twice, and counted twice. -/
theorem not_conserved_frag : ¬ ∀ evs pre, pre <+: evs → (Machine.run TxPool.next start pre).Conserved := by
  intro h
  have hcnt := (h fragRun fragRun (List.prefix_refl _)).bufCnt
  exact absurd hcnt (by decide)

end TxPool

end Rtw.Usb
