import Rtw.Xmit.PowerSave

/-!
# The lengths of a sleeping queue

`sleepq_len` counts the frames in `sleep_q`, and `sleepq_ac_len` those of delivery-enabled access
categories. Every operation on the queue counts both down but the PS-Poll handler, which forgets the
second; and a reassociation that changes the delivery-enabled access categories changes what is counted.
In a run without these two the lengths stay right (`Ap.sleepqOk_run`).
-/

namespace Rtw

/-- Both lengths of the queue of a station. -/
def PsSta.CountsOk (p : PsSta) (c : StaCap) : Prop :=
  p.sleepqLen = p.sleepQ.length ∧ p.sleepqAcLen = p.sleepQ.countP fun f => c.wmmpsAc f.priority 0

namespace Ap

def SleepqOk (a : Ap) : Prop := ∀ i ∈ a.pool.staHash, (a.ps i).CountsOk (a.cap i)

/-- A PS-Poll never takes a frame of a delivery-enabled access category, and a request from a station
leaves the number of frames of such categories in its queue alone. -/
def QueueStepOk (a : Ap) : PsEvent → Prop
  | .assocReq cfg f => ∀ i, assocReqSta cfg.toApCfg f a.pool = some i →
    ¬ f.sa.isMcast ∧
      ((a.ps i).sleepQ.countP fun g => (assocReqCap cfg f (a.cap i)).wmmpsAc g.priority 0) =
        (a.ps i).sleepQ.countP fun g => (a.cap i).wmmpsAc g.priority 0
  | .psPoll ta aid priority => ∀ i, rtwGetStainfo a.pool ta = some i → (a.pool.sta i).aid = aid →
    (a.cap i).wmmpsAc priority 0 = false → (a.ps i).sleep → a.staDzBitmap.getLsbD aid →
      ∀ f ∈ (a.ps i).sleepQ.head?, (a.cap i).wmmpsAc f.priority 0 = false
  | _ => True

structure QueueInv (a : Ap) : Prop where
  counts : ∀ i, (a.ps i).CountsOk (a.cap i)
  /-- Delivery enabled and trigger enabled are one for every access category. -/
  bits : ∀ i ac, ((a.cap i).uapsd ac).testBit 1 = ((a.cap i).uapsd ac).testBit 0
  group : ∀ i, (a.pool.sta i).hwaddr.isMcast → ∀ ac, (a.cap i).uapsd ac = 0

section
variable {a b : Ap} {i bmc : StaId} {p : PsSta} {f : XmitFrame} {addr : MacAddr} {l : List XmitFrame}

theorem QueueInv.wmmpsAc_one (h : a.QueueInv) (i : StaId) (priority : Nat) :
    (a.cap i).wmmpsAc priority 1 = (a.cap i).wmmpsAc priority 0 := h.bits i _

/-- The station for group frames has no delivery-enabled access category. -/
theorem QueueInv.wmmpsAc_group (h : a.QueueInv) (hi : rtwGetStainfo a.pool addr = some i) (hm : addr.isMcast)
    (priority : Nat) : (a.cap i).wmmpsAc priority 0 = false := by
  unfold StaCap.wmmpsAc
  rw [h.group i (by rw [rtwGetStainfo_isMcast hi]; exact hm)]
  rfl

/-- The queues and all that their lengths depend on are the same. -/
structure SameQueues (a b : Ap) : Prop where
  pool : b.pool = a.pool
  cap : b.cap = a.cap
  counts : ∀ i c, (a.ps i).CountsOk c → (b.ps i).CountsOk c
  sleepQ : ∀ i, (b.ps i).sleepQ = (a.ps i).sleepQ

theorem QueueInv.congr (h : a.QueueInv) (hs : SameQueues a b) : b.QueueInv := by
  refine ⟨fun i => ?_, fun i ac => ?_, fun i hi => ?_⟩
  · rw [hs.cap]
    exact hs.counts i _ (h.counts i)
  · rw [hs.cap]
    exact h.bits i ac
  · rw [hs.pool] at hi
    rw [hs.cap]
    exact h.group i hi

theorem sameQueues_setPs (hq : p.sleepQ = (a.ps i).sleepQ) (hl : p.sleepqLen = (a.ps i).sleepqLen)
    (hac : p.sleepqAcLen = (a.ps i).sleepqAcLen) : SameQueues a (a.setPs i p) := by
  refine ⟨rfl, rfl, fun j c h => ?_, fun j => ?_⟩
  · rcases eq_or_ne j i with rfl | hj
    · rw [setPs_ps_self, PsSta.CountsOk, hq, hl, hac]
      exact h
    · rw [setPs_ps_of_ne hj]
      exact h
  · rcases eq_or_ne j i with rfl | hj
    · rw [setPs_ps_self, hq]
    · rw [setPs_ps_of_ne hj]

theorem sameQueues_hal (a : Ap) (f : XmitFrame) : SameQueues a (a.rtwHalXmitframeEnqueue f) := by
  unfold rtwHalXmitframeEnqueue
  dsimp only
  split
  · exact sameQueues_setPs rfl rfl rfl
  · exact ⟨rfl, rfl, fun _ _ h => h, fun _ => rfl⟩

theorem QueueInv.setSame (h : a.QueueInv) (i : StaId) (p : PsSta) (hq : p.sleepQ = (a.ps i).sleepQ)
    (hl : p.sleepqLen = (a.ps i).sleepqLen) (hac : p.sleepqAcLen = (a.ps i).sleepqAcLen) :
    (a.setPs i p).QueueInv := h.congr (sameQueues_setPs hq hl hac)

theorem QueueInv.setPs (h : a.QueueInv) (hp : p.CountsOk (a.cap i)) : (a.setPs i p).QueueInv := by
  refine ⟨fun j => ?_, h.bits, h.group⟩
  rcases eq_or_ne j i with rfl | hj
  · rw [setPs_ps_self]
    exact hp
  · rw [setPs_ps_of_ne hj]
    exact h.counts j

theorem QueueInv.bitmaps (h : a.QueueInv) (dz tim : BitVec 16) :
    QueueInv { a with staDzBitmap := dz, timBitmap := tim } := ⟨h.counts, h.bits, h.group⟩

/-! ### Enqueueing -/

theorem QueueInv.enqueue (h : a.QueueInv) (f : XmitFrame) : (a.xmitframeEnqueueForSleepingSta f).1.QueueInv := by
  unfold xmitframeEnqueueForSleepingSta
  dsimp only
  obtain ⟨hlen, hac⟩ := h.counts f.psta
  split
  · exact h
  rename_i hfound
  split
  · exact h
  split
  · exact h
  split
  · rename_i hm
    split
    · refine QueueInv.bitmaps (QueueInv.setPs h ⟨?_, ?_⟩) _ _
      · simp [hlen]
      · have hno := h.wmmpsAc_group (not_not.1 hfound) hm f.priority
        simp [hac, hno]
    · exact h
  split
  · refine QueueInv.bitmaps (QueueInv.setPs h ⟨?_, ?_⟩) _ _
    · simp [hlen]
    · dsimp only
      rw [List.countP_append, List.countP_singleton, hac]
      split <;> rfl
  · exact h

theorem QueueInv.dequeueOne (h : a.QueueInv) (i : StaId) (ac : Ac) (f : XmitFrame) :
    (dequeueXmitframe i ac a f).QueueInv := by
  unfold dequeueXmitframe
  dsimp only
  have hq := h.enqueue { f with triggered := false }
  split
  · rename_i b hb
    rw [hb] at hq
    exact hq
  · rename_i b hb
    rw [hb] at hq
    exact hq.congr (sameQueues_setPs rfl rfl rfl)

theorem QueueInv.dequeueAll (h : a.QueueInv) (i : StaId) (ac : Ac) :
    (a.dequeueXmitframesToSleepingQueue i ac).QueueInv := by
  have h1 := h.setSame i { a.ps i with pending := Function.update (a.ps i).pending ac [] } rfl rfl rfl
  exact Machine.run_invariant (fun b f hb => hb.dequeueOne i ac f) h1 _

theorem QueueInv.stop (h : a.QueueInv) (i : StaId) : (a.stopStaXmit i).QueueInv := by
  have h1 : QueueInv { a.setPs i { a.ps i with sleep := true } with
      staDzBitmap := a.staDzBitmap ||| bit (a.pool.sta i).aid } :=
    QueueInv.bitmaps (h.setSame i { a.ps i with sleep := true } rfl rfl rfl) _ _
  have h5 := (((h1.dequeueAll i .vo).dequeueAll i .vi).dequeueAll i .be).dequeueAll i .bk
  unfold stopStaXmit
  dsimp only
  split
  · exact h5
  · rename_i bmc _
    exact h5.dequeueAll bmc .be

/-! ### Frames that leave the queue -/

/-- `b` is `a` after the first frame of the queue of `i` has left it. -/
structure Popped (i : StaId) (a b : Ap) : Prop where
  inv : b.QueueInv
  pool : b.pool = a.pool
  cap : b.cap = a.cap
  sleepQ : (b.ps i).sleepQ = (a.ps i).sleepQ.tail

theorem popped_hal {q : PsSta} (h : a.QueueInv) (hp : q.CountsOk (a.cap i)) (hq : q.sleepQ = (a.ps i).sleepQ.tail) :
    Popped i a ((a.setPs i q).rtwHalXmitframeEnqueue f) := by
  have hs := sameQueues_hal (a.setPs i q) f
  refine ⟨(h.setPs hp).congr hs, hs.pool, hs.cap, ?_⟩
  rw [hs.sleepQ, setPs_ps_self, hq]

theorem popped_wakeupFrame (h : a.QueueInv) (hq : (a.ps i).sleepQ = f :: l) : Popped i a (wakeupFrame i a f) := by
  obtain ⟨hlen, hac⟩ := h.counts i
  refine popped_hal h ⟨?_, ?_⟩ rfl
  · dsimp only
    rw [hlen, hq, List.length_cons, dec_succ, List.tail_cons]
  · dsimp only
    rw [h.wmmpsAc_one, hac, hq, List.countP_cons, List.tail_cons]
    split
    · rw [dec_succ]
    · rfl

theorem popped_popFrame (more : Bool) (h : a.QueueInv) (hq : (a.ps i).sleepQ = f :: l)
    (hno : (a.cap i).wmmpsAc f.priority 0 = false) : Popped i a (popFrame i more a f) := by
  obtain ⟨hlen, hac⟩ := h.counts i
  refine popped_hal h ⟨?_, ?_⟩ rfl
  · dsimp only
    rw [hlen, hq, List.length_cons, dec_succ, List.tail_cons]
  · dsimp only
    rw [hac, hq, List.tail_cons, List.countP_cons_of_neg (by simp [hno])]

theorem QueueInv.wakeupFrames (h : a.QueueInv) (i : StaId) :
    ((a.ps i).sleepQ.foldl (wakeupFrame i) a).QueueInv ∧
      (((a.ps i).sleepQ.foldl (wakeupFrame i) a).ps i).sleepQ = [] := by
  refine popAll _ QueueInv (fun b f l hb hq => ?_) h (List.append_nil _).symm
  have hp := popped_wakeupFrame hb hq
  exact ⟨hp.inv, by rw [hp.sleepQ, hq, List.tail_cons]⟩

theorem QueueInv.groupFrames (h : a.QueueInv) (more : Bool) (hb : rtwGetBcmcStainfo a.pool = some bmc)
    {q : List XmitFrame} (hq : (a.ps bmc).sleepQ = l ++ q) :
    (l.foldl (popFrame bmc more) a).QueueInv ∧ (l.foldl (popFrame bmc more) a).pool = a.pool ∧
      ((l.foldl (popFrame bmc more) a).ps bmc).sleepQ = q := by
  have hall := popAll (popFrame bmc more) (fun b => b.QueueInv ∧ b.pool = a.pool) (i := bmc)
    (fun b f l hI hq => ?_) ⟨h, rfl⟩ hq
  · exact ⟨hall.1.1, hall.1.2, hall.2⟩
  obtain ⟨hinv, hpool⟩ := hI
  have hfound : rtwGetStainfo b.pool bcAddr = some bmc := by rw [hpool]; exact hb
  have hp := popped_popFrame more hinv hq (hinv.wmmpsAc_group hfound (by decide) f.priority)
  exact ⟨⟨hp.inv, hp.pool.trans hpool⟩, by rw [hp.sleepQ, hq, List.tail_cons]⟩

theorem QueueInv.clearBits (h : a.QueueInv) (aid : Nat) : (a.clearBits aid).QueueInv := h.bitmaps _ _

theorem QueueInv.wakeup (h : a.QueueInv) (i : StaId) : (a.wakeupStaToXmit i).QueueInv := by
  unfold wakeupStaToXmit
  dsimp only
  obtain ⟨h1, -⟩ := h.wakeupFrames i
  generalize (a.ps i).sleepQ.foldl (wakeupFrame i) a = b at h1 ⊢
  have h2 : QueueInv (if (b.ps i).sleepqLen = 0 then
      (b.setPs i { b.ps i with sleep := false, aliveChk := false }).clearBits (b.pool.sta i).aid else b) := by
    split
    · exact (h1.setSame i { b.ps i with sleep := false, aliveChk := false } rfl rfl rfl).clearBits _
    · exact h1
  generalize (if (b.ps i).sleepqLen = 0 then
      (b.setPs i { b.ps i with sleep := false, aliveChk := false }).clearBits (b.pool.sta i).aid else b) = c at h2 ⊢
  split
  · exact h2
  rename_i bmc hbmc
  split
  · obtain ⟨h3, -, -⟩ := h2.groupFrames true hbmc (List.append_nil _).symm
    split
    · exact h3.clearBits 0
    · exact h3
  · exact h2

theorem QueueInv.deliverLoop {kept : List XmitFrame} (h : a.QueueInv) (hq : (a.ps i).sleepQ = kept ++ l) :
    (deliverLoop i kept l a).QueueInv := by
  induction l generalizing a kept with
  | nil => exact h
  | cons f rest ih =>
    unfold Ap.deliverLoop
    split
    · exact ih h (by rw [hq, List.append_assoc]; rfl)
    rename_i hac
    rw [Bool.not_eq_true', Bool.not_eq_false, h.wmmpsAc_one] at hac
    dsimp only
    obtain ⟨hlen, haclen⟩ := h.counts i
    have hcounts : PsSta.CountsOk { a.ps i with
        sleepQ := kept ++ rest, sleepqLen := dec (a.ps i).sleepqLen, sleepqAcLen := dec (a.ps i).sleepqAcLen }
        (a.cap i) := by
      rw [hq] at hlen haclen
      constructor
      · dsimp only
        rw [hlen, List.length_append, List.length_cons, ← Nat.add_assoc, dec_succ, List.length_append]
      · dsimp only
        rw [haclen, List.countP_append, List.countP_cons_of_pos (by simpa using hac), ← Nat.add_assoc, dec_succ,
          List.countP_append]
    have hset := h.setPs hcounts
    have hs := sameQueues_hal (a.setPs i { a.ps i with
      sleepQ := kept ++ rest, sleepqLen := dec (a.ps i).sleepqLen, sleepqAcLen := dec (a.ps i).sleepqAcLen })
      { f with mdata := decide (dec (a.ps i).sleepqAcLen > 0), eosp := decide (dec (a.ps i).sleepqAcLen = 0),
               triggered := true }
    have hqueue := hs.sleepQ i
    rw [setPs_ps_self] at hqueue
    split
    · exact ih (QueueInv.bitmaps (hset.congr hs) _ _) hqueue
    · exact ih (hset.congr hs) hqueue

theorem QueueInv.wmmps (h : a.QueueInv) (src : MacAddr) (priority : Nat) :
    (a.processWmmpsData src priority).QueueInv := by
  unfold processWmmpsData
  split
  · exact h
  dsimp only
  split
  · exact h
  split
  · exact h
  split
  · exact h.deliverLoop (List.nil_append _).symm
  · exact h

theorem QueueInv.psPoll {ta : MacAddr} {aid priority : Nat} (h : a.QueueInv)
    (hok : a.QueueStepOk (.psPoll ta aid priority)) : (a.validateRecvCtrlFrame ta aid priority).QueueInv := by
  unfold validateRecvCtrlFrame
  split
  · exact h
  rename_i i hi
  split
  · exact h
  rename_i haid
  split
  · exact h
  rename_i hprio
  dsimp only
  have hsame : SameQueues a (a.setPs i { a.ps i with aliveChk := false }) := sameQueues_setPs rfl rfl rfl
  have h1 := h.congr hsame
  have hsleep : ((a.setPs i { a.ps i with aliveChk := false }).ps i).sleep = (a.ps i).sleep := by
    rw [setPs_ps_self]
  split
  · rename_i hdoze
    rw [hsleep, Bool.and_eq_true] at hdoze
    split
    · rename_i f l hq
      have hno := hok i hi (not_not.1 haid) (by simpa using hprio) hdoze.1 hdoze.2 f (by
        rw [← hsame.sleepQ i, hq]; rfl)
      have hp := popped_popFrame true h1 hq hno
      split
      · exact QueueInv.bitmaps hp.inv _ _
      · exact hp.inv
    · rename_i hq
      split
      · refine QueueInv.bitmaps (h1.setPs ⟨?_, ?_⟩) _ _
        · dsimp only
          rw [hq]
          rfl
        · exact (h1.counts i).2
      · exact h1
  · exact h1

/-! ### Stations that come and go -/

/-- The entry `i` is emptied, and has no delivery-enabled access category. -/
theorem QueueInv.emptied (h : a.QueueInv) {cap : StaCap} {ps : PsSta} (hps : b.ps = Function.update a.ps i ps)
    (hcap : b.cap = Function.update a.cap i cap) (hcounts : ps.CountsOk cap) (huapsd : ∀ ac, cap.uapsd ac = 0)
    (hhwaddr : ∀ j, j ≠ i → (b.pool.sta j).hwaddr = (a.pool.sta j).hwaddr) : b.QueueInv := by
  refine ⟨fun j => ?_, fun j ac => ?_, fun j hj ac => ?_⟩ <;> rw [hcap] <;> rcases eq_or_ne j i with rfl | hne
  · rw [hps, Function.update_self, Function.update_self]
    exact hcounts
  · rw [hps, Function.update_of_ne hne, Function.update_of_ne hne]
    exact h.counts j
  · rw [Function.update_self, huapsd ac]
    rfl
  · rw [Function.update_of_ne hne]
    exact h.bits j ac
  · rw [Function.update_self]
    exact huapsd ac
  · rw [Function.update_of_ne hne]
    rw [hhwaddr j hne] at hj
    exact h.group j hj ac

theorem QueueInv.alloc (h : a.QueueInv) (ha : a.rtwAllocStainfo addr = some (b, i)) : b.QueueInv := by
  obtain ⟨pool, hpool, rfl⟩ := rtwAllocStainfo_eq_some ha
  obtain ⟨-, ht⟩ := Rtw.rtwAllocStainfo_eq_some hpool
  refine h.emptied rfl rfl ⟨rfl, rfl⟩ (fun ac => by cases ac <;> rfl) fun j hj => ?_
  dsimp only
  rw [ht]
  simp only [Function.update_of_ne hj]

theorem QueueInv.free (h : a.QueueInv) (i : StaId) : (a.rtwFreeStainfo i).QueueInv :=
  h.emptied rfl rfl ⟨rfl, rfl⟩ (fun ac => by cases ac <;> rfl) fun _ _ => rtwFreeStainfo_hwaddr

/-- The lengths do not depend on the rest of the stations. -/
theorem QueueInv.pool (h : a.QueueInv) {pool : StaPriv} (hw : ∀ i, (pool.sta i).hwaddr = (a.pool.sta i).hwaddr) :
    QueueInv { a with pool } :=
  ⟨h.counts, h.bits, fun i hi => h.group i (by rw [← hw]; exact hi)⟩

theorem QueueInv.found {f : MgmtFrame} (h : a.QueueInv) (hf : Found f a b i) : b.QueueInv := by
  obtain ⟨c, ⟨-, rfl⟩ | ⟨-, d, hd, rfl⟩, rfl⟩ := hf
  · exact ⟨h.counts, h.bits, h.group⟩
  · have hinv := (h.alloc hd).pool (SameEntries.modify (s := d.pool) (i := i)
      (g := fun p => { p with state := { authNull := true }, authSeq := 0 }) rfl).hwaddr
    exact ⟨hinv.counts, hinv.bits, hinv.group⟩

theorem QueueInv.onAuth (h : a.QueueInv) (cfg : ApCfg) (f : MgmtFrame) : (a.onAuth cfg f).QueueInv := by
  rcases onAuth_cases cfg f a with he | ⟨b, i, hfound, -, ⟨e, -, he⟩ | ⟨p, hp, he⟩⟩
  · rw [he]
    exact h
  · rw [he]
    exact (h.found hfound).free i
  · rw [he]
    exact (h.found hfound).pool (SameEntries.modify (authStep_hwaddr hp)).hwaddr

theorem QueueInv.counts_only (h : a.QueueInv) (hb : OnlyCounts a b) : b.QueueInv := by
  rw [hb]
  exact ⟨h.counts, h.bits, h.group⟩

theorem QueueInv.apFreeSta (h : a.QueueInv) (i : StaId) : (a.apFreeSta i).QueueInv := by
  have h1 : QueueInv { a with ps := Function.update a.ps i { a.ps i with linked := false } } :=
    h.setSame i { a.ps i with linked := false } rfl rfl rfl
  exact (h1.counts_only (onlyCounts_leave _ i)).free i

theorem QueueInv.asocExpire (h : a.QueueInv) (i : StaId) : (a.asocExpire i).QueueInv := by
  unfold Ap.asocExpire
  split
  · have h1 : QueueInv { a with asocList := a.asocList.erase i } := ⟨h.counts, h.bits, h.group⟩
    exact h1.apFreeSta i
  · exact h

/-- The (V)HT part of a request does not touch the access categories. -/
theorem phy_uapsd (cfg : ApCfg) (ies : List UInt8) (elems : Elems) (c : StaCap) (ac : Ac) :
    (c.phy cfg ies elems).uapsd ac = c.uapsd ac := by
  unfold StaCap.phy
  dsimp only
  split
  · cases ac <;> rfl
  split
  · cases ac <;> rfl
  split <;> cases ac <;> rfl

/-- A request sets both bits of an access category or none. -/
theorem wmm_uapsd (cfg : BssCfg) (ies : List UInt8) (c : StaCap) (ac : Ac) :
    (c.wmm cfg ies).uapsd ac = 0 ∨ (c.wmm cfg ies).uapsd ac = 3 := by
  unfold StaCap.wmm
  dsimp only
  split
  · cases ac <;> exact .inl rfl
  split
  · cases ac <;> exact .inl rfl
  · cases ac <;> dsimp only [StaCap.uapsd] <;> split <;> simp

theorem assocReqCap_uapsd (cfg : BssCfg) (f : MgmtFrame) (c : StaCap) (ac : Ac) :
    (assocReqCap cfg f c).uapsd ac = c.uapsd ac ∨ (assocReqCap cfg f c).uapsd ac = 0 ∨
      (assocReqCap cfg f c).uapsd ac = 3 := by
  unfold assocReqCap
  dsimp only
  split
  · exact .inl (by cases ac <;> rfl)
  split
  · exact .inl (by cases ac <;> rfl)
  split
  · exact .inl (by cases ac <;> rfl)
  split
  · exact .inl (by cases ac <;> rfl)
  split
  · exact .inl (by cases ac <;> rfl)
  · rw [phy_uapsd]
    exact .inr (wmm_uapsd ..)

theorem assocReqCap_bits (cfg : BssCfg) (f : MgmtFrame) {c : StaCap}
    (h : ∀ ac, (c.uapsd ac).testBit 1 = (c.uapsd ac).testBit 0) (ac : Ac) :
    ((assocReqCap cfg f c).uapsd ac).testBit 1 = ((assocReqCap cfg f c).uapsd ac).testBit 0 := by
  rcases assocReqCap_uapsd cfg f c ac with he | he | he
  · rw [he]
    exact h ac
  · rw [he]
    rfl
  · rw [he]
    rfl

theorem QueueInv.staInfoUpdate (h : a.QueueInv) (cfg : BssCfg) (i : StaId) : (a.staInfoUpdate cfg i).QueueInv := by
  have huapsd : ∀ j, ((a.staInfoUpdate cfg i).cap j).uapsd = (a.cap j).uapsd := by
    intro j
    unfold Ap.staInfoUpdate
    rcases eq_or_ne j i with rfl | hne
    · dsimp only
      rw [Function.update_self]
      funext ac
      cases ac <;> rfl
    · dsimp only
      rw [Function.update_of_ne hne]
  have hcounts : ∀ j c, (a.ps j).CountsOk c → ((a.staInfoUpdate cfg i).ps j).CountsOk c := by
    intro j c hc
    unfold Ap.staInfoUpdate
    rcases eq_or_ne j i with rfl | hne
    · dsimp only
      rw [Function.update_self]
      exact hc
    · dsimp only
      rw [Function.update_of_ne hne]
      exact hc
  refine ⟨fun j => ?_, fun j ac => ?_, fun j hj ac => ?_⟩
  · have hc := hcounts j _ (h.counts j)
    unfold PsSta.CountsOk StaCap.wmmpsAc at hc ⊢
    rw [huapsd]
    exact hc
  · rw [huapsd]
    exact h.bits j ac
  · rw [huapsd]
    exact h.group j hj ac

theorem QueueInv.onAssocReq {cfg : BssCfg} {f : MgmtFrame} (h : a.QueueInv)
    (hok : a.QueueStepOk (.assocReq cfg f)) : (a.onAssocReq cfg f).QueueInv := by
  unfold Ap.onAssocReq
  split
  · exact h
  rename_i i hi
  obtain ⟨hgroup, hcount⟩ := hok i hi
  dsimp only
  have hw := (onAssocReq_entries cfg.toApCfg f a.pool).hwaddr
  have h1 : QueueInv { a with
      pool := (Rtw.onAssocReq cfg.toApCfg f a.pool).1
      cap := Function.update a.cap i (assocReqCap cfg f (a.cap i)) } := by
    refine ⟨fun j => ?_, fun j ac => ?_, fun j hj ac => ?_⟩ <;> dsimp only at * <;>
      rcases eq_or_ne j i with rfl | hne
    · obtain ⟨hlen, hac⟩ := h.counts j
      simp only [Function.update_self]
      exact ⟨hlen, hac.trans hcount.symm⟩
    · simp only [Function.update_of_ne hne]
      exact h.counts j
    · simp only [Function.update_self]
      exact assocReqCap_bits cfg f (h.bits j) ac
    · simp only [Function.update_of_ne hne]
      exact h.bits j ac
    · rw [hw, rtwGetStainfo_isMcast (onAssocReq_of_sta hi).1] at hj
      exact absurd hj hgroup
    · simp only [Function.update_of_ne hne]
      rw [hw] at hj
      exact h.group j hj ac
  split
  · have h2 : QueueInv (toAsocList { a with
        pool := (Rtw.onAssocReq cfg.toApCfg f a.pool).1
        cap := Function.update a.cap i (assocReqCap cfg f (a.cap i)) } i) := ⟨h1.counts, h1.bits, h1.group⟩
    exact (h2.counts_only (onlyCounts_join _ i)).staInfoUpdate cfg i
  · exact h1

/-! ### Every run -/

theorem QueueInv.xmit (h : a.QueueInv) (ra : MacAddr) (priority : Nat) (direct : Bool) :
    (a.rtwXmit ra priority direct).QueueInv := by
  unfold rtwXmit
  split
  · exact h
  rename_i i _
  split
  · exact h
  have hq := h.enqueue { ra, psta := i, priority }
  split
  · rename_i b hb
    rw [hb] at hq
    exact hq
  · rename_i b hb
    rw [hb] at hq
    split
    · exact hq
    · exact hq.congr (sameQueues_hal b _)

theorem QueueInv.bmcFrames (h : a.QueueInv) : a.rtwApBmcFramesHdl.QueueInv := by
  unfold rtwApBmcFramesHdl
  split
  · exact h
  rename_i bmc hbmc
  split
  · dsimp only
    obtain ⟨h1, hpool, hq⟩ := h.groupFrames true hbmc
      (List.take_append_drop (hiqXmitCounts - 1) (a.ps bmc).sleepQ).symm
    refine (h1.groupFrames false (by rw [hpool]; exact hbmc)
      (q := ((a.ps bmc).sleepQ.drop (hiqXmitCounts - 1)).drop 1) ?_).1
    rw [hq, List.take_append_drop]
  split
  · exact h.clearBits 0
  · exact h

theorem QueueInv.next (h : a.QueueInv) (e : PsEvent) (hok : a.QueueStepOk e) : (a.psNext e).QueueInv := by
  cases e with
  | auth cfg f => exact h.onAuth cfg f
  | assocReq cfg f => exact h.onAssocReq hok
  | deAuth sa =>
    show (a.onDeAuth sa).QueueInv
    unfold onDeAuth
    split
    · exact h
    · exact h.asocExpire _
  | authExpire i =>
    show (a.authExpire i).QueueInv
    unfold Ap.authExpire
    split
    · have h1 : QueueInv { a with authList := a.authList.erase i } := ⟨h.counts, h.bits, h.group⟩
      exact h1.free i
    · exact h
  | asocExpire i => exact h.asocExpire i
  | xmit ra priority direct => exact h.xmit ra priority direct
  | dequeue i ac => exact h.congr (sameQueues_setPs rfl rfl rfl)
  | pwrbit src pwrbit =>
    show (a.processPwrbitData src pwrbit).QueueInv
    unfold processPwrbitData
    split
    · exact h
    rename_i i _
    split
    · split
      · exact h.stop i
      · exact h
    · split
      · exact h.wakeup i
      · exact h
  | wmmps src priority => exact h.wmmps src priority
  | psPoll ta aid priority => exact h.psPoll hok
  | aliveChk i =>
    show (a.aliveChk i).QueueInv
    unfold Ap.aliveChk
    split
    · exact QueueInv.bitmaps (h.setSame i { a.ps i with aliveChk := true } rfl rfl rfl) _ _
    · exact h
  | clearSleepQ i =>
    show (a.clearSleepQ i).QueueInv
    unfold Ap.clearSleepQ
    split
    · exact h.wakeup i
    · exact h
  | chkBmcSleepq =>
    show a.chkBmcSleepqHdl.QueueInv
    unfold chkBmcSleepqHdl
    split
    · exact h
    rename_i bmc hbmc
    split
    · exact (h.groupFrames true hbmc (List.append_nil _).symm).1
    · exact h
  | bmcFrames => exact h.bmcFrames
  | chkHiQueue =>
    show a.rtwChkHiQueueHdl.QueueInv
    unfold rtwChkHiQueueHdl
    split
    · exact h
    · split
      · exact h.clearBits 0
      · exact h

theorem QueueInv.start (maxNumSta : Nat) : (start maxNumSta).QueueInv := by
  have h0 : ∀ ac, StaCap.uapsd {} ac = 0 := fun ac => by cases ac <;> rfl
  refine ⟨fun _ => ⟨rfl, rfl⟩, fun i ac => ?_, fun i _ ac => h0 ac⟩
  show (StaCap.uapsd {} ac).testBit 1 = (StaCap.uapsd {} ac).testBit 0
  rw [h0]
  rfl

/-- In every run in which no PS-Poll takes a frame of a delivery-enabled access category, and no request
changes how many of the frames that wait are of one, both lengths are right. -/
theorem sleepqOk_run (maxNumSta : Nat) (evs : List PsEvent)
    (hok : Machine.RunOk psNext QueueStepOk (start maxNumSta) evs) :
    (Machine.run psNext (start maxNumSta) evs).SleepqOk :=
  fun i _ => (Machine.run_invariant_of_ok (fun _ e h hok => h.next e hok) (QueueInv.start maxNumSta) hok).counts i

/-- `StaPriv.openAp` with WMM. -/
def wmmAp : BssCfg := { StaPriv.openAp with qosOption := true }

/-- An authentication and an association with the U-APSD access categories `qosInfo`. -/
def joinWmm (n qosInfo : UInt8) : List PsEvent :=
  [.auth wmmAp.toApCfg ⟨StaPriv.staAddr n, false, false, [0, 0, 1, 0, 0, 0]⟩,
    .assocReq wmmAp ⟨StaPriv.staAddr n, false, false,
      [1, 0, 10, 0, 0, 2, 0x61, 0x70, 1, 1, 0x82, 221, 7, 0x00, 0x50, 0xf2, 0x02, 0x00, 0x01, qosInfo]⟩]

end

instance (p : PsSta) (c : StaCap) : Decidable (p.CountsOk c) := inferInstanceAs (Decidable (_ ∧ _))

instance (a : Ap) : (e : PsEvent) → Decidable (a.QueueStepOk e)
  | .assocReq cfg f => inferInstanceAs (Decidable (∀ i, assocReqSta cfg.toApCfg f a.pool = some i →
    ¬ f.sa.isMcast ∧
      ((a.ps i).sleepQ.countP fun g => (assocReqCap cfg f (a.cap i)).wmmpsAc g.priority 0) =
        (a.ps i).sleepQ.countP fun g => (a.cap i).wmmpsAc g.priority 0))
  | .psPoll ta aid priority => inferInstanceAs (Decidable (∀ i, rtwGetStainfo a.pool ta = some i →
    (a.pool.sta i).aid = aid → (a.cap i).wmmpsAc priority 0 = false → (a.ps i).sleep →
      a.staDzBitmap.getLsbD aid → ∀ f ∈ (a.ps i).sleepQ.head?, (a.cap i).wmmpsAc f.priority 0 = false))
  | .auth .. | .deAuth _ | .authExpire _ | .asocExpire _ | .xmit .. | .dequeue .. | .pwrbit .. | .wmmps ..
  | .aliveChk _ | .clearSleepQ _ | .chkBmcSleepq | .bmcFrames | .chkHiQueue => .isTrue trivial

/-- A station with U-APSD for video sleeps; its best-effort frame is polled for, its video frame is
triggered. -/
theorem sleepqOk_run_wmm : (Machine.run psNext (start 32) (joinWmm 1 2 ++
    [.pwrbit (StaPriv.staAddr 1) true, .xmit (StaPriv.staAddr 1) 0 false, .xmit (StaPriv.staAddr 1) 5 false,
      .psPoll (StaPriv.staAddr 1) 1 0, .wmmps (StaPriv.staAddr 1) 5, .xmit (StaPriv.staAddr 1) 5 false,
      .pwrbit (StaPriv.staAddr 1) false])).SleepqOk :=
  sleepqOk_run 32 _ (by decide +kernel)

/-- The video frame is polled for: nothing waits, and `sleepq_ac_len` is 1. -/
theorem not_sleepqOk_psPoll : ¬ (Machine.run psNext (start 32) (joinWmm 1 2 ++
    [.pwrbit (StaPriv.staAddr 1) true, .xmit (StaPriv.staAddr 1) 5 false,
      .psPoll (StaPriv.staAddr 1) 1 0])).SleepqOk := by
  intro h
  have hcount := h 1 (by decide +kernel)
  revert hcount
  decide +kernel

end Ap

end Rtw
