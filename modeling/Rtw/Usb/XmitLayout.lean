import Mathlib.Data.List.Forall2
import Rtw.Usb.XmitComplete

/-!
# The layout of an aggregate

As long as the frames are single MPDUs, each is written where the chain of units goes on, and nothing that
comes later touches it. A frame of several MPDUs is not contiguous, so no unit describes it.
-/

namespace Rtw.Usb
open TxUnit (Describes)

/-- A run of step 2 over a queue; the last list has the frames that are added to the transfer. -/
inductive AggRun (env : TxEnv) (servq : TxServq) : List TxFrame → AggState → AggState → List TxFrame → Prop
  | stop {fs st} : AggRun env servq fs st st []
  | fail {f fs st st' gs} (hc : ¬ f.CanCoalesce) (h : AggRun env servq fs (st.dequeue env servq f fs) st' gs) :
    AggRun env servq (f :: fs) st st' gs
  | put {f fs st st' gs descCount bulkPtr} (hc : f.CanCoalesce)
    (hle : rnd8 (st.pbuf + (f.xmitframeNeedLength + txdescSize)) ≤ maxXmitbufSz)
    (h : AggRun env servq fs { (st.dequeue env servq f fs).put env f with descCount, bulkPtr } st' gs) :
    AggRun env servq (f :: fs) st st' (f :: gs)

section
variable {env : TxEnv} {q q' : TxQueues} {s s' : TxState} {st st' : AggState} {servq : TxServq} {f g first : TxFrame}
  {fs gs : List TxFrame} {mem mem' : Nat → TxCell} {u : TxUnit} {us : List TxUnit} {d : Dequeued × Nat}
  {ds : List (Dequeued × Nat)} {x : Dequeued} {k : Nat}

theorem aggLoop_run : AggRun env servq fs st (aggLoop env first servq fs st)
    (admitted env first.qsel fs st.pbuf st.aggNum st.descCount st.bulkPtr) := by
  induction fs generalizing st with
  | nil => exact .stop
  | cons f fs ih =>
    rw [aggLoop, admitted]
    dsimp only
    split
    · exact .stop
    · rename_i hgo
      have hle : rnd8 (st.pbuf + (f.xmitframeNeedLength + txdescSize)) ≤ maxXmitbufSz := by
        rw [Bool.or_eq_true, not_or, decide_eq_true_eq, not_lt] at hgo
        exact hgo.2
      rw [TxFrame.coalesce_ok]
      by_cases hc : f.CanCoalesce
      · rw [decide_eq_true hc, if_neg (not_not.2 hc)]
        simp only [Bool.not_true, Bool.false_eq_true, if_false]
        have haggNum : ((st.dequeue env servq f fs).put env f).aggNum = st.aggNum + 1 := rfl
        have hbulk : env.checkBulk ((st.dequeue env servq f fs).put env f).pbuf
            ((st.dequeue env servq f fs).put env f).descCount ((st.dequeue env servq f fs).put env f).bulkPtr =
            env.checkBulk (rnd8 (st.pbuf + (f.xmitframeNeedLength + txdescSize))) st.descCount st.bulkPtr := rfl
        rw [haggNum, hbulk]
        by_cases hmax : st.aggNum + 1 = maxTxAggPacketNumber
        · rw [if_pos hmax, if_pos hmax]
          exact .put hc hle .stop
        · rw [if_neg hmax, if_neg hmax]
          cases env.checkBulk (rnd8 (st.pbuf + (f.xmitframeNeedLength + txdescSize))) st.descCount st.bulkPtr with
          | none => exact .put hc hle .stop
          | some b => exact .put hc hle ih
      · rw [decide_eq_false hc, if_pos hc]
        exact .fail hc ih

theorem TxInv.dequeue (h : TxInv env q st.tx) (hp : st.tx.queues.pending servq = f :: fs) :
    TxInv env q (st.dequeue env servq f fs).tx :=
  TxInv.coalesce h hp rfl

theorem TxInv.put (h : TxInv env q st.tx) : TxInv env q (st.put env f).tx := TxInv.putDesc h

theorem sent_dequeue : sent (st.dequeue env servq f fs).tx.dequeued = sent st.tx.dequeued ++
    if f.CanCoalesce then [(⟨servq, f, f.coalesce env.fragLen st.pbuf 0⟩, st.tx.dequeued.length)] else [] := by
  show sent (_ ++ [_]) = _
  rw [sent_append]
  dsimp only
  rw [TxFrame.coalesce_ok]
  simp only [decide_eq_true_eq]

theorem AggRun.inv (h : AggRun env servq fs st st' gs) (hi : TxInv env q st.tx)
    (hp : st.tx.queues.pending servq = fs) : TxInv env q st'.tx := by
  induction h with
  | stop => exact hi
  | fail hc _ ih => exact ih (hi.dequeue hp) (Function.update_self ..)
  | put hc hle _ ih => exact ih (hi.dequeue hp).put (Function.update_self ..)

/-- The frames of the aggregate are the ones that were dequeued and coalesced. -/
theorem AggRun.sent_eq (h : AggRun env servq fs st st' gs) :
    (sent st'.tx.dequeued).map (·.1.frame) = (sent st.tx.dequeued).map (·.1.frame) ++ gs := by
  induction h with
  | stop => rw [List.append_nil]
  | fail hc _ ih => rw [ih, sent_dequeue, if_neg hc, List.append_nil]
  | @put f fs st _ gs _ _ hc hle _ ih =>
    rw [ih]
    show (sent (st.dequeue env servq f fs).tx.dequeued).map _ ++ gs = _
    rw [sent_dequeue, if_pos hc, List.map_append, List.append_assoc]
    rfl

theorem AggRun.pbufTail_le (h : AggRun env servq fs st st' gs) (hle : st.pbufTail ≤ st.pbuf) :
    st.pbufTail ≤ st'.pbufTail := by
  induction h with
  | stop => exact Nat.le_refl _
  | fail _ _ ih => exact ih hle
  | @put f fs st _ _ _ _ _ _ _ ih =>
    refine le_trans ?_ (ih (le_rnd8 _))
    exact hle.trans (Nat.le_add_right ..)

/-- What step 1 leaves when there is a first frame. -/
structure Picked (env : TxEnv) (q : TxQueues) (s : TxState) (x : Dequeued) (k : Nat) (s' : TxState) : Prop where
  inv : TxInv env q s'
  firstFrame : FirstFrame env s.queues x.frame s'.queues
  can : x.frame.CanCoalesce
  coalesced : x.coalesced = x.frame.coalesce env.fragLen 0 1
  sent : sent s'.dequeued = [(x, k)]
  mem : ∃ mem, s'.mem = putPkt mem k x.coalesced.addrs

theorem pickFirst_of_none (h : env.rtwDequeueXframe s.queues = none) : pickFirst env s = (none, s) := by
  rw [pickFirst]
  split
  · rfl
  · rename_i h'
    cases h.symm.trans h'

theorem pickFirst_of_some (h : env.rtwDequeueXframe s.queues = some (servq, f, q')) :
    pickFirst env s =
      let c := f.coalesce env.fragLen 0 1
      let s := s.coalesce q' servq f c
      if c.ok then (some ⟨servq, f, c⟩, s) else pickFirst env s := by
  rw [pickFirst]
  split
  · rename_i h'
    cases h.symm.trans h'
  · rename_i h'
    cases h.symm.trans h'
    rfl

theorem pickFirst_spec (hi : TxInv env q s) (hs : sent s.dequeued = []) :
    (∀ s', pickFirst env s = (none, s') →
      TxInv env q s' ∧ sent s'.dequeued = [] ∧ ∀ f q', ¬ FirstFrame env s.queues f q') ∧
    ∀ x s', pickFirst env s = (some x, s') → ∃ k, Picked env q s x k s' := by
  induction s using pickFirst.induct env with
  | case1 s h =>
    rw [pickFirst_of_none h]
    constructor
    · intro s' hp
      cases hp
      refine ⟨hi, hs, fun f q' hf => ?_⟩
      cases hf with
      | here h' => cases h.symm.trans h'
      | skip h' => cases h.symm.trans h'
    · intro x s' hp
      cases hp
  | case2 s servq f queues h c hok =>
    obtain ⟨-, -, fs, hpend, hq, -⟩ := rtwDequeueXframe_eq_some h
    rw [pickFirst_of_some h]
    dsimp only
    rw [if_pos hok]
    constructor
    · intro s' hp
      cases hp
    · intro x s' hp
      cases hp
      rw [TxFrame.coalesce_ok, decide_eq_true_eq] at hok
      refine ⟨s.dequeued.length, hi.coalesce hpend hq, .here h hok, hok, rfl, ?_, s.mem, rfl⟩
      show sent (_ ++ [_]) = _
      rw [sent_append, hs, TxFrame.coalesce_ok, decide_eq_true hok]
      rfl
  | case3 s servq f queues h c s' hok ih =>
    obtain ⟨-, -, fs, hpend, hq, -⟩ := rtwDequeueXframe_eq_some h
    have hsent : sent s'.dequeued = [] := by
      show sent (_ ++ [_]) = _
      rw [sent_append, hs, if_neg hok]
      rfl
    obtain ⟨hnone, hsome⟩ := ih (hi.coalesce hpend hq) hsent
    rw [pickFirst_of_some h]
    dsimp only
    rw [if_neg hok]
    rw [TxFrame.coalesce_ok, decide_eq_true_eq] at hok
    constructor
    · intro s'' hp
      obtain ⟨hinv, hs', hno⟩ := hnone s'' hp
      refine ⟨hinv, hs', fun f' q' hf => ?_⟩
      cases hf with
      | here h' hc' =>
        cases h.symm.trans h'
        exact hok hc'
      | skip h' _ hf =>
        cases h.symm.trans h'
        exact hno _ _ hf
    · intro x s'' hp
      obtain ⟨k, hpick⟩ := hsome x s'' hp
      exact ⟨k, { hpick with firstFrame := .skip h hok hpick.firstFrame }⟩

/-! ### The chain of units -/

theorem TxUnit.pos_le_stop (h : txdescSize ≤ u.desc.offset) : u.pos + txdescSize ≤ u.stop := by
  unfold TxUnit.stop TxUnit.data
  omega

theorem TxUnit.le_stop (u : TxUnit) : u.pos ≤ u.stop := by
  unfold TxUnit.stop TxUnit.data
  omega

theorem TxUnit.Describes.congr (h : Describes mem u d) (hm : ∀ p, u.pos ≤ p → p < u.stop → mem' p = mem p) :
    Describes mem' u d where
  offset := h.offset
  desc j hj := by
    have hle := u.pos_le_stop h.offset
    rw [hm _ (Nat.le_add_right ..) (by omega)]
    exact h.desc j hj
  size := h.size
  pkt j hj := by
    have hpos : u.pos ≤ u.data + j := by
      unfold TxUnit.data
      omega
    rw [hm _ hpos (Nat.add_lt_add_left hj _)]
    exact h.pkt j hj

/-- Units are not touched by what is written before and behind them. -/
theorem describes_congr {a b : Nat} (h : List.Forall₂ (Describes mem) us ds)
    (hl : Chain.Laid rnd8 TxUnit.pos TxUnit.stop a us b) (hm : ∀ p, a ≤ p → p < b → mem' p = mem p) :
    List.Forall₂ (Describes mem') us ds := by
  have hin : ∀ u ∈ us, a ≤ u.pos ∧ u.stop ≤ b := fun u hu =>
    ⟨hl.le_pos le_rnd8 TxUnit.le_stop hu, hl.stop_le le_rnd8 TxUnit.le_stop hu⟩
  refine ((List.forall₂_and_left ..).2 ⟨hin, h⟩).imp fun u d hu => hu.2.congr fun p hp hp' => ?_
  exact hm p (hu.1.1.trans hp) (hp'.trans_le hu.1.2)

/-- The units that step 2 has added, in a buffer whose first descriptor is still missing: they go on from the
end of the first packet, which is behind a descriptor and a packet offset. -/
structure Layout (x : Dequeued) (k : Nat) (st : AggState) (us : List TxUnit) : Prop where
  pbuf : st.pbuf = rnd8 st.pbufTail
  le : st.pbufTail ≤ maxXmitbufSz
  aggNum : st.aggNum = us.length + 1
  head : ∀ j, j < x.frame.xmitframeNeedLength → st.tx.mem (txdescSize + packetOffsetSz + j) = .pkt k j
  laid : Chain.Laid rnd8 TxUnit.pos TxUnit.stop (txdescSize + packetOffsetSz + x.frame.xmitframeNeedLength) us st.pbufTail
  sent : ∃ ds, sent st.tx.dequeued = (x, k) :: ds ∧ List.Forall₂ (Describes st.tx.mem) us ds

theorem mem_dequeue {p : Nat} (hp : p < st.pbuf) : (st.dequeue env servq f fs).tx.mem p = st.tx.mem p := by
  refine putPkt_of_notMem fun hmem => ?_
  have := TxFrame.le_of_mem_addrs hmem
  omega

theorem Layout.fail (h : Layout x k st us) (hc : ¬ f.CanCoalesce) : Layout x k (st.dequeue env servq f fs) us := by
  obtain ⟨ds, hs, hdesc⟩ := h.sent
  have hkeep : ∀ p, p < st.pbufTail → (st.dequeue env servq f fs).tx.mem p = st.tx.mem p :=
    fun p hp => mem_dequeue (hp.trans_le (h.pbuf ▸ le_rnd8 _))
  have hhead := h.laid.le le_rnd8 TxUnit.le_stop
  refine ⟨h.pbuf, h.le, h.aggNum, fun j hj => ?_, h.laid, ds, ?_, ?_⟩
  · rw [hkeep _ (by omega)]
    exact h.head j hj
  · rw [sent_dequeue, if_neg hc, List.append_nil]
    exact hs
  · exact describes_congr hdesc h.laid fun p _ => hkeep p

/-- A frame that is one MPDU becomes the next unit. -/
theorem Layout.put (h : Layout x k st us) (hc : f.CanCoalesce) (hf : f.Fits env.fragLen)
    (hle : rnd8 (st.pbuf + (f.xmitframeNeedLength + txdescSize)) ≤ maxXmitbufSz) :
    ∃ u, Layout x k ((st.dequeue env servq f fs).put env f) (us ++ [u]) := by
  obtain ⟨ds, hs, hdesc⟩ := h.sent
  have hpbuf : st.pbufTail ≤ st.pbuf := h.pbuf ▸ le_rnd8 _
  have hkeep : ∀ p, p < st.pbufTail → ((st.dequeue env servq f fs).put env f).tx.mem p = st.tx.mem p := by
    intro p hp
    exact (putDesc_of_lt (hp.trans_le hpbuf)).trans (mem_dequeue (hp.trans_le hpbuf))
  have hhead := h.laid.le le_rnd8 TxUnit.le_stop
  have hroom := (le_rnd8 _).trans hle
  have hco : f.coalesce env.fragLen st.pbuf 0 = _ := TxFrame.coalesce_of_fits hf hc
  have hsz : f.xmitframeNeedLength % 2 ^ 16 = f.xmitframeNeedLength :=
    Nat.mod_eq_of_lt (by unfold maxXmitbufSz at hroom; omega)
  have hstop : TxUnit.stop ⟨st.pbuf, updateTxdesc f.xmitframeNeedLength 0 0⟩ =
      st.pbuf + (f.xmitframeNeedLength + txdescSize) := by
    simp only [TxUnit.stop, TxUnit.data, updateTxdesc, hsz]
    omega
  refine ⟨⟨st.pbuf, updateTxdesc f.xmitframeNeedLength 0 0⟩, rfl, hroom, ?_, fun j hj => ?_, ?_,
    ds ++ [(⟨servq, f, f.coalesce env.fragLen st.pbuf 0⟩, st.tx.dequeued.length)], ?_, ?_⟩
  · rw [List.length_append]
    exact congrArg (· + 1) h.aggNum
  · rw [hkeep _ (by omega)]
    exact h.head j hj
  · have := h.laid.snoc (i := ⟨st.pbuf, updateTxdesc f.xmitframeNeedLength 0 0⟩) h.pbuf
    rw [hstop] at this
    exact this
  · show Usb.sent (st.dequeue env servq f fs).tx.dequeued = _
    rw [sent_dequeue, if_pos hc, hs]
    rfl
  · refine List.rel_append (describes_congr hdesc h.laid fun p _ => hkeep p) ?_
    refine .cons ⟨Nat.le_refl _, fun j hj => ?_, ?_, fun j hj => ?_⟩ .nil
    · show putDesc _ _ (updateTxdesc (f.coalesce env.fragLen st.pbuf 0).lastTxcmdsz 0 0) _ = _
      rw [hco]
      exact putDesc_self hj
    · show f.xmitframeNeedLength % 2 ^ 16 = (f.coalesce env.fragLen st.pbuf 0).addrs.length
      rw [hco, hsz]
      simp
    · show putDesc (putPkt st.tx.mem st.tx.dequeued.length (f.coalesce env.fragLen st.pbuf 0).addrs) st.pbuf _
        (st.pbuf + txdescSize + 0 * packetOffsetSz + j) = _
      rw [putDesc_of_ge (by omega), hco]
      have hj' : j < f.xmitframeNeedLength := hsz ▸ hj
      rw [show st.pbuf + txdescSize + 0 * packetOffsetSz + j = st.pbuf + (txdescSize + 0 * packetOffsetSz) + j by omega]
      exact putPkt_range hj'

theorem AggRun.layout (h : AggRun env servq fs st st' gs) (hfit : ∀ g ∈ gs, g.Fits env.fragLen)
    (hl : Layout x k st us) : ∃ us', Layout x k st' us' := by
  induction h generalizing us with
  | stop => exact ⟨us, hl⟩
  | fail hc _ ih => exact ih hfit (hl.fail hc)
  | @put f fs st _ gs _ _ hc hle _ ih =>
    obtain ⟨u, hu⟩ : ∃ u, Layout x k ((st.dequeue env servq f fs).put env f) (us ++ [u]) :=
      hl.put hc (hfit f (List.mem_cons_self ..)) hle
    exact ih (fun g hg => hfit g (List.mem_cons_of_mem _ hg))
      ⟨hu.pbuf, hu.le, hu.aggNum, hu.head, hu.laid, hu.sent⟩

/-! ### The whole call -/

theorem pending_rearrange (b : Bool) : (q.rearrange servq b).pending = q.pending := by
  unfold TxQueues.rearrange
  split
  · rfl
  · split <;> rfl

/-- Step 2 is a run over the queue of the first frame, and some change of the lists of stations. -/
theorem aggregate_run (env : TxEnv) (f : TxFrame) (s : TxState) : ∃ descCount bulkPtr st' q',
    AggRun env (f.psta, acOf f.priority) (s.queues.pending (f.psta, acOf f.priority))
      { tx := s
        pbuf := rnd8 (f.xmitframeNeedLength + txdescSize + packetOffsetSz)
        pbufTail := f.xmitframeNeedLength + txdescSize + packetOffsetSz
        aggNum := 1, descCount, bulkPtr } st' (admittedBehind env f s.queues) ∧
      q'.pending = st'.tx.queues.pending ∧
      aggregate env f s = { st' with tx := { st'.tx with queues := q' } } := by
  unfold aggregate admittedBehind
  dsimp only
  cases env.checkBulk (rnd8 (f.xmitframeNeedLength + txdescSize + packetOffsetSz)) 0 env.usbBulkOutSize with
  | none => exact ⟨0, env.usbBulkOutSize, _, s.queues, .stop, rfl, rfl⟩
  | some b => exact ⟨b.1, b.2, _, _, aggLoop_run, pending_rearrange _, rfl⟩

/-- Every frame of a unit is contiguous, and so it is one MPDU. -/
theorem fits_of_describes {t : TxTransfer} (hi : TxInv env q s) (ht : TransferOk s.dequeued t us)
    (hmem : ∀ p k j, t.mem p = .pkt k j → s.mem p = .pkt k j) (hd : d ∈ sent s.dequeued) :
    d.1.frame.Fits env.fragLen := by
  obtain ⟨hget, hok⟩ := mem_sent.1 hd
  obtain ⟨b, o, hco⟩ := hi.coalesced d.1 (List.mem_of_getElem? hget)
  have hc : d.1.frame.CanCoalesce := by
    rw [hco, TxFrame.coalesce_ok, decide_eq_true_eq] at hok
    exact hok
  obtain ⟨u, hu⟩ : ∃ u, Describes t.mem u d := by
    obtain ⟨i, hi, rfl⟩ := List.mem_iff_getElem.1 hd
    exact ⟨_, (List.forall₂_iff_get.1 ht.describes).2 i (ht.describes.length_eq ▸ hi) hi⟩
  by_contra hfit
  have hgap : ¬ Contiguous d.1.coalesced.addrs := hco ▸ TxFrame.not_contiguous_of_not_fits hfit hc
  refine hgap ⟨u.data, fun j hj => ?_⟩
  obtain ⟨d', hd', haddr⟩ := hi.origin _ _ _ (hmem _ _ _ (hu.pkt j (hu.size ▸ hj)))
  cases hget.symm.trans hd'
  exact haddr

theorem complete_of_none (h : pickFirst env ⟨q, fun _ => .other, []⟩ = (none, s)) :
    rtl8812auXmitframeComplete env q = ⟨s.queues, s.dequeued, none⟩ := by
  unfold rtl8812auXmitframeComplete
  rw [h]

theorem complete_of_some (h : pickFirst env ⟨q, fun _ => .other, []⟩ = (some x, s)) :
    rtl8812auXmitframeComplete env q = finish env x (aggregate env x.frame s) := by
  unfold rtl8812auXmitframeComplete
  rw [h]

theorem mod_of_mod_bulk {n : Nat} (h : n % env.usbBulkOutSize = 0) : n % 64 = 0 := by
  rcases env.bulk_eq with hb | hb | hb <;> rw [hb] at h <;> omega

/-- A packet offset that is taken out does not bring a transfer that is too long into the buffer. -/
theorem le_of_finish {n : Nat}
    (h : n - (if n % env.usbBulkOutSize = 0 then packetOffsetSz else 0) ≤ maxXmitbufSz) : n ≤ maxXmitbufSz := by
  unfold packetOffsetSz maxXmitbufSz at *
  split at h
  · rename_i hb
    have := mod_of_mod_bulk hb
    omega
  · exact h

theorem mpdusFit_of_completeOk (hf : FirstFrame env q f q')
    (h : CompleteOk q (rtl8812auXmitframeComplete env q)) : MpdusFit env f q' := by
  obtain ⟨hnone, hsome⟩ := pickFirst_spec (TxInv.start : TxInv env q _) rfl
  cases hp : pickFirst env ⟨q, fun _ => .other, []⟩ with
  | mk x s =>
  cases x with
  | none => exact absurd hf ((hnone s hp).2.2 f q')
  | some x =>
    obtain ⟨k, hpick⟩ := hsome x s hp
    obtain ⟨rfl, rfl⟩ := hf.unique hpick.firstFrame
    obtain ⟨descCount, bulkPtr, st, q', hrun, hq, hagg⟩ := aggregate_run env x.frame s
    rw [complete_of_some hp, hagg] at h
    obtain ⟨us, ht⟩ := h.transfer _ rfl
    have hinv : TxInv env q st.tx := hrun.inv hpick.inv rfl
    have hall : ∀ d ∈ sent st.tx.dequeued, d.1.frame.Fits env.fragLen := fun d hd =>
      fits_of_describes hinv ht (fun _ _ _ => putDesc_eq_pkt) hd
    have hfits : ∀ g ∈ x.frame :: admittedBehind env x.frame s.queues, g.Fits env.fragLen := by
      intro g hg
      have hmap := hrun.sent_eq
      rw [hpick.sent] at hmap
      obtain ⟨d, hd, rfl⟩ := List.mem_map.1 (hmap ▸ hg : g ∈ (sent st.tx.dequeued).map (·.1.frame))
      exact hall d hd
    refine ⟨?_, hfits _ (List.mem_cons_self ..), fun g hg => hfits g (List.mem_cons_of_mem _ hg)⟩
    exact (hrun.pbufTail_le (le_rnd8 _)).trans (le_of_finish ht.size)

theorem Picked.layout (h : Picked env q s x k s') (hf : MpdusFit env x.frame s'.queues) (descCount bulkPtr : Nat) :
    Layout x k
      { tx := s'
        pbuf := rnd8 (x.frame.xmitframeNeedLength + txdescSize + packetOffsetSz)
        pbufTail := x.frame.xmitframeNeedLength + txdescSize + packetOffsetSz
        aggNum := 1, descCount, bulkPtr } [] where
  pbuf := rfl
  le := hf.room
  aggNum := rfl
  head j hj := by
    obtain ⟨mem, hmem⟩ := h.mem
    show s'.mem _ = _
    rw [hmem, h.coalesced, TxFrame.coalesce_of_fits hf.first h.can]
    exact putPkt_range hj
  laid := by
    show _ + _ + _ = _ + _ + _
    omega
  sent := ⟨[], h.sent, .nil⟩

theorem Layout.finish (h : Layout x k st us) (hc : x.frame.CanCoalesce) (hf : x.frame.Fits env.fragLen)
    (hco : x.coalesced = x.frame.coalesce env.fragLen 0 1) :
    ∀ t ∈ (finish env x st).transfer, ∃ u, TransferOk st.tx.dequeued t (u :: us) := by
  obtain ⟨ds, hs, hdesc⟩ := h.sent
  rw [TxFrame.coalesce_of_fits hf hc] at hco
  intro t ht
  cases ht
  rw [hco]
  -- the descriptor begins at 0 or 8, and the packet is at 48 in both cases
  obtain ⟨start, pktOffset, hstart, hoffset, hsum⟩ : ∃ start pktOffset,
      (if st.pbufTail % env.usbBulkOutSize = 0 then packetOffsetSz else 0) = start ∧
      (if st.pbufTail % env.usbBulkOutSize = 0 then 0 else 1) = pktOffset ∧
        start + pktOffset * packetOffsetSz = packetOffsetSz := by
    split
    · exact ⟨_, _, rfl, rfl, rfl⟩
    · exact ⟨_, _, rfl, rfl, rfl⟩
  rw [hstart, hoffset]
  have hrnd : rnd8 start = start := by
    refine rnd8_of_mod ?_
    unfold packetOffsetSz at hsum
    omega
  have hle := h.le
  have hhead := h.laid.le le_rnd8 TxUnit.le_stop
  have hsz : x.frame.xmitframeNeedLength % 2 ^ 16 = x.frame.xmitframeNeedLength :=
    Nat.mod_eq_of_lt (by unfold maxXmitbufSz at hle; omega)
  let u : TxUnit := ⟨start, updateTxdesc x.frame.xmitframeNeedLength pktOffset st.aggNum⟩
  have hdata : u.data = txdescSize + packetOffsetSz := by
    show start + txdescSize + pktOffset * packetOffsetSz = _
    omega
  have hstop : u.stop = txdescSize + packetOffsetSz + x.frame.xmitframeNeedLength := by
    show u.data + x.frame.xmitframeNeedLength % 2 ^ 16 = _
    rw [hdata, hsz]
  have hend : start + (st.pbufTail - start) = st.pbufTail := by omega
  have hlaid : Chain.Laid rnd8 TxUnit.pos TxUnit.stop start (u :: us) (start + (st.pbufTail - start)) := by
    rw [hend]
    exact ⟨hrnd.symm, hstop ▸ h.laid⟩
  refine ⟨u, (Nat.sub_le ..).trans hle, hlaid, hlaid.pairwise le_rnd8 TxUnit.le_stop, h.aggNum.symm, fun v hv => ?_, ?_⟩
  · cases hv
    rfl
  · rw [hs]
    refine .cons ⟨Nat.le_refl _, fun j hj => putDesc_self hj, ?_, fun j hj => ?_⟩ ?_
    · show x.frame.xmitframeNeedLength % 2 ^ 16 = x.coalesced.addrs.length
      rw [hco, hsz]
      simp
    · show putDesc _ start _ (u.data + j) = _
      rw [hdata, putDesc_of_ge (by omega)]
      exact h.head j (hsz ▸ hj)
    · exact describes_congr hdesc h.laid fun p hp _ => putDesc_of_ge (by omega)

theorem completeOk_of_mpdusFit (h : ∀ f q', FirstFrame env q f q' → MpdusFit env f q') :
    CompleteOk q (rtl8812auXmitframeComplete env q) := by
  obtain ⟨hnone, hsome⟩ := pickFirst_spec (TxInv.start : TxInv env q _) rfl
  cases hp : pickFirst env ⟨q, fun _ => .other, []⟩ with
  | mk x s =>
  cases x with
  | none =>
    obtain ⟨hinv, hsent, -⟩ := hnone s hp
    rw [complete_of_none hp]
    exact ⟨hinv.queued, fun _ => hsent, fun t ht => (by cases ht)⟩
  | some x =>
    obtain ⟨k, hpick⟩ := hsome x s hp
    have hfit := h _ _ hpick.firstFrame
    obtain ⟨descCount, bulkPtr, st, q', hrun, hq, hagg⟩ := aggregate_run env x.frame s
    have hinv : TxInv env q st.tx := hrun.inv hpick.inv rfl
    obtain ⟨us, hl⟩ := hrun.layout hfit.behind (hpick.layout hfit descCount bulkPtr)
    rw [complete_of_some hp, hagg]
    refine ⟨(hinv.queues hq).queued, fun ht => (by cases ht), fun t ht => ?_⟩
    obtain ⟨u, hu⟩ := hl.finish hpick.can hfit.first hpick.coalesced t ht
    exact ⟨u :: us, hu⟩

end

/-- The buffer is right exactly when the first frame has room in it and no frame of the aggregate is
fragmented. -/
theorem completeOk_iff (env : TxEnv) (q : TxQueues) :
    CompleteOk q (rtl8812auXmitframeComplete env q) ↔ ∀ f q', FirstFrame env q f q' → MpdusFit env f q' :=
  ⟨fun h _ _ hf => mpdusFit_of_completeOk hf h, completeOk_of_mpdusFit⟩

/-- High speed, and `iwconfig frag 256`. -/
def fragEnv : TxEnv where
  wifiSpec := false
  wmmParaSeq := []
  fragLen := 256
  usbBulkOutSize := 512
  usbTxAggDescNum := 1
  apState := false
  bulk_eq := .inr (.inl rfl)

/-- A packet of 300 bytes. -/
def fragFrame : TxFrame where
  attrib := {
    bmcast := false, etherType := 0x0800, pktlen := 300, encrypt := .noPrivacy, keyIdx := 0, ivLen := 0, icvLen := 0
    iv := [], bswenc := false }
  psta := 0
  priority := 0
  qsel := 0
  hdrlen := 24
  wlanhdr := some (List.replicate 24 0)
  payload := List.replicate 300 0
  sw := ⟨false, fun _ => 0⟩
  length_hdr _ h := by cases h; rfl
  le_hdrlen := Nat.le_refl _
  pktlen_eq := List.length_replicate.symm
  ivLen_eq := rfl
  lt := by rw [List.length_replicate]; decide

def fragQueues : TxQueues where
  staQueue ac := if ac = .be then [0] else []
  pending servq := if servq = (0, .be) then [fragFrame] else []

/-- The descriptor of a packet in two fragments has the length of the second one. -/
theorem not_completeOk_frag : ¬ CompleteOk fragQueues (rtl8812auXmitframeComplete fragEnv fragQueues) := by
  intro h
  have hfirst : FirstFrame fragEnv fragQueues fragFrame _ := .here rfl (by decide)
  have hfit := (mpdusFit_of_completeOk hfirst h).first
  rcases hfit _ rfl with hb | hlen
  · cases hb
  · have hpayload : fragFrame.payload.length = 300 := List.length_replicate
    rw [hpayload] at hlen
    exact absurd hlen (by decide)

end Rtw.Usb
