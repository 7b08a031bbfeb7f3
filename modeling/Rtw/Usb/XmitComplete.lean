import Rtw.Lib.Chain
import Rtw.Usb.TxQueues

/-!
# USB transmit aggregation

`rtl8812au_xmitframe_complete` fills one transmit buffer: a frame with a descriptor and a packet offset, and
behind it frames of the same station and priority, each at a multiple of 8. It moves on by the length that
`xmitframe_need_length` predicts, and does not compare the length of the first frame with anything.
`completeOk_iff` says when the buffer is what the device takes it for.
-/

namespace Rtw.Usb

def maxXmitbufSz : Nat := 20480

def maxTxAggPacketNumber : Nat := 0xff

/-- The fields of a transmit descriptor that say where the packet is, and how many there are. -/
structure TxDesc where
  pktSize : Nat
  offset : Nat
  pktOffset : Nat
  usbTxaggNum : Nat
  deriving DecidableEq

/-- A byte of the transmit buffer: of a descriptor, of the frame that was dequeued as number `k`, or
neither. -/
inductive TxCell where
  | other
  | desc (d : TxDesc) (j : Nat)
  | pkt (k j : Nat)
  deriving DecidableEq

/-- A frame that has been dequeued. -/
structure Dequeued where
  servq : TxServq
  frame : TxFrame
  coalesced : Coalesced

/-- The queues, the transmit buffer, and the frames dequeued so far. -/
structure TxState where
  queues : TxQueues
  mem : Nat → TxCell
  dequeued : List Dequeued

/-- The part of `update_txdesc` for a frame in an aggregate. -/
def updateTxdesc (sz pktOffset aggNum : Nat) : TxDesc where
  pktSize := sz % 2 ^ 16
  offset := txdescSize
  pktOffset
  usbTxaggNum := if aggNum > 1 then aggNum else 0

/-- The bytes of frame number `k` in the buffer. -/
def putPkt (mem : Nat → TxCell) (k : Nat) (addrs : List Nat) (p : Nat) : TxCell :=
  match addrs.idxOf? p with
  | some j => .pkt k j
  | none => mem p

def putDesc (mem : Nat → TxCell) (ptxdesc : Nat) (d : TxDesc) (p : Nat) : TxCell :=
  if ptxdesc ≤ p ∧ p < ptxdesc + txdescSize then .desc d (p - ptxdesc) else mem p

/-- A frame has been dequeued, and `rtw_xmitframe_coalesce` is called. -/
def TxState.coalesce (s : TxState) (queues : TxQueues) (servq : TxServq) (f : TxFrame) (c : Coalesced) : TxState where
  queues
  mem := putPkt s.mem s.dequeued.length c.addrs
  dequeued := s.dequeued ++ [⟨servq, f, c⟩]

/-- Step 1: the first frame that can be coalesced. -/
def pickFirst (env : TxEnv) (s : TxState) : Option Dequeued × TxState :=
  match _h : env.rtwDequeueXframe s.queues with
  | none => (none, s)
  | some (servq, f, queues) =>
    let c := f.coalesce env.fragLen 0 1
    let s := s.coalesce queues servq f c
    if c.ok then (some ⟨servq, f, c⟩, s) else pickFirst env s
termination_by s.queues.size env.inx
decreasing_by exact size_lt _h

/-- The variables of step 2. -/
structure AggState where
  tx : TxState
  pbuf : Nat
  pbufTail : Nat
  aggNum : Nat
  descCount : Nat
  bulkPtr : Nat

/-- `f` is taken from the head of the queue and coalesced at `pbuf`. -/
def AggState.dequeue (st : AggState) (env : TxEnv) (servq : TxServq) (f : TxFrame) (fs : List TxFrame) : AggState :=
  let queues := st.tx.queues.setPending servq fs
  { st with tx := st.tx.coalesce queues servq f (f.coalesce env.fragLen st.pbuf 0) }

/-- `f`, which has been coalesced at `pbuf`, is added to the transfer. -/
def AggState.put (st : AggState) (env : TxEnv) (f : TxFrame) : AggState :=
  let c := f.coalesce env.fragLen st.pbuf 0
  let pbufTail := st.pbuf + (f.xmitframeNeedLength + txdescSize)
  { st with
    tx := { st.tx with mem := putDesc st.tx.mem st.pbuf (updateTxdesc c.lastTxcmdsz 0 0) }
    pbuf := rnd8 pbufTail
    pbufTail
    aggNum := st.aggNum + 1 }

/-- The loop of step 2 over the rest of a queue. -/
def aggLoop (env : TxEnv) (first : TxFrame) (servq : TxServq) : List TxFrame → AggState → AggState
  | [], st => st
  | f :: fs, st =>
    let len := f.xmitframeNeedLength + txdescSize
    if !env.busaggQselCheck first.qsel f.qsel || rnd8 (st.pbuf + len) > maxXmitbufSz then st
    else
      let st' := st.dequeue env servq f fs
      if !(f.coalesce env.fragLen st.pbuf 0).ok then aggLoop env first servq fs st'
      else
        let st' := st'.put env f
        if st'.aggNum = maxTxAggPacketNumber then st'
        else
          match env.checkBulk st'.pbuf st'.descCount st'.bulkPtr with
          | none => st'
          | some (descCount, bulkPtr) => aggLoop env first servq fs { st' with descCount, bulkPtr }

/-- The end of step 2: a queue that is empty leaves the list of its category, and one of several goes to its
end. -/
def TxQueues.rearrange (q : TxQueues) (servq : TxServq) (singleSta : Bool) : TxQueues :=
  if (q.pending servq).isEmpty then q.unlink servq
  else if !singleSta then (q.unlink servq).linkTail servq
  else q

/-- Step 2. -/
def aggregate (env : TxEnv) (first : TxFrame) (tx : TxState) : AggState :=
  let pbufTail := first.xmitframeNeedLength + txdescSize + packetOffsetSz
  let pbuf := rnd8 pbufTail
  let st := { tx, pbuf, pbufTail, aggNum := 1, descCount := 0, bulkPtr := env.usbBulkOutSize }
  match env.checkBulk pbuf 0 env.usbBulkOutSize with
  | none => st
  | some (descCount, bulkPtr) =>
    let servq := (first.psta, acOf first.priority)
    let singleSta := (tx.queues.staQueue servq.2).length ≤ 1
    let st := aggLoop env first servq (tx.queues.pending servq) { st with descCount, bulkPtr }
    { st with tx := { st.tx with queues := st.tx.queues.rearrange servq singleSta } }

/-- What is passed to `rtw_write_port`: the part of the transmit buffer, and `agg_num`. -/
structure TxTransfer where
  mem : Nat → TxCell
  start : Nat
  len : Nat
  aggNum : Nat

/-- What a call leads to. -/
structure TxResult where
  queues : TxQueues
  dequeued : List Dequeued
  transfer : Option TxTransfer

/-- Step 3: the packet offset of the first frame is taken out again when the length is a multiple of the bulk
size. -/
def finish (env : TxEnv) (first : Dequeued) (st : AggState) : TxResult :=
  let atBoundary := st.pbufTail % env.usbBulkOutSize = 0
  let start := if atBoundary then packetOffsetSz else 0
  let pktOffset := if atBoundary then 0 else 1
  { queues := st.tx.queues
    dequeued := st.tx.dequeued
    transfer := some {
      mem := putDesc st.tx.mem start (updateTxdesc first.coalesced.lastTxcmdsz pktOffset st.aggNum)
      start
      len := st.pbufTail - start
      aggNum := st.aggNum } }

/-- `rtl8812au_xmitframe_complete`, with a transmit buffer at hand. -/
def rtl8812auXmitframeComplete (env : TxEnv) (q : TxQueues) : TxResult :=
  match pickFirst env ⟨q, fun _ => .other, []⟩ with
  | (none, s) => ⟨s.queues, s.dequeued, none⟩
  | (some first, s) => finish env first (aggregate env first.frame s)

/-! ### What the device finds -/

/-- A descriptor with the packet that it describes. -/
structure TxUnit where
  pos : Nat
  desc : TxDesc

namespace TxUnit

def data (u : TxUnit) : Nat := u.pos + u.desc.offset + u.desc.pktOffset * packetOffsetSz

def stop (u : TxUnit) : Nat := u.data + u.desc.pktSize

/-- The unit is in the buffer, and its packet is exactly the bytes that a frame was coalesced to. -/
structure Describes (mem : Nat → TxCell) (u : TxUnit) (d : Dequeued × Nat) : Prop where
  offset : txdescSize ≤ u.desc.offset
  desc : ∀ j, j < txdescSize → mem (u.pos + j) = .desc u.desc j
  size : u.desc.pktSize = d.1.coalesced.addrs.length
  pkt : ∀ j, j < u.desc.pktSize → mem (u.data + j) = .pkt d.2 j

end TxUnit

/-- The frames that coalescing did not fail for, with their numbers. -/
def sent (ds : List Dequeued) : List (Dequeued × Nat) := ds.zipIdx.filter fun d => d.1.coalesced.ok

/-- The transfer is a chain of units, one for each frame that was coalesced, in this order. -/
structure TransferOk (ds : List Dequeued) (t : TxTransfer) (us : List TxUnit) : Prop where
  size : t.len ≤ maxXmitbufSz
  laid : Chain.Laid rnd8 TxUnit.pos TxUnit.stop t.start us (t.start + t.len)
  disjoint : us.Pairwise fun u v => u.stop ≤ v.pos
  aggNum : us.length = t.aggNum
  usbTxaggNum : ∀ u ∈ us.head?, u.desc.usbTxaggNum = if t.aggNum > 1 then t.aggNum else 0
  describes : List.Forall₂ (TxUnit.Describes t.mem) us (sent ds)

/-- From each queue frames were taken from the head, and no other way; those that could be coalesced are in
the transfer. -/
structure CompleteOk (q : TxQueues) (r : TxResult) : Prop where
  queued : ∀ servq, q.pending servq =
    (r.dequeued.filter fun d => d.servq = servq).map Dequeued.frame ++ r.queues.pending servq
  none : r.transfer = none → sent r.dequeued = []
  transfer : ∀ t ∈ r.transfer, ∃ us, TransferOk r.dequeued t us

/-! ### When it is right -/

/-- `f` is the first frame that can be coalesced, and `q'` is left behind it. -/
inductive FirstFrame (env : TxEnv) : TxQueues → TxFrame → TxQueues → Prop
  | here {q servq f q'} (h : env.rtwDequeueXframe q = some (servq, f, q')) (hc : f.CanCoalesce) :
    FirstFrame env q f q'
  | skip {q servq g q' f q''} (h : env.rtwDequeueXframe q = some (servq, g, q')) (hc : ¬ g.CanCoalesce)
    (hf : FirstFrame env q' f q'') : FirstFrame env q f q''

/-- The frames that are let into the aggregate behind the first one, by their lengths and their `qsel`. -/
def admitted (env : TxEnv) (qsel : Nat) : List TxFrame → Nat → Nat → Nat → Nat → List TxFrame
  | [], _, _, _, _ => []
  | f :: fs, pbuf, aggNum, descCount, bulkPtr =>
    let pbuf' := rnd8 (pbuf + (f.xmitframeNeedLength + txdescSize))
    if !env.busaggQselCheck qsel f.qsel || pbuf' > maxXmitbufSz then []
    else if ¬ f.CanCoalesce then admitted env qsel fs pbuf aggNum descCount bulkPtr
    else
      f :: if aggNum + 1 = maxTxAggPacketNumber then []
        else
          match env.checkBulk pbuf' descCount bulkPtr with
          | none => []
          | some (descCount, bulkPtr) => admitted env qsel fs pbuf' (aggNum + 1) descCount bulkPtr

/-- The frames behind the first one. -/
def admittedBehind (env : TxEnv) (f : TxFrame) (q : TxQueues) : List TxFrame :=
  let pbuf := rnd8 (f.xmitframeNeedLength + txdescSize + packetOffsetSz)
  match env.checkBulk pbuf 0 env.usbBulkOutSize with
  | none => []
  | some (descCount, bulkPtr) =>
    admitted env f.qsel (q.pending (f.psta, acOf f.priority)) pbuf 1 descCount bulkPtr

/-- The first frame has room in the buffer, and all frames of the aggregate are single MPDUs. -/
structure MpdusFit (env : TxEnv) (f : TxFrame) (q : TxQueues) : Prop where
  room : f.xmitframeNeedLength + txdescSize + packetOffsetSz ≤ maxXmitbufSz
  first : f.Fits env.fragLen
  behind : ∀ g ∈ admittedBehind env f q, g.Fits env.fragLen

/-! ### What the steps do -/

section
variable {env : TxEnv} {q q' q'' : TxQueues} {s s' : TxState} {st st' : AggState} {servq : TxServq} {f g : TxFrame}
  {fs gs : List TxFrame} {mem mem' : Nat → TxCell} {addrs : List Nat} {b o k j p descCount bulkPtr : Nat} {d : TxDesc}
  {ds : List Dequeued} {x : Dequeued}

theorem sent_append : sent (ds ++ [x]) = sent ds ++ if x.coalesced.ok then [(x, ds.length)] else [] := by
  unfold sent
  rw [List.zipIdx_append, List.filter_append]
  cases hx : x.coalesced.ok <;> simp [hx]

theorem mem_sent {y : Dequeued × Nat} : y ∈ sent ds ↔ ds[y.2]? = some y.1 ∧ y.1.coalesced.ok := by
  unfold sent
  rw [List.mem_filter, List.mem_zipIdx_iff_getElem?]

theorem putPkt_of_notMem (h : p ∉ addrs) : putPkt mem k addrs p = mem p := by
  rw [putPkt, List.idxOf?_eq_none_iff.2 h]

theorem putPkt_eq_pkt {k' : Nat} (h : putPkt mem k addrs p = .pkt k' j) :
    (k' = k ∧ addrs[j]? = some p) ∨ mem p = .pkt k' j := by
  unfold putPkt at h
  split at h
  · rename_i i hi
    cases h
    obtain ⟨hlt, hget, -⟩ := List.idxOf?_eq_some_iff.1 hi
    exact .inl ⟨rfl, List.getElem?_eq_some_iff.2 ⟨hlt, hget⟩⟩
  · exact .inr h

theorem putPkt_range {n : Nat} (h : j < n) : putPkt mem k ((List.range n).map (b + ·)) (b + j) = .pkt k j := by
  have hidx : ((List.range n).map (b + ·)).idxOf? (b + j) = some j := by
    refine List.idxOf?_eq_some_iff.2 ⟨by simpa using h, by simp, fun i hi => ?_⟩
    simp only [List.getElem_map, List.getElem_range]
    omega
  rw [putPkt, hidx]

theorem putDesc_eq_pkt (h : putDesc mem p d b = .pkt k j) : mem b = .pkt k j := by
  unfold putDesc at h
  split at h
  · cases h
  · exact h

theorem putDesc_self (h : j < txdescSize) : putDesc mem p d (p + j) = .desc d j := by
  rw [putDesc, if_pos ⟨by omega, by omega⟩, Nat.add_sub_cancel_left]

theorem putDesc_of_lt (h : b < p) : putDesc mem p d b = mem b := by
  rw [putDesc, if_neg (by omega)]

theorem putDesc_of_ge (h : p + txdescSize ≤ b) : putDesc mem p d b = mem b := by
  rw [putDesc, if_neg (by omega)]

/-- What holds after every step: frames were taken from the heads of the queues, and a byte of a packet is
where coalescing put it. -/
structure TxInv (env : TxEnv) (q : TxQueues) (s : TxState) : Prop where
  queued : ∀ servq, q.pending servq =
    (s.dequeued.filter fun d => d.servq = servq).map Dequeued.frame ++ s.queues.pending servq
  coalesced : ∀ d ∈ s.dequeued, ∃ b o, d.coalesced = d.frame.coalesce env.fragLen b o
  origin : ∀ p k j, s.mem p = .pkt k j → ∃ d, s.dequeued[k]? = some d ∧ d.coalesced.addrs[j]? = some p

theorem TxInv.start : TxInv env q ⟨q, fun _ => .other, []⟩ where
  queued _ := rfl
  coalesced _ h := by cases h
  origin _ _ _ h := by cases h

theorem TxInv.coalesce (h : TxInv env q s) (hp : s.queues.pending servq = f :: fs)
    (hq : q'.pending = Function.update s.queues.pending servq fs) :
    TxInv env q (s.coalesce q' servq f (f.coalesce env.fragLen b o)) where
  queued servq' := by
    simp only [TxState.coalesce, List.filter_append, List.map_append, hq]
    rw [h.queued servq', List.append_assoc]
    congr 1
    rcases eq_or_ne servq servq' with rfl | hne
    · rw [hp, Function.update_self]
      simp
    · rw [Function.update_of_ne hne.symm]
      simp [hne]
  coalesced d hd := by
    rcases List.mem_append.1 hd with hd | hd
    · exact h.coalesced d hd
    · rw [List.mem_singleton.1 hd]
      exact ⟨b, o, rfl⟩
  origin p k j hm := by
    show ∃ d, (s.dequeued ++ [_])[k]? = some d ∧ _
    rcases putPkt_eq_pkt hm with ⟨rfl, haddr⟩ | hm
    · exact ⟨_, List.getElem?_concat_length .., haddr⟩
    · obtain ⟨d, hd, haddr⟩ := h.origin p k j hm
      obtain ⟨hlt, -⟩ := List.getElem?_eq_some_iff.1 hd
      exact ⟨d, by rw [List.getElem?_append_left hlt, hd], haddr⟩

theorem TxInv.putDesc (h : TxInv env q s) : TxInv env q { s with mem := putDesc s.mem p d } where
  queued := h.queued
  coalesced := h.coalesced
  origin _ _ _ hm := h.origin _ _ _ (putDesc_eq_pkt hm)

theorem TxInv.queues (h : TxInv env q s) (hq : q'.pending = s.queues.pending) : TxInv env q { s with queues := q' } where
  queued servq := by
    show _ = _ ++ q'.pending servq
    rw [hq]
    exact h.queued servq
  coalesced := h.coalesced
  origin := h.origin

theorem FirstFrame.unique (hf : FirstFrame env q f q') (hg : FirstFrame env q g q'') : f = g ∧ q' = q'' := by
  induction hf with
  | here h hc =>
    cases hg with
    | here h' hc' =>
      cases h.symm.trans h'
      exact ⟨rfl, rfl⟩
    | skip h' hc' _ =>
      cases h.symm.trans h'
      exact absurd hc hc'
  | skip h hc _ ih =>
    cases hg with
    | here h' hc' =>
      cases h.symm.trans h'
      exact absurd hc' hc
    | skip h' hc' hg =>
      cases h.symm.trans h'
      exact ih hg

end

end Rtw.Usb
