import Mathlib.Data.Fintype.Prod
import Mathlib.Tactic.DeriveFintype
import Rtw.Usb.XmitComplete

/-!
# The pools of transmit frames and buffers

`rtw_xmit` takes a frame from the pool, and the frame waits in a queue or is sent at once, with a buffer from
the pool of buffers; `rtl8812au_xmitframe_complete` sends frames from the queues. Calls run one step at a time,
any number of them side by side, and a transfer that the USB core has accepted may complete between any two
steps. Each call of `rtw_xmit` has a packet of its own, and packets are numbered by these calls. What other
parts of the driver decide (whether a station sleeps, whether a transfer is accepted) is the answer that a step
gets.
-/

namespace Rtw

instance : Fintype Ac := ⟨{.bk, .be, .vi, .vo}, fun ac => by cases ac <;> decide⟩

namespace Usb

def nrXmitframe : Nat := 256

def nrXmitbuff : Nat := 4

/-- An entry of the data pool with its attributes; `pkt` is the packet that it still has to complete. -/
structure PoolFrame where
  id : Nat
  frame : TxFrame
  pkt : Option Nat

namespace PoolFrame

/-- The frame's queue in its station. -/
def servq (f : PoolFrame) : TxServq := (f.frame.psta, acOf f.frame.priority)

/-- `nr_frags`, an `u8`, as `rtw_xmitframe_coalesce` leaves it for a frame that is sent alone. -/
def nrFrags (f : PoolFrame) (fragLen : Nat) : Nat :=
  (rtwXmitframeCoalesce (f.frame.coalesceEnv fragLen 0 1) f.frame.attrib f.frame.payload).length % 2 ^ 8

end PoolFrame

/-- The variables of step 2 of `rtl8812au_xmitframe_complete`. -/
structure AggVars where
  pbuf : Nat
  aggNum : Nat
  descCount : Nat
  bulkPtr : Nat

/-- A running call, by the place where it is, with the frame and the buffer in its hands. -/
inductive TxCall where
  /-- `rtw_xmit` up to `update_attrib` -/
  | attrib (id pkt : Nat)
  /-- `rtw_xmit` at `xmitframe_enqueue_for_sleeping_sta` -/
  | sleeping (f : PoolFrame)
  /-- `pre_xmitframe` -/
  | preXmit (f : PoolFrame)
  /-- `xmitframe_direct` -/
  | direct (b : Nat) (f : PoolFrame)
  /-- `rtw_dump_xframe` with `n` fragments left -/
  | dump (b : Nat) (f : PoolFrame) (n : Nat) (written : Bool)
  /-- step 1 of `rtl8812au_xmitframe_complete` -/
  | pick (b : Nat)
  /-- step 1 with a frame -/
  | first (b : Nat) (f : PoolFrame)
  /-- step 2 -/
  | agg (b : Nat) (f : PoolFrame) (v : AggVars)
  /-- step 2 with another frame `g` -/
  | behind (b : Nat) (f : PoolFrame) (v : AggVars) (g : PoolFrame)
  /-- step 4 -/
  | write (b : Nat) (f : PoolFrame)
  /-- the end -/
  | last (f : PoolFrame)

/-- What the rest of the driver and the USB core answer: the attributes that `update_attrib` finds, whether
the frame goes to a sleeping queue, whether something keeps `pre_xmitframe` from sending at once, whether
`rtw_xmit_classifier` finds the station, and whether the transfer is accepted. -/
structure TxAnswer where
  attrib : Option TxFrame
  asleep : Bool
  blocked : Bool
  classified : Bool
  submitted : Bool

/-- The pools, the queues, the running calls, the transfers under way, and the packets of `rtw_xmit`: how many
there have been, those for which it has returned an error, and those that have been completed. -/
structure TxPool where
  freeXmitQueue : List Nat
  freeXmitframeCnt : Int
  freeXmitbufQueue : List Nat
  freeXmitbufCnt : Int
  staQueue : Ac → List StaId
  pending : TxServq → List PoolFrame
  sleepQ : StaId → List PoolFrame
  calls : List TxCall
  transfers : List Nat
  pkts : Nat
  rejected : List Nat
  completed : List Nat

namespace TxPool

/-- `rtw_os_pkt_complete` for the packet that a frame has. -/
def osXmitComplete (s : TxPool) (f : PoolFrame) : TxPool := { s with completed := f.pkt.toList ++ s.completed }

/-- The free queue and its count, in `rtw_free_xmitframe`. -/
def freeFrame (s : TxPool) (id : Nat) : TxPool :=
  { s with
    freeXmitQueue := s.freeXmitQueue.filter (· ≠ id) ++ [id]
    freeXmitframeCnt := s.freeXmitframeCnt + 1 }

def rtwFreeXmitframe (s : TxPool) (f : PoolFrame) : TxPool := (s.freeFrame f.id).osXmitComplete f

def rtwFreeXmitbuf (s : TxPool) (b : Nat) : TxPool :=
  { s with
    freeXmitbufQueue := s.freeXmitbufQueue.filter (· ≠ b) ++ [b]
    freeXmitbufCnt := s.freeXmitbufCnt + 1 }

def rtwAllocXmitframe (s : TxPool) : Option (Nat × TxPool) :=
  match s.freeXmitQueue with
  | [] => none
  | id :: l => some (id, { s with freeXmitQueue := l, freeXmitframeCnt := s.freeXmitframeCnt - 1 })

def rtwAllocXmitbuf (s : TxPool) : Option (Nat × TxPool) :=
  match s.freeXmitbufQueue with
  | [] => none
  | b :: l => some (b, { s with freeXmitbufQueue := l, freeXmitbufCnt := s.freeXmitbufCnt - 1 })

def setPending (s : TxPool) (servq : TxServq) (l : List PoolFrame) : TxPool :=
  { s with pending := Function.update s.pending servq l }

def setSleepQ (s : TxPool) (i : StaId) (l : List PoolFrame) : TxPool :=
  { s with sleepQ := Function.update s.sleepQ i l }

def setStaQueue (s : TxPool) (ac : Ac) (l : List StaId) : TxPool :=
  { s with staQueue := Function.update s.staQueue ac l }

/-- `rtw_list_delete` on `tx_pending` -/
def unlink (s : TxPool) (servq : TxServq) : TxPool := s.setStaQueue servq.2 ((s.staQueue servq.2).erase servq.1)

/-- A call goes on, or begins. -/
def call (s : TxPool) (c : TxCall) : TxPool := { s with calls := c :: s.calls }

/-- `rtw_xmit_classifier` for a frame whose station it finds. -/
def rtwXmitClassifier (s : TxPool) (f : PoolFrame) : TxPool :=
  let queue := s.staQueue f.servq.2
  let s := if f.servq.1 ∈ queue then s else s.setStaQueue f.servq.2 (queue ++ [f.servq.1])
  s.setPending f.servq (s.pending f.servq ++ [f])

/-- `rtw_xmitframe_enqueue`, and what its callers do when it fails. -/
def enqueue (s : TxPool) (f : PoolFrame) (classified : Bool) : TxPool :=
  if classified then s.rtwXmitClassifier f else s.rtwFreeXmitframe f

/-- `rtw_write_port`: the buffer is under way, or `usb_write_port` frees it. -/
def rtwWritePort (s : TxPool) (b : Nat) (submitted : Bool) : TxPool :=
  if submitted then { s with transfers := b :: s.transfers } else s.rtwFreeXmitbuf b

/-- The frame that `dequeue_one_xmitframe` takes from a queue. -/
def dequeueServq (s : TxPool) (servq : TxServq) : Option (PoolFrame × TxPool) :=
  match s.pending servq with
  | [] => none
  | f :: fs =>
    let s := s.setPending servq fs
    some (f, if fs.isEmpty then s.unlink servq else s)

def rtwDequeueXframe (s : TxPool) (env : TxEnv) : Option (PoolFrame × TxPool) :=
  env.inx.findSome? fun ac => (s.staQueue ac).findSome? fun i => s.dequeueServq (i, ac)

/-- The end of step 2: the queue leaves the list of its category, or goes to its end. -/
def rearrange (s : TxPool) (servq : TxServq) : TxPool :=
  if (s.pending servq).isEmpty then s.unlink servq
  else if (s.staQueue servq.2).length ≤ 1 then s
  else (s.unlink servq).setStaQueue servq.2 ((s.unlink servq).staQueue servq.2 ++ [servq.1])

/-- Step 2 begins, unless one frame is all that goes into a transfer. -/
def aggStart (s : TxPool) (env : TxEnv) (b : Nat) (f : PoolFrame) : TxPool :=
  let pbuf := rnd8 (f.frame.xmitframeNeedLength + txdescSize + packetOffsetSz)
  match env.checkBulk pbuf 0 env.usbBulkOutSize with
  | none => s.call (.write b f)
  | some (descCount, bulkPtr) => s.call (.agg b f ⟨pbuf, 1, descCount, bulkPtr⟩)

/-- The loop of step 2 takes the next frame, or ends. -/
def aggNext (s : TxPool) (env : TxEnv) (b : Nat) (f : PoolFrame) (v : AggVars) : TxPool :=
  match s.pending f.servq with
  | [] => (s.rearrange f.servq).call (.write b f)
  | g :: gs =>
    let len := g.frame.xmitframeNeedLength + txdescSize
    if !env.busaggQselCheck f.frame.qsel g.frame.qsel || rnd8 (v.pbuf + len) > maxXmitbufSz then
      (s.rearrange f.servq).call (.write b f)
    else (s.setPending f.servq gs).call (.behind b f v g)

/-- The loop of step 2 behind a frame that it has put into the buffer. -/
def aggPut (s : TxPool) (env : TxEnv) (b : Nat) (f : PoolFrame) (v : AggVars) (g : PoolFrame) : TxPool :=
  let pbuf := rnd8 (v.pbuf + (g.frame.xmitframeNeedLength + txdescSize))
  if v.aggNum + 1 = maxTxAggPacketNumber then (s.rearrange f.servq).call (.write b f)
  else
    match env.checkBulk pbuf v.descCount v.bulkPtr with
    | none => (s.rearrange f.servq).call (.write b f)
    | some (descCount, bulkPtr) => s.call (.agg b f ⟨pbuf, v.aggNum + 1, descCount, bulkPtr⟩)

/-- One step of a call, which has been taken out of `calls`. -/
def step (s : TxPool) (env : TxEnv) (a : TxAnswer) : TxCall → TxPool
  | .attrib id pkt =>
    match a.attrib with
    | none => { s.freeFrame id with rejected := pkt :: s.rejected }
    | some frame => s.call (.sleeping ⟨id, frame, some pkt⟩)
  | .sleeping f =>
    if a.asleep then s.setSleepQ f.frame.psta (s.sleepQ f.frame.psta ++ [f]) else s.call (.preXmit f)
  | .preXmit f =>
    if (s.pending f.servq).isEmpty && !a.blocked then
      match s.rtwAllocXmitbuf with
      | none => s.enqueue f a.classified
      | some (b, s) => s.call (.direct b f)
    else s.enqueue f a.classified
  | .direct b f =>
    if f.frame.CanCoalesce then s.call (.dump b f (f.nrFrags env.fragLen) false)
    else (s.rtwFreeXmitbuf b).rtwFreeXmitframe f
  | .dump b f (n + 1) _ => (s.rtwWritePort b a.submitted).call (.dump b f n true)
  | .dump _ f 0 _ => s.rtwFreeXmitframe f
  | .pick b =>
    match s.rtwDequeueXframe env with
    | none => s.rtwFreeXmitbuf b
    | some (f, s) => s.call (.first b f)
  | .first b f =>
    if f.frame.CanCoalesce then (s.osXmitComplete f).aggStart env b { f with pkt := none }
    else (s.rtwFreeXmitframe f).call (.pick b)
  | .agg b f v => s.aggNext env b f v
  | .behind b f v g =>
    if g.frame.CanCoalesce then
      ((s.osXmitComplete g).rtwFreeXmitframe { g with pkt := none }).aggPut env b f v g
    else (s.rtwFreeXmitframe g).call (.agg b f v)
  | .write b f => (s.rtwWritePort b a.submitted).call (.last f)
  | .last f => s.rtwFreeXmitframe f

end TxPool

/-- `rtw_xmit` and `rtl8812au_xmitframe_complete` are called, or one of the calls goes on; a transfer
completes; `dequeue_xmitframes_to_sleeping_queue` moves a frame, and unlinks a queue; a frame leaves a sleeping
queue for `rtl8812au_hal_xmitframe_enqueue`; `rtw_free_xmitframe_queue` frees a frame. The settings, `frag_len`
among them, may change from step to step. -/
inductive TxPoolEvent where
  | xmit
  | xmitframeComplete
  | step (k : Nat) (env : TxEnv) (a : TxAnswer)
  | usbComplete (k : Nat)
  | toSleep (servq : TxServq) (k : Nat)
  | unlink (servq : TxServq)
  | wakeup (i : StaId) (k : Nat) (classified : Bool)
  | freePending (servq : TxServq) (k : Nat)
  | freeSleeping (i : StaId) (k : Nat)

namespace TxPool

def usbWritePortComplete (s : TxPool) (k : Nat) : TxPool :=
  match s.transfers[k]? with
  | none => s
  | some b => { s with transfers := s.transfers.eraseIdx k }.rtwFreeXmitbuf b

/-- Frame number `k` leaves a pending queue. -/
def takePending (s : TxPool) (servq : TxServq) (k : Nat) (next : TxPool → PoolFrame → TxPool) : TxPool :=
  match (s.pending servq)[k]? with
  | none => s
  | some f => next (s.setPending servq ((s.pending servq).eraseIdx k)) f

/-- Frame number `k` leaves a sleeping queue. -/
def takeSleeping (s : TxPool) (i : StaId) (k : Nat) (next : TxPool → PoolFrame → TxPool) : TxPool :=
  match (s.sleepQ i)[k]? with
  | none => s
  | some f => next (s.setSleepQ i ((s.sleepQ i).eraseIdx k)) f

def next (s : TxPool) : TxPoolEvent → TxPool
  | .xmit =>
    match s.rtwAllocXmitframe with
    | none => { s with pkts := s.pkts + 1, rejected := s.pkts :: s.rejected }
    | some (id, s) => { s with pkts := s.pkts + 1 }.call (.attrib id s.pkts)
  | .xmitframeComplete =>
    match s.rtwAllocXmitbuf with
    | none => s
    | some (b, s) => s.call (.pick b)
  | .step k env a =>
    match s.calls[k]? with
    | none => s
    | some c => { s with calls := s.calls.eraseIdx k }.step env a c
  | .usbComplete k => s.usbWritePortComplete k
  | .toSleep servq k =>
    s.takePending servq k fun s f => s.setSleepQ f.frame.psta (s.sleepQ f.frame.psta ++ [f])
  | .unlink servq => s.unlink servq
  | .wakeup i k classified => s.takeSleeping i k fun s f => s.enqueue f classified
  | .freePending servq k => s.takePending servq k rtwFreeXmitframe
  | .freeSleeping i k => s.takeSleeping i k rtwFreeXmitframe

/-- `_rtw_init_xmit_priv` -/
def start : TxPool where
  freeXmitQueue := List.range nrXmitframe
  freeXmitframeCnt := nrXmitframe
  freeXmitbufQueue := List.range nrXmitbuff
  freeXmitbufCnt := nrXmitbuff
  staQueue _ := []
  pending _ := []
  sleepQ _ := []
  calls := []
  transfers := []
  pkts := 0
  rejected := []
  completed := []

end TxPool

end Usb

end Rtw
