import Rtw.Mlme.ApState

/-!
# Power save at an access point

Frames for a station that sleeps wait in its `sleep_q`: group frames in the one of the station for
broadcast frames, as long as any station sleeps. They leave it when the station wakes up, polls for one
(PS-Poll) or starts a service period (U-APSD). `Ap.psNext` is one step of all this.
-/

namespace Rtw

/-- The queue of a priority, as in `rtw_get_sta_pending` and in every `switch` on it. -/
def acOf : Nat → Ac
  | 1 | 2 => .bk
  | 4 | 5 => .vi
  | 6 | 7 => .vo
  | _ => .be

def StaCap.uapsd (c : StaCap) : Ac → Nat
  | .bk => c.uapsdBk
  | .be => c.uapsdBe
  | .vi => c.uapsdVi
  | .vo => c.uapsdVo

/-- `wmmps_ac`: whether the access category is delivery enabled (bit 0) or trigger enabled (bit 1). -/
def StaCap.wmmpsAc (c : StaCap) (priority bit : Nat) : Bool := (c.uapsd (acOf priority)).testBit bit

/-- `--` on an `unsigned int` -/
def dec (n : Nat) : Nat := if n = 0 then 2 ^ 32 - 1 else n - 1

theorem dec_succ (n : Nat) : dec (n + 1) = n := by simp [dec]

def rtwGetBcmcStainfo (s : StaPriv) : Option StaId := rtwGetStainfo s bcAddr

namespace Ap

def setPs (a : Ap) (i : StaId) (p : PsSta) : Ap := { a with ps := Function.update a.ps i p }

@[simp] theorem setPs_pool {a : Ap} {i : StaId} {p : PsSta} : (a.setPs i p).pool = a.pool := rfl
@[simp] theorem setPs_cap {a : Ap} {i : StaId} {p : PsSta} : (a.setPs i p).cap = a.cap := rfl
@[simp] theorem setPs_ps_self {a : Ap} {i : StaId} {p : PsSta} : (a.setPs i p).ps i = p := by simp [setPs]

theorem setPs_ps_of_ne {a : Ap} {i j : StaId} {p : PsSta} (h : j ≠ i) : (a.setPs i p).ps j = a.ps j := by
  simp [setPs, h]

/-- `rtw_hal_xmitframe_enqueue`: `rtw_xmit_classifier` puts the frame into a pending queue, or it is
freed. -/
def rtwHalXmitframeEnqueue (a : Ap) (f : XmitFrame) : Ap :=
  let p := a.ps f.psta
  if rtwGetStainfo a.pool f.ra = some f.psta ∧ p.linked then
    a.setPs f.psta
      { p with pending := Function.update p.pending (acOf f.priority) (p.pending (acOf f.priority) ++ [f]) }
  else a

def xmitframeEnqueueForSleepingSta (a : Ap) (f : XmitFrame) : Ap × Bool :=
  let p := a.ps f.psta
  if rtwGetStainfo a.pool f.ra ≠ some f.psta then (a, false)
  else if !p.linked then (a, false)
  else if f.triggered then (a, false)
  else if f.ra.isMcast then
    if a.staDzBitmap ≠ 0 then
      ({ a.setPs f.psta { p with sleepQ := p.sleepQ ++ [f], sleepqLen := p.sleepqLen + 1 } with
          timBitmap := a.timBitmap ||| bit 0
          staDzBitmap := a.staDzBitmap ||| bit 0 }, true)
    else (a, false)
  else
    let aid := (a.pool.sta f.psta).aid
    if p.sleep && a.staDzBitmap.getLsbD aid then
      let wmmpsAc := (a.cap f.psta).wmmpsAc f.priority 0
      let legacy := (a.cap f.psta).hasLegacyAc
      ({ a.setPs f.psta { p with
            sleepQ := p.sleepQ ++ [f]
            sleepqLen := p.sleepqLen + 1
            sleepqAcLen := if wmmpsAc then p.sleepqAcLen + 1 else p.sleepqAcLen } with
          timBitmap :=
            if (legacy && !wmmpsAc) || (!legacy && wmmpsAc) then a.timBitmap ||| bit aid else a.timBitmap }, true)
    else (a, false)

/-- A frame of the queue `ac` goes to the sleeping queue, or stays. -/
def dequeueXmitframe (i : StaId) (ac : Ac) (a : Ap) (f : XmitFrame) : Ap :=
  let f := { f with triggered := false }
  match a.xmitframeEnqueueForSleepingSta f with
  | (a, true) => a
  | (a, false) =>
    let p := a.ps i
    a.setPs i { p with pending := Function.update p.pending ac (p.pending ac ++ [f]) }

def dequeueXmitframesToSleepingQueue (a : Ap) (i : StaId) (ac : Ac) : Ap :=
  let p := a.ps i
  (p.pending ac).foldl (dequeueXmitframe i ac)
    (a.setPs i { p with pending := Function.update p.pending ac [] })

def stopStaXmit (a : Ap) (i : StaId) : Ap :=
  let a := { a.setPs i { a.ps i with sleep := true } with
    staDzBitmap := a.staDzBitmap ||| bit (a.pool.sta i).aid }
  let a := a.dequeueXmitframesToSleepingQueue i .vo
  let a := a.dequeueXmitframesToSleepingQueue i .vi
  let a := a.dequeueXmitframesToSleepingQueue i .be
  let a := a.dequeueXmitframesToSleepingQueue i .bk
  match rtwGetBcmcStainfo a.pool with
  -- the source takes the address of a member of the null pointer
  | none => a
  | some bmc => a.dequeueXmitframesToSleepingQueue bmc .be

/-- A frame at the head of a sleeping queue leaves it in `wakeup_sta_to_xmit`. -/
def wakeupFrame (i : StaId) (a : Ap) (f : XmitFrame) : Ap :=
  let p := a.ps i
  let wmmpsAc := (a.cap i).wmmpsAc f.priority 1
  let sleepqLen := dec p.sleepqLen
  let sleepqAcLen := if wmmpsAc then dec p.sleepqAcLen else p.sleepqAcLen
  (a.setPs i { p with sleepQ := p.sleepQ.tail, sleepqLen, sleepqAcLen }).rtwHalXmitframeEnqueue
    { f with
      mdata := if wmmpsAc then decide (sleepqAcLen > 0) else decide (sleepqLen > 0)
      eosp := if wmmpsAc then decide (sleepqAcLen = 0) else f.eosp
      triggered := true }

/-- A frame at the head of a sleeping queue leaves it, and only `sleepq_len` is counted down: the group
frames, and the answer to a PS-Poll. `more` is off for the last frame of a bounded burst. -/
def popFrame (i : StaId) (more : Bool) (a : Ap) (f : XmitFrame) : Ap :=
  let p := a.ps i
  let sleepqLen := dec p.sleepqLen
  (a.setPs i { p with sleepQ := p.sleepQ.tail, sleepqLen }).rtwHalXmitframeEnqueue
    { f with mdata := more && decide (sleepqLen > 0), triggered := true }

/-- Both bits of an association id. -/
def clearBits (a : Ap) (aid : Nat) : Ap :=
  { a with
    timBitmap := a.timBitmap &&& ~~~ bit aid
    staDzBitmap := a.staDzBitmap &&& ~~~ bit aid }

def wakeupStaToXmit (a : Ap) (i : StaId) : Ap :=
  let a := (a.ps i).sleepQ.foldl (wakeupFrame i) a
  let a :=
    if (a.ps i).sleepqLen = 0 then
      (a.setPs i { a.ps i with sleep := false, aliveChk := false }).clearBits (a.pool.sta i).aid
    else a
  match rtwGetBcmcStainfo a.pool with
  | none => a
  | some bmc =>
    if a.staDzBitmap &&& 0xfffe = 0 then
      let a := (a.ps bmc).sleepQ.foldl (popFrame bmc true) a
      if (a.ps bmc).sleepqLen = 0 then a.clearBits 0 else a
    else a

/-- The loop of `xmit_delivery_enabled_frames`; `kept` are the frames that stay in front. -/
def deliverLoop (i : StaId) (kept : List XmitFrame) : List XmitFrame → Ap → Ap
  | [], a => a
  | f :: rest, a =>
    if !(a.cap i).wmmpsAc f.priority 1 then deliverLoop i (kept ++ [f]) rest a
    else
      let p := a.ps i
      let sleepqAcLen := dec p.sleepqAcLen
      let a := a.setPs i { p with sleepQ := kept ++ rest, sleepqLen := dec p.sleepqLen, sleepqAcLen }
      let a := a.rtwHalXmitframeEnqueue
        { f with mdata := decide (sleepqAcLen > 0), eosp := decide (sleepqAcLen = 0), triggered := true }
      deliverLoop i kept rest
        (if sleepqAcLen = 0 ∧ !(a.cap i).hasLegacyAc then
          { a with timBitmap := a.timBitmap &&& ~~~ bit (a.pool.sta i).aid }
        else a)

def xmitDeliveryEnabledFrames (a : Ap) (i : StaId) : Ap := deliverLoop i [] (a.ps i).sleepQ a

def processPwrbitData (a : Ap) (src : MacAddr) (pwrbit : Bool) : Ap :=
  match rtwGetStainfo a.pool src with
  | none => a
  | some i =>
    if pwrbit then if !(a.ps i).sleep then a.stopStaXmit i else a
    else if (a.ps i).sleep then a.wakeupStaToXmit i else a

/-- `process_wmmps_data`, without the QoS null frame that answers when nothing waits. -/
def processWmmpsData (a : Ap) (src : MacAddr) (priority : Nat) : Ap :=
  match rtwGetStainfo a.pool src with
  | none => a
  | some i =>
    let c := a.cap i
    if !c.qosOption then a
    else if c.qosInfo &&& 0xf = 0 then a
    else if (a.ps i).sleep && c.wmmpsAc priority 1 && decide ((a.ps i).sleepqAcLen > 0) then
      a.xmitDeliveryEnabledFrames i
    else a

/-- `validate_recv_ctrl_frame` for a PS-Poll with the priority that `rx_pkt_attrib` has for it. -/
def validateRecvCtrlFrame (a : Ap) (ta : MacAddr) (aid priority : Nat) : Ap :=
  match rtwGetStainfo a.pool ta with
  | none => a
  | some i =>
    if (a.pool.sta i).aid ≠ aid then a
    else if (a.cap i).wmmpsAc priority 0 then a
    else
      let a := a.setPs i { a.ps i with aliveChk := false }
      if (a.ps i).sleep && a.staDzBitmap.getLsbD aid then
        match (a.ps i).sleepQ with
        | f :: _ =>
          let a := popFrame i true a f
          if (a.ps i).sleepqLen = 0 then { a with timBitmap := a.timBitmap &&& ~~~ bit aid } else a
        | [] =>
          if a.timBitmap.getLsbD aid then
            { a.setPs i { a.ps i with sleepqLen := 0 } with timBitmap := a.timBitmap &&& ~~~ bit aid }
          else a
      else a

/-- `rtw_xmit`, with `update_attrib`'s choice of the station. A frame that does not wait for the station
is sent at once (`direct`) or put into a pending queue. -/
def rtwXmit (a : Ap) (ra : MacAddr) (priority : Nat) (direct : Bool) : Ap :=
  match rtwGetStainfo a.pool ra with
  | none => a
  | some psta =>
    if !(a.ps psta).linked then a
    else
      match a.xmitframeEnqueueForSleepingSta { ra, psta, priority } with
      | (a, true) => a
      | (a, false) => if direct then a else a.rtwHalXmitframeEnqueue { ra, psta, priority }

/-- `rtw_dequeue_xframe` takes a frame from a pending queue. -/
def rtwDequeueXframe (a : Ap) (i : StaId) (ac : Ac) : Ap :=
  let p := a.ps i
  a.setPs i { p with pending := Function.update p.pending ac (p.pending ac).tail }

/-- `expire_timeout_chk` asks a sleeping station whether it is alive. -/
def aliveChk (a : Ap) (i : StaId) : Ap :=
  if i ∈ a.asocList ∧ (a.ps i).sleep ∧ !(a.ps i).aliveChk then
    { a.setPs i { a.ps i with aliveChk := true } with timBitmap := a.timBitmap ||| bit (a.pool.sta i).aid }
  else a

/-- `expire_timeout_chk` empties a long sleeping queue. -/
def clearSleepQ (a : Ap) (i : StaId) : Ap := if i ∈ a.asocList then a.wakeupStaToXmit i else a

def chkBmcSleepqHdl (a : Ap) : Ap :=
  match rtwGetBcmcStainfo a.pool with
  | none => a
  | some bmc =>
    if a.timBitmap.getLsbD 0 && decide ((a.ps bmc).sleepqLen > 0) then
      (a.ps bmc).sleepQ.foldl (popFrame bmc true) a
    else a

def hiqXmitCounts : Nat := 6

/-- `rtw_ap_bmc_frames_hdl` with `wifi_spec` -/
def rtwApBmcFramesHdl (a : Ap) : Ap :=
  match rtwGetBcmcStainfo a.pool with
  | none => a
  | some bmc =>
    if a.timBitmap.getLsbD 0 && decide ((a.ps bmc).sleepqLen > 0) then
      let q := (a.ps bmc).sleepQ
      let a := (q.take (hiqXmitCounts - 1)).foldl (popFrame bmc true) a
      ((q.drop (hiqXmitCounts - 1)).take 1).foldl (popFrame bmc false) a
    else if (a.ps bmc).sleepqLen = 0 then a.clearBits 0
    else a

/-- `rtw_chk_hi_queue_hdl` when the high queue is empty. -/
def rtwChkHiQueueHdl (a : Ap) : Ap :=
  match rtwGetBcmcStainfo a.pool with
  | none => a
  | some bmc => if (a.ps bmc).sleepqLen = 0 then a.clearBits 0 else a

/-- A loop that takes the first frame of the queue each time takes all frames of a prefix. -/
theorem popAll {i : StaId} (step : Ap → XmitFrame → Ap) (I : Ap → Prop) {a : Ap} {l q : List XmitFrame}
    (hstep : ∀ a f l, I a → (a.ps i).sleepQ = f :: l → I (step a f) ∧ ((step a f).ps i).sleepQ = l) (hI : I a)
    (hq : (a.ps i).sleepQ = l ++ q) :
    I (l.foldl step a) ∧ ((l.foldl step a).ps i).sleepQ = q := by
  induction l generalizing a with
  | nil => exact ⟨hI, hq⟩
  | cons f l ih =>
    obtain ⟨hI', hq'⟩ := hstep a f (l ++ q) hI hq
    exact ih hI' hq'

end Ap

inductive PsEvent where
  | auth (cfg : ApCfg) (f : MgmtFrame)
  | assocReq (cfg : BssCfg) (f : MgmtFrame)
  | deAuth (sa : MacAddr)
  | authExpire (i : StaId)
  | asocExpire (i : StaId)
  | xmit (ra : MacAddr) (priority : Nat) (direct : Bool)
  | dequeue (i : StaId) (ac : Ac)
  | pwrbit (src : MacAddr) (pwrbit : Bool)
  | wmmps (src : MacAddr) (priority : Nat)
  | psPoll (ta : MacAddr) (aid priority : Nat)
  | aliveChk (i : StaId)
  | clearSleepQ (i : StaId)
  | chkBmcSleepq
  | bmcFrames
  | chkHiQueue

def Ap.psNext (a : Ap) : PsEvent → Ap
  | .auth cfg f => a.onAuth cfg f
  | .assocReq cfg f => a.onAssocReq cfg f
  | .deAuth sa => a.onDeAuth sa
  | .authExpire i => a.authExpire i
  | .asocExpire i => a.asocExpire i
  | .xmit ra priority direct => a.rtwXmit ra priority direct
  | .dequeue i ac => a.rtwDequeueXframe i ac
  | .pwrbit src pwrbit => a.processPwrbitData src pwrbit
  | .wmmps src priority => a.processWmmpsData src priority
  | .psPoll ta aid priority => a.validateRecvCtrlFrame ta aid priority
  | .aliveChk i => a.aliveChk i
  | .clearSleepQ i => a.clearSleepQ i
  | .chkBmcSleepq => a.chkBmcSleepqHdl
  | .bmcFrames => a.rtwApBmcFramesHdl
  | .chkHiQueue => a.rtwChkHiQueueHdl

end Rtw
