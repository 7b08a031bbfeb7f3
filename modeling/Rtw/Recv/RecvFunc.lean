import Rtw.Recv.Defrag
import Rtw.Recv.Pool
import Rtw.Recv.PortCtrl
import Rtw.Recv.Session

/-!
# The way of a frame through the receive path

`recv_func` and what it calls, as far as it decides where frames go. Each function takes and returns a
`RecvRun`: the queues as they are now, and as they were after every single operation on them. Contents
and decisions come from the models of `recvframe_defrag`, `portctrl` and the reorder buffer. What the
rest of the driver answers on the way (validation of data frames, keys, MICs, the management handlers)
is `RecvEnv`, and may be anything.
-/

namespace Rtw

/-- `_SUCCESS`, `_FAIL` and `RTW_RX_HANDLED` -/
inductive Ret where
  | success
  | fail
  | rxHandled
  deriving DecidableEq

/-- The queues, and all their earlier states. -/
structure RecvRun where
  now : RecvPriv
  past : List RecvPriv

/-- What the management handlers and the other threads of the driver do to the queues. -/
inductive MlmeOp where
  | allocStainfo (hwaddr : MacAddr)
  | freeStainfo (i : StaId)
  | freeUcSwdecPendingQueue
  | actionBack (i : StaId) (tid : Fin 16) (env : BackEnv) (body : List UInt8)
  | sendDelba (i : StaId) (tid : Fin 16) (call : DelbaCall)

/-- What decides the way of a frame besides its contents and the queues. `mpMode` is `mp_mode` or
`bRTWSmbCfg`; `binstallBIPkey` stays false without `CONFIG_IEEE80211W`; `mgmtAllowed` is what
`rtw_BIP_verify` and the rules for unprotected frames say. -/
structure RecvEnv where
  monitorState : Bool
  stationState : Bool
  mpState : Bool
  fwLinked : Bool
  cannotRun : Bool
  mpMode : Bool
  rxBindicatePkt : Bool
  htOption : Bool
  busetkipkey : Bool
  swDecrypt : Bool
  authModeWpapsk : Bool
  binstallBIPkey : Bool
  dot11AuthAlgrthm : Nat
  ieee8021xBlocked : StaId → Bool
  radiotapOk : Bool
  dataRet : Ret
  dataAttrib : RxPktAttrib
  dataSta : StaId
  decrypt : RecvFrame → Bool × List UInt8
  micErr : RecvFrame → Bool
  zmallocOk : Bool
  mgmtAllowed : Bool
  mgtDispatcher : List MlmeOp

def wifiMgtType : UInt8 := 0x00
def wifiCtrlType : UInt8 := 0x04
def wifiDataType : UInt8 := 0x08

namespace RecvFrame

/-- A byte of the frame. -/
def byte (f : RecvFrame) (i : Nat) : UInt8 := f.mem[i]?.getD 0

/-- `GetFrameType` -/
def frameType (f : RecvFrame) : UInt8 := f.byte 0 &&& 0x0c

/-- `GetFrameSubType` -/
def frameSubType (f : RecvFrame) : UInt8 := f.byte 0 &&& 0xfc

/-- The address that starts at byte `off`. -/
def addr (f : RecvFrame) (off : Nat) : MacAddr := .ofFn fun i => f.byte (off + i)

/-- The attributes that `validate_recv_frame` reads from the MAC header. -/
def parseHeader (f : RecvFrame) : RecvFrame :=
  let seqctl := (f.byte 22).toNat + 256 * (f.byte 23).toNat
  { f with
    attrib :=
      { f.attrib with
        toFrDs := (if f.byte 1 &&& 0x01 != 0 then 2 else 0) + (if f.byte 1 &&& 0x02 != 0 then 1 else 0)
        fragNum := Fin.ofNat 16 seqctl
        seqNum := Fin.ofNat 4096 (seqctl / 16)
        mfrag := f.byte 1 &&& 0x04 != 0
        privacy := f.byte 1 &&& 0x40 != 0 } }

end RecvFrame

namespace RecvRun

/-- One operation on the queues. -/
def step (s : RecvRun) (p : RecvPriv) : RecvRun := ⟨p, s.past ++ [p]⟩

def rtwFreeRecvframe (s : RecvRun) (id : Nat) : RecvRun := s.step (s.now.rtwFreeRecvframe id)

/-- `rtw_free_recvframe_queue` on a `defrag_q` -/
def rtwFreeRecvframeQueue (s : RecvRun) (i : StaId) : RecvRun :=
  (s.now.defragQ i).foldl (fun s f => s.rtwFreeRecvframe f.id) s

def rtwFreeUcSwdecPendingQueue (s : RecvRun) : RecvRun :=
  s.now.ucSwdecPendingQueue.foldl (fun s _ =>
    match s.now.dequeueUcSwdec with
    | none => s
    | some (p, f) => (s.step p).rtwFreeRecvframe f.id) s

/-- What becomes of frames that leave the reorder buffer of a TID. `rtw_recv_indicatepkt` and
`amsdu_to_msdu` give a frame back to the free queue; a frame that is stopped is only taken off. -/
def indicate (s : RecvRun) (i : StaId) (tid : Fin 16) : List Indication → RecvRun
  | [] => s
  | .direct f :: out => (s.rtwFreeRecvframe f.id).indicate i tid out
  | .inOrder f :: out => ((s.step (s.now.takePending i tid f)).rtwFreeRecvframe f.id).indicate i tid out
  | .stopped f :: out => (s.step (s.now.takePending i tid f)).indicate i tid out

/-! ### Decryption, reassembly -/

/-- Decryption in software: whether it went well, and the bytes that it writes behind the MAC header. The
return code of `rtw_wep_decrypt` is not looked at. -/
def swDecrypted (env : RecvEnv) (f : RecvFrame) : Bool × List UInt8 :=
  if f.attrib.encrypt ≠ .noPrivacy && (!f.attrib.bdecrypted || env.swDecrypt) then
    match f.attrib.encrypt with
    | .wep40 | .wep104 => (true, (env.decrypt f).2)
    | .tkip | .aes => env.decrypt f
    | _ => (true, [])
  else (true, [])

/-- What `decryptor` makes of a frame, `none` when it drops it. -/
def decrypted (env : RecvEnv) (f : RecvFrame) : Option RecvFrame :=
  match swDecrypted env f with
  | (true, bs) =>
    let f := f.memcpy f.attrib.hdrlen bs
    some { f with attrib := { f.attrib with bdecrypted := true } }
  | (false, _) => none

def decryptor (env : RecvEnv) (s : RecvRun) (f : RecvFrame) : RecvRun × Option RecvFrame :=
  match decrypted env f with
  | none => (s.rtwFreeRecvframe f.id, none)
  | some f => (s, some f)

def recvframeDefrag (s : RecvRun) (i : StaId) : RecvRun × Option RecvFrame :=
  match s.now.defragQ i with
  | [] => (s, none)
  | prframe :: l =>
    let s := s.step (s.now.takeDefrag i prframe)
    match (Rtw.recvframeDefrag (prframe :: l)).ret with
    | none => ((s.rtwFreeRecvframe prframe.id).rtwFreeRecvframeQueue i, none)
    | some f => (s.rtwFreeRecvframeQueue i, some f)

end RecvRun

/-- The station entry whose `defrag_q` a frame belongs to. -/
def RecvPriv.defragSta (s : RecvPriv) (f : RecvFrame) : Option StaId :=
  match rtwGetStainfo s.stapriv f.attrib.ta with
  | some i => some i
  | none => if f.frameType ≠ wifiDataType then some s.bcmcSta else none

/-- The reorder control block that a frame points to. -/
def RecvPriv.reorderCtrl (s : RecvPriv) (f : RecvFrame) : RecvReorderCtrl :=
  s.recvreorderCtrl (s.preorderCtrl f.id).1 (s.preorderCtrl f.id).2

namespace RecvRun

/-- The part of `recvframe_chk_defrag` that queues fragments and reassembles them. -/
def chkDefragQueue (s : RecvRun) (f : RecvFrame) : RecvRun × Option RecvFrame :=
  if !f.attrib.mfrag && f.attrib.fragNum = 0 then (s, some f)
  else
    match s.now.defragSta f with
    | none => (s.rtwFreeRecvframe f.id, none)
    | some i =>
      if f.attrib.mfrag then
        let s := if f.attrib.fragNum = 0 then s.rtwFreeRecvframeQueue i else s
        (s.step (s.now.insertDefrag i f), none)
      else (s.step (s.now.insertDefrag i f)).recvframeDefrag i

def recvframeChkDefrag (env : RecvEnv) (s : RecvRun) (f : RecvFrame) : RecvRun × Option RecvFrame :=
  match s.chkDefragQueue f with
  | (s, none) => (s, none)
  | (s, some g) =>
    if g.attrib.privacy then
      match recvframeChkmic env.micErr g with
      | (g, true) => (s, some g)
      | (g, false) => (s.rtwFreeRecvframe g.id, none)
    else (s, some g)

/-! ### Handing up -/

def recvIndicatepktReorder (env : RecvEnv) (s : RecvRun) (f : RecvFrame) : RecvRun × Ret :=
  let (i, tid) := s.now.preorderCtrl f.id
  let ctrl := s.now.recvreorderCtrl i tid
  let r := Rtw.recvIndicatepktReorder env.cannotRun env.mpState ctrl f
  let s :=
    match (accepted? env.mpState ctrl f).bind fun g => (enqueueReorderRecvframe g ctrl.pending).map (g, ·) with
    | none => s
    | some (g, l) => s.step (s.now.insertPending i tid l g)
  let s := s.indicate i tid r.out
  (s.step (s.now.setReorderCtrl i tid r.ctrl), if r.ret then .success else .fail)

def processRecvIndicatepkts (env : RecvEnv) (s : RecvRun) (f : RecvFrame) : RecvRun × Ret :=
  if env.htOption then
    let (s, ret) := s.recvIndicatepktReorder env f
    if ret ≠ .success && !env.cannotRun then (s, .fail) else (s, .success)
  else
    match wlanhdrToEthhdr env.mpState f with
    | none => (s, .fail)
    | some f => if !env.cannotRun then (s.rtwFreeRecvframe f.id, .success) else (s, .fail)

def rtwReorderingCtrlTimeoutHandler (s : RecvRun) (stop : Bool) (i : StaId) (tid : Fin 16) : RecvRun :=
  let r := Rtw.rtwReorderingCtrlTimeoutHandler stop (s.now.recvreorderCtrl i tid)
  let s := s.indicate i tid r.out
  s.step (s.now.setReorderCtrl i tid r.ctrl)

/-- `recv_func_posthandle`. A frame that `process_recv_indicatepkts` refuses is not the one that is freed
when the fragments of several were put together. -/
def recvFuncPosthandle (env : RecvEnv) (s : RecvRun) (prframe : RecvFrame) : RecvRun × Ret :=
  match s.decryptor env prframe with
  | (s, none) => (s, .fail)
  | (s, some f) =>
    match s.recvframeChkDefrag env f with
    | (s, none) => (s, .success)
    | (s, some f) =>
      match portctrl env.dot11AuthAlgrthm ((rtwGetStainfo s.now.stapriv f.attrib.ta).map env.ieee8021xBlocked) f with
      | none => (s.rtwFreeRecvframe f.id, .fail)
      | some f =>
        match s.processRecvIndicatepkts env f with
        | (s, .success) => (s, .success)
        | (s, ret) => (s.rtwFreeRecvframe prframe.id, ret)

/-! ### Management frames -/

/-- `rtw_free_stainfo`: the pending queues are emptied, the `defrag_q` is not. -/
def rtwFreeStainfo (s : RecvRun) (i : StaId) : RecvRun :=
  let s := (List.finRange 16).foldl (fun s tid =>
    s.indicate i tid ((s.now.recvreorderCtrl i tid).pending.map .inOrder)) s
  s.step { s.now with stapriv := Rtw.rtwFreeStainfo s.now.stapriv i }

def mlmeOp (s : RecvRun) : MlmeOp → RecvRun
  | .allocStainfo hwaddr => s.step (s.now.allocStainfo hwaddr)
  | .freeStainfo i => s.rtwFreeStainfo i
  | .freeUcSwdecPendingQueue => s.rtwFreeUcSwdecPendingQueue
  | .actionBack i tid env body =>
    match onActionBack env tid body (s.now.recvreorderCtrl i tid) with
    | none => s
    | some ctrl => s.step (s.now.setReorderCtrl i tid ctrl)
  | .sendDelba i tid call =>
    match (sendDelbaStaTid call (s.now.recvreorderCtrl i tid)).2 with
    | none => s
    | some ctrl => s.step (s.now.setReorderCtrl i tid ctrl)

/-- A unicast deauthentication, disassociation or action frame that says it is encrypted. -/
def isProtectedMgmt (f : RecvFrame) : Bool :=
  f.attrib.privacy && !(f.addr 4).isMcast &&
    (f.frameSubType == 0xc0 || f.frameSubType == 0xa0 || f.frameSubType == 0xd0)

/-- The attributes with which `validate_80211w_mgmt` calls `decryptor`. -/
def protectedMgmt (f : RecvFrame) : RecvFrame :=
  { f with
    attrib :=
      { f.attrib with
        bdecrypted := false, encrypt := .aes, hdrlen := 24, ivLen := 8, icvLen := 8
        ra := f.addr 4, ta := f.addr 10 } }

/-- `validate_80211w_mgmt`: the frame with its body where the IV was, `none` when it is refused. -/
def validate80211wMgmt (env : RecvEnv) (s : RecvRun) (f : RecvFrame) : RecvRun × Option RecvFrame :=
  if env.binstallBIPkey then
    if isProtectedMgmt f then
      if !env.zmallocOk then (s, none)
      else
        match s.decryptor env (protectedMgmt f) with
        | (s, none) => (s, none)
        | (s, some f) => (s, some (f.memcpy f.attrib.hdrlen ((f.data.drop (f.attrib.hdrlen + f.attrib.ivLen)).take
            (f.len - f.attrib.hdrlen - f.attrib.ivLen - f.attrib.icvLen))))
    else if env.mgmtAllowed then (s, some f) else (s, none)
  else (s, some f)

def validateRecvMgntFrame (env : RecvEnv) (s : RecvRun) (f : RecvFrame) : RecvRun :=
  match s.recvframeChkDefrag env f with
  | (s, none) => s
  | (s, some _) => env.mgtDispatcher.foldl mlmeOp s

/-! ### `recv_func` -/

/-- `validate_recv_data_frame`, whose outcome is given. -/
def validateRecvDataFrame (env : RecvEnv) (s : RecvRun) (f : RecvFrame) : RecvRun × RecvFrame × Ret :=
  let attrib := { env.dataAttrib with
    toFrDs := f.attrib.toFrDs, seqNum := f.attrib.seqNum, fragNum := f.attrib.fragNum
    mfrag := f.attrib.mfrag, privacy := f.attrib.privacy, bdecrypted := f.attrib.bdecrypted }
  let s := s.step { s.now with
    preorderCtrl := Function.update s.now.preorderCtrl f.id (env.dataSta, Fin.ofNat 16 attrib.priority) }
  (s, { f with attrib }, env.dataRet)

/-- `validate_recv_frame`: only data frames return `_SUCCESS`. -/
def validateRecvFrame (env : RecvEnv) (s : RecvRun) (f : RecvFrame) : RecvRun × RecvFrame × Ret :=
  if f.byte 0 &&& 0x03 != 0 then (s, f, .fail)
  else
    let f := f.parseHeader
    if f.frameType = wifiMgtType then
      match s.validate80211wMgmt env f with
      | (s, none) => (s, f, .fail)
      | (s, some g) => (s.validateRecvMgntFrame env g, f, .fail)
    else if f.frameType = wifiDataType then s.validateRecvDataFrame env f
    -- `validate_recv_ctrl_frame` returns `_FAIL` as well
    else (s, f, .fail)

/-- `mp_recv_frame`. `rtw_recv_indicatepkt` has given the frame back when the code falls out of the
branch for data frames. -/
def mpRecvFrame (env : RecvEnv) (s : RecvRun) (f : RecvFrame) : RecvRun :=
  if env.fwLinked && env.rxBindicatePkt && f.frameType == wifiDataType && !env.cannotRun then
    (s.rtwFreeRecvframe f.id).rtwFreeRecvframe f.id
  else s.rtwFreeRecvframe f.id

def recvFuncPrehandle (env : RecvEnv) (s : RecvRun) (f : RecvFrame) : RecvRun × RecvFrame × Ret :=
  if env.mpMode then (s.mpRecvFrame env f, f, .fail)
  else
    match s.validateRecvFrame env f with
    | (s, f, .success) => (s, f, .success)
    | (s, f, ret) => (s.rtwFreeRecvframe f.id, f, ret)

/-- `recv_frame_monitor`. The frame has a packet, so `rtw_recv_monitor` hands it up and frees it. -/
def recvFrameMonitor (env : RecvEnv) (s : RecvRun) (f : RecvFrame) : RecvRun :=
  if !env.radiotapOk then s.rtwFreeRecvframe f.id
  else if !env.cannotRun then s.rtwFreeRecvframe f.id
  else s.rtwFreeRecvframe f.id

/-- The loop over `uc_swdec_pending_queue` once the key is there. `recv_func_posthandle` puts nothing
into that queue, so as many frames are taken off as it has at the start. -/
def drainUcSwdec (env : RecvEnv) (s : RecvRun) : List RecvFrame → RecvRun
  | [] => s
  | _ :: l =>
    match s.now.dequeueUcSwdec with
    | none => s
    | some (p, f) => ((s.step p).recvFuncPosthandle env f).1.drainUcSwdec env l

/-- The frame that goes on to `recv_func_posthandle`: a frame that cannot be decrypted yet waits, and
when free frames get scarce the one that has waited longest goes on in its place. -/
def swdecPending (env : RecvEnv) (s : RecvRun) (f : RecvFrame) : RecvRun × Option RecvFrame :=
  if env.stationState && !f.attrib.ra.isMcast && f.attrib.encrypt ≠ .noPrivacy &&
      (!f.attrib.bdecrypted || env.swDecrypt) && env.authModeWpapsk && !env.busetkipkey then
    let s := s.step (s.now.enqueueUcSwdec f)
    if s.now.freeRecvframeCnt < nrRecvframe / 4 then
      match s.now.dequeueUcSwdec with
      | none => (s, none)
      | some (p, g) => (s.step p, some g)
    else (s, none)
  else (s, some f)

/-- The state in which `recv_func` calls `recv_func_prehandle`. -/
def swdecDrained (env : RecvEnv) (s : RecvRun) : RecvRun :=
  if env.stationState && env.busetkipkey then s.drainUcSwdec env s.now.ucSwdecPendingQueue else s

def recvFunc (env : RecvEnv) (s : RecvRun) (f : RecvFrame) : RecvRun :=
  if env.monitorState then s.recvFrameMonitor env f
  else
    match (s.swdecDrained env).recvFuncPrehandle env f with
    | (s, f, .success) =>
      match s.swdecPending env f with
      | (s, none) => s
      | (s, some f) => (s.recvFuncPosthandle env f).1
    | (s, _, _) => s

/-- The body of the loop of `recvbuf2recvframe`: `usable` says that the frame is a received packet,
intact, with a packet buffer of its own. -/
def recvbuf2recvframe (env : RecvEnv) (s : RecvRun) (usable : Bool) (rx : RecvFrame) : RecvRun :=
  match s.now.rtwAllocRecvframe with
  | none => s
  | some (p, id) =>
    let s := s.step p
    if usable then s.recvFunc env { rx with id } else s.rtwFreeRecvframe id

end RecvRun

/-- What happens to the queues while the driver runs. -/
inductive RecvEvent where
  | recvbuf (env : RecvEnv) (usable : Bool) (rx : RecvFrame)
  | timeout (stop : Bool) (i : StaId) (tid : Fin 16)
  | mlme (op : MlmeOp)

namespace RecvRun

def start (maxNumSta : Nat) : RecvRun := ⟨.init maxNumSta, []⟩

def next (s : RecvRun) : RecvEvent → RecvRun
  | .recvbuf env usable rx => s.recvbuf2recvframe env usable rx
  | .timeout stop i tid => s.rtwReorderingCtrlTimeoutHandler stop i tid
  | .mlme op => s.mlmeOp op

end RecvRun

end Rtw
