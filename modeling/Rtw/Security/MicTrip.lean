import Rtw.Recv.Defrag
import Rtw.Security.Michael
import Rtw.Xmit.EthTrip

/-!
# The MIC of a frame

`xmitframe_addmic` feeds Michael with the pieces of a frame in the transmit buffer, and `recvframe_chkmic` does it in
one go over the frame that arrives. `tkipMic_trip`: both get the same code, whatever the DS bits are and with or
without a QoS field.
-/

namespace Rtw

/-- `skey` of a `union Keytype` -/
abbrev Skey := Vector UInt8 16

/-- DA and SA, by the DS bits. -/
def secmicAddrs (micdata : MicData) (header : List UInt8) : MicData :=
  if fcBit header 1 0x01 then
    let micdata := rtwSecmicappend micdata (bytesAt header 16 6)
    if fcBit header 1 0x02 then rtwSecmicappend micdata (bytesAt header 24 6)
    else rtwSecmicappend micdata (bytesAt header 10 6)
  else
    let micdata := rtwSecmicappend micdata (bytesAt header 4 6)
    if fcBit header 1 0x02 then rtwSecmicappend micdata (bytesAt header 16 6)
    else rtwSecmicappend micdata (bytesAt header 10 6)

/-! ### The sender -/

/-- The part of `struct security_priv` and `struct xmit_priv` that `xmitframe_addmic` reads. -/
structure AddmicPriv where
  dot118021XGrptxmickey : Nat → Skey
  dot118021XGrpKeyid : Nat
  fragLen : Nat

structure AddmicAttrib where
  ra : MacAddr
  encrypt : PrivacyAlg
  hdrlen : Nat
  ivLen : Nat
  icvLen : Nat
  bswenc : Bool
  qosEn : Bool
  priority : Nat
  nrFrags : Nat
  lastTxcmdsz : Nat
  dot11tkiptxmickey : Skey

namespace AddmicAttrib

def swIcvLen (a : AddmicAttrib) : Nat := if a.bswenc then a.icvLen else 0

/-- `length`, as the unsigned number that `rtw_secmicappend` takes. -/
def length (a : AddmicAttrib) (sz : Nat) : Nat := (((sz : Int) - a.hdrlen - a.ivLen - a.swIcvLen) % 2 ^ 32).toNat

/-- `priority[0]` -/
def micPriority (a : AddmicAttrib) : UInt8 := if a.qosEn then UInt8.ofNat a.priority else 0

def mickey (a : AddmicAttrib) (p : AddmicPriv) : Skey :=
  if a.ra.isMcast then p.dot118021XGrptxmickey p.dot118021XGrpKeyid else a.dot11tkiptxmickey

end AddmicAttrib

/-- The loop over the fragments, from the address `addr` on; `left` of them are still to come. -/
def frameAddmicLoop (p : AddmicPriv) (a : AddmicAttrib) (addr : Nat) (pframe : List UInt8) :
    Nat → MicData → Nat → MicData × Nat
  | 0, micdata, payload => (micdata, payload)
  | left + 1, micdata, payload =>
    let payload := rnd4 (addr + payload) - addr + a.hdrlen + a.ivLen
    let length := a.length (if left = 0 then a.lastTxcmdsz else p.fragLen)
    frameAddmicLoop p a addr pframe left (rtwSecmicappend micdata (bytesAt pframe payload length))
      (payload + length + if left = 0 then 0 else a.icvLen)

/-- `xmitframe_addmic` with the MIC that it writes: the frame in the buffer and `last_txcmdsz`, `none` when there is no
key. -/
def frameAddmic (p : AddmicPriv) (a : AddmicAttrib) (addr : Nat) (pframe : List UInt8) :
    Option (List UInt8 × Nat) :=
  if a.encrypt = .tkip then
    if a.mickey p = Vector.replicate 16 0 then none
    else
      let micdata := secmicAddrs (rtwSecmicsetkey (a.mickey p).toList) pframe
      let micdata := rtwSecmicappend micdata [a.micPriority, 0, 0, 0]
      let (micdata, payload) := frameAddmicLoop p a addr pframe a.nrFrags micdata 0
      some (memcpyAt pframe payload (rtwSecgetmic micdata).1, a.lastTxcmdsz + 8)
  else some (pframe, a.lastTxcmdsz)

/-! ### The receiver -/

def rtwSeccalctkipmic (key header data : List UInt8) (pri : Nat) : List UInt8 :=
  let micdata := secmicAddrs (rtwSecmicsetkey key) header
  let micdata := rtwSecmicappend micdata [UInt8.ofNat pri, 0, 0, 0]
  (rtwSecgetmic (rtwSecmicappend micdata data)).1

/-- The keys of the receiver; `dot11tkiprxmickey` is `none` where `rtw_get_stainfo` finds no station. -/
structure ChkmicPriv where
  dot11tkiprxmickey : MacAddr → Option Skey
  dot118021XGrprxmickey : Nat → Skey
  binstallGrpkey : Bool

namespace RecvFrame

/-- `datalen` -/
def micDatalen (f : RecvFrame) : Nat :=
  (((f.len : Int) - f.attrib.hdrlen - f.attrib.ivLen - f.attrib.icvLen - 8) % 2 ^ 32).toNat

/-- `key_index`, as `decryptor` takes it from the IV. -/
def keyIndex (f : RecvFrame) : Nat := ((f.mem[f.attrib.hdrlen + 3]?).getD 0).toNat / 64

/-- `miccode` -/
def miccode (f : RecvFrame) (mickey : Skey) : List UInt8 :=
  rtwSeccalctkipmic mickey.toList f.mem (bytesAt f.mem (f.attrib.hdrlen + f.attrib.ivLen) f.micDatalen)
    f.attrib.priority

/-- The eight bytes at `pframemic`. -/
def framemic (f : RecvFrame) : List UInt8 := bytesAt f.mem (f.attrib.hdrlen + f.attrib.ivLen + f.micDatalen) 8

end RecvFrame

/-- The outer `none` is an unknown station, the inner one a group key that is not installed. -/
def ChkmicPriv.mickey (p : ChkmicPriv) (f : RecvFrame) : Option (Option Skey) :=
  (p.dot11tkiprxmickey f.attrib.ta).map fun key =>
    if f.attrib.ra.isMcast then
      if p.binstallGrpkey then some (p.dot118021XGrprxmickey f.keyIndex) else none
    else some key

/-- The result of `recvframe_chkmic` for a TKIP frame; a frame of an unknown station is not looked at. -/
def chkmicErr (p : ChkmicPriv) (f : RecvFrame) : Bool :=
  match p.mickey f with
  | none => false
  | some none => true
  | some (some mickey) => f.miccode mickey != f.framemic

/-! ### Headers -/

/-- The header of a data frame without HT control. -/
structure WlanHdr where
  toDs : Bool
  fromDs : Bool
  /-- More Fragments, Retry, Power Management, More Data and Protected. -/
  flags : UInt8
  duration : Vector UInt8 2
  addr1 : MacAddr
  addr2 : MacAddr
  addr3 : MacAddr
  /-- Only there with both DS bits. -/
  addr4 : MacAddr
  seqCtl : Vector UInt8 2
  qc : Option (Vector UInt8 2)

namespace WlanHdr

def fctrl1 (w : WlanHdr) : UInt8 :=
  (if w.toDs then 0x01 else 0x00) ||| (if w.fromDs then 0x02 else 0x00) ||| (w.flags &&& 0x7c)

/-- Frame control and duration. -/
def start (w : WlanHdr) : List UInt8 := [if w.qc.isSome then 0x88 else 0x08, w.fctrl1] ++ w.duration.toList

/-- What is behind the sequence control field. -/
def tail (w : WlanHdr) : List UInt8 :=
  (if w.toDs && w.fromDs then w.addr4.toList else []) ++ w.qc.elim [] Vector.toList

def bytes (w : WlanHdr) : List UInt8 :=
  w.start ++ (w.addr1.toList ++ (w.addr2.toList ++ (w.addr3.toList ++ (w.seqCtl.toList ++ w.tail))))

/-- The priority in the QoS field, 0 without one. -/
def tid (w : WlanHdr) : Nat := w.qc.elim 0 fun qc => qc.head.toNat % 16

def da (w : WlanHdr) : MacAddr := if w.toDs then w.addr3 else w.addr1

def sa (w : WlanHdr) : MacAddr := if w.fromDs then if w.toDs then w.addr4 else w.addr3 else w.addr2

/-- What the air leaves as it is: the DS bits and the addresses. -/
structure Alike (w w' : WlanHdr) : Prop where
  toDs : w'.toDs = w.toDs
  fromDs : w'.fromDs = w.fromDs
  addr1 : w'.addr1 = w.addr1
  addr2 : w'.addr2 = w.addr2
  addr3 : w'.addr3 = w.addr3
  addr4 : w'.addr4 = w.addr4

end WlanHdr

/-- An MSDU in the transmit buffer, in one MPDU, when `xmitframe_addmic` is called. -/
structure TkipMsdu where
  priv : AddmicPriv
  attrib : AddmicAttrib
  addr : Nat
  hdr : WlanHdr
  iv : List UInt8
  /-- The LLC header and the packet. -/
  msdu : List UInt8
  /-- The rest of the buffer. -/
  room : List UInt8
  tkip : attrib.encrypt = .tkip
  hdrlen : attrib.hdrlen = hdr.bytes.length
  ivLen : attrib.ivLen = iv.length
  nrFrags : attrib.nrFrags = 1
  lastTxcmdsz : attrib.lastTxcmdsz = attrib.hdrlen + attrib.ivLen + msdu.length + attrib.swIcvLen
  lt : attrib.lastTxcmdsz < 2 ^ 32
  aligned : addr % 4 = 0
  hasRoom : 8 ≤ room.length
  hasKey : attrib.mickey priv ≠ Vector.replicate 16 0

/-- The frame in the buffer, with what is behind it. -/
def TkipMsdu.buf (x : TkipMsdu) : List UInt8 := x.hdr.bytes ++ (x.iv ++ (x.msdu ++ x.room))

/-- A frame with the MSDU of `x`, any eight bytes in the place of its MIC and the attributes that its header gives. -/
structure TkipRx (x : TkipMsdu) where
  frame : RecvFrame
  hdr : WlanHdr
  iv : List UInt8
  tag : List UInt8
  icv : List UInt8
  data : frame.data = hdr.bytes ++ (iv ++ (x.msdu ++ (tag ++ icv)))
  alike : x.hdr.Alike hdr
  hdrlen : frame.attrib.hdrlen = hdr.bytes.length
  ivLen : frame.attrib.ivLen = iv.length
  icvLen : frame.attrib.icvLen = icv.length
  tagLen : tag.length = 8
  priority : frame.attrib.priority = hdr.tid
  samePriority : x.attrib.micPriority = UInt8.ofNat hdr.tid

section
variable {w w' : WlanHdr} {m : MicData} {rest : List UInt8}

theorem WlanHdr.length_start (w : WlanHdr) : w.start.length = 4 := by
  rw [WlanHdr.start, List.length_append, Vector.length_toList]
  rfl

theorem WlanHdr.length_bytes (w : WlanHdr) : w.bytes.length = 24 + w.tail.length := by
  simp only [WlanHdr.bytes, List.length_append, Vector.length_toList, w.length_start]
  omega

theorem WlanHdr.bytesAt_addr (w : WlanHdr) (rest : List UInt8) :
    bytesAt (w.bytes ++ rest) 4 6 = w.addr1.toList ∧ bytesAt (w.bytes ++ rest) 10 6 = w.addr2.toList ∧
      bytesAt (w.bytes ++ rest) 16 6 = w.addr3.toList ∧
      (w.toDs = true → w.fromDs = true → bytesAt (w.bytes ++ rest) 24 6 = w.addr4.toList) := by
  have hat : ∀ (pre post : List UInt8) (a : MacAddr) (off : Nat), w.bytes ++ rest = pre ++ (a.toList ++ post) →
      pre.length = off → bytesAt (w.bytes ++ rest) off 6 = a.toList := by
    intro pre post a off hbytes hoff
    rw [hbytes]
    exact bytesAt_append hoff Vector.length_toList
  refine ⟨?_, ?_, ?_, ?_⟩
  · refine hat w.start (w.addr2.toList ++ (w.addr3.toList ++ (w.seqCtl.toList ++ w.tail)) ++ rest) w.addr1 4 ?_
      w.length_start
    rw [WlanHdr.bytes]
    simp only [List.append_assoc]
  · refine hat (w.start ++ w.addr1.toList) (w.addr3.toList ++ (w.seqCtl.toList ++ w.tail) ++ rest) w.addr2 10 ?_ ?_
    · rw [WlanHdr.bytes]
      simp only [List.append_assoc]
    · simp only [List.length_append, w.length_start, Vector.length_toList]
  · refine hat (w.start ++ w.addr1.toList ++ w.addr2.toList) (w.seqCtl.toList ++ w.tail ++ rest) w.addr3 16 ?_ ?_
    · rw [WlanHdr.bytes]
      simp only [List.append_assoc]
    · simp only [List.length_append, w.length_start, Vector.length_toList]
  · intro htods hfrds
    have htail : w.tail = w.addr4.toList ++ w.qc.elim [] Vector.toList := by
      rw [WlanHdr.tail, htods, hfrds]
      rfl
    refine hat (w.start ++ w.addr1.toList ++ w.addr2.toList ++ w.addr3.toList ++ w.seqCtl.toList)
      (w.qc.elim [] Vector.toList ++ rest) w.addr4 24 ?_ ?_
    · rw [WlanHdr.bytes, htail]
      simp only [List.append_assoc]
    · simp only [List.length_append, w.length_start, Vector.length_toList]

theorem WlanHdr.fctrl1_bits (w : WlanHdr) :
    (w.fctrl1 &&& 0x01 != 0) = w.toDs ∧ (w.fctrl1 &&& 0x02 != 0) = w.fromDs ∧ (w.fctrl1 &&& 0x80 != 0) = false := by
  have hmask : ∀ mask : UInt8, 0x7c &&& mask = 0 → (w.flags &&& 0x7c) &&& mask = 0 := by
    intro mask h
    rw [UInt8.and_assoc, h]
    exact UInt8.and_zero
  have hdistrib : ∀ x y z : UInt8, (x ||| y) &&& z = x &&& z ||| y &&& z := fun _ _ _ =>
    UInt8.toBitVec_inj.1 BitVec.and_or_distrib_right
  unfold WlanHdr.fctrl1
  rw [hdistrib, hdistrib _ _ 0x02, hdistrib _ _ 0x80, hmask 0x01 rfl, hmask 0x02 rfl, hmask 0x80 rfl]
  cases w.toDs <;> cases w.fromDs <;> decide

theorem WlanHdr.fcBit_append (w : WlanHdr) (rest : List UInt8) :
    fcBit (w.bytes ++ rest) 1 0x01 = w.toDs ∧ fcBit (w.bytes ++ rest) 1 0x02 = w.fromDs ∧
      fcBit (w.bytes ++ rest) 1 0x80 = false := w.fctrl1_bits

/-- The pseudo header has DA and SA, wherever they are. -/
theorem secmicAddrs_bytes (m : MicData) (w : WlanHdr) (rest : List UInt8) :
    secmicAddrs m (w.bytes ++ rest) = rtwSecmicappend m (w.da.toList ++ w.sa.toList) := by
  obtain ⟨htods, hfrds, -⟩ := w.fcBit_append rest
  obtain ⟨h1, h2, h3, h4⟩ := w.bytesAt_addr rest
  unfold secmicAddrs WlanHdr.da WlanHdr.sa
  dsimp only
  rw [htods, hfrds, h1, h2, h3, rtwSecmicappend_append]
  cases ht : w.toDs <;> cases hf : w.fromDs
  · rfl
  · rfl
  · rfl
  · rw [h4 ht hf]
    rfl

theorem WlanHdr.Alike.da (h : w.Alike w') : w'.da = w.da := by
  unfold WlanHdr.da
  rw [h.toDs, h.addr3, h.addr1]

theorem WlanHdr.Alike.sa (h : w.Alike w') : w'.sa = w.sa := by
  unfold WlanHdr.sa
  rw [h.toDs, h.fromDs, h.addr2, h.addr3, h.addr4]

/-- The code of a message with its pseudo header. -/
def tkipMic (key : Skey) (da sa : MacAddr) (pri : UInt8) (msdu : List UInt8) : List UInt8 :=
  michael key.toList (da.toList ++ sa.toList ++ [pri, 0, 0, 0] ++ msdu)

theorem length_tkipMic (key : Skey) (da sa : MacAddr) (pri : UInt8) (msdu : List UInt8) :
    (tkipMic key da sa pri msdu).length = 8 := by
  rw [tkipMic, michael]
  exact List.length_append

theorem rtwSecgetmic_tkip (key : Skey) (da sa : MacAddr) (pri : UInt8) (msdu : List UInt8) :
    (rtwSecgetmic (rtwSecmicappend (rtwSecmicappend
      (rtwSecmicappend (rtwSecmicsetkey key.toList) (da.toList ++ sa.toList)) [pri, 0, 0, 0]) msdu)).1 =
      tkipMic key da sa pri msdu := by
  have hpieces : [da.toList ++ sa.toList, [pri, 0, 0, 0], msdu].flatten =
      da.toList ++ sa.toList ++ [pri, 0, 0, 0] ++ msdu := by
    rw [List.flatten_cons, List.flatten_cons, List.flatten_singleton, ← List.append_assoc]
  rw [tkipMic, ← hpieces]
  exact rtwSecgetmic_append key.toList [da.toList ++ sa.toList, [pri, 0, 0, 0], msdu]

end

section
variable (x : TkipMsdu)

theorem memcpyAt_append {pre post bs : List UInt8} (h : bs.length ≤ post.length) :
    memcpyAt (pre ++ post) pre.length bs = pre ++ bs ++ post.drop bs.length := by
  have hroom : (pre ++ post).length - pre.length = post.length := by
    rw [List.length_append, Nat.add_sub_cancel_left]
  rw [memcpyAt, hroom, List.take_left, List.take_of_length_le h, ← List.drop_drop, List.drop_left]

theorem TkipMsdu.length_attrib : x.attrib.length x.attrib.lastTxcmdsz = x.msdu.length := by
  have hlt := x.lt
  unfold AddmicAttrib.length
  rw [x.lastTxcmdsz] at hlt ⊢
  have hsub : ((x.attrib.hdrlen + x.attrib.ivLen + x.msdu.length + x.attrib.swIcvLen : Nat) : Int) - x.attrib.hdrlen -
      x.attrib.ivLen - x.attrib.swIcvLen = x.msdu.length := by omega
  rw [hsub, Int.emod_eq_of_lt (Int.natCast_nonneg _) (by omega)]
  rfl

/-- The sender puts the code of its MSDU behind it. -/
theorem frameAddmic_tkip :
    frameAddmic x.priv x.attrib x.addr x.buf =
      some (x.hdr.bytes ++ (x.iv ++ (x.msdu ++
        (tkipMic (x.attrib.mickey x.priv) x.hdr.da x.hdr.sa x.attrib.micPriority x.msdu ++ x.room.drop 8))),
        x.attrib.lastTxcmdsz + 8) := by
  have hoff : rnd4 (x.addr + 0) - x.addr + x.attrib.hdrlen + x.attrib.ivLen = (x.hdr.bytes ++ x.iv).length := by
    have haligned := x.aligned
    rw [List.length_append, ← x.hdrlen, ← x.ivLen, rnd4, Nat.add_zero, if_pos haligned]
    omega
  have hmsdu : bytesAt x.buf (x.hdr.bytes ++ x.iv).length x.msdu.length = x.msdu := by
    rw [TkipMsdu.buf, ← List.append_assoc]
    exact bytesAt_append rfl rfl
  have hloop : ∀ m, frameAddmicLoop x.priv x.attrib x.addr x.buf 1 m 0 =
      (rtwSecmicappend m x.msdu, (x.hdr.bytes ++ x.iv).length + x.msdu.length) := by
    intro m
    unfold frameAddmicLoop
    dsimp only
    rw [hoff, if_pos rfl, x.length_attrib, hmsdu]
    rfl
  unfold frameAddmic
  rw [if_pos x.tkip, if_neg x.hasKey, x.nrFrags]
  dsimp only
  rw [hloop, TkipMsdu.buf, secmicAddrs_bytes]
  dsimp only
  rw [rtwSecgetmic_tkip]
  generalize htag : tkipMic (x.attrib.mickey x.priv) x.hdr.da x.hdr.sa x.attrib.micPriority x.msdu = tag
  have htaglen : tag.length = 8 := by
    rw [← htag]
    exact length_tkipMic ..
  have hroom := x.hasRoom
  congr 2
  have hsplit : x.hdr.bytes ++ (x.iv ++ (x.msdu ++ x.room)) = (x.hdr.bytes ++ x.iv ++ x.msdu) ++ x.room := by
    simp only [List.append_assoc]
  rw [hsplit, ← List.length_append, memcpyAt_append (htaglen.trans_le hroom), htaglen]
  simp only [List.append_assoc]

/-- The receiver gets the same code, whatever is in the place of the MIC. -/
theorem miccode_tkip {x : TkipMsdu} (r : TkipRx x) (key : Skey) :
    r.frame.miccode key = tkipMic key x.hdr.da x.hdr.sa x.attrib.micPriority x.msdu ∧ r.frame.framemic = r.tag := by
  have hlt := x.lt
  have hsize := x.lastTxcmdsz
  have hmem : r.frame.mem = r.hdr.bytes ++ (r.iv ++ (x.msdu ++ (r.tag ++ (r.icv ++ r.frame.slack)))) := by
    rw [RecvFrame.mem, r.data]
    simp only [List.append_assoc]
  have hlen : r.frame.len = r.hdr.bytes.length + (r.iv.length + (x.msdu.length + (8 + r.icv.length))) := by
    rw [RecvFrame.len, r.data]
    simp only [List.length_append, r.tagLen]
  have hdatalen : r.frame.micDatalen = x.msdu.length := by
    unfold RecvFrame.micDatalen
    rw [hlen, r.hdrlen, r.ivLen, r.icvLen]
    have hsub : ((r.hdr.bytes.length + (r.iv.length + (x.msdu.length + (8 + r.icv.length))) : Nat) : Int) -
        r.hdr.bytes.length - r.iv.length - r.icv.length - 8 = x.msdu.length := by omega
    rw [hsub, Int.emod_eq_of_lt (Int.natCast_nonneg _) (by omega)]
    rfl
  have hoff : r.frame.attrib.hdrlen + r.frame.attrib.ivLen = (r.hdr.bytes ++ r.iv).length := by
    rw [List.length_append, r.hdrlen, r.ivLen]
  have hdata : bytesAt r.frame.mem (r.frame.attrib.hdrlen + r.frame.attrib.ivLen) r.frame.micDatalen = x.msdu := by
    rw [hmem, hoff, hdatalen, ← List.append_assoc]
    exact bytesAt_append rfl rfl
  refine ⟨?_, ?_⟩
  · unfold RecvFrame.miccode rtwSeccalctkipmic
    dsimp only
    rw [hdata, hmem, secmicAddrs_bytes, r.priority, ← r.samePriority, r.alike.da, r.alike.sa, rtwSecgetmic_tkip]
  · unfold RecvFrame.framemic
    rw [hmem, hoff, hdatalen, ← List.append_assoc, ← List.append_assoc]
    exact bytesAt_append List.length_append r.tagLen

/-! ### The attributes -/

/-- `qos_acm` -/
def qosAcm (acmMask priority : Nat) : Nat :=
  match priority with
  | 0 | 3 => if acmMask.testBit 1 then 1 else priority
  | 4 | 5 => if acmMask.testBit 2 then 0 else priority
  | 6 | 7 => if acmMask.testBit 3 then 5 else priority
  | _ => priority

/-- What `update_attrib` takes the priority from: the `qos_option` of the BSS, its `ht_option`, the `qos_option` of a
receiver that is not an access point, and the type of service of the packet. -/
structure TxQos where
  mode : XmitMode
  qosOption : Bool
  htOption : Bool
  staQosOption : Bool
  acmMask : Nat
  etherType : Nat
  tos : UInt8

namespace TxQos

/-- `psta->qos_option`, as `update_sta_info` leaves it for the access point of a station. -/
def qosEn (t : TxQos) : Bool :=
  match t.mode with
  | .station => t.htOption || t.qosOption
  | .ap | .adhoc => t.staQosOption

/-- Whether the frame gets a QoS field. -/
def hdrQos (t : TxQos) : Bool :=
  match t.mode with
  | .station => t.qosOption
  | .ap | .adhoc => t.qosEn

/-- `set_qos` -/
def userPriority (t : TxQos) : Nat := if t.etherType = 0x0800 then t.tos.toNat / 32 else 0

def priority (t : TxQos) : Nat :=
  if t.hdrQos then
    match t.mode with
    | .station => if t.acmMask ≠ 0 then qosAcm t.acmMask t.userPriority else t.userPriority
    | .ap | .adhoc => t.userPriority
  else 0

end TxQos

/-- The header of a packet with its priority. -/
def TxQos.hdrAttrib (t : TxQos) (h : HdrAttrib) : HdrAttrib :=
  { h with mode := t.mode, qosEn := t.hdrQos, priority := t.priority }

/-- `rtw_make_wlanhdr` for a frame with protection. -/
def HdrAttrib.protectedHdr (h : HdrAttrib) (e : EthFrame) : List UInt8 := (h.rtwMakeWlanhdr e).modify 1 (· ||| 0x40)

/-- The same header by its fields. -/
def HdrAttrib.wlanHdr (h : HdrAttrib) (e : EthFrame) : WlanHdr where
  toDs := h.mode = .station
  fromDs := h.mode = .ap
  flags := if h.mdata then 0x60 else 0x40
  duration := #v[0, 0]
  addr1 :=
    match h.mode with
    | .station => h.bssid
    | .ap | .adhoc => e.dst
  addr2 :=
    match h.mode with
    | .station | .adhoc => h.ta
    | .ap => h.bssid
  addr3 :=
    match h.mode with
    | .station => e.dst
    | .ap => e.src
    | .adhoc => h.bssid
  addr4 := Vector.replicate 6 0
  seqCtl := #v[UInt8.ofNat (h.seqNum % 4096 * 16), UInt8.ofNat (h.seqNum % 4096 / 16)]
  qc := if h.qosEn then
      some #v[UInt8.ofNat (h.priority % 16 + (if h.eosp then 16 else 0) + h.ackPolicy % 4 * 32), 0]
    else none

theorem protectedHdr_eq (h : HdrAttrib) (e : EthFrame) : h.protectedHdr e = (h.wlanHdr e).bytes := by
  have hbit : h.fctrl1 false ||| 0x40 = (h.wlanHdr e).fctrl1 := by
    cases hm : h.mode <;> cases hd : h.mdata <;>
      simp only [HdrAttrib.fctrl1, WlanHdr.fctrl1, HdrAttrib.wlanHdr, hm, hd] <;> decide
  have haddrs : h.addrs e =
      (h.wlanHdr e).addr1.toList ++ ((h.wlanHdr e).addr2.toList ++ (h.wlanHdr e).addr3.toList) := by
    unfold HdrAttrib.addrs HdrAttrib.wlanHdr
    cases h.mode <;> exact List.append_assoc ..
  have htail : (h.wlanHdr e).tail = h.qc := by
    unfold WlanHdr.tail HdrAttrib.wlanHdr HdrAttrib.qc
    cases h.mode <;> cases h.qosEn <;> rfl
  have hmodify : h.protectedHdr e = [if h.qosEn then 0x88 else 0x08, h.fctrl1 false ||| 0x40, 0, 0] ++ h.addrs e ++
      [UInt8.ofNat (h.seqNum % 4096 * 16), UInt8.ofNat (h.seqNum % 4096 / 16)] ++ h.qc := rfl
  have hqos : (h.wlanHdr e).qc.isSome = h.qosEn := by
    unfold HdrAttrib.wlanHdr
    cases h.qosEn <;> rfl
  rw [hmodify, hbit, haddrs, ← htail, WlanHdr.bytes, WlanHdr.start, hqos]
  simp only [List.append_assoc]
  rfl

theorem userPriority_lt (t : TxQos) : t.userPriority < 8 := by
  have htos := t.tos.toNat_lt
  unfold TxQos.userPriority
  split
  · omega
  · exact Nat.succ_pos 7

theorem qosAcm_lt (acmMask : Nat) {priority : Nat} (h : priority < 8) : qosAcm acmMask priority < 8 := by
  unfold qosAcm
  split <;> first | exact h | (split <;> first | exact h | decide)

theorem priority_lt (t : TxQos) : t.priority < 8 := by
  have hup := userPriority_lt t
  unfold TxQos.priority
  cases t.hdrQos with
  | false => exact Nat.succ_pos 7
  | true =>
    rw [if_pos rfl]
    cases t.mode with
    | station =>
      dsimp only
      split
      · exact qosAcm_lt _ hup
      · exact hup
    | ap => exact hup
    | adhoc => exact hup

/-- The priority that is taken into the MIC is the one in the header, also where the two `qos_option` differ. -/
theorem micPriority_hdrAttrib (t : TxQos) (h : HdrAttrib) (e : EthFrame) :
    (if t.qosEn then t.priority else 0) = ((t.hdrAttrib h).wlanHdr e).tid := by
  have hlt := priority_lt t
  have hqc : ((t.hdrAttrib h).wlanHdr e).tid = if t.hdrQos then t.priority else 0 := by
    unfold WlanHdr.tid HdrAttrib.wlanHdr TxQos.hdrAttrib
    dsimp only
    cases t.hdrQos with
    | false => rfl
    | true =>
      show (UInt8.ofNat _).toNat % 16 = t.priority
      rw [UInt8.toNat_ofNat']
      split <;> omega
  rw [hqc]
  cases hq : t.hdrQos with
  | false =>
    have hzero : t.priority = 0 := by
      rw [TxQos.priority, hq]
      rfl
    rw [hzero, ite_self]
    rfl
  | true =>
    have hen : t.qosEn = true := by
      unfold TxQos.hdrQos at hq
      unfold TxQos.qosEn at hq ⊢
      cases hm : t.mode with
      | station =>
        rw [hm] at hq
        dsimp only at hq ⊢
        rw [hq, Bool.or_true]
      | ap =>
        rw [hm] at hq
        exact hq
      | adhoc =>
        rw [hm] at hq
        exact hq
    rw [hen]

/-- The receiver finds the length of the header and the priority in it, unless both DS bits are set. -/
theorem validateRecvDataFrame_bytes (w : WlanHdr) (body : List UInt8) (h : ¬ (w.toDs = true ∧ w.fromDs = true)) :
    (validateRecvDataFrame (w.bytes ++ body)).hdrlen = w.bytes.length ∧
      (validateRecvDataFrame (w.bytes ++ body)).priority = w.tid := by
  obtain ⟨htods, hfrds, horder⟩ := w.fcBit_append body
  have hds : ¬ getTofrDs (w.bytes ++ body) = 3 := by
    rw [getTofrDs, htods, hfrds]
    cases ht : w.toDs <;> cases hf : w.fromDs <;> first | decide | exact absurd ⟨ht, hf⟩ h
  have htail : w.tail = w.qc.elim [] Vector.toList := by
    rw [WlanHdr.tail, if_neg (by rwa [Bool.and_eq_true])]
    rfl
  have hqos : fcBit (w.bytes ++ body) 0 0x80 = w.qc.isSome := by
    show ((if w.qc.isSome then 0x88 else 0x08 : UInt8) &&& 0x80 != 0) = w.qc.isSome
    cases w.qc.isSome <;> decide
  have hqc : ∀ qc, w.qc = some qc → (w.bytes ++ body)[24]? = some qc.head := by
    intro qc hw
    have hpre : ∃ pre, pre.length = 24 ∧ w.bytes ++ body = pre ++ (qc.toList ++ body) := by
      refine ⟨w.start ++ w.addr1.toList ++ w.addr2.toList ++ w.addr3.toList ++ w.seqCtl.toList, ?_, ?_⟩
      · simp only [List.length_append, w.length_start, Vector.length_toList]
      · rw [WlanHdr.bytes, htail, hw]
        simp only [Option.elim_some, List.append_assoc]
    obtain ⟨pre, hlen, hbytes⟩ := hpre
    rw [hbytes, List.getElem?_append_right hlen.le, hlen]
    rw [List.getElem?_append_left (by rw [Vector.length_toList]; decide), Vector.getElem?_toList]
    rfl
  have hlen := w.length_bytes
  unfold validateRecvDataFrame WlanHdr.tid
  dsimp only
  rw [hlen, htail, if_neg hds, hqos, horder]
  cases hw : w.qc with
  | none => exact ⟨rfl, rfl⟩
  | some qc =>
    rw [hqc qc hw]
    refine ⟨?_, rfl⟩
    show 24 + 2 + 0 = 24 + qc.toList.length
    rw [Vector.length_toList]

end

/-- Michael does not see how a message is cut; the sender's code of an MSDU in one MPDU is the receiver's, for any DS
bits; and the attributes of both are as `TkipRx` has them: the priority of the sender is the one in its header, and the
receiver takes it and the length of the header from there. -/
theorem tkipMic_trip :
    (∀ (key : List UInt8) (pieces : List (List UInt8)),
      (rtwSecgetmic (pieces.foldl rtwSecmicappend (rtwSecmicsetkey key))).1 = michael key pieces.flatten) ∧
    (∀ x : TkipMsdu, ∃ mic : List UInt8, mic.length = 8 ∧
      frameAddmic x.priv x.attrib x.addr x.buf =
        some (x.hdr.bytes ++ (x.iv ++ (x.msdu ++ (mic ++ x.room.drop 8))), x.attrib.lastTxcmdsz + 8) ∧
      ∀ (r : TkipRx x) (p : ChkmicPriv), p.mickey r.frame = some (some (x.attrib.mickey x.priv)) →
        r.frame.miccode (x.attrib.mickey x.priv) = mic ∧ (chkmicErr p r.frame = false ↔ r.tag = mic)) ∧
    (∀ (t : TxQos) (h : HdrAttrib) (e : EthFrame),
      (t.hdrAttrib h).protectedHdr e = ((t.hdrAttrib h).wlanHdr e).bytes ∧
        (if t.qosEn then t.priority else 0) = ((t.hdrAttrib h).wlanHdr e).tid) ∧
    ∀ (w : WlanHdr) (body : List UInt8), ¬ (w.toDs = true ∧ w.fromDs = true) →
      (validateRecvDataFrame (w.bytes ++ body)).hdrlen = w.bytes.length ∧
        (validateRecvDataFrame (w.bytes ++ body)).priority = w.tid := by
  refine ⟨rtwSecgetmic_append, ?_, ?_, validateRecvDataFrame_bytes⟩
  · intro x
    refine ⟨_, length_tkipMic .., frameAddmic_tkip x, ?_⟩
    intro r p hkey
    obtain ⟨hcode, htag⟩ := miccode_tkip r (x.attrib.mickey x.priv)
    refine ⟨hcode, ?_⟩
    unfold chkmicErr
    rw [hkey]
    dsimp only
    rw [hcode, htag, bne_eq_false_iff_eq]
    exact eq_comm
  · intro t h e
    exact ⟨protectedHdr_eq _ e, micPriority_hdrAttrib t h e⟩

/-- A header with four addresses and a QoS field. -/
def wdsHdr : WlanHdr where
  toDs := true
  fromDs := true
  flags := 0x40
  duration := #v[0, 0]
  addr1 := Vector.replicate 6 2
  addr2 := Vector.replicate 6 4
  addr3 := Vector.replicate 6 6
  addr4 := Vector.replicate 6 8
  seqCtl := #v[0, 0]
  qc := some #v[5, 0]

def wdsMsdu : TkipMsdu where
  priv := ⟨fun _ => Vector.replicate 16 0, 0, 2346⟩
  attrib := ⟨Vector.replicate 6 2, .tkip, 32, 8, 4, true, true, 5, 1, 47, Vector.replicate 16 1⟩
  addr := 40
  hdr := wdsHdr
  iv := [0, 0, 0, 0, 0, 0, 0, 0]
  msdu := [1, 2, 3]
  room := [0, 0, 0, 0, 0, 0, 0, 0]
  tkip := rfl
  hdrlen := rfl
  ivLen := rfl
  nrFrags := rfl
  lastTxcmdsz := rfl
  lt := by decide
  aligned := rfl
  hasRoom := by decide
  hasKey := by decide

/-- A frame whose MIC is not right. -/
def wdsRx : TkipRx wdsMsdu where
  frame := ⟨0, ⟨32, 3, false, true, 5, 0, 0, false, true, true, .tkip, 8, 4, 0, Vector.replicate 6 6,
    Vector.replicate 6 8, Vector.replicate 6 4, Vector.replicate 6 2, Vector.replicate 6 2⟩, [],
    wdsHdr.bytes ++ ([0, 0, 0, 0, 0, 0, 0, 0] ++ ([1, 2, 3] ++ ([0, 0, 0, 0, 0, 0, 0, 0] ++ [0, 0, 0, 0]))), []⟩
  hdr := wdsHdr
  iv := [0, 0, 0, 0, 0, 0, 0, 0]
  tag := [0, 0, 0, 0, 0, 0, 0, 0]
  icv := [0, 0, 0, 0]
  data := rfl
  alike := ⟨rfl, rfl, rfl, rfl, rfl, rfl⟩
  hdrlen := rfl
  ivLen := rfl
  icvLen := rfl
  tagLen := rfl
  priority := rfl
  samePriority := rfl

/-- The eight bytes that the sender of `wdsMsdu` appends are the ones that the receiver of `wdsRx` asks for. -/
theorem tkipMic_trip_wds : ∃ mic : List UInt8, mic.length = 8 ∧
    frameAddmic wdsMsdu.priv wdsMsdu.attrib 40 wdsMsdu.buf =
      some (wdsHdr.bytes ++ ([0, 0, 0, 0, 0, 0, 0, 0] ++ ([1, 2, 3] ++ (mic ++ []))), 55) ∧
    wdsRx.frame.miccode (Vector.replicate 16 1) = mic := by
  obtain ⟨mic, hlen, hsent, hrx⟩ := tkipMic_trip.2.1 wdsMsdu
  refine ⟨mic, hlen, hsent, ?_⟩
  exact (hrx wdsRx ⟨fun _ => some (Vector.replicate 16 1), fun _ => Vector.replicate 16 0, false⟩ rfl).1

end Rtw
