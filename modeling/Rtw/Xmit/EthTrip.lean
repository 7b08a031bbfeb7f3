import Rtw.Recv.Ethhdr
import Rtw.Xmit.Coalesce

/-!
# From Ethernet to 802.11 and back

`rtw_put_snap` uses the Bridge-Tunnel header for IPX and AARP and the RFC 1042 header for any other type, and
`wlanhdr_to_ethhdr` removes exactly these, so that type and payload come back as they were, also when the type
is a length. The addresses are those that `rtw_make_wlanhdr` writes: a station sends with its own address.
-/

namespace Rtw

structure EthFrame where
  dst : MacAddr
  src : MacAddr
  /-- The EtherType, or the length of an 802.3 frame. -/
  etherType : Nat
  payload : List UInt8
  lt : etherType < 65536

def EthFrame.bytes (e : EthFrame) : List UInt8 := e.dst.toList ++ e.src.toList ++ be16 e.etherType ++ e.payload

/-- `WIFI_STATION_STATE`, `WIFI_AP_STATE`, and `WIFI_ADHOC_STATE` or `WIFI_ADHOC_MASTER_STATE` -/
inductive XmitMode where
  | station
  | ap
  | adhoc
  deriving DecidableEq

/-- What `update_attrib` and `rtw_make_wlanhdr` know besides the packet; `qosEn` is `qos_option` of the BSS for a
station, and else that of the receiver. -/
structure HdrAttrib where
  mode : XmitMode
  macAddr : MacAddr
  bssid : MacAddr
  qosEn : Bool
  priority : Nat
  eosp : Bool
  ackPolicy : Nat
  mdata : Bool
  seqNum : Nat

namespace HdrAttrib

/-- `pattrib->ta` -/
def ta (h : HdrAttrib) : MacAddr :=
  match h.mode with
  | .station | .adhoc => h.macAddr
  | .ap => h.bssid

/-- `addr1`, `addr2` and `addr3` -/
def addrs (h : HdrAttrib) (e : EthFrame) : List UInt8 :=
  match h.mode with
  | .station => h.bssid.toList ++ h.ta.toList ++ e.dst.toList
  | .ap => e.dst.toList ++ h.bssid.toList ++ e.src.toList
  | .adhoc => e.dst.toList ++ h.ta.toList ++ h.bssid.toList

/-- The second byte of the frame control field of a frame without protection. -/
def fctrl1 (h : HdrAttrib) (mfrag : Bool) : UInt8 :=
  (match h.mode with
    | .station => 0x01
    | .ap => 0x02
    | .adhoc => 0x00) ||| (if mfrag then 0x04 else 0x00) ||| (if h.mdata then 0x20 else 0x00)

/-- The QoS field, if there is one. -/
def qc (h : HdrAttrib) : List UInt8 :=
  if h.qosEn then [UInt8.ofNat (h.priority % 16 + (if h.eosp then 16 else 0) + h.ackPolicy % 4 * 32), 0] else []

/-- The header, with or without More Fragments. -/
def hdr (h : HdrAttrib) (e : EthFrame) (mfrag : Bool) : List UInt8 :=
  [if h.qosEn then 0x88 else 0x08, h.fctrl1 mfrag, 0, 0] ++ h.addrs e ++
    [UInt8.ofNat (h.seqNum % 4096 * 16), UInt8.ofNat (h.seqNum % 4096 / 16)] ++ h.qc

/-- `rtw_make_wlanhdr` for a data frame without protection. -/
def rtwMakeWlanhdr (h : HdrAttrib) (e : EthFrame) : List UInt8 := h.hdr e false

/-- The source address that a frame is sent with. -/
def source (h : HdrAttrib) (e : EthFrame) : MacAddr :=
  match h.mode with
  | .station | .adhoc => h.macAddr
  | .ap => e.src

end HdrAttrib

/-- An MPDU without protection, in the air; `SetMFrag` and `ClearMFrag` change one bit of its header. -/
def XmitFragment.mpdu (g : XmitFragment) : List UInt8 :=
  (if g.mfrag then g.hdr.modify 1 (· ||| 0x04) else g.hdr) ++ g.iv ++ g.llc ++ g.payload

/-- The frame that arrives: the first MPDU, and behind it, when there are more, what follows their headers. -/
def joinMpdus : List XmitFragment → List UInt8
  | [] => []
  | g :: gs => g.mpdu ++ gs.flatMap fun g => g.llc ++ g.payload

/-! ### The receiver -/

/-- A MAC address in a frame. -/
def frameAddr (frame : List UInt8) (off : Nat) : MacAddr := Vector.ofFn fun i => (frame[off + i]?).getD 0

/-- A bit of the frame control field. -/
def fcBit (frame : List UInt8) (i : Nat) (mask : UInt8) : Bool := (frame[i]?).getD 0 &&& mask != 0

def getTofrDs (frame : List UInt8) : Nat :=
  2 * (if fcBit frame 1 0x01 then 1 else 0) + if fcBit frame 1 0x02 then 1 else 0

def getDa (frame : List UInt8) : MacAddr :=
  match getTofrDs frame with
  | 0 | 1 => frameAddr frame 4
  | _ => frameAddr frame 16

def getSa (frame : List UInt8) : MacAddr :=
  match getTofrDs frame with
  | 0 | 2 => frameAddr frame 10
  | 1 => frameAddr frame 16
  | _ => frameAddr frame 24

def getHdrBssid (frame : List UInt8) : MacAddr :=
  match getTofrDs frame with
  | 0 => frameAddr frame 16
  | 1 => frameAddr frame 10
  | 2 => frameAddr frame 4
  | _ => frameAddr frame 4

/-- The attributes that `validate_recv_frame` and `validate_recv_data_frame` leave for a data frame without
protection. -/
def validateRecvDataFrame (frame : List UInt8) : RxPktAttrib :=
  let toFrDs := getTofrDs frame
  let qos := fcBit frame 0 0x80
  let seqCtl := ((frame[22]?).getD 0).toNat + 256 * ((frame[23]?).getD 0).toNat
  let qc := if qos then ((frame[24]?).getD 0).toNat else 0
  { hdrlen := (if toFrDs = 3 then 30 else 24) + (if qos then 2 else 0) + if fcBit frame 1 0x80 then 4 else 0
    toFrDs
    amsdu := qc.testBit 7
    qos
    priority := qc % 16
    seqNum := Fin.ofNat 4096 (seqCtl / 16)
    fragNum := Fin.ofNat 16 seqCtl
    mfrag := fcBit frame 1 0x04
    privacy := fcBit frame 1 0x40
    bdecrypted := false
    encrypt := .noPrivacy
    ivLen := 0
    icvLen := 0
    ethType := 0
    dst := getDa frame
    src := getSa frame
    ta :=
      match toFrDs with
      | 1 => getHdrBssid frame
      | 3 => frameAddr frame 10
      | _ => getSa frame
    ra :=
      match toFrDs with
      | 2 => getHdrBssid frame
      | 3 => frameAddr frame 4
      | _ => getDa frame
    bssid := getHdrBssid frame }

/-- A frame that has been received, in a buffer with anything around it. -/
def rxFrame (head slack frame : List UInt8) : RecvFrame := ⟨0, validateRecvDataFrame frame, head, frame, slack⟩

/-! ### The trip -/

section
variable {a : PktAttrib} {e : EthFrame} {h : HdrAttrib} {mfrag : Bool} {body rest hdr : List UInt8}
  {n m fuel memStart frgInx : Nat}

theorem frameAddr_append {pre post : List UInt8} {off : Nat} (mac : MacAddr) (hoff : pre.length = off) :
    frameAddr (pre ++ (mac.toList ++ post)) off = mac := by
  subst hoff
  ext i hi
  rw [frameAddr, Vector.getElem_ofFn, List.getElem?_append_right (Nat.le_add_right ..), Nat.add_sub_cancel_left,
    List.getElem?_append_left (by simpa using hi), Vector.getElem?_toList, Vector.getElem?_eq_getElem hi, Option.getD_some]

theorem coalesceLoop_bodies (hfrg : frgInx ≠ 0) :
    (coalesceLoop a n m hdr fuel memStart frgInx rest).flatMap (fun g => g.llc ++ g.payload) =
      (coalesceLoop a n m hdr fuel memStart frgInx rest).flatMap XmitFragment.payload := by
  induction fuel generalizing memStart frgInx rest with
  | zero => rfl
  | succ fuel ih =>
    have hllc : a.llc frgInx = [] := if_neg hfrg
    unfold coalesceLoop
    dsimp only
    split
    · simp [hllc]
    · simp [hllc, ih (Nat.succ_ne_zero _)]

/-- The packet behind its header and its LLC header, whether in one MPDU or in several. -/
theorem joinMpdus_coalesce {env : CoalesceEnv} {payload : List UInt8} (hhdr : env.wlanhdr = some hdr) (hiv : a.iv = [])
    (hpkt : payload.length = a.pktlen) (hroom : ∀ i, 0 < (a.mpduLen env.fragLen hdr.length i % 2 ^ 32).toNat) :
    ∃ mfrag : Bool, joinMpdus (rtwXmitframeCoalesce env a payload) =
      (if mfrag then hdr.modify 1 (· ||| 0x04) else hdr) ++ rtwPutSnap a.etherType ++ payload := by
  have hall : (coalesceLoop a env.fragLen env.hwHdrOffset hdr (payload.length + 1) (env.bufAddr + env.hwHdrOffset) 0
      payload).flatMap XmitFragment.payload = payload :=
    coalesceLoop_payload hroom hpkt.le (Nat.lt_succ_self payload.length)
  have hllc : a.llc 0 = rtwPutSnap a.etherType := rfl
  unfold rtwXmitframeCoalesce
  rw [hhdr]
  dsimp only
  unfold coalesceLoop at hall ⊢
  dsimp only at hall ⊢
  split
  · rename_i hlast
    rw [if_pos hlast, List.flatMap_singleton] at hall
    refine ⟨false, ?_⟩
    rw [joinMpdus, XmitFragment.mpdu, hiv, hllc, hall]
    simp
  · rename_i hmore
    rw [if_neg hmore, List.flatMap_cons] at hall
    refine ⟨true, ?_⟩
    rw [joinMpdus, coalesceLoop_bodies (Nat.succ_ne_zero _), XmitFragment.mpdu, List.append_assoc, hall, hiv, hllc]
    simp

theorem modify_hdr (mfrag : Bool) :
    (if mfrag then (h.rtwMakeWlanhdr e).modify 1 (· ||| 0x04) else h.rtwMakeWlanhdr e) = h.hdr e mfrag := by
  have hbit : h.fctrl1 false ||| 0x04 = h.fctrl1 true := by
    cases hm : h.mode <;> cases hd : h.mdata <;> simp only [HdrAttrib.fctrl1, hm, hd] <;> decide
  cases mfrag with
  | false => rfl
  | true =>
    rw [if_pos rfl, HdrAttrib.hdr, ← hbit]
    rfl

theorem length_addrs (h : HdrAttrib) (e : EthFrame) : (h.addrs e).length = 18 := by
  cases hm : h.mode <;> simp [HdrAttrib.addrs, hm]

/-- The header length is the one that the receiver takes from the frame. -/
theorem length_hdr (h : HdrAttrib) (e : EthFrame) (mfrag : Bool) :
    (h.hdr e mfrag).length = if h.qosEn then 26 else 24 := by
  cases hq : h.qosEn <;> simp [HdrAttrib.hdr, HdrAttrib.qc, length_addrs, hq]

/-- The bits of the frame control field and the QoS field that the receiver looks at. -/
theorem fctrl1_bits (h : HdrAttrib) (mfrag : Bool) :
    (h.fctrl1 mfrag &&& 0x01 != 0) = decide (h.mode = .station) ∧ (h.fctrl1 mfrag &&& 0x02 != 0) = decide (h.mode = .ap) ∧
      (h.fctrl1 mfrag &&& 0x80 != 0) = false := by
  cases hm : h.mode <;> cases hd : h.mdata <;> cases mfrag <;> simp only [HdrAttrib.fctrl1, hm, hd] <;> decide

theorem validateRecvDataFrame_hdr (h : HdrAttrib) (e : EthFrame) (mfrag : Bool) (body : List UInt8) :
    let attrib := validateRecvDataFrame (h.hdr e mfrag ++ body)
    attrib.hdrlen = (h.hdr e mfrag).length ∧ attrib.dst = e.dst ∧ attrib.src = h.source e := by
  obtain ⟨htods, hfrds, horder⟩ := fctrl1_bits h mfrag
  have hfc : ∀ mask, fcBit (h.hdr e mfrag ++ body) 1 mask = (h.fctrl1 mfrag &&& mask != 0) := fun _ => rfl
  have hqos : fcBit (h.hdr e mfrag ++ body) 0 0x80 = h.qosEn := by
    show ((if h.qosEn then 0x88 else 0x08 : UInt8) &&& 0x80 != 0) = h.qosEn
    cases h.qosEn <;> decide
  have hmac : ∀ a1 a2 a3 : MacAddr, h.addrs e = a1.toList ++ a2.toList ++ a3.toList →
      frameAddr (h.hdr e mfrag ++ body) 4 = a1 ∧ frameAddr (h.hdr e mfrag ++ body) 10 = a2 ∧
        frameAddr (h.hdr e mfrag ++ body) 16 = a3 := by
    intro a1 a2 a3 haddrs
    have hframe : ∃ fc tail, fc.length = 4 ∧ h.hdr e mfrag ++ body =
        fc ++ (a1.toList ++ (a2.toList ++ (a3.toList ++ tail))) := by
      refine ⟨[if h.qosEn then 0x88 else 0x08, h.fctrl1 mfrag, 0, 0],
        [UInt8.ofNat (h.seqNum % 4096 * 16), UInt8.ofNat (h.seqNum % 4096 / 16)] ++ h.qc ++ body, rfl, ?_⟩
      rw [HdrAttrib.hdr, haddrs]
      simp only [List.append_assoc]
    obtain ⟨fc, tail, hfc, hframe⟩ := hframe
    rw [hframe]
    refine ⟨frameAddr_append a1 hfc, ?_, ?_⟩
    · rw [← List.append_assoc]
      exact frameAddr_append a2 (by simp [hfc])
    · rw [← List.append_assoc, ← List.append_assoc]
      exact frameAddr_append a3 (by simp [hfc])
  have htofr : getTofrDs (h.hdr e mfrag ++ body) =
      2 * (if h.mode = .station then 1 else 0) + if h.mode = .ap then 1 else 0 := by
    simp only [getTofrDs, hfc, htods, hfrds, decide_eq_true_eq]
  have hlen := length_hdr h e mfrag
  refine ⟨?_, ?_⟩
  · have hds : ¬ getTofrDs (h.hdr e mfrag ++ body) = 3 := by
      rw [htofr]
      cases h.mode <;> decide
    simp only [validateRecvDataFrame, hfc, horder, hqos, hlen, hds, Bool.false_eq_true, if_false]
    cases h.qosEn <;> rfl
  · show getDa (h.hdr e mfrag ++ body) = e.dst ∧ getSa (h.hdr e mfrag ++ body) = h.source e
    unfold getDa getSa HdrAttrib.source
    cases hm : h.mode with
    | station =>
      have hds : getTofrDs (h.hdr e mfrag ++ body) = 2 := by rw [htofr, hm]; rfl
      have hta : h.ta = h.macAddr := by rw [HdrAttrib.ta, hm]
      obtain ⟨-, hsa, hda⟩ := hmac h.bssid h.ta e.dst (by rw [HdrAttrib.addrs, hm])
      rw [hds]
      exact ⟨hda, hsa.trans hta⟩
    | ap =>
      have hds : getTofrDs (h.hdr e mfrag ++ body) = 1 := by rw [htofr, hm]; rfl
      obtain ⟨hda, -, hsa⟩ := hmac e.dst h.bssid e.src (by rw [HdrAttrib.addrs, hm])
      rw [hds]
      exact ⟨hda, hsa⟩
    | adhoc =>
      have hds : getTofrDs (h.hdr e mfrag ++ body) = 0 := by rw [htofr, hm]; rfl
      have hta : h.ta = h.macAddr := by rw [HdrAttrib.ta, hm]
      obtain ⟨hda, hsa, -⟩ := hmac e.dst h.ta h.bssid (by rw [HdrAttrib.addrs, hm])
      rw [hds]
      exact ⟨hda, hsa.trans hta⟩

theorem bytesAt_append {pre bs post : List UInt8} {off sz : Nat} (hoff : pre.length = off) (hsz : bs.length = sz) :
    bytesAt (pre ++ (bs ++ post)) off sz = bs := by
  subst hoff hsz
  refine List.ext_getElem (by simp [bytesAt]) fun i hi hi' => ?_
  simp only [bytesAt, List.getElem_map, List.getElem_range]
  rw [List.getElem?_append_right (Nat.le_add_right ..), Nat.add_sub_cancel_left, List.getElem?_append_left hi',
    List.getElem?_eq_getElem hi', Option.getD_some]

/-- A packet in an RFC 1042 or a Bridge-Tunnel header, as its type demands, is found by the receiver. -/
theorem bsnaphdr_rtwPutSnap {etherType : Nat} (hdr rest : List UInt8) (hlt : etherType < 65536) :
    bsnaphdr (hdr ++ (rtwPutSnap etherType ++ rest)) hdr.length = true := by
  have hsplit : rtwPutSnap etherType = (rtwPutSnap etherType).take 6 ++ be16 etherType := rfl
  have hsnap : bytesAt (hdr ++ (rtwPutSnap etherType ++ rest)) hdr.length snapSize = (rtwPutSnap etherType).take 6 := by
    rw [hsplit, List.append_assoc]
    exact bytesAt_append rfl rfl
  have htype : bytesAt (hdr ++ (rtwPutSnap etherType ++ rest)) (hdr.length + snapSize) 2 = be16 etherType := by
    rw [hsplit, List.append_assoc, ← List.append_assoc hdr]
    exact bytesAt_append (by rw [List.length_append]; rfl) rfl
  rw [bsnaphdr, hsnap, htype, decide_eq_true_iff]
  by_cases hspecial : etherType = 0x8137 ∨ etherType = 0x80f3
  · exact .inr (by simp [rtwPutSnap, hspecial, bridgeTunnelHeader])
  · have hne : ∀ t, t < 65536 → etherType ≠ t → be16 etherType ≠ be16 t := by
      intro t ht hne heq
      have hbytes := congrArg (fun l => getBe16 l 0) heq
      rw [← List.append_nil (be16 etherType), ← List.append_nil (be16 t)] at hbytes
      rw [getBe16_be16, getBe16_be16, Nat.mod_eq_of_lt hlt, Nat.mod_eq_of_lt ht] at hbytes
      exact hne hbytes
    rw [not_or] at hspecial
    exact .inl ⟨by simp [rtwPutSnap, hspecial.1, hspecial.2, rfc1042Header], hne 0x8137 (by decide) hspecial.1,
      hne 0x80f3 (by decide) hspecial.2⟩

theorem data_memcpy_zero {f : RecvFrame} {bs : List UInt8} (hle : bs.length ≤ f.len) :
    (f.memcpy 0 bs).data = bs ++ f.data.drop bs.length := by
  have hle' : bs.length ≤ f.data.length := hle
  have hmem : memcpyAt f.mem 0 bs = (bs ++ f.data.drop bs.length) ++ f.slack := by
    rw [memcpyAt, List.take_zero, List.nil_append, Nat.sub_zero, Nat.zero_add,
      List.take_of_length_le (by rw [RecvFrame.length_mem]; omega), RecvFrame.mem, List.drop_append_of_le_length hle',
      List.append_assoc]
  have hlen : (bs ++ f.data.drop bs.length).length = f.len := by
    rw [List.length_append, List.length_drop, RecvFrame.len]
    omega
  rw [RecvFrame.memcpy]
  dsimp only
  rw [hmem, List.take_left' hlen]

/-- The packet behind a header, an LLC/SNAP header that is removed, and nothing else around it. -/
theorem wlanhdrToEthhdr_snap {f : RecvFrame} {hdr snap body : List UInt8} {t : List UInt8}
    (hdata : f.data = hdr ++ (snap ++ (t ++ body))) (hhdr : hdr.length = f.attrib.hdrlen) (h24 : 24 ≤ f.attrib.hdrlen)
    (hsnap : snap.length = snapSize) (ht : t.length = 2) (henc : f.attrib.encrypt = .noPrivacy) (hiv : f.attrib.ivLen = 0)
    (hllc : bsnaphdr f.mem hdr.length = true) :
    ∃ g, wlanhdrToEthhdr false f = some g ∧ g.data = f.attrib.dst.toList ++ f.attrib.src.toList ++ (t ++ body) := by
  have hpull : pullIcv f = f := by rw [pullIcv, if_neg (fun h => h henc)]
  have hoff : llcOff f = hdr.length := by rw [llcOff, hiv, hhdr, Nat.add_zero]
  have hrmv : rmvLen f = hdr.length + snapSize := by rw [rmvLen, hoff, hllc, if_pos rfl]
  have h24' : 24 ≤ hdr.length := hhdr ▸ h24
  have hlen : f.len = hdr.length + 8 + body.length := by
    rw [RecvFrame.len, hdata]
    simp only [List.length_append, hsnap, ht, snapSize]
    omega
  unfold wlanhdrToEthhdr
  simp only [hpull, hoff, hllc, hrmv, Bool.false_eq_true, if_false, if_true, recvframePull]
  unfold snapSize at *
  unfold ethHlen
  rw [if_neg (by rw [RecvFrame.len]; dsimp only; rw [← RecvFrame.len, hlen]; omega)]
  refine ⟨_, rfl, ?_⟩
  have haddr : (f.attrib.dst.toList ++ f.attrib.src.toList).length = 12 := by simp
  have hdrop : f.data.drop (hdr.length + 6 - 14 + 2 + 12) = t ++ body := by
    rw [show hdr.length + 6 - 14 + 2 + 12 = (hdr ++ snap).length by rw [List.length_append]; omega, hdata,
      ← List.append_assoc, List.drop_left]
  rw [putEthhdr, if_pos rfl, data_memcpy_zero]
  · rw [haddr, List.drop_drop, hdrop]
  · rw [haddr, RecvFrame.len, List.length_drop, ← RecvFrame.len, hlen]
    omega

end

/-- A packet is sent without protection, with a fragmentation threshold that `iwconfig` allows. -/
structure EthSend where
  frame : EthFrame
  hdr : HdrAttrib
  env : CoalesceEnv
  bmcast : Bool
  wlanhdr_eq : env.wlanhdr = some (hdr.rtwMakeWlanhdr frame)
  frag_le : 256 ≤ env.fragLen
  le_frag : env.fragLen ≤ 2346

namespace EthSend

/-- The attributes of the packet. -/
def attrib (s : EthSend) : PktAttrib where
  bmcast := s.bmcast
  etherType := s.frame.etherType
  pktlen := s.frame.payload.length
  encrypt := .noPrivacy
  keyIdx := 0
  ivLen := 0
  icvLen := 0
  iv := []
  bswenc := false

/-- The frame that arrives. -/
def air (s : EthSend) : List UInt8 := joinMpdus (rtwXmitframeCoalesce s.env s.attrib s.frame.payload)

end EthSend

/-- What comes back from an Ethernet frame on the way through the transmitter and a receiver that is not in MP
state: destination, type and payload, and the source address that the frame has been sent with. -/
theorem wlanhdrToEthhdr_air (s : EthSend) (head slack : List UInt8) :
    ∃ g, wlanhdrToEthhdr false (rxFrame head slack s.air) = some g ∧
      g.data = { s.frame with src := s.hdr.source s.frame }.bytes := by
  have hlen := length_hdr s.hdr s.frame
  have hroom : ∀ i, 0 < (s.attrib.mpduLen s.env.fragLen (s.hdr.rtwMakeWlanhdr s.frame).length i % 2 ^ 32).toNat := by
    intro i
    have hle := s.frag_le
    have hle' := s.le_frag
    have hhdr : (s.hdr.rtwMakeWlanhdr s.frame).length ≤ 26 := by
      rw [HdrAttrib.rtwMakeWlanhdr, hlen]
      split <;> omega
    have hllc : (s.attrib.llc i).length ≤ 8 := by
      rw [PktAttrib.llc]
      split
      · exact Nat.le_refl 8
      · exact Nat.zero_le 8
    have hiv : s.attrib.ivLen = 0 := rfl
    have hicv : s.attrib.swIcvLen = 0 := rfl
    rw [PktAttrib.mpduLen, hiv, hicv]
    omega
  obtain ⟨mfrag, hair⟩ := joinMpdus_coalesce s.wlanhdr_eq (a := s.attrib) rfl rfl hroom
  rw [modify_hdr] at hair
  have htype : s.attrib.etherType = s.frame.etherType := rfl
  have hsplit : rtwPutSnap s.frame.etherType = (rtwPutSnap s.frame.etherType).take 6 ++ be16 s.frame.etherType := rfl
  have hair' : s.air = s.hdr.hdr s.frame mfrag ++ (rtwPutSnap s.frame.etherType ++ s.frame.payload) := by
    rw [EthSend.air, hair, htype, List.append_assoc]
  obtain ⟨hhdr, hdst, hsrc⟩ := validateRecvDataFrame_hdr s.hdr s.frame mfrag (rtwPutSnap s.frame.etherType ++ s.frame.payload)
  rw [← hair'] at hhdr hdst hsrc
  have hllc : bsnaphdr (rxFrame head slack s.air).mem (s.hdr.hdr s.frame mfrag).length = true := by
    rw [RecvFrame.mem, rxFrame]
    dsimp only
    rw [hair', List.append_assoc, List.append_assoc]
    exact bsnaphdr_rtwPutSnap _ _ s.frame.lt
  have hair'' : (rxFrame head slack s.air).data = s.hdr.hdr s.frame mfrag ++
      ((rtwPutSnap s.frame.etherType).take 6 ++ (be16 s.frame.etherType ++ s.frame.payload)) := by
    rw [← List.append_assoc (List.take ..), ← hsplit]
    exact hair'
  have h24 : 24 ≤ (validateRecvDataFrame s.air).hdrlen := by
    rw [hhdr, hlen]
    split <;> omega
  obtain ⟨g, hg, hdata⟩ := wlanhdrToEthhdr_snap hair'' hhdr.symm h24 rfl rfl rfl rfl hllc
  refine ⟨g, hg, ?_⟩
  rw [hdata, show (rxFrame head slack s.air).attrib = validateRecvDataFrame s.air from rfl, hdst, hsrc, EthFrame.bytes,
    ← List.append_assoc]

/-- A station forwards a packet that another host has sent to it. -/
def bridged : EthSend where
  frame := ⟨.replicate 6 2, .replicate 6 4, 0x0800, [0x45], by decide⟩
  hdr := {
    mode := .station, macAddr := .replicate 6 6, bssid := .replicate 6 8, qosEn := true, priority := 0, eosp := false
    ackPolicy := 0, mdata := false, seqNum := 1 }
  env := ⟨2346, 0, 40, some (HdrAttrib.rtwMakeWlanhdr ⟨.station, .replicate 6 6, .replicate 6 8, true, 0, false, 0, false, 1⟩
    ⟨.replicate 6 2, .replicate 6 4, 0x0800, [0x45], by decide⟩)⟩
  bmcast := false
  wlanhdr_eq := rfl
  frag_le := by decide
  le_frag := by decide

/-- It is sent with the address of the station. -/
theorem not_air_bridged : ¬ ∀ (s : EthSend) (head slack : List UInt8), ∃ g,
    wlanhdrToEthhdr false (rxFrame head slack s.air) = some g ∧ g.data = s.frame.bytes := by
  intro h
  obtain ⟨g, hg, hdata⟩ := h bridged [] []
  have hsome : (wlanhdrToEthhdr false (rxFrame [] [] bridged.air)).map RecvFrame.data ≠ some bridged.frame.bytes := by decide
  rw [hg] at hsome
  exact hsome (congrArg some hdata)

end Rtw
