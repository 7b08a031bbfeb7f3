import Rtw.Recv.Frame

/-!
# From 802.11 to Ethernet

The two converters of the receive path. `wlanhdrToEthhdr` turns a frame with one MSDU into the
Ethernet packet in place; `amsduToMsdu` cuts an A-MSDU into its subframes and builds one packet for
each. Both replace an RFC 1042 or Bridge-Tunnel LLC header by the EtherType behind it and anything
else by an 802.3 length field, but each with its own tests.
-/

namespace Rtw

/-- `rtw_rfc1042_header` -/
def rfc1042Header : List UInt8 := [0xaa, 0xaa, 0x03, 0x00, 0x00, 0x00]

/-- `rtw_bridge_tunnel_header` -/
def bridgeTunnelHeader : List UInt8 := [0xaa, 0xaa, 0x03, 0x00, 0x00, 0xf8]

def snapEthTypeIpx : List UInt8 := [0x81, 0x37]

def snapEthTypeAppletalkAarp : List UInt8 := [0x80, 0xf3]

def snapSize : Nat := 6
def ethHlen : Nat := 14
def ethAlen : Nat := 6
def maxSubframeCount : Nat := 64

def ethPAarp : Nat := 0x80f3

def ethPIpx : Nat := 0x8137

/-- `sz` bytes of `mem` from `off` on; what lies outside reads as 0. -/
def bytesAt (mem : List UInt8) (off sz : Nat) : List UInt8 :=
  (List.range sz).map fun i => mem[off + i]?.getD 0

/-- The test of `wlanhdr_to_ethhdr` on the LLC header at `off` of the frame. -/
def bsnaphdr (mem : List UInt8) (off : Nat) : Bool :=
  let psnap := bytesAt mem off snapSize
  let psnapType := bytesAt mem (off + snapSize) 2
  (psnap = rfc1042Header ∧ psnapType ≠ snapEthTypeIpx ∧ psnapType ≠ snapEthTypeAppletalkAarp) ∨
    psnap = bridgeTunnelHeader

/-- The ICV is pulled off an encrypted frame, if the frame is long enough for that. -/
def pullIcv (f : RecvFrame) : RecvFrame :=
  if f.attrib.encrypt ≠ .noPrivacy then (recvframePullTail f f.attrib.icvLen).getD f else f

/-- Where the LLC header of a frame starts. -/
def llcOff (f : RecvFrame) : Nat := f.attrib.hdrlen + f.attrib.ivLen

/-- `rmv_len` of `wlanhdr_to_ethhdr`. -/
def rmvLen (f : RecvFrame) : Nat := llcOff f + if bsnaphdr f.mem (llcOff f) then snapSize else 0

/-- The end of `wlanhdr_to_ethhdr`: the addresses at `ptr` and, without a SNAP header, the length. -/
def putEthhdr (snap : Bool) (len ptr : Nat) (f : RecvFrame) : RecvFrame :=
  let f := f.memcpy ptr (f.attrib.dst.toList ++ f.attrib.src.toList)
  if snap then f else f.memcpy (ptr + 12) (be16 len)

/-- `wlanhdr_to_ethhdr`: the Ethernet header is built in place, right before the payload. In MP state
(`mp`) the type becomes `0x8712` and a receive status of 24 bytes goes before the addresses. -/
def wlanhdrToEthhdr (mp : Bool) (f : RecvFrame) : Option RecvFrame :=
  let f := pullIcv f
  let snap := bsnaphdr f.mem (llcOff f)
  let rmv := rmvLen f
  let len := (f.len + 65536 - rmv) % 65536
  let f := { f with attrib := { f.attrib with ethType := getBe16 f.mem rmv } }
  if mp then
    let f := f.memcpy rmv [0x87, 0x12]
    let rxmem := bytesAt (f.head ++ f.mem) 0 24
    let pulled :=
      if rmv - ethHlen + 2 < 24 then some (recvframePullBack f (24 - (rmv - ethHlen + 2)))
      else recvframePull f (rmv - ethHlen + 2 - 24)
    pulled.map fun f => putEthhdr snap len 24 (f.memcpy 0 rxmem)
  else
    (recvframePull f (rmv - ethHlen + if snap then 2 else 0)).map (putEthhdr snap len 0)

@[simp] theorem pullIcv_id (f : RecvFrame) : (pullIcv f).id = f.id := by unfold pullIcv; split <;> simp

@[simp] theorem pullIcv_attrib (f : RecvFrame) : (pullIcv f).attrib = f.attrib := by
  unfold pullIcv; split <;> simp

@[simp] theorem pullIcv_mem (f : RecvFrame) : (pullIcv f).mem = f.mem := by unfold pullIcv; split <;> simp

@[simp] theorem llcOff_pullIcv (f : RecvFrame) : llcOff (pullIcv f) = llcOff f := by simp [llcOff]

@[simp] theorem rmvLen_pullIcv (f : RecvFrame) : rmvLen (pullIcv f) = rmvLen f := by
  unfold rmvLen; rw [llcOff_pullIcv, pullIcv_mem]

@[simp] theorem putEthhdr_id (snap : Bool) (len ptr : Nat) (f : RecvFrame) :
    (putEthhdr snap len ptr f).id = f.id := by unfold putEthhdr; split <;> rfl

@[simp] theorem putEthhdr_attrib (snap : Bool) (len ptr : Nat) (f : RecvFrame) :
    (putEthhdr snap len ptr f).attrib = f.attrib := by unfold putEthhdr; split <;> rfl

/-- The converted frame is the same frame, with `eth_type` set. -/
theorem wlanhdrToEthhdr_eq_some {mp : Bool} {f f' : RecvFrame} (h : wlanhdrToEthhdr mp f = some f') :
    f'.id = f.id ∧ f'.attrib = { f.attrib with ethType := getBe16 f.mem (rmvLen f) } := by
  unfold wlanhdrToEthhdr at h
  simp only [rmvLen_pullIcv, pullIcv_mem] at h
  split at h
  · split at h
    · obtain rfl := Option.some.inj h
      simp [recvframePullBack]
    · obtain ⟨g, hg, rfl⟩ := Option.map_eq_some_iff.1 h
      simp [recvframePull_id hg, recvframePull_attrib hg]
  · obtain ⟨g, hg, rfl⟩ := Option.map_eq_some_iff.1 h
    simp [recvframePull_id hg, recvframePull_attrib hg]

/-- How much `wlanhdr_to_ethhdr` pulls off the front. -/
def pullLen (f : RecvFrame) : Nat := rmvLen f - ethHlen + if bsnaphdr f.mem (llcOff f) then 2 else 0

theorem getBe16_congr {bs bs' : List UInt8} {i j : Nat} (h : bs[i]? = bs'[j]?) (h' : bs[i + 1]? = bs'[j + 1]?) :
    getBe16 bs i = getBe16 bs' j := by
  unfold getBe16; rw [h, h']

theorem len_putEthhdr (snap : Bool) (len ptr : Nat) (f : RecvFrame) : (putEthhdr snap len ptr f).len = f.len := by
  unfold putEthhdr; dsimp only; split <;> simp

theorem getBe16_putEthhdr (snap : Bool) (len : Nat) {f : RecvFrame} (hf : ethHlen ≤ f.len) :
    getBe16 (putEthhdr snap len 0 f).data 12 = if snap then getBe16 f.data 12 else len % 65536 := by
  have haddr : (f.attrib.dst.toList ++ f.attrib.src.toList).length = 12 := by simp
  have h12 : 12 < f.len ∧ 13 < f.len := by unfold ethHlen at hf; omega
  cases snap with
  | true =>
    simp only [putEthhdr, if_true]
    apply getBe16_congr <;> rw [RecvFrame.getElem?_memcpy _ _ _ (by omega), if_neg (by omega)]
  | false =>
    have hbe : (be16 len).length = 2 := rfl
    simp only [putEthhdr, Bool.false_eq_true, if_false]
    refine Eq.trans ?_ (getBe16_be16 len [])
    apply getBe16_congr <;>
      rw [RecvFrame.getElem?_memcpy _ _ _ (by rw [RecvFrame.len_memcpy]; omega), if_pos (by omega)] <;> rfl

/-- The packet that `wlanhdr_to_ethhdr` makes, if the frame is long enough. -/
theorem wlanhdrToEthhdr_cases (f : RecvFrame) :
    ((pullIcv f).len < pullLen f ∧ wlanhdrToEthhdr false f = none) ∨
    (pullLen f ≤ (pullIcv f).len ∧ ∃ g, wlanhdrToEthhdr false f = some g ∧
      g.len = (pullIcv f).len - pullLen f ∧
      (ethHlen ≤ g.len → getBe16 g.data 12 =
        if bsnaphdr f.mem (llcOff f) then getBe16 (pullIcv f).data (pullLen f + 12)
        else ((pullIcv f).len + 65536 - rmvLen f) % 65536)) := by
  have hconv : wlanhdrToEthhdr false f = (recvframePull
      { pullIcv f with attrib := { f.attrib with ethType := getBe16 f.mem (rmvLen f) } } (pullLen f)).map
        (putEthhdr (bsnaphdr f.mem (llcOff f)) (((pullIcv f).len + 65536 - rmvLen f) % 65536) 0) := by
    unfold wlanhdrToEthhdr pullLen
    simp only [Bool.false_eq_true, if_false, pullIcv_mem, llcOff_pullIcv, rmvLen_pullIcv, pullIcv_attrib]
  rw [hconv]
  unfold recvframePull
  split
  case isTrue h => exact .inl ⟨h, rfl⟩
  case isFalse h =>
    have hle : pullLen f ≤ (pullIcv f).len := Nat.le_of_not_lt h
    refine .inr ⟨hle, _, rfl, ?_, fun hlen => ?_⟩
    · rw [len_putEthhdr]; exact List.length_drop
    · rw [len_putEthhdr] at hlen
      rw [getBe16_putEthhdr _ _ hlen, Nat.mod_mod]
      congr 1
      apply getBe16_congr <;> rw [List.getElem?_drop]

/-! ### A-MSDUs -/

/-- The test of `rtw_os_alloc_msdu_pkt` on the payload of a subframe. -/
def bsnapBody (body : List UInt8) : Bool :=
  let ethType := getBe16 body 6
  8 ≤ body.length ∧ ((body.take snapSize = rfc1042Header ∧ ethType ≠ ethPAarp ∧ ethType ≠ ethPIpx) ∨
    body.take snapSize = bridgeTunnelHeader)

/-- `rtw_os_alloc_msdu_pkt`: the Ethernet packet of a subframe with the payload `body`. -/
def rtwOsAllocMsduPkt (pattrib : RxPktAttrib) (body : List UInt8) : List UInt8 :=
  if bsnapBody body then pattrib.dst.toList ++ pattrib.src.toList ++ body.drop snapSize
  else pattrib.dst.toList ++ pattrib.src.toList ++ (be16 body.length ++ body)

/-- The loop of `amsdu_to_msdu`: the packets of the subframes at `pdata`, at most `room` of them. The
`i`-th packet gets its buffer when `alloc i`. -/
def amsduSubframes (pattrib : RxPktAttrib) (alloc : Nat → Bool) :
    (room : Nat) → (pdata : List UInt8) → List (List UInt8)
  | 0, _ => []
  | room + 1, pdata =>
    let n := getBe16 pdata 12
    if pdata.length ≤ ethHlen then []
    else if pdata.length < ethHlen + n then []
    else if !alloc (maxSubframeCount - (room + 1)) then []
    else
      let subPkt := rtwOsAllocMsduPkt pattrib ((pdata.drop ethHlen).take n)
      let rest := pdata.drop (ethHlen + n)
      let paddingLen := (4 - (n + ethHlen) % 4) % 4
      if rest.length < paddingLen then [subPkt]
      else subPkt :: amsduSubframes pattrib alloc room (rest.drop paddingLen)

/-- `amsdu_to_msdu`: the packets indicated for an A-MSDU. The frame itself is freed. -/
def amsduToMsdu (alloc : Nat → Bool) (f : RecvFrame) : List (List UInt8) :=
  let f := (recvframePull f f.attrib.hdrlen).getD f
  let f := if 0 < f.attrib.ivLen then (recvframePull f f.attrib.ivLen).getD f else f
  amsduSubframes f.attrib alloc maxSubframeCount f.data

end Rtw
