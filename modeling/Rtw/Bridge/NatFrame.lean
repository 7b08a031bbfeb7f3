import Rtw.Bridge.NdOption
import Rtw.Bridge.Pppoe
import Rtw.Recv.Ethhdr

/-!
# Frames of any protocol in the bridge

`nat25_db_handle` on the bytes of a frame: for each protocol that it knows it records the client that a frame comes from, or
looks up the client that a frame is for, and rewrites the hardware addresses that the protocol itself carries.
-/

namespace Rtw
open Splice

def ethPArp : Nat := 0x0806
def ethPAtalk : Nat := 0x809b
def ethPPppDisc : Nat := 0x8863
def ethPPppSes : Nat := 0x8864
def ethPIpv6 : Nat := 0x86dd
def ipprotoIcmpv6 : UInt8 := 58

/-- The part of the adapter that the bridge uses. -/
structure BrPriv (w : Nat) extends PppoeAdapter w where
  hwaddr : MacAddr
  brMac : MacAddr
  brIp : IpAddr
  brPort : Bool
  jiffies : BitVec w
  dhcpBcstDisable : Bool
  nat25Disable : Bool
  nat25scDisable : Bool

/-- A packet buffer from its head on; the packet begins at `data`. -/
structure SkBuff where
  buf : Nat → UInt8
  data : Nat
  len : Nat
  tailroom : Nat

namespace SkBuff

def mem (b : SkBuff) : Nat → UInt8 := fun i => b.buf (b.data + i)

/-- The packet. -/
def toSkb (b : SkBuff) : Skb := ⟨b.mem, b.len, b.tailroom⟩

/-- The buffer with another packet at `data`. -/
def setSkb (b : SkBuff) (skb : Skb) : SkBuff :=
  ⟨fun i => if b.data ≤ i then skb.mem (i - b.data) else b.buf i, b.data, skb.len, skb.tailroom⟩

def setMem (b : SkBuff) (mem : Nat → UInt8) : SkBuff := b.setSkb (b.toSkb.setMem mem)

def pull (b : SkBuff) (n : Nat) : SkBuff := ⟨b.buf, b.data + n, b.len - n, b.tailroom⟩

def push (b : SkBuff) (n : Nat) : SkBuff := ⟨b.buf, b.data - n, b.len + n, b.tailroom⟩

end SkBuff

/-- The kernel: what it gives is used as it is. -/
structure BrKernel extends PppoeEnv where
  /-- `rtw_skb_copy`, which may fail -/
  rtwSkbCopy : SkBuff → Option SkBuff
  copy_len : ∀ b b', rtwSkbCopy b = some b' → b'.len = b.len
  copy_mem : ∀ b b', rtwSkbCopy b = some b' → ∀ i < b.len, b'.mem i = b.mem i
  /-- `skb_linearize` succeeds; the data is linear before. -/
  skbLinearize : SkBuff → Bool
  /-- The checksum by `csum_ipv6_magic`, from the frame with its field cleared. -/
  icmp6Cksum : (Nat → UInt8) → Nat
  /-- The address of the bridge device, if there is one. -/
  brNetdev : Option MacAddr

section
variable (mem : Nat → UInt8)

def ipAt (a : Nat) : IpAddr := .ofFn fun i => mem (a + i.val)

/-- A network address of some type. -/
def networkAddrOf (type : UInt8) (l : List UInt8) : NetworkAddr :=
  .ofFn fun i => if i.val = 0 then type else l.getD (i.val - 1) 0

def nat25GenerateIpxNetworkAddrWithNode (net node : Nat) : NetworkAddr :=
  networkAddrOf 3 (bytesFrom mem net 4 ++ bytesFrom mem node 6)

def nat25GenerateIpxNetworkAddrWithSocket (net sock : Nat) : NetworkAddr :=
  networkAddrOf 3 (bytesFrom mem net 4 ++ bytesFrom mem sock 2)

def nat25GenerateAppleNetworkAddr (network node : Nat) : NetworkAddr :=
  networkAddrOf 4 (bytesFrom mem network 2 ++ [mem node])

def nat25GenerateIpv6NetworkAddr (ip : Nat) : NetworkAddr := networkAddrOf 2 (bytesFrom mem ip 16)

/-- The header of an IPX or AppleTalk frame, and where it is. -/
inductive NetHdr where
  | ipx (off : Nat)
  | aarp (off : Nat)
  | ddp (off : Nat)

/-- Which header an IPX or AppleTalk frame has. -/
def netHdr? : Option NetHdr :=
  if get16 mem 12 = ethPIpx then some (.ipx 14)
  else if bytesFrom mem 14 2 = [0xff, 0xff] then some (.ipx 14)
  else if mem 14 = 0xaa then
    if bytesFrom mem 17 5 = [0x00, 0x00, 0x00, 0x81, 0x37] then some (.ipx 22)
    else if bytesFrom mem 17 5 = [0x00, 0x00, 0x00, 0x80, 0xf3] then some (.aarp 22)
    else if bytesFrom mem 17 5 = [0x08, 0x00, 0x07, 0x80, 0x9b] then some (.ddp 22)
    else none
  else if mem 14 = 0xe0 then if bytesFrom mem 17 2 = [0xff, 0xff] then some (.ipx 17) else none
  else none

end

section
variable {w : Nat} (k : BrKernel) (s : BrPriv w) (skb : Skb)

/-- `__nat25_db_network_insert` with the source of the frame -/
def BrPriv.insert (mac : MacAddr) (a : NetworkAddr) : BrPriv w :=
  { s with db := s.db.networkInsert k.malloc s.jiffies mac a }

/-- `__nat25_db_network_lookup_and_replace` -/
def BrPriv.lookup (a : NetworkAddr) : BrPriv w × Skb × Bool :=
  let r := s.db.lookupAndReplace k.hz s.jiffies a (macAt skb.mem 0)
  ({ s with db := r.1 }, skb.setMem (copy 0 r.2.1.toList skb.mem), r.2.2)

def BrPriv.netdevBrInit : BrPriv w := { s with brMac := k.brNetdev.getD s.brMac }

/-- The result of `nat25_db_handle` with what it leaves. -/
abbrev HandleResult (w : Nat) := BrPriv w × Skb × Int

/-- IPv4 -/
def nat25HandleIp : Nat25Method → HandleResult w
  | method =>
    if 4 * ((skb.mem 14).toNat % 16) ≥ skb.len then (s, skb, -1)
    else
      match method with
      | .check => (s, skb, -1)
      | .insert =>
        if ipAt skb.mem 26 = .replicate 4 0 then (s, skb, 0)
        else (s.insert k (macAt skb.mem 6) (nat25GenerateIpv4NetworkAddr (ipAt skb.mem 26)), skb, 0)
      | .lookup =>
        let (s, skb, found) := s.lookup k skb (nat25GenerateIpv4NetworkAddr (ipAt skb.mem 30))
        if found then (s, skb, 0)
        else if skb.mem 33 = 0xff then (s, skb.setMem (copy 0 (List.replicate 6 0xff) skb.mem), 0)
        else
          let s := if s.brMac = .replicate 6 0 then s.netdevBrInit k else s
          (s, skb.setMem (copy 0 s.brMac.toList skb.mem), 0)

/-- ARP -/
def nat25HandleArp : Nat25Method → HandleResult w
  | method =>
    if get16 skb.mem 16 ≠ 0x0800 then (s, skb, -1)
    else
      match method with
      | .check => (s, skb, 0)
      | .insert =>
        let skb := skb.setMem (copy 22 s.hwaddr.toList skb.mem)
        let sender := 22 + (skb.mem 18).toNat
        (s.insert k (macAt skb.mem 6) (nat25GenerateIpv4NetworkAddr (ipAt skb.mem sender)), skb, 0)
      | .lookup =>
        let arHln := (skb.mem 18).toNat
        let arPln := (skb.mem 19).toNat
        let target := 22 + arHln + (arHln + arPln)
        let (s, skb, _) := s.lookup k skb (nat25GenerateIpv4NetworkAddr (ipAt skb.mem target))
        (s, skb.setMem (copy (22 + (arHln + arPln)) (bytesFrom skb.mem 0 6) skb.mem), 0)

/-- IPX, with the header at `ipx` -/
def nat25HandleIpx (ipx : Nat) : Nat25Method → HandleResult w
  | .check => (s, skb, if bytesFrom skb.mem 6 6 = bytesFrom skb.mem (ipx + 22) 6 then 0 else -1)
  | .insert =>
    if bytesFrom skb.mem 6 6 = bytesFrom skb.mem (ipx + 22) 6 then
      let a := nat25GenerateIpxNetworkAddrWithSocket skb.mem (ipx + 18) (ipx + 28)
      let skb := skb.setMem (copy (ipx + 22) s.hwaddr.toList skb.mem)
      (s.insert k (macAt skb.mem 6) a, skb, 0)
    else (s.insert k (macAt skb.mem 6) (nat25GenerateIpxNetworkAddrWithNode skb.mem (ipx + 18) (ipx + 22)), skb, 0)
  | .lookup =>
    if s.hwaddr.toList = bytesFrom skb.mem (ipx + 10) 6 then
      let (s, skb, _) := s.lookup k skb (nat25GenerateIpxNetworkAddrWithSocket skb.mem (ipx + 6) (ipx + 16))
      (s, skb.setMem (copy (ipx + 10) (bytesFrom skb.mem 0 6) skb.mem), 0)
    else
      let (s, skb, _) := s.lookup k skb (nat25GenerateIpxNetworkAddrWithNode skb.mem (ipx + 6) (ipx + 10))
      (s, skb, 0)

/-- AARP, with the header at `ea` -/
def nat25HandleAarp (ea : Nat) : Nat25Method → HandleResult w
  | method =>
    if skb.mem (ea + 4) ≠ 6 ∨ skb.mem (ea + 5) ≠ 4 then (s, skb, -1)
    else
      match method with
      | .check => (s, skb, 0)
      | .insert =>
        let skb := skb.setMem (copy (ea + 8) s.hwaddr.toList skb.mem)
        (s.insert k (macAt skb.mem 6) (nat25GenerateAppleNetworkAddr skb.mem (ea + 15) (ea + 17)), skb, 0)
      | .lookup =>
        let (s, skb, _) := s.lookup k skb (nat25GenerateAppleNetworkAddr skb.mem (ea + 25) (ea + 27))
        (s, skb.setMem (copy (ea + 18) (bytesFrom skb.mem 0 6) skb.mem), 0)

/-- DDP, with the header at `ddp` -/
def nat25HandleDdp (ddp : Nat) : Nat25Method → HandleResult w
  | .check => (s, skb, -1)
  | .insert => (s.insert k (macAt skb.mem 6) (nat25GenerateAppleNetworkAddr skb.mem (ddp + 6) (ddp + 9)), skb, 0)
  | .lookup =>
    let (s, skb, _) := s.lookup k skb (nat25GenerateAppleNetworkAddr skb.mem (ddp + 4) (ddp + 8))
    (s, skb, 0)

/-- The header has 40 bytes; `skb->len` is unsigned. -/
def ipv6Malformed : Bool := 40 ≥ (skb.len + 2 ^ 32 - 14) % 2 ^ 32

/-- The lines for a neighbour discovery message, with `fuel` rounds for `scan_tlv` -/
def rewriteNd (fuel : Nat) : Option Skb :=
  (updateNdLinkLayerAddrT (fun i => skb.mem (54 + i)) (skb.len - 14 - 40) s.hwaddr fuel).val.map fun r =>
    let skb := skb.setMem fun i => if 54 ≤ i then r.1 (i - 54) else skb.mem i
    if r.2 then
      let cleared := copy 56 [0, 0] skb.mem
      skb.setMem (copy 56 (be16 (k.icmp6Cksum cleared)) cleared)
    else skb

/-- IPv6 -/
def nat25HandleIpv6 (fuel : Nat) : Nat25Method → Option (HandleResult w)
  | method =>
    if ipv6Malformed skb then some (s, skb, -1)
    else
      match method with
      | .check => some (s, skb, if (skb.mem 0).toNat % 2 = 1 then 0 else -1)
      | .insert =>
        if bytesFrom skb.mem 22 16 = List.replicate 16 0 then some (s, skb, 0)
        else
          let s' := s.insert k (macAt skb.mem 6) (nat25GenerateIpv6NetworkAddr skb.mem 22)
          if skb.mem 20 = ipprotoIcmpv6 ∧ skb.len > 14 + 40 + 4 then (rewriteNd k s skb fuel).map fun skb => (s', skb, 0)
          else some (s', skb, 0)
      | .lookup =>
        let (s, skb, _) := s.lookup k skb (nat25GenerateIpv6NetworkAddr skb.mem 38)
        some (s, skb, 0)

/-- `nat25_db_handle`, if it comes to an end -/
def nat25DbHandle (fuel : Nat) (method : Nat25Method) : Option (HandleResult w) :=
  let protocol := get16 skb.mem 12
  if protocol = 0x0800 then some (nat25HandleIp k s skb method)
  else if protocol = ethPArp then some (nat25HandleArp k s skb method)
  else if protocol = ethPIpx ∨ protocol = ethPAtalk ∨ protocol = ethPAarp then
    some (match netHdr? skb.mem with
      | some (.ipx off) => nat25HandleIpx k s skb off method
      | some (.aarp off) => nat25HandleAarp k s skb off method
      | some (.ddp off) => nat25HandleDdp k s skb off method
      | none => (s, skb, -1))
  else if protocol = ethPPppDisc ∨ protocol = ethPPppSes then
    let r := nat25DbHandlePppoe k.toPppoeEnv s.toPppoeAdapter skb s.jiffies method
    some ({ s with toPppoeAdapter := r.1 }, r.2)
  else if protocol = 0x888e ∨ protocol = 0xe2ae ∨ protocol = 0xe2af then
    some (s, skb, match method with
      | .check => -1
      | .insert => 0
      | .lookup => 0)
  else if protocol = ethPIpv6 then nat25HandleIpv6 k s skb fuel method
  else some (s, skb, -1)

end

end Rtw
