import Rtw.Lib.Splice
import Rtw.Bridge.Nat25

/-!
# PPPoE frames in the bridge

A PPPoE client behind the bridge is found again by a tag: `nat25_db_handle` puts the address of the client into
the relay tag of what it sends in the discovery phase, and takes it out of the answer. `Skb` is the memory of a
packet, from `skb->data` on.
-/

namespace Rtw

/-- A packet buffer; `mem` goes on behind the `len` bytes of data. -/
structure Skb where
  mem : Nat → UInt8
  len : Nat
  tailroom : Nat

inductive Nat25Method where
  | check
  | insert
  | lookup

/-- What a PPPoE frame meets in the adapter. -/
structure PppoeAdapter (w : Nat) where
  db : Nat25Db w
  addPPPoETag : Bool
  pppoeConnectionInProgress : Nat
  pppoeAddr : MacAddr

/-- The processor and the kernel. -/
structure PppoeEnv where
  bigEndian : Bool
  hz : Nat
  malloc : Malloc
  /-- What the stack has where `tag_buf` is, and behind it. -/
  stack : Nat → UInt8

def rtlRelayTagLen : Nat := 6

def tagHdrLen : Nat := 4

def magicCode : Nat := 0x8186

def magicCodeLen : Nat := 2

def waitTimePppoe : Nat := 5

def pttRelaySid : Nat := 0x0110

def padiCode : UInt8 := 0x09
def padoCode : UInt8 := 0x07
def padrCode : UInt8 := 0x19
def padsCode : UInt8 := 0x65

/-- `ETH_HLEN`, where `struct pppoe_hdr` begins -/
def phOff : Nat := 14

/-- `ph->tag` -/
def phTag : Nat := 20

section
variable (mem : Nat → UInt8)

/-- The 16 bits at `a`, in network order. -/
def get16 (a : Nat) : Nat := (mem a).toNat * 256 + (mem (a + 1)).toNat

/-- The 16 bits at `a` as the processor reads them. -/
def hostU16 (bigEndian : Bool) (a : Nat) : Nat :=
  if bigEndian then get16 mem a else (mem (a + 1)).toNat * 256 + (mem a).toNat

def bytesFrom (a n : Nat) : List UInt8 := (List.range n).map fun i => mem (a + i)

def macAt (a : Nat) : MacAddr := .ofFn fun i => mem (a + i.val)

/-- `ntohs(ph->length)` -/
def phLength : Nat := get16 mem (phOff + 4)

/-- `__nat25_find_pppoe_tag`; each tag has four bytes at least. -/
def findPppoeTagLoop (type : Nat) : Nat → Nat → Option Nat
  | 0, _ => none
  | fuel + 1, cur =>
    if cur - phTag < phLength mem then
      if get16 mem cur = type then some cur
      else findPppoeTagLoop type fuel (cur + tagHdrLen + get16 mem (cur + 2))
    else none

def findPppoeTag (type : Nat) : Option Nat := findPppoeTagLoop mem type (phLength mem) phTag

def nat25GeneratePppoeNetworkAddr (acMac sid : Nat) : NetworkAddr :=
  #v[5, mem sid, mem (sid + 1), mem acMac, mem (acMac + 1), mem (acMac + 2), mem (acMac + 3), mem (acMac + 4),
    mem (acMac + 5), 0, 0, 0, 0, 0, 0, 0, 0]

end

namespace Skb

def setMem (skb : Skb) (mem : Nat → UInt8) : Skb := { skb with mem }

/-- `ph->length = htons(n)`, which takes `n` modulo 65536 -/
def setPhLength (skb : Skb) (n : Nat) : Skb := skb.setMem (Splice.copy (phOff + 4) (be16 n) skb.mem)

/-- `skb_pull_and_merge`, if it does not fail -/
def pullAndMerge (skb : Skb) (src len : Nat) : Option Skb :=
  if src + len > skb.len ∨ skb.len < len then none
  else some ⟨Splice.move src (src + len) (skb.len - (src + len)) skb.mem, skb.len - len, skb.tailroom + len⟩

/-- `__nat25_add_pppoe_tag`, if it does not fail. `tag_len` is not converted. -/
def addPppoeTag (bigEndian : Bool) (skb : Skb) (tag : Nat → UInt8) : Option Skb :=
  let dataLen := hostU16 tag bigEndian 2 + tagHdrLen
  if skb.tailroom < dataLen then none
  else
    let skb : Skb := ⟨skb.mem, skb.len + dataLen, skb.tailroom - dataLen⟩
    let skb := skb.setMem (Splice.move (phTag + dataLen) phTag (phLength skb.mem) skb.mem)
    let skb := skb.setPhLength (phLength skb.mem + dataLen)
    some (skb.setMem (Splice.copy phTag (bytesFrom tag 0 dataLen) skb.mem))

end Skb

/-- An old relay tag is copied behind the place of the new one in `tag`, and cut out. -/
def cutOldTag (tag : Nat → UInt8) (skb : Skb) : Option ((Nat → UInt8) × Nat × Skb) :=
  match findPppoeTag skb.mem pttRelaySid with
  | none => some (tag, 0, skb)
  | some pOldTag =>
    let oldTagLen := get16 skb.mem (pOldTag + 2)
    if oldTagLen + tagHdrLen + magicCodeLen + rtlRelayTagLen > 40 then none
    else
      let old := bytesFrom skb.mem (pOldTag + tagHdrLen) oldTagLen
      (skb.pullAndMerge pOldTag (tagHdrLen + oldTagLen)).map fun skb =>
        (Splice.copy (tagHdrLen + magicCodeLen + rtlRelayTagLen) old tag, oldTagLen,
          skb.setPhLength (phLength skb.mem + 0x10000 - tagHdrLen - oldTagLen))

/-- The new relay tag, in front of the old one. -/
def fillTag (tag : Nat → UInt8) (oldTagLen : Nat) (skb : Skb) : Nat → UInt8 :=
  let tag := Splice.copy 0 (be16 pttRelaySid) tag
  let tag := Splice.copy 2 (be16 (magicCodeLen + rtlRelayTagLen + oldTagLen)) tag
  let tag := Splice.copy tagHdrLen (be16 magicCode) tag
  Splice.copy (tagHdrLen + magicCodeLen) (bytesFrom skb.mem 6 6) tag

section
variable {w : Nat} (env : PppoeEnv) (s : PppoeAdapter w) (skb : Skb)

/-- The lines of `nat25_db_handle` for a PADI or PADR packet, with `addPPPoETag` -/
def insertRelayTag : Skb × Int :=
  match cutOldTag env.stack skb with
  | none => (skb, -1)
  | some (tag, oldTagLen, skb) =>
    match skb.addPppoeTag env.bigEndian (fillTag tag oldTagLen skb) with
    | none => (skb, -1)
    | some skb => (skb, 0)

/-- The lines of `nat25_db_handle` for a PADO or PADS packet, with `addPPPoETag` -/
def lookupRelayTag : Skb × Int :=
  match findPppoeTag skb.mem pttRelaySid with
  | none => (skb, -1)
  | some ptr =>
    let tagType := get16 skb.mem ptr
    let tagLen := get16 skb.mem (ptr + 2)
    if tagType ≠ pttRelaySid ∨ tagLen < magicCodeLen + rtlRelayTagLen then (skb, -1)
    else if get16 skb.mem (ptr + tagHdrLen) ≠ magicCode then (skb, -1)
    else
      let skb := skb.setMem (Splice.copy 0 (bytesFrom skb.mem (ptr + tagHdrLen + magicCodeLen) 6) skb.mem)
      let offset := if tagLen > magicCodeLen + rtlRelayTagLen then tagHdrLen else 0
      let cut := tagHdrLen + magicCodeLen + rtlRelayTagLen - offset
      match skb.pullAndMerge (ptr + offset) cut with
      | none => (skb, -1)
      | some skb =>
        let skb := skb.setPhLength (phLength skb.mem + 0x10000 - cut)
        if offset > 0 then
          (skb.setMem (Splice.copy (ptr + 2) (be16 (tagLen - magicCodeLen - rtlRelayTagLen)) skb.mem), 0)
        else (skb, 0)

/-- `nat25_db_handle` on a PPPoE frame -/
def nat25DbHandlePppoe (jiffies : BitVec w) (method : Nat25Method) : PppoeAdapter w × Skb × Int :=
  let code := skb.mem (phOff + 1)
  let sid := get16 skb.mem (phOff + 2)
  match method with
  | .check => (s, skb, if sid = 0 then 0 else 1)
  | .insert =>
    if sid = 0 then
      if code = padiCode ∨ code = padrCode then
        if s.addPPPoETag then (s, insertRelayTag env skb)
        else if s.pppoeConnectionInProgress ≠ 0 ∧ macAt skb.mem 6 ≠ s.pppoeAddr then (s, skb, -2)
        else
          let s := if s.pppoeConnectionInProgress = 0 then { s with pppoeAddr := macAt skb.mem 6 } else s
          ({ s with pppoeConnectionInProgress := waitTimePppoe }, skb, 0)
      else (s, skb, -1)
    else
      let s := { s with
        db := s.db.networkInsert env.malloc jiffies (macAt skb.mem 6)
          (nat25GeneratePppoeNetworkAddr skb.mem 0 (phOff + 2)) }
      if !s.addPPPoETag ∧ s.pppoeConnectionInProgress ≠ 0 ∧ macAt skb.mem 6 = s.pppoeAddr then
        ({ s with pppoeConnectionInProgress := 0 }, skb, 0)
      else (s, skb, 0)
  | .lookup =>
    if code = padoCode ∨ code = padsCode then
      if s.addPPPoETag then (s, lookupRelayTag skb)
      else if s.pppoeConnectionInProgress = 0 then (s, skb, -1)
      else
        ({ s with pppoeConnectionInProgress := waitTimePppoe },
          skb.setMem (Splice.copy 0 s.pppoeAddr.toList skb.mem), 0)
    else if sid ≠ 0 then
      let r := s.db.lookupAndReplace env.hz jiffies (nat25GeneratePppoeNetworkAddr skb.mem 6 (phOff + 2))
        (macAt skb.mem 0)
      ({ s with db := r.1 }, skb.setMem (Splice.copy 0 r.2.1.toList skb.mem), 0)
    else (s, skb, -1)

end

end Rtw
