import Rtw.Bridge.DhcpFlag
import Rtw.Bridge.NatFrame

/-!
# Sending and receiving frames in the bridge

`rtw_br_client_tx` and `nat25_handle_frame` on the bytes of a frame. A VLAN tag is taken out of the frame by moving its
addresses over it, and put back behind them later.
-/

namespace Rtw
open Splice

def ethP8021Q : Nat := 0x8100

/-- The addresses are moved up by four bytes, two bytes at a time from the last. -/
def moveAddrsUp (mem : Nat → UInt8) : Nat → UInt8 :=
  (List.range 6).foldl (fun mem i => copy (14 - i * 2) (bytesFrom mem (10 - i * 2) 2) mem) mem

/-- The addresses are moved down by four bytes. -/
def moveAddrsDown (mem : Nat → UInt8) : Nat → UInt8 :=
  (List.range 6).foldl (fun mem i => copy (i * 2) (bytesFrom mem (4 + i * 2) 2) mem) mem

namespace SkBuff
variable (b : SkBuff)

/-- There is a VLAN tag. -/
def Tagged : Prop := get16 b.mem 12 = ethP8021Q

instance : Decidable b.Tagged := inferInstanceAs (Decidable (_ = _))

/-- `vlan_hdr` -/
def vlanHdr : List UInt8 := bytesFrom b.mem 14 2

/-- The lines that take a tag out. -/
def removeTag : SkBuff := if b.Tagged then (b.setMem (moveAddrsUp b.mem)).pull 4 else b

/-- The lines that put the tag back. -/
def restoreTag (vlanHdr : List UInt8) : SkBuff :=
  let b := b.push 4
  let b := b.setMem (moveAddrsDown b.mem)
  let b := b.setMem (copy 12 (be16 ethP8021Q) b.mem)
  b.setMem (copy 14 vlanHdr b.mem)

/-- The source address is replaced. -/
def setSrc (mac : MacAddr) : SkBuff := b.setMem (copy 6 mac.toList b.mem)

end SkBuff

section
variable {w : Nat} (k : BrKernel) (s : BrPriv w) (b : SkBuff) (fuel : Nat)

/-- The part of `rtw_br_client_tx` that looks after the shortcut for one client, with `do_nat25`. -/
def BrPriv.scdbStep : BrPriv w × Bool :=
  if s.db.scdbMac ≠ macAt b.mem 6 then
    let s := { s with db := s.db.setScdbEntry s.jiffies (macAt b.mem 6) (ipAt b.mem 26) }
    (s, s.db.scdbEntry = none)
  else if s.db.scdbEntry ≠ none then ({ s with db := s.db.touchScdbEntry s.jiffies }, false)
  else ({ s with db := { s.db with scdbMac := .replicate 6 0, scdbIp := .replicate 4 0 } }, true)

/-- The lines up to `do_nat25` for a frame without its tag. -/
def BrPriv.beforeNat25 : BrPriv w × Bool :=
  if get16 b.mem 12 = 0x0800 then
    let s := if macAt b.mem 6 = s.brMac then { s with brIp := ipAt b.mem 26 } else s
    s.scdbStep b
  else (s, true)

/-- The frame that NAT25_INSERT gets: a copy of it, if NAT25_CHECK asks for one. Without one it is dropped. -/
def copyForNat25 (tag : Option (List UInt8)) : Option SkBuff :=
  match tag with
  | none => k.rtwSkbCopy b
  | some vlanHdr => (k.rtwSkbCopy (b.restoreTag vlanHdr)).map fun b => (b.setMem (moveAddrsUp b.mem)).pull 4

/-- The tag that is put back into the copy is read from it again. -/
def copiedTag (tag : Option (List UInt8)) : Option (List UInt8) :=
  match tag with
  | none => none
  | some vlanHdr => some (((k.rtwSkbCopy (b.restoreTag vlanHdr)).map SkBuff.vlanHdr).getD [])

/-- The lines behind NAT25_INSERT. -/
def finishTx (tag : Option (List UInt8)) : SkBuff :=
  let b := b.setSrc s.hwaddr
  let b := b.setSkb (dhcpFlagBcast k.bigEndian s.dhcpBcstDisable b.toSkb)
  match tag with
  | none => b
  | some vlanHdr => b.restoreTag vlanHdr

/-- The result of `rtw_br_client_tx`, with the frame to be sent -/
abbrev TxResult (w : Nat) := BrPriv w × SkBuff × Int

/-- The check at the end of `rtw_br_client_tx` -/
def checkSrc (r : TxResult w) : TxResult w :=
  (r.1, r.2.1, if r.2.2 = 0 ∧ macAt r.2.1.mem 6 ≠ r.1.hwaddr then -1 else r.2.2)

/-- The lines of `rtw_br_client_tx` with `do_nat25` -/
def insertTx (tag : Option (List UInt8)) : Option (TxResult w) := do
  let check ← nat25DbHandle k s b.toSkb fuel .check
  let copied := if check.2.2 = 0 then (copyForNat25 k b tag).map fun c => (c, copiedTag k b tag) else some (b, tag)
  match copied with
  | none => return (s, b, -1)
  | some (b, tag) =>
    if k.skbLinearize b then
      let (s, skb, res) ← nat25DbHandle k s b.toSkb fuel .insert
      let b := b.setSkb skb
      -- the frame is let go with a warning, whatever else is missing
      if res < 0 then return (s, b, if res = -2 then -1 else 0) else return checkSrc (s, finishTx k s b tag, 0)
    else return (s, b, -1)

/-- `rtw_br_client_tx`, if it comes to an end -/
def rtwBrClientTx : Option (TxResult w) :=
  if (b.mem 0).toNat % 2 = 0 ∧ s.brPort ∧ macAt b.mem 6 ≠ s.brMac ∧ ¬b.Tagged ∧ get16 b.mem 12 = 0x0800 ∧
      s.db.scdbMac = macAt b.mem 6 ∧ s.db.scdbEntry ≠ none then
    some (checkSrc ({ s with db := s.db.touchScdbEntry s.jiffies }, b.setSrc s.hwaddr, 0))
  else
    let tag := if b.Tagged then some b.vlanHdr else none
    let b := b.removeTag
    let (s, doNat25) := s.beforeNat25 b
    if doNat25 then insertTx k s b fuel tag else some (checkSrc (s, finishTx k s b tag, 0))

/-- The lookup of `nat25_handle_frame`, for a frame without its tag -/
def lookupRx : Option (HandleResult w) :=
  let isIp := get16 b.mem 12 = 0x0800
  if !s.nat25Disable then
    if !s.nat25scDisable ∧ isIp ∧ s.db.scdbIp = ipAt b.mem 30 then
      some (s, b.toSkb.setMem (copy 0 s.db.scdbMac.toList b.mem), 0)
    else nat25DbHandle k s b.toSkb fuel .lookup
  else if isIp ∧ s.brIp = ipAt b.mem 30 ∨ get16 b.mem 12 = ethPArp ∧ s.brIp = ipAt b.mem 38 then
    nat25DbHandle k s b.toSkb fuel .lookup
  else some (s, b.toSkb, 0)

/-- `nat25_handle_frame`, if it comes to an end -/
def nat25HandleFrame : Option (BrPriv w × SkBuff × Int) :=
  if (b.mem 0).toNat % 2 = 0 then
    (lookupRx k s b.removeTag fuel).map fun (s, skb, retval) =>
      let b' := b.removeTag.setSkb skb
      (s, if b.Tagged then b'.restoreTag b.vlanHdr else b', if retval = -1 then -1 else 0)
  else some (s, b, 0)

end

end Rtw
