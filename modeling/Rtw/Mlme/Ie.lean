import Mathlib.Data.List.Basic
import Mathlib.Logic.Function.Basic

/-!
# Information elements

The walks over a list of information elements that the management-frame handlers use. A pointer into
the list is an offset; what lies behind the end of the frame reads as 0.
-/

namespace Rtw

/-- The byte at `i`. -/
def byteAt (buf : List UInt8) (i : Nat) : Nat := (buf[i]?.getD 0).toNat

theorem byteAt_append_right (p s : List UInt8) (i : Nat) : byteAt (p ++ s) (p.length + i) = byteAt s i := by
  unfold byteAt
  rw [List.getElem?_append_right (Nat.le_add_right ..), Nat.add_sub_cancel_left]

theorem byteAt_append_left {p s : List UInt8} {i : Nat} (h : i < p.length) : byteAt (p ++ s) i = byteAt p i := by
  unfold byteAt
  rw [List.getElem?_append_left h]

/-- The loop of `rtw_get_ie`, with `i` the offset of `p`. -/
def rtwGetIeLoop (pbuf : List UInt8) (index limit : Nat) : Nat → Nat → Option (Nat × Nat)
  | 0, _ => none
  | fuel + 1, i =>
    if byteAt pbuf i = index then some (i, byteAt pbuf (i + 1))
    else
      let i := i + (byteAt pbuf (i + 1) + 2)
      if i ≥ limit then none else rtwGetIeLoop pbuf index limit fuel i

/-- `rtw_get_ie`: the offset of the first element `index` and the length in its second byte. -/
def rtwGetIe (pbuf : List UInt8) (index limit : Nat) : Option (Nat × Nat) :=
  if limit < 1 then none else rtwGetIeLoop pbuf index limit limit 0

/-- The pointers of `struct rtw_ieee802_11_elems`. -/
inductive ElemKind where
  | ssid | suppRates | fhParams | dsParams | cfParams | tim | ibssParams | challenge | erpInfo
  | extSuppRates | rsnIe | powerCap | suppChannels | mdie | ftie | timeoutInt | htCapabilities
  | htOperation | vhtCapabilities | vhtOperation | vhtOpModeNotify | wpaIe | wme | wmeTspec | wpsIe
  | vendorHtCap
  deriving DecidableEq

/-- `struct rtw_ieee802_11_elems`: where the body of an element starts and how long it is. -/
abbrev Elems := ElemKind → Option (Nat × Nat)

/-- The elements that `rtw_ieee802_11_parse_elems` recognises by their id. -/
def elemKind? : Nat → Option ElemKind
  | 0 => some .ssid
  | 1 => some .suppRates
  | 2 => some .fhParams
  | 3 => some .dsParams
  | 4 => some .cfParams
  | 5 => some .tim
  | 6 => some .ibssParams
  | 16 => some .challenge
  | 33 => some .powerCap
  | 36 => some .suppChannels
  | 42 => some .erpInfo
  | 45 => some .htCapabilities
  | 48 => some .rsnIe
  | 50 => some .extSuppRates
  | 54 => some .mdie
  | 55 => some .ftie
  | 56 => some .timeoutInt
  | 61 => some .htOperation
  | 191 => some .vhtCapabilities
  | 192 => some .vhtOperation
  | 199 => some .vhtOpModeNotify
  | _ => none

def ouiMicrosoft : List Nat := [0x00, 0x50, 0xf2]
def ouiBroadcom : List Nat := [0x00, 0x90, 0x4c]

/-- `rtw_ieee802_11_parse_vendor_specific`: the pointer it sets for the element at `pos`. -/
def vendorSpecific? (buf : List UInt8) (pos elen : Nat) : Option ElemKind :=
  let byte (i : Nat) := byteAt buf (pos + i)
  if elen < 4 then none
  else if [byte 0, byte 1, byte 2] = ouiMicrosoft then
    match byte 3 with
    | 1 => some .wpaIe
    | 2 =>
      if elen < 5 then none
      else
        match byte 4 with
        | 0 | 1 => some .wme
        | 2 => some .wmeTspec
        | _ => none
    | 4 => some .wpsIe
    | _ => none
  else if [byte 0, byte 1, byte 2] = ouiBroadcom then
    if byte 3 = 0x33 then some .vendorHtCap else none
  else none

inductive ParseRes where
  | parseOK
  | parseUnknown
  | parseFailed
  deriving DecidableEq

/-- The loop of `rtw_ieee802_11_parse_elems`; every round takes two bytes or more. -/
def parseElemsLoop (start : List UInt8) : Nat → Nat → Nat → Elems → Nat → ParseRes × Elems
  | 0, _, _, elems, _ => (.parseFailed, elems)
  | fuel + 1, pos, left, elems, unknown =>
    if left ≥ 2 then
      let id := byteAt start pos
      let elen := byteAt start (pos + 1)
      let pos := pos + 2
      let left := left - 2
      if elen > left then (.parseFailed, elems)
      else
        match if id = 221 then vendorSpecific? start pos elen else elemKind? id with
        | some k =>
          parseElemsLoop start fuel (pos + elen) (left - elen)
            (Function.update elems k (some (pos, elen))) unknown
        | none => parseElemsLoop start fuel (pos + elen) (left - elen) elems (unknown + 1)
    else if left ≠ 0 then (.parseFailed, elems)
    else (if unknown ≠ 0 then .parseUnknown else .parseOK, elems)

def rtwIeee80211ParseElems (start : List UInt8) : ParseRes × Elems :=
  parseElemsLoop start (start.length + 1) 0 start.length (fun _ => none) 0

def wpaCipherNone : Nat := 0x01
def wpaCipherWep40 : Nat := 0x02
def wpaCipherWep104 : Nat := 0x04
def wpaCipherTkip : Nat := 0x08
def wpaCipherCcmp : Nat := 0x10

/-- `rtw_get_wpa_cipher_suite` and `rtw_get_wpa2_cipher_suite`, which differ in the OUI. -/
def cipherSuite (oui : List Nat) (buf : List UInt8) (s : Nat) : Nat :=
  if [byteAt buf s, byteAt buf (s + 1), byteAt buf (s + 2)] = oui then
    match byteAt buf (s + 3) with
    | 0 => wpaCipherNone
    | 1 => wpaCipherWep40
    | 2 => wpaCipherTkip
    | 4 => wpaCipherCcmp
    | 5 => wpaCipherWep104
    | _ => 0
  else 0

/-- The common part of the two parsers: the group cipher and the pairwise ciphers in the `left` bytes
from `pos` on, `none` when the element is malformed. -/
def parseCiphers (oui : List Nat) (buf : List UInt8) (pos : Nat) (left : Int) : Option (Nat × Nat) :=
  if 0 < left ∧ left < 4 then none
  else
    let group := if left ≥ 4 then cipherSuite oui buf pos else 0
    let (pos, left) := if left ≥ 4 then (pos + 4, left - 4) else (pos, left)
    if left ≥ 2 then
      let count := byteAt buf pos + 256 * byteAt buf (pos + 1)
      if count = 0 ∨ left - 2 < count * 4 then none
      else
        let suites := (List.range count).map fun i => cipherSuite oui buf (pos + 2 + 4 * i)
        some (group, suites.foldl (· ||| ·) 0)
    else if left = 1 then none
    else some (group, 0)

/-- `rtw_parse_wpa_ie` on the element whose body is at `wpaIe`. -/
def rtwParseWpaIe (buf : List UInt8) (wpaIe wpaIeLen : Nat) : Option (Nat × Nat) :=
  if byteAt buf (wpaIe - 2) ≠ 0xdd ∨ byteAt buf (wpaIe - 1) ≠ wpaIeLen % 256 ∨
      [byteAt buf wpaIe, byteAt buf (wpaIe + 1), byteAt buf (wpaIe + 2), byteAt buf (wpaIe + 3)] ≠
        ouiMicrosoft ++ [1] then none
  else parseCiphers ouiMicrosoft buf (wpaIe + 6) (wpaIeLen - 6)

/-- `rtw_parse_wpa2_ie` on the element whose body is at `rsnIe`. -/
def rtwParseWpa2Ie (buf : List UInt8) (rsnIe rsnIeLen : Nat) : Option (Nat × Nat) :=
  if byteAt buf (rsnIe - 2) ≠ 0x30 ∨ byteAt buf (rsnIe - 1) ≠ rsnIeLen % 256 then none
  else parseCiphers [0x00, 0x0f, 0xac] buf (rsnIe + 2) (rsnIeLen - 2)

/-- The loop of `rtw_get_p2p_ie`. -/
def rtwGetP2pIeLoop (inIe : List UInt8) (inLen : Nat) : Nat → Nat → Option (Nat × Nat)
  | 0, _ => none
  | fuel + 1, cnt =>
    if cnt + 1 + 4 < inLen then
      -- MAX_IE_SZ
      if cnt + 1 + 4 ≥ 768 then none
      else if byteAt inIe cnt = 221 ∧
          (List.range 4).map (fun i => byteAt inIe (cnt + 2 + i)) = [0x50, 0x6F, 0x9A, 0x09] then
        some (cnt, byteAt inIe (cnt + 1) + 2)
      else rtwGetP2pIeLoop inIe inLen fuel (cnt + (byteAt inIe (cnt + 1) + 2))
    else none

/-- `rtw_get_p2p_ie`: the offset and the length of the first P2P element. -/
def rtwGetP2pIe (inIe : List UInt8) : Option (Nat × Nat) := rtwGetP2pIeLoop inIe inIe.length inIe.length 0

end Rtw
