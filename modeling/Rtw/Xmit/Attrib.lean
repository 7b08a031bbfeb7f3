import Mathlib.Logic.Function.Basic
import Rtw.Mlme.StaMgt

/-!
# Security attributes of a packet to be sent

`update_attrib_sec_info` takes the next packet number of the station and writes it into the IV of the
packet's attributes, once for each packet. `ivPn` reads the number back as a receiver does.
-/

namespace Rtw

/-- `TSC0` .. `TSC7` of a `union pn48`. -/
def tsc (pn i : Nat) : UInt8 := UInt8.ofNat (pn / 256 ^ i)

/-- The byte with the key id in an IV; `extIv` is `BIT(5)`. -/
def keyIdByte (extIv : Bool) (keyidx : Nat) : UInt8 :=
  UInt8.ofNat ((if extIv then 0x20 else 0) ||| (keyidx &&& 0x3) <<< 6)

/-- `val + 1` in a counter that starts again behind `max`. -/
def pnNext (max val : Nat) : Nat := if val = max then 0 else (val + 1) % 2 ^ 64

/-- `WEP_IV`: the IV and the next packet number. -/
def wepIv (pn keyidx : Nat) : List UInt8 × Nat :=
  ([tsc pn 0, tsc pn 1, tsc pn 2, keyIdByte false keyidx], pnNext 0xffffff pn)

def tkipIv (pn keyidx : Nat) : List UInt8 × Nat :=
  ([tsc pn 1, (tsc pn 1 ||| 0x20) &&& 0x7f, tsc pn 0, keyIdByte true keyidx,
    tsc pn 2, tsc pn 3, tsc pn 4, tsc pn 5], pnNext 0xffffffffffff pn)

def aesIv (pn keyidx : Nat) : List UInt8 × Nat :=
  ([tsc pn 0, tsc pn 1, 0, keyIdByte true keyidx,
    tsc pn 2, tsc pn 3, tsc pn 4, tsc pn 5], pnNext 0xffffffffffff pn)

inductive Dot11AuthAlgrthm where
  | open
  | shared
  | auto
  | dot8021X
  | wapi
  deriving DecidableEq

/-- The part of `struct security_priv` that decides how a packet is protected. -/
structure SecurityPriv where
  dot11AuthAlgrthm : Dot11AuthAlgrthm
  dot11PrivacyAlgrthm : PrivacyAlg
  dot11PrivacyKeyIndex : Nat
  dot118021XGrpPrivacy : PrivacyAlg
  dot118021XGrpKeyid : Nat
  busetkipkey : Bool
  swEncrypt : Bool
  hwDecrypted : Bool
  /-- `SEC_STATUS_STA_PK_GK_CONFLICT_DIS_BMC_SEARCH` -/
  pkGkConflict : Bool

/-- The part of the receiver's `struct sta_info`. -/
structure TxSta where
  ieee8021xBlocked : Bool
  dot118021XPrivacy : PrivacyAlg

/-- The part of `struct pkt_attrib` that is set before `update_attrib_sec_info`. -/
structure PktInfo where
  bmcast : Bool
  etherType : Nat
  mpState : Bool
  /-- The packet behind its Ethernet header. -/
  payload : List UInt8
  deriving DecidableEq

/-- The attributes that protection and fragmentation use. -/
structure PktAttrib where
  bmcast : Bool
  etherType : Nat
  pktlen : Nat
  encrypt : PrivacyAlg
  keyIdx : Nat
  ivLen : Nat
  icvLen : Nat
  iv : List UInt8
  bswenc : Bool
  deriving DecidableEq

def getEncryAlgo (sec : SecurityPriv) (psta : TxSta) (bmcast : Bool) : PrivacyAlg :=
  match sec.dot11AuthAlgrthm with
  | .open | .shared | .auto | .wapi => sec.dot11PrivacyAlgrthm
  | .dot8021X => if bmcast then sec.dot118021XGrpPrivacy else psta.dot118021XPrivacy

/-- `key_idx` of a packet to a station that is not blocked. -/
def keyIndex (sec : SecurityPriv) (bmcast : Bool) : Nat :=
  match sec.dot11AuthAlgrthm with
  | .open | .shared | .auto => sec.dot11PrivacyKeyIndex
  | .dot8021X => if bmcast then sec.dot118021XGrpKeyid else 0
  | .wapi => 0

/-- `encrypt` and `key_idx`, `none` when the packet is dropped. -/
def encryptOf (sec : SecurityPriv) (psta : TxSta) (pkt : PktInfo) : Option (PrivacyAlg × Nat) :=
  if psta.ieee8021xBlocked then
    if pkt.etherType ≠ 0x888e ∧ !pkt.mpState then none else some (.noPrivacy, 0)
  else
    let encrypt := getEncryAlgo sec psta pkt.bmcast
    if (encrypt = .wep40 ∨ encrypt = .wep104) ∧ pkt.etherType = 0x888e then
      some (.noPrivacy, keyIndex sec pkt.bmcast)
    else some (encrypt, keyIndex sec pkt.bmcast)

/-- The IV for one packet and the next packet number; `none` when there is no TKIP key yet. -/
def nextIv (sec : SecurityPriv) (bmcast : Bool) (encrypt : PrivacyAlg) (keyIdx pn : Nat) :
    Option (List UInt8 × Nat) :=
  match encrypt with
  | .wep40 | .wep104 => some (wepIv pn keyIdx)
  | .tkip => if sec.busetkipkey then some (tkipIv pn (if bmcast then keyIdx else 0)) else none
  | .aes => some (aesIv pn (if bmcast then keyIdx else 0))
  | _ => some ([], pn)

def icvLenOf : PrivacyAlg → Nat
  | .wep40 | .wep104 | .tkip => 4
  | .aes => 8
  | _ => 0

/-- `update_attrib_sec_info`: the attributes and the new `dot11txpn`, `none` when the packet is
dropped. -/
def updateAttribSecInfo (sec : SecurityPriv) (psta : TxSta) (pkt : PktInfo) (txpn : Nat) :
    Option (PktAttrib × Nat) := do
  let (encrypt, keyIdx) ← encryptOf sec psta pkt
  let (iv, txpn) ← nextIv sec pkt.bmcast encrypt keyIdx txpn
  return ({
    bmcast := pkt.bmcast
    etherType := pkt.etherType
    pktlen := pkt.payload.length
    encrypt
    keyIdx
    ivLen := iv.length
    icvLen := icvLenOf encrypt
    iv
    bswenc := encrypt ≠ .noPrivacy &&
      (sec.swEncrypt || !sec.hwDecrypted || (pkt.bmcast && sec.pkGkConflict)) }, txpn)

/-- The number of bits of a packet number in the IV. -/
def pnBits : PrivacyAlg → Nat
  | .wep40 | .wep104 => 24
  | _ => 48

/-- The packet number in an IV, as the receiver reads it. -/
def ivPn (encrypt : PrivacyAlg) (iv : List UInt8) : Nat :=
  let byte (i : Nat) : Nat := (iv[i]?.getD 0).toNat
  match encrypt with
  | .wep40 | .wep104 => byte 0 + 256 * (byte 1 + 256 * byte 2)
  | .tkip => byte 2 + 256 * (byte 0 + 256 * (byte 4 + 256 * (byte 5 + 256 * (byte 6 + 256 * byte 7))))
  | _ => byte 0 + 256 * (byte 1 + 256 * (byte 4 + 256 * (byte 5 + 256 * (byte 6 + 256 * byte 7))))

section
variable {sec : SecurityPriv} {psta : TxSta} {pkt : PktInfo} {txpn pn keyIdx : Nat} {bmcast : Bool}
  {encrypt : PrivacyAlg} {iv : List UInt8}

/-- The ciphers that put a packet number into a frame. -/
def PrivacyAlg.HasPn : PrivacyAlg → Prop
  | .wep40 | .wep104 | .tkip | .aes => True
  | _ => False

instance : DecidablePred PrivacyAlg.HasPn := fun e => by cases e <;> unfold PrivacyAlg.HasPn <;> infer_instance

theorem toNat_tsc (pn i : Nat) : (tsc pn i).toNat = pn / 256 ^ i % 256 := by simp [tsc]

/-- The counter runs modulo the width of the packet number in the IV. -/
theorem pnNext_mod (w val : Nat) (hw : w ≤ 64) : pnNext (2 ^ w - 1) val % 2 ^ w = (val + 1) % 2 ^ w := by
  unfold pnNext
  split
  · rename_i h
    rw [h, Nat.sub_add_cancel Nat.one_le_two_pow, Nat.mod_self, Nat.zero_mod]
  · exact Nat.mod_mod_of_dvd _ (Nat.pow_dvd_pow 2 hw)

/-- The IV carries the low bits of the packet number, and the counter moves on by one. -/
theorem nextIv_pn (he : encrypt.HasPn) (h : nextIv sec bmcast encrypt keyIdx txpn = some (iv, pn)) :
    ivPn encrypt iv = txpn % 2 ^ pnBits encrypt ∧ pn % 2 ^ pnBits encrypt = (txpn + 1) % 2 ^ pnBits encrypt := by
  have hwep := pnNext_mod 24 txpn (by decide)
  have h48 := pnNext_mod 48 txpn (by decide)
  cases encrypt <;> simp only [PrivacyAlg.HasPn] at he <;> simp only [nextIv] at h
  case tkip =>
    split at h
    · cases h
      refine ⟨?_, h48⟩
      simp [ivPn, toNat_tsc, pnBits]; omega
    · cases h
  all_goals cases h
  case aes => exact ⟨by simp [ivPn, toNat_tsc, pnBits]; omega, h48⟩
  all_goals exact ⟨by simp [ivPn, toNat_tsc, pnBits]; omega, hwep⟩

theorem updateAttribSecInfo_eq_some {attrib : PktAttrib}
    (h : updateAttribSecInfo sec psta pkt txpn = some (attrib, pn)) :
    nextIv sec pkt.bmcast attrib.encrypt attrib.keyIdx txpn = some (attrib.iv, pn) ∧
      attrib.bmcast = pkt.bmcast ∧ attrib.pktlen = pkt.payload.length ∧ attrib.ivLen = attrib.iv.length := by
  unfold updateAttribSecInfo at h
  obtain ⟨⟨encrypt, keyIdx⟩, -, h⟩ := Option.bind_eq_some_iff.1 h
  obtain ⟨⟨iv, txpn'⟩, hiv, h⟩ := Option.bind_eq_some_iff.1 h
  obtain ⟨rfl, rfl⟩ := Prod.mk.inj (Option.some.inj h)
  exact ⟨hiv, rfl, rfl, rfl⟩

end

end Rtw
