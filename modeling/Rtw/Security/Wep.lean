import Rtw.Mlme.Ie

/-!
# WEP in software

`arcfour_*`, `getcrc32` and `rtw_wep_decrypt`, with the loop body of `rtw_wep_encrypt` as its inverse
(`rtwWepDecrypt_encrypt`). The comparison of the ICV has no effect in `rtw_wep_decrypt`; here it is part
of the result.
-/

namespace Rtw

/-- `struct arc4context` -/
structure Arc4context where
  x : UInt8
  y : UInt8
  state : Vector UInt8 256

/-- The second loop of `arcfour_init`. -/
def arcfourInitLoop (key : List UInt8) : Nat → Nat → UInt8 → Vector UInt8 256 → Vector UInt8 256
  | 0, _, _, state => state
  | n + 1, counter, stateindex, state =>
    let t := state[counter]?.getD 0
    let stateindex := stateindex + key[counter % key.length]?.getD 0 + t
    let u := state[stateindex.toNat]?.getD 0
    arcfourInitLoop key n (counter + 1) stateindex
      ((state.setIfInBounds stateindex.toNat t).setIfInBounds counter u)

def arcfourInit (key : List UInt8) : Arc4context :=
  ⟨0, 0, arcfourInitLoop key 256 0 0 (Vector.ofFn fun i => UInt8.ofNat i)⟩

def arcfourByte (c : Arc4context) : UInt8 × Arc4context :=
  let x := c.x + 1
  let sx := c.state[x.toNat]?.getD 0
  let y := sx + c.y
  let sy := c.state[y.toNat]?.getD 0
  let state := (c.state.setIfInBounds y.toNat sx).setIfInBounds x.toNat sy
  (state[(sx + sy).toNat]?.getD 0, ⟨x, y, state⟩)

def arcfourEncrypt : Arc4context → List UInt8 → List UInt8
  | _, [] => []
  | c, b :: src =>
    let (k, c) := arcfourByte c
    (b ^^^ k) :: arcfourEncrypt c src

/-- The entry of `crc32_table` before the bits are put into reverse order. -/
def crc32Shift : Nat → UInt32 → UInt32
  | 0, c => c
  | j + 1, c => crc32Shift j (if c &&& 0x80000000 ≠ 0 then (c <<< 1) ^^^ 0x04c11db7 else c <<< 1)

def crc32ReverseBit (data : UInt8) : UInt8 :=
  let bit (x mask : UInt8) := x &&& mask
  bit (data <<< 7) 0x80 ||| bit (data <<< 5) 0x40 ||| bit (data <<< 3) 0x20 ||| bit (data <<< 1) 0x10 |||
    bit (data >>> 1) 0x08 ||| bit (data >>> 3) 0x04 ||| bit (data >>> 5) 0x02 ||| bit (data >>> 7) 0x01

def crc32Table (i : UInt8) : UInt32 :=
  let c := crc32Shift 8 ((crc32ReverseBit i).toUInt32 <<< 24)
  let p (k : UInt32) : UInt32 := (crc32ReverseBit (c >>> (8 * k)).toUInt8).toUInt32
  p 3 ||| (p 2 <<< 8) ||| (p 1 <<< 16) ||| (p 0 <<< 24)

def getcrc32 (buf : List UInt8) : UInt32 :=
  ~~~buf.foldl (fun crc p => crc32Table (crc.toUInt8 ^^^ p) ^^^ (crc >>> 8)) 0xffffffff

/-- The four bytes of `crc`, least significant byte first. -/
def crcBytes (crc : UInt32) : List UInt8 :=
  [crc.toUInt8, (crc >>> 8).toUInt8, (crc >>> 16).toUInt8, (crc >>> 24).toUInt8]

/-- The default keys, each with its `dot11DefKeylen` bytes. -/
abbrev DefKeys := Fin 4 → List UInt8

/-- `key_index` of the IV in front of `body`. -/
def wepKeyIndex (body : List UInt8) : Fin 4 := Fin.ofNat 4 (byteAt body 3 / 64)

def wepKey (keys : DefKeys) (body : List UInt8) : List UInt8 := body.take 3 ++ keys (wepKeyIndex body)

/-- The ICV behind the payload is right. -/
def IcvValid (payload : List UInt8) : Prop :=
  4 ≤ payload.length ∧ payload.drop (payload.length - 4) = crcBytes (getcrc32 (payload.take (payload.length - 4)))

instance (payload : List UInt8) : Decidable (IcvValid payload) := inferInstanceAs (Decidable (_ ∧ _))

/-- `rtw_wep_decrypt` on the body of a frame, which starts with the IV: the body it leaves, and whether
the ICV is right. -/
def rtwWepDecrypt (keys : DefKeys) (body : List UInt8) : List UInt8 × Bool :=
  let payload := arcfourEncrypt (arcfourInit (wepKey keys body)) (body.drop 4)
  (body.take 4 ++ payload, IcvValid payload)

/-- What `rtw_wep_encrypt` makes of one fragment, behind the header. -/
def rtwWepEncryptBody (keys : DefKeys) (iv payload : List UInt8) : List UInt8 :=
  iv ++ arcfourEncrypt (arcfourInit (wepKey keys iv)) (payload ++ crcBytes (getcrc32 payload))

section
variable {c : Arc4context} {keys : DefKeys} {iv payload src : List UInt8}

@[simp] theorem length_arcfourEncrypt : (arcfourEncrypt c src).length = src.length := by
  induction src generalizing c with
  | nil => rfl
  | cons b src ih => simp [arcfourEncrypt, ih]

theorem arcfourEncrypt_arcfourEncrypt : arcfourEncrypt c (arcfourEncrypt c src) = src := by
  induction src generalizing c with
  | nil => rfl
  | cons b src ih =>
    simp only [arcfourEncrypt, ih, UInt8.xor_assoc, UInt8.xor_self, UInt8.xor_zero]

theorem icvValid_append_crc : IcvValid (payload ++ crcBytes (getcrc32 payload)) := by
  have hlen : (crcBytes (getcrc32 payload)).length = 4 := rfl
  constructor
  · rw [List.length_append, hlen]; omega
  · rw [List.length_append, hlen, Nat.add_sub_cancel, List.take_left', List.drop_left'] <;> rfl

theorem wepKey_append (h : iv.length = 4) : wepKey keys (iv ++ src) = wepKey keys iv := by
  match iv, h with
  | [a, b, c, d], _ => rfl

/-- Decryption undoes encryption under the same key, and the ICV is right. -/
theorem rtwWepDecrypt_encrypt (keys : DefKeys) (payload : List UInt8) (h : iv.length = 4) :
    rtwWepDecrypt keys (rtwWepEncryptBody keys iv payload) =
      (iv ++ (payload ++ crcBytes (getcrc32 payload)), true) := by
  unfold rtwWepDecrypt rtwWepEncryptBody
  dsimp only
  rw [wepKey_append h, List.drop_left' h, List.take_left' h, arcfourEncrypt_arcfourEncrypt]
  simp [icvValid_append_crc]

end

example : getcrc32 [0x31, 0x32, 0x33, 0x34, 0x35, 0x36, 0x37, 0x38, 0x39] = 0xcbf43926 := by decide +kernel

end Rtw
