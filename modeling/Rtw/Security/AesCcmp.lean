import Rtw.Lib.Ccm
import Rtw.Recv.Frame

/-!
# CCMP in software

`aes_cipher` and `aes_decipher`, on the memory from the start of the frame on. `aes128k128d` is the
parameter `E`. `message` is the static buffer of `aes_decipher` with whatever an earlier call left in
it; accesses behind the frame or the buffer are not stopped, as in the code.
-/

namespace Rtw
open Ccm

/-- A 128-bit key. -/
abbrev AesKey := Vector UInt8 16

def maxMsgSize : Nat := 2048

def a4Exists (hdrlen : Nat) : Bool := !(hdrlen == 24 || hdrlen == 26)

/-- `qc_exists`, from the first byte of the frame control field. -/
def qcExists (fc : UInt8) : Bool :=
  let frtype := fc &&& 0x0c
  let frsubtype := (fc &&& 0xfc) >>> 4
  let fr := frtype ||| frsubtype
  fr == 0x18 || fr == 0x28 || fr == 0x38 ||
    frtype == 0x08 && (frsubtype == 0x08 || frsubtype == 0x09 || frsubtype == 0x0a || frsubtype == 0x0b)

/-- `hdrlen` behind the check of the frame type. -/
def adjHdrlen (hdrlen : Nat) (fc : UInt8) : Nat := if qcExists fc && hdrlen != 26 then hdrlen + 2 else hdrlen

def pnVector (pframe : Mem) (hdrlen : Nat) : Vector UInt8 6 :=
  #v[pframe hdrlen, pframe (hdrlen + 1), pframe (hdrlen + 4), pframe (hdrlen + 5), pframe (hdrlen + 6),
    pframe (hdrlen + 7)]

/-- The QoS byte of the nonce. -/
def nonceQc (qc a4 : Bool) (mpdu : Mem) : UInt8 :=
  if qc && a4 then mpdu 30 &&& 0x0f else if qc then mpdu 24 &&& 0x0f else 0

def constructMicIv (qc a4 : Bool) (mpdu : Mem) (payloadLength : Nat) (pn : Vector UInt8 6) : Block :=
  #v[0x59, nonceQc qc a4 mpdu, mpdu 10, mpdu 11, mpdu 12, mpdu 13, mpdu 14, mpdu 15,
    pn[5], pn[4], pn[3], pn[2], pn[1], pn[0], UInt8.ofNat (payloadLength / 256), UInt8.ofNat payloadLength]

def constructMicHeader1 (headerLength : Nat) (mpdu : Mem) : Block :=
  #v[UInt8.ofNat ((headerLength - 2) / 256), UInt8.ofNat (headerLength - 2), mpdu 0 &&& 0xcf, mpdu 1 &&& 0xc7,
    mpdu 4, mpdu 5, mpdu 6, mpdu 7, mpdu 8, mpdu 9, mpdu 10, mpdu 11, mpdu 12, mpdu 13, mpdu 14, mpdu 15]

def constructMicHeader2 (a4 qc : Bool) (mpdu : Mem) : Block :=
  let a4Byte (i : Nat) : UInt8 := if a4 then mpdu (24 + i) else 0
  #v[mpdu 16, mpdu 17, mpdu 18, mpdu 19, mpdu 20, mpdu 21, 0, 0,
    if qc && !a4 then mpdu 24 &&& 0x0f else a4Byte 0, a4Byte 1, a4Byte 2, a4Byte 3, a4Byte 4, a4Byte 5,
    if qc && a4 then mpdu 30 &&& 0x0f else 0, 0]

def constructCtrPreload (a4 qc : Bool) (mpdu : Mem) (pn : Vector UInt8 6) (c : Nat) : Block :=
  #v[0x01, nonceQc qc a4 mpdu, mpdu 10, mpdu 11, mpdu 12, mpdu 13, mpdu 14, mpdu 15,
    pn[5], pn[4], pn[3], pn[2], pn[1], pn[0], UInt8.ofNat (c / 256), UInt8.ofNat c]

section
variable (E : AesKey → Block → Block) (key : AesKey)

/-- The MIC of the `n` payload bytes of a frame, in the first 8 bytes of the block. -/
def calcMic (qc a4 : Bool) (hdrlen : Nat) (mpdu : Mem) (pn : Vector UInt8 6) (n : Nat) : Block :=
  let aesOut := E key (constructMicIv qc a4 mpdu n pn)
  let aesOut := E key (xor aesOut (constructMicHeader1 hdrlen mpdu))
  let aesOut := E key (xor aesOut (constructMicHeader2 a4 qc mpdu))
  cbcMac (E key) mpdu (hdrlen + 8) n aesOut

/-- The part that `aes_cipher` on the frame and `aes_decipher` on `message` have in common: calculate
the MIC, insert it, encrypt the payload, encrypt the MIC, which is read at `micOff`. -/
def protect (qc a4 : Bool) (hdrlen : Nat) (pn : Vector UInt8 6) (n micOff : Nat) (m : Mem) : Mem :=
  let mic := calcMic E key qc a4 hdrlen m pn n
  let m := store m (hdrlen + 8 + n) 8 mic
  let m := ctrCrypt (E key) (fun m c => constructCtrPreload a4 qc m pn c) (hdrlen + 8) n m
  let aesOut := E key (constructCtrPreload a4 qc m pn 0)
  store m (hdrlen + 8 + n) 8 (xor aesOut (loadPart m micOff 8))

def aesCipher (hdrlen : Nat) (pframe : Mem) (plen : Nat) : Mem :=
  let a4 := a4Exists hdrlen
  let qc := qcExists (pframe 0)
  let hdrlen := adjHdrlen hdrlen (pframe 0)
  let pn := pnVector pframe hdrlen
  protect E key qc a4 hdrlen pn plen (hdrlen + 8 + plen) pframe

/-- What `aes_decipher` returns and leaves behind. -/
structure Deciphered where
  res : Bool
  pframe : Mem
  message : Mem

/-- `_rtw_memcpy(message, pframe, len)` -/
def copyTo (message pframe : Mem) (len : Nat) : Mem := fun i => if i < len then pframe i else message i

/-- `plen-8` as an unsigned number. -/
def uintSub8 (plen : Nat) : Nat := if 8 ≤ plen then plen - 8 else plen + 2 ^ 32 - 8

/-- `aes_decipher`; `plen` counts the payload and the MIC. -/
def aesDecipher (hdrlen : Nat) (message pframe : Mem) (plen : Nat) : Deciphered :=
  let n := uintSub8 plen
  let a4 := a4Exists hdrlen
  let qc := qcExists (pframe 0)
  -- the packet number is read before the header length is adjusted
  let pn := pnVector pframe hdrlen
  let hdrlen := adjHdrlen hdrlen (pframe 0)
  let pframe := ctrCrypt (E key) (fun m c => constructCtrPreload a4 qc m pn c) (hdrlen + 8) n pframe
  -- a longer frame is not copied, and the MIC is that of the old contents
  let message := if hdrlen + plen + 8 ≤ maxMsgSize then copyTo message pframe (hdrlen + plen + 8) else message
  let pn := pnVector pframe hdrlen
  let message := protect E key qc a4 hdrlen pn n (hdrlen + plen) message
  { res := (List.range 8).all fun i => pframe (hdrlen + plen + i) == message (hdrlen + plen + i)
    pframe
    message }

end

section
variable {E : AesKey → Block → Block} {key : AesKey} {qc a4 : Bool} {hdrlen n : Nat} {pn : Vector UInt8 6}
  {m m' : Mem}

@[simp] theorem uintSub8_add (n : Nat) : uintSub8 (n + 8) = n := by
  rw [uintSub8, if_pos (Nat.le_add_left 8 n), Nat.add_sub_cancel]

theorem pnVector_congr (m' : Mem) (h : ∀ i < hdrlen + 8, m i = m' i) : pnVector m hdrlen = pnVector m' hdrlen := by
  simp only [pnVector, h hdrlen (by omega), h (hdrlen + 1) (by omega), h (hdrlen + 4) (by omega),
    h (hdrlen + 5) (by omega), h (hdrlen + 6) (by omega), h (hdrlen + 7) (by omega)]

theorem nonceQc_congr (h : ∀ i < 32, m i = m' i) : nonceQc qc a4 m = nonceQc qc a4 m' := by
  simp only [nonceQc, h 30 (by omega), h 24 (by omega)]

theorem constructCtrPreload_congr (m' : Mem) (h : ∀ i < 32, m i = m' i) (c : Nat) :
    constructCtrPreload a4 qc m pn c = constructCtrPreload a4 qc m' pn c := by
  simp only [constructCtrPreload, nonceQc_congr h, h 10 (by omega), h 11 (by omega), h 12 (by omega),
    h 13 (by omega), h 14 (by omega), h 15 (by omega)]

/-- The chaining value in front of the payload. -/
def headerState (E : AesKey → Block → Block) (key : AesKey) (qc a4 : Bool) (hdrlen : Nat) (mpdu : Mem)
    (pn : Vector UInt8 6) (n : Nat) : Block :=
  E key (xor (E key (xor (E key (constructMicIv qc a4 mpdu n pn)) (constructMicHeader1 hdrlen mpdu)))
    (constructMicHeader2 a4 qc mpdu))

theorem calcMic_eq : calcMic E key qc a4 hdrlen m pn n =
    cbcMac (E key) m (hdrlen + 8) n (headerState E key qc a4 hdrlen m pn n) := rfl

theorem headerState_congr (hh : ∀ i < 32, m i = m' i) :
    headerState E key qc a4 hdrlen m pn n = headerState E key qc a4 hdrlen m' pn n := by
  have hiv : constructMicIv qc a4 m n pn = constructMicIv qc a4 m' n pn := by
    simp only [constructMicIv, nonceQc_congr hh, hh 10 (by omega), hh 11 (by omega), hh 12 (by omega),
      hh 13 (by omega), hh 14 (by omega), hh 15 (by omega)]
  have h1 : constructMicHeader1 hdrlen m = constructMicHeader1 hdrlen m' := by
    simp only [constructMicHeader1, hh 0 (by omega), hh 1 (by omega), hh 4 (by omega), hh 5 (by omega),
      hh 6 (by omega), hh 7 (by omega), hh 8 (by omega), hh 9 (by omega), hh 10 (by omega),
      hh 11 (by omega), hh 12 (by omega), hh 13 (by omega), hh 14 (by omega), hh 15 (by omega)]
  have h2 : constructMicHeader2 a4 qc m = constructMicHeader2 a4 qc m' := by
    simp only [constructMicHeader2, hh 16 (by omega), hh 17 (by omega), hh 18 (by omega),
      hh 19 (by omega), hh 20 (by omega), hh 21 (by omega), hh (24 + 0) (by omega),
      hh (24 + 1) (by omega), hh (24 + 2) (by omega), hh (24 + 3) (by omega), hh (24 + 4) (by omega),
      hh (24 + 5) (by omega), hh 30 (by omega)]
  simp only [headerState, hiv, h1, h2]

theorem calcMic_congr (h24 : 24 ≤ hdrlen) (h : ∀ i < hdrlen + 8 + n, m i = m' i) :
    calcMic E key qc a4 hdrlen m pn n = calcMic E key qc a4 hdrlen m' pn n := by
  rw [calcMic_eq, calcMic_eq, headerState_congr fun i hi => h i (by omega)]
  exact cbcMac_congr fun i _ hi => h i hi

/-- The key stream for the payload of `mpdu` under the packet number `pn`. -/
def payloadStream (E : AesKey → Block → Block) (key : AesKey) (qc a4 : Bool) (mpdu : Mem)
    (pn : Vector UInt8 6) : Nat → UInt8 :=
  keystream (E key) (constructCtrPreload a4 qc mpdu pn)

/-- The encrypted MIC. -/
def ccmpTag (E : AesKey → Block → Block) (key : AesKey) (qc a4 : Bool) (hdrlen : Nat) (mpdu : Mem)
    (pn : Vector UInt8 6) (n : Nat) : Block :=
  xor (E key (constructCtrPreload a4 qc mpdu pn 0)) (calcMic E key qc a4 hdrlen mpdu pn n)

theorem payloadStream_congr (m' : Mem) (h : ∀ i < 32, m i = m' i) :
    payloadStream E key qc a4 m pn = payloadStream E key qc a4 m' pn := by
  unfold payloadStream
  rw [show constructCtrPreload a4 qc m pn = constructCtrPreload a4 qc m' pn from
    funext (constructCtrPreload_congr m' h)]

theorem ccmpTag_congr (h24 : 24 ≤ hdrlen) (h : ∀ i < hdrlen + 8 + n, m i = m' i) :
    ccmpTag E key qc a4 hdrlen m pn n = ccmpTag E key qc a4 hdrlen m' pn n := by
  unfold ccmpTag
  rw [constructCtrPreload_congr _ (fun i hi => h i (by omega)), calcMic_congr h24 h]

/-- Under a permutation, which AES is, the first block of the payload can be chosen so that the frame gets
any given MIC. -/
theorem exists_ccmpTag_eq (qc a4 : Bool) (n : Nat) (pn : Vector UInt8 6) (hE : Function.Surjective (E key))
    (h24 : 24 ≤ hdrlen) (m : Mem) (t : Block) :
    ∃ m', (∀ i < hdrlen + 8, m' i = m i) ∧ ccmpTag E key qc a4 hdrlen m' pn (n + 16) = t := by
  obtain ⟨m', hm', hmac⟩ := exists_cbcMac_eq hE m (hdrlen + 8) n
    (headerState E key qc a4 hdrlen m pn (n + 16)) (xor (E key (constructCtrPreload a4 qc m pn 0)) t)
  refine ⟨m', hm', ?_⟩
  have hh : ∀ i < 32, m' i = m i := fun i hi => hm' i (by omega)
  rw [ccmpTag, calcMic_eq, headerState_congr hh, hmac, constructCtrPreload_congr m hh, xor_xor_self]

/-- The counter-mode pass over the payload, whose counter blocks are rebuilt from the header. -/
theorem crypt_eq (h24 : 24 ≤ hdrlen) :
    ctrCrypt (E key) (fun m c => constructCtrPreload a4 qc m pn c) (hdrlen + 8) n m =
      xorRange m (hdrlen + 8) n (payloadStream E key qc a4 m pn) :=
  ctrCrypt_eq fun _ h => constructCtrPreload_congr _ fun i hi => h i (by omega)

/-- What `protect` does to the bytes of a frame: the header stays, the payload is encrypted, the
encrypted MIC follows. -/
theorem protect_of_lt (h24 : 24 ≤ hdrlen) {i micOff : Nat} (hi : i < hdrlen + 8) :
    protect E key qc a4 hdrlen pn n micOff m i = m i := by
  simp only [protect, crypt_eq h24]
  rw [store_of_lt (by omega), xorRange_of_lt hi, store_of_lt (by omega)]

theorem protect_payload (h24 : 24 ≤ hdrlen) {i micOff : Nat} (hi : hdrlen + 8 ≤ i) (hi' : i < hdrlen + 8 + n) :
    protect E key qc a4 hdrlen pn n micOff m i =
      m i ^^^ payloadStream E key qc a4 m pn (i - (hdrlen + 8)) := by
  simp only [protect, crypt_eq h24]
  rw [store_of_lt hi', xorRange_of_mem hi hi', store_of_lt hi',
    payloadStream_congr m fun i hi => store_of_lt (by omega)]

theorem protect_mic (h24 : 24 ≤ hdrlen) {j micOff : Nat} (hj : j < 8) (hmic : micOff = hdrlen + 8 + n) :
    protect E key qc a4 hdrlen pn n micOff m (hdrlen + 8 + n + j) =
      getElem (ccmpTag E key qc a4 hdrlen m pn n) j (by omega) := by
  subst hmic
  simp only [protect, crypt_eq h24]
  rw [store_of_mem (by omega) (by omega) (by omega)]
  simp only [Nat.add_sub_cancel_left, ccmpTag, xor_get]
  rw [constructCtrPreload_congr m fun i hi => by
      rw [xorRange_of_lt (by omega), store_of_lt (by omega)],
    loadPart_get, if_pos hj, xorRange_of_ge (by omega), store_of_mem (by omega) (by omega) (by omega)]
  simp only [Nat.add_sub_cancel_left]

end

end Rtw
