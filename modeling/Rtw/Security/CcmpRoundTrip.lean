import Mathlib.Tactic.IntervalCases
import Rtw.Security.AesCcmp

/-!
# Decryption undoes encryption

`aesDecipher_res` and `aesDecipher_pframe` say what `aes_decipher` does to a frame with room for a MIC.
`roundTrip_iff` says for which frames it undoes `aes_cipher`, whatever the block cipher and the contents
of the static buffer are.
-/

namespace Rtw
open Ccm

section
variable {E : AesKey → Block → Block} {key : AesKey} {hdrlen n plen : Nat} {message pframe f : Mem}

theorem le_adjHdrlen (hdrlen : Nat) (fc : UInt8) : hdrlen ≤ adjHdrlen hdrlen fc := by
  unfold adjHdrlen; split <;> omega

/-- The buffer that the MIC is calculated in. -/
def micBuffer (hdrlen : Nat) (message pframe : Mem) (plen : Nat) : Mem :=
  if hdrlen + plen + 8 ≤ maxMsgSize then copyTo message pframe (hdrlen + plen + 8) else message

theorem micBuffer_of_lt (hfit : hdrlen + plen + 8 ≤ maxMsgSize) {i : Nat} (hi : i < hdrlen + plen + 8) :
    micBuffer hdrlen message pframe plen i = pframe i := by
  rw [micBuffer, if_pos hfit]; exact if_pos hi

theorem micBuffer_of_long (hlong : ¬ hdrlen + plen + 8 ≤ maxMsgSize) :
    micBuffer hdrlen message pframe plen = message := if_neg hlong

theorem aesDecipher_pframe (h24 : 24 ≤ hdrlen) :
    (aesDecipher E key hdrlen message f (n + 8)).pframe =
      xorRange f (adjHdrlen hdrlen (f 0) + 8) n
        (payloadStream E key (qcExists (f 0)) (a4Exists hdrlen) f (pnVector f hdrlen)) := by
  have hle := le_adjHdrlen hdrlen (f 0)
  simp only [aesDecipher, uintSub8_add]
  exact crypt_eq (by omega)

theorem aesDecipher_res (h24 : 24 ≤ hdrlen) {dec : Mem} {h : Nat} (hh : h = adjHdrlen hdrlen (f 0))
    (hdec : dec = (aesDecipher E key hdrlen message f (n + 8)).pframe) :
    (aesDecipher E key hdrlen message f (n + 8)).res ↔ ∀ (j : Nat) (hj : j < 8), dec (h + 8 + n + j) =
      getElem (ccmpTag E key (qcExists (f 0)) (a4Exists hdrlen) h (micBuffer h message dec (n + 8))
        (pnVector dec h) n) j (by omega) := by
  subst hh hdec
  have hle := le_adjHdrlen hdrlen (f 0)
  have hidx : ∀ j, adjHdrlen hdrlen (f 0) + (n + 8) + j = adjHdrlen hdrlen (f 0) + 8 + n + j := fun j => by omega
  have hoff : adjHdrlen hdrlen (f 0) + (n + 8) = adjHdrlen hdrlen (f 0) + 8 + n := by omega
  simp only [aesDecipher, uintSub8_add, List.all_eq_true, List.mem_range, beq_iff_eq, hidx, micBuffer]
  refine forall₂_congr fun j hj => ?_
  rw [protect_mic (by omega) hj hoff]

/-- `aes_cipher` leaves what is in front of the payload alone. -/
theorem aesCipher_of_lt (h24 : 24 ≤ hdrlen) {i : Nat} (hi : i < adjHdrlen hdrlen (pframe 0) + 8) :
    aesCipher E key hdrlen pframe plen i = pframe i := by
  have hle := le_adjHdrlen hdrlen (pframe 0)
  exact protect_of_lt (by omega) hi

theorem aesCipher_payload (h24 : 24 ≤ hdrlen) {i : Nat} (hi : adjHdrlen hdrlen (pframe 0) + 8 ≤ i)
    (hi' : i < adjHdrlen hdrlen (pframe 0) + 8 + plen) :
    aesCipher E key hdrlen pframe plen i = pframe i ^^^
      payloadStream E key (qcExists (pframe 0)) (a4Exists hdrlen) pframe
        (pnVector pframe (adjHdrlen hdrlen (pframe 0))) (i - (adjHdrlen hdrlen (pframe 0) + 8)) := by
  have hle := le_adjHdrlen hdrlen (pframe 0)
  exact protect_payload (by omega) hi hi'

theorem aesCipher_mic (h24 : 24 ≤ hdrlen) {j : Nat} (hj : j < 8) :
    aesCipher E key hdrlen pframe plen (adjHdrlen hdrlen (pframe 0) + 8 + plen + j) =
      getElem (ccmpTag E key (qcExists (pframe 0)) (a4Exists hdrlen) (adjHdrlen hdrlen (pframe 0)) pframe
        (pnVector pframe (adjHdrlen hdrlen (pframe 0))) plen) j (by omega) := by
  have hle := le_adjHdrlen hdrlen (pframe 0)
  exact protect_mic (by omega) hj rfl

/-- Decrypting the encrypted frame succeeds and gives back its header, IV and payload. -/
def RoundTrip (E : AesKey → Block → Block) (key : AesKey) (hdrlen : Nat) (message pframe : Mem)
    (plen : Nat) : Prop :=
  let r := aesDecipher E key hdrlen message (aesCipher E key hdrlen pframe plen) (plen + 8)
  r.res ∧ ∀ i < hdrlen + 8 + plen, r.pframe i = pframe i

instance (E : AesKey → Block → Block) (key : AesKey) (hdrlen : Nat) (message pframe : Mem) (plen : Nat) :
    Decidable (RoundTrip E key hdrlen message pframe plen) :=
  inferInstanceAs (Decidable (_ ∧ ∀ i < hdrlen + 8 + plen, _))

/-- The encrypted and decrypted frame. -/
def reFrame (E : AesKey → Block → Block) (key : AesKey) (hdrlen : Nat) (pframe : Mem) (plen : Nat) : Mem :=
  xorRange (aesCipher E key hdrlen pframe plen) (adjHdrlen hdrlen (pframe 0) + 8) plen
    (payloadStream E key (qcExists (pframe 0)) (a4Exists hdrlen) pframe (pnVector pframe hdrlen))

theorem reFrame_eq (h24 : 24 ≤ hdrlen) :
    (aesDecipher E key hdrlen message (aesCipher E key hdrlen pframe plen) (plen + 8)).pframe =
      reFrame E key hdrlen pframe plen := by
  have hle := le_adjHdrlen hdrlen (pframe 0)
  have hhdr : ∀ i < adjHdrlen hdrlen (pframe 0) + 8, aesCipher E key hdrlen pframe plen i = pframe i :=
    fun i hi => aesCipher_of_lt h24 hi
  rw [aesDecipher_pframe h24, hhdr 0 (by omega), payloadStream_congr pframe fun i hi => hhdr i (by omega),
    pnVector_congr pframe fun i hi => hhdr i (by omega), reFrame]

theorem reFrame_of_lt (h24 : 24 ≤ hdrlen) {i : Nat} (hi : i < adjHdrlen hdrlen (pframe 0) + 8) :
    reFrame E key hdrlen pframe plen i = pframe i := by
  rw [reFrame, xorRange_of_lt hi, aesCipher_of_lt h24 hi]

theorem reFrame_payload (h24 : 24 ≤ hdrlen) {i : Nat} (hi : adjHdrlen hdrlen (pframe 0) + 8 ≤ i)
    (hi' : i < adjHdrlen hdrlen (pframe 0) + 8 + plen) :
    reFrame E key hdrlen pframe plen i = pframe i ^^^
      payloadStream E key (qcExists (pframe 0)) (a4Exists hdrlen) pframe
        (pnVector pframe (adjHdrlen hdrlen (pframe 0))) (i - (adjHdrlen hdrlen (pframe 0) + 8)) ^^^
      payloadStream E key (qcExists (pframe 0)) (a4Exists hdrlen) pframe (pnVector pframe hdrlen)
        (i - (adjHdrlen hdrlen (pframe 0) + 8)) := by
  rw [reFrame, xorRange_of_mem hi hi', aesCipher_payload h24 hi hi']

/-- The MIC check compares the MIC of the frame with the MIC of the buffer. -/
theorem roundTrip_res (h24 : 24 ≤ hdrlen) :
    (aesDecipher E key hdrlen message (aesCipher E key hdrlen pframe plen) (plen + 8)).res ↔
      ∀ (j : Nat) (hj : j < 8),
        getElem (ccmpTag E key (qcExists (pframe 0)) (a4Exists hdrlen) (adjHdrlen hdrlen (pframe 0)) pframe
          (pnVector pframe (adjHdrlen hdrlen (pframe 0))) plen) j (by omega) =
        getElem (ccmpTag E key (qcExists (pframe 0)) (a4Exists hdrlen) (adjHdrlen hdrlen (pframe 0))
          (micBuffer (adjHdrlen hdrlen (pframe 0)) message (reFrame E key hdrlen pframe plen) (plen + 8))
          (pnVector pframe (adjHdrlen hdrlen (pframe 0))) plen) j (by omega) := by
  have h0 : aesCipher E key hdrlen pframe plen 0 = pframe 0 := aesCipher_of_lt h24 (by omega)
  rw [aesDecipher_res h24 (h := adjHdrlen hdrlen (pframe 0)) (by rw [h0]) (reFrame_eq h24).symm, h0,
    pnVector_congr pframe fun i (hi : i < _) => reFrame_of_lt h24 hi]
  refine forall₂_congr fun j hj => ?_
  rw [reFrame, xorRange_of_ge (by omega), aesCipher_mic h24 hj]

/-- The packet number is where `aes_decipher` looks for it, or does not matter. -/
def PnInPlace (hdrlen : Nat) (pframe : Mem) (plen : Nat) : Prop :=
  plen = 0 ∨ pnVector pframe hdrlen = pnVector pframe (adjHdrlen hdrlen (pframe 0))

/-- The frame and its MIC fit in `message`. -/
def FitsMessage (hdrlen : Nat) (pframe : Mem) (plen : Nat) : Prop :=
  adjHdrlen hdrlen (pframe 0) + plen + 16 ≤ maxMsgSize

instance (hdrlen : Nat) (pframe : Mem) (plen : Nat) : Decidable (FitsMessage hdrlen pframe plen) :=
  inferInstanceAs (Decidable (_ ≤ _))

theorem reFrame_eq_self (h24 : 24 ≤ hdrlen) (hpn : PnInPlace hdrlen pframe plen) {i : Nat}
    (hi : i < adjHdrlen hdrlen (pframe 0) + 8 + plen) : reFrame E key hdrlen pframe plen i = pframe i := by
  rcases Nat.lt_or_ge i (adjHdrlen hdrlen (pframe 0) + 8) with hlt | hge
  · exact reFrame_of_lt h24 hlt
  rcases hpn with h0 | hpn
  · omega
  · rw [reFrame_payload h24 hge hi, hpn, UInt8.xor_assoc, UInt8.xor_self, UInt8.xor_zero]

theorem roundTrip_of_inPlace (h24 : 24 ≤ hdrlen) (hpn : PnInPlace hdrlen pframe plen)
    (hlen : FitsMessage hdrlen pframe plen) : RoundTrip E key hdrlen message pframe plen := by
  have hle := le_adjHdrlen hdrlen (pframe 0)
  unfold FitsMessage at hlen
  refine ⟨(roundTrip_res h24).2 fun j hj => ?_, fun i hi => ?_⟩
  · have hbuf : ∀ i < adjHdrlen hdrlen (pframe 0) + 8 + plen, pframe i =
        micBuffer (adjHdrlen hdrlen (pframe 0)) message (reFrame E key hdrlen pframe plen) (plen + 8) i := by
      intro i hi
      rw [micBuffer_of_lt (by omega) (by omega), reFrame_eq_self h24 hpn hi]
    rw [ccmpTag_congr (by omega) hbuf]
  · rw [reFrame_eq h24]; exact reFrame_eq_self h24 hpn (by omega)

/-! ### The frames that fail -/

/-- A MAC over zeros with the identity for the block cipher. -/
theorem cbcMac_id_zero {m : Mem} {off len : Nat} {st : Block} (h : ∀ i, off ≤ i → i < off + len → m i = 0) :
    cbcMac (fun b => b) m off len st = st := by
  have hblocks : ∀ n off, (∀ i, off ≤ i → i < off + 16 * n → m i = 0) →
      cbcBlocks (fun b => b) m n off st = st := by
    intro n
    induction n with
    | zero => exact fun _ _ => rfl
    | succ n ih =>
      intro off h
      have hx : xor st (load m off) = st := Vector.ext fun i hi => by
        rw [xor_get, load_get, h _ (by omega) (by omega), UInt8.xor_zero]
      rw [cbcBlocks, hx]
      exact ih (off + 16) fun i h1 h2 => h i (by omega) (by omega)
  have hlen := Nat.div_add_mod len 16
  unfold cbcMac
  rw [hblocks _ _ fun i h1 h2 => h i h1 (by omega)]
  split
  · refine Vector.ext fun i hi => ?_
    rw [xor_get, loadPart_get]
    split
    · rw [h _ (by omega) (by omega), UInt8.xor_zero]
    · exact UInt8.xor_zero
  · rfl

/-- With the identity for the block cipher and zeros but for a byte of the third address, that byte is
the third byte of the encrypted MIC. -/
theorem ccmpTag_id_zero {qc a4 : Bool} {h n : Nat} {pn : Vector UInt8 6} {m : Mem} (h24 : 24 ≤ h)
    (hm : ∀ i, i ≠ 18 → m i = 0) : (ccmpTag (fun _ b => b) key qc a4 h m pn n)[2] = m 18 := by
  have hpay : ∀ i, h + 8 ≤ i → i < h + 8 + n → m i = 0 := fun i hi _ => hm i (by omega)
  simp only [ccmpTag, calcMic, cbcMac_id_zero hpay, xor_get]
  simp [constructCtrPreload, constructMicIv, constructMicHeader1, constructMicHeader2,
    hm 10 (by omega), hm 0 (by omega)]

/-- A frame that is not copied: the MIC is checked against the old contents of `message`, and of two
contents one fails. -/
theorem not_roundTrip_long (h24 : 24 ≤ hdrlen) (hlen : ¬ FitsMessage hdrlen pframe plen) :
    ∃ message, ¬ RoundTrip (fun _ b => b) key hdrlen message pframe plen := by
  have hle := le_adjHdrlen hdrlen (pframe 0)
  unfold FitsMessage at hlen
  by_contra hall
  push Not at hall
  have hbuf : ∀ message, micBuffer (adjHdrlen hdrlen (pframe 0)) message
      (reFrame (fun _ b => b) key hdrlen pframe plen) (plen + 8) = message := fun message => by
    exact micBuffer_of_long (by omega)
  have h0 := (roundTrip_res h24).1 (hall fun _ => 0).1 2 (by omega)
  have h1 := (roundTrip_res h24).1 (hall fun i => if i = 18 then 1 else 0).1 2 (by omega)
  rw [hbuf, ccmpTag_id_zero (by omega) fun _ _ => rfl] at h0
  rw [hbuf, ccmpTag_id_zero (by omega) fun i hi => if_neg hi, h0] at h1
  exact absurd h1 (by decide)

theorem xor_xor_xor_cancel (x a b : UInt8) : x ^^^ a ^^^ (x ^^^ b) = a ^^^ b := by
  rw [UInt8.xor_comm x, UInt8.xor_assoc, ← UInt8.xor_assoc x, UInt8.xor_self, UInt8.zero_xor]

theorem xor_xor_eq_self_iff (x a b : UInt8) : x ^^^ a ^^^ b = x ↔ a = b := by
  rw [UInt8.xor_assoc]
  nth_rewrite 2 [← UInt8.xor_zero (a := x)]
  rw [UInt8.xor_right_inj, UInt8.xor_eq_zero_iff]

/-- A block cipher that shows byte `p` of the packet number in every byte of the key stream. -/
def laneE (p : Nat) (_ : AesKey) (b : Block) : Block := Vector.replicate 16 (getElem b (13 - p) (by omega) ^^^ b[0])

theorem constructCtrPreload_pn (a4 qc : Bool) (m : Mem) (pn : Vector UInt8 6) (c : Nat) {p : Nat} (hp : p < 6) :
    getElem (constructCtrPreload a4 qc m pn c) (13 - p) (by omega) = pn[p] := by
  interval_cases p <;> rfl

theorem payloadStream_laneE {qc a4 : Bool} {m : Mem} {pn : Vector UInt8 6} {p k : Nat} (hp : p < 6) :
    payloadStream (laneE p) key qc a4 m pn k = pn[p] ^^^ 1 := by
  simp only [payloadStream, keystream, laneE, Vector.getElem_replicate]
  rw [constructCtrPreload_pn _ _ _ _ _ hp]
  rfl

theorem laneE_xor_laneE (p : Nat) (b c : Block) : laneE p key (xor (laneE p key b) c) = laneE p key c := by
  simp only [laneE, xor_get, Vector.getElem_replicate]
  congr 1
  exact xor_xor_xor_cancel ..

/-- With it the MIC of a payload of a few bytes is the first of them. -/
theorem calcMic_laneE {qc a4 : Bool} {h n p : Nat} {m : Mem} {pn : Vector UInt8 6} (hp : p < 6) (hn : 0 < n)
    (hn' : n < 8) : (calcMic (laneE p) key qc a4 h m pn n)[0] = m (h + 8) := by
  have hdiv : n / 16 = 0 := Nat.div_eq_of_lt (by omega)
  have hmod : n % 16 = n := Nat.mod_eq_of_lt (by omega)
  simp only [calcMic, cbcMac, hdiv, hmod, cbcBlocks, gt_iff_lt, if_pos hn, laneE_xor_laneE]
  simp only [laneE, Vector.getElem_replicate]
  rw [loadPart_get, loadPart_get, if_neg (show ¬ 13 - p < n by omega),
    if_pos hn, UInt8.zero_xor]

theorem adjHdrlen_le (hdrlen : Nat) (fc : UInt8) : adjHdrlen hdrlen fc ≤ hdrlen + 2 := by
  unfold adjHdrlen; split <;> omega

/-- Two packet numbers that differ in byte `p` give different streams: the first byte is not restored. -/
theorem reFrame_laneE_ne (h24 : 24 ≤ hdrlen) (hplen : 0 < plen) {p : Nat} (hp : p < 6)
    (hne : (pnVector pframe hdrlen)[p] ≠ (pnVector pframe (adjHdrlen hdrlen (pframe 0)))[p]) :
    reFrame (laneE p) key hdrlen pframe plen (adjHdrlen hdrlen (pframe 0) + 8) ≠
      pframe (adjHdrlen hdrlen (pframe 0) + 8) := by
  intro h
  rw [reFrame_payload h24 (Nat.le_refl _) (by omega), payloadStream_laneE hp, payloadStream_laneE hp,
    xor_xor_eq_self_iff, UInt8.xor_left_inj] at h
  exact hne h.symm

/-- A frame whose packet number is looked for in the wrong place. -/
theorem not_roundTrip_pn (h24 : 24 ≤ hdrlen) (hpn : ¬ PnInPlace hdrlen pframe plen)
    (hlen : FitsMessage hdrlen pframe plen) :
    ∃ p, ¬ RoundTrip (laneE p) key hdrlen message pframe plen := by
  obtain ⟨h0, hne⟩ := not_or.1 hpn
  obtain ⟨p, hp, hne⟩ : ∃ p, ∃ hp : p < 6,
      (pnVector pframe hdrlen)[p] ≠ (pnVector pframe (adjHdrlen hdrlen (pframe 0)))[p] := by
    by_contra hall
    push Not at hall
    exact hne (Vector.ext fun p hp => hall p hp)
  refine ⟨p, fun hrt => @reFrame_laneE_ne key _ _ _ h24 (Nat.pos_of_ne_zero h0) p hp hne ?_⟩
  have hadj := adjHdrlen_le hdrlen (pframe 0)
  have hle := le_adjHdrlen hdrlen (pframe 0)
  unfold FitsMessage at hlen
  by_cases hplen : adjHdrlen hdrlen (pframe 0) + 8 < hdrlen + 8 + plen
  · have h := hrt.2 _ hplen
    rwa [reFrame_eq h24] at h
  · -- a payload of one or two bytes lies in front of what was encrypted, but the MIC covers the byte
    have h := (roundTrip_res h24).1 hrt.1 0 (by omega)
    have hbuf : ∀ i < adjHdrlen hdrlen (pframe 0) + plen + 16,
        micBuffer (adjHdrlen hdrlen (pframe 0)) message (reFrame (laneE p) key hdrlen pframe plen) (plen + 8) i =
          reFrame (laneE p) key hdrlen pframe plen i := fun i hi => by
      exact micBuffer_of_lt (by omega) (by omega)
    have hhdr : ∀ i < 32, micBuffer (adjHdrlen hdrlen (pframe 0)) message
        (reFrame (laneE p) key hdrlen pframe plen) (plen + 8) i = pframe i := fun i hi => by
      rw [hbuf i (by omega), reFrame_of_lt h24 (by omega)]
    rw [ccmpTag, ccmpTag, xor_get, xor_get, calcMic_laneE hp (by omega) (by omega),
      calcMic_laneE hp (by omega) (by omega),
      constructCtrPreload_congr pframe hhdr, UInt8.xor_right_inj] at h
    rw [h, hbuf _ (by omega)]

/-! With a block cipher that is a permutation, as AES is, every such frame with a block of payload fails. -/

theorem constructCtrPreload_injective {a4 qc : Bool} {m : Mem} {c : Nat} :
    Function.Injective fun pn => constructCtrPreload a4 qc m pn c := by
  intro pn pn' h
  refine Vector.ext fun p hp => ?_
  rw [← constructCtrPreload_pn a4 qc m pn c hp, ← constructCtrPreload_pn a4 qc m pn' c hp]
  congr 1

/-- The keystreams of two packet numbers differ in the first block. -/
theorem exists_payloadStream_ne (qc a4 : Bool) (m : Mem) {pn pn' : Vector UInt8 6}
    (hE : Function.Injective (E key)) (hne : pn ≠ pn') :
    ∃ k < 16, payloadStream E key qc a4 m pn k ≠ payloadStream E key qc a4 m pn' k := by
  by_contra hall
  push Not at hall
  have hblock : E key (constructCtrPreload a4 qc m pn 1) = E key (constructCtrPreload a4 qc m pn' 1) := by
    refine Vector.ext fun k hk => ?_
    have h := hall k hk
    have hdiv : k / 16 = 0 := Nat.div_eq_of_lt hk
    have hmod : k % 16 = k := Nat.mod_eq_of_lt hk
    simpa only [payloadStream, keystream, hdiv, hmod, Nat.zero_add] using h
  exact hne (constructCtrPreload_injective (hE hblock))

theorem not_roundTrip_of_injective (hE : Function.Injective (E key)) (h24 : 24 ≤ hdrlen) (h18 : 18 ≤ plen)
    (hpn : pnVector pframe hdrlen ≠ pnVector pframe (adjHdrlen hdrlen (pframe 0))) :
    ¬ RoundTrip E key hdrlen message pframe plen := by
  intro hrt
  have hle := adjHdrlen_le hdrlen (pframe 0)
  obtain ⟨k, hk, hne⟩ := exists_payloadStream_ne (qcExists (pframe 0)) (a4Exists hdrlen) pframe hE hpn
  have h := hrt.2 (adjHdrlen hdrlen (pframe 0) + 8 + k) (by omega)
  rw [reFrame_eq h24, reFrame_payload h24 (by omega) (by omega), Nat.add_sub_cancel_left,
    xor_xor_eq_self_iff] at h
  exact hne h.symm

/-- Decryption undoes encryption, for every key, block cipher and contents of the static buffer. -/
def RoundTrips (hdrlen : Nat) (pframe : Mem) (plen : Nat) : Prop :=
  ∀ E key message, RoundTrip E key hdrlen message pframe plen

/-- It does so exactly for the frames that fit in that buffer and have the packet number in place. -/
theorem roundTrip_iff (hdrlen plen : Nat) (pframe : Mem) (h24 : 24 ≤ hdrlen) :
    RoundTrips hdrlen pframe plen ↔ PnInPlace hdrlen pframe plen ∧ FitsMessage hdrlen pframe plen := by
  constructor
  · intro h
    have hlen : FitsMessage hdrlen pframe plen := by
      by_contra hlen
      obtain ⟨message, hn⟩ := @not_roundTrip_long (.replicate 16 0) _ _ _ h24 hlen
      exact hn (h _ _ _)
    refine ⟨?_, hlen⟩
    by_contra hpn
    obtain ⟨p, hn⟩ := @not_roundTrip_pn (.replicate 16 0) _ _ (fun _ => 0) _ h24 hpn hlen
    exact hn (h _ _ _)
  · rintro ⟨hpn, hlen⟩ E key message
    exact roundTrip_of_inPlace h24 hpn hlen

/-- A QoS data frame with the packet number 1 behind a header of `hdrlen` bytes, zeros otherwise. -/
def qosMpdu (hdrlen : Nat) : Mem := fun i => if i = 0 then 0x88 else if i = hdrlen then 1 else 0

theorem roundTrip_threeAddrQos : RoundTrips 26 (qosMpdu 26) 1500 :=
  (roundTrip_iff 26 1500 (qosMpdu 26) (by decide)).2 ⟨.inr rfl, by decide⟩

/-- A 4-address QoS header has 32 bytes. -/
theorem not_roundTrip_fourAddrQos : ¬ RoundTrips 32 (qosMpdu 32) 16 := by
  intro h
  have hid := h (fun _ b => b) (.replicate 16 0) fun _ => 0
  revert hid
  decide +kernel

end

end Rtw
