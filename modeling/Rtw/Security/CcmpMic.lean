import Rtw.Security.CcmpRoundTrip

/-!
# What a successful decryption proves

`MicOk` is the MIC check of CCMP on a frame: packet number and payload are where the header length says,
the MIC is the last 8 bytes. `micSound_iff` says for which header lengths, frame types and lengths
`aes_decipher` decides it, from this frame alone.
-/

namespace Rtw
open Ccm

/-- The MIC of the decrypted payload is the decrypted MIC of the frame. -/
def MicOk (E : AesKey → Block → Block) (key : AesKey) (hdrlen : Nat) (pframe : Mem) (plen : Nat) : Prop :=
  let qc := qcExists (pframe 0)
  let a4 := a4Exists hdrlen
  let pn := pnVector pframe hdrlen
  let n := plen - 8
  let dec := xorRange pframe (hdrlen + 8) n (payloadStream E key qc a4 pframe pn)
  8 ≤ plen ∧ ∀ (j : Nat) (hj : j < 8), getElem (calcMic E key qc a4 hdrlen dec pn n) j (by omega) =
    pframe (hdrlen + 8 + n + j) ^^^ getElem (E key (constructCtrPreload a4 qc pframe pn 0)) j (by omega)

/-- On the frames of a type and length, `aes_decipher` succeeds only if the MIC is right, and what an
earlier frame left in `message` makes no difference. -/
def MicSound (hdrlen : Nat) (fc : UInt8) (plen : Nat) : Prop :=
  ∀ E key (message message' pframe : Mem), pframe 0 = fc →
    ((aesDecipher E key hdrlen message pframe plen).res → MicOk E key hdrlen pframe plen) ∧
      (aesDecipher E key hdrlen message pframe plen).res = (aesDecipher E key hdrlen message' pframe plen).res

/-- Some frame of a type and length passes with a wrong MIC. -/
def Forged (hdrlen : Nat) (fc : UInt8) (plen : Nat) : Prop :=
  ∃ E key, ∃ message pframe : Mem, pframe 0 = fc ∧ (aesDecipher E key hdrlen message pframe plen).res ∧
    ¬ MicOk E key hdrlen pframe plen

section
variable {E : AesKey → Block → Block} {key : AesKey} {hdrlen n plen : Nat} {message pframe : Mem} {fc : UInt8}

theorem Forged.not_micSound (h : Forged hdrlen fc plen) : ¬ MicSound hdrlen fc plen := by
  obtain ⟨E, key, message, f, hfc, hres, hmic⟩ := h
  exact fun hs => hmic ((hs E key message message f hfc).1 hres)

theorem eq_xor_comm_iff (a b c : UInt8) : a = b ^^^ c ↔ c = a ^^^ b := by
  constructor
  · rintro rfl
    rw [UInt8.xor_comm b, UInt8.xor_assoc, UInt8.xor_self, UInt8.xor_zero]
  · rintro rfl
    rw [UInt8.xor_comm a, ← UInt8.xor_assoc, UInt8.xor_self, UInt8.zero_xor]

theorem ne_xor_xor_one (a b : UInt8) : a ≠ b ^^^ (a ^^^ b ^^^ 1) := by
  rw [UInt8.xor_comm a, UInt8.xor_assoc b, ← UInt8.xor_assoc b, UInt8.xor_self, UInt8.zero_xor]
  intro h
  rw [← UInt8.xor_zero (a := a), UInt8.xor_assoc, UInt8.xor_right_inj] at h
  exact absurd h (by decide)

/-- A frame in place, with its MIC in the buffer: `aes_decipher` decides the MIC. -/
theorem aesDecipher_res_iff_micOk (h24 : 24 ≤ hdrlen) (hadj : adjHdrlen hdrlen (pframe 0) = hdrlen)
    (hfit : hdrlen + (n + 8) + 8 ≤ maxMsgSize) :
    (aesDecipher E key hdrlen message pframe (n + 8)).res ↔ MicOk E key hdrlen pframe (n + 8) := by
  have hdec : (aesDecipher E key hdrlen message pframe (n + 8)).pframe = _ := aesDecipher_pframe h24
  rw [hadj] at hdec
  rw [aesDecipher_res h24 hadj.symm hdec.symm, MicOk]
  simp only [Nat.add_sub_cancel, Nat.le_add_left, true_and]
  refine forall₂_congr fun j hj => ?_
  rw [pnVector_congr pframe fun i hi => xorRange_of_lt hi,
    ccmpTag_congr h24 fun i hi => micBuffer_of_lt hfit (by omega), ccmpTag, xor_get,
    constructCtrPreload_congr pframe fun i hi => xorRange_of_lt (by omega),
    xorRange_of_ge (by omega), eq_xor_comm_iff]

/-- The block cipher that is 0 everywhere. -/
def zeroE (_ : AesKey) (_ : Block) : Block := .replicate 16 0

theorem cbcMac_zeroE {m : Mem} {off len : Nat} : cbcMac (zeroE key) m off len (.replicate 16 0) = .replicate 16 0 := by
  have hblocks : ∀ n off, cbcBlocks (zeroE key) m n off (.replicate 16 0) = .replicate 16 0 := by
    intro n
    induction n with
    | zero => exact fun _ => rfl
    | succ n ih => exact fun off => ih _
  unfold cbcMac
  rw [hblocks]
  split <;> rfl

theorem calcMic_zeroE {qc a4 : Bool} {m : Mem} {pn : Vector UInt8 6} :
    calcMic zeroE key qc a4 hdrlen m pn n = .replicate 16 0 := cbcMac_zeroE

theorem payloadStream_zeroE {qc a4 : Bool} {m : Mem} {pn : Vector UInt8 6} :
    payloadStream zeroE key qc a4 m pn = fun _ => 0 := by
  funext k
  simp only [payloadStream, keystream, zeroE, Vector.getElem_replicate]

theorem xorRange_zero {m : Mem} {off len : Nat} : xorRange m off len (fun _ => 0) = m := by
  funext i
  unfold xorRange
  split
  · exact UInt8.xor_zero
  · rfl

theorem xor_zeroE (b c : Block) : xor (zeroE key b) c = c := by
  refine Vector.ext fun i hi => ?_
  rw [xor_get, zeroE, Vector.getElem_replicate, UInt8.zero_xor]

/-- A QoS frame with a header of another length: the check is made two bytes behind the MIC. -/
theorem forged_shifted (h24 : 24 ≤ hdrlen) (hadj : adjHdrlen hdrlen fc ≠ hdrlen) : Forged hdrlen fc (n + 8) := by
  have hle := le_adjHdrlen hdrlen fc
  have hle2 := adjHdrlen_le hdrlen fc
  let f : Mem := fun i => if i = 0 then fc else if i = hdrlen + 8 + n then 1 else 0
  have hdec : f = (aesDecipher zeroE (.replicate 16 0) hdrlen f f (n + 8)).pframe := by
    rw [aesDecipher_pframe h24, payloadStream_zeroE, xorRange_zero]
  have hres : (aesDecipher zeroE (.replicate 16 0) hdrlen f f (n + 8)).res := by
    refine (aesDecipher_res h24 rfl hdec).2 fun j hj => ?_
    rw [ccmpTag, calcMic_zeroE, xor_zeroE, Vector.getElem_replicate]
    show f (adjHdrlen hdrlen fc + 8 + n + j) = 0
    exact (if_neg (by omega)).trans (if_neg (by omega))
  refine ⟨zeroE, .replicate 16 0, f, f, rfl, hres, fun hok => ?_⟩
  have hmic := hok.2 0 (by decide)
  have hone : f (hdrlen + 8 + n) = 1 := (if_neg (by omega)).trans (if_pos rfl)
  simp only [calcMic_zeroE, zeroE, Vector.getElem_replicate, UInt8.xor_zero, Nat.add_sub_cancel, Nat.add_zero,
    hone] at hmic
  exact absurd hmic (by decide)

/-- A frame too short for a MIC: the check compares the copy of the frame with the frame. -/
theorem forged_short (h24 : 24 ≤ hdrlen) (hplen : plen < 8) : Forged hdrlen fc plen := by
  have hle := le_adjHdrlen hdrlen fc
  let f : Mem := fun i => if i = 0 then fc else 0
  have hres : (aesDecipher zeroE (.replicate 16 0) hdrlen f f plen).res := by
    have hn : plen + 8 < uintSub8 plen := by rw [uintSub8, if_neg (by omega)]; omega
    have hcopy : ∀ len, copyTo f f len = f := fun len => by funext i; exact ite_self _
    have hadj : 24 ≤ adjHdrlen hdrlen (f 0) := Nat.le_trans h24 hle
    simp only [aesDecipher, crypt_eq hadj, payloadStream_zeroE, xorRange_zero, hcopy, ite_self,
      List.all_eq_true, List.mem_range, beq_iff_eq]
    intro i hi
    rcases Nat.lt_or_ge (adjHdrlen hdrlen (f 0) + plen + i) (adjHdrlen hdrlen (f 0) + 8) with hlt | hge
    · rw [protect_of_lt hadj hlt]
    · rw [protect_payload hadj hge (by omega), payloadStream_zeroE, UInt8.xor_zero]
  refine ⟨zeroE, .replicate 16 0, f, f, rfl, hres, fun hok => ?_⟩
  have := hok.1
  omega

/-- A frame of zeros with the MIC `tag`. -/
def taggedFrame (hdrlen : Nat) (fc : UInt8) (n : Nat) (tag : Block) : Mem :=
  store (fun i => if i = 0 then fc else 0) (hdrlen + 8 + n) 8 tag

theorem taggedFrame_of_lt {tag : Block} {i : Nat} (hi : i < hdrlen + 8 + n) :
    taggedFrame hdrlen fc n tag i = if i = 0 then fc else 0 := store_of_lt hi

theorem taggedFrame_mic {tag : Block} {j : Nat} (hj : j < 8) :
    taggedFrame hdrlen fc n tag (hdrlen + 8 + n + j) = getElem tag j (by omega) := by
  refine (store_of_mem (by omega) (by omega) (by omega)).trans ?_
  simp only [Nat.add_sub_cancel_left]

/-- A frame that is not copied passes when `message` gives the MIC it carries. -/
theorem res_taggedFrame (h24 : 24 ≤ hdrlen) (hadj : adjHdrlen hdrlen fc = hdrlen)
    (hlong : ¬ hdrlen + (n + 8) + 8 ≤ maxMsgSize) (tag : Block) :
    (aesDecipher E key hdrlen message (taggedFrame hdrlen fc n tag) (n + 8)).res ↔
      ∀ (j : Nat) (hj : j < 8), getElem tag j (by omega) =
        getElem (ccmpTag E key (qcExists fc) (a4Exists hdrlen) hdrlen message
          (pnVector (fun i => if i = 0 then fc else 0) hdrlen) n) j (by omega) := by
  have hf : ∀ i < hdrlen + 8, taggedFrame hdrlen fc n tag i = if i = 0 then fc else 0 :=
    fun i hi => taggedFrame_of_lt (by omega)
  have h0 : taggedFrame hdrlen fc n tag 0 = fc := hf 0 (by omega)
  have hadj0 : hdrlen = adjHdrlen hdrlen (taggedFrame hdrlen fc n tag 0) := by rw [h0, hadj]
  have hdec : (aesDecipher E key hdrlen message (taggedFrame hdrlen fc n tag) (n + 8)).pframe = _ :=
    aesDecipher_pframe h24
  rw [← hadj0] at hdec
  rw [aesDecipher_res h24 hadj0 hdec.symm, micBuffer_of_long hlong, h0]
  refine forall₂_congr fun j hj => ?_
  rw [xorRange_of_ge (by omega), taggedFrame_mic hj,
    pnVector_congr (fun i => if i = 0 then fc else 0) fun i hi => by rw [xorRange_of_lt hi, hf i hi]]

/-- Under a permutation, which AES is, a frame that is not copied passes with a wrong MIC. -/
theorem exists_forged_long (hE : Function.Surjective (E key)) (h24 : 24 ≤ hdrlen) (hadj : adjHdrlen hdrlen fc = hdrlen)
    (hlong : ¬ hdrlen + (n + 16 + 8) + 8 ≤ maxMsgSize) :
    ∃ message pframe : Mem, pframe 0 = fc ∧ (aesDecipher E key hdrlen message pframe (n + 16 + 8)).res ∧
      ¬ MicOk E key hdrlen pframe (n + 16 + 8) := by
  let hdr : Mem := fun i => if i = 0 then fc else 0
  let qc := qcExists fc
  let a4 := a4Exists hdrlen
  let pn := pnVector hdr hdrlen
  let dec := xorRange hdr (hdrlen + 8) (n + 16) (payloadStream E key qc a4 hdr pn)
  let tag := ccmpTag E key qc a4 hdrlen dec pn (n + 16)
  obtain ⟨message, -, htag⟩ := exists_ccmpTag_eq qc a4 n pn hE h24 hdr (tag.map (· ^^^ 1))
  let f := taggedFrame hdrlen fc (n + 16) (tag.map (· ^^^ 1))
  have hf : ∀ i < hdrlen + 8 + (n + 16), f i = hdr i := fun i hi => taggedFrame_of_lt hi
  have h0 : f 0 = fc := hf 0 (by omega)
  refine ⟨message, f, h0, (res_taggedFrame h24 hadj hlong _).2 fun j hj => by rw [htag], fun hok => ?_⟩
  have hmic := hok.2 0 (by decide)
  have hpn : pnVector f hdrlen = pn := pnVector_congr hdr fun i hi => hf i (by omega)
  have hstream : payloadStream E key qc a4 f pn = payloadStream E key qc a4 hdr pn :=
    payloadStream_congr hdr fun i hi => hf i (by omega)
  have hdec : ∀ i < hdrlen + 8 + (n + 16),
      xorRange f (hdrlen + 8) (n + 16) (payloadStream E key qc a4 f pn) i = dec i := by
    intro i hi
    rw [hstream]
    show xorRange f _ _ _ i = xorRange hdr _ _ _ i
    unfold xorRange
    rw [hf i hi]
  rw [h0, hpn, Nat.add_sub_cancel, calcMic_congr h24 hdec, eq_xor_comm_iff,
    show f (hdrlen + 8 + (n + 16) + 0) = _ from taggedFrame_mic (by decide), Vector.getElem_map,
    constructCtrPreload_congr dec fun i hi => (hf i (by omega)).trans (xorRange_of_lt (by omega)).symm] at hmic
  have htag0 : getElem tag 0 (by decide) = getElem (E key (constructCtrPreload a4 qc dec pn 0)) 0 (by decide) ^^^
      getElem (calcMic E key qc a4 hdrlen dec pn (n + 16)) 0 (by decide) := xor_get ..
  rw [htag0] at hmic
  exact ne_xor_xor_one _ _ hmic

theorem exists_res_of_long (E : AesKey → Block → Block) (key : AesKey) (h24 : 24 ≤ hdrlen)
    (hadj : adjHdrlen hdrlen fc = hdrlen)
    (hlong : ¬ hdrlen + (n + 8) + 8 ≤ maxMsgSize) (message : Mem) :
    ∃ pframe : Mem, pframe 0 = fc ∧ ∃ pn, ∀ message', (aesDecipher E key hdrlen message' pframe (n + 8)).res ↔
      ∀ (j : Nat) (hj : j < 8),
        getElem (ccmpTag E key (qcExists fc) (a4Exists hdrlen) hdrlen message pn n) j (by omega) =
        getElem (ccmpTag E key (qcExists fc) (a4Exists hdrlen) hdrlen message' pn n) j (by omega) := by
  let pn := pnVector (fun i => if i = 0 then fc else 0) hdrlen
  let tag := ccmpTag E key (qcExists fc) (a4Exists hdrlen) hdrlen message pn n
  refine ⟨taggedFrame hdrlen fc n tag, (taggedFrame_of_lt (by omega)).trans (if_pos rfl), pn, fun message' => ?_⟩
  exact res_taggedFrame h24 hadj hlong tag

/-- A frame that is not copied: the result depends on what is in `message`. -/
theorem not_micSound_long (h24 : 24 ≤ hdrlen) (hadj : adjHdrlen hdrlen fc = hdrlen)
    (hlong : ¬ hdrlen + (n + 8) + 8 ≤ maxMsgSize) : ¬ MicSound hdrlen fc (n + 8) := by
  intro h
  obtain ⟨f, h0, pn, hres⟩ :=
    exists_res_of_long (fun _ b => b) (.replicate 16 0) h24 hadj hlong fun _ => 0
  have hz := (hres fun _ => 0).2 fun _ _ => rfl
  rw [(h (fun _ b => b) (.replicate 16 0) (fun _ => 0) (fun i => if i = 18 then 1 else 0) f h0).2] at hz
  have h2 := (hres _).1 hz 2 (by decide)
  rw [ccmpTag_id_zero h24 fun _ _ => rfl, ccmpTag_id_zero h24 fun i hi => if_neg hi] at h2
  exact absurd h2 (by decide)

/-- It does so with every block cipher that is a permutation, as AES is. -/
theorem exists_res_ne_of_long (hE : Function.Surjective (E key)) (h24 : 24 ≤ hdrlen)
    (hadj : adjHdrlen hdrlen fc = hdrlen) (hlong : ¬ hdrlen + (n + 16 + 8) + 8 ≤ maxMsgSize) (message : Mem) :
    ∃ message' pframe : Mem, pframe 0 = fc ∧ (aesDecipher E key hdrlen message pframe (n + 16 + 8)).res ∧
      ¬ (aesDecipher E key hdrlen message' pframe (n + 16 + 8)).res := by
  obtain ⟨f, h0, pn, hres⟩ := exists_res_of_long E key h24 hadj hlong message
  -- old contents with another tag
  let tag := ccmpTag E key (qcExists fc) (a4Exists hdrlen) hdrlen message pn (n + 16)
  obtain ⟨message', -, htag⟩ :=
    exists_ccmpTag_eq (qcExists fc) (a4Exists hdrlen) n pn hE h24 message (tag.map (· ^^^ 1))
  refine ⟨message', f, h0, (hres message).2 fun _ _ => rfl, fun h => ?_⟩
  have h1 := (hres message').1 h 0 (by decide)
  rw [htag, Vector.getElem_map] at h1
  rw [eq_comm, ← UInt8.xor_zero (a := getElem _ _ _), UInt8.xor_assoc, UInt8.xor_right_inj] at h1
  exact absurd h1 (by decide)

/-- `aes_decipher` decides the MIC of a frame exactly when the header length is the one of its type, the
frame has room for a MIC and fits in `message`. -/
theorem micSound_iff (hdrlen : Nat) (fc : UInt8) (plen : Nat) (h24 : 24 ≤ hdrlen) :
    MicSound hdrlen fc plen ↔
      adjHdrlen hdrlen fc = hdrlen ∧ 8 ≤ plen ∧ hdrlen + plen + 8 ≤ maxMsgSize := by
  rcases Nat.lt_or_ge plen 8 with hplen | hplen
  · exact ⟨fun h => absurd h (forged_short h24 hplen).not_micSound, fun h => absurd h.2.1 (by omega)⟩
  obtain ⟨n, rfl⟩ := Nat.exists_eq_add_of_le' hplen
  constructor
  · intro h
    by_cases hadj : adjHdrlen hdrlen fc = hdrlen
    · refine ⟨hadj, hplen, ?_⟩
      by_contra hlong
      exact not_micSound_long h24 hadj hlong h
    · exact absurd h (forged_shifted h24 hadj).not_micSound
  · rintro ⟨hadj, -, hfit⟩ E key message message' f rfl
    exact ⟨(aesDecipher_res_iff_micOk h24 hadj hfit).1, Bool.eq_iff_iff.2
      ((aesDecipher_res_iff_micOk h24 hadj hfit).trans (aesDecipher_res_iff_micOk h24 hadj hfit).symm)⟩

theorem micSound_qosData : MicSound 26 0x88 1536 := (micSound_iff 26 0x88 1536 (by decide)).2 (by decide)

/-- A QoS data frame of 2134 bytes, which an A-MSDU reaches. -/
theorem not_micSound_amsdu : ¬ MicSound 26 0x88 2100 :=
  not_micSound_long (n := 2092) (by decide) (by decide) (by decide)

end

end Rtw
