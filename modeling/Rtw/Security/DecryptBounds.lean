import Rtw.Lib.Access
import Rtw.Security.SwDecrypt

/-!
# The lengths of the software decryption

`validate_recv_data_frame` checks no length, so that the header, the IV and the integrity value are subtracted
from whatever the frame has. `aes_decipher` also moves on by two bytes behind a QoS header that is not 26 bytes
long, and works in a buffer of 2048 bytes. `decryptOk_iff` says which frames have room for all of it.
-/

namespace Rtw
open Access Traced

/-- The received frame, and the static buffer of `aes_decipher`. -/
inductive DecryptObj where
  | frame
  | message

/-- A length as an unsigned number. -/
def uintOf (length : Int) : Nat := (if length < 0 then length + 2 ^ 32 else length).toNat

/-- What `arcfour_encrypt` on the payload, `getcrc32` and the comparison of the ICV touch. -/
def arcfourIcvT (payload length : Int) : Traced DecryptObj Unit := do
  touch .frame payload (uintOf length)
  touch .frame payload (length - 4).toNat
  touch .frame (payload + length - 4) 4

section
variable (obj : DecryptObj) (a4 qc : Bool)

/-- What `construct_mic_iv` and `construct_ctr_preload` read, where they are called. -/
def nonceT (called : Prop) [Decidable called] : Traced DecryptObj Unit := do
  touchIf called obj 10 6
  touchIf (called ∧ qc ∧ a4) obj 30 1
  touchIf (called ∧ qc ∧ !a4) obj 24 1

/-- What `construct_mic_header1` and `construct_mic_header2` read. -/
def micHeaderT : Traced DecryptObj Unit := do
  touch obj 0 2
  touch obj 4 12
  touch obj 16 6
  touchIf a4 obj 24 6
  touchIf (qc ∧ !a4) obj 24 1
  touchIf (qc ∧ a4) obj 30 1

end

/-- `pn_vector` -/
def pnVectorT (hdrlen : Nat) : Traced DecryptObj Unit := do
  touch .frame hdrlen 2
  touch .frame (hdrlen + 4 : Nat) 4

/-- `aes_decipher`, with what it reads and writes. -/
def aesDecipherT (hdrlen : Nat) (fc : UInt8) (plen : Nat) : Traced DecryptObj Unit := do
  let n := uintSub8 plen
  let a4 := a4Exists hdrlen
  let qc := qcExists fc
  let h := adjHdrlen hdrlen fc
  let copied : Nat := (h + plen + 8) % 2 ^ 32
  let mic : Nat := (h + plen) % 2 ^ 32
  touch .frame 0 2
  pnVectorT hdrlen
  -- decrypt the payload
  nonceT .frame a4 qc (0 < n)
  touch .frame (h + 8 : Nat) n
  touchIf (copied ≤ maxMsgSize) .frame 0 copied
  touchIf (copied ≤ maxMsgSize) .message 0 copied
  pnVectorT h
  -- the MIC
  nonceT .message a4 qc True
  micHeaderT .message a4 qc
  touch .message (h + 8 : Nat) n
  touch .message (h + 8 + n : Nat) 8
  -- encrypt the payload and the MIC
  nonceT .message a4 qc True
  touch .message (h + 8 : Nat) n
  touch .message mic 8
  touch .message (h + 8 + n : Nat) 8
  -- compare the MIC
  touch .frame mic 8
  touch .message mic 8

namespace DataFrame

def length (f : DataFrame) : Int := f.len - f.hdrlen - iceIvLen f.encrypt

/-- `rtw_wep_decrypt`, with what it reads and writes. -/
def wepDecryptT (f : DataFrame) : Traced DecryptObj Unit := do
  touch .frame f.hdrlen 3
  arcfourIcvT (f.hdrlen + iceIvLen f.encrypt) f.length

/-- `rtw_tkip_decrypt` behind the choice of the key, with what it reads and writes. -/
def tkipDecryptT (f : DataFrame) : Traced DecryptObj Unit := do
  -- `GET_TKIP_PN`
  touch .frame f.hdrlen 1
  touch .frame (f.hdrlen + 2) 1
  touch .frame (f.hdrlen + 4) 4
  arcfourIcvT (f.hdrlen + iceIvLen f.encrypt) f.length

/-- The function that `decryptor` calls, with what it reads and writes. -/
def swDecryptT (s : SwKeys) (f : DataFrame) : Traced DecryptObj Unit :=
  match f.encrypt with
  | .wep40 | .wep104 => f.wepDecryptT
  | .tkip =>
    match f.tkipKey s with
    | none => pure ()
    | some _ => f.tkipDecryptT
  | .aes =>
    match f.aesKey s with
    | none => pure ()
    | some _ => aesDecipherT f.hdrlen (f.pframe 0) (uintOf f.length)
  | .noPrivacy | .tkipWtmic | .sms4 | .bip => pure ()

/-- The lengths that are subtracted on the way. -/
def lengths (s : SwKeys) (f : DataFrame) : List Int :=
  match f.encrypt with
  | .wep40 | .wep104 => [f.length, f.length - 4]
  | .tkip => if (f.tkipKey s).isSome then [f.length, f.length - 4] else []
  | .aes => if (f.aesKey s).isSome then [f.length, f.length - 8] else []
  | .noPrivacy | .tkipWtmic | .sms4 | .bip => []

/-- The sizes of the objects. -/
def objSize (f : DataFrame) : DecryptObj → Nat
  | .frame => f.len
  | .message => maxMsgSize

/-- No length falls below zero, and every byte that is read or written is in the frame, or in the buffer. -/
structure DecryptOk (s : SwKeys) (f : DataFrame) : Prop where
  lengths : ∀ l ∈ f.lengths s, 0 ≤ l
  within : Within f.objSize (f.swDecryptT s)

end DataFrame

section
variable {s : SwKeys} {f : DataFrame} {fc : UInt8} {hdrlen plen : Nat}

theorem within_arcfourIcvT {payload length : Int} (hlen : 4 ≤ length) (hpay : 0 ≤ payload)
    (hin : payload + length ≤ f.len) : Within f.objSize (arcfourIcvT payload length) := by
  have hlen' : (uintOf length : Int) = length := by
    unfold uintOf
    omega
  have hfour : ((length - 4).toNat : Int) = length - 4 := by omega
  simp only [arcfourIcvT, within_bind, within_touch, DataFrame.objSize, hlen', hfour]
  omega

section
variable {obj : DecryptObj} {a4 qc : Bool}

theorem within_nonceT (called : Prop) [Decidable called] (h : 31 ≤ f.objSize obj) :
    Within f.objSize (nonceT obj a4 qc called) := by
  simp only [nonceT, within_bind, within_touchIf, within_touch]
  exact ⟨fun _ => by omega, fun _ => by omega, fun _ => by omega⟩

theorem within_micHeaderT (h : 31 ≤ f.objSize obj) : Within f.objSize (micHeaderT obj a4 qc) := by
  simp only [micHeaderT, within_bind, within_touchIf, within_touch]
  exact ⟨by omega, by omega, by omega, fun _ => by omega, fun _ => by omega, fun _ => by omega⟩

theorem within_pnVectorT (h : hdrlen + 8 ≤ f.len) : Within f.objSize (pnVectorT hdrlen) := by
  simp only [pnVectorT, within_bind, within_touch_nat]
  exact ⟨.inr (by show _ ≤ f.len; omega), .inr (by show _ ≤ f.len; omega)⟩

end

/-- The last bytes of the MIC are behind everything else. -/
theorem within_aesDecipherT (h24 : 24 ≤ hdrlen) (hplen : 8 ≤ plen) :
    Within f.objSize (aesDecipherT hdrlen fc plen) ↔
      adjHdrlen hdrlen fc + plen + 8 ≤ f.len ∧ adjHdrlen hdrlen fc + plen + 8 ≤ maxMsgSize := by
  have hn : uintSub8 plen = plen - 8 := if_pos hplen
  have hle := le_adjHdrlen hdrlen fc
  constructor
  · intro h
    simp only [aesDecipherT, within_bind, hn] at h
    obtain ⟨-, -, -, -, -, -, -, -, -, -, hmessage, -, -, -, -, hframe, -⟩ := h
    rw [within_touch_nat] at hmessage hframe
    unfold DataFrame.objSize at hmessage hframe
    unfold maxMsgSize at *
    dsimp only at hmessage hframe
    omega
  · rintro ⟨hlen, hfit⟩
    have hmax : maxMsgSize = 2048 := rfl
    have hcopied : (adjHdrlen hdrlen fc + plen + 8) % 2 ^ 32 = adjHdrlen hdrlen fc + plen + 8 :=
      Nat.mod_eq_of_lt (by omega)
    have hmic : (adjHdrlen hdrlen fc + plen) % 2 ^ 32 = adjHdrlen hdrlen fc + plen := Nat.mod_eq_of_lt (by omega)
    have hframe : 31 ≤ f.objSize .frame := by show 31 ≤ f.len; omega
    have hmessage : 31 ≤ f.objSize .message := by show 31 ≤ maxMsgSize; omega
    have inFrame : ∀ off len, off + len ≤ f.len → Within f.objSize (touch .frame (off : Nat) len) :=
      fun off len h => within_touch_nat.2 (.inr h)
    have inMessage : ∀ off len, off + len ≤ maxMsgSize → Within f.objSize (touch .message (off : Nat) len) :=
      fun off len h => within_touch_nat.2 (.inr h)
    simp only [aesDecipherT, within_bind, hn, hcopied, hmic]
    refine ⟨inFrame 0 2 (by omega), within_pnVectorT (by omega), within_nonceT _ hframe, inFrame _ _ (by omega),
      within_touchIf.2 fun _ => inFrame 0 _ (by omega), within_touchIf.2 fun _ => inMessage 0 _ (by omega),
      within_pnVectorT (by omega), within_nonceT _ hmessage, within_micHeaderT hmessage, inMessage _ _ (by omega),
      inMessage _ _ (by omega), within_nonceT _ hmessage, inMessage _ _ (by omega), inMessage _ _ (by omega),
      inMessage _ _ (by omega), inFrame _ _ (by omega), inMessage _ _ (by omega)⟩

theorem icv_within (hlen : f.hdrlen + iceIvLen f.encrypt + 4 ≤ f.len) :
    (∀ l ∈ [f.length, f.length - 4], 0 ≤ l) ∧
      Within f.objSize (arcfourIcvT (f.hdrlen + iceIvLen f.encrypt) f.length) := by
  have hlength : f.length = f.len - f.hdrlen - iceIvLen f.encrypt := rfl
  refine ⟨fun l hl => ?_, within_arcfourIcvT (by omega) (by omega) (by omega)⟩
  rcases List.mem_pair.1 hl with rfl | rfl <;> omega

theorem le_of_icv (h : ∀ l ∈ [f.length, f.length - 4], 0 ≤ l) : f.hdrlen + iceIvLen f.encrypt + 4 ≤ f.len := by
  have hlength : f.length = f.len - f.hdrlen - iceIvLen f.encrypt := rfl
  have := h (f.length - 4) (List.mem_pair.2 (.inr rfl))
  omega

theorem decryptOk_of_idle (hreads : f.swDecryptT s = pure ()) (hlengths : f.lengths s = []) : f.DecryptOk s := by
  refine ⟨fun l hl => ?_, ?_⟩
  · rw [hlengths] at hl
    cases hl
  · rw [hreads]
    exact within_pure

theorem decryptOk_wep (h : f.encrypt = .wep40 ∨ f.encrypt = .wep104) : f.DecryptOk s ↔ f.hdrlen + 8 ≤ f.len := by
  have hice : iceIvLen f.encrypt = 4 := by rcases h with h | h <;> rw [h] <;> rfl
  have hlengths : f.lengths s = [f.length, f.length - 4] := by
    unfold DataFrame.lengths
    rcases h with h | h <;> rw [h]
  have hreads : f.swDecryptT s = f.wepDecryptT := by
    unfold DataFrame.swDecryptT
    rcases h with h | h <;> rw [h]
  constructor
  · rintro ⟨hlen, -⟩
    have := le_of_icv (hlengths ▸ hlen)
    omega
  · intro hlen
    obtain ⟨hl, hw⟩ := icv_within (f := f) (by omega)
    refine ⟨hlengths ▸ hl, ?_⟩
    rw [hreads, DataFrame.wepDecryptT, within_bind]
    exact ⟨within_touch_nat.2 (.inr (by show _ ≤ f.len; omega)), hw⟩

theorem decryptOk_tkip (h : f.encrypt = .tkip) :
    f.DecryptOk s ↔ ((f.tkipKey s).isSome → f.hdrlen + 12 ≤ f.len) := by
  have hice : iceIvLen f.encrypt = 8 := by rw [h]; rfl
  have hlengths : f.lengths s = if (f.tkipKey s).isSome then [f.length, f.length - 4] else [] := by
    unfold DataFrame.lengths
    rw [h]
  have hreads : f.swDecryptT s = match f.tkipKey s with
      | none => pure ()
      | some _ => f.tkipDecryptT := by
    unfold DataFrame.swDecryptT
    rw [h]
  cases hkey : f.tkipKey s with
  | none =>
    rw [hkey] at hlengths hreads
    exact iff_of_true (decryptOk_of_idle hreads hlengths) nofun
  | some key =>
    rw [hkey] at hlengths hreads
    constructor
    · rintro ⟨hlen, -⟩ -
      have := le_of_icv (hlengths ▸ hlen)
      omega
    · intro hlen
      have hlen := hlen rfl
      obtain ⟨hl, hw⟩ := icv_within (f := f) (by omega)
      refine ⟨hlengths ▸ hl, ?_⟩
      rw [hreads]
      simp only [DataFrame.tkipDecryptT, within_bind, within_touch]
      unfold DataFrame.objSize
      dsimp only
      exact ⟨by omega, by omega, by omega, hw⟩

theorem decryptOk_aes (h : f.encrypt = .aes) : f.DecryptOk s ↔ ((f.aesKey s).isSome →
    adjHdrlen f.hdrlen (f.pframe 0) = f.hdrlen ∧ f.hdrlen + 16 ≤ f.len ∧ f.len ≤ maxMsgSize) := by
  have hlength : f.length = f.len - f.hdrlen - 8 := by rw [DataFrame.length, h]; rfl
  have hlengths : f.lengths s = if (f.aesKey s).isSome then [f.length, f.length - 8] else [] := by
    unfold DataFrame.lengths
    rw [h]
  have hreads : f.swDecryptT s = match f.aesKey s with
      | none => pure ()
      | some _ => aesDecipherT f.hdrlen (f.pframe 0) (uintOf f.length) := by
    unfold DataFrame.swDecryptT
    rw [h]
  have h24 : 24 ≤ f.hdrlen := le_dataHdrlen f.qos f.order
  have hle := le_adjHdrlen f.hdrlen (f.pframe 0)
  cases hkey : f.aesKey s with
  | none =>
    rw [hkey] at hlengths hreads
    exact iff_of_true (decryptOk_of_idle hreads hlengths) nofun
  | some key =>
    rw [hkey] at hlengths hreads
    constructor
    · rintro ⟨hlen, hw⟩ -
      have hpos : 0 ≤ f.length - 8 := hlen _ (hlengths ▸ List.mem_pair.2 (.inr rfl))
      have hplen : (uintOf f.length : Int) = f.length := by
        unfold uintOf
        omega
      rw [hreads] at hw
      obtain ⟨hframe, hmessage⟩ := (within_aesDecipherT h24 (by omega)).1 hw
      exact ⟨by omega, by omega, by omega⟩
    · intro hcond
      obtain ⟨hadj, hlen, hfit⟩ := hcond rfl
      have hplen : (uintOf f.length : Int) = f.length := by
        unfold uintOf
        omega
      refine ⟨fun l hl => ?_, ?_⟩
      · rw [hlengths] at hl
        rcases List.mem_pair.1 hl with rfl | rfl <;> omega
      · rw [hreads]
        exact (within_aesDecipherT h24 (by omega)).2 ⟨by omega, by omega⟩

/-- The frame has room for the header, the IV and the integrity value, and for CCMP the header has the length
that `aes_decipher` expects and the frame fits in its buffer; this where there is a key at all. -/
theorem decryptOk_iff (s : SwKeys) (f : DataFrame) : f.DecryptOk s ↔
    match f.encrypt with
    | .wep40 | .wep104 => f.hdrlen + 8 ≤ f.len
    | .tkip => (f.tkipKey s).isSome → f.hdrlen + 12 ≤ f.len
    | .aes => (f.aesKey s).isSome →
        adjHdrlen f.hdrlen (f.pframe 0) = f.hdrlen ∧ f.hdrlen + 16 ≤ f.len ∧ f.len ≤ maxMsgSize
    | .noPrivacy | .tkipWtmic | .sms4 | .bip => True := by
  cases h : f.encrypt with
  | wep40 => exact decryptOk_wep (.inl h)
  | wep104 => exact decryptOk_wep (.inr h)
  | tkip => exact decryptOk_tkip h
  | aes => exact decryptOk_aes h
  | noPrivacy =>
    have hreads : f.swDecryptT s = pure () := by rw [DataFrame.swDecryptT, h]
    exact iff_of_true (decryptOk_of_idle hreads (by rw [DataFrame.lengths, h])) trivial
  | tkipWtmic =>
    have hreads : f.swDecryptT s = pure () := by rw [DataFrame.swDecryptT, h]
    exact iff_of_true (decryptOk_of_idle hreads (by rw [DataFrame.lengths, h])) trivial
  | sms4 =>
    have hreads : f.swDecryptT s = pure () := by rw [DataFrame.swDecryptT, h]
    exact iff_of_true (decryptOk_of_idle hreads (by rw [DataFrame.lengths, h])) trivial
  | bip =>
    have hreads : f.swDecryptT s = pure () := by rw [DataFrame.swDecryptT, h]
    exact iff_of_true (decryptOk_of_idle hreads (by rw [DataFrame.lengths, h])) trivial

/-- A WEP frame of 26 bytes has half an IV. -/
theorem not_decryptOk_short :
    ¬ (dataFrame .wep40 false false 26 fun _ => 0).DecryptOk (oneKey (.replicate 16 0) fun _ => 0) :=
  fun h => absurd (h.lengths (-2) (by decide)) (by decide)

end

end Rtw
