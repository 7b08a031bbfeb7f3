import Rtw.Security.CcmpMic
import Rtw.Security.Wep

/-!
# Software decryption of data frames

`decryptor` with the three ciphers. TKIP compares the ICV and CCMP the MIC; `rtw_wep_decrypt` compares the ICV
too, but returns nothing, so that a WEP frame is passed on in any case. `swSound_iff` says for which frames only
those with the right integrity value are passed on, over all contents and keys.
-/

namespace Rtw
open Ccm

/-! ### TKIP -/

/-- `Sbox1[0]`; `Sbox1[1]` has the same words with their bytes exchanged. -/
def sbox1 : Array UInt16 := #[
  0xc6a5, 0xf884, 0xee99, 0xf68d, 0xff0d, 0xd6bd, 0xdeb1, 0x9154, 0x6050, 0x0203, 0xcea9, 0x567d,
  0xe719, 0xb562, 0x4de6, 0xec9a, 0x8f45, 0x1f9d, 0x8940, 0xfa87, 0xef15, 0xb2eb, 0x8ec9, 0xfb0b,
  0x41ec, 0xb367, 0x5ffd, 0x45ea, 0x23bf, 0x53f7, 0xe496, 0x9b5b, 0x75c2, 0xe11c, 0x3dae, 0x4c6a,
  0x6c5a, 0x7e41, 0xf502, 0x834f, 0x685c, 0x51f4, 0xd134, 0xf908, 0xe293, 0xab73, 0x6253, 0x2a3f,
  0x080c, 0x9552, 0x4665, 0x9d5e, 0x3028, 0x37a1, 0x0a0f, 0x2fb5, 0x0e09, 0x2436, 0x1b9b, 0xdf3d,
  0xcd26, 0x4e69, 0x7fcd, 0xea9f, 0x121b, 0x1d9e, 0x5874, 0x342e, 0x362d, 0xdcb2, 0xb4ee, 0x5bfb,
  0xa4f6, 0x764d, 0xb761, 0x7dce, 0x527b, 0xdd3e, 0x5e71, 0x1397, 0xa6f5, 0xb968, 0x0000, 0xc12c,
  0x4060, 0xe31f, 0x79c8, 0xb6ed, 0xd4be, 0x8d46, 0x67d9, 0x724b, 0x94de, 0x98d4, 0xb0e8, 0x854a,
  0xbb6b, 0xc52a, 0x4fe5, 0xed16, 0x86c5, 0x9ad7, 0x6655, 0x1194, 0x8acf, 0xe910, 0x0406, 0xfe81,
  0xa0f0, 0x7844, 0x25ba, 0x4be3, 0xa2f3, 0x5dfe, 0x80c0, 0x058a, 0x3fad, 0x21bc, 0x7048, 0xf104,
  0x63df, 0x77c1, 0xaf75, 0x4263, 0x2030, 0xe51a, 0xfd0e, 0xbf6d, 0x814c, 0x1814, 0x2635, 0xc32f,
  0xbee1, 0x35a2, 0x88cc, 0x2e39, 0x9357, 0x55f2, 0xfc82, 0x7a47, 0xc8ac, 0xbae7, 0x322b, 0xe695,
  0xc0a0, 0x1998, 0x9ed1, 0xa37f, 0x4466, 0x547e, 0x3bab, 0x0b83, 0x8cca, 0xc729, 0x6bd3, 0x283c,
  0xa779, 0xbce2, 0x161d, 0xad76, 0xdb3b, 0x6456, 0x744e, 0x141e, 0x92db, 0x0c0a, 0x486c, 0xb8e4,
  0x9f5d, 0xbd6e, 0x43ef, 0xc4a6, 0x39a8, 0x31a4, 0xd337, 0xf28b, 0xd532, 0x8b43, 0x6e59, 0xdab7,
  0x018c, 0xb164, 0x9cd2, 0x49e0, 0xd8b4, 0xacfa, 0xf307, 0xcf25, 0xcaaf, 0xf48e, 0x47e9, 0x1018,
  0x6fd5, 0xf088, 0x4a6f, 0x5c72, 0x3824, 0x57f1, 0x73c7, 0x9751, 0xcb23, 0xa17c, 0xe89c, 0x3e21,
  0x96dd, 0x61dc, 0x0d86, 0x0f85, 0xe090, 0x7c42, 0x71c4, 0xccaa, 0x90d8, 0x0605, 0xf701, 0x1c12,
  0xc2a3, 0x6a5f, 0xaef9, 0x69d0, 0x1791, 0x9958, 0x3a27, 0x27b9, 0xd938, 0xeb13, 0x2bb3, 0x2233,
  0xd2bb, 0xa970, 0x0789, 0x33a7, 0x2db6, 0x3c22, 0x1592, 0xc920, 0x8749, 0xaaff, 0x5078, 0xa57a,
  0x038f, 0x59f8, 0x0980, 0x1a17, 0x65da, 0xd731, 0x84c6, 0xd0b8, 0x82c3, 0x29b0, 0x5a77, 0x1e11,
  0x7bcb, 0xa8fc, 0x6dd6, 0x2c3a]

/-- `_S_` -/
def tkipS (v16 : UInt16) : UInt16 :=
  let hi := sbox1.getD (v16 >>> 8).toNat 0
  sbox1.getD (v16 &&& 0x00ff).toNat 0 ^^^ ((hi >>> 8) ||| (hi <<< 8))

def rotR1 (v16 : UInt16) : UInt16 := ((v16 >>> 1) &&& (0x7fff : UInt16)) ^^^ ((v16 &&& (1 : UInt16)) <<< 15)

def mk16 (hi lo : UInt8) : UInt16 := lo.toUInt16 ^^^ (hi.toUInt16 <<< 8)

def tk16 (tk : AesKey) (n : Nat) : UInt16 := mk16 (tk[2 * n + 1]?.getD 0) (tk[2 * n]?.getD 0)

/-- The 16-bit words of the transmitter address. -/
def ta16 (ta : MacAddr) (n : Nat) : UInt16 := mk16 (ta[2 * n + 1]?.getD 0) (ta[2 * n]?.getD 0)

/-- One round of `phase1`. -/
def phase1Round (tk : AesKey) (p : Vector UInt16 5) (i : Nat) : Vector UInt16 5 :=
  let p0 := p[0] + tkipS (p[4] ^^^ tk16 tk (i % 2))
  let p1 := p[1] + tkipS (p0 ^^^ tk16 tk (i % 2 + 2))
  let p2 := p[2] + tkipS (p1 ^^^ tk16 tk (i % 2 + 4))
  let p3 := p[3] + tkipS (p2 ^^^ tk16 tk (i % 2 + 6))
  let p4 := p[4] + tkipS (p3 ^^^ tk16 tk (i % 2)) + UInt16.ofNat i
  #v[p0, p1, p2, p3, p4]

def phase1 (tk : AesKey) (ta : MacAddr) (iv32 : UInt32) : Vector UInt16 5 :=
  (List.range 8).foldl (phase1Round tk)
    #v[iv32.toUInt16, (iv32 >>> 16).toUInt16, ta16 ta 0, ta16 ta 1, ta16 ta 2]

def phase2 (tk : AesKey) (p : Vector UInt16 5) (iv16 : UInt16) : List UInt8 :=
  let k5 := p[4] + iv16
  let k0 := p[0] + tkipS (k5 ^^^ tk16 tk 0)
  let k1 := p[1] + tkipS (k0 ^^^ tk16 tk 1)
  let k2 := p[2] + tkipS (k1 ^^^ tk16 tk 2)
  let k3 := p[3] + tkipS (k2 ^^^ tk16 tk 3)
  let k4 := p[4] + tkipS (k3 ^^^ tk16 tk 4)
  let k5 := k5 + tkipS (k4 ^^^ tk16 tk 5)
  let k0 := k0 + rotR1 (k5 ^^^ tk16 tk 6)
  let k1 := k1 + rotR1 (k0 ^^^ tk16 tk 7)
  let k2 := k2 + rotR1 k1
  let k3 := k3 + rotR1 k2
  let k4 := k4 + rotR1 k3
  let k5 := k5 + rotR1 k4
  let hi8 := (iv16 >>> 8).toUInt8
  [hi8, (hi8 ||| 0x20) &&& 0x7f, iv16.toUInt8, ((k5 ^^^ tk16 tk 0) >>> 1).toUInt8] ++
    [k0, k1, k2, k3, k4, k5].flatMap fun (k : UInt16) => [k.toUInt8, (k >>> 8).toUInt8]

/-- `rc4key`, from the IV in front of `body`. -/
def tkipRc4key (prwskey : AesKey) (ta : MacAddr) (body : List UInt8) : List UInt8 :=
  let iv (i : Nat) : UInt8 := body[i]?.getD 0
  let pnl := mk16 (iv 0) (iv 2)
  let pnh := (mk16 (iv 5) (iv 4)).toUInt32 ||| ((mk16 (iv 7) (iv 6)).toUInt32 <<< 16)
  phase2 prwskey (phase1 prwskey ta pnh) pnl

/-- The body that `rtw_tkip_decrypt` leaves of one that starts with the IV. -/
def tkipBody (prwskey : AesKey) (ta : MacAddr) (body : List UInt8) : List UInt8 :=
  body.take 8 ++ arcfourEncrypt (arcfourInit (tkipRc4key prwskey ta body)) (body.drop 8)

/-- The comparison of `crc` with the last four bytes, which reach into the IV in front of a shorter payload. -/
def icvMatches (body : List UInt8) (ivLen : Nat) : Bool :=
  let payload := body.drop ivLen
  body.drop (body.length - 4) = crcBytes (getcrc32 (payload.take (payload.length - 4)))

/-! ### The frame and the keys -/

/-- `SET_ICE_IV_LEN` -/
def iceIvLen : PrivacyAlg → Nat
  | .wep40 | .wep104 => 4
  | .tkip | .aes => 8
  | .sms4 => 18
  | _ => 0

/-- The header length that `validate_recv_data_frame` leaves; it refuses frames with four addresses. -/
def dataHdrlen (qos order : Bool) : Nat := (if qos then 26 else 24) + if order then 4 else 0

/-- A data frame behind `validate_recv_data_frame`, with what is behind it in memory. -/
structure DataFrame where
  encrypt : PrivacyAlg
  qos : Bool
  order : Bool
  bdecrypted : Bool
  ra : MacAddr
  ta : MacAddr
  len : Nat
  pframe : Mem

/-- What the functions look up, and the static buffer of `aes_decipher`. -/
structure SwKeys where
  swDecrypt : Bool
  /-- `dot11DefKey` with `dot11DefKeylen` -/
  defKeys : DefKeys
  binstallGrpkey : Bool
  /-- `dot118021XGrpKeyid` -/
  grpKeyid : Nat
  /-- `dot118021XGrpKey` -/
  grpKey : Fin 4 → AesKey
  /-- `dot118021x_UncstKey` of the station with an address -/
  uncstKey : MacAddr → Option AesKey
  message : Mem

/-- What becomes of the frame; in the last case a length falls below zero, and the function runs through the
whole memory behind the frame. -/
inductive SwResult where
  | passed (pframe : Mem)
  | dropped
  | overrun

namespace DataFrame

def hdrlen (f : DataFrame) : Nat := dataHdrlen f.qos f.order

/-- What is behind the header. -/
def body (f : DataFrame) : List UInt8 := (List.range (f.len - f.hdrlen)).map fun i => f.pframe (f.hdrlen + i)

/-- The memory with another body. -/
def setBody (f : DataFrame) (body : List UInt8) : Mem := fun i =>
  if f.hdrlen ≤ i then (body[i - f.hdrlen]?).getD (f.pframe i) else f.pframe i

theorem keyIndex_lt (b : UInt8) : b.toNat / 64 < 4 := Nat.div_lt_of_lt_mul b.toNat_lt

def keyIndex (f : DataFrame) : Fin 4 := ⟨(f.pframe (f.hdrlen + 3)).toNat / 64, keyIndex_lt _⟩

/-- There is no room for the IV. -/
def Short (f : DataFrame) : Prop := f.len < f.hdrlen + iceIvLen f.encrypt

instance (f : DataFrame) : Decidable f.Short := inferInstanceAs (Decidable (_ < _))

def rtwWepDecrypt (s : SwKeys) (f : DataFrame) : SwResult :=
  if f.Short then .overrun else .passed (f.setBody (Rtw.rtwWepDecrypt s.defKeys f.body).1)

/-- The key of `rtw_tkip_decrypt`. -/
def tkipKey (s : SwKeys) (f : DataFrame) : Option AesKey :=
  (s.uncstKey f.ta).bind fun uncst =>
    if f.ra.isMcast then if s.binstallGrpkey then some (s.grpKey f.keyIndex) else none else some uncst

def rtwTkipDecrypt (s : SwKeys) (f : DataFrame) : SwResult :=
  match f.tkipKey s with
  | none => .dropped
  | some prwskey =>
    if f.Short then .overrun
    else
      let body := tkipBody prwskey f.ta f.body
      if icvMatches body 8 then .passed (f.setBody body) else .dropped

/-- The key of `rtw_aes_decrypt`. -/
def aesKey (s : SwKeys) (f : DataFrame) : Option AesKey :=
  (s.uncstKey f.ta).bind fun uncst =>
    if f.ra.isMcast then
      if s.binstallGrpkey ∧ s.grpKeyid = f.keyIndex.val then some (s.grpKey f.keyIndex) else none
    else some uncst

def rtwAesDecrypt (E : AesKey → Block → Block) (s : SwKeys) (f : DataFrame) : SwResult :=
  match f.aesKey s with
  | none => .dropped
  | some prwskey =>
    if f.Short then .overrun
    else
      let r := aesDecipher E prwskey f.hdrlen s.message f.pframe (f.len - f.hdrlen - iceIvLen f.encrypt)
      if r.res then .passed r.pframe else .dropped

/-- The frame takes the software path of `decryptor`. -/
def TakesSw (s : SwKeys) (f : DataFrame) : Prop := f.encrypt ≠ .noPrivacy ∧ (f.bdecrypted = false ∨ s.swDecrypt = true)

instance (s : SwKeys) (f : DataFrame) : Decidable (f.TakesSw s) := inferInstanceAs (Decidable (_ ∧ _))

def decryptor (E : AesKey → Block → Block) (s : SwKeys) (f : DataFrame) : SwResult :=
  if f.TakesSw s then
    match f.encrypt with
    | .wep40 | .wep104 => f.rtwWepDecrypt s
    | .tkip => f.rtwTkipDecrypt s
    | .aes => f.rtwAesDecrypt E s
    | .noPrivacy | .tkipWtmic | .sms4 | .bip => .passed f.pframe
  else .passed f.pframe

/-- The integrity value of the cipher, over what the key of the frame decrypts it to, is the one that the frame
carries. -/
def IntegrityOk (E : AesKey → Block → Block) (s : SwKeys) (f : DataFrame) : Prop :=
  match f.encrypt with
  | .wep40 | .wep104 => IcvValid ((Rtw.rtwWepDecrypt s.defKeys f.body).1.drop 4)
  | .tkip => ∃ key, f.tkipKey s = some key ∧ IcvValid ((tkipBody key f.ta f.body).drop 8)
  | .aes => ∃ key, f.aesKey s = some key ∧ MicOk E key f.hdrlen f.pframe (f.len - f.hdrlen - 8)
  | .noPrivacy | .tkipWtmic | .sms4 | .bip => True

end DataFrame

/-- Of the frames of a cipher, header and length, the software path passes on only those with the right integrity
value, whatever their contents and the keys are. -/
def SwSound (encrypt : PrivacyAlg) (qos order : Bool) (fc : UInt8) (len : Nat) : Prop :=
  ∀ E (s : SwKeys) (f : DataFrame), f.encrypt = encrypt → f.qos = qos → f.order = order → f.pframe 0 = fc →
    f.len = len → f.TakesSw s → ∀ pframe, f.decryptor E s = .passed pframe → f.IntegrityOk E s

section
variable {E : AesKey → Block → Block} {s : SwKeys} {f : DataFrame} {qos order : Bool} {fc : UInt8} {len : Nat}
  {iv payload body : List UInt8} {key : AesKey} {ta : MacAddr} {encrypt : PrivacyAlg}

theorem le_dataHdrlen (qos order : Bool) : 24 ≤ dataHdrlen qos order := by
  unfold dataHdrlen
  split <;> omega

theorem dataHdrlen_le (qos order : Bool) : dataHdrlen qos order ≤ 30 := by
  unfold dataHdrlen
  split <;> split <;> omega

/-! ### Frames -/

/-- A frame that the software path takes. -/
def dataFrame (encrypt : PrivacyAlg) (qos order : Bool) (len : Nat) (pframe : Mem) : DataFrame :=
  { encrypt, qos, order, bdecrypted := false, ra := .replicate 6 2, ta := .replicate 6 4, len, pframe }

/-- A station with one key, and nothing else. -/
def oneKey (key : AesKey) (message : Mem) : SwKeys where
  swDecrypt := false
  defKeys _ := []
  binstallGrpkey := false
  grpKeyid := 0
  grpKey _ := key
  uncstKey _ := some key
  message := message

/-- A header of zeros, but for its first byte, and a body. -/
def frameMem (hdrlen : Nat) (fc : UInt8) (body : List UInt8) : Mem := fun i =>
  if i < hdrlen then if i = 0 then fc else 0 else (body[i - hdrlen]?).getD 0

theorem body_frameMem (h : len = dataHdrlen qos order + body.length) :
    (dataFrame encrypt qos order len (frameMem (dataHdrlen qos order) fc body)).body = body := by
  unfold DataFrame.body
  show List.map _ (List.range (len - dataHdrlen qos order)) = body
  rw [h, Nat.add_sub_cancel_left]
  refine List.ext_getElem (by simp) fun i hi hi' => ?_
  rw [List.getElem_map, List.getElem_range]
  show frameMem (dataHdrlen qos order) fc body (dataHdrlen qos order + i) = _
  rw [frameMem, if_neg (by omega), Nat.add_sub_cancel_left, List.getElem?_eq_getElem hi']
  rfl

theorem frameMem_zero : frameMem (dataHdrlen qos order) fc body 0 = fc := by
  have := le_dataHdrlen qos order
  rw [frameMem, if_pos (by omega), if_pos rfl]

theorem takesSw_dataFrame (message pframe : Mem) (h : encrypt ≠ .noPrivacy) :
    (dataFrame encrypt qos order len pframe).TakesSw (oneKey key message) := ⟨h, .inl rfl⟩

theorem unicast_dataFrame (pframe : Mem) : (dataFrame encrypt qos order len pframe).ra.isMcast = false :=
  (by decide : MacAddr.isMcast (Vector.replicate 6 2) = false)

theorem tkipKey_dataFrame (message pframe : Mem) :
    (dataFrame encrypt qos order len pframe).tkipKey (oneKey key message) = some key :=
  (Option.bind_some ..).trans (if_neg (by rw [unicast_dataFrame]; exact Bool.false_ne_true))

theorem aesKey_dataFrame (message pframe : Mem) :
    (dataFrame encrypt qos order len pframe).aesKey (oneKey key message) = some key :=
  (Option.bind_some ..).trans (if_neg (by rw [unicast_dataFrame]; exact Bool.false_ne_true))

theorem exists_not_icvValid (n : Nat) : ∃ payload : List UInt8, payload.length = n ∧ ¬ IcvValid payload := by
  rcases Nat.lt_or_ge n 4 with hn | hn
  · refine ⟨.replicate n 0, List.length_replicate, fun h => ?_⟩
    have := h.1
    rw [List.length_replicate] at this
    omega
  · have hlen : ∀ b : UInt8, (List.replicate (n - 4) (0 : UInt8) ++ List.replicate 4 b).length = n := by
      intro b
      rw [List.length_append, List.length_replicate, List.length_replicate]
      omega
    have hicv : ∀ b : UInt8, IcvValid (List.replicate (n - 4) (0 : UInt8) ++ List.replicate 4 b) →
        List.replicate 4 b = crcBytes (getcrc32 (List.replicate (n - 4) 0)) := by
      intro b h
      have h := h.2
      rwa [hlen, List.drop_left' List.length_replicate, List.take_left' List.length_replicate] at h
    by_cases h0 : IcvValid (List.replicate (n - 4) (0 : UInt8) ++ List.replicate 4 0)
    · refine ⟨_, hlen 1, fun h1 => ?_⟩
      exact absurd ((hicv 0 h0).trans (hicv 1 h1).symm) (by decide)
    · exact ⟨_, hlen 0, h0⟩

/-! ### WEP -/

/-- What decryption leaves of an encrypted body, with the right ICV or not. -/
theorem rtwWepDecrypt_arcfour (keys : DefKeys) (payload : List UInt8) (h : iv.length = 4) :
    (rtwWepDecrypt keys (iv ++ arcfourEncrypt (arcfourInit (wepKey keys iv)) payload)).1 = iv ++ payload := by
  unfold rtwWepDecrypt
  dsimp only
  rw [wepKey_append h, List.drop_left' h, List.take_left' h, arcfourEncrypt_arcfourEncrypt]

theorem not_swSound_wep (henc : encrypt = .wep40 ∨ encrypt = .wep104) (hlen : dataHdrlen qos order + 4 ≤ len) :
    ¬ SwSound encrypt qos order fc len := by
  intro h
  obtain ⟨payload, hpay, hicv⟩ := exists_not_icvValid (len - dataHdrlen qos order - 4)
  let iv : List UInt8 := .replicate 4 0
  let s := oneKey (.replicate 16 0) fun _ => 0
  let body := iv ++ arcfourEncrypt (arcfourInit (wepKey s.defKeys iv)) payload
  let f := dataFrame encrypt qos order len (frameMem (dataHdrlen qos order) fc body)
  have hbodylen : body.length = 4 + payload.length := by
    rw [List.length_append, length_arcfourEncrypt, List.length_replicate]
  have hbody : f.body = body := body_frameMem (by omega)
  have hshort : ¬ f.Short := by
    show ¬ len < dataHdrlen qos order + iceIvLen encrypt
    rcases henc with rfl | rfl
    · exact Nat.not_lt.2 hlen
    · exact Nat.not_lt.2 hlen
  have hpass : f.rtwWepDecrypt s = .passed (f.setBody (rtwWepDecrypt s.defKeys f.body).1) := if_neg hshort
  have hdec : (rtwWepDecrypt s.defKeys f.body).1.drop 4 = payload := by
    rw [hbody, rtwWepDecrypt_arcfour _ _ List.length_replicate, List.drop_left' List.length_replicate]
  refine hicv (hdec ▸ ?_)
  rcases henc with rfl | rfl
  · exact h (fun _ b => b) s f rfl rfl rfl frameMem_zero rfl (takesSw_dataFrame _ _ (by decide)) _ hpass
  · exact h (fun _ b => b) s f rfl rfl rfl frameMem_zero rfl (takesSw_dataFrame _ _ (by decide)) _ hpass

/-! ### TKIP -/

theorem tkipRc4key_append (h : iv.length = 8) : tkipRc4key key ta (iv ++ payload) = tkipRc4key key ta iv := by
  match iv, h with
  | [_, _, _, _, _, _, _, _], _ => rfl

theorem tkipBody_arcfour (payload : List UInt8) (h : iv.length = 8) :
    tkipBody key ta (iv ++ arcfourEncrypt (arcfourInit (tkipRc4key key ta iv)) payload) = iv ++ payload := by
  unfold tkipBody
  rw [tkipRc4key_append h, List.drop_left' h, List.take_left' h, arcfourEncrypt_arcfourEncrypt]

theorem length_tkipBody : (tkipBody key ta body).length = body.length := by
  unfold tkipBody
  rw [List.length_append, length_arcfourEncrypt, List.length_take, List.length_drop]
  omega

/-- Behind an IV with room for the ICV the comparison decides it. -/
theorem icvValid_of_icvMatches (hlen : 12 ≤ body.length) (h : icvMatches body 8 = true) : IcvValid (body.drop 8) := by
  have h := of_decide_eq_true h
  refine ⟨by rw [List.length_drop]; omega, ?_⟩
  rw [← h, List.drop_drop, List.length_drop]
  congr 1
  omega

/-- A frame of zeros passes when it is too short for an ICV. -/
theorem not_swSound_tkip (hlen : dataHdrlen qos order + 8 ≤ len) (hshort : len < dataHdrlen qos order + 12) :
    ¬ SwSound .tkip qos order fc len := by
  intro h
  let n := len - dataHdrlen qos order - 8
  let key : AesKey := .replicate 16 0
  let iv : List UInt8 := .replicate 8 0
  let s := oneKey key fun _ => 0
  let body := iv ++ arcfourEncrypt (arcfourInit (tkipRc4key key (.replicate 6 4) iv)) (.replicate n 0)
  let f := dataFrame .tkip qos order len (frameMem (dataHdrlen qos order) fc body)
  have hbodylen : body.length = 8 + n := by
    rw [List.length_append, length_arcfourEncrypt, List.length_replicate, List.length_replicate]
  have hbody : f.body = body := body_frameMem (by omega)
  have hdec : tkipBody key f.ta f.body = List.replicate (8 + n) 0 := by
    rw [hbody, List.replicate_add]
    exact tkipBody_arcfour _ List.length_replicate
  have hnot : ¬ f.Short := Nat.not_lt.2 hlen
  have hmatch : icvMatches (List.replicate (8 + n) 0) 8 = true := by
    refine decide_eq_true ?_
    rw [List.length_replicate, List.drop_replicate, List.drop_replicate, List.length_replicate, List.take_replicate,
      show 8 + n - (8 + n - 4) = 4 by omega, show min (8 + n - 8 - 4) (8 + n - 8) = 0 by omega]
    decide
  have hpass : f.rtwTkipDecrypt s = .passed (f.setBody (.replicate (8 + n) 0)) := by
    unfold DataFrame.rtwTkipDecrypt
    rw [show f.tkipKey s = some key from tkipKey_dataFrame ..]
    dsimp only
    rw [if_neg hnot, hdec, if_pos hmatch]
  obtain ⟨k, hk, hicv⟩ :=
    h (fun _ b => b) s f rfl rfl rfl frameMem_zero rfl (takesSw_dataFrame _ _ (by decide)) _ hpass
  have := hicv.1
  rw [List.length_drop, length_tkipBody, hbody, hbodylen] at this
  omega

theorem swSound_tkip (hlen : dataHdrlen qos order + 12 ≤ len) : SwSound .tkip qos order fc len := by
  intro E s f henc hqos horder hfc hflen hsw pframe hpass
  have hhdr : f.hdrlen = dataHdrlen qos order := by rw [DataFrame.hdrlen, hqos, horder]
  unfold DataFrame.decryptor at hpass
  rw [if_pos hsw, henc] at hpass
  unfold DataFrame.IntegrityOk
  rw [henc]
  dsimp only at hpass ⊢
  unfold DataFrame.rtwTkipDecrypt at hpass
  cases hkey : f.tkipKey s with
  | none =>
    rw [hkey] at hpass
    cases hpass
  | some key =>
    rw [hkey] at hpass
    dsimp only at hpass
    split at hpass
    · cases hpass
    · split at hpass
      · rename_i hm
        refine ⟨key, rfl, icvValid_of_icvMatches ?_ hm⟩
        rw [length_tkipBody, DataFrame.body, List.length_map, List.length_range, hhdr]
        omega
      · cases hpass

/-! ### CCMP -/

theorem forged_of_not {hdrlen plen : Nat} (h24 : 24 ≤ hdrlen) (h30 : hdrlen ≤ 30)
    (h : ¬ (adjHdrlen hdrlen fc = hdrlen ∧ 8 ≤ plen ∧ hdrlen + plen + 8 ≤ maxMsgSize)) : Forged hdrlen fc plen := by
  rcases Nat.lt_or_ge plen 8 with hplen | hplen
  · exact forged_short h24 hplen
  obtain ⟨n, rfl⟩ := Nat.exists_eq_add_of_le' hplen
  by_cases hadj : adjHdrlen hdrlen fc = hdrlen
  · have hlong : ¬ hdrlen + (n + 8) + 8 ≤ maxMsgSize := fun hfit => h ⟨hadj, hplen, hfit⟩
    have hn : 16 ≤ n := by
      unfold maxMsgSize at hlong
      omega
    obtain ⟨m, rfl⟩ := Nat.exists_eq_add_of_le' hn
    exact ⟨fun _ b => b, .replicate 16 0, exists_forged_long Function.surjective_id h24 hadj hlong⟩
  · exact forged_shifted h24 hadj

theorem not_swSound_aes (hlen : dataHdrlen qos order + 8 ≤ len)
    (h : Forged (dataHdrlen qos order) fc (len - dataHdrlen qos order - 8)) : ¬ SwSound .aes qos order fc len := by
  intro hs
  obtain ⟨E, key, message, pframe, hfc, hres, hmic⟩ := h
  let s := oneKey key message
  let f := dataFrame .aes qos order len pframe
  have hnot : ¬ f.Short := Nat.not_lt.2 hlen
  have hpass : f.rtwAesDecrypt E s =
      .passed (aesDecipher E key f.hdrlen message pframe (len - dataHdrlen qos order - 8)).pframe := by
    unfold DataFrame.rtwAesDecrypt
    rw [show f.aesKey s = some key from aesKey_dataFrame ..]
    dsimp only
    rw [if_neg hnot]
    exact if_pos hres
  obtain ⟨k, hk, hok⟩ := hs E s f rfl rfl rfl hfc rfl (takesSw_dataFrame _ _ (by decide)) _ hpass
  obtain rfl := Option.some.inj ((aesKey_dataFrame message pframe).symm.trans hk)
  exact hmic hok

theorem swSound_aes (hadj : adjHdrlen (dataHdrlen qos order) fc = dataHdrlen qos order)
    (hlen : dataHdrlen qos order + 16 ≤ len) (hfit : len ≤ maxMsgSize) : SwSound .aes qos order fc len := by
  intro E s f henc hqos horder hfc hflen hsw pframe hpass
  have hhdr : f.hdrlen = dataHdrlen qos order := by rw [DataFrame.hdrlen, hqos, horder]
  unfold DataFrame.decryptor at hpass
  rw [if_pos hsw, henc] at hpass
  unfold DataFrame.IntegrityOk
  rw [henc]
  dsimp only at hpass ⊢
  unfold DataFrame.rtwAesDecrypt at hpass
  cases hkey : f.aesKey s with
  | none =>
    rw [hkey] at hpass
    cases hpass
  | some key =>
    rw [hkey] at hpass
    dsimp only at hpass
    split at hpass
    · cases hpass
    · split at hpass
      · rename_i hres
        refine ⟨key, rfl, ?_⟩
        have hice : iceIvLen f.encrypt = 8 := by rw [henc]; rfl
        rw [hice, hflen, hhdr] at hres
        rw [hflen, hhdr]
        obtain ⟨n, hn⟩ : ∃ n, len - dataHdrlen qos order - 8 = n + 8 := ⟨len - dataHdrlen qos order - 16, by omega⟩
        rw [hn] at hres ⊢
        exact (aesDecipher_res_iff_micOk (le_dataHdrlen qos order) (by rw [hfc, hadj]) (by omega)).1 hres
      · cases hpass

/-! ### Every cipher -/

theorem swSound_of_short (hshort : len < dataHdrlen qos order + iceIvLen encrypt)
    (henc : encrypt = .wep40 ∨ encrypt = .wep104 ∨ encrypt = .tkip ∨ encrypt = .aes) : SwSound encrypt qos order fc len := by
  intro E s f hfenc hqos horder hfc hflen hsw pframe hpass
  have hs : f.Short := by
    unfold DataFrame.Short DataFrame.hdrlen
    rw [hfenc, hqos, horder, hflen]
    exact hshort
  unfold DataFrame.decryptor at hpass
  rw [if_pos hsw, hfenc] at hpass
  rcases henc with rfl | rfl | rfl | rfl
  · dsimp only at hpass
    rw [DataFrame.rtwWepDecrypt, if_pos hs] at hpass
    cases hpass
  · dsimp only at hpass
    rw [DataFrame.rtwWepDecrypt, if_pos hs] at hpass
    cases hpass
  · dsimp only at hpass
    unfold DataFrame.rtwTkipDecrypt at hpass
    split at hpass
    · cases hpass
    · rw [if_pos hs] at hpass
      cases hpass
  · dsimp only at hpass
    unfold DataFrame.rtwAesDecrypt at hpass
    split at hpass
    · cases hpass
    · rw [if_pos hs] at hpass
      cases hpass

/-- The frames of a cipher, header and length that are passed on have the right integrity value exactly in these
cases: none is passed on, since there is no room for the IV; TKIP, with room for the ICV; CCMP, with a header of
the length that `aes_decipher` expects, room for the MIC, and no more than its buffer holds. -/
theorem swSound_iff (encrypt : PrivacyAlg) (qos order : Bool) (fc : UInt8) (len : Nat) :
    SwSound encrypt qos order fc len ↔ len < dataHdrlen qos order + iceIvLen encrypt ∨
      match encrypt with
      | .wep40 | .wep104 => False
      | .tkip => dataHdrlen qos order + 12 ≤ len
      | .aes => adjHdrlen (dataHdrlen qos order) fc = dataHdrlen qos order ∧ dataHdrlen qos order + 16 ≤ len ∧
          len ≤ maxMsgSize
      | .noPrivacy | .tkipWtmic | .sms4 | .bip => True := by
  have hother : ∀ e, (e = .noPrivacy ∨ e = .tkipWtmic ∨ e = .sms4 ∨ e = .bip) → SwSound e qos order fc len := by
    intro e he E s f henc _ _ _ _ _ _ _
    unfold DataFrame.IntegrityOk
    rw [henc]
    rcases he with rfl | rfl | rfl | rfl <;> trivial
  cases encrypt with
  | wep40 =>
    rcases Nat.lt_or_ge len (dataHdrlen qos order + 4) with hlt | hge
    · exact iff_of_true (swSound_of_short hlt (.inl rfl)) (.inl hlt)
    · exact iff_of_false (not_swSound_wep (.inl rfl) hge) fun h => h.elim (Nat.not_lt.2 hge) id
  | wep104 =>
    rcases Nat.lt_or_ge len (dataHdrlen qos order + 4) with hlt | hge
    · exact iff_of_true (swSound_of_short hlt (.inr (.inl rfl))) (.inl hlt)
    · exact iff_of_false (not_swSound_wep (.inr rfl) hge) fun h => h.elim (Nat.not_lt.2 hge) id
  | tkip =>
    rcases Nat.lt_or_ge len (dataHdrlen qos order + 8) with hlt | hge
    · exact iff_of_true (swSound_of_short hlt (.inr (.inr (.inl rfl)))) (.inl hlt)
    · rcases Nat.lt_or_ge len (dataHdrlen qos order + 12) with hlt | hge'
      · exact iff_of_false (not_swSound_tkip hge hlt) fun h => h.elim (Nat.not_lt.2 hge) (Nat.not_le.2 hlt)
      · exact iff_of_true (swSound_tkip hge') (.inr hge')
  | aes =>
    rcases Nat.lt_or_ge len (dataHdrlen qos order + 8) with hlt | hge
    · exact iff_of_true (swSound_of_short hlt (.inr (.inr (.inr rfl)))) (.inl hlt)
    · constructor
      · intro h
        by_contra hnot
        rw [not_or] at hnot
        refine not_swSound_aes hge (forged_of_not (le_dataHdrlen qos order) (dataHdrlen_le qos order) fun hc => ?_) h
        exact hnot.2 ⟨hc.1, by omega, by omega⟩
      · intro h
        obtain ⟨hadj, hlen, hfit⟩ := h.resolve_left (Nat.not_lt.2 hge)
        exact swSound_aes hadj hlen hfit
  | noPrivacy => exact iff_of_true (hother _ (by decide)) (.inr trivial)
  | tkipWtmic => exact iff_of_true (hother _ (by decide)) (.inr trivial)
  | sms4 => exact iff_of_true (hother _ (by decide)) (.inr trivial)
  | bip => exact iff_of_true (hother _ (by decide)) (.inr trivial)

/-- A WEP frame of zeros. -/
def zeroFrame : DataFrame := dataFrame .wep40 false false 40 fun i => if i = 0 then 0x08 else 0

/-- It is passed on, and its ICV is wrong. -/
theorem not_swSound_zeroFrame : ¬ ∀ E (s : SwKeys) (f : DataFrame), f.TakesSw s →
    ∀ pframe, f.decryptor E s = .passed pframe → f.IntegrityOk E s := by
  intro h
  have hicv := h (fun _ b => b) (oneKey (.replicate 16 0) fun _ => 0) zeroFrame ⟨by decide, .inl rfl⟩ _ rfl
  revert hicv
  show ¬ IcvValid _
  decide +kernel

end

end Rtw
