import Rtw.Lib.Splice
import Rtw.Security.SwDecrypt
import Rtw.Xmit.SwRegions

/-!
# TKIP there and back

`rtw_tkip_encrypt` works on the transmit buffer, fragment by fragment at the places of `Region`, and
`rtw_tkip_decrypt` on the MPDU that arrives. Both mix the key of RC4 from the packet number that they read back from
the IV. `tkip_trip`: with the same temporal key the receiver has the payload again, and the ICV is right.
-/

namespace Rtw
open Ccm Splice

/-- The context that `arcfour_encrypt` leaves behind `n` bytes. -/
def arcfourSkip : Nat → Arc4context → Arc4context
  | 0, c => c
  | n + 1, c => arcfourSkip n (arcfourByte c).2

/-- The keys that `rtw_tkip_encrypt` looks up. -/
structure TkipTxKeys where
  dot118021XGrpKey : Fin 4 → AesKey
  dot118021XGrpKeyid : Fin 4
  /-- of the packet's attributes -/
  dot118021xUncstKey : AesKey

def TkipTxKeys.prwskey (k : TkipTxKeys) (ra : MacAddr) : AesKey :=
  if ra.isMcast then k.dot118021XGrpKey k.dot118021XGrpKeyid else k.dot118021xUncstKey

/-- A round of `rtw_tkip_encrypt`: the payload is encrypted in place, and the ICV behind it. -/
def tkipEncryptFrag (prwskey : AesKey) (ta : MacAddr) (mem : Mem) (r : Region) : Mem :=
  let iv := read mem (r.start + r.hdrlen) 8
  let payload := r.start + r.hdrlen + r.ivLen
  let length := r.len.toNat
  let src := read mem payload length
  let mycontext := arcfourInit (tkipRc4key prwskey ta iv)
  copy (payload + length) (arcfourEncrypt (arcfourSkip length mycontext) (crcBytes (getcrc32 src)))
    (copy payload (arcfourEncrypt mycontext src) mem)

/-- `rtw_tkip_encrypt` on the transmit buffer. -/
def tkipEncryptBuf (env : CoalesceEnv) (a : PktAttrib) (k : TkipTxKeys) (ra ta : MacAddr) (nrFrags : Nat)
    (lastTxcmdsz : Int) (mem : Mem) : Mem :=
  if a.encrypt = .tkip then (rtwTkipEncrypt env a nrFrags lastTxcmdsz).foldl (tkipEncryptFrag (k.prwskey ra) ta) mem
  else mem

/-- The key of RC4 for a packet number. -/
def tkipMix (prwskey : AesKey) (ta : MacAddr) (pn : Nat) : List UInt8 :=
  phase2 prwskey (phase1 prwskey ta (UInt32.ofNat (pn / 2 ^ 16))) (UInt16.ofNat pn)

section
variable {c : Arc4context} {src src' bs : List UInt8} {m : Mem} {off n i : Nat} {key : AesKey} {ta : MacAddr}

theorem arcfourEncrypt_append :
    arcfourEncrypt c (src ++ src') = arcfourEncrypt c src ++ arcfourEncrypt (arcfourSkip src.length c) src' := by
  induction src generalizing c with
  | nil => rfl
  | cons b src ih => exact congrArg _ ih

/-! ### The packet number -/

theorem toNat_mk16 (hi lo : UInt8) : (mk16 hi lo).toNat = 2 ^ 8 * hi.toNat + lo.toNat := by
  have hhi := hi.toNat_lt
  have hlo := lo.toNat_lt
  unfold mk16
  rw [UInt16.toNat_xor, UInt16.toNat_shiftLeft, UInt8.toNat_toUInt16, UInt8.toNat_toUInt16]
  show lo.toNat ^^^ (hi.toNat <<< 8) % 65536 = _
  rw [Nat.shiftLeft_eq, Nat.mod_eq_of_lt (by omega), Nat.mul_comm]
  refine Nat.eq_of_testBit_eq fun i => ?_
  rw [Nat.testBit_xor, Nat.testBit_two_pow_mul_add _ hlo, Nat.testBit_two_pow_mul]
  by_cases h : i < 8
  · simp [h, Nat.not_le.2 h]
  · have hbit : lo.toNat.testBit i = false :=
      Nat.testBit_lt_two_pow (lt_of_lt_of_le hlo (Nat.pow_le_pow_right (by omega) (by omega)))
    simp [h, hbit, Nat.not_lt.1 h]

theorem toNat_or_shiftLeft (lo hi : UInt16) :
    (lo.toUInt32 ||| (hi.toUInt32 <<< 16)).toNat = lo.toNat + 2 ^ 16 * hi.toNat := by
  have hlo := lo.toNat_lt
  have hhi := hi.toNat_lt
  rw [UInt32.toNat_or, UInt32.toNat_shiftLeft, UInt16.toNat_toUInt32, UInt16.toNat_toUInt32]
  show lo.toNat ||| (hi.toNat <<< 16) % 4294967296 = _
  rw [Nat.shiftLeft_eq, Nat.mod_eq_of_lt (by omega), Nat.or_comm, Nat.mul_comm hi.toNat,
    ← Nat.two_pow_add_eq_or_of_lt hlo]
  omega

/-- The IV of `TKIP_IV` gives `GET_TKIP_PN` the packet number. -/
theorem tkipRc4key_tkipIv (key : AesKey) (ta : MacAddr) (pn keyidx : Nat) :
    tkipRc4key key ta (tkipIv pn keyidx).1 = tkipMix key ta pn := by
  have hpnl : mk16 (tsc pn 1) (tsc pn 0) = UInt16.ofNat pn := by
    refine UInt16.toNat_inj.1 ?_
    rw [toNat_mk16, toNat_tsc, toNat_tsc, UInt16.toNat_ofNat']
    omega
  have hpnh : (mk16 (tsc pn 3) (tsc pn 2)).toUInt32 ||| ((mk16 (tsc pn 5) (tsc pn 4)).toUInt32 <<< 16) =
      UInt32.ofNat (pn / 2 ^ 16) := by
    refine UInt32.toNat_inj.1 ?_
    rw [toNat_or_shiftLeft, toNat_mk16, toNat_mk16, toNat_tsc, toNat_tsc, toNat_tsc, toNat_tsc,
      UInt32.toNat_ofNat']
    omega
  unfold tkipMix
  rw [← hpnl, ← hpnh]
  rfl

/-! ### The MPDU -/

theorem tkipEncryptFrag_eq (key : AesKey) (ta : MacAddr) (mem : Mem) (r : Region) :
    tkipEncryptFrag key ta mem r =
      copy (r.start + r.hdrlen + r.ivLen)
        (arcfourEncrypt (arcfourInit (tkipRc4key key ta (read mem (r.start + r.hdrlen) 8)))
          (read mem (r.start + r.hdrlen + r.ivLen) r.len.toNat ++
            crcBytes (getcrc32 (read mem (r.start + r.hdrlen + r.ivLen) r.len.toNat)))) mem := by
  unfold tkipEncryptFrag
  dsimp only
  rw [arcfourEncrypt_append, ← copy_copy, length_arcfourEncrypt, length_read]

/-- The MPDU behind its header once it is encrypted. -/
theorem read_tkipEncryptFrag (key : AesKey) (ta : MacAddr) (mem : Mem) {r : Region} (h8 : r.ivLen = 8)
    {n : Nat} (hn : r.len = n) :
    read (tkipEncryptFrag key ta mem r) (r.start + r.hdrlen) (8 + (n + 4)) =
      read mem (r.start + r.hdrlen) 8 ++
        arcfourEncrypt (arcfourInit (tkipRc4key key ta (read mem (r.start + r.hdrlen) 8)))
          (read mem (r.start + r.hdrlen + 8) n ++ crcBytes (getcrc32 (read mem (r.start + r.hdrlen + 8) n))) := by
  have hlen : ∀ c, (arcfourEncrypt c (read mem (r.start + r.hdrlen + 8) n ++
      crcBytes (getcrc32 (read mem (r.start + r.hdrlen + 8) n)))).length = n + 4 := by
    intro c
    rw [length_arcfourEncrypt, List.length_append, length_read]
    rfl
  rw [tkipEncryptFrag_eq, h8, hn, Int.toNat_natCast, read_add]
  congr 1
  · exact read_congr fun i hi => copy_of_lt (by omega)
  · conv_lhs => arg 3; rw [← hlen (arcfourInit (tkipRc4key key ta (read mem (r.start + r.hdrlen) 8)))]
    exact read_copy

/-- Attributes for TKIP have the IV of the packet number, and room for an ICV. -/
theorem updateAttribSecInfo_tkip {sec : SecurityPriv} {psta : TxSta} {pkt : PktInfo} {a : PktAttrib} {pn pn' : Nat}
    (h : updateAttribSecInfo sec psta pkt pn = some (a, pn')) (henc : a.encrypt = .tkip) :
    a.ivLen = 8 ∧ a.icvLen = 4 ∧ ivPn .tkip a.iv = pn % 2 ^ 48 ∧ ∃ keyidx, a.iv = (tkipIv pn keyidx).1 := by
  obtain ⟨hiv, -, -, hlen⟩ := updateAttribSecInfo_eq_some h
  have hpn := (nextIv_pn (by rw [henc]; trivial) hiv).1
  rw [henc] at hiv hpn
  have hicv : a.icvLen = icvLenOf a.encrypt := by
    unfold updateAttribSecInfo at h
    obtain ⟨⟨encrypt, keyIdx⟩, -, h⟩ := Option.bind_eq_some_iff.1 h
    obtain ⟨⟨iv, txpn'⟩, -, h⟩ := Option.bind_eq_some_iff.1 h
    obtain ⟨rfl, rfl⟩ := Prod.mk.inj (Option.some.inj h)
    rfl
  rw [henc] at hicv
  unfold nextIv at hiv
  dsimp only at hiv
  split at hiv
  · obtain ⟨hiv, -⟩ := Prod.mk.inj (Option.some.inj hiv)
    refine ⟨?_, hicv, hpn, _, hiv.symm⟩
    rw [hlen, ← hiv]
    rfl
  · cases hiv

theorem icvMatches_append_crc {iv payload : List UInt8} (h : iv.length = 8) :
    icvMatches (iv ++ (payload ++ crcBytes (getcrc32 payload))) 8 = true := by
  have hcrc : (crcBytes (getcrc32 payload)).length = 4 := rfl
  refine decide_eq_true ?_
  rw [List.drop_left' h, List.length_append, List.length_append, hcrc, Nat.add_sub_cancel, List.take_left' rfl,
    ← List.append_assoc, List.drop_left']
  rw [List.length_append]
  omega

theorem encryptLoop_one (env : CoalesceEnv) (a : PktAttrib) (lastTxcmdsz : Int) :
    rtwTkipEncrypt env a 1 lastTxcmdsz =
      [⟨env.memStart, env.hdrlen, a.ivLen, lastTxcmdsz - env.hdrlen - a.ivLen - a.icvLen⟩] := rfl

/-- A packet that is sent in one MPDU and encrypted in software is decrypted to what it was, and its ICV is right; the
key of RC4 is mixed from the packet number of the attributes on both sides. -/
theorem tkip_trip {env : CoalesceEnv} {a : PktAttrib} {k : TkipTxKeys} {ra : MacAddr} {mem : Mem} {s : SwKeys}
    {f : DataFrame} {sec : SecurityPriv} {psta : TxSta} {pkt : PktInfo} {pn pn' n : Nat}
    (hattrib : updateAttribSecInfo sec psta pkt pn = some (a, pn')) (henc : a.encrypt = .tkip)
    (hmem : read mem (env.memStart + env.hdrlen) 8 = a.iv) (hfenc : f.encrypt = .tkip)
    (hkey : f.tkipKey s = some (k.prwskey ra)) (hhdr : f.hdrlen = env.hdrlen)
    (hlen : f.len = env.hdrlen + a.ivLen + n + a.icvLen)
    (hair : ∀ i, f.hdrlen ≤ i → i < f.len →
      f.pframe i = tkipEncryptBuf env a k ra f.ta 1 f.len mem (env.memStart + i)) :
    (∃ pframe, f.rtwTkipDecrypt s = .passed pframe ∧
      (∀ i < n, pframe (f.hdrlen + 8 + i) = mem (env.memStart + f.hdrlen + 8 + i)) ∧
        ∀ i < f.hdrlen + 8, pframe i = f.pframe i) ∧
    ivPn .tkip a.iv = pn % 2 ^ 48 ∧ tkipRc4key (k.prwskey ra) f.ta a.iv = tkipMix (k.prwskey ra) f.ta pn ∧
      tkipRc4key (k.prwskey ra) f.ta f.body = tkipMix (k.prwskey ra) f.ta pn := by
  obtain ⟨h8, h4, hpn, keyidx, hiv⟩ := updateAttribSecInfo_tkip hattrib henc
  rw [h8, h4] at hlen
  set payload := read mem (env.memStart + env.hdrlen + 8) n with hpayload
  have hbody : f.body = a.iv ++ arcfourEncrypt (arcfourInit (tkipRc4key (k.prwskey ra) f.ta a.iv))
      (payload ++ crcBytes (getcrc32 payload)) := by
    have hn : (f.len : Int) - env.hdrlen - 8 - 4 = n := by omega
    have hbuf := read_tkipEncryptFrag (k.prwskey ra) f.ta mem
      (r := ⟨env.memStart, env.hdrlen, 8, (f.len : Int) - env.hdrlen - 8 - 4⟩) rfl hn
    rw [← hmem, ← hbuf]
    show read f.pframe f.hdrlen (f.len - f.hdrlen) = _
    rw [show f.len - f.hdrlen = 8 + (n + 4) by omega]
    refine read_congr fun i hi => ?_
    rw [hair _ (by omega) (by omega)]
    unfold tkipEncryptBuf
    rw [if_pos henc, encryptLoop_one, h8, h4, hhdr, ← Nat.add_assoc]
    rfl
  have hivlen : a.iv.length = 8 := by rw [hiv]; rfl
  have hrc4 := tkipRc4key_tkipIv (k.prwskey ra) f.ta pn keyidx
  rw [← hiv] at hrc4
  have hdec : tkipBody (k.prwskey ra) f.ta f.body = a.iv ++ (payload ++ crcBytes (getcrc32 payload)) := by
    rw [hbody]
    exact tkipBody_arcfour _ hivlen
  refine ⟨⟨f.setBody (a.iv ++ (payload ++ crcBytes (getcrc32 payload))), ?_, fun i hi => ?_, fun i hi => ?_⟩, hpn,
    hrc4, ?_⟩
  · have hnot : ¬ f.Short := by
      unfold DataFrame.Short
      rw [hfenc, hlen, hhdr]
      show ¬ _ < _ + 8
      omega
    unfold DataFrame.rtwTkipDecrypt
    rw [hkey]
    dsimp only
    rw [if_neg hnot, hdec, if_pos (icvMatches_append_crc hivlen)]
  · have hlt : i < payload.length := by rw [hpayload, length_read]; exact hi
    unfold DataFrame.setBody
    rw [if_pos (by omega), show f.hdrlen + 8 + i - f.hdrlen = a.iv.length + i by omega,
      List.getElem?_append_right (by omega), Nat.add_sub_cancel_left, List.getElem?_append_left hlt,
      List.getElem?_eq_getElem hlt, Option.getD_some]
    show (read mem _ n)[i] = _
    rw [getElem_read, hhdr]
  · unfold DataFrame.setBody
    by_cases h : f.hdrlen ≤ i
    · have hlt : i - f.hdrlen < a.iv.length := by omega
      have hbody' : f.body[i - f.hdrlen]? = a.iv[i - f.hdrlen]? := by
        rw [hbody, List.getElem?_append_left hlt]
      have hget : f.body[i - f.hdrlen]? = some (f.pframe i) := by
        unfold DataFrame.body
        rw [List.getElem?_map, List.getElem?_range (by omega)]
        show some (f.pframe (f.hdrlen + (i - f.hdrlen))) = _
        rw [Nat.add_sub_cancel' h]
      rw [if_pos h, List.getElem?_append_left hlt, ← hbody', hget]
      rfl
    · rw [if_neg h]
  · rw [hbody, tkipRc4key_append hivlen, hrc4]

/-- WPA with software encryption. -/
def swTkip : SecurityPriv where
  dot11AuthAlgrthm := .dot8021X
  dot11PrivacyAlgrthm := .tkip
  dot11PrivacyKeyIndex := 0
  dot118021XGrpPrivacy := .tkip
  dot118021XGrpKeyid := 1
  busetkipkey := true
  swEncrypt := true
  hwDecrypted := false
  pkGkConflict := false

/-- The attributes of a unicast packet with the packet number `0x123456789abc`. -/
def tkipAttrib : PktAttrib where
  bmcast := false
  etherType := 0x0800
  pktlen := 3
  encrypt := .tkip
  keyIdx := 0
  ivLen := 8
  icvLen := 4
  iv := (tkipIv 0x123456789abc 0).1
  bswenc := true

def tkipEnv : CoalesceEnv := ⟨2346, 0, 40, some (List.replicate 24 0)⟩

/-- The transmit buffer: the IV, the SNAP header, three bytes and their MIC. -/
def tkipBuf : Mem :=
  copy 64 (tkipAttrib.iv ++ rtwPutSnap 0x0800 ++ [0x61, 0x62, 0x63] ++ List.replicate 8 0x55) fun _ => 0

def tkipKeys : TkipTxKeys := ⟨fun _ => .replicate 16 1, Fin.last 3, .replicate 16 2⟩

theorem tkip_trip_psk :
    ∃ pframe,
      (dataFrame .tkip false false 55 fun i =>
        tkipEncryptBuf tkipEnv tkipAttrib tkipKeys (.replicate 6 2) (.replicate 6 4) 1 55 tkipBuf (40 + i)).rtwTkipDecrypt
          (oneKey (.replicate 16 2) fun _ => 0) = .passed pframe ∧ ∀ i < 19, pframe (32 + i) = tkipBuf (72 + i) := by
  obtain ⟨⟨pframe, hpass, hpay, -⟩, -⟩ :=
    @tkip_trip tkipEnv tkipAttrib tkipKeys (.replicate 6 2) tkipBuf (oneKey (.replicate 16 2) fun _ => 0)
      (dataFrame .tkip false false 55 fun i =>
        tkipEncryptBuf tkipEnv tkipAttrib tkipKeys (.replicate 6 2) (.replicate 6 4) 1 55 tkipBuf (40 + i))
      swTkip ⟨false, .tkip⟩ ⟨false, 0x0800, false, [0x61, 0x62, 0x63]⟩ 0x123456789abc 0x123456789abd 19
      (by decide +kernel) rfl (by decide +kernel) rfl (tkipKey_dataFrame ..) rfl rfl fun _ _ _ => rfl
  exact ⟨pframe, hpass, hpay⟩

end

end Rtw
