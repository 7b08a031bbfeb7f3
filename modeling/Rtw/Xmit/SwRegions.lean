import Rtw.Security.AesCcmp
import Rtw.Xmit.Coalesce

/-!
# Fragments as the software ciphers see them

`xmitframe_addmic` and the three encryption routines walk over the fragments that
`rtw_xmitframe_coalesce` laid out, each with its own arithmetic. A `Region` is what one of them takes
for a fragment. `regionsAgree_iff`: from the second fragment on they are never right.
-/

namespace Rtw
open Ccm

/-- A fragment: where its header is, the lengths of header and IV, and the length of what follows up to
the ICV. -/
structure Region where
  start : Nat
  hdrlen : Nat
  ivLen : Nat
  len : Int
  deriving DecidableEq

def XmitFragment.region (f : XmitFragment) : Region :=
  ⟨f.start, f.hdr.length, f.iv.length, f.llc.length + f.payload.length⟩

/-- What software protection finds: whether the MIC key is all zero, and the transmit buffer. -/
structure SwEnv where
  micKeyNull : Bool
  buf : Mem

namespace CoalesceEnv

/-- `hdrlen`, the length of the header that is written. -/
def hdrlen (env : CoalesceEnv) : Nat := (env.wlanhdr.map List.length).getD 0

/-- Where the first header is. -/
def memStart (env : CoalesceEnv) : Nat := env.bufAddr + env.hwHdrOffset

end CoalesceEnv

section
variable (env : CoalesceEnv) (a : PktAttrib) (sw : SwEnv)

def lastTxcmdsz (frags : List XmitFragment) : Int :=
  match frags.getLast? with
  | none => 0
  | some f =>
    env.hdrlen + a.ivLen + (if frags.length = 1 then f.llc.length else 0 : Nat) + a.swIcvLen + f.payload.length

/-- The loop of `xmitframe_addmic`, for the last `n` fragments. -/
def addmicLoop (lastTxcmdsz : Int) : Nat → Int → List Region
  | 0, _ => []
  | n + 1, payload =>
    let start := rnd4 payload.toNat
    let length := (if n = 0 then lastTxcmdsz else env.fragLen) - env.hdrlen - a.ivLen - a.swIcvLen
    ⟨start, env.hdrlen, a.ivLen, length⟩ ::
      addmicLoop lastTxcmdsz n (start + env.hdrlen + a.ivLen + length + a.icvLen)

/-- `xmitframe_addmic`: the regions that the MIC is taken over, if it is, and the new `last_txcmdsz`. -/
def xmitframeAddmic (nrFrags : Nat) (lastTxcmdsz : Int) : Option (Option (List Region) × Int) :=
  if a.encrypt = .tkip then
    if sw.micKeyNull then none
    else some (addmicLoop env a lastTxcmdsz nrFrags env.memStart, lastTxcmdsz + 8)
  else some (none, lastTxcmdsz)

/-- The loop of the encryption routines; `lens` are the lengths of header and IV of the frame at an
address. -/
def encryptLoop (lens : Nat → Nat × Nat) (lastTxcmdsz : Int) : Nat → Nat → List Region
  | 0, _ => []
  | n + 1, pframe =>
    let length := (if n = 0 then lastTxcmdsz else env.fragLen) - env.hdrlen - a.ivLen - a.icvLen
    ⟨pframe, (lens pframe).1, (lens pframe).2, length⟩ ::
      encryptLoop lens lastTxcmdsz n (rnd4 (pframe + env.fragLen))

def rtwWepEncrypt (nrFrags : Nat) (lastTxcmdsz : Int) : List Region :=
  encryptLoop env a (fun _ => (env.hdrlen, a.ivLen)) lastTxcmdsz nrFrags env.memStart

def rtwTkipEncrypt (nrFrags : Nat) (lastTxcmdsz : Int) : List Region :=
  encryptLoop env a (fun _ => (env.hdrlen, a.ivLen)) lastTxcmdsz nrFrags env.memStart

/-- `rtw_aes_encrypt`: `aes_cipher` is not told the length of the IV, and corrects the one of the
header. -/
def rtwAesEncrypt (nrFrags : Nat) (lastTxcmdsz : Int) : List Region :=
  encryptLoop env a (fun pframe => (adjHdrlen env.hdrlen (sw.buf pframe), 8)) lastTxcmdsz nrFrags env.memStart

def xmitframeSwencrypt (nrFrags : Nat) (lastTxcmdsz : Int) : Option (List Region) :=
  if a.bswenc then
    match a.encrypt with
    | .wep40 | .wep104 => some (rtwWepEncrypt env a nrFrags lastTxcmdsz)
    | .tkip => some (rtwTkipEncrypt env a nrFrags lastTxcmdsz)
    | .aes => some (rtwAesEncrypt env a sw nrFrags lastTxcmdsz)
    | _ => none
  else none

/-- The end of `rtw_xmitframe_coalesce`: the regions of the MIC and those of the encryption. -/
def swProtect (frags : List XmitFragment) : Option (List Region) × Option (List Region) :=
  if env.wlanhdr = none then (none, none)
  else
    match xmitframeAddmic env a sw frags.length (lastTxcmdsz env a frags) with
    | none => (none, none)
    | some (mic, lastTxcmdsz) => (mic, xmitframeSwencrypt env a sw frags.length lastTxcmdsz)

/-- The MIC lengthens the last fragment. -/
def withMic : List Region → List Region
  | [] => []
  | [r] => [{ r with len := r.len + if a.encrypt = .tkip then 8 else 0 }]
  | r :: rs => r :: withMic rs

/-- The routines work on the fragments as they were laid out. -/
structure RegionsAgree (frags : List XmitFragment) : Prop where
  mic : ∀ rs ∈ (swProtect env a sw frags).1, rs = frags.map XmitFragment.region
  enc : ∀ rs ∈ (swProtect env a sw frags).2, rs = withMic a (frags.map XmitFragment.region)

/-- A MIC is taken. -/
def RunsMic : Prop := a.encrypt = .tkip ∧ !sw.micKeyNull

/-- The packet is encrypted in software. -/
def RunsEnc : Prop :=
  a.bswenc ∧ (a.encrypt = .wep40 ∨ a.encrypt = .wep104 ∨ a.encrypt = .aes ∨ RunsMic a sw)

instance : Decidable (RunsMic a sw) := inferInstanceAs (Decidable (_ ∧ _))

instance : Decidable (RunsEnc a sw) := inferInstanceAs (Decidable (_ ∧ _))

/-- A packet with software protection fits in one MPDU; for the MIC its header is aligned, for CCMP the
header and the IV have the lengths that `aes_cipher` assumes. -/
structure SwLayoutOk (payload : List UInt8) : Prop where
  fits : RunsMic a sw ∨ RunsEnc a sw → FitsOneMpdu env a payload
  aligned : RunsMic a sw → env.memStart % 4 = 0
  aes : a.bswenc → a.encrypt = .aes →
    adjHdrlen env.hdrlen (sw.buf env.memStart) = env.hdrlen ∧ a.ivLen = 8

end

section
variable {env : CoalesceEnv} {a : PktAttrib} {sw : SwEnv} {payload hdr : List UInt8}

theorem length_llc (a : PktAttrib) : (a.llc 0).length = 8 := rfl

theorem coalesce_of_fits (hhdr : env.wlanhdr = some hdr) (h : FitsOneMpdu env a payload) :
    ∃ p, rtwXmitframeCoalesce env a payload =
      [{ start := env.memStart, mfrag := false, hdr, iv := a.iv, llc := a.llc 0, payload := p,
         icvLen := a.swIcvLen }] := by
  unfold rtwXmitframeCoalesce
  rw [hhdr]
  dsimp only [coalesceLoop]
  rw [if_pos ((isLast_iff hhdr).2 h)]
  exact ⟨_, rfl⟩

/-- Two fragments or more when it does not, and the first one is not as long as the routines assume. -/
theorem coalesce_of_not_fits (hhdr : env.wlanhdr = some hdr) (h : ¬ FitsOneMpdu env a payload) :
    ∃ f g rest, rtwXmitframeCoalesce env a payload = f :: g :: rest ∧
      f.region.len ≠ env.fragLen - hdr.length - a.ivLen - a.swIcvLen := by
  have hmore := mt (isLast_iff hhdr).1 h
  have hb : a.bmcast = false := by
    cases hb : a.bmcast
    · rfl
    · exact absurd (by rw [hb]; rfl) hmore
  rw [hb, Bool.false_or, beq_iff_eq, memSz_unicast hb] at hmore
  unfold rtwXmitframeCoalesce
  rw [hhdr]
  dsimp only
  rw [coalesceLoop]
  dsimp only
  rw [hb, memSz_unicast hb, if_neg (by simpa using hmore)]
  obtain ⟨n, hn⟩ : ∃ n, payload.length = n + 1 := Nat.exists_eq_succ_of_ne_zero (by omega)
  rw [hn, coalesceLoop]
  dsimp only
  have hlen : (payload.take (min (n + 1) (a.mpduLen env.fragLen hdr.length 0 % 2 ^ 32).toNat)).length =
      (a.mpduLen env.fragLen hdr.length 0 % 2 ^ 32).toNat := by
    rw [List.length_take]
    omega
  have hne : (8 : Int) + (a.mpduLen env.fragLen hdr.length 0 % 2 ^ 32).toNat ≠
      env.fragLen - hdr.length - a.ivLen - a.swIcvLen := by
    simp only [PktAttrib.mpduLen, length_llc]
    omega
  split
  · refine ⟨_, _, _, rfl, ?_⟩
    show ((a.llc 0).length : Int) + _ ≠ _
    rw [hlen]
    exact hne
  · refine ⟨_, _, _, rfl, ?_⟩
    show ((a.llc 0).length : Int) + _ ≠ _
    rw [hlen]
    exact hne

theorem hdrlen_eq (hhdr : env.wlanhdr = some hdr) : env.hdrlen = hdr.length := by
  rw [CoalesceEnv.hdrlen, hhdr]
  rfl

theorem rnd4_eq_self_iff {x : Nat} : rnd4 x = x ↔ x % 4 = 0 := by
  unfold rnd4
  split <;> omega

/-- The lengths of header and IV that the cipher in use assumes. -/
def cipherLens (env : CoalesceEnv) (a : PktAttrib) (sw : SwEnv) (pframe : Nat) : Nat × Nat :=
  if a.encrypt = .aes then (adjHdrlen env.hdrlen (sw.buf pframe), 8) else (env.hdrlen, a.ivLen)

theorem swProtect_eq {frags : List XmitFragment} (hhdr : env.wlanhdr = some hdr) :
    swProtect env a sw frags =
      (if RunsMic a sw then some (addmicLoop env a (lastTxcmdsz env a frags) frags.length env.memStart) else none,
        if RunsEnc a sw then
          some (encryptLoop env a (cipherLens env a sw) (lastTxcmdsz env a frags + if a.encrypt = .tkip then 8 else 0)
            frags.length env.memStart)
        else none) := by
  have hlens : cipherLens env a sw =
      if a.encrypt = .aes then fun pframe => (adjHdrlen env.hdrlen (sw.buf pframe), 8)
      else fun _ => (env.hdrlen, a.ivLen) := by
    funext pframe
    unfold cipherLens
    split <;> rfl
  rw [hlens]
  cases henc : a.encrypt <;> cases hnull : sw.micKeyNull <;> cases hsw : a.bswenc <;>
    simp [swProtect, hhdr, xmitframeAddmic, xmitframeSwencrypt, RunsMic, RunsEnc, henc, hnull, hsw,
      rtwWepEncrypt, rtwTkipEncrypt, rtwAesEncrypt]

theorem regionsAgree_of_fits (hiv : a.iv.length = a.ivLen) (hhdr : env.wlanhdr = some hdr)
    (hf : FitsOneMpdu env a payload) : RegionsAgree env a sw (rtwXmitframeCoalesce env a payload) ↔
      (RunsMic a sw → env.memStart % 4 = 0) ∧
        (RunsEnc a sw → cipherLens env a sw env.memStart = (env.hdrlen, a.ivLen)) := by
  obtain ⟨p, hp⟩ := coalesce_of_fits hhdr hf
  have hlen := hdrlen_eq hhdr
  set f : XmitFragment := ⟨env.memStart, false, hdr, a.iv, a.llc 0, p, a.swIcvLen⟩ with hfdef
  have hlast : lastTxcmdsz env a [f] = env.hdrlen + a.ivLen + 8 + a.swIcvLen + p.length := by
    simp [lastTxcmdsz, hfdef, length_llc]
  have hregion : f.region = ⟨env.memStart, env.hdrlen, a.ivLen, 8 + p.length⟩ := by
    simp [XmitFragment.region, hfdef, length_llc, hlen, hiv]
  have hicv : RunsEnc a sw → a.swIcvLen = a.icvLen := fun h => by rw [PktAttrib.swIcvLen, if_pos h.1]
  rw [hp]
  constructor
  · intro h
    constructor
    · intro hmic
      have hrs := h.mic _ (by rw [swProtect_eq hhdr, if_pos hmic]; rfl)
      rw [List.length_singleton, addmicLoop, addmicLoop, List.map_singleton, hregion, List.cons_eq_cons,
        Region.mk.injEq] at hrs
      exact rnd4_eq_self_iff.1 hrs.1.1
    · intro henc
      have hrs := h.enc _ (by rw [swProtect_eq hhdr, if_pos henc]; rfl)
      rw [List.length_singleton, encryptLoop, encryptLoop, List.map_singleton, hregion, withMic, List.cons_eq_cons,
        Region.mk.injEq] at hrs
      exact Prod.ext hrs.1.2.1 hrs.1.2.2.1
  · rintro ⟨halign, hlens⟩
    constructor
    · intro rs hrs
      rw [swProtect_eq hhdr] at hrs
      dsimp only at hrs
      split at hrs
      · rename_i hmic
        obtain rfl := Option.some.inj hrs
        rw [List.length_singleton, addmicLoop, addmicLoop, List.map_singleton, hregion, hlast]
        simp only [Int.toNat_natCast, rnd4_eq_self_iff.2 (halign hmic), if_true]
        congr 2
        omega
      · cases hrs
    · intro rs hrs
      rw [swProtect_eq hhdr] at hrs
      dsimp only at hrs
      split at hrs
      · rename_i henc
        obtain rfl := Option.some.inj hrs
        rw [List.length_singleton, encryptLoop, encryptLoop, List.map_singleton, hregion, hlast, withMic, hlens henc,
          ← hicv henc]
        simp only [if_true]
        congr 2
        omega
      · cases hrs

/-- The regions of a packet in several MPDUs are wrong wherever one is used. -/
theorem regionsAgree_of_not_fits (hhdr : env.wlanhdr = some hdr) (hf : ¬ FitsOneMpdu env a payload) :
    RegionsAgree env a sw (rtwXmitframeCoalesce env a payload) ↔ ¬ RunsMic a sw ∧ ¬ RunsEnc a sw := by
  obtain ⟨f, g, rest, hfrags, hne⟩ := coalesce_of_not_fits hhdr hf
  rw [← hdrlen_eq hhdr] at hne
  rw [hfrags]
  constructor
  · intro h
    constructor
    · intro hmic
      have hrs := h.mic _ (by rw [swProtect_eq hhdr, if_pos hmic]; rfl)
      rw [List.length_cons, addmicLoop, List.map_cons, List.cons_eq_cons] at hrs
      have hlen := congrArg Region.len hrs.1
      dsimp only at hlen
      rw [if_neg (by simp)] at hlen
      exact hne hlen.symm
    · intro henc
      have hrs := h.enc _ (by rw [swProtect_eq hhdr, if_pos henc]; rfl)
      rw [List.length_cons, encryptLoop, List.map_cons, List.map_cons, withMic, List.cons_eq_cons] at hrs
      have hlen := congrArg Region.len hrs.1
      dsimp only at hlen
      rw [if_neg (by simp)] at hlen
      rw [PktAttrib.swIcvLen, if_pos henc.1] at hne
      exact hne hlen.symm
      simp
  · rintro ⟨hmic, henc⟩
    constructor
    · intro rs hrs
      rw [swProtect_eq hhdr, if_neg hmic] at hrs
      cases hrs
    · intro rs hrs
      rw [swProtect_eq hhdr, if_neg henc] at hrs
      cases hrs

end

/-- The software routines see the fragments as they were laid out, exactly when `rtw_make_wlanhdr` fails
and nothing is laid out, or the layout suits them: no routine runs, or the packet fits in one MPDU with
an aligned header. -/
theorem regionsAgree_iff (env : CoalesceEnv) (a : PktAttrib) (sw : SwEnv) (payload : List UInt8)
    (hiv : a.iv.length = a.ivLen) : RegionsAgree env a sw (rtwXmitframeCoalesce env a payload) ↔
      env.wlanhdr = none ∨ SwLayoutOk env a sw payload := by
  cases hhdr : env.wlanhdr with
  | none =>
    refine iff_of_true ?_ (.inl rfl)
    constructor <;> intro rs hrs <;> rw [swProtect, if_pos hhdr] at hrs <;> cases hrs
  | some hdr =>
    rw [or_iff_right (by simp)]
    by_cases hf : FitsOneMpdu env a payload
    · rw [regionsAgree_of_fits hiv hhdr hf]
      have hlens : cipherLens env a sw env.memStart = (env.hdrlen, a.ivLen) ↔
          (a.encrypt = .aes → adjHdrlen env.hdrlen (sw.buf env.memStart) = env.hdrlen ∧ a.ivLen = 8) := by
        unfold cipherLens
        split
        · rename_i haes
          rw [Prod.mk.injEq, eq_comm (a := 8)]
          simp [haes]
        · rename_i haes
          simp [haes]
      rw [hlens]
      constructor
      · rintro ⟨halign, haes⟩
        exact ⟨fun _ => hf, halign, fun hsw he => haes ⟨hsw, .inr (.inr (.inl he))⟩ he⟩
      · intro h
        exact ⟨h.aligned, fun henc => h.aes henc.1⟩
    · rw [regionsAgree_of_not_fits hhdr hf]
      constructor
      · rintro ⟨hmic, henc⟩
        refine ⟨fun h => (h.elim hmic henc).elim, fun h => (hmic h).elim, fun hsw he => ?_⟩
        exact (henc ⟨hsw, .inr (.inr (.inl he))⟩).elim
      · intro h
        exact ⟨fun hmic => hf (h.fits (.inl hmic)), fun henc => hf (h.fits (.inr henc))⟩

/-- The smallest threshold, the first buffer of an aggregate, and the header of a data frame. -/
def smallEnv : CoalesceEnv where
  fragLen := 256
  bufAddr := 4096
  hwHdrOffset := 40
  wlanhdr := some (0x08 :: .replicate 23 0)

/-- A packet of `n` bytes for CCMP in software. -/
def ccmpPacket (n : Nat) : PktAttrib where
  bmcast := false
  etherType := 0x0800
  pktlen := n
  encrypt := .aes
  keyIdx := 0
  ivLen := 8
  icvLen := 8
  iv := .replicate 8 0
  bswenc := true

def ccmpSw : SwEnv := ⟨false, fun i => if i = 4136 then 0x08 else 0⟩

theorem regionsAgree_short :
    RegionsAgree smallEnv (ccmpPacket 4) ccmpSw (rtwXmitframeCoalesce smallEnv (ccmpPacket 4) [1, 2, 3, 4]) := by
  refine (regionsAgree_iff smallEnv (ccmpPacket 4) ccmpSw [1, 2, 3, 4] rfl).2 (.inr ⟨fun _ => ?_, ?_, ?_⟩)
  · decide
  · rintro ⟨h, -⟩
    cases h
  · exact fun _ _ => ⟨by decide, rfl⟩

/-- 300 bytes in two fragments: the first one is encrypted with 4 bytes of what follows it. -/
theorem not_regionsAgree_two :
    ¬ RegionsAgree smallEnv (ccmpPacket 300) ccmpSw
      (rtwXmitframeCoalesce smallEnv (ccmpPacket 300) (.replicate 300 0)) := by
  rw [regionsAgree_of_not_fits rfl (by decide +kernel)]
  exact fun h => h.2 ⟨rfl, .inr (.inr (.inl rfl))⟩

end Rtw
