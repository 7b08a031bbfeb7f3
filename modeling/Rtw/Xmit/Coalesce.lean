import Mathlib.Algebra.Group.Int.Defs
import Rtw.Xmit.Attrib

/-!
# Fragments

`rtw_xmitframe_coalesce` lays a packet out as MPDUs: header, IV, the SNAP header in the first one, a
piece of the payload, room for the ICV. The IV is the one in the attributes, for every fragment.
-/

namespace Rtw

def rnd4 (x : Nat) : Nat := (x / 4 + if x % 4 = 0 then 0 else 1) * 4

def rtwPutSnap (hProto : Nat) : List UInt8 :=
  [0xaa, 0xaa, 0x03, 0x00, 0x00, if hProto = 0x8137 ∨ hProto = 0x80f3 then 0xf8 else 0x00,
    UInt8.ofNat (hProto / 256), UInt8.ofNat hProto]

/-- An MPDU as it stands in the transmit buffer before encryption; `start` is where its header is. -/
structure XmitFragment where
  start : Nat
  mfrag : Bool
  hdr : List UInt8
  iv : List UInt8
  llc : List UInt8
  payload : List UInt8
  icvLen : Nat

/-- The length of an MPDU. -/
def XmitFragment.size (f : XmitFragment) : Nat :=
  f.hdr.length + f.iv.length + f.llc.length + f.payload.length + f.icvLen

/-- What `rtw_xmitframe_coalesce` finds besides the attributes: the threshold, the room for the
hardware header, and the header that `rtw_make_wlanhdr` writes, `none` when it fails. -/
structure CoalesceEnv where
  fragLen : Nat
  bufAddr : Nat
  hwHdrOffset : Nat
  wlanhdr : Option (List UInt8)

namespace PktAttrib

def llc (a : PktAttrib) (frgInx : Nat) : List UInt8 := if frgInx = 0 then rtwPutSnap a.etherType else []

/-- The ICV length of a fragment that is encrypted in software. -/
def swIcvLen (a : PktAttrib) : Nat := if a.bswenc then a.icvLen else 0

/-- `mpdu_len` when the payload is read. -/
def mpduLen (a : PktAttrib) (fragLen hdrlen frgInx : Nat) : Int :=
  (fragLen : Int) - 4 - hdrlen - a.ivLen - (a.llc frgInx).length - a.swIcvLen

/-- `mem_sz` when `left` bytes of the packet are left; `mpdu_len` is passed as an unsigned number. -/
def memSz (a : PktAttrib) (fragLen hdrlen frgInx left : Nat) : Nat :=
  if a.bmcast then min left a.pktlen else min left (a.mpduLen fragLen hdrlen frgInx % 2 ^ 32).toNat

end PktAttrib

/-- The loop of `rtw_xmitframe_coalesce`. -/
def coalesceLoop (a : PktAttrib) (fragLen hwHdrOffset : Nat) (hdr : List UInt8) :
    Nat → Nat → Nat → List UInt8 → List XmitFragment
  | 0, _, _, _ => []
  | fuel + 1, memStart, frgInx, rest =>
    let memSz := a.memSz fragLen hdr.length frgInx rest.length
    let frag (mfrag : Bool) : XmitFragment :=
      { start := memStart, mfrag, hdr, iv := a.iv, llc := a.llc frgInx, payload := rest.take memSz,
        icvLen := a.swIcvLen }
    if a.bmcast || rest.length == memSz then [frag false]
    else
      let addr := memStart + (frag true).size
      frag true :: coalesceLoop a fragLen hwHdrOffset hdr fuel (rnd4 addr + hwHdrOffset) (frgInx + 1)
        (rest.drop memSz)

/-- `rtw_xmitframe_coalesce`: the MPDUs; `nr_frags` is their number. -/
def rtwXmitframeCoalesce (env : CoalesceEnv) (a : PktAttrib) (payload : List UInt8) : List XmitFragment :=
  match env.wlanhdr with
  | none => []
  | some hdr =>
    coalesceLoop a env.fragLen env.hwHdrOffset hdr (payload.length + 1) (env.bufAddr + env.hwHdrOffset) 0 payload

/-- The packet fits in one MPDU: it is a multicast, or no longer than what the first fragment takes. -/
def FitsOneMpdu (env : CoalesceEnv) (a : PktAttrib) (payload : List UInt8) : Prop :=
  ∀ hdr, env.wlanhdr = some hdr →
    a.bmcast ∨ payload.length ≤ (a.mpduLen env.fragLen hdr.length 0 % 2 ^ 32).toNat

instance (env : CoalesceEnv) (a : PktAttrib) (payload : List UInt8) : Decidable (FitsOneMpdu env a payload) :=
  match h : env.wlanhdr with
  | none => .isTrue fun hdr hh => by rw [h] at hh; cases hh
  | some hdr =>
    decidable_of_iff (a.bmcast ∨ payload.length ≤ (a.mpduLen env.fragLen hdr.length 0 % 2 ^ 32).toNat)
      ⟨fun hf hdr' hh => by rw [h] at hh; cases hh; exact hf, fun hf => hf hdr h⟩

section
variable {env : CoalesceEnv} {a : PktAttrib} {payload hdr rest : List UInt8} {fuel memStart frgInx n m : Nat}

theorem memSz_bmcast {hdrlen left : Nat} (hb : a.bmcast = true) :
    a.memSz n hdrlen frgInx left = min left a.pktlen := by
  rw [PktAttrib.memSz, if_pos hb]

theorem memSz_unicast {hdrlen left : Nat} (hb : a.bmcast = false) :
    a.memSz n hdrlen frgInx left = min left (a.mpduLen n hdrlen frgInx % 2 ^ 32).toNat := by
  rw [PktAttrib.memSz, hb, if_neg Bool.false_ne_true]

theorem iv_of_mem_coalesceLoop {f : XmitFragment} (h : f ∈ coalesceLoop a n m hdr fuel memStart frgInx rest) :
    f.iv = a.iv := by
  induction fuel generalizing memStart frgInx rest with
  | zero => cases h
  | succ fuel ih =>
    unfold coalesceLoop at h
    dsimp only at h
    split at h
    · rw [List.mem_singleton.1 h]
    · rcases List.mem_cons.1 h with rfl | h
      · rfl
      · exact ih h

theorem iv_of_mem_coalesce {f : XmitFragment} (h : f ∈ rtwXmitframeCoalesce env a payload) : f.iv = a.iv := by
  unfold rtwXmitframeCoalesce at h
  split at h
  · cases h
  · exact iv_of_mem_coalesceLoop h

theorem isLast_iff (hh : env.wlanhdr = some hdr) :
    (a.bmcast || payload.length == a.memSz env.fragLen hdr.length 0 payload.length) ↔ FitsOneMpdu env a payload := by
  have hfits : FitsOneMpdu env a payload ↔
      a.bmcast ∨ payload.length ≤ (a.mpduLen env.fragLen hdr.length 0 % 2 ^ 32).toNat := by
    constructor
    · intro h; exact h hdr hh
    · intro h hdr' hh'
      obtain rfl := Option.some.inj (hh.symm.trans hh')
      exact h
  rw [hfits]
  cases hb : a.bmcast
  · rw [memSz_unicast hb, Bool.false_or, beq_iff_eq]
    simp only [Bool.false_eq_true, false_or]
    omega
  · simp

/-- A packet that fits in one MPDU is not fragmented. -/
theorem length_coalesce_le_one (h : FitsOneMpdu env a payload) :
    (rtwXmitframeCoalesce env a payload).length ≤ 1 := by
  unfold rtwXmitframeCoalesce
  split
  · exact Nat.zero_le 1
  · rename_i hdr hh
    unfold coalesceLoop
    dsimp only
    rw [if_pos ((isLast_iff hh).2 h)]
    exact Nat.le_refl 1

/-- The payloads of the fragments are the packet, as long as a fragment has room for a byte. -/
theorem coalesceLoop_payload (hroom : ∀ i, 0 < (a.mpduLen n hdr.length i % 2 ^ 32).toNat)
    (hpkt : rest.length ≤ a.pktlen) (hfuel : rest.length < fuel) :
    (coalesceLoop a n m hdr fuel memStart frgInx rest).flatMap XmitFragment.payload = rest := by
  induction fuel generalizing memStart frgInx rest with
  | zero => omega
  | succ fuel ih =>
    unfold coalesceLoop
    dsimp only
    split
    · rename_i hlast
      have hall : a.memSz n hdr.length frgInx rest.length = rest.length := by
        cases hb : a.bmcast
        · rw [hb, Bool.false_or, beq_iff_eq] at hlast; exact hlast.symm
        · rw [memSz_bmcast hb, Nat.min_eq_left hpkt]
      rw [List.flatMap_singleton, hall, List.take_length]
    · rename_i hlast
      rw [Bool.or_eq_true, not_or, Bool.not_eq_true, beq_iff_eq] at hlast
      obtain ⟨hb, hne⟩ := hlast
      have hroom := hroom frgInx
      have hmem : a.memSz n hdr.length frgInx rest.length = min rest.length _ := memSz_unicast hb
      rw [List.flatMap_cons, ih (by rw [List.length_drop]; omega) (by rw [List.length_drop]; omega)]
      exact List.take_append_drop ..

end

end Rtw
