import Rtw.Mlme.StaMgt
import Rtw.Usb.Align
import Rtw.Xmit.SwRegions

/-!
# Frames in the transmit buffer

`rtl8812au_xmitframe_complete` reserves room for a frame with `xmitframe_need_length`, which knows nothing
of fragments, and `rtw_xmitframe_coalesce` then writes the frame behind the descriptor. The two agree when
the frame is one MPDU; otherwise the bytes of the frame are not even contiguous.
-/

namespace Rtw.Usb

/-- A data frame in a transmit queue. The packet is in one `sk_buff`. -/
structure TxFrame where
  attrib : PktAttrib
  psta : StaId
  priority : Nat
  qsel : Nat
  hdrlen : Nat
  /-- What `rtw_make_wlanhdr` writes, `none` when it fails. -/
  wlanhdr : Option (List UInt8)
  payload : List UInt8
  sw : SwEnv
  length_hdr : ∀ hdr ∈ wlanhdr, hdr.length = hdrlen
  le_hdrlen : 24 ≤ hdrlen
  pktlen_eq : attrib.pktlen = payload.length
  ivLen_eq : attrib.ivLen = attrib.iv.length
  lt : payload.length < 2 ^ 31

def txdescSize : Nat := 40

def packetOffsetSz : Nat := 8

/-- What `rtw_xmitframe_coalesce` comes to: the addresses of the bytes of the frame, one behind the other,
and `last_txcmdsz`. -/
structure Coalesced where
  ok : Bool
  addrs : List Nat
  lastTxcmdsz : Nat

/-- The addresses of the bytes of MPDUs. The last one has room for `mic` more. -/
def fragAddrs (mic : Nat) : List XmitFragment → List Nat
  | [] => []
  | [f] => (List.range (f.size + mic)).map (f.start + ·)
  | f :: fs => (List.range f.size).map (f.start + ·) ++ fragAddrs mic fs

namespace TxFrame

/-- The length of the MIC. -/
def micLen (f : TxFrame) : Nat := if f.attrib.encrypt = .tkip then 8 else 0

def xmitframeNeedLength (f : TxFrame) : Nat :=
  f.hdrlen + f.attrib.ivLen + 8 + f.attrib.pktlen + f.attrib.swIcvLen + f.micLen

/-- The environment of `rtw_xmitframe_coalesce` for a frame that goes to an offset in the transmit buffer. -/
def coalesceEnv (f : TxFrame) (fragLen bufAddr pktOffset : Nat) : CoalesceEnv :=
  ⟨fragLen, bufAddr, txdescSize + pktOffset * packetOffsetSz, f.wlanhdr⟩

/-- `rtw_xmitframe_coalesce`. A frame whose MIC cannot be computed is in the buffer when it fails. -/
def coalesce (f : TxFrame) (fragLen bufAddr pktOffset : Nat) : Coalesced :=
  let env := f.coalesceEnv fragLen bufAddr pktOffset
  let frags := rtwXmitframeCoalesce env f.attrib f.payload
  if f.wlanhdr = none then ⟨false, [], 0⟩
  else
    match xmitframeAddmic env f.attrib f.sw frags.length (lastTxcmdsz env f.attrib frags) with
    | none => ⟨false, fragAddrs 0 frags, 0⟩
    | some (_, lastTxcmdsz) => ⟨true, fragAddrs f.micLen frags, lastTxcmdsz.toNat⟩

/-- There is a header, and a MIC key if one is needed. -/
def CanCoalesce (f : TxFrame) : Prop := f.wlanhdr ≠ none ∧ ¬ (f.attrib.encrypt = .tkip ∧ f.sw.micKeyNull)

instance (f : TxFrame) : Decidable f.CanCoalesce := inferInstanceAs (Decidable (_ ∧ _))

/-- The frame is one MPDU. -/
def Fits (f : TxFrame) (fragLen : Nat) : Prop := FitsOneMpdu (f.coalesceEnv fragLen 0 0) f.attrib f.payload

instance (f : TxFrame) (fragLen : Nat) : Decidable (f.Fits fragLen) := inferInstanceAs (Decidable (FitsOneMpdu ..))

end TxFrame

/-- The addresses follow each other. -/
def Contiguous (addrs : List Nat) : Prop := ∃ a, ∀ j, j < addrs.length → addrs[j]? = some (a + j)

section
variable {a : PktAttrib} {f : XmitFragment} {fs : List XmitFragment} {n m fuel memStart frgInx mic b : Nat}
  {hdr rest : List UInt8}

theorem le_rnd4 (x : Nat) : x ≤ rnd4 x := by
  unfold rnd4
  split <;> omega

theorem mem_coalesceLoop (h : f ∈ coalesceLoop a n m hdr fuel memStart frgInx rest) :
    memStart ≤ f.start ∧ f.hdr = hdr := by
  induction fuel generalizing memStart frgInx rest with
  | zero => cases h
  | succ fuel ih =>
    unfold coalesceLoop at h
    dsimp only at h
    split at h
    · rw [List.mem_singleton.1 h]
      exact ⟨Nat.le_refl _, rfl⟩
    · rcases List.mem_cons.1 h with rfl | h
      · exact ⟨Nat.le_refl _, rfl⟩
      · obtain ⟨hstart, hhdr⟩ := ih h
        refine ⟨?_, hhdr⟩
        calc memStart ≤ _ := Nat.le_add_right ..
          _ ≤ _ := le_rnd4 _
          _ ≤ _ := Nat.le_add_right ..
          _ ≤ f.start := hstart

theorem le_of_mem_fragAddrs (h : ∀ f ∈ fs, b ≤ f.start) {x : Nat} (hx : x ∈ fragAddrs mic fs) : b ≤ x := by
  induction fs with
  | nil => cases hx
  | cons f fs ih =>
    have hspan : ∀ l, x ∈ (List.range l).map (f.start + ·) → b ≤ x := by
      intro l hl
      obtain ⟨j, -, rfl⟩ := List.mem_map.1 hl
      have := h f (List.mem_cons_self ..)
      omega
    cases fs with
    | nil => exact hspan _ hx
    | cons g fs =>
      rcases List.mem_append.1 hx with hx | hx
      · exact hspan _ hx
      · exact ih (fun g hg => h g (List.mem_cons_of_mem _ hg)) hx

theorem fragAddrs_getElem_zero {g : XmitFragment} (hg : 0 < g.size) : (fragAddrs mic (g :: fs))[0]? = some g.start := by
  cases fs with
  | nil =>
    show ((List.range (g.size + mic)).map (g.start + ·))[0]? = _
    rw [List.getElem?_map, List.getElem?_range (by omega)]
    rfl
  | cons h fs =>
    show ((List.range g.size).map (g.start + ·) ++ fragAddrs mic (h :: fs))[0]? = _
    rw [List.getElem?_append_left (by simpa using hg), List.getElem?_map, List.getElem?_range hg]
    rfl

theorem not_contiguous_fragAddrs {g : XmitFragment} (hf : 0 < f.size) (hg : 0 < g.size)
    (hgap : f.start + f.size < g.start) : ¬ Contiguous (fragAddrs mic (f :: g :: fs)) := by
  rintro ⟨b, hb⟩
  have h0 : (fragAddrs mic (g :: fs))[0]? = some g.start := fragAddrs_getElem_zero hg
  have hlen : 0 < (fragAddrs mic (g :: fs)).length := by
    obtain ⟨hlt, -⟩ := List.getElem?_eq_some_iff.1 h0
    exact hlt
  have hspan : ((List.range f.size).map (f.start + ·)).length = f.size := by simp
  have hcons : fragAddrs mic (f :: g :: fs) = (List.range f.size).map (f.start + ·) ++ fragAddrs mic (g :: fs) := rfl
  have hfirst := hb 0 (by rw [hcons, List.length_append]; omega)
  have hsecond := hb f.size (by rw [hcons, List.length_append]; omega)
  rw [fragAddrs_getElem_zero hf] at hfirst
  rw [hcons, List.getElem?_append_right (by omega), hspan, Nat.sub_self, h0] at hsecond
  have := Option.some.inj hfirst
  have := Option.some.inj hsecond
  omega

theorem coalesceLoop_ne_nil : coalesceLoop a n m hdr (fuel + 1) memStart frgInx rest ≠ [] := by
  rw [coalesceLoop]
  dsimp only
  split <;> exact List.cons_ne_nil _ _

/-- The first of several fragments ends before the room for the header of the next one. -/
theorem coalesceLoop_cons (hfuel : 1 < fuel)
    (hmore : ¬ (a.bmcast || rest.length == a.memSz n hdr.length frgInx rest.length)) :
    ∃ f g fs, coalesceLoop a n m hdr fuel memStart frgInx rest = f :: g :: fs ∧ f.hdr = hdr ∧ g.hdr = hdr ∧
      f.start + f.size + m ≤ g.start := by
  obtain ⟨fuel, rfl⟩ : ∃ k, fuel = k + 2 := ⟨fuel - 2, by omega⟩
  rw [coalesceLoop]
  dsimp only
  rw [if_neg hmore]
  generalize hl : coalesceLoop a n m hdr (fuel + 1) _ _ _ = l
  obtain ⟨g, fs, rfl⟩ := List.exists_cons_of_ne_nil (hl ▸ coalesceLoop_ne_nil : l ≠ [])
  obtain ⟨hstart, hhdr⟩ := mem_coalesceLoop (hl ▸ List.mem_cons_self ..)
  exact ⟨_, g, fs, rfl, rfl, hhdr, (Nat.add_le_add_right (le_rnd4 _) m).trans hstart⟩

theorem hdr_length_le_size (f : XmitFragment) : f.hdr.length ≤ f.size := by
  unfold XmitFragment.size
  omega

end

namespace TxFrame
variable {f : TxFrame} {fragLen bufAddr pktOffset : Nat}

theorem coalesce_of_canCoalesce (hc : f.CanCoalesce) :
    let env := f.coalesceEnv fragLen bufAddr pktOffset
    let frags := rtwXmitframeCoalesce env f.attrib f.payload
    f.coalesce fragLen bufAddr pktOffset =
      ⟨true, fragAddrs f.micLen frags, (lastTxcmdsz env f.attrib frags + f.micLen).toNat⟩ := by
  obtain ⟨hhdr, hkey⟩ := hc
  unfold coalesce xmitframeAddmic micLen
  by_cases ht : f.attrib.encrypt = .tkip
  · have hnull : ¬ f.sw.micKeyNull = true := fun h => hkey ⟨ht, h⟩
    simp only [if_neg hhdr, if_pos ht, if_neg hnull]
    rfl
  · simp only [if_neg hhdr, if_neg ht]
    simp

/-- Whether coalescing fails does not depend on where the frame goes. -/
theorem coalesce_ok : (f.coalesce fragLen bufAddr pktOffset).ok = decide f.CanCoalesce := by
  by_cases hc : f.CanCoalesce
  · rw [coalesce_of_canCoalesce hc, decide_eq_true hc]
  · rw [decide_eq_false hc]
    unfold CanCoalesce at hc
    unfold coalesce xmitframeAddmic
    by_cases hhdr : f.wlanhdr = none
    · simp only [if_pos hhdr]
    · rw [not_and, not_not] at hc
      obtain ⟨ht, hnull⟩ := hc hhdr
      simp only [if_neg hhdr, if_pos ht, if_pos hnull]

theorem le_of_mem_addrs {x : Nat} (hx : x ∈ (f.coalesce fragLen bufAddr pktOffset).addrs) :
    bufAddr + txdescSize ≤ x := by
  have hstart : ∀ g ∈ rtwXmitframeCoalesce (f.coalesceEnv fragLen bufAddr pktOffset) f.attrib f.payload,
      bufAddr + txdescSize ≤ g.start := by
    intro g hg
    unfold rtwXmitframeCoalesce at hg
    split at hg
    · cases hg
    · obtain ⟨hle, -⟩ := mem_coalesceLoop hg
      simp only [coalesceEnv] at hle
      omega
  unfold coalesce at hx
  dsimp only at hx
  split at hx
  · cases hx
  · split at hx
    · exact le_of_mem_fragAddrs hstart hx
    · exact le_of_mem_fragAddrs hstart hx

/-- A frame that is one MPDU. -/
theorem frags_of_fits {hdr : List UInt8} (h : f.Fits fragLen) (hhdr : f.wlanhdr = some hdr) :
    rtwXmitframeCoalesce (f.coalesceEnv fragLen bufAddr pktOffset) f.attrib f.payload =
      [{ start := bufAddr + (txdescSize + pktOffset * packetOffsetSz), mfrag := false, hdr, iv := f.attrib.iv,
         llc := f.attrib.llc 0, payload := f.payload, icvLen := f.attrib.swIcvLen }] := by
  have hfits : FitsOneMpdu (f.coalesceEnv fragLen bufAddr pktOffset) f.attrib f.payload := h
  have hlast := (isLast_iff hhdr).2 hfits
  have hall : f.attrib.memSz fragLen hdr.length 0 f.payload.length = f.payload.length := by
    cases hb : f.attrib.bmcast
    · rw [hb, Bool.false_or, beq_iff_eq] at hlast
      exact hlast.symm
    · rw [memSz_bmcast hb, f.pktlen_eq, Nat.min_self]
  unfold rtwXmitframeCoalesce
  rw [show (f.coalesceEnv fragLen bufAddr pktOffset).wlanhdr = some hdr from hhdr]
  dsimp only [coalesceLoop]
  rw [if_pos hlast]
  simp only [coalesceEnv, hall, List.take_length]

/-- The room that is reserved is the room that is needed, and `last_txcmdsz` says so. -/
theorem coalesce_of_fits (h : f.Fits fragLen) (hc : f.CanCoalesce) :
    f.coalesce fragLen bufAddr pktOffset =
      ⟨true, (List.range f.xmitframeNeedLength).map (bufAddr + (txdescSize + pktOffset * packetOffsetSz) + ·),
        f.xmitframeNeedLength⟩ := by
  obtain ⟨hdr, hhdr⟩ := Option.ne_none_iff_exists'.1 hc.1
  have hlen : hdr.length = f.hdrlen := f.length_hdr hdr hhdr
  have henv : (f.coalesceEnv fragLen bufAddr pktOffset).hdrlen = f.hdrlen := by
    rw [hdrlen_eq (show _ = some hdr from hhdr), hlen]
  have hsize (start : Nat) (mfrag : Bool) :
      (XmitFragment.mk start mfrag hdr f.attrib.iv (f.attrib.llc 0) f.payload f.attrib.swIcvLen).size + f.micLen =
        f.xmitframeNeedLength := by
    rw [XmitFragment.size, xmitframeNeedLength, length_llc, hlen, f.ivLen_eq, f.pktlen_eq]
  rw [coalesce_of_canCoalesce hc, frags_of_fits h hhdr]
  congr 1
  · rw [fragAddrs, hsize]
  · simp only [lastTxcmdsz, List.getLast?_singleton, List.length_singleton, length_llc, henv, if_pos]
    rw [xmitframeNeedLength, f.pktlen_eq]
    omega

theorem not_contiguous_of_not_fits (h : ¬ f.Fits fragLen) (hc : f.CanCoalesce) :
    ¬ Contiguous (f.coalesce fragLen bufAddr pktOffset).addrs := by
  obtain ⟨hdr, hhdr⟩ := Option.ne_none_iff_exists'.1 hc.1
  have hlen : 24 ≤ hdr.length := by
    rw [f.length_hdr hdr hhdr]
    exact f.le_hdrlen
  have hfits : ¬ FitsOneMpdu (f.coalesceEnv fragLen bufAddr pktOffset) f.attrib f.payload := h
  have hmore := mt (isLast_iff hhdr).1 hfits
  have hpos : 0 < f.payload.length := by
    by_contra h0
    have hnil : f.payload.length = 0 := by omega
    refine h fun hdr _ => .inr ?_
    rw [hnil]
    exact Nat.zero_le _
  rw [coalesce_of_canCoalesce hc]
  unfold rtwXmitframeCoalesce
  rw [show (f.coalesceEnv fragLen bufAddr pktOffset).wlanhdr = some hdr from hhdr]
  dsimp only
  generalize hl : coalesceLoop _ _ _ _ _ _ _ _ = l
  obtain ⟨g, k, fs, hfs, hg, hk, hgap⟩ := hl ▸ coalesceLoop_cons (Nat.succ_lt_succ hpos) hmore
  rw [hfs]
  have hgl := hdr_length_le_size g
  have hkl := hdr_length_le_size k
  rw [hg] at hgl
  rw [hk] at hkl
  refine not_contiguous_fragAddrs (by omega) (by omega) ?_
  simp only [coalesceEnv, txdescSize] at hgap
  omega

end TxFrame

end Rtw.Usb
