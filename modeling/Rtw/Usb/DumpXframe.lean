import Mathlib.Data.List.Forall2
import Rtw.Usb.XmitComplete

/-!
# Frames sent without aggregation

`rtw_dump_xframe` sends the fragments of one frame, one write for each. It finds the next fragment by its
own arithmetic, and `usb_write_port` takes the address from `buf_addr`, which only a fragment that has no
packet offset moves on. `dumpOk_iff` says when the writes are the fragments.
-/

namespace Rtw.Usb

inductive UsbSpeed where
  | full | high | super
  deriving DecidableEq

/-- The settings that `rtw_dump_xframe` reads. -/
structure DumpEnv where
  fragLen : Nat
  mpMode : Bool
  usbSpeed : UsbSpeed
  swEncrypt : Bool
  lt : fragLen < 2 ^ 32

/-- A data frame that `rtw_xmitframe_coalesce` has laid out, with the widths of the fields. -/
structure DataFrame extends TxFrame where
  can : toTxFrame.CanCoalesce
  hdrlen_lt : hdrlen < 2 ^ 16
  ivLen_lt : attrib.ivLen < 2 ^ 8
  icvLen_lt : attrib.icvLen < 2 ^ 8

/-- A call of `rtw_write_port`: the address that `usb_write_port` uses, the length, and the descriptor that
has been written, with its address. -/
structure UsbWrite where
  bufAddr : Nat
  cnt : Int
  ptxdesc : Nat
  desc : TxDesc

/-- `rtw_usb_bulk_size_boundary`; the second `if` of the source decides for super speed too. -/
def rtwUsbBulkSizeBoundary (speed : UsbSpeed) (bufLen : Int) : Bool :=
  if speed = .high then bufLen % 512 = 0 else bufLen % 64 = 0

/-- `pull`: the packet offset is not needed, as the transfer does not end at a boundary. -/
def DumpEnv.pull (env : DumpEnv) (sz : Int) : Bool :=
  !env.mpMode && !rtwUsbBulkSizeBoundary env.usbSpeed (txdescSize + sz)

/-- One fragment: `update_txdesc` with `bagg_pkt` not set, and the write. The new `pkt_offset` is kept in the
frame. -/
def dumpOne (env : DumpEnv) (sz : Int) (memAddr bufAddr pktOffset : Nat) : UsbWrite × Nat :=
  let ptxdesc := if env.pull sz then memAddr + packetOffsetSz else memAddr
  let pktOffset := if env.pull sz && pktOffset > 0 then pktOffset - 1 else pktOffset
  ({ bufAddr := if env.pull sz then ptxdesc else bufAddr
     cnt := if env.pull sz then sz + txdescSize else sz + txdescSize + packetOffsetSz
     ptxdesc
     desc := updateTxdesc (sz % 2 ^ 16).toNat pktOffset 1 }, pktOffset)

/-- The loop of `rtw_dump_xframe`, for the last `n` fragments. -/
def dumpLoop (env : DumpEnv) (icvLen : Nat) (lastTxcmdsz : Int) : Nat → Nat → Nat → Nat → List UsbWrite
  | 0, _, _, _ => []
  | n + 1, memAddr, bufAddr, pktOffset =>
    let sz : Int := if n ≠ 0 then env.fragLen - 4 - (if env.swEncrypt then 0 else icvLen : Nat) else lastTxcmdsz
    let (w, pktOffset) := dumpOne env sz memAddr bufAddr pktOffset
    w :: dumpLoop env icvLen lastTxcmdsz n (rnd4 (w.ptxdesc + w.cnt).toNat) w.bufAddr pktOffset

namespace DataFrame

/-- The fragments, in a buffer that begins at 0. -/
def frags (f : DataFrame) (fragLen : Nat) : List XmitFragment :=
  rtwXmitframeCoalesce (f.coalesceEnv fragLen 0 1) f.attrib f.payload

/-- `rtw_dump_xframe`; `nr_frags` is an `u8`. -/
def rtwDumpXframe (f : DataFrame) (env : DumpEnv) : List UsbWrite :=
  dumpLoop env f.attrib.icvLen (f.coalesce env.fragLen 0 1).lastTxcmdsz ((f.frags env.fragLen).length % 2 ^ 8) 0 0 1

end DataFrame

/-! ### What the device gets -/

/-- Fragments with their lengths; the MIC belongs to the last one. -/
def withLens (mic : Nat) : List XmitFragment → List (XmitFragment × Nat)
  | [] => []
  | [f] => [(f, f.size + mic)]
  | f :: fs => (f, f.size) :: withLens mic fs

/-- A write begins at the descriptor of a fragment and ends with the fragment; the descriptor has its length,
and leads to it. -/
structure UsbWrite.Sends (w : UsbWrite) (f : XmitFragment × Nat) : Prop where
  bufAddr : w.bufAddr = w.ptxdesc
  pktSize : w.desc.pktSize = f.2
  packet : w.ptxdesc + w.desc.offset + w.desc.pktOffset * packetOffsetSz = f.1.start
  cnt : w.bufAddr + w.cnt = f.1.start + f.2

/-- One write for each fragment, in order. -/
def DumpOk (env : DumpEnv) (f : DataFrame) : Prop :=
  List.Forall₂ UsbWrite.Sends (f.rtwDumpXframe env) (withLens f.micLen (f.frags env.fragLen))

/-- The lengths fit into their fields. If there is more than one fragment, nothing is taken off for an ICV
that is not there, and every fragment but the first goes without a packet offset. -/
structure DumpFits (env : DumpEnv) (f : DataFrame) : Prop where
  nrFrags : (f.frags env.fragLen).length < 2 ^ 8
  size : ∀ g ∈ withLens f.micLen (f.frags env.fragLen), g.2 < 2 ^ 16
  icv : 1 < (f.frags env.fragLen).length → env.swEncrypt ∨ f.attrib.icvLen = 0
  pull : ∀ g ∈ (withLens f.micLen (f.frags env.fragLen)).tail,
    !env.mpMode ∧ !rtwUsbBulkSizeBoundary env.usbSpeed (txdescSize + g.2)

/-! ### The layout of the fragments -/

/-- Fragments at the distances that `rtw_xmitframe_coalesce` leaves between them; all but the last one have
the length `sz`. -/
def Spread (m sz : Nat) : List XmitFragment → Prop
  | [] => True
  | [_] => True
  | f :: g :: fs => f.size = sz ∧ g.start = rnd4 (f.start + f.size) + m ∧ Spread m sz (g :: fs)

section
variable {a : PktAttrib} {env : DumpEnv} {f : DataFrame} {g : XmitFragment} {gs : List XmitFragment}
  {n m sz fuel memStart frgInx memAddr bufAddr pktOffset icvLen mic : Nat} {last : Int} {hdr rest : List UInt8}

theorem coalesceLoop_parts (h : g ∈ coalesceLoop a n m hdr fuel memStart frgInx rest) :
    g.icvLen = a.swIcvLen ∧ (frgInx ≠ 0 → g.llc = []) := by
  induction fuel generalizing memStart frgInx rest with
  | zero => cases h
  | succ fuel ih =>
    have hllc : frgInx ≠ 0 → a.llc frgInx = [] := fun h => if_neg h
    unfold coalesceLoop at h
    dsimp only at h
    split at h
    · rw [List.mem_singleton.1 h]
      exact ⟨rfl, hllc⟩
    · rcases List.mem_cons.1 h with rfl | h
      · exact ⟨rfl, hllc⟩
      · obtain ⟨hicv, hl⟩ := ih h
        exact ⟨hicv, fun _ => hl (Nat.succ_ne_zero _)⟩

theorem coalesceLoop_spread (hb : a.bmcast = false) (hroom : hdr.length + a.iv.length + 8 + a.swIcvLen + 4 ≤ n)
    (hn : n < 2 ^ 32) (hiv : a.ivLen = a.iv.length) (hfrg : frgInx ≠ 0) (hpos : 0 < rest.length)
    (hfuel : rest.length ≤ fuel) :
    ∃ g gs, coalesceLoop a n m hdr fuel memStart frgInx rest = g :: gs ∧ g.start = memStart ∧ Spread m (n - 4) (g :: gs) := by
  induction fuel generalizing memStart frgInx rest with
  | zero => omega
  | succ fuel ih =>
    have hllc : a.llc frgInx = [] := if_neg hfrg
    have hmem : a.memSz n hdr.length frgInx rest.length =
        min rest.length (n - 4 - hdr.length - a.iv.length - a.swIcvLen) := by
      rw [memSz_unicast hb, PktAttrib.mpduLen, hllc, hiv]
      simp only [List.length_nil]
      omega
    rw [coalesceLoop]
    dsimp only
    split
    · exact ⟨_, [], rfl, rfl, trivial⟩
    · rename_i hmore
      rw [hb, Bool.false_or, beq_iff_eq, hmem] at hmore
      generalize hdrop : rest.drop (a.memSz n hdr.length frgInx rest.length) = rest'
      have hlen : rest'.length = rest.length - a.memSz n hdr.length frgInx rest.length := by
        rw [← hdrop, List.length_drop]
      generalize hm' : rnd4 _ + m = memStart'
      obtain ⟨k, ks, hks, hstart, hspread⟩ : ∃ k ks, coalesceLoop a n m hdr fuel memStart' (frgInx + 1) rest' = k :: ks ∧
          k.start = memStart' ∧ Spread m (n - 4) (k :: ks) := ih (Nat.succ_ne_zero _) (by omega) (by omega)
      refine ⟨_, k :: ks, congrArg _ hks, rfl, ?_, ?_, hspread⟩
      · simp only [XmitFragment.size, hllc, List.length_take, List.length_nil]
        omega
      · rw [hstart, ← hm']

theorem not_fits_room (h : ¬ f.Fits env.fragLen) :
    f.attrib.bmcast = false ∧ f.hdrlen + f.attrib.iv.length + 8 + f.attrib.swIcvLen + 4 ≤ env.fragLen ∧
      env.fragLen - 12 - f.hdrlen - f.attrib.iv.length - f.attrib.swIcvLen < f.payload.length := by
  have hhdrlen := f.hdrlen_lt
  have hivlen := f.ivLen_lt
  have hicv : f.attrib.swIcvLen < 2 ^ 8 := by
    unfold PktAttrib.swIcvLen
    split
    · exact f.icvLen_lt
    · decide
  have hlen := f.lt
  have hfrag := env.lt
  unfold TxFrame.Fits FitsOneMpdu at h
  push Not at h
  obtain ⟨hdr, hhdr, hb, hmpdu⟩ := h
  rw [ne_eq, Bool.not_eq_true] at hb
  rw [f.length_hdr hdr hhdr, PktAttrib.mpduLen, length_llc] at hmpdu
  simp only [TxFrame.coalesceEnv, f.ivLen_eq] at hmpdu hivlen
  refine ⟨hb, ?_, ?_⟩ <;> omega

/-- The fragments of a frame: the first one is behind a descriptor and a packet offset. -/
theorem frags_spread (f : DataFrame) (env : DumpEnv) : ∃ g gs, f.frags env.fragLen = g :: gs ∧
    g.start = txdescSize + packetOffsetSz ∧ Spread (txdescSize + packetOffsetSz) (env.fragLen - 4) (g :: gs) ∧
    (1 < (g :: gs).length ↔ ¬ f.Fits env.fragLen) := by
  obtain ⟨hdr, hhdr⟩ := Option.ne_none_iff_exists'.1 f.can.1
  by_cases hfit : f.Fits env.fragLen
  · exact ⟨_, [], TxFrame.frags_of_fits hfit hhdr, rfl, trivial, by simp [hfit]⟩
  · obtain ⟨hb, hroom, hlong⟩ := not_fits_room hfit
    have hlt := env.lt
    have hhdrlen : hdr.length = f.hdrlen := f.length_hdr hdr hhdr
    have hmem : f.attrib.memSz env.fragLen hdr.length 0 f.payload.length =
        env.fragLen - 12 - f.hdrlen - f.attrib.iv.length - f.attrib.swIcvLen := by
      rw [memSz_unicast hb, PktAttrib.mpduLen, length_llc, hhdrlen, f.ivLen_eq]
      omega
    unfold DataFrame.frags rtwXmitframeCoalesce
    rw [show (f.coalesceEnv env.fragLen 0 1).wlanhdr = some hdr from hhdr]
    dsimp only
    rw [coalesceLoop]
    dsimp only
    have hmore : ¬ (f.attrib.bmcast || f.payload.length ==
        f.attrib.memSz (f.coalesceEnv env.fragLen 0 1).fragLen hdr.length 0 f.payload.length) = true := by
      rw [show (f.coalesceEnv env.fragLen 0 1).fragLen = env.fragLen from rfl, hmem, hb, Bool.false_or, beq_iff_eq]
      omega
    rw [if_neg hmore]
    generalize hdrop : f.payload.drop _ = rest
    have hrest : rest.length = f.payload.length -
        (env.fragLen - 12 - f.hdrlen - f.attrib.iv.length - f.attrib.swIcvLen) := by
      rw [← hdrop, List.length_drop]
      exact congrArg (f.payload.length - ·) hmem
    generalize hstart : rnd4 _ + _ = memStart
    obtain ⟨k, ks, hks, hk, hspread⟩ : ∃ k ks, coalesceLoop f.attrib env.fragLen
        (f.coalesceEnv env.fragLen 0 1).hwHdrOffset hdr f.payload.length memStart 1 rest = k :: ks ∧
        k.start = memStart ∧ Spread (txdescSize + packetOffsetSz) (env.fragLen - 4) (k :: ks) :=
      coalesceLoop_spread hb (hhdrlen ▸ hroom) hlt f.ivLen_eq Nat.one_ne_zero (by omega) (by omega)
    refine ⟨_, k :: ks, congrArg _ hks, rfl, ⟨?_, hk.trans hstart.symm, hspread⟩, by simp [hfit]⟩
    simp only [XmitFragment.size, length_llc, List.length_take, hhdrlen]
    rw [show (f.coalesceEnv env.fragLen 0 1).fragLen = env.fragLen from rfl, ← hhdrlen, hmem]
    omega

theorem llc_of_mem_tail (h : coalesceLoop a n m hdr fuel memStart frgInx rest = g :: gs) {k : XmitFragment}
    (hk : k ∈ gs) : k.llc = [] := by
  cases fuel with
  | zero => cases h
  | succ fuel =>
    rw [coalesceLoop] at h
    dsimp only at h
    split at h
    · cases h
      cases hk
    · cases h
      exact (coalesceLoop_parts hk).2 (Nat.succ_ne_zero _)

/-- `last_txcmdsz` is the length of the last fragment, with the MIC. -/
theorem lastTxcmdsz_eq (hg : (f.frags env.fragLen).getLast? = some g) :
    (f.coalesce env.fragLen 0 1).lastTxcmdsz = g.size + f.micLen := by
  obtain ⟨hdr, hhdr⟩ := Option.ne_none_iff_exists'.1 f.can.1
  have henv : (f.coalesceEnv env.fragLen 0 1).hdrlen = hdr.length := hdrlen_eq hhdr
  have hfrags : f.frags env.fragLen = coalesceLoop f.attrib env.fragLen (f.coalesceEnv env.fragLen 0 1).hwHdrOffset hdr
      (f.payload.length + 1) (f.coalesceEnv env.fragLen 0 1).memStart 0 f.payload := by
    unfold DataFrame.frags rtwXmitframeCoalesce
    rw [show (f.coalesceEnv env.fragLen 0 1).wlanhdr = some hdr from hhdr]
    rfl
  have hmem : g ∈ f.frags env.fragLen := List.mem_of_getLast? hg
  rw [hfrags] at hmem
  have hllc : (if (f.frags env.fragLen).length = 1 then g.llc.length else 0) = g.llc.length := by
    split
    · rfl
    · rename_i hne
      cases hcons : f.frags env.fragLen with
      | nil =>
        rw [hcons] at hg
        cases hg
      | cons k ks =>
        rw [hcons] at hg hne
        cases ks with
        | nil => exact absurd rfl hne
        | cons k' ks =>
          rw [List.getLast?_cons_cons] at hg
          rw [llc_of_mem_tail (hfrags.symm.trans hcons) (List.mem_of_getLast? hg)]
          rfl
  rw [TxFrame.coalesce_of_canCoalesce f.can]
  show (lastTxcmdsz _ _ (f.frags env.fragLen) + _).toNat = _
  rw [lastTxcmdsz, hg]
  dsimp only
  rw [hllc, henv, XmitFragment.size, (mem_coalesceLoop hmem).2, iv_of_mem_coalesceLoop hmem,
    (coalesceLoop_parts hmem).1, f.ivLen_eq]
  omega

/-! ### The writes -/

/-- A fragment is sent when its size is the right one, and the packet offset is taken out or nothing has been
moved before. -/
theorem sends_dumpOne_iff {size : Int} {len : Nat} (hg : g.start = memAddr + txdescSize + packetOffsetSz)
    (hoff : pktOffset ≤ 1) :
    (dumpOne env size memAddr bufAddr pktOffset).1.Sends (g, len) ↔
      size = len ∧ len < 2 ^ 16 ∧ (env.pull size ∨ bufAddr = memAddr ∧ pktOffset = 1) := by
  have hmod : len < 2 ^ 16 → ((len : Int) % 2 ^ 16).toNat % 2 ^ 16 = len := by omega
  cases hp : env.pull size with
  | true =>
    have hoff' : (if (true && decide (pktOffset > 0)) = true then pktOffset - 1 else pktOffset) = 0 := by
      rcases Nat.le_one_iff_eq_zero_or_eq_one.1 hoff with rfl | rfl <;> rfl
    constructor
    · rintro ⟨-, hsize, -, hcnt⟩
      simp only [dumpOne, hp, if_true, updateTxdesc] at hsize hcnt
      have hlen : size = len := by
        push_cast [hg] at hcnt
        omega
      exact ⟨hlen, by omega, .inl rfl⟩
    · rintro ⟨rfl, hlen, -⟩
      refine ⟨?_, ?_, ?_, ?_⟩ <;> simp only [dumpOne, hp, if_true, updateTxdesc, hoff', hg]
      · exact hmod hlen
      · omega
      · omega
  | false =>
    constructor
    · rintro ⟨haddr, hsize, hpkt, hcnt⟩
      simp only [dumpOne, hp, Bool.false_eq_true, if_false, Bool.false_and, updateTxdesc, hg] at haddr hsize hpkt hcnt
      have hlen : size = len := by
        push_cast at hcnt
        omega
      have hone : pktOffset = 1 := by
        unfold packetOffsetSz at hpkt
        omega
      exact ⟨hlen, by omega, .inr ⟨haddr, hone⟩⟩
    · rintro ⟨rfl, hlen, hpull | ⟨rfl, rfl⟩⟩
      · cases hpull
      · refine ⟨?_, ?_, ?_, ?_⟩ <;>
          simp only [dumpOne, hp, Bool.false_eq_true, if_false, Bool.false_and, updateTxdesc, hg]
        · exact hmod hlen
        · omega
        · omega

theorem bufAddr_le (env : DumpEnv) (pktOffset : Nat) (hbuf : bufAddr ≤ memAddr) (size : Int) :
    (dumpOne env size memAddr bufAddr pktOffset).1.bufAddr ≤ memAddr + packetOffsetSz := by
  unfold dumpOne
  dsimp only
  split <;> omega

theorem pktOffset_le (env : DumpEnv) (memAddr bufAddr : Nat) (hoff : pktOffset ≤ 1) (size : Int) :
    (dumpOne env size memAddr bufAddr pktOffset).2 ≤ 1 := by
  unfold dumpOne
  dsimp only
  split <;> omega

/-- A fragment that is not the last one leads to the next one. -/
theorem sends_next {w : UsbWrite} {k : XmitFragment} {len : Nat} (hw : w.Sends (g, len))
    (hk : k.start = rnd4 (g.start + len) + (txdescSize + packetOffsetSz)) :
    k.start = rnd4 (w.ptxdesc + w.cnt).toNat + txdescSize + packetOffsetSz := by
  have hcnt : (w.bufAddr : Int) + w.cnt = g.start + len := hw.cnt
  rw [hw.bufAddr] at hcnt
  have hnat : (w.ptxdesc + w.cnt).toNat = g.start + len := by omega
  rw [hnat, hk, Nat.add_assoc]

theorem dumpLoop_last : dumpLoop env icvLen last 1 memAddr bufAddr pktOffset =
    [(dumpOne env last memAddr bufAddr pktOffset).1] := rfl

theorem dumpLoop_more : dumpLoop env icvLen last (n + 1 + 1) memAddr bufAddr pktOffset =
    let sz : Int := env.fragLen - 4 - (if env.swEncrypt then 0 else icvLen : Nat)
    let r := dumpOne env sz memAddr bufAddr pktOffset
    r.1 :: dumpLoop env icvLen last (n + 1) (rnd4 (r.1.ptxdesc + r.1.cnt).toNat) r.1.bufAddr r.2 := rfl

theorem withLens_cons_cons {k : XmitFragment} : withLens mic (g :: k :: gs) = (g, g.size) :: withLens mic (k :: gs) := rfl

/-- The size that `rtw_dump_xframe` takes a fragment for, if it is not the last one. -/
theorem fragSize_iff (hn : 4 ≤ env.fragLen) (hsize : g.size = env.fragLen - 4) :
    (env.fragLen - 4 - (if env.swEncrypt then 0 else icvLen : Nat) : Int) = g.size ↔ env.swEncrypt ∨ icvLen = 0 := by
  rw [hsize]
  cases env.swEncrypt <;> simp <;> omega

/-- The fragments behind the first one. `buf_addr` has been left behind. -/
theorem sends_dumpLoop_iff (icvLen : Nat) (hs : Spread (txdescSize + packetOffsetSz) (env.fragLen - 4) (g :: gs))
    (hn : 1 < (g :: gs).length → 4 ≤ env.fragLen) (hlast : ∀ k ∈ (g :: gs).getLast?, last = (k.size + mic : Nat))
    (hg : g.start = memAddr + txdescSize + packetOffsetSz) (hbuf : bufAddr < memAddr) (hoff : pktOffset ≤ 1) :
    List.Forall₂ UsbWrite.Sends (dumpLoop env icvLen last (g :: gs).length memAddr bufAddr pktOffset)
        (withLens mic (g :: gs)) ↔
      (∀ k ∈ withLens mic (g :: gs), k.2 < 2 ^ 16 ∧ env.pull k.2) ∧
        (1 < (g :: gs).length → env.swEncrypt ∨ icvLen = 0) := by
  induction gs generalizing g memAddr bufAddr pktOffset with
  | nil =>
    show List.Forall₂ _ (dumpLoop env icvLen last 1 _ _ _) [(g, g.size + mic)] ↔ (∀ k ∈ [(g, g.size + mic)], _) ∧ _
    rw [dumpLoop_last, hlast g rfl]
    simp only [List.forall₂_cons, List.Forall₂.nil, and_true, sends_dumpOne_iff hg hoff, true_and, List.mem_singleton,
      forall_eq, hbuf.ne, false_and, or_false, List.length_singleton, Nat.lt_irrefl, false_implies]
  | cons k ks ih =>
    obtain ⟨hsize, hk, hks⟩ := hs
    have hn := hn (by simp)
    have hlast' : ∀ j ∈ (k :: ks).getLast?, last = (j.size + mic : Nat) := by
      rw [List.getLast?_cons_cons] at hlast
      exact hlast
    have hmore : 1 < (g :: k :: ks).length := by simp
    have hrnd := le_rnd4 (g.start + g.size)
    rw [withLens_cons_cons, List.forall_mem_cons, show (g :: k :: ks).length = ks.length + 1 + 1 from rfl,
      dumpLoop_more]
    dsimp only
    generalize hsz : (env.fragLen - 4 - (if env.swEncrypt then 0 else icvLen : Nat) : Int) = sz
    have hle := bufAddr_le env pktOffset hbuf.le sz
    have hrest (hw : (dumpOne env sz memAddr bufAddr pktOffset).1.Sends (g, g.size)) :=
      have hnext : k.start = rnd4 ((dumpOne env sz memAddr bufAddr pktOffset).1.ptxdesc +
          (dumpOne env sz memAddr bufAddr pktOffset).1.cnt).toNat + txdescSize + packetOffsetSz := sends_next hw hk
      have hlt : (dumpOne env sz memAddr bufAddr pktOffset).1.bufAddr <
          rnd4 ((dumpOne env sz memAddr bufAddr pktOffset).1.ptxdesc +
            (dumpOne env sz memAddr bufAddr pktOffset).1.cnt).toNat := by
        unfold txdescSize packetOffsetSz at *
        omega
      ih hks (fun _ => hn) hlast' hnext hlt (pktOffset_le env memAddr bufAddr hoff sz)
    rw [List.forall₂_cons]
    constructor
    · rintro ⟨hw, htail⟩
      obtain ⟨hsize', hlt, hpull⟩ := (sends_dumpOne_iff hg hoff).1 hw
      obtain ⟨hall, -⟩ := (hrest hw).1 htail
      rw [hsize'] at hpull
      refine ⟨⟨⟨hlt, hpull.resolve_right fun h => hbuf.ne h.1⟩, hall⟩, fun _ => ?_⟩
      rw [← hsz, fragSize_iff hn hsize] at hsize'
      exact hsize'
    · rintro ⟨⟨⟨hlt, hpull⟩, hall⟩, hicv⟩
      have hsize' : sz = g.size := hsz ▸ (fragSize_iff hn hsize).2 (hicv hmore)
      have hw : (dumpOne env sz memAddr bufAddr pktOffset).1.Sends (g, g.size) :=
        (sends_dumpOne_iff hg hoff).2 ⟨hsize', hlt, .inl (hsize' ▸ hpull)⟩
      exact ⟨hw, (hrest hw).2 ⟨hall, fun _ => hicv hmore⟩⟩

theorem length_withLens (mic : Nat) (gs : List XmitFragment) : (withLens mic gs).length = gs.length := by
  induction gs with
  | nil => rfl
  | cons g gs ih =>
    cases gs with
    | nil => rfl
    | cons k ks => exact congrArg (· + 1) ih

theorem length_dumpLoop : (dumpLoop env icvLen last n memAddr bufAddr pktOffset).length = n := by
  induction n generalizing memAddr bufAddr pktOffset with
  | zero => rfl
  | succ n ih => exact congrArg (· + 1) ih

/-- The first fragment is sent from the buffer's first byte. -/
theorem sends_first_iff {size : Int} {len : Nat} (hg : g.start = txdescSize + packetOffsetSz) :
    (dumpOne env size 0 0 1).1.Sends (g, len) ↔ size = len ∧ len < 2 ^ 16 := by
  rw [sends_dumpOne_iff (by omega) (Nat.le_refl _)]
  exact ⟨fun ⟨hsize, hlt, _⟩ => ⟨hsize, hlt⟩, fun ⟨hsize, hlt⟩ => ⟨hsize, hlt, .inr ⟨rfl, rfl⟩⟩⟩

theorem dumpOk_iff_of_nrFrags (hnr : (f.frags env.fragLen).length < 2 ^ 8) : DumpOk env f ↔ DumpFits env f := by
  obtain ⟨g, gs, hfrags, hg, hs, hn⟩ := frags_spread f env
  have hlast : ∀ k ∈ (g :: gs).getLast?, ((f.coalesce env.fragLen 0 1).lastTxcmdsz : Int) = (k.size + f.micLen : Nat) :=
    fun k hk => congrArg _ (lastTxcmdsz_eq (hfrags ▸ hk))
  have hfits : DumpFits env f ↔ (∀ k ∈ withLens f.micLen (g :: gs), k.2 < 2 ^ 16) ∧
      (1 < (g :: gs).length → env.swEncrypt ∨ f.attrib.icvLen = 0) ∧
      ∀ k ∈ (withLens f.micLen (g :: gs)).tail, env.pull k.2 := by
    simp only [DumpEnv.pull, Bool.and_eq_true]
    rw [← hfrags]
    exact ⟨fun h => ⟨h.size, h.icv, h.pull⟩, fun ⟨hsize, hicv, hpull⟩ => ⟨hnr, hsize, hicv, hpull⟩⟩
  rw [hfits, DumpOk, DataFrame.rtwDumpXframe, Nat.mod_eq_of_lt hnr, hfrags]
  cases gs with
  | nil =>
    rw [show [g].length = 1 from rfl, dumpLoop_last, hlast g rfl]
    show List.Forall₂ _ _ [(g, g.size + f.micLen)] ↔ (∀ k ∈ [(g, g.size + f.micLen)], _) ∧ _ ∧ ∀ k ∈ [], _
    simp [sends_first_iff hg]
  | cons k ks =>
    obtain ⟨hsize, hk, hks⟩ := hs
    have hmore : 1 < (g :: k :: ks).length := by simp
    have hn : 4 ≤ env.fragLen := by
      have hroom := (not_fits_room (hn.1 hmore)).2.1
      omega
    have hrnd := le_rnd4 (g.start + g.size)
    rw [List.getLast?_cons_cons] at hlast
    rw [withLens_cons_cons, List.forall_mem_cons, List.tail_cons, show (g :: k :: ks).length = ks.length + 1 + 1 from rfl,
      dumpLoop_more]
    dsimp only
    generalize hsz : (env.fragLen - 4 - (if env.swEncrypt then 0 else f.attrib.icvLen : Nat) : Int) = sz
    have hsz : sz = g.size ↔ env.swEncrypt ∨ f.attrib.icvLen = 0 := hsz ▸ fragSize_iff hn hsize
    have hle := bufAddr_le env 1 (Nat.le_refl 0) sz
    have hrest (hw : (dumpOne env sz 0 0 1).1.Sends (g, g.size)) :=
      have hnext : k.start = rnd4 ((dumpOne env sz 0 0 1).1.ptxdesc + (dumpOne env sz 0 0 1).1.cnt).toNat + txdescSize +
          packetOffsetSz := sends_next hw hk
      have hlt : (dumpOne env sz 0 0 1).1.bufAddr <
          rnd4 ((dumpOne env sz 0 0 1).1.ptxdesc + (dumpOne env sz 0 0 1).1.cnt).toNat := by
        unfold txdescSize packetOffsetSz at *
        omega
      sends_dumpLoop_iff f.attrib.icvLen hks (fun _ => hn) hlast hnext hlt (pktOffset_le env 0 0 (Nat.le_refl 1) sz)
    rw [List.forall₂_cons, sends_first_iff hg, hsz]
    constructor
    · rintro ⟨⟨hicv, hlt⟩, htail⟩
      obtain ⟨hall, -⟩ := (hrest ((sends_first_iff hg).2 ⟨hsz.2 hicv, hlt⟩)).1 htail
      exact ⟨⟨hlt, fun j hj => (hall j hj).1⟩, fun _ => hicv, fun j hj => (hall j hj).2⟩
    · rintro ⟨⟨hlt, hall⟩, hicv, hpull⟩
      have hicv := hicv hmore
      have hw : (dumpOne env sz 0 0 1).1.Sends (g, g.size) := (sends_first_iff hg).2 ⟨hsz.2 hicv, hlt⟩
      exact ⟨⟨hicv, hlt⟩, (hrest hw).2 ⟨fun j hj => ⟨hall j hj, hpull j hj⟩, fun _ => hicv⟩⟩

theorem nrFrags_of_dumpOk (h : DumpOk env f) : (f.frags env.fragLen).length < 2 ^ 8 := by
  have hlen := h.length_eq
  rw [DataFrame.rtwDumpXframe, length_dumpLoop, length_withLens] at hlen
  omega

end

/-- Each fragment is written once, from its descriptor and with its length, exactly when the lengths fit and
the fragments behind the first one leave the address and the packet offset behind. -/
theorem dumpOk_iff (env : DumpEnv) (f : DataFrame) : DumpOk env f ↔ DumpFits env f :=
  ⟨fun h => (dumpOk_iff_of_nrFrags (nrFrags_of_dumpOk h)).1 h, fun h => (dumpOk_iff_of_nrFrags h.nrFrags).2 h⟩

/-- High speed, and `iwconfig frag 256`; the hardware encrypts. -/
def dumpEnv : DumpEnv where
  fragLen := 256
  mpMode := false
  usbSpeed := .high
  swEncrypt := false
  lt := by decide

/-- A packet of 310 bytes with a QoS header and a CCMP header. -/
def aesFrame : DataFrame where
  attrib := {
    bmcast := false, etherType := 0x0800, pktlen := 310, encrypt := .aes, keyIdx := 0, ivLen := 8, icvLen := 8
    iv := List.replicate 8 0, bswenc := false }
  psta := 0
  priority := 0
  qsel := 0
  hdrlen := 26
  wlanhdr := some (List.replicate 26 0)
  payload := List.replicate 310 0
  sw := ⟨false, fun _ => 0⟩
  length_hdr _ h := by cases h; rfl
  le_hdrlen := by decide
  pktlen_eq := List.length_replicate.symm
  ivLen_eq := rfl
  lt := by rw [List.length_replicate]; decide
  can := ⟨Option.some_ne_none _, fun h => nomatch h.1⟩
  hdrlen_lt := by decide
  ivLen_lt := by decide
  icvLen_lt := by decide

/-- The first write of two is eight bytes short: no ICV has been laid out. -/
theorem not_dumpOk_aes : ¬ DumpOk dumpEnv aesFrame := by
  intro h
  have hfits : ¬ aesFrame.Fits dumpEnv.fragLen := by
    intro hfit
    rcases hfit _ rfl with hb | hlen
    · cases hb
    · have hpayload : aesFrame.payload.length = 310 := List.length_replicate
      rw [hpayload] at hlen
      exact absurd hlen (by decide)
  obtain ⟨g, gs, hfrags, -, -, hn⟩ := frags_spread aesFrame dumpEnv
  have hicv := ((dumpOk_iff_of_nrFrags (nrFrags_of_dumpOk h)).1 h).icv
  rw [hfrags] at hicv
  rcases hicv (hn.2 hfits) with hsw | hicv
  · cases hsw
  · cases hicv

end Rtw.Usb
