import Rtw.Lib.Access
import Rtw.Recv.Ethhdr

/-!
# The lengths of `wlanhdr_to_ethhdr`

The function reads the LLC header and the type behind it before anything has been checked against the length of
the frame, and subtracts the length of what it removes. `recvframe_pull` fails only when the frame is so short
that even the room for the Ethernet header is missing.
-/

namespace Rtw
open Access Traced

/-- The test on the LLC header, with what it reads of the frame. -/
def bsnaphdrT (mem : List UInt8) (off : Nat) : Traced Unit Bool := do
  touch () off snapSize
  touchIf (bytesAt mem off snapSize = rfc1042Header) () (off + snapSize : Nat) 2
  return bsnaphdr mem off

/-- `wlanhdr_to_ethhdr`, with what it reads of the frame: the LLC header, and the type. -/
def wlanhdrToEthhdrT (mp : Bool) (f : RecvFrame) : Traced Unit (Option RecvFrame) := do
  let snap ← bsnaphdrT f.mem (llcOff f)
  touch () (llcOff f + if snap then snapSize else 0 : Nat) 2
  return wlanhdrToEthhdr mp f

/-- The length of the ICV that is pulled off. -/
def icvPart (f : RecvFrame) : Nat := if f.attrib.encrypt ≠ .noPrivacy then f.attrib.icvLen else 0

/-- The length of the LLC/SNAP header that is removed, with the type. -/
def llcPart (f : RecvFrame) : Nat := if bsnaphdr f.mem (llcOff f) then snapSize + 2 else 0

/-- What is left behind the 802.11 header, the IV and the LLC/SNAP header, without the ICV. -/
def remaining (f : RecvFrame) : Int := f.len - llcOff f - llcPart f - icvPart f

/-- The packet is the Ethernet header and what is left of the frame, no length falls below zero, and nothing
behind the frame is read. -/
structure EthhdrOk (mp : Bool) (f : RecvFrame) : Prop where
  len : ∀ g, wlanhdrToEthhdr mp f = some g → 0 ≤ remaining f ∧ (g.len : Int) = ethHlen + remaining f
  rmv : rmvLen f ≤ (pullIcv f).len
  reads : Within (fun _ => f.len) (wlanhdrToEthhdrT mp f)

section
variable {f g : RecvFrame} {mp : Bool} {off : Nat}

theorem val_bsnaphdrT (mem : List UInt8) : (bsnaphdrT mem off).val = bsnaphdr mem off := rfl

theorem within_bsnaphdrT {mem : List UInt8} {n : Nat} : Within (fun _ => n) (bsnaphdrT mem off) ↔
    off + snapSize ≤ n ∧ (bytesAt mem off snapSize = rfc1042Header → off + snapSize + 2 ≤ n) := by
  have hsz : ¬ snapSize = 0 := by decide
  have htwo : ¬ 2 = 0 := by decide
  simp only [bsnaphdrT, within_bind, within_touch_nat, within_touchIf, within_pure, hsz, htwo, false_or, and_true]

theorem within_wlanhdrToEthhdrT : Within (fun _ => f.len) (wlanhdrToEthhdrT mp f) ↔
    llcOff f + snapSize ≤ f.len ∧
      (bytesAt f.mem (llcOff f) snapSize = rfc1042Header → llcOff f + snapSize + 2 ≤ f.len) ∧
      rmvLen f + 2 ≤ f.len := by
  have htwo : ¬ 2 = 0 := by decide
  rw [wlanhdrToEthhdrT, within_bind, within_bsnaphdrT, within_bind, val_bsnaphdrT, within_touch_nat]
  simp only [htwo, false_or, within_pure, and_true, and_assoc, rmvLen]

theorem len_pullIcv (f : RecvFrame) : (pullIcv f).len = if f.len < icvPart f then f.len else f.len - icvPart f := by
  unfold pullIcv icvPart
  split
  · rw [recvframePullTail]
    split
    · rfl
    · exact List.length_take_of_le (Nat.sub_le ..)
  · rw [if_neg (Nat.not_lt_zero _), Nat.sub_zero]

/-- What is removed, in terms of the LLC/SNAP header with its type: the type stays. -/
theorem rmvLen_eq (f : RecvFrame) :
    bsnaphdr f.mem (llcOff f) = true ∧ llcPart f = 8 ∧ rmvLen f = llcOff f + 6 ∧ pullLen f = rmvLen f - 14 + 2 ∨
      bsnaphdr f.mem (llcOff f) = false ∧ llcPart f = 0 ∧ rmvLen f = llcOff f ∧ pullLen f = rmvLen f - 14 := by
  cases h : bsnaphdr f.mem (llcOff f) with
  | true => simp [rmvLen, llcPart, pullLen, snapSize, ethHlen, h]
  | false => simp [rmvLen, llcPart, pullLen, ethHlen, h]

theorem len_recvframePullBack (f : RecvFrame) (sz : Nat) : (recvframePullBack f sz).len = f.len + sz := by
  simp only [recvframePullBack, RecvFrame.len, List.length_append, List.length_replicate, List.length_drop]
  omega

theorem recvframePull_of_le {sz : Nat} (h : sz ≤ f.len) : ∃ g, recvframePull f sz = some g ∧ g.len = f.len - sz :=
  ⟨_, if_neg (Nat.not_lt.2 h), List.length_drop⟩

/-- In MP state the packet has 24 bytes of receive status in front. -/
theorem len_wlanhdrToEthhdr_mp (hhdr : ethHlen ≤ f.attrib.hdrlen) (hrmv : rmvLen f ≤ (pullIcv f).len) :
    ∃ g, wlanhdrToEthhdr true f = some g ∧ (g.len : Int) = (pullIcv f).len - rmvLen f + 36 := by
  have hoff : ethHlen ≤ rmvLen f := by
    have := rmvLen_eq f
    unfold llcOff at this
    omega
  unfold wlanhdrToEthhdr
  simp only [if_true, rmvLen_pullIcv, pullIcv_mem, pullIcv_attrib, llcOff_pullIcv]
  unfold ethHlen at *
  split
  · refine ⟨_, rfl, ?_⟩
    rw [len_putEthhdr, RecvFrame.len_memcpy, len_recvframePullBack, RecvFrame.len_memcpy]
    show (((pullIcv f).len + (24 - (rmvLen f - 14 + 2)) : Nat) : Int) = _
    omega
  · have hle : rmvLen f - 14 + 2 - 24 ≤ RecvFrame.len
        ({ pullIcv f with attrib := { f.attrib with ethType := getBe16 f.mem (rmvLen f) } }.memcpy (rmvLen f)
          [0x87, 0x12]) := by
      rw [RecvFrame.len_memcpy]
      exact Nat.le_trans (by omega) hrmv
    obtain ⟨g, hg, hlen⟩ := recvframePull_of_le hle
    rw [hg]
    refine ⟨_, rfl, ?_⟩
    rw [len_putEthhdr, RecvFrame.len_memcpy, hlen, RecvFrame.len_memcpy]
    show (((pullIcv f).len - (rmvLen f - 14 + 2 - 24) : Nat) : Int) = _
    omega

/-- `wlanhdr_to_ethhdr` keeps to the lengths exactly when the driver is not in MP state, the frame is long enough
for all that is removed, and for the bytes in which it looks for an LLC/SNAP header. -/
theorem ethhdrOk_iff (mp : Bool) (f : RecvFrame) (hhdr : ethHlen ≤ f.attrib.hdrlen) : EthhdrOk mp f ↔
    mp = false ∧ llcOff f + llcPart f + icvPart f ≤ f.len ∧
      llcOff f + (if bytesAt f.mem (llcOff f) snapSize = rfc1042Header then snapSize + 2 else snapSize) ≤ f.len := by
  have hicv := len_pullIcv f
  have hrmv := rmvLen_eq f
  have hoff : ethHlen ≤ llcOff f := Nat.le_add_right_of_le hhdr
  have hreads : Within (fun _ => f.len) (wlanhdrToEthhdrT mp f) ↔ llcOff f +
      (if bytesAt f.mem (llcOff f) snapSize = rfc1042Header then snapSize + 2 else snapSize) ≤ f.len ∧
        rmvLen f + 2 ≤ f.len := by
    rw [within_wlanhdrToEthhdrT]
    unfold snapSize
    split
    · rename_i hrfc
      exact ⟨fun ⟨_, h, h'⟩ => ⟨h hrfc, h'⟩, fun ⟨h, h'⟩ => ⟨by omega, fun _ => h, h'⟩⟩
    · rename_i hrfc
      exact ⟨fun ⟨h, _, h'⟩ => ⟨h, h'⟩, fun ⟨h, h'⟩ => ⟨h, fun hr => absurd hr hrfc, h'⟩⟩
  unfold ethHlen at hoff
  constructor
  · intro h
    have hle := h.rmv
    have hread := (hreads.1 h.reads).1
    cases mp with
    | true =>
      obtain ⟨g, hg, hlen⟩ := len_wlanhdrToEthhdr_mp hhdr hle
      obtain ⟨hpos, heq⟩ := h.len g hg
      unfold remaining at hpos heq
      unfold ethHlen at heq
      split at hicv <;> omega
    | false =>
      obtain ⟨hlt, -⟩ | ⟨-, g, hg, -, -⟩ := wlanhdrToEthhdr_cases f
      · omega
      · obtain ⟨hpos, -⟩ := h.len g hg
        unfold remaining at hpos
        exact ⟨rfl, by omega, hread⟩
  · rintro ⟨rfl, hlen, hread⟩
    refine ⟨fun g hg => ?_, by split at hicv <;> omega, hreads.2 ⟨hread, ?_⟩⟩
    · obtain ⟨-, hnone⟩ | ⟨-, g', hg', hlen', -⟩ := wlanhdrToEthhdr_cases f
      · rw [hnone] at hg
        cases hg
      · obtain rfl := Option.some.inj (hg'.symm.trans hg)
        unfold remaining ethHlen
        split at hicv <;> omega
    · split at hread <;> unfold snapSize at hread <;> omega

end

/-- A WEP frame of an access point, without a QoS header. -/
def wepData (data : List UInt8) : RecvFrame where
  id := 0
  attrib := {
    hdrlen := 24, toFrDs := 1, amsdu := false, qos := false, priority := 0, seqNum := 0, fragNum := 0, mfrag := false
    privacy := true, bdecrypted := true, encrypt := .wep40, ivLen := 4, icvLen := 4, ethType := 0
    dst := .replicate 6 2, src := .replicate 6 4, ta := .replicate 6 6, ra := .replicate 6 2, bssid := .replicate 6 6 }
  head := []
  data := data
  slack := []

theorem ethhdrOk_wepData :
    EthhdrOk false (wepData (List.replicate 28 0 ++ rfc1042Header ++ [0x08, 0x00, 0x45, 0, 0, 0, 0])) :=
  (ethhdrOk_iff false _ (by decide)).2 (by decide)

/-- 26 bytes, the last two of them those of the IV: the length falls below zero. -/
theorem not_ethhdrOk_short : ¬ ∀ mp f, ethHlen ≤ f.attrib.hdrlen → EthhdrOk mp f := fun h =>
  absurd (h false (wepData (List.replicate 26 0)) (by decide)).rmv (by decide)

end Rtw
