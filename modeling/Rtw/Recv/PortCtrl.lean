import Rtw.Recv.Ethhdr

/-!
# The 802.1X port

`portctrl` lets a frame from a blocked station pass when the two bytes behind a six-byte LLC header
say EAPOL. What the packet looks like is decided later, by one of the two converters. `packetsOk_iff`
says for which frames every packet that comes out of them has the EtherType of EAPOL.
-/

namespace Rtw

def llcHeaderSize : Nat := 6

def dot11AuthAlgrthm8021X : Nat := 2

def eapolType : Nat := 0x888e

/-- `portctrl`. `blocked` is `ieee8021x_blocked` of the sender, if the sender is known. -/
def portctrl (authAlg : Nat) (blocked : Option Bool) (f : RecvFrame) : Option RecvFrame :=
  if authAlg = dot11AuthAlgrthm8021X then
    if blocked = some true then
      if getBe16 f.mem (llcOff f + llcHeaderSize) = eapolType then some f else none
    else some f
  else some f

/-- The packets that `process_recv_indicatepkts` hands up for a frame, at once or through the reorder
queue. `ht` is `ht_option`: without it an A-MSDU is not taken apart. In MP state frames take another
way, through `mp_recv_frame`. -/
def indicatedPackets (ht : Bool) (alloc : Nat → Bool) (f : RecvFrame) : List (List UInt8) :=
  if ht && f.attrib.amsdu then amsduToMsdu alloc f
  else ((wlanhdrToEthhdr false f).map (·.data)).toList

/-- The packets handed up for a data frame, decrypted and put together, that comes to `portctrl`. -/
def portPackets (ht : Bool) (alloc : Nat → Bool) (authAlg : Nat) (blocked : Option Bool) (f : RecvFrame) :
    List (List UInt8) :=
  match portctrl authAlg blocked f with
  | none => []
  | some f => indicatedPackets ht alloc f

/-- The EtherType of a packet that has one. -/
def etherType (pkt : List UInt8) : Option Nat := if ethHlen ≤ pkt.length then some (getBe16 pkt 12) else none

/-- The subframe payloads that the loop of `amsdu_to_msdu` cuts out. -/
def amsduBodies (alloc : Nat → Bool) : (room : Nat) → (pdata : List UInt8) → List (List UInt8)
  | 0, _ => []
  | room + 1, pdata =>
    let n := getBe16 pdata 12
    if pdata.length ≤ ethHlen then []
    else if pdata.length < ethHlen + n then []
    else if !alloc (maxSubframeCount - (room + 1)) then []
    else
      let rest := pdata.drop (ethHlen + n)
      let paddingLen := (4 - (n + ethHlen) % 4) % 4
      (pdata.drop ethHlen).take n ::
        if rest.length < paddingLen then [] else amsduBodies alloc room (rest.drop paddingLen)

/-- The payload of an A-MSDU: what is left behind the header and the IV. -/
def amsduPayload (f : RecvFrame) : List UInt8 :=
  let f := (recvframePull f f.attrib.hdrlen).getD f
  (if 0 < f.attrib.ivLen then (recvframePull f f.attrib.ivLen).getD f else f).data

/-! ### Frames that come out as EAPOL packets -/

/-- A subframe payload from which `rtw_os_alloc_msdu_pkt` makes an EAPOL packet: it has a SNAP header
with that type (or has no SNAP header and by chance the length that reads like the type). -/
def EapolBody (body : List UInt8) : Prop :=
  if bsnapBody body then getBe16 body 6 = eapolType else body.length % 65536 = eapolType

instance (body : List UInt8) : Decidable (EapolBody body) := by unfold EapolBody; infer_instance

/-- A frame with one MSDU that `wlanhdr_to_ethhdr` refuses or makes an EAPOL packet of, when it says
EAPOL behind the LLC header: the header is a SNAP header and the frame is long enough to have the type
(or there is no SNAP header and by chance the length reads like the type). -/
def EapolMsdu (f : RecvFrame) : Prop :=
  (pullIcv f).len < pullLen f ∨
    if bsnaphdr f.mem (llcOff f) then llcOff f + 8 ≤ (pullIcv f).len
    else llcOff f ≤ (pullIcv f).len ∧ ((pullIcv f).len - llcOff f) % 65536 = eapolType

instance (f : RecvFrame) : Decidable (EapolMsdu f) := by unfold EapolMsdu; infer_instance

/-- The condition on a frame under which a blocked station gets nothing but EAPOL through: the port
check refuses it, or what the check read is the EtherType of every packet made of it. -/
def PortOk (ht : Bool) (alloc : Nat → Bool) (f : RecvFrame) : Prop :=
  getBe16 f.mem (llcOff f + llcHeaderSize) = eapolType →
    if ht && f.attrib.amsdu then ∀ body ∈ amsduBodies alloc maxSubframeCount (amsduPayload f), EapolBody body
    else EapolMsdu f

instance (ht : Bool) (alloc : Nat → Bool) (f : RecvFrame) : Decidable (PortOk ht alloc f) := by
  unfold PortOk; infer_instance

section
variable {alloc : Nat → Bool} {f : RecvFrame}

/-- The packets of an A-MSDU are those of its subframe payloads. -/
theorem amsduSubframes_eq_map (pattrib : RxPktAttrib) (room : Nat) (pdata : List UInt8) :
    amsduSubframes pattrib alloc room pdata = (amsduBodies alloc room pdata).map (rtwOsAllocMsduPkt pattrib) := by
  induction room generalizing pdata with
  | zero => rfl
  | succ room ih =>
    simp only [amsduSubframes, amsduBodies]
    repeat' split
    all_goals simp [*]

theorem amsduToMsdu_eq_map : amsduToMsdu alloc f =
    (amsduBodies alloc maxSubframeCount (amsduPayload f)).map (rtwOsAllocMsduPkt f.attrib) := by
  have hpull : ∀ (g : RecvFrame) (n : Nat), ((recvframePull g n).getD g).attrib = g.attrib := by
    intro g n; unfold recvframePull; split <;> rfl
  unfold amsduToMsdu amsduPayload
  simp only [amsduSubframes_eq_map]
  split <;> simp only [hpull]

/-- The type bytes of a packet come right behind the addresses. -/
theorem etherType_addresses (dst src : MacAddr) (rest : List UInt8) :
    etherType (dst.toList ++ src.toList ++ rest) = if 2 ≤ rest.length then some (getBe16 rest 0) else none := by
  have haddr : (dst.toList ++ src.toList).length = 12 := by simp
  have hlen : (ethHlen ≤ (dst.toList ++ src.toList ++ rest).length) ↔ 2 ≤ rest.length := by
    rw [List.length_append, haddr]; unfold ethHlen; omega
  have hty : getBe16 (dst.toList ++ src.toList ++ rest) 12 = getBe16 rest 0 := by
    apply getBe16_congr <;> rw [List.getElem?_append_right (by omega), haddr]
  unfold etherType
  simp only [hlen, hty]

theorem etherType_msduPkt (pattrib : RxPktAttrib) (body : List UInt8) :
    etherType (rtwOsAllocMsduPkt pattrib body) = some eapolType ↔ EapolBody body := by
  unfold rtwOsAllocMsduPkt EapolBody
  cases hb : bsnapBody body with
  | true =>
    have hlen : 8 ≤ body.length := by simp only [bsnapBody, decide_eq_true_eq] at hb; exact hb.1
    have hty : getBe16 (body.drop snapSize) 0 = getBe16 body 6 := by
      apply getBe16_congr <;> rw [List.getElem?_drop] <;> rfl
    simp only [if_true]
    rw [etherType_addresses, if_pos (by rw [List.length_drop]; unfold snapSize; omega), hty, Option.some_inj]
  | false =>
    simp only [Bool.false_eq_true, if_false]
    rw [etherType_addresses, if_pos (by simp [be16]), getBe16_be16, Option.some_inj]

/-- A frame that passes the check comes out of `wlanhdr_to_ethhdr` as an EAPOL packet, or not at all,
exactly when it is `EapolMsdu`. -/
theorem etherType_wlanhdrToEthhdr (hhdr : ethHlen ≤ f.attrib.hdrlen)
    (hty : getBe16 f.mem (llcOff f + llcHeaderSize) = eapolType) :
    (∀ g ∈ wlanhdrToEthhdr false f, etherType g.data = some eapolType) ↔ EapolMsdu f := by
  have hoff : ethHlen ≤ llcOff f := Nat.le_trans hhdr (Nat.le_add_right ..)
  unfold EapolMsdu
  rcases wlanhdrToEthhdr_cases f with ⟨hlt, hnone⟩ | ⟨hle, g, hg, hlen, htype⟩
  · rw [hnone]; simp [hlt]
  · rw [hg, or_iff_right (by omega)]
    simp only [Option.mem_def, Option.some.injEq, forall_eq']
    have hget : ∀ i, i < (pullIcv f).len → (pullIcv f).data[i]? = f.mem[i]? := fun i hi => by
      rw [← pullIcv_mem f, RecvFrame.getElem?_mem _ hi]
    have hdata : g.data.length = g.len := rfl
    unfold etherType
    cases hsnap : bsnaphdr f.mem (llcOff f) with
    | true =>
      have hpull : pullLen f + 6 = llcOff f := by
        unfold pullLen rmvLen; rw [hsnap]; simp only [if_true, ethHlen, snapSize] at *; omega
      have hlong : ethHlen ≤ g.data.length ↔ llcOff f + 8 ≤ (pullIcv f).len := by
        rw [hdata, hlen]; unfold ethHlen; omega
      by_cases h : llcOff f + 8 ≤ (pullIcv f).len
      · have hsame : getBe16 (pullIcv f).data (pullLen f + 12) = getBe16 f.mem (llcOff f + llcHeaderSize) := by
          rw [show pullLen f + 12 = llcOff f + llcHeaderSize by unfold llcHeaderSize; omega]
          apply getBe16_congr <;> exact hget _ (by unfold llcHeaderSize; omega)
        rw [if_pos (hlong.2 h), htype (hlong.2 h), hsnap, if_pos rfl, if_pos rfl, hsame, hty]
        simp [h]
      · rw [if_neg fun h' => h (hlong.1 h')]; simp [h]
    | false =>
      have hpull : pullLen f + 14 = llcOff f := by
        unfold pullLen rmvLen; rw [hsnap]; simp only [Bool.false_eq_true, if_false, ethHlen] at *; omega
      have hrmv : rmvLen f = llcOff f := by unfold rmvLen; rw [hsnap]; rfl
      have hlong : ethHlen ≤ g.data.length ↔ llcOff f ≤ (pullIcv f).len := by
        rw [hdata, hlen]; unfold ethHlen; omega
      by_cases h : llcOff f ≤ (pullIcv f).len
      · have hmod : ((pullIcv f).len + 65536 - llcOff f) % 65536 = ((pullIcv f).len - llcOff f) % 65536 := by
          rw [show (pullIcv f).len + 65536 - llcOff f = (pullIcv f).len - llcOff f + 65536 by omega,
            Nat.add_mod_right]
        rw [if_pos (hlong.2 h), htype (hlong.2 h), hsnap, hrmv, hmod]
        simp [h]
      · rw [if_neg fun h' => h (hlong.1 h')]; simp [h]

/-- Every packet made of a data frame from a blocked station is an EAPOL packet exactly when the frame
meets `PortOk`. -/
theorem packetsOk_iff (ht : Bool) (alloc : Nat → Bool) (f : RecvFrame) (hhdr : ethHlen ≤ f.attrib.hdrlen) :
    (∀ pkt ∈ portPackets ht alloc dot11AuthAlgrthm8021X (some true) f, etherType pkt = some eapolType) ↔
      PortOk ht alloc f := by
  unfold portPackets portctrl PortOk
  simp only [if_true]
  by_cases hty : getBe16 f.mem (llcOff f + llcHeaderSize) = eapolType
  · simp only [hty, if_true, forall_const]
    unfold indicatedPackets
    split
    · rw [amsduToMsdu_eq_map]
      simp only [List.forall_mem_map, etherType_msduPkt]
    · rw [← etherType_wlanhdrToEthhdr hhdr hty]
      cases wlanhdrToEthhdr false f <;> simp
  · simp [hty]

end

/-- A QoS data frame from an unprotected station. -/
def qosData (amsdu : Bool) (payload : List UInt8) : RecvFrame where
  id := 0
  attrib :=
    { hdrlen := 26, toFrDs := 1, amsdu, qos := true, priority := 0, seqNum := 0, fragNum := 0, mfrag := false
      privacy := false, bdecrypted := false, encrypt := .noPrivacy, ivLen := 0, icvLen := 0, ethType := 0
      dst := .replicate 6 0, src := .replicate 6 2, ta := .replicate 6 4, ra := .replicate 6 0
      bssid := .replicate 6 4 }
  head := []
  data := List.replicate 26 0 ++ payload
  slack := []

/-- An EAPOL start comes out as one. -/
theorem packetsOk_eapolStart :
    let f := qosData false [0xaa, 0xaa, 3, 0, 0, 0, 0x88, 0x8e, 1, 1, 0, 0]
    portPackets true (fun _ => true) dot11AuthAlgrthm8021X (some true) f ≠ [] ∧
      ∀ pkt ∈ portPackets true (fun _ => true) dot11AuthAlgrthm8021X (some true) f, etherType pkt = some eapolType :=
  ⟨by decide, (packetsOk_iff true _ _ (by decide)).2 (by decide)⟩

/-- An A-MSDU whose first subframe has a source address starting with 88:8e passes the check, and the
IPv4 packet in it is handed up. -/
theorem not_packetsOk_amsdu :
    ¬ ∀ (ht : Bool) (alloc : Nat → Bool) (f : RecvFrame), ethHlen ≤ f.attrib.hdrlen →
      ∀ pkt ∈ portPackets ht alloc dot11AuthAlgrthm8021X (some true) f, etherType pkt = some eapolType := by
  intro h
  have := h true (fun _ => true) (qosData true [0, 1, 2, 3, 4, 5, 0x88, 0x8e, 0, 0, 0, 1, 0, 10,
    0xaa, 0xaa, 3, 0, 0, 0, 0x08, 0x00, 0x45, 0x00]) (by decide)
  exact absurd this (by decide)

end Rtw
