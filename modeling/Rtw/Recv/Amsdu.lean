import Rtw.Recv.Ethhdr

/-!
# The subframes of an A-MSDU

`amsdu_to_msdu` finds the subframes of a body that is a concatenation of subframes, each padded to four bytes
but the last, and hands up a packet for each, up to the first one for which there is no buffer. All packets have
the addresses of the A-MSDU's own header: `rtw_os_alloc_msdu_pkt` takes them from the attributes, not from the
subframe.
-/

namespace Rtw

/-- A subframe: destination, source, and the payload with its LLC header. -/
structure MsduSubframe where
  da : MacAddr
  sa : MacAddr
  payload : List UInt8
  pos : 0 < payload.length
  lt : payload.length < 65536

namespace MsduSubframe

/-- The subframe as it is sent. -/
def bytes (s : MsduSubframe) : List UInt8 := s.da.toList ++ s.sa.toList ++ be16 s.payload.length ++ s.payload

/-- The length of the padding behind it. -/
def padLen (s : MsduSubframe) : Nat := (4 - (s.payload.length + ethHlen) % 4) % 4

/-- The payload begins with an RFC 1042 header and a type other than that of AARP and IPX, or with a
Bridge-Tunnel header. -/
def Snap (s : MsduSubframe) : Prop :=
  8 ≤ s.payload.length ∧
    (s.payload.take snapSize = rfc1042Header ∧ getBe16 s.payload 6 ≠ ethPAarp ∧ getBe16 s.payload 6 ≠ ethPIpx ∨
      s.payload.take snapSize = bridgeTunnelHeader)

instance (s : MsduSubframe) : Decidable s.Snap := inferInstanceAs (Decidable (_ ∧ _))

/-- The Ethernet frame: the type that the SNAP header has, or else the length, behind the addresses. -/
def ethFrame (s : MsduSubframe) : List UInt8 :=
  s.da.toList ++ s.sa.toList ++ if s.Snap then s.payload.drop snapSize else be16 s.payload.length ++ s.payload

end MsduSubframe

/-- A body: subframes with padding of any content between them. -/
inductive AmsduBody : List MsduSubframe → List UInt8 → Prop where
  | nil : AmsduBody [] []
  | last (s) : AmsduBody [s] s.bytes
  | cons {s pad t ss body} : pad.length = s.padLen → AmsduBody (t :: ss) body →
      AmsduBody (s :: t :: ss) (s.bytes ++ pad ++ body)

/-- A received A-MSDU behind `decryptor`: header, IV, body, ICV. -/
structure AmsduFrame where
  frame : RecvFrame
  hdr : List UInt8
  iv : List UInt8
  body : List UInt8
  icv : List UInt8
  subframes : List MsduSubframe
  data_eq : frame.data = hdr ++ iv ++ body ++ icv
  length_hdr : hdr.length = frame.attrib.hdrlen
  length_iv : iv.length = frame.attrib.ivLen
  length_icv : icv.length ≤ 8
  body_subframes : AmsduBody subframes body
  length_subframes : subframes.length ≤ maxSubframeCount

section
variable {pattrib : RxPktAttrib} {alloc : Nat → Bool} {s : MsduSubframe} {ss : List MsduSubframe}
  {body rest icv : List UInt8} {room : Nat}

theorem MsduSubframe.length_bytes (s : MsduSubframe) : s.bytes.length = ethHlen + s.payload.length := by
  simp only [bytes, be16, List.length_append, Vector.length_toList, List.length_cons, List.length_nil, ethHlen]

theorem MsduSubframe.getBe16_bytes (s : MsduSubframe) (rest : List UInt8) :
    getBe16 (s.bytes ++ rest) 12 = s.payload.length := by
  have haddr : (s.da.toList ++ s.sa.toList).length = 12 := by simp
  have hlen := getBe16_be16 s.payload.length (s.payload ++ rest)
  rw [Nat.mod_eq_of_lt s.lt] at hlen
  rw [← hlen]
  apply getBe16_congr <;>
    rw [bytes, List.append_assoc, List.append_assoc, List.getElem?_append_right (by omega), haddr]

theorem MsduSubframe.drop_bytes (s : MsduSubframe) (rest : List UInt8) :
    (s.bytes ++ rest).drop (ethHlen + s.payload.length) = rest :=
  List.drop_left' s.length_bytes

theorem MsduSubframe.payload_bytes (s : MsduSubframe) (rest : List UInt8) :
    ((s.bytes ++ rest).drop ethHlen).take s.payload.length = s.payload := by
  have hhdr : (s.da.toList ++ s.sa.toList ++ be16 s.payload.length).length = ethHlen := by
    simp [be16, ethHlen]
  rw [bytes, List.append_assoc, List.drop_left' hhdr, List.take_left]

theorem amsduSubframes_subframe (pattrib : RxPktAttrib) (alloc : Nat → Bool) (room : Nat) (s : MsduSubframe)
    (rest : List UInt8) : amsduSubframes pattrib alloc (room + 1) (s.bytes ++ rest) =
      if !alloc (maxSubframeCount - (room + 1)) then []
      else if rest.length < s.padLen then [rtwOsAllocMsduPkt pattrib s.payload]
      else rtwOsAllocMsduPkt pattrib s.payload :: amsduSubframes pattrib alloc room (rest.drop s.padLen) := by
  have hlen : (s.bytes ++ rest).length = ethHlen + s.payload.length + rest.length := by
    rw [List.length_append, s.length_bytes]
  have hpos := s.pos
  rw [amsduSubframes]
  dsimp only
  rw [s.getBe16_bytes, s.payload_bytes, s.drop_bytes, if_neg (by omega), if_neg (by omega)]
  rfl

theorem amsduSubframes_short (h : rest.length ≤ ethHlen) : amsduSubframes pattrib alloc room rest = [] := by
  cases room with
  | zero => rfl
  | succ room => rw [amsduSubframes]; exact if_pos h

/-- The subframes for which there are buffers, up to the first one for which there is none. -/
def allocated (alloc : Nat → Bool) : Nat → List MsduSubframe → List MsduSubframe
  | _, [] => []
  | i, s :: ss => if alloc i then s :: allocated alloc (i + 1) ss else []

theorem allocated_cons (i : Nat) :
    allocated alloc i (s :: ss) = if alloc i then s :: allocated alloc (i + 1) ss else [] := rfl

theorem allocated_initial (i : Nat) : allocated alloc i ss <+: ss := by
  induction ss generalizing i with
  | nil => exact List.prefix_refl _
  | cons s ss ih =>
    rw [allocated_cons]
    split
    · exact List.cons_prefix_cons.2 ⟨rfl, ih _⟩
    · exact List.nil_prefix

theorem allocated_eq_iff {i : Nat} : allocated alloc i ss = ss ↔ ∀ j < ss.length, alloc (i + j) = true := by
  induction ss generalizing i with
  | nil => exact iff_of_true rfl fun j hj => absurd hj (Nat.not_lt_zero j)
  | cons s ss ih =>
    rw [allocated_cons]
    cases hi : alloc i with
    | false => exact iff_of_false (by simp) fun h => by simpa [hi] using h 0 (Nat.zero_lt_succ _)
    | true =>
      rw [if_pos rfl, List.cons_eq_cons, ih]
      constructor
      · rintro ⟨-, h⟩ (_ | j) hj
        · exact hi
        · rw [← h j (by simpa using hj)]
          congr 1
          omega
      · refine fun h => ⟨rfl, fun j hj => ?_⟩
        rw [← h (j + 1) (by simpa using hj)]
        congr 1
        omega

/-- The loop on a body with an ICV behind it. -/
theorem amsduSubframes_body (h : AmsduBody ss body) (hicv : icv.length ≤ 8) {i : Nat} (hroom : ss.length ≤ room)
    (hi : i + room = maxSubframeCount) : amsduSubframes pattrib alloc room (body ++ icv) =
      (allocated alloc i ss).map fun s => rtwOsAllocMsduPkt pattrib s.payload := by
  induction h generalizing room i with
  | nil => exact amsduSubframes_short (by unfold ethHlen; simpa using by omega)
  | last s =>
    cases room with
    | zero => cases hroom
    | succ room =>
      have hidx : maxSubframeCount - (room + 1) = i := by omega
      rw [amsduSubframes_subframe, hidx, allocated]
      cases alloc i with
      | false => rfl
      | true =>
        rw [if_neg (by decide), if_pos rfl, amsduSubframes_short (by rw [List.length_drop, ethHlen]; omega), ite_self]
        rfl
  | @cons s pad t ss body hpad hbody ih =>
    cases room with
    | zero => cases hroom
    | succ room =>
      have hidx : maxSubframeCount - (room + 1) = i := by omega
      have hrest : ¬ (pad ++ (body ++ icv)).length < s.padLen := by rw [List.length_append]; omega
      rw [List.append_assoc, List.append_assoc, amsduSubframes_subframe, hidx, if_neg hrest, List.drop_left' hpad,
        ih (Nat.le_of_succ_le_succ hroom) (by omega : i + 1 + room = maxSubframeCount), allocated_cons (s := s)]
      cases alloc i <;> rfl

theorem rtwOsAllocMsduPkt_eq_ethFrame_iff :
    rtwOsAllocMsduPkt pattrib s.payload = s.ethFrame ↔ pattrib.dst = s.da ∧ pattrib.src = s.sa := by
  have hsnap : bsnapBody s.payload ↔ s.Snap := by
    rw [bsnapBody, decide_eq_true_iff]
    rfl
  have haddr : ∀ l : List UInt8, pattrib.dst.toList ++ pattrib.src.toList ++ l = s.da.toList ++ s.sa.toList ++ l ↔
      pattrib.dst = s.da ∧ pattrib.src = s.sa := by
    intro l
    rw [List.append_left_inj]
    constructor
    · intro h
      obtain ⟨hdst, hsrc⟩ := List.append_inj h (by simp)
      exact ⟨Vector.toList_inj.1 hdst, Vector.toList_inj.1 hsrc⟩
    · rintro ⟨hdst, hsrc⟩
      rw [hdst, hsrc]
  rw [rtwOsAllocMsduPkt, MsduSubframe.ethFrame]
  by_cases h : s.Snap
  · rw [if_pos (hsnap.2 h), if_pos h]
    exact haddr _
  · rw [if_neg (mt hsnap.1 h), if_neg h]
    exact haddr _

theorem amsduToMsdu_eq (alloc : Nat → Bool) (a : AmsduFrame) : amsduToMsdu alloc a.frame =
    (allocated alloc 0 a.subframes).map fun s => rtwOsAllocMsduPkt a.frame.attrib s.payload := by
  have hhdr : recvframePull a.frame a.frame.attrib.hdrlen = some { a.frame with
      head := a.frame.head ++ a.frame.data.take a.frame.attrib.hdrlen, data := a.iv ++ (a.body ++ a.icv) } := by
    have hlen : ¬ a.frame.len < a.frame.attrib.hdrlen := by
      rw [RecvFrame.len, a.data_eq, ← a.length_hdr]
      simp
    rw [recvframePull, if_neg hlen]
    congr 2
    rw [a.data_eq, List.append_assoc, List.append_assoc, List.drop_left' a.length_hdr]
  rw [amsduToMsdu, hhdr, Option.getD_some]
  dsimp only
  refine Eq.trans ?_ (amsduSubframes_body a.body_subframes a.length_icv a.length_subframes (Nat.zero_add _))
  split
  · have hlen : ¬ (a.iv ++ (a.body ++ a.icv)).length < a.frame.attrib.ivLen := by
      rw [← a.length_iv]
      simp
    rw [recvframePull, RecvFrame.len, if_neg hlen, Option.getD_some]
    dsimp only
    rw [List.drop_left' a.length_iv]
  · rename_i hiv
    have hnil : a.iv = [] := List.eq_nil_of_length_eq_zero (by rw [a.length_iv]; omega)
    dsimp only
    rw [hnil, List.nil_append]

end

/-- `amsdu_to_msdu` hands up the subframes, in order and each with its own addresses, exactly when all of them
have the addresses of the A-MSDU and there is a buffer for each. -/
theorem amsduToMsdu_eq_iff (alloc : Nat → Bool) (a : AmsduFrame) :
    amsduToMsdu alloc a.frame = a.subframes.map MsduSubframe.ethFrame ↔
      (∀ i < a.subframes.length, alloc i) ∧
        ∀ s ∈ a.subframes, a.frame.attrib.dst = s.da ∧ a.frame.attrib.src = s.sa := by
  have hpkts : a.subframes.map (fun s => rtwOsAllocMsduPkt a.frame.attrib s.payload) =
      a.subframes.map MsduSubframe.ethFrame ↔
        ∀ s ∈ a.subframes, a.frame.attrib.dst = s.da ∧ a.frame.attrib.src = s.sa := by
    rw [List.map_inj_left]
    exact forall₂_congr fun s _ => rtwOsAllocMsduPkt_eq_ethFrame_iff
  have hall : allocated alloc 0 a.subframes = a.subframes ↔ ∀ i < a.subframes.length, alloc i = true := by
    rw [allocated_eq_iff]
    simp only [Nat.zero_add]
  rw [amsduToMsdu_eq, ← hall, ← hpkts]
  constructor
  · intro h
    have hlen := congrArg List.length h
    rw [List.length_map, List.length_map] at hlen
    have heq := (allocated_initial 0).eq_of_length hlen
    rw [heq] at h
    exact ⟨heq, h⟩
  · rintro ⟨heq, h⟩
    rw [heq, h]

/-- An A-MSDU that an access point has for one of its stations: it comes from the access point, and its subframe
from another host. -/
def amsduFrame : AmsduFrame where
  frame := {
    id := 0
    attrib := {
      hdrlen := 26, toFrDs := 1, amsdu := true, qos := true, priority := 0, seqNum := 0, fragNum := 0, mfrag := false
      privacy := false, bdecrypted := true, encrypt := .noPrivacy, ivLen := 0, icvLen := 0, ethType := 0
      dst := .replicate 6 2, src := .replicate 6 4, ta := .replicate 6 4, ra := .replicate 6 2
      bssid := .replicate 6 4 }
    head := []
    data := List.replicate 26 0 ++ (.replicate 6 2 ++ .replicate 6 6 ++ [0, 8] ++ rfc1042Header ++ [0x08, 0x00])
    slack := [] }
  hdr := List.replicate 26 0
  iv := []
  body := .replicate 6 2 ++ .replicate 6 6 ++ [0, 8] ++ rfc1042Header ++ [0x08, 0x00]
  icv := []
  subframes := [⟨.replicate 6 2, .replicate 6 6, rfc1042Header ++ [0x08, 0x00], by decide, by decide⟩]
  data_eq := by simp
  length_hdr := rfl
  length_iv := rfl
  length_icv := Nat.zero_le _
  body_subframes := .last _
  length_subframes := by decide

/-- The packet has the address of the access point as its source. -/
theorem not_amsduToMsdu_eq :
    amsduToMsdu (fun _ => true) amsduFrame.frame ≠ amsduFrame.subframes.map MsduSubframe.ethFrame := by
  decide

end Rtw
