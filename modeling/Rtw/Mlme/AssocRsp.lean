import Mathlib.Algebra.Group.Nat.Defs
import Mathlib.Logic.Function.Basic
import Rtw.Lib.Access
import Rtw.Mlme.Ie

/-!
# The elements of an association response

`OnAssocRsp` walks over the elements and hands each one to its handler, without a look at where the frame ends.
`HT_caps_handler` merges as many octets as the element has into the 26 of `HT_caps`, and `WMM_param_handler` reads
18 octets behind the six of the OUI whatever the length octet says. `assocRspOk_iff` says for which frames all of it
stays in the frame and in the structures.
-/

namespace Rtw
open Access Traced

/-- The frame, and the structures of `mlme_ext_info` that the handlers fill. -/
inductive AssocObj where
  | frame | wmmParam | htCaps | htInfo | erpIe

def sizeofWmmPara : Nat := 18
def sizeofHtCaps : Nat := 26
def sizeofHtInfo : Nat := 22

/-- A received association response: the memory from its first byte on, and `pkt_len`. -/
structure AssocRspFrame where
  mem : List UInt8
  pktLen : Nat

/-- What `OnAssocRsp` and its handlers read and write of the adapter. -/
structure AssocRspSt where
  macAddr : List UInt8
  /-- `pmlmeinfo->state` -/
  state : BitVec 32
  capability : Nat
  slotTime : Nat
  aid : Nat
  qosOption : Nat
  wmmEnable : Bool
  wmmParam : List UInt8
  htOption : Bool
  htCapsEnable : Bool
  htInfoEnable : Bool
  /-- The memory from `HT_caps` on: 26 octets of it, 22 of `HT_info`, then `network`. -/
  htMem : Nat → UInt8
  ldpcCap : UInt8
  stbcCap : UInt8
  beamformCap : UInt8
  /-- `check_fwstate(pmlmepriv, WIFI_AP_STATE)` -/
  apState : Bool
  rfType : Nat
  defaultSupportedMcsSet : Nat → UInt8
  erpEnable : Bool
  erpIe : UInt8

def wmmParaOui : List UInt8 := [0x00, 0x50, 0xf2, 0x02, 0x01, 0x01]

namespace AssocRspFrame

/-- The octet at `i`. -/
def octet (f : AssocRspFrame) (i : Nat) : UInt8 := f.mem[i]?.getD 0

/-- `len` octets from `i` on. -/
def octets (f : AssocRspFrame) (i len : Nat) : List UInt8 := (List.range len).map fun k => f.octet (i + k)

/-- `pIE->Length` -/
def ieLength (f : AssocRspFrame) (i : Nat) : Nat := (f.octet (i + 1)).toNat

/-- The sizes of the objects. -/
def size (f : AssocRspFrame) : AssocObj → Nat
  | .frame => f.pktLen
  | .wmmParam => sizeofWmmPara
  | .htCaps => sizeofHtCaps
  | .htInfo => sizeofHtInfo
  | .erpIe => 1

end AssocRspFrame

/-- One octet of the merge in `HT_caps_handler`. -/
def mergeOctet (i : Nat) (cap data : UInt8) : UInt8 :=
  if i ≠ 2 then cap &&& data
  else
    let maxAmpduLen := if cap &&& 0x3 > data &&& 0x3 then data &&& 0x3 else cap &&& 0x3
    let minMpduSpacing := if cap &&& 0x1c > data &&& 0x1c then cap &&& 0x1c else data &&& 0x1c
    maxAmpduLen ||| minMpduSpacing

/-- The loop of `HT_caps_handler` after `n` rounds. -/
def htMerge (data mem : Nat → UInt8) : Nat → Nat → UInt8
  | 0 => mem
  | n + 1 => Function.update (htMerge data mem n) n (mergeOctet n (htMerge data mem n n) (data n))

/-- The streams of the masks `MCS_RATE_1R` to `MCS_RATE_3R`. -/
def mcsRateStreams : Nat → Option Nat
  | 0 | 3 => some 1
  | 2 => some 2
  | 6 => some 3
  | _ => none

/-- `set_mcs_rate_by_mask` for an `rf_type`: what stays of octet `i` of `MCS_rate`. -/
def mcsRateMask (rfType i : Nat) : UInt8 :=
  match mcsRateStreams rfType with
  | some n => if n ≤ i ∧ i < 4 then 0 else 0xff
  | none => 0xff

/-- What the local MCS set and the radio leave of octet `j` of `HT_caps`; `MCS_rate` begins at 3. -/
def limitMcs (s : AssocRspSt) (j : Nat) (x : UInt8) : UInt8 :=
  if 3 ≤ j ∧ j < 19 then x &&& s.defaultSupportedMcsSet (j - 3) &&& mcsRateMask s.rfType (j - 3) else x

/-- `LE_BITS_TO_4BYTE` of the beamforming capabilities, which are at octet 21. -/
def txbfBits (f : AssocRspFrame) (data off len : Nat) : Nat :=
  ((f.octet (data + 21)).toNat + 2 ^ 8 * (f.octet (data + 22)).toNat + 2 ^ 16 * (f.octet (data + 23)).toNat +
    2 ^ 24 * (f.octet (data + 24)).toNat) / 2 ^ off % 2 ^ len

namespace AssocRspSt

def htLdpcEnableTx : UInt8 := 0x02
def htLdpcCapTx : UInt8 := 0x08
def htStbcEnableTx : UInt8 := 0x02
def htStbcCapTx : UInt8 := 0x08
def htBeamformerEnable : UInt8 := 0x01
def htBeamformeeEnable : UInt8 := 0x02

def testFlag (flag x : UInt8) : Bool := flag &&& x != 0

/-- The LDPC setting, for a station. -/
def ldpcT (s : AssocRspSt) (f : AssocRspFrame) (data : Nat) : Traced AssocObj UInt8 := do
  if s.apState then return s.ldpcCap
  else
    touchIf (testFlag s.ldpcCap htLdpcEnableTx) .frame data 1
    return if testFlag s.ldpcCap htLdpcEnableTx && f.octet data &&& 0x01 != 0 then htLdpcEnableTx ||| htLdpcCapTx else 0

/-- The STBC setting: bit 7 of the first octet for an access point, bits 0 and 1 of the second for a station. -/
def stbcT (s : AssocRspSt) (f : AssocRspFrame) (data : Nat) : Traced AssocObj UInt8 := do
  if s.apState then
    touchIf (testFlag s.stbcCap htStbcEnableTx) .frame data 1
    return if testFlag s.stbcCap htStbcEnableTx && f.octet data &&& 0x80 != 0 then htStbcEnableTx else 0
  else
    touchIf (testFlag s.stbcCap htStbcEnableTx) .frame (data + 1 : Nat) 1
    return if testFlag s.stbcCap htStbcEnableTx && f.octet (data + 1) &&& 0x03 != 0 then htStbcEnableTx ||| htStbcCapTx
      else 0

/-- The flags that make the handler look at the steering capability, and at the feedback capability. -/
def steeringFlag (s : AssocRspSt) : UInt8 := if s.apState then htBeamformerEnable else htBeamformeeEnable
def feedbackFlag (s : AssocRspSt) : UInt8 := if s.apState then htBeamformeeEnable else htBeamformerEnable

/-- The beamforming setting. -/
def beamformT (s : AssocRspSt) (f : AssocRspFrame) (data : Nat) : Traced AssocObj UInt8 := do
  touchIf (testFlag s.beamformCap s.steeringFlag) .frame (data + 21 : Nat) 4
  let steering := if testFlag s.beamformCap s.steeringFlag && txbfBits f data 10 1 != 0 then
    htBeamformerEnable ||| UInt8.ofNat (txbfBits f data 27 2 * 2 ^ 6) else 0
  touchIf (testFlag s.beamformCap s.feedbackFlag) .frame (data + 21 : Nat) 4
  let feedback := if testFlag s.beamformCap s.feedbackFlag && txbfBits f data 15 2 != 0 then
    htBeamformeeEnable ||| UInt8.ofNat (txbfBits f data 23 2 * 2 ^ 4) else 0
  return steering ||| feedback

/-- `WMM_param_handler` on the element at `i`. -/
def wmmParamHandlerT (s : AssocRspSt) (f : AssocRspFrame) (i : Nat) : Traced AssocObj AssocRspSt := do
  if s.qosOption = 0 then return { s with wmmEnable := false }
  else
    touch .frame (i + 8 : Nat) sizeofWmmPara
    if s.wmmParam = f.octets (i + 8) sizeofWmmPara then return s
    else
      touch .wmmParam 0 sizeofWmmPara
      return { s with wmmParam := f.octets (i + 8) sizeofWmmPara, wmmEnable := true }

/-- `HT_caps_handler` -/
def htCapsHandlerT (s : AssocRspSt) (f : AssocRspFrame) (i : Nat) : Traced AssocObj AssocRspSt := do
  if !s.htOption then return s
  else
    touch .frame (i + 1 : Nat) 1
    touch .frame (i + 2 : Nat) (f.ieLength i)
    touch .htCaps 0 (f.ieLength i)
    -- `MCS_rate`
    touch .htCaps 3 16
    let ldpcCap ← s.ldpcT f (i + 2)
    let stbcCap ← s.stbcT f (i + 2)
    let beamformCap ← s.beamformT f (i + 2)
    return { s with
      htCapsEnable := true
      htMem := fun j => limitMcs s j (htMerge (fun k => f.octet (i + 2 + k)) s.htMem (f.ieLength i) j)
      ldpcCap := ldpcCap
      stbcCap := stbcCap
      beamformCap := beamformCap }

/-- `HT_info_handler` -/
def htInfoHandlerT (s : AssocRspSt) (f : AssocRspFrame) (i : Nat) : Traced AssocObj AssocRspSt := do
  if !s.htOption then return s
  else
    touch .frame (i + 1 : Nat) 1
    if f.ieLength i > sizeofHtInfo then return s
    else
      touch .frame (i + 2 : Nat) (f.ieLength i)
      touch .htInfo 0 (f.ieLength i)
      return { s with
        htInfoEnable := true
        htMem := fun j =>
          if sizeofHtCaps ≤ j ∧ j < sizeofHtCaps + f.ieLength i then f.octet (i + 2 + (j - sizeofHtCaps))
          else s.htMem j }

/-- `ERP_IE_handler` -/
def erpIeHandlerT (s : AssocRspSt) (f : AssocRspFrame) (i : Nat) : Traced AssocObj AssocRspSt := do
  touch .frame (i + 1 : Nat) 1
  if f.ieLength i > 1 then return s
  else
    touch .frame (i + 2 : Nat) (f.ieLength i)
    touch .erpIe 0 (f.ieLength i)
    return { s with erpEnable := true, erpIe := if f.ieLength i = 1 then f.octet (i + 2) else s.erpIe }

/-- The `switch` of `OnAssocRsp`. -/
def ieHandlerT (s : AssocRspSt) (f : AssocRspFrame) (i : Nat) : Traced AssocObj AssocRspSt := do
  match (f.octet i).toNat with
  | 221 =>
    touch .frame (i + 2 : Nat) 6
    if f.octets (i + 2) 6 = wmmParaOui then s.wmmParamHandlerT f i
    else
      -- `WFD_OUI`
      touch .frame (i + 2 : Nat) 4
      return s
  | 45 => s.htCapsHandlerT f i
  | 61 => s.htInfoHandlerT f i
  | 42 => s.erpIeHandlerT f i
  | _ => return s

/-- The walk over the elements; every round takes two octets or more. -/
def walkT (f : AssocRspFrame) : Nat → AssocRspSt → Nat → Traced AssocObj AssocRspSt
  | 0, s, _ => pure s
  | fuel + 1, s, i =>
    if i < f.pktLen then do
      touch .frame i 1
      let s ← s.ieHandlerT f i
      touch .frame (i + 1 : Nat) 1
      walkT f fuel s (i + (f.ieLength i + 2))
    else pure s

def wifiFwAuthSuccess : BitVec 32 := 0x00000400
def wifiFwAssocState : BitVec 32 := 0x00002000
def wifiFwAssocSuccess : BitVec 32 := 0x00004000

/-- `get_da`, in the first or the third address. -/
def getDa (f : AssocRspFrame) : List UInt8 := f.octets (if f.octet 1 &&& 0x01 = 0 then 4 else 16) 6

/-- The response is for this adapter, which is waiting for one. -/
def Expects (s : AssocRspSt) (f : AssocRspFrame) : Prop :=
  getDa f = s.macAddr ∧ s.state &&& (wifiFwAuthSuccess ||| wifiFwAssocState) ≠ 0 ∧ s.state &&& wifiFwAssocSuccess = 0

instance (s : AssocRspSt) (f : AssocRspFrame) : Decidable (s.Expects f) := inferInstanceAs (Decidable (_ ∧ _))

/-- The fixed fields of the response. -/
def fixedFields (s : AssocRspSt) (f : AssocRspFrame) : AssocRspSt :=
  let capability := (f.octet 24).toNat + 256 * (f.octet 25).toNat
  { s with
    capability := capability
    slotTime := if capability.testBit 10 then 9 else 20
    aid := ((f.octet 28).toNat + 256 * (f.octet 29).toNat) % 2 ^ 14 }

/-- `OnAssocRsp` up to the report, with what its walk over the elements reads and writes. -/
def onAssocRspT (s : AssocRspSt) (f : AssocRspFrame) : Traced AssocObj AssocRspSt := do
  if ¬ s.Expects f then return s
  else if f.octet 26 ≠ 0 ∨ f.octet 27 ≠ 0 then return { s with state := 0 }
  else
    let s ← walkT f f.pktLen (s.fixedFields f) 30
    return { s with state := (s.state &&& ~~~wifiFwAssocState) ||| wifiFwAssocSuccess }

/-- The response is accepted, so that its elements are looked at. -/
def Accepted (s : AssocRspSt) (f : AssocRspFrame) : Prop := s.Expects f ∧ f.octet 26 = 0 ∧ f.octet 27 = 0

instance (s : AssocRspSt) (f : AssocRspFrame) : Decidable (s.Accepted f) := inferInstanceAs (Decidable (_ ∧ _))

end AssocRspSt

/-! ### What is asked of it -/

/-- Octet `j` of two HT capabilities together: the shorter A-MPDU, the wider spacing, and what both have of the
others. -/
def meetOctet (j : Nat) (cap recv : UInt8) : UInt8 :=
  if j = 2 then min (cap &&& 0x3) (recv &&& 0x3) ||| max (cap &&& 0x1c) (recv &&& 0x1c) else cap &&& recv

namespace AssocRspFrame

/-- The HT capability elements from `i` on. -/
def htCapIes (f : AssocRspFrame) : Nat → Nat → List Nat
  | 0, _ => []
  | fuel + 1, i =>
    if i < f.pktLen then
      let rest := htCapIes f fuel (i + (f.ieLength i + 2))
      if (f.octet i).toNat = 45 then i :: rest else rest
    else []

/-- Octet `j` together with the one of the element at `i`, if that is so long. -/
def meetIe (f : AssocRspFrame) (j : Nat) (cap : UInt8) (i : Nat) : UInt8 :=
  if j < f.ieLength i then meetOctet j cap (f.octet (i + 2 + j)) else cap

end AssocRspFrame

namespace AssocRspSt

/-- The HT capabilities that the response offers to an adapter with HT. -/
def received (s : AssocRspSt) (f : AssocRspFrame) : List Nat :=
  if s.Accepted f ∧ s.htOption then f.htCapIes f.pktLen 30 else []

/-- The walk and the handlers stay in the frame and in the structures, and `HT_caps` is what the adapter and the
response have together. -/
structure AssocRspOk (s : AssocRspSt) (f : AssocRspFrame) : Prop where
  within : Within f.size (s.onAssocRspT f)
  htCaps : ∀ j < sizeofHtCaps, (s.onAssocRspT f).val.htMem j =
    if s.received f = [] then s.htMem j else (s.received f).foldl (f.meetIe j) (limitMcs s j (s.htMem j))

/-- The capability bits that the handler looks at are in the frame. -/
def BitsFit (s : AssocRspSt) (f : AssocRspFrame) (data : Nat) : Prop :=
  (s.apState = false → testFlag s.ldpcCap htLdpcEnableTx → data + 1 ≤ f.pktLen) ∧
    (testFlag s.stbcCap htStbcEnableTx → data + (if s.apState then 1 else 2) ≤ f.pktLen) ∧
    (testFlag s.beamformCap s.steeringFlag ∨ testFlag s.beamformCap s.feedbackFlag → data + 25 ≤ f.pktLen)

/-- The octets that its handler takes of the element at `i` are in the frame, and have room in the structure. -/
def IeFits (s : AssocRspSt) (f : AssocRspFrame) (i : Nat) : Prop :=
  match (f.octet i).toNat with
  | 221 => i + 8 ≤ f.pktLen ∧ (f.octets (i + 2) 6 = wmmParaOui → s.qosOption ≠ 0 → i + 26 ≤ f.pktLen)
  | 45 => s.htOption → f.ieLength i ≤ sizeofHtCaps ∧ i + 2 + f.ieLength i ≤ f.pktLen ∧ s.BitsFit f (i + 2)
  | 61 => s.htOption → f.ieLength i ≤ sizeofHtInfo → i + 2 + f.ieLength i ≤ f.pktLen
  | 42 => f.ieLength i ≤ 1 → i + 2 + f.ieLength i ≤ f.pktLen
  | _ => True

/-- So for each element that the walk finds, in the state in which it finds it. -/
def WalkFits (f : AssocRspFrame) : Nat → AssocRspSt → Nat → Prop
  | 0, _, _ => True
  | fuel + 1, s, i => i < f.pktLen →
    i + 2 ≤ f.pktLen ∧ s.IeFits f i ∧ WalkFits f fuel (s.ieHandlerT f i).val (i + (f.ieLength i + 2))

end AssocRspSt

section
variable {s : AssocRspSt} {f : AssocRspFrame} {i j : Nat}

/-! ### The merge -/

theorem mergeOctet_eq (j : Nat) (cap recv : UInt8) : mergeOctet j cap recv = meetOctet j cap recv := by
  unfold mergeOctet meetOctet
  by_cases hj : j = 2
  · rw [if_pos hj, if_neg (not_not.2 hj)]
    have hmin (a b : UInt8) : (if a > b then b else a) = min a b := by
      show _ = if a ≤ b then a else b
      by_cases h : a ≤ b
      · rw [if_neg (UInt8.not_lt.2 h), if_pos h]
      · rw [if_pos (UInt8.not_le.1 h), if_neg h]
    have hmax (a b : UInt8) : (if a > b then a else b) = max a b := by
      show _ = if a ≤ b then b else a
      by_cases h : a ≤ b
      · rw [if_neg (UInt8.not_lt.2 h), if_pos h]
      · rw [if_pos (UInt8.not_le.1 h), if_neg h]
    dsimp only
    rw [hmin, hmax]
  · rw [if_neg hj, if_pos hj]

theorem htMerge_apply (data mem : Nat → UInt8) (n j : Nat) :
    htMerge data mem n j = if j < n then meetOctet j (mem j) (data j) else mem j := by
  induction n with
  | zero => rfl
  | succ n ih =>
    rw [htMerge, Function.update_apply, mergeOctet_eq]
    by_cases hj : j = n
    · subst hj
      rw [if_pos rfl, if_pos (Nat.lt_succ_self j), ih, if_neg (Nat.lt_irrefl j)]
    · rw [if_neg hj, ih]
      have : j < n + 1 ↔ j < n := by omega
      simp only [this]

namespace AssocRspSt

/-- `HT_caps_handler` on octet `j`: the merge, then the limits. -/
def mergeIe (s : AssocRspSt) (f : AssocRspFrame) (j : Nat) (cap : UInt8) (i : Nat) : UInt8 :=
  limitMcs s j (f.meetIe j cap i)

theorem limitMcs_limitMcs (s : AssocRspSt) (j : Nat) (x : UInt8) :
    limitMcs s j (limitMcs s j x) = limitMcs s j x := by
  unfold limitMcs
  split
  · simp only [UInt8.and_assoc]
    grind [UInt8.and_self, UInt8.and_comm, UInt8.and_assoc]
  · rfl

theorem and_right_comm (x r m : UInt8) : x &&& r &&& m = x &&& m &&& r := by
  rw [UInt8.and_assoc, UInt8.and_comm r m, ← UInt8.and_assoc]

theorem limitMcs_meetIe (s : AssocRspSt) (f : AssocRspFrame) (j : Nat) (x : UInt8) (i : Nat) :
    limitMcs s j (f.meetIe j x i) = f.meetIe j (limitMcs s j x) i := by
  unfold AssocRspFrame.meetIe meetOctet limitMcs
  by_cases hj : 3 ≤ j ∧ j < 19
  · have h2 : j ≠ 2 := by omega
    rw [if_pos hj, if_pos hj, if_neg h2, if_neg h2]
    split
    · rw [and_right_comm x, and_right_comm (x &&& _)]
    · rfl
  · rw [if_neg hj, if_neg hj]

/-- Merging one element after the other, with the limits each time, is merging into the limited octet. -/
theorem foldl_mergeIe (s : AssocRspSt) (f : AssocRspFrame) (j : Nat) (x : UInt8) (i : Nat) (ies : List Nat) :
    (i :: ies).foldl (s.mergeIe f j) x = (i :: ies).foldl (f.meetIe j) (limitMcs s j x) := by
  induction ies generalizing x i with
  | nil => exact limitMcs_meetIe s f j x i
  | cons i' ies ih =>
    calc (i :: i' :: ies).foldl (s.mergeIe f j) x
        = (i' :: ies).foldl (f.meetIe j) (limitMcs s j (limitMcs s j (f.meetIe j x i))) := ih _ _
      _ = (i :: i' :: ies).foldl (f.meetIe j) (limitMcs s j x) := by
        rw [limitMcs_limitMcs, limitMcs_meetIe]
        rfl

/-! ### What the handlers leave -/

/-- Two states that merge HT capabilities in the same way. -/
structure SameHt (s s' : AssocRspSt) : Prop where
  htOption : s'.htOption = s.htOption
  rfType : s'.rfType = s.rfType
  mcsSet : s'.defaultSupportedMcsSet = s.defaultSupportedMcsSet

theorem SameHt.mergeIe {s' : AssocRspSt} (h : SameHt s s') : s'.mergeIe f j = s.mergeIe f j := by
  funext x i
  unfold AssocRspSt.mergeIe limitMcs
  rw [h.rfType, h.mcsSet]

theorem wmmParamHandlerT_val (s : AssocRspSt) (f : AssocRspFrame) (i : Nat) :
    SameHt s (s.wmmParamHandlerT f i).val ∧ (s.wmmParamHandlerT f i).val.htMem = s.htMem := by
  unfold wmmParamHandlerT
  split
  · exact ⟨⟨rfl, rfl, rfl⟩, rfl⟩
  · rw [val_bind]
    split
    · exact ⟨⟨rfl, rfl, rfl⟩, rfl⟩
    · exact ⟨⟨rfl, rfl, rfl⟩, rfl⟩

theorem erpIeHandlerT_val (s : AssocRspSt) (f : AssocRspFrame) (i : Nat) :
    SameHt s (s.erpIeHandlerT f i).val ∧ (s.erpIeHandlerT f i).val.htMem = s.htMem := by
  unfold erpIeHandlerT
  rw [val_bind]
  split
  · exact ⟨⟨rfl, rfl, rfl⟩, rfl⟩
  · exact ⟨⟨rfl, rfl, rfl⟩, rfl⟩

theorem htInfoHandlerT_val (s : AssocRspSt) (f : AssocRspFrame) (i : Nat) (h : j < sizeofHtCaps) :
    SameHt s (s.htInfoHandlerT f i).val ∧ (s.htInfoHandlerT f i).val.htMem j = s.htMem j := by
  unfold htInfoHandlerT
  split
  · exact ⟨⟨rfl, rfl, rfl⟩, rfl⟩
  · rw [val_bind]
    split
    · exact ⟨⟨rfl, rfl, rfl⟩, rfl⟩
    · exact ⟨⟨rfl, rfl, rfl⟩, if_neg fun hj => absurd h (Nat.not_lt.2 hj.1)⟩

theorem htCapsHandlerT_val (s : AssocRspSt) (f : AssocRspFrame) (i j : Nat) :
    SameHt s (s.htCapsHandlerT f i).val ∧
      (s.htCapsHandlerT f i).val.htMem j = if s.htOption then s.mergeIe f j (s.htMem j) i else s.htMem j := by
  unfold htCapsHandlerT
  by_cases hopt : s.htOption = true
  · rw [if_neg (by simp [hopt]), if_pos hopt]
    exact ⟨⟨rfl, rfl, rfl⟩, congrArg (limitMcs s j) (htMerge_apply _ _ _ _)⟩
  · rw [if_pos (by simp [hopt]), if_neg hopt]
    exact ⟨⟨rfl, rfl, rfl⟩, rfl⟩

/-- An element other than an HT capability leaves `HT_caps` alone. -/
theorem ieHandlerT_val (s : AssocRspSt) (f : AssocRspFrame) (i : Nat) (h : j < sizeofHtCaps) :
    SameHt s (s.ieHandlerT f i).val ∧ (s.ieHandlerT f i).val.htMem j =
      if (f.octet i).toNat = 45 ∧ s.htOption then s.mergeIe f j (s.htMem j) i else s.htMem j := by
  have hno (n : Nat) (hid : (f.octet i).toNat = n) (hn : n ≠ 45) : ¬ ((f.octet i).toNat = 45 ∧ s.htOption = true) :=
    fun hc => hn (hid.symm.trans hc.1)
  unfold ieHandlerT
  split
  · rename_i hid
    rw [if_neg (hno _ hid (by decide)), val_bind]
    split
    · exact ⟨(wmmParamHandlerT_val s f i).1, congrFun (wmmParamHandlerT_val s f i).2 j⟩
    · exact ⟨⟨rfl, rfl, rfl⟩, rfl⟩
  · rename_i hid
    simp only [hid, true_and]
    exact htCapsHandlerT_val s f i j
  · rename_i hid
    rw [if_neg (hno _ hid (by decide))]
    exact htInfoHandlerT_val s f i h
  · rename_i hid
    rw [if_neg (hno _ hid (by decide))]
    exact ⟨(erpIeHandlerT_val s f i).1, congrFun (erpIeHandlerT_val s f i).2 j⟩
  · rename_i hid _ _
    rw [if_neg (hno _ rfl hid)]
    exact ⟨⟨rfl, rfl, rfl⟩, rfl⟩

/-- The walk merges the HT capability elements one after the other. -/
theorem walkT_val (f : AssocRspFrame) (fuel : Nat) (s : AssocRspSt) (i : Nat) (h : j < sizeofHtCaps) :
    (walkT f fuel s i).val.htMem j =
      if s.htOption then (f.htCapIes fuel i).foldl (s.mergeIe f j) (s.htMem j) else s.htMem j := by
  induction fuel generalizing s i with
  | zero =>
    show s.htMem j = _
    split <;> rfl
  | succ fuel ih =>
    unfold walkT AssocRspFrame.htCapIes
    by_cases hi : i < f.pktLen
    · obtain ⟨hsame, hmem⟩ := ieHandlerT_val s f i h
      rw [if_pos hi, if_pos hi]
      show (walkT f fuel (s.ieHandlerT f i).val (i + (f.ieLength i + 2))).val.htMem j = _
      rw [ih, hsame.htOption, hsame.mergeIe, hmem]
      cases hopt : s.htOption with
      | false => simp
      | true =>
        by_cases hid : (f.octet i).toNat = 45
        · simp [hid]
        · simp [hid]
    · rw [if_neg hi, if_neg hi]
      show s.htMem j = _
      split <;> rfl

/-! ### What the handlers touch -/

theorem within_ldpcT {data : Nat} : Within f.size (s.ldpcT f data) ↔
    (s.apState = false → testFlag s.ldpcCap htLdpcEnableTx → data + 1 ≤ f.pktLen) := by
  unfold ldpcT
  cases s.apState with
  | true => exact iff_of_true within_pure nofun
  | false =>
    simp only [Bool.false_eq_true, if_false, within_bind, within_touchIf, within_pure, and_true, forall_const]
    exact imp_congr_right fun _ => within_touch_pos Nat.one_ne_zero

theorem within_stbcT {data : Nat} : Within f.size (s.stbcT f data) ↔
    (testFlag s.stbcCap htStbcEnableTx → data + (if s.apState then 1 else 2) ≤ f.pktLen) := by
  unfold stbcT
  cases s.apState with
  | true =>
    simp only [if_true, within_bind, within_touchIf, within_pure, and_true]
    exact imp_congr_right fun _ => within_touch_pos Nat.one_ne_zero
  | false =>
    simp only [Bool.false_eq_true, if_false, within_bind, within_touchIf, within_pure, and_true]
    exact imp_congr_right fun _ => within_touch_pos Nat.one_ne_zero

theorem within_beamformT {data : Nat} : Within f.size (s.beamformT f data) ↔
    (testFlag s.beamformCap s.steeringFlag ∨ testFlag s.beamformCap s.feedbackFlag → data + 25 ≤ f.pktLen) := by
  unfold beamformT
  simp only [within_bind, within_touchIf, within_pure, and_true]
  have htouch : Within f.size (touch .frame (data + 21 : Nat) 4) ↔ data + 25 ≤ f.pktLen :=
    within_touch_pos (by decide)
  rw [htouch, or_imp]

theorem within_wmmParamHandlerT :
    Within f.size (s.wmmParamHandlerT f i) ↔ (s.qosOption ≠ 0 → i + 26 ≤ f.pktLen) := by
  unfold wmmParamHandlerT
  by_cases hq : s.qosOption = 0
  · rw [if_pos hq]
    exact iff_of_true within_pure fun h => absurd hq h
  rw [if_neg hq, within_bind]
  have hread : Within f.size (touch .frame (i + 8 : Nat) sizeofWmmPara) ↔ i + 26 ≤ f.pktLen :=
    within_touch_pos (by decide)
  have hwrite : Within f.size (touch .wmmParam 0 sizeofWmmPara) :=
    within_touch_zero.2 (Nat.le_refl _)
  rw [hread, forall_prop_of_true hq]
  refine and_iff_left ?_
  split
  · exact within_pure
  · exact within_bind.2 ⟨hwrite, within_pure⟩

theorem within_ieLength (h : i + 2 ≤ f.pktLen) : Within f.size (touch .frame (i + 1 : Nat) 1) :=
  within_touch_nat.2 (.inr h)

theorem within_data (h : i + 2 ≤ f.pktLen) (len : Nat) :
    Within f.size (touch .frame (i + 2 : Nat) len) ↔ i + 2 + len ≤ f.pktLen := by
  rw [within_touch_nat]
  show _ ∨ i + 2 + len ≤ f.pktLen ↔ _
  omega

theorem within_htCapsHandlerT (h : i + 2 ≤ f.pktLen) : Within f.size (s.htCapsHandlerT f i) ↔
    (s.htOption → f.ieLength i ≤ sizeofHtCaps ∧ i + 2 + f.ieLength i ≤ f.pktLen ∧ s.BitsFit f (i + 2)) := by
  unfold htCapsHandlerT
  by_cases hopt : s.htOption = true
  · have hcaps : Within f.size (touch .htCaps 0 (f.ieLength i)) ↔ f.ieLength i ≤ sizeofHtCaps := by
      refine within_touch.trans ?_
      show _ ∨ (0 : Int) ≤ 0 ∧ 0 + (f.ieLength i : Int) ≤ (sizeofHtCaps : Nat) ↔ _
      omega
    have hmcs : Within f.size (touch .htCaps 3 16) :=
      within_touch.2 (.inr ⟨by decide, (by decide : (3 : Int) + (16 : Nat) ≤ (sizeofHtCaps : Nat))⟩)
    rw [if_neg (by simp [hopt]), forall_prop_of_true hopt]
    simp only [within_bind, within_pure, and_true, within_ldpcT, within_stbcT, within_beamformT, hcaps, hmcs,
      within_ieLength h, within_data h, true_and]
    unfold BitsFit
    tauto
  · rw [if_pos (by simp [hopt])]
    exact iff_of_true within_pure fun h => absurd h hopt

theorem within_htInfoHandlerT (h : i + 2 ≤ f.pktLen) : Within f.size (s.htInfoHandlerT f i) ↔
    (s.htOption → f.ieLength i ≤ sizeofHtInfo → i + 2 + f.ieLength i ≤ f.pktLen) := by
  unfold htInfoHandlerT
  by_cases hopt : s.htOption = true
  · rw [if_neg (by simp [hopt]), forall_prop_of_true hopt]
    simp only [within_bind, within_ieLength h, true_and]
    by_cases hlen : f.ieLength i > sizeofHtInfo
    · rw [if_pos hlen]
      exact iff_of_true within_pure fun hle => absurd hle (Nat.not_le.2 hlen)
    · have hinfo : Within f.size (touch .htInfo 0 (f.ieLength i)) := within_touch_zero.2 (Nat.not_lt.1 hlen)
      rw [if_neg hlen, forall_prop_of_true (Nat.not_lt.1 hlen), within_bind, within_data h]
      exact and_iff_left (within_bind.2 ⟨hinfo, within_pure⟩)
  · rw [if_pos (by simp [hopt])]
    exact iff_of_true within_pure fun h => absurd h hopt

theorem within_erpIeHandlerT (h : i + 2 ≤ f.pktLen) : Within f.size (s.erpIeHandlerT f i) ↔
    (f.ieLength i ≤ 1 → i + 2 + f.ieLength i ≤ f.pktLen) := by
  unfold erpIeHandlerT
  simp only [within_bind, within_ieLength h, true_and]
  by_cases hlen : f.ieLength i > 1
  · rw [if_pos hlen]
    exact iff_of_true within_pure fun hle => absurd hle (Nat.not_le.2 hlen)
  · have herp : Within f.size (touch .erpIe 0 (f.ieLength i)) := within_touch_zero.2 (Nat.not_lt.1 hlen)
    rw [if_neg hlen, forall_prop_of_true (Nat.not_lt.1 hlen), within_bind, within_data h]
    exact and_iff_left (within_bind.2 ⟨herp, within_pure⟩)

theorem within_ieHandlerT (h : i + 2 ≤ f.pktLen) : Within f.size (s.ieHandlerT f i) ↔ s.IeFits f i := by
  unfold ieHandlerT IeFits
  split
  · have houi : Within f.size (touch .frame (i + 2 : Nat) 6) ↔ i + 8 ≤ f.pktLen := within_data h 6
    rw [within_bind, houi]
    refine and_congr_right fun h8 => ?_
    by_cases hw : f.octets (i + 2) 6 = wmmParaOui
    · rw [if_pos hw, forall_prop_of_true hw]
      exact within_wmmParamHandlerT
    · rw [if_neg hw]
      refine iff_of_true (within_bind.2 ⟨(within_data h 4).2 (by omega), within_pure⟩) fun hw' => absurd hw' hw
  · exact within_htCapsHandlerT h
  · exact within_htInfoHandlerT h
  · exact within_erpIeHandlerT h
  · exact iff_of_true within_pure trivial

theorem within_walkT (f : AssocRspFrame) (fuel : Nat) (s : AssocRspSt) (i : Nat) :
    Within f.size (walkT f fuel s i) ↔ WalkFits f fuel s i := by
  induction fuel generalizing s i with
  | zero => exact iff_of_true within_pure trivial
  | succ fuel ih =>
    unfold walkT WalkFits
    by_cases hi : i < f.pktLen
    · have hid : Within f.size (touch .frame i 1) := within_touch_nat.2 (.inr hi)
      have hlen : Within f.size (touch .frame (i + 1 : Nat) 1) ↔ i + 2 ≤ f.pktLen :=
        within_touch_pos Nat.one_ne_zero
      rw [if_pos hi, forall_prop_of_true hi]
      simp only [within_bind, hid, true_and, hlen, ih]
      constructor
      · exact fun h => ⟨h.2.1, (within_ieHandlerT h.2.1).1 h.1, h.2.2⟩
      · exact fun h => ⟨(within_ieHandlerT h.1).2 h.2.1, h.1, h.2.2⟩
    · rw [if_neg hi]
      exact iff_of_true within_pure fun h => absurd h hi

/-- Merging from the state with the fixed fields is merging from the state before. -/
theorem htMem_fixedFields (s : AssocRspSt) (f : AssocRspFrame) (j : Nat) (ies : List Nat) :
    (if (s.fixedFields f).htOption then
        ies.foldl ((s.fixedFields f).mergeIe f j) ((s.fixedFields f).htMem j)
      else (s.fixedFields f).htMem j) =
      if (if s.htOption then ies else []) = [] then s.htMem j
      else (if s.htOption then ies else []).foldl (f.meetIe j) (limitMcs s j (s.htMem j)) := by
  have hsame : SameHt s (s.fixedFields f) := ⟨rfl, rfl, rfl⟩
  rw [hsame.htOption, hsame.mergeIe]
  show (if _ then ies.foldl _ (s.htMem j) else s.htMem j) = _
  cases s.htOption with
  | false => rfl
  | true =>
    cases ies with
    | nil => rfl
    | cons i ies => exact foldl_mergeIe s f j (s.htMem j) i ies

theorem received_of_accepted (h : s.Accepted f) :
    s.received f = if s.htOption then f.htCapIes f.pktLen 30 else [] := by
  unfold received
  simp only [h, true_and]

/-- The walk of `OnAssocRsp` and its handlers keep to the frame and to their structures, and `HT_caps` is what the
adapter and the access point have together, exactly if every element that the walk reaches in an accepted response
fits. -/
theorem assocRspOk_iff (s : AssocRspSt) (f : AssocRspFrame) :
    s.AssocRspOk f ↔ (s.Accepted f → WalkFits f f.pktLen (s.fixedFields f) 30) := by
  by_cases hacc : s.Accepted f
  · have hrun : s.onAssocRspT f = do
        let s ← walkT f f.pktLen (s.fixedFields f) 30
        return { s with state := (s.state &&& ~~~wifiFwAssocState) ||| wifiFwAssocSuccess } := by
      unfold onAssocRspT
      rw [if_neg (not_not.2 hacc.1), if_neg (by simp [hacc.2])]
    rw [forall_prop_of_true hacc, ← within_walkT]
    constructor
    · intro h
      have hw := h.within
      rw [hrun] at hw
      exact (within_bind.1 hw).1
    · intro h
      refine ⟨by rw [hrun]; exact within_bind.2 ⟨h, within_pure⟩, fun j hj => ?_⟩
      rw [hrun]
      show (walkT f f.pktLen (s.fixedFields f) 30).val.htMem j = _
      rw [walkT_val f f.pktLen (s.fixedFields f) 30 hj, received_of_accepted hacc]
      exact htMem_fixedFields s f j _
  · obtain ⟨st, hrun⟩ : ∃ st, s.onAssocRspT f = pure { s with state := st } := by
      unfold onAssocRspT
      by_cases hexp : s.Expects f
      · have hstatus : f.octet 26 ≠ 0 ∨ f.octet 27 ≠ 0 := by
          by_contra hz
          rw [not_or, not_not, not_not] at hz
          exact hacc ⟨hexp, hz⟩
        rw [if_neg (not_not.2 hexp), if_pos hstatus]
        exact ⟨0, rfl⟩
      · rw [if_pos hexp]
        exact ⟨s.state, rfl⟩
    refine iff_of_true ⟨by rw [hrun]; exact within_pure, fun j _ => ?_⟩ fun h => absurd h hacc
    have hnil : s.received f = [] := if_neg fun h => hacc h.1
    rw [hrun, hnil, if_pos rfl]
    rfl

/-- An access point with an HT capability of 27 octets, for a station with HT that waits for its answer. -/
def longHtCap : AssocRspFrame where
  mem := List.replicate 30 0 ++ [45, 27] ++ List.replicate 27 0
  pktLen := 59

def htStation : AssocRspSt where
  macAddr := List.replicate 6 0
  state := wifiFwAssocState
  capability := 0
  slotTime := 0
  aid := 0
  qosOption := 1
  wmmEnable := false
  wmmParam := List.replicate 18 0
  htOption := true
  htCapsEnable := false
  htInfoEnable := false
  htMem _ := 0
  ldpcCap := 0
  stbcCap := 0
  beamformCap := 0
  apState := false
  rfType := 2
  defaultSupportedMcsSet _ := 0xff
  erpEnable := false
  erpIe := 0

theorem not_assocRspOk_long : ¬ htStation.AssocRspOk longHtCap :=
  fun h => absurd h.within (by decide +kernel)

end AssocRspSt

end

end Rtw
