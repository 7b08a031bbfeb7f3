import Mathlib.Data.List.FinRange
import Mathlib.Logic.Function.Basic
import Rtw.Lib.Splice
import Rtw.Recv.Frame

/-!
# The RSN element of an association

`rtw_restruct_sec_ie` copies the element of the supplicant behind the fixed fields and puts the cached PMKID of the access
point into it, or takes the PMKIDs out. It looks for them 20 bytes behind the header, where they are with two suites in all
and capabilities, and cuts the element off there. `restructOk_iff`: an element that is longer comes out right exactly if
it has two suites and no group management cipher, but for PMKIDs that happen to fit; a shorter one that gets a PMKID, if the
capabilities are its last field.
-/

namespace Rtw
open Splice

abbrev Suite := Vector UInt8 4
abbrev Pmkid := Vector UInt8 16

/-- `RT_PMKID_LIST` -/
structure PmkidEntry where
  bUsed : Bool
  bssid : MacAddr
  pmkid : Pmkid

def numPmkidCache : Nat := 16

/-- `Ndis802_11AuthMode…` of `ndisauthtype` -/
inductive NdisAuthMode where
  | wpa
  | wpaPsk
  | wpa2
  | wpa2Psk
  | other
  deriving DecidableEq

/-- The fields of `security_priv` and `mlme_priv` for the element. -/
structure SecPriv where
  ndisauthtype : NdisAuthMode
  /-- `WIFI_UNDER_WPS` -/
  underWps : Bool
  wpsIe : List UInt8
  supplicantIe : Nat → UInt8
  pmkidList : Fin numPmkidCache → PmkidEntry
  assocBssid : MacAddr

def wpaIeId : UInt8 := 0xdd
def wpa2IeId : UInt8 := 0x30

def SecPriv.authmode (s : SecPriv) : UInt8 :=
  match s.ndisauthtype with
  | .wpa | .wpaPsk => wpaIeId
  | .wpa2 | .wpa2Psk => wpa2IeId
  | .other => 0

/-- `SecIsInPMKIDList` -/
def SecPriv.secIsInPmkidList (s : SecPriv) : Option (Fin numPmkidCache) :=
  (List.finRange numPmkidCache).find? fun i => (s.pmkidList i).bUsed ∧ (s.pmkidList i).bssid = s.assocBssid

/-- `RTW_GET_LE16` -/
def rtwGetLe16 (mem : Nat → UInt8) (i : Nat) : Nat := (mem i).toNat + 256 * (mem (i + 1)).toNat

section
variable (ie : Nat → UInt8) (ieLen : BitVec 32)

/-- Where the element is cut off. -/
def cutPmkid : (Nat → UInt8) × BitVec 32 :=
  (Function.update ie 13 20, ieLen - BitVec.ofNat 32 (2 + rtwGetLe16 ie (14 + 20) * 16))

/-- `rtw_append_pmkid` -/
def rtwAppendPmkid (pmkid : Pmkid) : (Nat → UInt8) × BitVec 32 :=
  if ie 13 > 20 ∧ rtwGetLe16 ie (14 + 20) = 1 ∧ read ie (14 + 20 + 2) 16 = pmkid.toList then (ie, ieLen)
  else
    let (ie, ieLen) := if ie 13 > 20 then cutPmkid ie ieLen else (ie, ieLen)
    let ie := copy ieLen.toNat [1, 0] ie
    let ie := copy (ieLen + 2).toNat pmkid.toList ie
    (Function.update ie 13 (ie 13 + 18), ieLen + 2 + 16)

/-- `rtw_remove_pmkid` -/
def rtwRemovePmkid : (Nat → UInt8) × BitVec 32 := if ie 13 ≤ 20 then (ie, ieLen) else cutPmkid ie ieLen

end

/-- `rtw_restruct_sec_ie`: `out_ie` and the length. -/
def rtwRestructSecIe (s : SecPriv) (inIe outIe : Nat → UInt8) : (Nat → UInt8) × BitVec 32 :=
  let outIe := copy 0 (read inIe 0 12) outIe
  let (outIe, ielength) : (Nat → UInt8) × BitVec 32 :=
    if s.underWps then (copy 12 s.wpsIe outIe, 12 + BitVec.ofNat 32 s.wpsIe.length)
    else if s.authmode = wpaIeId ∨ s.authmode = wpa2IeId then
      (copy 12 (read s.supplicantIe 0 ((s.supplicantIe 1).toNat + 2)) outIe,
        12 + BitVec.ofNat 32 ((s.supplicantIe 1).toNat + 2))
    else (outIe, 12)
  if s.authmode = wpa2IeId then
    match s.secIsInPmkidList with
    | none => rtwRemovePmkid outIe ielength
    | some iEntry => rtwAppendPmkid outIe ielength (s.pmkidList iEntry).pmkid
  else (outIe, ielength)

/-! ### RSN elements -/

/-- What may be behind the AKM suites: capabilities, and behind them PMKIDs, and behind these a group management
cipher. -/
inductive RsnTail where
  | none
  | caps (capabilities : Vector UInt8 2)
  | pmkids (capabilities : Vector UInt8 2) (pmkids : List Pmkid) (groupMgmt : Option Suite)

/-- A number of two bytes. -/
def le16 (n : Nat) : List UInt8 := [UInt8.ofNat (n % 256), UInt8.ofNat (n / 256)]

namespace RsnTail

def bytes : RsnTail → List UInt8
  | none => []
  | caps c => c.toList
  | pmkids c l g => c.toList ++ (le16 l.length ++ (l.flatMap Vector.toList ++ (g.elim [] Vector.toList)))

/-- Without the field they are zero. -/
def capabilities : RsnTail → Vector UInt8 2
  | none => Vector.replicate 2 0
  | caps c | pmkids c _ _ => c

def pmkidList : RsnTail → List Pmkid
  | none | caps _ => []
  | pmkids _ l _ => l

def groupMgmt : RsnTail → Option Suite
  | none | caps _ => Option.none
  | pmkids _ _ g => g

end RsnTail

/-- The fields up to the AKM suites. -/
structure RsnHead where
  version : Vector UInt8 2
  group : Suite
  pairwise : List Suite
  akm : List Suite

/-- All that the element has for its body. -/
def RsnHead.bytes (h : RsnHead) : List UInt8 :=
  h.version.toList ++ (h.group.toList ++ (le16 h.pairwise.length ++ (h.pairwise.flatMap Vector.toList ++
    (le16 h.akm.length ++ h.akm.flatMap Vector.toList))))

/-- The number of pairwise and AKM suites. -/
def RsnHead.suites (h : RsnHead) : Nat := h.pairwise.length + h.akm.length

/-- A well-formed RSN element. -/
structure RsnIe where
  head : RsnHead
  tail : RsnTail
  small : (head.bytes ++ tail.bytes).length ≤ 255

namespace RsnIe
variable (r : RsnIe)

def body : List UInt8 := r.head.bytes ++ r.tail.bytes

def bytes : List UInt8 := wpa2IeId :: UInt8.ofNat r.body.length :: r.body

/-- The element at `out + 12`, up to `len`, is `r` but for the PMKIDs, which are as `lists` says. -/
def Restructured (lists : List Pmkid → Prop) (res : (Nat → UInt8) × BitVec 32) : Prop :=
  ∃ r' : RsnIe, At res.1 12 r'.bytes ∧ res.2.toNat = 12 + r'.bytes.length ∧ r'.head = r.head ∧
    r'.tail.capabilities = r.tail.capabilities ∧ r'.tail.groupMgmt = r.tail.groupMgmt ∧ lists r'.tail.pmkidList

/-- The PMKIDs that the association is to have. -/
def PmkidsFor (entry : Option Pmkid) (l : List Pmkid) : Prop :=
  entry.elim (l = [] ∨ l = r.tail.pmkidList) fun pmkid => l = [pmkid]

/-- Behind the cut there are PMKIDs only. -/
def CutOk : Prop := r.head.suites = 2 ∧ r.tail.groupMgmt = none

/-- Where the PMKIDs are looked for there is one, and it is `pmkid`. -/
def Carries (out : Nat → UInt8) (pmkid : Pmkid) : Prop :=
  rtwGetLe16 out (14 + 20) = 1 ∧ read out (14 + 20 + 2) 16 = pmkid.toList

/-- One suite in all, one PMKID and a group management cipher: the cut is in the PMKID, and what is put there gives the
PMKID again if it is made up of four equal parts. -/
def Repeats (pmkid : Pmkid) : Prop :=
  r.head.suites = 1 ∧ ∃ x y c q g, r.tail = .pmkids c [q] (some g) ∧ q.toList.take 4 = [x, y, 1, 0] ∧
    g.toList = [x, y, 1, 0] ∧ pmkid.toList = (List.replicate 4 [x, y, 1, 0]).flatten

/-- When the element comes out right; `out` is what is in memory when it has been copied. -/
def FitsPmkid (out : Nat → UInt8) : Option Pmkid → Prop
  | none => r.body.length ≤ 20 ∨ r.CutOk
  | some pmkid => (r.body.length ≤ 20 → ∃ c, r.tail = .caps c) ∧
      (20 < r.body.length → Carries out pmkid → r.tail.pmkidList = [pmkid]) ∧
      (20 < r.body.length → ¬Carries out pmkid → r.CutOk ∨ r.Repeats pmkid)

end RsnIe

section
variable {r : RsnIe} {h : RsnHead} {t t' : RsnTail} {mem out : Nat → UInt8} {l : List UInt8} {i : Nat}

theorem length_flatMap_toList {n : Nat} (l : List (Vector UInt8 n)) : (l.flatMap Vector.toList).length = n * l.length := by
  induction l with
  | nil => rfl
  | cons a l ih =>
    rw [List.flatMap_cons, List.length_append, ih, Vector.length_toList, List.length_cons, Nat.mul_succ, Nat.add_comm]

theorem RsnHead.length_bytes : h.bytes.length = 10 + 4 * h.suites := by
  simp only [RsnHead.bytes, RsnHead.suites, le16, List.length_append, List.length_cons, List.length_nil,
    length_flatMap_toList, Vector.length_toList]
  omega

theorem RsnTail.length_bytes : t.bytes.length = 0 ∧ t = .none ∨ (t.bytes.length = 2 ∧ ∃ c, t = .caps c) ∨
    ∃ c l g, t = .pmkids c l g ∧ t.bytes.length = 4 + 16 * l.length + (if g.isSome then 4 else 0) := by
  cases t with
  | none => exact .inl ⟨rfl, rfl⟩
  | caps c => exact .inr (.inl ⟨Vector.length_toList, c, rfl⟩)
  | pmkids c l g =>
    refine .inr (.inr ⟨c, l, g, rfl, ?_⟩)
    simp only [RsnTail.bytes, le16, List.length_append, length_flatMap_toList, Vector.length_toList, List.length_cons,
      List.length_nil]
    cases g with
    | none => simp; omega
    | some g => simp; omega

theorem RsnIe.length_body : r.body.length = 10 + 4 * r.head.suites + r.tail.bytes.length := by
  rw [RsnIe.body, List.length_append, RsnHead.length_bytes]

theorem rtwGetLe16_of_at {a b : UInt8} (hm : At mem i (a :: b :: l)) : rtwGetLe16 mem i = a.toNat + 256 * b.toNat := by
  rw [rtwGetLe16, hm.1, hm.2.1]

theorem At.unique {l' : List UInt8} (hm : At mem i l) (hm' : At mem i l') (hlen : l.length = l'.length) : l = l' := by
  rw [← hm.eq_map, ← hm'.eq_map, hlen]

theorem toNat_ofNat_small {n : Nat} (h : n ≤ 255) : (UInt8.ofNat n).toNat = n := Nat.mod_eq_of_lt (by omega)

/-- The length octet says what is returned. -/
theorem RsnIe.length_of_restructured {lists : List Pmkid → Prop} {len : BitVec 32}
    (hr : r.Restructured lists (out, len)) : len.toNat = 14 + (out 13).toNat := by
  obtain ⟨r', hat, hlen, -⟩ := hr
  have h13 : out 13 = UInt8.ofNat r'.body.length := hat.2.1
  have hsmall : r'.body.length ≤ 255 := r'.small
  have hlen : len.toNat = 12 + (r'.body.length + 1 + 1) := hlen
  rw [h13, toNat_ofNat_small hsmall]
  omega

theorem RsnIe.restructured_of_at {lists : List Pmkid → Prop} {len : BitVec 32}
    (hat : At out 12 (wpa2IeId :: UInt8.ofNat l.length :: l)) (hl : l.length ≤ 255) :
    r.Restructured lists (out, len) ↔ len.toNat = 14 + l.length ∧ ∃ t' : RsnTail, l = r.head.bytes ++ t'.bytes ∧
      t'.capabilities = r.tail.capabilities ∧ t'.groupMgmt = r.tail.groupMgmt ∧ lists t'.pmkidList := by
  have h13 : out 13 = UInt8.ofNat l.length := hat.2.1
  constructor
  · intro hr
    have hlen := length_of_restructured hr
    rw [h13, toNat_ofNat_small hl] at hlen
    obtain ⟨r', hat', hlen', hhead, hrest⟩ := hr
    have hlen' : len.toNat = 12 + (r'.body.length + 1 + 1) := hlen'
    have hbody : l = r'.body := At.unique hat.2.2 hat'.2.2 (by omega)
    refine ⟨hlen, r'.tail, ?_, hrest⟩
    rw [hbody, RsnIe.body, hhead]
  · rintro ⟨hlen, t', hl', hrest⟩
    subst hl'
    refine ⟨⟨r.head, t', hl⟩, hat, ?_, rfl, hrest⟩
    rw [hlen]
    show _ = 12 + ((r.head.bytes ++ t'.bytes).length + 1 + 1)
    omega

/-- A tail of two bytes is the capabilities. -/
theorem RsnTail.eq_caps (hlen : t.bytes.length = 2) : ∃ c, t = .caps c := by
  rcases t.length_bytes with ⟨h, -⟩ | ⟨-, hc⟩ | ⟨c, l, g, -, h⟩
  · omega
  · exact hc
  · split at h <;> omega

/-- What is in front of the PMKIDs, and they. -/
theorem RsnIe.CutOk.split (hcut : r.CutOk) (hlong : 20 < r.body.length) : ∃ c l, r.tail = .pmkids c l none ∧
    (r.head.bytes ++ c.toList).length = 20 ∧
      r.body = (r.head.bytes ++ c.toList) ++ (le16 l.length ++ l.flatMap Vector.toList) := by
  obtain ⟨hsuites, hg⟩ := hcut
  have hbody := r.length_body
  have hhead : r.head.bytes.length = 18 := by rw [RsnHead.length_bytes, hsuites]
  rcases r.tail.length_bytes with ⟨h, -⟩ | ⟨h, -⟩ | ⟨c, l, g, htail, -⟩
  · omega
  · omega
  · rw [htail] at hg
    obtain rfl : g = none := hg
    refine ⟨c, l, htail, by rw [List.length_append, hhead, Vector.length_toList], ?_⟩
    rw [RsnIe.body, htail]
    simp [RsnTail.bytes]

/-- Cut off after 20 bytes, the element is one without PMKIDs if they are there and nothing is behind them. -/
theorem RsnIe.cut_iff (hlong : 20 < r.body.length) :
    (∃ t' : RsnTail, r.body.take 20 = r.head.bytes ++ t'.bytes ∧ t'.capabilities = r.tail.capabilities ∧
      t'.groupMgmt = r.tail.groupMgmt ∧ r.PmkidsFor none t'.pmkidList) ↔ r.CutOk := by
  constructor
  · rintro ⟨t', heq, -, hg, -⟩
    have hlen := congrArg List.length heq
    rw [List.length_take, List.length_append, RsnHead.length_bytes] at hlen
    rcases t'.length_bytes with ⟨h, -⟩ | ⟨h, c, rfl⟩ | ⟨c, l, g, -, h⟩
    · omega
    · exact ⟨by omega, hg.symm⟩
    · split at h <;> omega
  · intro hcut
    obtain ⟨c, l, htail, hfront, hbody⟩ := hcut.split hlong
    refine ⟨.caps c, ?_, by rw [htail]; rfl, by rw [htail]; rfl, .inl rfl⟩
    rw [hbody, ← hfront, List.take_append_length]
    rfl

/-- A list that a list of its own kind commutes past is made up of it. -/
theorem eq_of_append_comm {w g : List UInt8} (k : Nat) (hk : l.length = k * w.length) (heq : w ++ l = l ++ g) :
    l = (List.replicate k w).flatten ∧ g = w := by
  induction k generalizing l with
  | zero =>
    rw [Nat.zero_mul] at hk
    obtain rfl := List.eq_nil_of_length_eq_zero hk
    exact ⟨rfl, by simpa using heq.symm⟩
  | succ k ih =>
    rw [Nat.succ_mul] at hk
    obtain ⟨l', rfl⟩ : w <+: l :=
      List.prefix_of_prefix_length_le (List.prefix_append w l) (heq ▸ List.prefix_append l g) (by omega)
    rw [List.append_assoc, List.append_cancel_left_eq] at heq
    rw [List.length_append] at hk
    obtain ⟨hl', hg⟩ := ih (by omega) heq
    exact ⟨by rw [List.replicate_succ, List.flatten_cons, ← hl'], hg⟩

theorem Pmkid.cons_four (q : Pmkid) : ∃ x y u v q', q.toList = x :: y :: u :: v :: q' := by
  have hlen : q.toList.length = 16 := Vector.length_toList
  rcases hq : q.toList with _ | ⟨x, _ | ⟨y, _ | ⟨u, _ | ⟨v, q'⟩⟩⟩⟩
  · simp [hq] at hlen
  · simp [hq] at hlen
  · simp [hq] at hlen
  · simp [hq] at hlen
  · exact ⟨x, y, u, v, q', rfl⟩

theorem RsnIe.repeats_of_put {pmkid : Pmkid} {c c' : Vector UInt8 2} {ls : List Pmkid} {g : Suite}
    (hcnt : r.body.length = 22 + 16 * rtwGetLe16 out 34) (hat : At out 34 (r.body.drop 20)) (hsuites : r.head.suites = 1)
    (htail : r.tail = .pmkids c' ls (some g))
    (heq : r.body.take 20 ++ ([1, 0] ++ pmkid.toList) = r.head.bytes ++ (RsnTail.pmkids c [pmkid] (some g)).bytes) :
    r.Repeats pmkid := by
  have hrest : r.body = (r.head.bytes ++ c'.toList) ++ (le16 ls.length ++ (ls.flatMap Vector.toList ++ g.toList)) := by
    rw [RsnIe.body, htail]
    simp [RsnTail.bytes]
  have hfront : (r.head.bytes ++ c'.toList).length = 16 := by
    rw [List.length_append, RsnHead.length_bytes, hsuites, Vector.length_toList]
  have hn : ls.length = rtwGetLe16 out 34 ∧ ls.length ≤ 15 := by
    have hlen := congrArg List.length hrest
    have hsmall : r.body.length ≤ 255 := r.small
    rw [List.length_append, hfront] at hlen
    simp only [le16, List.length_append, List.length_cons, List.length_nil, length_flatMap_toList,
      Vector.length_toList] at hlen
    omega
  -- the capabilities and the number of PMKIDs stay, so there is one
  have heq : (r.head.bytes ++ c'.toList) ++
      (le16 ls.length ++ ((ls.flatMap Vector.toList ++ g.toList).take 2 ++ ([1, 0] ++ pmkid.toList))) =
        (r.head.bytes ++ c.toList) ++ (le16 1 ++ (pmkid.toList ++ g.toList)) := by
    rw [hrest, List.take_append, hfront, List.take_of_length_le (by omega), List.take_append] at heq
    simpa [RsnTail.bytes, le16] using heq
  obtain ⟨-, heq⟩ := List.append_inj heq (by simp)
  obtain ⟨hone, heq⟩ := List.append_inj heq rfl
  obtain ⟨q, rfl⟩ : ∃ q, ls = [q] := by
    have hbyte := congrArg UInt8.toNat (List.cons.inj hone).1
    rw [toNat_ofNat_small (by omega), toNat_ofNat_small (by omega)] at hbyte
    exact List.length_eq_one_iff.1 (by omega)
  obtain ⟨x, y, u, v, q', hq⟩ := Pmkid.cons_four q
  -- what is looked at as the number is in the PMKID
  have hcut : r.body.drop 20 = u :: v :: (q' ++ g.toList) := by
    rw [hrest, List.drop_append, hfront, List.drop_of_length_le (by omega)]
    simp [le16, hq]
  have hnum : u = 1 ∧ v = 0 := by
    rw [hcut] at hat
    rw [rtwGetLe16_of_at hat, List.length_singleton] at hn
    have hv : v.toNat = 0 := by omega
    have hu : u.toNat = 1 := by omega
    exact ⟨UInt8.toNat_inj.1 hu, UInt8.toNat_inj.1 hv⟩
  obtain ⟨rfl, rfl⟩ := hnum
  have heq : [x, y, 1, 0] ++ pmkid.toList = pmkid.toList ++ g.toList := by simpa [hq] using heq
  obtain ⟨hp, hg⟩ := eq_of_append_comm 4 (by simp) heq
  exact ⟨hsuites, x, y, c', q, g, htail, by rw [hq]; rfl, hg, hp⟩

/-- What is in front of the PMKID, and it. -/
theorem RsnIe.Repeats.split {pmkid : Pmkid} (hrep : r.Repeats pmkid) : ∃ x y c q q' g, r.tail = .pmkids c [q] (some g) ∧
    (r.head.bytes ++ c.toList).length = 16 ∧ g.toList = [x, y, 1, 0] ∧
      pmkid.toList = (List.replicate 4 [x, y, 1, 0]).flatten ∧ q.toList = x :: y :: 1 :: 0 :: q' ∧
        r.body = (r.head.bytes ++ c.toList) ++ (1 :: 0 :: x :: y :: 1 :: 0 :: (q' ++ g.toList)) := by
  obtain ⟨hsuites, x, y, c, q, g, htail, hq, hg, hp⟩ := hrep
  obtain ⟨x', y', u, v, q', hq'⟩ := Pmkid.cons_four q
  obtain ⟨rfl, rfl, rfl, rfl⟩ : x' = x ∧ y' = y ∧ u = 1 ∧ v = 0 := by simpa [hq'] using hq
  refine ⟨x', y', c, q, q', g, htail, ?_, hg, hp, hq', ?_⟩
  · rw [List.length_append, RsnHead.length_bytes, hsuites, Vector.length_toList]
  · rw [RsnIe.body, htail]
    simp [RsnTail.bytes, le16, hq']

theorem RsnIe.Repeats.length_eq {pmkid : Pmkid} (hrep : r.Repeats pmkid) (hat : At mem 34 (r.body.drop 20)) :
    r.body.length = 22 + 16 * rtwGetLe16 mem 34 := by
  obtain ⟨x, y, c, q, q', g, -, hfront, -, -, hq, hbody⟩ := hrep.split
  have hq' : q'.length + 4 = 16 := by
    rw [← q.length_toList, hq]
    rfl
  have hlen := congrArg List.length hbody
  rw [List.length_append, hfront] at hlen
  rw [hbody, List.drop_append, hfront, List.drop_of_length_le (by omega)] at hat
  have hat : At mem 34 (1 :: 0 :: (q' ++ g.toList)) := hat
  have h1 : (1 : UInt8).toNat = 1 := rfl
  have h0 : (0 : UInt8).toNat = 0 := rfl
  rw [rtwGetLe16_of_at hat, h1, h0, hlen]
  simp only [List.length_cons, List.length_append, Vector.length_toList]
  omega

/-- Put behind an element that is cut off after 20 bytes, the PMKID is in its place, or it repeats itself. -/
theorem RsnIe.put_iff {pmkid : Pmkid} (hlong : 20 < r.body.length) (hcnt : r.body.length = 22 + 16 * rtwGetLe16 out 34)
    (hat : At out 34 (r.body.drop 20)) :
    (∃ t' : RsnTail, r.body.take 20 ++ ([1, 0] ++ pmkid.toList) = r.head.bytes ++ t'.bytes ∧
      t'.capabilities = r.tail.capabilities ∧ t'.groupMgmt = r.tail.groupMgmt ∧
        r.PmkidsFor (some pmkid) t'.pmkidList) ↔ r.CutOk ∨ r.Repeats pmkid := by
  constructor
  · rintro ⟨t', heq, hc, hg, hl⟩
    have hlen := congrArg List.length heq
    simp only [List.length_append, List.length_take, RsnHead.length_bytes, Vector.length_toList, List.length_cons,
      List.length_nil] at hlen
    rcases t'.length_bytes with ⟨-, rfl⟩ | ⟨h, -⟩ | ⟨c, l, g, rfl, h⟩
    · cases hl
    · omega
    · obtain rfl : l = [pmkid] := hl
      rw [List.length_singleton] at h
      cases g with
      | none =>
        refine .inl ⟨?_, hg.symm⟩
        have h : _ = 4 + 16 * 1 + 0 := h
        omega
      | some g =>
        have h : _ = 4 + 16 * 1 + 4 := h
        have hsuites : r.head.suites = 1 := by omega
        have hhead : r.head.bytes.length = 14 := by rw [RsnHead.length_bytes, hsuites]
        obtain ⟨c', l, htail⟩ : ∃ c' l, r.tail = .pmkids c' l (some g) := by
          cases hr : r.tail with
          | pmkids c' l g' =>
            rw [hr] at hg
            exact ⟨c', l, by rw [show some g = g' from hg]⟩
          | none | caps _ =>
            rw [hr] at hg
            cases hg
        exact .inr (repeats_of_put hcnt hat hsuites htail heq)
  · rintro (hcut | hrep)
    · obtain ⟨c, l, htail, hfront, hbody⟩ := hcut.split hlong
      refine ⟨.pmkids c [pmkid] none, ?_, by rw [htail]; rfl, by rw [htail]; rfl, rfl⟩
      rw [hbody, ← hfront, List.take_append_length]
      simp [RsnTail.bytes, le16]
    · obtain ⟨x, y, c, q, q', g, htail, hfront, hg, hp, -, hbody⟩ := hrep.split
      refine ⟨.pmkids c [pmkid] (some g), ?_, by rw [htail]; rfl, by rw [htail]; rfl, rfl⟩
      rw [hbody, List.take_append, hfront, List.take_of_length_le (by omega)]
      simp [RsnTail.bytes, le16, hp, hg]

/-- Put behind the whole element the PMKID is in its place if the capabilities are the last field. -/
theorem RsnIe.append_iff {pmkid : Pmkid} :
    (∃ t' : RsnTail, r.body ++ ([1, 0] ++ pmkid.toList) = r.head.bytes ++ t'.bytes ∧
      t'.capabilities = r.tail.capabilities ∧ t'.groupMgmt = r.tail.groupMgmt ∧
        r.PmkidsFor (some pmkid) t'.pmkidList) ↔ ∃ c, r.tail = .caps c := by
  constructor
  · rintro ⟨t', heq, -, -, hl⟩
    have hlen := congrArg List.length heq
    simp only [List.length_append, RsnIe.length_body, RsnHead.length_bytes, Vector.length_toList, List.length_cons,
      List.length_nil] at hlen
    rcases t'.length_bytes with ⟨-, rfl⟩ | ⟨-, c, rfl⟩ | ⟨c, l, g, rfl, h⟩
    · cases hl
    · cases hl
    · obtain rfl : l = [pmkid] := hl
      rw [List.length_singleton] at h
      refine RsnTail.eq_caps ?_
      rcases r.tail.length_bytes with ⟨h', -⟩ | ⟨h', -⟩ | ⟨_, _, _, -, h'⟩
      · split at h <;> omega
      · exact h'
      · split at h <;> split at h' <;> omega
  · rintro ⟨c, htail⟩
    refine ⟨.pmkids c [pmkid] none, ?_, by rw [htail]; rfl, by rw [htail]; rfl, rfl⟩
    rw [RsnIe.body, htail]
    simp [RsnTail.bytes, le16]

/-- Left as it is. -/
theorem RsnIe.keep_iff {entry : Option Pmkid} :
    (∃ t' : RsnTail, r.body = r.head.bytes ++ t'.bytes ∧ t'.capabilities = r.tail.capabilities ∧
      t'.groupMgmt = r.tail.groupMgmt ∧ r.PmkidsFor entry t'.pmkidList) ↔ r.PmkidsFor entry r.tail.pmkidList := by
  constructor
  · rintro ⟨t', heq, -, hg, hl⟩
    have heq : r.tail.bytes = t'.bytes := List.append_cancel_left heq
    cases entry with
    | none => exact .inr rfl
    | some pmkid =>
      have hlen := congrArg List.length heq
      rcases t'.length_bytes with ⟨-, rfl⟩ | ⟨-, c, rfl⟩ | ⟨c, l, g, rfl, h⟩
      · cases hl
      · cases hl
      · obtain rfl : l = [pmkid] := hl
        rw [h, List.length_singleton] at hlen
        rcases htail : r.tail with _ | c' | ⟨c', l', g'⟩
        · rw [htail] at hlen
          have hlen : 0 = _ := hlen
          omega
        · rw [htail] at hlen
          have hlen : c'.toList.length = _ := hlen
          rw [Vector.length_toList] at hlen
          omega
        · rw [htail] at hg heq
          obtain rfl : g = g' := hg
          obtain ⟨-, heq⟩ := List.append_inj heq (by simp)
          obtain ⟨-, heq⟩ := List.append_inj heq rfl
          have hflat := List.append_cancel_right heq
          have hone := congrArg List.length hflat
          rw [length_flatMap_toList, length_flatMap_toList, List.length_singleton] at hone
          obtain ⟨q, rfl⟩ := List.length_eq_one_iff.1 (show l'.length = 1 by omega)
          have hq : q.toList = pmkid.toList := by simpa using hflat
          exact congrArg (fun q => [q]) (Vector.toList_inj.1 hq)
  · exact fun h => ⟨r.tail, rfl, rfl, rfl, h⟩

/-- The number and the PMKID, put behind a body. -/
theorem at_append_pmkid {b : List UInt8} {pmkid : Pmkid} {ieLen : BitVec 32}
    (hm : At mem 12 (wpa2IeId :: UInt8.ofNat b.length :: b)) (hlen : ieLen.toNat = 14 + b.length) (hb : b.length ≤ 20) :
    At (Function.update (copy (ieLen + 2).toNat pmkid.toList (copy ieLen.toNat [1, 0] mem)) 13
      ((copy (ieLen + 2).toNat pmkid.toList (copy ieLen.toNat [1, 0] mem)) 13 + 18)) 12
      (wpa2IeId :: UInt8.ofNat (b ++ ([1, 0] ++ pmkid.toList)).length :: (b ++ ([1, 0] ++ pmkid.toList))) := by
  have hoctet : UInt8.ofNat (b ++ ([1, 0] ++ pmkid.toList)).length = UInt8.ofNat b.length + 18 := by
    simp [UInt8.ofNat_add]
  have hnext : (ieLen + 2).toNat = 14 + b.length + [(1 : UInt8), 0].length := by
    rw [BitVec.toNat_add, hlen]
    simp
    omega
  rw [hnext, hlen, copy_copy, hoctet]
  obtain ⟨hid, hn, hbody⟩ := hm
  have hbelow : ∀ i < 14 + b.length, copy (14 + b.length) ([1, 0] ++ pmkid.toList) mem i = mem i := fun i hi => copy_of_lt hi
  refine ⟨?_, ?_, ?_⟩
  · rw [Function.update_of_ne (by decide), hbelow 12 (by omega), hid]
  · rw [Function.update_self, hbelow 13 (by omega), hn]
  · refine At.congr (at_append.2 ⟨hbody.copy_of_apart (.inl (Nat.le_refl _)), at_copy⟩) fun i hi _ => ?_
    rw [Function.update_of_ne (by omega)]

theorem RsnIe.octet_le_iff (hm : At mem 12 r.bytes) : mem 13 ≤ 20 ↔ r.body.length ≤ 20 := by
  have h13 : mem 13 = UInt8.ofNat r.body.length := hm.2.1
  have hsmall : r.body.length ≤ 255 := r.small
  rw [h13, UInt8.le_iff_toNat_le, toNat_ofNat_small hsmall]
  rfl

/-- The part of a body in front of the cut is in memory, with the new length octet. -/
theorem RsnIe.at_cut (hm : At mem 12 r.bytes) (hlong : 20 < r.body.length) :
    At (Function.update mem 13 20) 12 (wpa2IeId :: UInt8.ofNat (r.body.take 20).length :: r.body.take 20) := by
  obtain ⟨hid, -, hbody⟩ := hm
  have hlen : (r.body.take 20).length = 20 := by
    rw [List.length_take]
    omega
  have htake : At mem 14 (r.body.take 20) := by
    rw [← List.take_append_drop 20 r.body] at hbody
    exact (at_append.1 hbody).1
  refine ⟨?_, ?_, htake.congr fun i hi _ => Function.update_of_ne (by omega) _ _⟩
  · rw [Function.update_of_ne (by decide), hid]
  · rw [hlen]
    exact Function.update_self _ _ _

theorem RsnIe.at_drop (hm : At mem 12 r.bytes) (hlong : 20 < r.body.length) : At mem 34 (r.body.drop 20) := by
  have hbody : At mem 14 r.body := hm.2.2
  rw [← List.take_append_drop 20 r.body] at hbody
  have hdrop := (at_append.1 hbody).2
  rwa [List.length_take, Nat.min_eq_left (Nat.le_of_lt hlong)] at hdrop

theorem rtwGetLe16_lt : rtwGetLe16 mem i < 65536 := by
  have h := (mem i).toNat_lt
  have h' := (mem (i + 1)).toNat_lt
  unfold rtwGetLe16
  omega

/-- With PMKIDs behind the cut, and nothing else, their number is what the length says. -/
theorem RsnIe.CutOk.length_eq (hcut : r.CutOk) (hlong : 20 < r.body.length) (hat : At mem 34 (r.body.drop 20)) :
    r.body.length = 22 + 16 * rtwGetLe16 mem 34 := by
  obtain ⟨c, l, -, hfront, hbody⟩ := hcut.split hlong
  have hsmall : r.body.length ≤ 255 := r.small
  have hlen := congrArg List.length hbody
  rw [List.length_append, hfront, List.length_append, length_flatMap_toList] at hlen
  have hlen : r.body.length = 20 + (2 + 16 * l.length) := hlen
  rw [hbody, ← hfront, List.drop_append_length] at hat
  have hnum := rtwGetLe16_of_at hat
  rw [toNat_ofNat_small (by omega), toNat_ofNat_small (by omega)] at hnum
  omega

theorem RsnIe.remove_iff {len : BitVec 32} (hm : At mem 12 r.bytes) (hlen : len.toNat = 14 + r.body.length) :
    r.Restructured (r.PmkidsFor none) (rtwRemovePmkid mem len) ↔ r.FitsPmkid mem none := by
  unfold rtwRemovePmkid
  by_cases hshort : r.body.length ≤ 20
  · rw [if_pos ((octet_le_iff hm).2 hshort), restructured_of_at hm r.small, and_iff_right hlen, keep_iff]
    exact iff_of_true (.inr rfl) (.inl hshort)
  · have hlong : 20 < r.body.length := Nat.lt_of_not_le hshort
    have hsmall : r.body.length ≤ 255 := r.small
    have htake : (r.body.take 20).length = 20 := by
      rw [List.length_take]
      omega
    rw [if_neg (mt (octet_le_iff hm).1 hshort), cutPmkid, restructured_of_at (at_cut hm hlong) (by omega),
      cut_iff hlong]
    constructor
    · exact fun h => .inr h.2
    · rintro (h | h)
      · exact absurd h hshort
      · have hcnt := h.length_eq hlong (at_drop hm hlong)
        refine ⟨?_, h⟩
        have hnum := @rtwGetLe16_lt mem (14 + 20)
        have hplace : rtwGetLe16 mem (14 + 20) = rtwGetLe16 mem 34 := rfl
        rw [BitVec.toNat_sub, BitVec.toNat_ofNat, hlen, htake]
        omega

/-- What is put behind the cut, when the number there is not what the length says, is not at the end of the element. -/
theorem RsnIe.place_of_restructured {pmkid : Pmkid} {ieLen : BitVec 32} {mem' : Nat → UInt8} (h13 : mem 13 = 20)
    (hmem' : mem' = copy (ieLen + 2).toNat pmkid.toList (copy ieLen.toNat [1, 0] mem))
    (hr : r.Restructured (r.PmkidsFor (some pmkid)) (Function.update mem' 13 (mem' 13 + 18), ieLen + 2 + 16)) :
    ieLen.toNat = 34 := by
  have hlen := length_of_restructured hr
  rw [Function.update_self] at hlen
  obtain ⟨r', -, hlen', -, -, -, hl⟩ := hr
  have hsmall : r'.body.length ≤ 255 := r'.small
  have hlarge : 30 ≤ r'.body.length := by
    rw [RsnIe.length_body]
    rcases r'.tail.length_bytes with ⟨-, h⟩ | ⟨-, c, h⟩ | ⟨c, l, g, h, h'⟩
    · rw [h] at hl
      cases hl
    · rw [h] at hl
      cases hl
    · rw [h] at hl
      obtain rfl : l = [pmkid] := hl
      rw [List.length_singleton] at h'
      omega
  have hlen' : (ieLen + 2 + 16).toNat = 12 + (r'.body.length + 1 + 1) := hlen'
  have hadd : (ieLen + 2 + 16).toNat = (ieLen.toNat + 18) % 2 ^ 32 := by
    rw [BitVec.add_assoc, BitVec.toNat_add]
    rfl
  have hadd' : (ieLen + 2).toNat = (ieLen.toNat + 2) % 2 ^ 32 := by
    rw [BitVec.toNat_add]
    rfl
  have hlt := ieLen.isLt
  -- so it is behind the header, and the octet is 38
  have hmem13 : mem' 13 = 20 := by
    rw [hmem', copy_of_lt (by omega), copy_of_lt (by omega), h13]
  rw [hmem13] at hlen
  have h38 : ((20 : UInt8) + 18).toNat = 38 := rfl
  omega

theorem RsnIe.append_pmkid_iff {pmkid : Pmkid} {len : BitVec 32} (hm : At mem 12 r.bytes)
    (hlen : len.toNat = 14 + r.body.length) :
    r.Restructured (r.PmkidsFor (some pmkid)) (rtwAppendPmkid mem len pmkid) ↔ r.FitsPmkid mem (some pmkid) := by
  have hsmall : r.body.length ≤ 255 := r.small
  have hoctet : mem 13 > 20 ↔ 20 < r.body.length := by
    rw [gt_iff_lt, ← UInt8.not_le, octet_le_iff hm, Nat.not_le]
  unfold rtwAppendPmkid
  by_cases hlong : 20 < r.body.length
  · by_cases hcarries : Carries mem pmkid
    · have hkeep : mem 13 > 20 ∧ rtwGetLe16 mem (14 + 20) = 1 ∧ read mem (14 + 20 + 2) 16 = pmkid.toList :=
        ⟨hoctet.2 hlong, hcarries⟩
      rw [if_pos hkeep, restructured_of_at hm r.small, and_iff_right hlen, keep_iff]
      constructor
      · exact fun h => ⟨fun hshort => absurd hlong (by omega), fun _ _ => h, fun _ hnot => absurd hcarries hnot⟩
      · exact fun h => h.2.1 hlong hcarries
    · have hnot : ¬(mem 13 > 20 ∧ rtwGetLe16 mem (14 + 20) = 1 ∧ read mem (14 + 20 + 2) 16 = pmkid.toList) :=
        fun h => hcarries h.2
      rw [if_neg hnot]
      simp only [if_pos (hoctet.2 hlong), cutPmkid]
      have htake : (r.body.take 20).length = 20 := by
        rw [List.length_take]
        omega
      have hdrop := at_drop hm hlong
      have hnum := @rtwGetLe16_lt mem (14 + 20)
      have hplace : (len - BitVec.ofNat 32 (2 + rtwGetLe16 mem (14 + 20) * 16)).toNat = 34 ↔
          r.body.length = 22 + 16 * rtwGetLe16 mem 34 := by
        have h34 : rtwGetLe16 mem (14 + 20) = rtwGetLe16 mem 34 := rfl
        rw [BitVec.toNat_sub, BitVec.toNat_ofNat, hlen]
        omega
      have hfits : r.FitsPmkid mem (some pmkid) ↔ r.CutOk ∨ r.Repeats pmkid :=
        ⟨fun h => h.2.2 hlong hcarries, fun h => ⟨fun hshort => absurd hlong (by omega),
          fun _ hc => absurd hc hcarries, fun _ _ => h⟩⟩
      rw [hfits]
      obtain ⟨x, hx⟩ : ∃ x, x = len - BitVec.ofNat 32 (2 + rtwGetLe16 mem (14 + 20) * 16) := ⟨_, rfl⟩
      rw [← hx] at hplace ⊢
      by_cases hcnt : r.body.length = 22 + 16 * rtwGetLe16 mem 34
      · have hx34 : x.toNat = 14 + (r.body.take 20).length := by rw [hplace.2 hcnt, htake]
        have hlen38 : (r.body.take 20 ++ ([1, 0] ++ pmkid.toList)).length = 38 := by
          rw [List.length_append, htake]
          simp
        rw [restructured_of_at (at_append_pmkid (at_cut hm hlong) hx34 (by omega)) (by omega), put_iff hlong hcnt hdrop]
        refine and_iff_right ?_
        rw [BitVec.add_assoc, BitVec.toNat_add, hx34, hlen38, htake]
        rfl
      · constructor
        · intro hr
          exact absurd (hplace.1 (place_of_restructured (Function.update_self _ _ _) rfl hr)) hcnt
        · rintro (hcut | hrep)
          · exact absurd (hcut.length_eq hlong hdrop) hcnt
          · exact absurd (hrep.length_eq hdrop) hcnt
  · have hnot : ¬(mem 13 > 20 ∧ rtwGetLe16 mem (14 + 20) = 1 ∧ read mem (14 + 20 + 2) 16 = pmkid.toList) :=
      fun h => hlong (hoctet.1 h.1)
    have hfits : r.FitsPmkid mem (some pmkid) ↔ ∃ c, r.tail = .caps c :=
      ⟨fun h => h.1 (by omega), fun h => ⟨fun _ => h, fun hl => absurd hl hlong, fun hl => absurd hl hlong⟩⟩
    have hlen18 : (r.body ++ ([1, 0] ++ pmkid.toList)).length = r.body.length + 18 := by simp
    rw [if_neg hnot, hfits, ← @append_iff r pmkid]
    simp only [if_neg (mt hoctet.1 hlong)]
    rw [restructured_of_at (at_append_pmkid hm hlen (by omega)) (by omega)]
    refine and_iff_right ?_
    rw [BitVec.add_assoc, BitVec.toNat_add, hlen, hlen18]
    have h18 : (2 + 16 : BitVec 32).toNat = 18 := rfl
    omega

/-- `At` what is read. -/
theorem read_of_at (hm : At mem i l) : read mem i l.length = l := hm.eq_map

end

/-! ### The function -/

namespace SecPriv
variable (s : SecPriv) (r : RsnIe) (inIe outIe : Nat → UInt8)

/-- The cached PMKID of the access point. -/
def cachedPmkid : Option Pmkid := s.secIsInPmkidList.map fun i => (s.pmkidList i).pmkid

/-- `out_ie` when the element of the supplicant has been copied. -/
def copied : Nat → UInt8 :=
  copy 12 (read s.supplicantIe 0 ((s.supplicantIe 1).toNat + 2)) (copy 0 (read inIe 0 12) outIe)

/-- With WPA2, and not under WPS, the element `r` of the supplicant comes out with the PMKIDs for the access point. -/
def RestructOk : Prop :=
  s.underWps = false → s.authmode = wpa2IeId → At s.supplicantIe 0 r.bytes →
    r.Restructured (r.PmkidsFor s.cachedPmkid) (rtwRestructSecIe s inIe outIe)

variable {s r inIe outIe}

theorem read_supplicantIe (hr : At s.supplicantIe 0 r.bytes) :
    (s.supplicantIe 1).toNat = r.body.length ∧ read s.supplicantIe 0 ((s.supplicantIe 1).toNat + 2) = r.bytes := by
  have h1 : s.supplicantIe 1 = UInt8.ofNat r.body.length := hr.2.1
  have hsmall : r.body.length ≤ 255 := r.small
  have hlen : (s.supplicantIe 1).toNat = r.body.length := by rw [h1, toNat_ofNat_small hsmall]
  refine ⟨hlen, ?_⟩
  rw [hlen]
  exact read_of_at hr

theorem restructured_iff (hwps : s.underWps = false) (hauth : s.authmode = wpa2IeId) (hr : At s.supplicantIe 0 r.bytes) :
    r.Restructured (r.PmkidsFor s.cachedPmkid) (rtwRestructSecIe s inIe outIe) ↔
      r.FitsPmkid (s.copied inIe outIe) s.cachedPmkid := by
  obtain ⟨hlen, hread⟩ := read_supplicantIe hr
  have hsmall : r.body.length ≤ 255 := r.small
  have hat : At (s.copied inIe outIe) 12 r.bytes := by
    rw [copied, hread]
    exact at_copy
  have hielen : (12 + BitVec.ofNat 32 ((s.supplicantIe 1).toNat + 2)).toNat = 14 + r.body.length := by
    rw [BitVec.toNat_add, BitVec.toNat_ofNat, hlen]
    have h12 : (12 : BitVec 32).toNat = 12 := rfl
    omega
  have hcopied : rtwRestructSecIe s inIe outIe =
      match s.secIsInPmkidList with
      | none => rtwRemovePmkid (s.copied inIe outIe) (12 + BitVec.ofNat 32 ((s.supplicantIe 1).toNat + 2))
      | some iEntry => rtwAppendPmkid (s.copied inIe outIe) (12 + BitVec.ofNat 32 ((s.supplicantIe 1).toNat + 2))
          (s.pmkidList iEntry).pmkid := by
    unfold rtwRestructSecIe
    simp only [hwps, hauth, or_true, if_true, Bool.false_eq_true, if_false]
    rfl
  rw [hcopied, cachedPmkid]
  cases s.secIsInPmkidList with
  | none => exact RsnIe.remove_iff hat hielen
  | some iEntry => exact RsnIe.append_pmkid_iff hat hielen

/-- For every element, cache, and content of `in_ie` and `out_ie`. -/
theorem restructOk_iff (s : SecPriv) (r : RsnIe) (inIe outIe : Nat → UInt8) : s.RestructOk r inIe outIe ↔
    (s.underWps = false → s.authmode = wpa2IeId → At s.supplicantIe 0 r.bytes →
      r.FitsPmkid (s.copied inIe outIe) s.cachedPmkid) :=
  forall_congr' fun hwps => forall_congr' fun hauth => forall_congr' fun hr => restructured_iff hwps hauth hr

end SecPriv

/-- `00 0f ac` and a type. -/
def rsnSuite (type : UInt8) : Vector UInt8 4 :=
  Vector.ofFn fun i => if i.val = 1 then 0x0f else if i.val = 2 then 0xac else if i.val = 3 then type else 0

/-- CCMP, PSK and PSK with SHA-256, and capabilities. -/
def twoAkm : RsnIe where
  head := ⟨Vector.ofFn fun i => if i.val = 0 then 1 else 0, rsnSuite 4, [rsnSuite 4], [rsnSuite 2, rsnSuite 6]⟩
  tail := .caps (Vector.replicate 2 0)
  small := by decide

/-- A supplicant with that element, and an empty cache. -/
def twoAkmSec : SecPriv where
  ndisauthtype := .wpa2Psk
  underWps := false
  wpsIe := []
  supplicantIe := fun i => twoAkm.bytes.getD i 0
  pmkidList := fun _ => ⟨false, Vector.replicate 6 0, Vector.replicate 16 0⟩
  assocBssid := Vector.ofFn fun i => if i.val = 0 then 2 else 0

/-- The element is cut in the second suite. -/
theorem not_restructOk : ¬ ∀ (s : SecPriv) (r : RsnIe) (inIe outIe : Nat → UInt8), s.RestructOk r inIe outIe := by
  intro h
  have hat : At twoAkmSec.supplicantIe 0 twoAkm.bytes := at_getD
  have hfits := (SecPriv.restructured_iff rfl rfl hat).1 (h twoAkmSec twoAkm (fun _ => 0) (fun _ => 0) rfl rfl hat)
  have hnone : twoAkmSec.cachedPmkid = none := by decide
  rw [hnone] at hfits
  rcases hfits with hshort | hcut
  · exact absurd hshort (by decide)
  · exact absurd hcut.1 (by decide)

end Rtw
