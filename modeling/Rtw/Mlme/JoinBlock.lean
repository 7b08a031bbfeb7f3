import Rtw.Mlme.JoinBuild

/-!
# The block of elements of a join

`blockOk_iff`: the block is the security element and those that the builders append, inside `IEs`, and the network is not
read behind its elements, exactly if the PMKIDs are cut off the security element where it has them, there are elements
behind the fixed fields when a WMM element is looked for, and the searches and copies stop inside them.
-/

namespace Rtw
open Access Traced Splice Tlv
open Scan (maxIeSz)

/-! ### The security element -/

section
variable {ie : Nat → UInt8} {e : Ie} {pmkid : Pmkid} {ieLength k : Nat}

theorem at_ie_len (hat : At ie 12 e.bytes) : (ie 13).toNat = e.data.length := by
  have h13 : ie 13 = UInt8.ofNat e.data.length := hat.2.1
  rw [h13]
  exact toNat_ofNat_small (Nat.le_of_lt_succ e.fits)

/-- The length of the block with the security element. -/
theorem secLen_toNat (e : Ie) : (12 + BitVec.ofNat 32 e.bytes.length).toNat = 14 + e.data.length := by
  have hfits : e.data.length < 256 := e.fits
  rw [length_ie_bytes, BitVec.toNat_add, BitVec.toNat_ofNat, Nat.add_mod_mod]
  have h12 : (12 : BitVec 32).toNat = 12 := rfl
  rw [h12, Nat.mod_eq_of_lt (by omega)]
  omega

/-- Where the element is cut off, the octet says so if the PMKIDs are what is cut. -/
theorem cut_toNat (e : Ie) (hk : k < 65536) :
    (12 + BitVec.ofNat 32 e.bytes.length - BitVec.ofNat 32 (2 + k * 16)).toNat = 34 ↔ e.data.length = 22 + 16 * k := by
  have hfits : e.data.length < 256 := e.fits
  have hlen := secLen_toNat e
  rw [BitVec.toNat_sub, hlen, BitVec.toNat_ofNat]
  omega

theorem not_gt_iff (hat : At ie 12 e.bytes) : ie 13 > 20 ↔ 20 < e.data.length := by
  rw [← at_ie_len hat]
  exact UInt8.lt_iff_toNat_lt

theorem remove_iff (hat : At ie 12 e.bytes) :
    (rtwRemovePmkid ie (12 + BitVec.ofNat 32 e.bytes.length)).2.toNat =
        14 + ((rtwRemovePmkid ie (12 + BitVec.ofNat 32 e.bytes.length)).1 13).toNat ↔
      (20 < e.data.length → e.data.length = 22 + 16 * rtwGetLe16 ie 34) := by
  unfold rtwRemovePmkid
  by_cases hlong : 20 < e.data.length
  · have hgt := (not_gt_iff hat).2 hlong
    rw [if_neg (UInt8.not_le.2 hgt), cutPmkid]
    simp only [hlong, true_implies, Function.update_self]
    exact cut_toNat e rtwGetLe16_lt
  · have hgt := fun h => hlong ((not_gt_iff hat).1 h)
    rw [if_pos (UInt8.not_lt.1 hgt)]
    refine iff_of_true ?_ fun h => absurd h hlong
    rw [secLen_toNat, at_ie_len hat]

theorem within_elements {off : Int} {n : Nat} (hlow : 0 ≤ off) (hhigh : off + n ≤ 756) :
    Within (JoinObj.size ieLength) (touch .elements off n) :=
  within_touch.2 (.inr ⟨hlow, hhigh⟩)

theorem within_removePmkidSpans : Within (JoinObj.size ieLength) (JoinIn.removePmkidSpans ie) := by
  unfold JoinIn.removePmkidSpans
  rw [within_bind, within_touchIf]
  exact ⟨within_elements (by decide) (by decide), fun _ => within_elements (by decide) (by decide)⟩

/-- The octet behind a PMKID that has been put at `len`. -/
theorem octet_put {len : Nat} {o : UInt8} (hlen : 14 ≤ len) (ho : ie 13 = o) :
    Function.update (copy (len + 2) pmkid.toList (copy len [1, 0] ie)) 13
      ((copy (len + 2) pmkid.toList (copy len [1, 0] ie)) 13 + 18) 13 = o + 18 := by
  rw [Function.update_self, copy_of_lt (by omega), copy_of_lt (by omega), ho]

theorem append_long_iff {len : BitVec 32} : (Within (JoinObj.size ieLength) (do
      touch .elements (len.toNat - 12 : Int) 2
      touch .elements ((len + 2).toNat - 12 : Int) 16) ∧
    (len + 2 + 16).toNat = 14 + (Function.update (copy (len + 2).toNat pmkid.toList (copy len.toNat [1, 0]
        (Function.update ie 13 20))) 13 ((copy (len + 2).toNat pmkid.toList (copy len.toNat [1, 0]
        (Function.update ie 13 20))) 13 + 18) 13).toNat) ↔ len.toNat = 34 := by
  have hmax : JoinObj.size ieLength .elements = 756 := rfl
  rw [within_bind, within_touch, within_touch, hmax]
  by_cases hin : 12 ≤ len.toNat ∧ len.toNat ≤ 766
  · have h2 : (len + 2).toNat = len.toNat + 2 := by
      rw [BitVec.toNat_add]
      exact Nat.mod_eq_of_lt (by have : (2 : BitVec 32).toNat = 2 := rfl; omega)
    have h18 : (len + 2 + 16).toNat = len.toNat + 18 := by
      rw [BitVec.toNat_add, h2]
      exact Nat.mod_eq_of_lt (by have : (16 : BitVec 32).toNat = 16 := rfl; omega)
    rw [h2, h18]
    by_cases h14 : 14 ≤ len.toNat
    · rw [octet_put h14 (Function.update_self ..)]
      have h38 : ((20 : UInt8) + 18).toNat = 38 := rfl
      rw [h38]
      omega
    · -- the number of PMKIDs is put on the header
      refine iff_of_false (fun h => ?_) (by omega)
      have hoctet := h.2
      rw [Function.update_self, copy_of_lt (by omega)] at hoctet
      rcases (show len.toNat = 12 ∨ len.toNat = 13 by omega) with h12 | h13
      · rw [h12] at hoctet
        have h0 : copy 12 [1, 0] (Function.update ie 13 20) 13 = 0 := rfl
        rw [h0] at hoctet
        exact absurd hoctet (by decide)
      · rw [h13] at hoctet
        have h1 : copy 13 [1, 0] (Function.update ie 13 20) 13 = 1 := rfl
        rw [h1] at hoctet
        exact absurd hoctet (by decide)
  · refine iff_of_false (fun h => ?_) (by omega)
    have := h.1.1
    omega

theorem append_iff (hat : At ie 12 e.bytes) :
    (Within (JoinObj.size ieLength) (JoinIn.appendPmkidSpans ie (12 + BitVec.ofNat 32 e.bytes.length) pmkid) ∧
      (rtwAppendPmkid ie (12 + BitVec.ofNat 32 e.bytes.length) pmkid).2.toNat =
        14 + ((rtwAppendPmkid ie (12 + BitVec.ofNat 32 e.bytes.length) pmkid).1 13).toNat) ↔
      (20 < e.data.length → ¬RsnIe.Carries ie pmkid → e.data.length = 22 + 16 * rtwGetLe16 ie 34) := by
  have hmax : JoinObj.size ieLength .elements = 756 := rfl
  have hread : Within (JoinObj.size ieLength) (touch .elements 1 1) :=
    within_elements (by decide) (by decide)
  have hread2 : Within (JoinObj.size ieLength) (touch .elements 22 2) :=
    within_elements (by decide) (by decide)
  have hread16 : Within (JoinObj.size ieLength) (touch .elements 24 16) :=
    within_elements (by decide) (by decide)
  have hgt := not_gt_iff hat
  have hlen := secLen_toNat e
  have hfits : e.data.length < 256 := e.fits
  unfold JoinIn.appendPmkidSpans rtwAppendPmkid
  rw [within_bind, within_bind, within_bind, within_touchIf, within_touchIf, and_iff_right hread,
    and_iff_right fun _ => hread2, and_iff_right fun _ => hread16]
  by_cases hmatch : ie 13 > 20 ∧ rtwGetLe16 ie (14 + 20) = 1 ∧ Splice.read ie (14 + 20 + 2) 16 = pmkid.toList
  · rw [if_pos hmatch, if_pos hmatch, hlen, at_ie_len hat]
    exact iff_of_true ⟨within_pure, rfl⟩ fun _ hcarries => absurd hmatch.2 hcarries
  · rw [if_neg hmatch, if_neg hmatch]
    by_cases hlong : 20 < e.data.length
    · have hno : ¬RsnIe.Carries ie pmkid := fun h => hmatch ⟨hgt.2 hlong, h⟩
      simp only [hgt.2 hlong, if_true, hlong, true_implies, hno, not_false_eq_true, cutPmkid]
      rw [append_long_iff, cut_toNat e rtwGetLe16_lt]
    · simp only [show ¬ie 13 > 20 from fun h => hlong (hgt.1 h), if_false]
      refine iff_of_true ⟨?_, ?_⟩ fun h => absurd h hlong
      · rw [within_bind, within_touch, within_touch, hmax]
        have h2 : (12 + BitVec.ofNat 32 e.bytes.length + 2).toNat = 14 + e.data.length + 2 := by
          rw [BitVec.toNat_add, hlen]
          exact Nat.mod_eq_of_lt (by have : (2 : BitVec 32).toNat = 2 := rfl; omega)
        rw [h2, hlen]
        exact ⟨.inr (by omega), .inr (by omega)⟩
      · have h2 : (12 + BitVec.ofNat 32 e.bytes.length + 2).toNat = 14 + e.data.length + 2 := by
          rw [BitVec.toNat_add, hlen]
          exact Nat.mod_eq_of_lt (by have : (2 : BitVec 32).toNat = 2 := rfl; omega)
        have h18 : (12 + BitVec.ofNat 32 e.bytes.length + 2 + 16).toNat = 14 + e.data.length + 18 := by
          rw [BitVec.toNat_add, h2]
          exact Nat.mod_eq_of_lt (by have : (16 : BitVec 32).toNat = 16 := rfl; omega)
        rw [h18, h2, hlen, octet_put (by omega) rfl, UInt8.toNat_add, at_ie_len hat]
        have h18' : (18 : UInt8).toNat = 18 := rfl
        omega

end

namespace JoinIn
variable (x : JoinIn) {e : Ie}

theorem secIe_none (h : x.secIe = none) : x.secPriv.authmode ≠ wpa2IeId := by
  unfold secIe at h
  split at h
  · cases h
  · split at h
    · cases h
    · case isFalse hauth => exact fun h => hauth (.inr h)

theorem restructSecIe_eq : rtwRestructSecIe x.secPriv x.inIe x.outIe =
    if x.secPriv.authmode = wpa2IeId then
      x.secPriv.cachedPmkid.elim (rtwRemovePmkid x.copied (12 + BitVec.ofNat 32 (x.secIe.elim [] Item.bytes).length))
        fun pmkid => rtwAppendPmkid x.copied (12 + BitVec.ofNat 32 (x.secIe.elim [] Item.bytes).length) pmkid
    else (x.copied, 12 + BitVec.ofNat 32 (x.secIe.elim [] Item.bytes).length) := by
  have hcopy : (if x.secPriv.underWps then
        (copy 12 x.secPriv.wpsIe (copy 0 (read x.inIe 0 12) x.outIe), 12 + BitVec.ofNat 32 x.secPriv.wpsIe.length)
      else if x.secPriv.authmode = wpaIeId ∨ x.secPriv.authmode = wpa2IeId then
        (copy 12 (read x.secPriv.supplicantIe 0 ((x.secPriv.supplicantIe 1).toNat + 2)) (copy 0 (read x.inIe 0 12) x.outIe),
          12 + BitVec.ofNat 32 ((x.secPriv.supplicantIe 1).toNat + 2))
      else (copy 0 (read x.inIe 0 12) x.outIe, 12)) =
      (x.copied, 12 + BitVec.ofNat 32 (x.secIe.elim [] Item.bytes).length) := by
    have hwps : x.secPriv.underWps = x.underWps := rfl
    unfold copied secIe
    rw [hwps]
    by_cases hu : x.underWps = true
    · rw [if_pos hu, if_pos hu]
      rfl
    · rw [if_neg hu, if_neg hu]
      by_cases hauth : x.secPriv.authmode = wpaIeId ∨ x.secPriv.authmode = wpa2IeId
      · have hat : At x.secPriv.supplicantIe 0 x.supplicant.bytes := at_getD
        have hlen : (x.secPriv.supplicantIe 1).toNat + 2 = x.supplicant.bytes.length := by
          have h1 : x.secPriv.supplicantIe 1 = UInt8.ofNat x.supplicant.data.length := hat.2.1
          rw [h1, toNat_ofNat_small (Nat.le_of_lt_succ x.supplicant.fits), length_ie_bytes, Nat.add_comm]
        have hread : Splice.read x.secPriv.supplicantIe 0 x.supplicant.bytes.length = x.supplicant.bytes := hat.eq_map
        rw [if_pos hauth, if_pos hauth, hlen, hread]
        rfl
      · rw [if_neg hauth, if_neg hauth]
        have hnil : copy 12 [] (copy 0 (Splice.read x.inIe 0 12) x.outIe) = copy 0 (Splice.read x.inIe 0 12) x.outIe := by
          funext i
          rcases Nat.lt_or_ge i 12 with hi | hi
          · exact copy_of_lt hi
          · exact copy_of_le hi
        exact Prod.ext hnil.symm rfl
  unfold rtwRestructSecIe
  dsimp only
  rw [hcopy, SecPriv.cachedPmkid]
  cases x.secPriv.secIsInPmkidList with
  | none => rfl
  | some iEntry => rfl

/-- The PMKIDs are cut off where the element has them, or not at all. -/
def CutOff : Prop :=
  ∀ e, x.secIe = some e → x.secPriv.authmode = wpa2IeId → 20 < e.data.length →
    ¬(∃ pmkid, x.secPriv.cachedPmkid = some pmkid ∧ RsnIe.Carries x.copied pmkid) →
    e.data.length = 22 + 16 * rtwGetLe16 x.copied 34

/-- The length of the security element, by its octet. -/
def secLen (o : OutIes) : Nat := x.secIe.elim 0 fun _ => 2 + (o.mem 13).toNat

theorem sec_iff : (Within x.size x.restructSecIeT ∧
    x.restructSecIeT.val.len.toNat = 12 + x.secLen x.restructSecIeT.val) ↔ x.CutOff := by
  have hval : x.restructSecIeT.val = ⟨(rtwRestructSecIe x.secPriv x.inIe x.outIe).1,
      (rtwRestructSecIe x.secPriv x.inIe x.outIe).2⟩ := rfl
  have hmem : x.copied = copy 12 (x.secIe.elim [] Item.bytes) (copy 0 (Splice.read x.inIe 0 12) x.outIe) := rfl
  have hwithin : Within x.size x.restructSecIeT ↔
      Within x.size (x.pmkidSpans (12 + BitVec.ofNat 32 (x.secIe.elim [] Item.bytes).length)) := by
    unfold restructSecIeT
    rw [within_bind, within_bind, and_iff_left within_pure]
    refine and_iff_right (within_elements (Int.le_refl 0) ?_)
    cases x.secIe with
    | none => exact Int.zero_le_ofNat 756
    | some e =>
      have hfits : e.data.length < 256 := e.fits
      rw [Option.elim_some, length_ie_bytes]
      omega
  rw [hwithin, hval, restructSecIe_eq]
  unfold pmkidSpans CutOff secLen
  cases h : x.secIe with
  | none =>
    have hauth := x.secIe_none h
    rw [if_neg hauth, if_neg hauth]
    exact iff_of_true ⟨within_pure, rfl⟩ fun _ he => by cases he
  | some e =>
    have hat : At x.copied 12 e.bytes := by
      rw [hmem, h]
      exact at_copy
    simp only [Option.elim_some, Option.some.injEq, forall_eq', SecPriv.cachedPmkid]
    by_cases hauth : x.secPriv.authmode = wpa2IeId
    · simp only [hauth, if_true, true_implies]
      cases x.secPriv.secIsInPmkidList with
      | none =>
        have hremove := remove_iff hat
        simp only [Option.elim_none, Option.map_none, reduceCtorEq, false_and, exists_false, not_false_eq_true,
          true_implies]
        rw [and_iff_right within_removePmkidSpans, ← Nat.add_assoc]
        exact hremove
      | some iEntry =>
        have happend := @append_iff x.copied e (x.pmkidList iEntry).pmkid x.ies.length hat
        simp only [Option.elim_some, Option.map_some, Option.some.injEq, exists_eq_left', ← Nat.add_assoc]
        exact happend
    · simp only [hauth, if_false, false_implies, iff_true]
      refine ⟨within_pure, ?_⟩
      rw [secLen_toNat, at_ie_len hat, ← Nat.add_assoc]

theorem low_of_cutOff (h : x.CutOff) {i : Nat} (hi : i < 12) : x.restructSecIeT.val.mem i = x.inIe i := by
  have hval : x.restructSecIeT.val.mem = (rtwRestructSecIe x.secPriv x.inIe x.outIe).1 := rfl
  have hcopied : x.copied i = x.inIe i := by
    have hin : copy 0 (Splice.read x.inIe 0 12) x.outIe (0 + i) = _ := copy_of_mem (by simpa using hi)
    unfold copied
    rw [copy_of_lt hi, ← Nat.zero_add i, hin, getElem_read]
  have hup (mem : Nat → UInt8) (v : UInt8) : Function.update mem 13 v i = mem i := Function.update_of_ne (by omega) _ _
  rw [hval, restructSecIe_eq]
  by_cases hauth : x.secPriv.authmode = wpa2IeId
  · obtain ⟨e, he⟩ := Option.ne_none_iff_exists'.1 fun hnone => x.secIe_none hnone hauth
    have hat : At x.copied 12 e.bytes := by
      unfold copied
      rw [he]
      exact at_copy
    have hcut := h e he hauth
    rw [if_pos hauth, he, Option.elim_some]
    cases hcached : x.secPriv.cachedPmkid with
    | none =>
      rw [Option.elim_none, rtwRemovePmkid]
      split
      · exact hcopied
      · exact (hup _ _).trans hcopied
    | some pmkid =>
      rw [Option.elim_some, rtwAppendPmkid]
      split
      · exact hcopied
      · case isFalse hmatch =>
        have hput (mem : Nat → UInt8) (len : BitVec 32) (hmem : mem i = x.inIe i) (hlow : 12 ≤ len.toNat)
            (hhigh : len.toNat ≤ 300) :
            Function.update (copy (len + 2).toNat pmkid.toList (copy len.toNat [1, 0] mem)) 13
              ((copy (len + 2).toNat pmkid.toList (copy len.toNat [1, 0] mem)) 13 + 18) i = x.inIe i := by
          have h2 : (len + 2).toNat = len.toNat + 2 := by
            rw [BitVec.toNat_add]
            exact Nat.mod_eq_of_lt (by have : (2 : BitVec 32).toNat = 2 := rfl; omega)
          rw [hup, h2, copy_of_lt (by omega), copy_of_lt (by omega), hmem]
        have hfits : e.data.length < 256 := e.fits
        have hlen := secLen_toNat e
        by_cases hlong : x.copied 13 > 20
        · have hno : ¬∃ k, x.secPriv.cachedPmkid = some k ∧ RsnIe.Carries x.copied k := by
            rintro ⟨k, hk, hcarries⟩
            obtain rfl := Option.some.inj (hcached.symm.trans hk)
            exact hmatch ⟨hlong, hcarries⟩
          have h34 := (cut_toNat e (show rtwGetLe16 x.copied (14 + 20) < 65536 from rtwGetLe16_lt)).2
            (hcut ((not_gt_iff hat).1 hlong) hno)
          simp only [hlong, if_true, cutPmkid]
          exact hput _ _ ((hup _ _).trans hcopied) (by omega) (by omega)
        · simp only [hlong, if_false]
          exact hput _ _ hcopied (by omega) (by omega)
  · rw [if_neg hauth]
    exact hcopied

theorem length_bytes_ieOf (tag : UInt8) (data : List UInt8) :
    (bytes [ieOf tag data]).length = 2 + min 255 data.length := by
  rw [length_bytes_cons, ieOf, List.length_take]
  rfl

theorem length_wmmIes : x.wmmIes = [] ∨ ∃ v, x.wmmIes = [wmmElement v] := by
  unfold wmmIes
  split
  · cases (wmmLoopT x.inIe x.ies.length x.ies.length 12).val with
    | none => exact .inl rfl
    | some j => exact .inr ⟨_, rfl⟩
  · exact .inl rfl

theorem length_appended : (bytes x.appended).length ≤ 354 := by
  have hwmm : (bytes x.wmmIes).length ≤ 9 := by
    rcases x.length_wmmIes with h | ⟨v, h⟩
    · rw [h]
      exact Nat.zero_le 9
    · rw [h]
      exact Nat.le_refl 9
  have hinfo : (bytes x.htInfoIes).length ≤ 24 := by
    unfold htInfoIes
    cases x.htInfo with
    | none => exact Nat.zero_le 24
    | some p =>
      rw [Option.elim_some, length_bytes_ieOf, length_read]
      omega
  have hht (q : Bool) : (bytes (x.htIes q)).length ≤ 61 := by
    have hcap : (bytes [x.htCapIe]).length = 2 + 26 := by
      rw [htCapIe, length_bytes_ieOf, Vector.length_toList]
      rfl
    have hdef : (bytes (if q then [] else [wmmElement 1])).length ≤ 9 := by
      cases q with
      | true => exact Nat.zero_le 9
      | false => exact Nat.le_refl 9
    unfold htIes
    split
    · rw [length_bytes_append, length_bytes_append]
      omega
    · exact Nat.zero_le 61
  have hvht : (bytes x.vhtIes).length ≤ 274 := by
    have hop : (bytes x.vhtOperationIes).length ≤ 257 := by
      unfold vhtOperationIes
      cases x.findBody 192 with
      | none => exact Nat.zero_le 257
      | some p =>
        rw [Option.elim_some, length_bytes_ieOf]
        omega
    unfold vhtIes
    split
    · cases x.findBody 191 with
      | none => exact Nat.zero_le 274
      | some p =>
        rw [Option.elim_some, length_bytes_append, length_bytes_append, length_bytes_ieOf, length_bytes_ieOf,
          Vector.length_toList, List.length_singleton]
        omega
    · exact Nat.zero_le 274
  have hext : (bytes x.extCapIes).length ≤ 10 := by
    unfold extCapIes
    dsimp only
    generalize (if x.htOption then x.wifiSpec else x.bssCoexist) = bssCoexist
    split
    · exact Nat.zero_le 10
    · rw [length_bytes_ieOf]
      exact Nat.le_refl 10
  have := hht (x.wmmIes ≠ [])
  unfold appended
  rw [length_bytes_append, length_bytes_append, length_bytes_append]
  omega

/-! ### The whole block -/

/-- `sec` and the elements that are appended make up the block, which fits into `IEs`. -/
def Made (sec : List Ie) (o : OutIes) : Prop :=
  Splice.read o.mem 0 12 = Splice.read x.inIe 0 12 ∧ At o.mem 12 (bytes (sec ++ x.appended)) ∧
    o.len.toNat = 12 + (bytes (sec ++ x.appended)).length ∧ o.len.toNat ≤ maxIeSz

/-- The elements that the join is given are complete, and nothing else is touched to put them there. -/
def BlockOk : Prop :=
  Within x.size x.rtwJoinbssCmd ∧ ∃ sec : List Ie, sec.length = x.secIe.toList.length ∧ x.Made sec x.rtwJoinbssCmd.val

/-- The searches and copies stop inside the elements `l` of the network, with `r` behind them. -/
structure ReadsOk (l : List Ie) (r : List UInt8) : Prop where
  wmm : x.wmmEnable → WmmEnds r l
  htCap : SearchEnds 45 l r
  ht : x.htOption → SearchEnds 61 l r ∧ ∀ p, x.htInfo = some p → x.Has p 24
  vht : x.htOption → x.vhtEnable → SearchEnds 191 l r ∧ ∀ p, x.findBody 191 = some p → x.Has p.1 3 ∧
    (∀ q, x.findBody 61 = some q → x.Has q.1 4) ∧
    SearchEnds 192 l r ∧ ∀ q, x.findBody 192 = some q → x.Has q.1 (2 + q.2)

variable {l : List Ie} {r : List UInt8}

theorem within_getIe (h : x.elements = bytes l ++ r) (hcut : Cut ieFormat r) (index : Nat) :
    Within x.size (x.getIe index) ↔ SearchEnds index l r := by
  have hlen : (bytes l ++ r).length = x.ies.length - 12 := by rw [← h, elements, List.length_drop]
  by_cases hshort : x.ies.length < 12
  · have hnil : bytes l ++ r = [] := List.length_eq_zero_iff.1 (by omega)
    obtain ⟨-, rfl⟩ := List.append_eq_nil_iff.1 hnil
    unfold getIe rtwGetIeT
    rw [if_pos (by omega)]
    exact iff_of_true within_pure fun h1 => absurd h1 Nat.zero_ne_one
  · have hbuf : (x.ies ++ x.behind).drop 12 = bytes l ++ r ++ x.behind := by
      rw [List.drop_append_of_le_length (by omega), ← h, elements]
    unfold getIe
    rw [hbuf, ← hlen]
    exact within_rtwGetIeT hcut (show x.ies.length = 12 + (bytes l ++ r).length by omega)

theorem wmmIn_iff (h : x.elements = bytes l ++ r) (hcut : Cut ieFormat r) (hlong : 12 < x.ies.length) :
    WmmIn x.size x.ies.length (wmmLoopT x.inIe x.ies.length x.ies.length 12) ↔ WmmEnds r l := by
  have hlen : (bytes l ++ r).length = x.ies.length - 12 := by rw [← h, elements, List.length_drop]
  have hat : At x.inIe 0 (x.ies ++ x.behind) := at_getD
  have hat := (at_append.1 hat).1
  rw [← List.take_append_drop 12 x.ies] at hat
  have hat := (at_append.1 hat).2
  have hat12 : At x.inIe 12 (bytes l ++ r) := by
    rw [← h, elements]
    rwa [List.length_take_of_le (by omega)] at hat
  exact wmmLoop_ok hcut hat12 (by omega) rfl (by omega)

theorem htVhtReads_iff (h : x.elements = bytes l ++ r) (hcut : Cut ieFormat r)
    (hwmm : x.wmmEnable → WmmEnds r l) : x.HtVhtReads ↔ x.ReadsOk l r := by
  have hget := x.within_getIe h hcut
  constructor
  · intro hr
    refine ⟨hwmm, (hget 45).1 hr.htCap, fun hht => ?_, fun hht hvht => ?_⟩
    · exact ⟨(hget 61).1 (hr.ht hht).1, (hr.ht hht).2⟩
    · obtain ⟨h191, hbody⟩ := hr.vht ⟨hht, hvht⟩
      refine ⟨(hget 191).1 h191, fun p hp => ?_⟩
      obtain ⟨hp3, ⟨-, h61⟩, h192, hcopy⟩ := hbody p hp
      exact ⟨hp3, h61, (hget 192).1 h192, hcopy⟩
  · intro hr
    refine ⟨(hget 45).2 hr.htCap, fun hht => ⟨(hget 61).2 (hr.ht hht).1, (hr.ht hht).2⟩, fun hv => ?_⟩
    obtain ⟨h191, hbody⟩ := hr.vht hv.1 hv.2
    refine ⟨(hget 191).2 h191, fun p hp => ?_⟩
    obtain ⟨hp3, h61, h192, hcopy⟩ := hbody p hp
    exact ⟨hp3, ⟨(hget 61).2 (hr.ht hv.1).1, h61⟩, (hget 192).2 h192, hcopy⟩

theorem builds_joinWmm (hlong : x.wmmEnable → 12 < x.ies.length) : BuildsT x.size x.joinWmm x.wmmIes
    (x.wmmEnable → WmmIn x.size x.ies.length (wmmLoopT x.inIe x.ies.length x.ies.length 12)) :=
  (BuildsT.ite fun hwmm => builds_wmm (hlong hwmm) rfl rfl).congr (fun _ => rfl) (fun _ => Iff.rfl) Iff.rfl

/-- Without elements the walk of `rtw_restruct_wmm_ie` has no round, and the block loses what it has. -/
theorem joinWmm_short (hwmm : x.wmmEnable) (hshort : x.ies.length ≤ 12) (o : OutIes) :
    (x.joinWmm o).val.len = 0 ∧ x.wmmIes = [] ∧ x.htOption = false := by
  have hloop : (wmmLoopT x.inIe x.ies.length x.ies.length 12).val = none := wmmLoop_none hshort
  refine ⟨?_, ?_, ?_⟩
  · unfold joinWmm rtwRestructWmmIe
    rw [if_pos hwmm, val_bind, hloop, if_neg (by omega)]
    rfl
  · unfold wmmIes
    rw [if_pos hwmm, hloop]
    rfl
  · have hfind : x.findBody 45 = none := by
      unfold findBody find rtwGetIe
      rw [if_pos (by omega)]
      rfl
    unfold htOption
    rw [hfind]
    simp

/-- `qos_option` says whether there is a WMM element. -/
theorem qosOption_eq {o o' : OutIes} (h : o.Appends x.wmmIes o') :
    decide (o'.len ≠ o.len) = decide (x.wmmIes ≠ []) := by
  rw [decide_eq_decide, h.1]
  rcases x.length_wmmIes with hnil | ⟨v, hv⟩
  · rw [hnil]
    exact iff_of_false (fun hne => hne (BitVec.add_zero _)) fun hne => hne rfl
  · rw [hv]
    refine iff_of_true (fun heq => ?_) (List.cons_ne_nil _ _)
    have h9 : (BitVec.ofNat 32 (bytes [wmmElement v]).length).toNat = 9 := rfl
    have hlen := congrArg BitVec.toNat heq
    rw [BitVec.toNat_add, h9] at hlen
    omega

theorem blockOk_parts : Within x.size x.rtwJoinbssCmd ↔ Within x.size x.restructSecIeT ∧
    Within x.size (x.joinWmm x.restructSecIeT.val) ∧
      Within x.size (x.joinHtVht ((x.joinWmm x.restructSecIeT.val).val.len ≠ x.restructSecIeT.val.len)
        (x.joinWmm x.restructSecIeT.val).val) := by
  unfold rtwJoinbssCmd
  rw [within_bind, within_bind]

theorem appends_join (hlong : x.wmmEnable → 12 < x.ies.length) :
    x.restructSecIeT.val.Appends x.appended x.rtwJoinbssCmd.val := by
  have hwmm := (x.builds_joinWmm hlong).appends x.restructSecIeT.val
  have hrest := (x.builds_joinHtVht (decide (x.wmmIes ≠ []))).appends (x.joinWmm x.restructSecIeT.val).val
  have hall := hwmm.trans hrest
  rw [← x.qosOption_eq hwmm] at hall
  have hdef : x.appended = x.wmmIes ++ (x.htIes (decide ((x.joinWmm x.restructSecIeT.val).val.len ≠
      x.restructSecIeT.val.len)) ++ (x.vhtIes ++ x.extCapIes)) := by
    rw [x.qosOption_eq hwmm]
    rfl
  rw [hdef]
  exact hall

theorem within_joinHtVht_iff (hlong : x.wmmEnable → 12 < x.ies.length)
    (hroom : x.restructSecIeT.val.Room (bytes x.appended).length) :
    (Within x.size (x.joinWmm x.restructSecIeT.val) ∧
      Within x.size (x.joinHtVht ((x.joinWmm x.restructSecIeT.val).val.len ≠ x.restructSecIeT.val.len)
        (x.joinWmm x.restructSecIeT.val).val)) ↔
      (x.wmmEnable → WmmIn x.size x.ies.length (wmmLoopT x.inIe x.ies.length x.ies.length 12)) ∧ x.HtVhtReads := by
  have hwmm := x.builds_joinWmm hlong
  have hqos := x.qosOption_eq (hwmm.appends x.restructSecIeT.val)
  have hall := hwmm.comp (x.builds_joinHtVht (decide (x.wmmIes ≠ [])))
  rw [hqos]
  exact ⟨fun h => hall.reads _ h, fun h => hall.within _ h hroom⟩

/-- The length before anything is appended, from the length of the whole. -/
theorem len_of_appends {o o' : OutIes} {n : Nat} (h : o.Appends x.appended o')
    (hlen : o'.len.toNat = n + (bytes x.appended).length) (hn : n ≤ 400) : o.len.toNat = n := by
  have hsmall := x.length_appended
  have hlt := o.len.isLt
  rw [h.1, BitVec.toNat_add, BitVec.toNat_ofNat, Nat.add_mod_mod] at hlen
  omega

theorem length_bytes_sec {sec : List Ie} (h : sec.length = x.secIe.toList.length) : (bytes sec).length ≤ 257 := by
  rcases sec with _ | ⟨s, _ | ⟨s', sec⟩⟩
  · exact Nat.zero_le 257
  · have hfits : s.data.length < 256 := s.fits
    rw [bytes_cons, bytes_nil, List.append_nil, length_ie_bytes]
    omega
  · cases hx : x.secIe with
    | none =>
      rw [hx] at h
      cases h
    | some e =>
      rw [hx] at h
      simp at h

/-- The octet of the security element in the block is that of `out_ie`. -/
theorem secLen_of_made {sec : List Ie} {o o' : OutIes} (hsec : sec.length = x.secIe.toList.length)
    (h : o.Appends x.appended o') (hlen : o.len.toNat = 12 + (bytes sec).length)
    (hat : At o'.mem 12 (bytes (sec ++ x.appended))) : o.len.toNat = 12 + x.secLen o := by
  have hsmall := x.length_appended
  have hsecLen := x.length_bytes_sec hsec
  have hmax : maxIeSz = 768 := rfl
  unfold secLen
  cases hx : x.secIe with
  | none =>
    rw [hx] at hsec
    rw [List.eq_nil_of_length_eq_zero hsec] at hlen
    exact hlen
  | some e =>
    rw [hx] at hsec
    obtain ⟨s, rfl⟩ := List.length_eq_one_iff.1 hsec
    rw [bytes_append, bytes_cons, bytes_nil, List.append_nil] at hat
    rw [bytes_cons, bytes_nil, List.append_nil, length_ie_bytes] at hlen hsecLen
    have h13 := at_ie_len (at_append.1 hat).1
    rw [(h.2 (by omega)).2 13 (by omega)] at h13
    rw [Option.elim_some]
    omega

/-- Condition and block, when there is a walk to a WMM element only where there are elements. -/
theorem blockOk_iff_of_long (hlong : x.wmmEnable → 12 < x.ies.length) : x.BlockOk ↔ x.CutOff ∧
    (x.wmmEnable → WmmIn x.size x.ies.length (wmmLoopT x.inIe x.ies.length x.ies.length 12)) ∧ x.HtVhtReads := by
  have happ := x.appends_join hlong
  have hsmall := x.length_appended
  have hmax : maxIeSz = 768 := rfl
  constructor
  · rintro ⟨hw, sec, hsec, -, hat, hlen, -⟩
    obtain ⟨hwsec, hwrest⟩ := x.blockOk_parts.1 hw
    have hsecLen := x.length_bytes_sec hsec
    rw [length_bytes_append, ← Nat.add_assoc] at hlen
    have hlen1 := x.len_of_appends happ hlen (by omega)
    have hroom : x.restructSecIeT.val.Room (bytes x.appended).length := ⟨by omega, by omega⟩
    exact ⟨x.sec_iff.1 ⟨hwsec, x.secLen_of_made hsec happ hlen1 hat⟩, (x.within_joinHtVht_iff hlong hroom).1 hwrest⟩
  · rintro ⟨hcut, hreads⟩
    obtain ⟨hwsec, hlen⟩ := x.sec_iff.2 hcut
    have hfixed (i : Nat) (hi : i < 12) := x.low_of_cutOff hcut hi
    have hoctet := (x.restructSecIeT.val.mem 13).toNat_lt
    have hsecLen : x.secLen x.restructSecIeT.val ≤ 257 := by
      unfold secLen
      cases x.secIe with
      | none => exact Nat.zero_le 257
      | some e =>
        rw [Option.elim_some]
        omega
    have hroom : x.restructSecIeT.val.Room (bytes x.appended).length := ⟨by omega, by omega⟩
    have hlen' := happ.len (by omega)
    obtain ⟨hat, hsame⟩ := happ.2 (by omega)
    obtain ⟨sec, hcount, hsecBytes, hsecAt⟩ : ∃ sec : List Ie, sec.length = x.secIe.toList.length ∧
        (bytes sec).length = x.secLen x.restructSecIeT.val ∧ At x.restructSecIeT.val.mem 12 (bytes sec) := by
      unfold secLen
      cases x.secIe with
      | none => exact ⟨[], rfl, rfl, trivial⟩
      | some e =>
        have hdata : (Splice.read x.restructSecIeT.val.mem 14 (x.restructSecIeT.val.mem 13).toNat).length =
            (x.restructSecIeT.val.mem 13).toNat := length_read
        refine ⟨[⟨x.restructSecIeT.val.mem 12,
          Splice.read x.restructSecIeT.val.mem 14 (x.restructSecIeT.val.mem 13).toNat, hdata.trans_lt hoctet⟩], rfl, ?_, ?_⟩
        · rw [bytes_cons, bytes_nil, List.append_nil, length_ie_bytes, hdata]
          rfl
        · rw [bytes_cons, bytes_nil, List.append_nil, ie_bytes]
          refine ⟨rfl, ?_, ?_⟩
          · rw [hdata, UInt8.ofNat_toNat]
          · rw [at_iff]
            intro i hi
            exact (getElem_read hi).symm
    refine ⟨x.blockOk_parts.2 ⟨hwsec, (x.within_joinHtVht_iff hlong hroom).2 hreads⟩, sec, hcount, ?_, ?_, ?_, ?_⟩
    · refine read_congr fun i hi => ?_
      rw [Nat.zero_add, hsame i (by omega), hfixed i hi]
    · rw [bytes_append]
      refine at_append.2 ⟨hsecAt.congr fun i _ hi => hsame i (by omega), ?_⟩
      rw [hsecBytes, ← hlen]
      exact hat
    · rw [length_bytes_append, hlen', hlen, hsecBytes, Nat.add_assoc]
    · omega

/-- When the block of a join is made up of complete elements, and the network is read inside its own only. -/
theorem blockOk_iff (x : JoinIn) : x.BlockOk ↔ (x.wmmEnable → 12 < x.ies.length) ∧ x.CutOff ∧
    ∃ l r, x.elements = bytes l ++ r ∧ Cut ieFormat r ∧ x.ReadsOk l r := by
  by_cases hlong : x.wmmEnable → 12 < x.ies.length
  · rw [x.blockOk_iff_of_long hlong, and_iff_right hlong]
    refine and_congr_right fun _ => ?_
    constructor
    · rintro ⟨hwmm, hreads⟩
      obtain ⟨l, r, hitems, hcut⟩ := exists_items ieFormat x.elements
      have hends (hen : x.wmmEnable) := (x.wmmIn_iff hitems hcut (hlong hen)).1 (hwmm hen)
      exact ⟨l, r, hitems, hcut, (x.htVhtReads_iff hitems hcut hends).1 hreads⟩
    · rintro ⟨l, r, hitems, hcut, hreads⟩
      exact ⟨fun hen => (x.wmmIn_iff hitems hcut (hlong hen)).2 (hreads.wmm hen),
        (x.htVhtReads_iff hitems hcut hreads.wmm).2 hreads⟩
  · refine iff_of_false (fun hok => ?_) fun h => hlong h.1
    obtain ⟨hwmm, hshort⟩ := Classical.not_imp.1 hlong
    obtain ⟨-, sec, -, -, -, hlen, -⟩ := hok
    obtain ⟨hzero, hnil, hht⟩ := x.joinWmm_short hwmm (Nat.not_lt.1 hshort) x.restructSecIeT.val
    have hrest := (x.builds_joinHtVht ((x.joinWmm x.restructSecIeT.val).val.len ≠ x.restructSecIeT.val.len)).appends
      (x.joinWmm x.restructSecIeT.val).val
    have hsame : x.htIes ((x.joinWmm x.restructSecIeT.val).val.len ≠ x.restructSecIeT.val.len) ++
        (x.vhtIes ++ x.extCapIes) = x.appended := by
      unfold appended htIes
      rw [hnil, hht]
      rfl
    rw [hsame] at hrest
    have hsmall := x.length_appended
    have hlen' : x.rtwJoinbssCmd.val.len = (x.joinWmm x.restructSecIeT.val).val.len + _ := hrest.1
    have hlen' := congrArg BitVec.toNat hlen'
    have h0 : (0 : BitVec 32).toNat = 0 := rfl
    rw [BitVec.toNat_add, hzero, h0, BitVec.toNat_ofNat] at hlen'
    rw [length_bytes_append] at hlen
    omega

/-- A beacon with a byte behind the fixed fields, and a station without security. -/
def loneByte : JoinIn where
  ies := List.replicate 13 0
  small := by decide
  behind := []
  supplicant := ieOf 0x30 []
  wps := ieOf 0xdd []
  ndisauthtype := .other
  underWps := false
  pmkidList := fun _ => ⟨false, Vector.replicate 6 0, Vector.replicate 16 0⟩
  assocBssid := Vector.ofFn fun i => if i.val = 0 then 2 else 0
  dot11PrivacyAlgrthm := .noPrivacy
  wmmEnable := false
  htEnable := false
  vhtEnable := false
  wifiSpec := false
  bssCoexist := false
  caps := ⟨fun _ => Vector.replicate 26 0, false, Vector.replicate 12 0, 0, 1⟩

/-- The search for the HT capabilities reads the length behind the byte. -/
theorem not_blockOk : ¬ ∀ x : JoinIn, x.BlockOk := by
  intro h
  have hw := (loneByte.blockOk_parts.1 (h loneByte).1).2.2
  have hreads := (loneByte.builds_joinHtVht _).reads _ hw
  exact absurd hreads.htCap (by decide)

end JoinIn

end Rtw
