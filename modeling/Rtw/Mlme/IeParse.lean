import Rtw.Mlme.IeItems
import Rtw.Mlme.IeList

/-!
# What the parser accepts

`rtw_ieee802_11_parse_elems` on any string: it takes the complete elements one after the other and fails exactly when
something is left behind them. A vendor element that `rtw_ieee802_11_parse_vendor_specific` rejects is counted as an
unknown one, which is no failure.
-/

namespace Rtw
open Access Traced Tlv

/-- The pointer for an element, `none` for an unknown or a rejected one. -/
def Ie.kind? (x : Ie) : Option ElemKind :=
  if x.id = 221 then vendorSpecific? x.data 0 x.data.length else elemKind? x.id

/-- The pointers after the elements of `l`, of which the first is at `pos`. -/
def recorded : Nat → List Ie → Elems → Elems
  | _, [], elems => elems
  | pos, x :: l, elems =>
    recorded (pos + x.bytes.length) l
      (x.kind?.elim elems fun k => Function.update elems k (some (pos + 2, x.data.length)))

section
variable {O : Type} {obj : O} {base : Nat} {p r buf : List UInt8} {x : Ie} {l : List Ie} {elems : Elems}

theorem vendorSpecific_at_ie :
    vendorSpecific? (p ++ (x.bytes ++ r)) (p.length + 2) x.data.length = vendorSpecific? x.data 0 x.data.length := by
  have hbyte (i : Nat) (h : i < x.data.length) :
      byteAt (p ++ (x.bytes ++ r)) (p.length + 2 + i) = byteAt x.data (0 + i) := by
    rw [Nat.add_assoc, byteAt_append_right, Nat.zero_add, ← byteAt_append_left (s := r) h]
    show byteAt (x.tag :: UInt8.ofNat x.data.length :: (x.data ++ r)) (2 + i) = _
    rw [Nat.add_comm 2 i]
    rfl
  unfold vendorSpecific?
  dsimp only
  by_cases h4 : x.data.length < 4
  · rw [if_pos h4, if_pos h4]
  · simp only [if_neg h4, hbyte 0 (by omega), hbyte 1 (by omega), hbyte 2 (by omega), hbyte 3 (by omega)]
    by_cases h5 : x.data.length < 5
    · simp only [h5, if_true]
    · simp only [hbyte 4 (by omega)]

theorem kind_at_ie : (if x.id = 221 then
      vendorSpecific? (p ++ (x.bytes ++ r)) (p.length + 2) x.data.length else elemKind? x.id) = x.kind? := by
  rw [vendorSpecific_at_ie]
  rfl

theorem parseElemsLoop_cut (h : Cut ieFormat r) (fuel unknown : Nat) :
    parseElemsLoop (p ++ r) (fuel + 1) p.length r.length elems unknown =
      (if r ≠ [] then .parseFailed else if unknown ≠ 0 then .parseUnknown else .parseOK, elems) := by
  have hcut := cut_ie_iff.1 h
  unfold parseElemsLoop
  by_cases hleft : r.length ≥ 2
  · have hne : r ≠ [] := List.ne_nil_of_length_pos (by omega)
    rw [if_pos hleft, if_pos hne]
    dsimp only
    rw [byteAt_append_right, if_pos (by omega)]
  · rw [if_neg hleft]
    by_cases hne : r ≠ []
    · rw [if_pos (mt List.length_eq_zero_iff.1 hne), if_pos hne]
    · rw [not_not.1 hne]
      rfl

theorem parseElemsLoop_bytes (h : Cut ieFormat r) (fuel unknown : Nat) (hfuel : l.length < fuel) :
    parseElemsLoop (p ++ (bytes l ++ r)) fuel p.length (bytes l ++ r).length elems unknown =
      (if r ≠ [] then .parseFailed
        else if unknown + l.countP (fun x => x.kind?.isNone) ≠ 0 then .parseUnknown else .parseOK,
        recorded p.length l elems) := by
  induction l generalizing p elems fuel unknown with
  | nil =>
    obtain ⟨fuel, rfl⟩ := Nat.exists_eq_succ_of_ne_zero (Nat.ne_of_gt hfuel)
    exact parseElemsLoop_cut h fuel unknown
  | cons x l ih =>
    obtain ⟨fuel, rfl⟩ := Nat.exists_eq_succ_of_ne_zero (Nat.ne_zero_of_lt hfuel)
    have hlen : (bytes (x :: l) ++ r).length = 2 + x.data.length + (bytes l ++ r).length := by
      rw [List.length_append, length_bytes_cons, List.length_append]
      exact Nat.add_assoc ..
    have hpos : p.length + 2 + x.data.length = (p ++ x.bytes).length := by
      rw [List.length_append, length_ie_bytes]
      omega
    unfold parseElemsLoop
    rw [hlen, if_pos (by omega), bytes_cons, List.append_assoc]
    dsimp only
    rw [byteAt_at_ie.1, byteAt_at_ie.2, if_neg (by omega), kind_at_ie, hpos,
      show 2 + x.data.length + (bytes l ++ r).length - 2 - x.data.length = (bytes l ++ r).length by omega,
      ← List.append_assoc p]
    have hrest : ∀ elems' unknown', parseElemsLoop (p ++ x.bytes ++ (bytes l ++ r)) fuel (p ++ x.bytes).length
        (bytes l ++ r).length elems' unknown' = _ := fun _ unknown' =>
      ih (p := p ++ x.bytes) fuel unknown' (Nat.lt_of_succ_lt_succ hfuel)
    rw [recorded, List.countP_cons]
    cases hk : x.kind? with
    | some k =>
      dsimp only
      rw [hrest, List.length_append]
      rfl
    | none =>
      dsimp only
      rw [hrest, List.length_append, Option.elim_none]
      simp only [Option.isNone_none, if_true, Nat.add_assoc, Nat.add_comm 1]

/-- Each pointer is to the contents of one of the elements. -/
theorem recorded_spec {k : ElemKind} {pos len : Nat} (h : recorded p.length l elems k = some (pos, len)) :
    elems k = some (pos, len) ∨ ∃ (a : List Ie) (x : Ie) (b : List Ie), l = a ++ x :: b ∧
      x.kind? = some k ∧ pos = p.length + (bytes a).length + 2 ∧ len = x.data.length := by
  induction l generalizing p elems with
  | nil => exact .inl h
  | cons x l ih =>
    rw [recorded, ← List.length_append] at h
    obtain hold | ⟨a, y, b, rfl, hy, hpos, hlen⟩ := ih h
    · cases hk : x.kind? with
      | none =>
        rw [hk, Option.elim_none] at hold
        exact .inl hold
      | some k' =>
        rw [hk, Option.elim_some] at hold
        by_cases hkk : k = k'
        · subst hkk
          rw [Function.update_self] at hold
          obtain ⟨rfl, rfl⟩ := Prod.mk.inj (Option.some.inj hold)
          exact .inr ⟨[], x, l, rfl, hk, rfl, rfl⟩
        · rw [Function.update_of_ne hkk] at hold
          exact .inl hold
    · refine .inr ⟨x :: a, y, b, rfl, hy, ?_, hlen⟩
      rw [hpos, bytes_cons, List.length_append, List.length_append]
      omega

/-- A round takes at least two bytes, so more rounds than bytes are never made. -/
theorem parseElemsT_fuel {fuel fuel' : Nat} (pos left unknown : Nat) (h : left < fuel) (h' : left < fuel') :
    parseElemsT obj base buf fuel pos left elems unknown = parseElemsT obj base buf fuel' pos left elems unknown := by
  induction fuel generalizing fuel' pos left elems unknown with
  | zero => exact absurd h (Nat.not_lt_zero left)
  | succ fuel ih =>
    obtain ⟨fuel', rfl⟩ := Nat.exists_eq_succ_of_ne_zero (Nat.ne_zero_of_lt h')
    have hrest : ∀ pos' left' elems' unknown', left' + 2 ≤ left →
        parseElemsT obj base buf fuel pos' left' elems' unknown' =
          parseElemsT obj base buf fuel' pos' left' elems' unknown' := fun pos' left' _ unknown' hle =>
      ih pos' left' unknown' (by omega) (by omega)
    unfold parseElemsT
    by_cases hleft : left ≥ 2
    · rw [if_pos hleft, if_pos hleft]
      dsimp only
      by_cases helen : byteAt buf (pos + 1) > left - 2
      · rw [if_pos helen, if_pos helen]
      · rw [if_neg helen, if_neg helen]
        cases if byteAt buf pos = 221 then vendorSpecific? buf (pos + 2) (byteAt buf (pos + 1))
          else elemKind? (byteAt buf pos) with
        | some k =>
          dsimp only
          rw [hrest _ _ _ _ (by omega)]
        | none =>
          dsimp only
          rw [hrest _ _ _ _ (by omega)]
    · rw [if_neg hleft, if_neg hleft]

end

/-- `rtw_ieee802_11_parse_elems`, with what it reads of the string. -/
def parseElemsOf (start : List UInt8) (fuel : Nat) : Traced Unit (ParseRes × Elems) :=
  parseElemsT () 0 start fuel 0 start.length (fun _ => none) 0

/-- Of any string the parser reads nothing but the string, it comes to its end, each pointer that it leaves is to the
whole contents of an element, and it fails exactly if the string is not made up of complete elements. -/
theorem parseElems_spec (start : List UInt8) :
    Within (fun _ => start.length) (parseElemsOf start (start.length + 1)) ∧
    (∀ fuel, start.length < fuel → parseElemsOf start fuel = parseElemsOf start (start.length + 1)) ∧
    (parseElemsOf start (start.length + 1)).val = rtwIeee80211ParseElems start ∧
    (∀ k pos len, (rtwIeee80211ParseElems start).2 k = some (pos, len) →
      ∃ (a : List Ie) (x : Ie) (r : List UInt8), start = bytes a ++ (x.bytes ++ r) ∧ x.kind? = some k ∧
        pos = (bytes a).length + 2 ∧ len = x.data.length) ∧
    ((rtwIeee80211ParseElems start).1 = .parseFailed ↔ ¬ ∃ l : List Ie, start = bytes l) ∧
    ((rtwIeee80211ParseElems start).1 = .parseUnknown ↔ ∃ l : List Ie, start = bytes l ∧ ∃ x ∈ l, x.kind? = none) := by
  obtain ⟨l, r, rfl, hcut⟩ := exists_items ieFormat start
  have hfuel : l.length < (bytes l ++ r).length + 1 := by
    have hcount : l.length * 2 ≤ (bytes l).length := length_le_bytes l
    rw [List.length_append]
    omega
  have hparse : rtwIeee80211ParseElems (bytes l ++ r) = _ :=
    parseElemsLoop_bytes (p := []) hcut _ 0 hfuel
  refine ⟨?_, fun fuel h => parseElemsT_fuel _ _ _ h (Nat.lt_succ_self _), parseElemsT_val .., fun k pos len h => ?_,
    ?_, ?_⟩
  · exact within_parseElemsT _ _ _ _ _ (Nat.le_of_eq (Nat.zero_add _))
  · rw [hparse] at h
    obtain hnone | ⟨a, x, b, rfl, hx, hpos, hlen⟩ := recorded_spec h
    · cases hnone
    · refine ⟨a, x, bytes b ++ r, ?_, hx, ?_, hlen⟩
      · rw [bytes_append, bytes_cons, List.append_assoc, List.append_assoc]
      · rw [hpos, List.length_nil, Nat.zero_add]
  · rw [hparse, exists_bytes_iff rfl hcut]
    by_cases hr : r = []
    · simp only [hr, ne_eq, not_true, if_false, iff_false]
      split <;> simp
    · simp only [hr, ne_eq, not_false_eq_true, if_true]
  · rw [hparse]
    by_cases hr : r = []
    · subst hr
      simp only [ne_eq, not_true, if_false, List.append_nil]
      have hcount : ¬ 0 + l.countP (fun x => (Ie.kind? x).isNone) = 0 ↔ ∃ x ∈ l, Ie.kind? x = none := by
        rw [Nat.zero_add, ← ne_eq, ← Nat.pos_iff_ne_zero, List.countP_pos_iff]
        simp only [Option.isNone_iff_eq_none]
      simp only [hcount]
      constructor
      · intro h
        refine ⟨l, rfl, by_contra fun hx => ?_⟩
        rw [if_neg hx] at h
        cases h
      · rintro ⟨m, hm, hx⟩
        rw [bytes_inj hm, if_pos hx]
    · simp only [hr, ne_eq, not_false_eq_true, if_true]
      refine iff_of_false (by simp) ?_
      rintro ⟨m, hm, -⟩
      exact hr ((exists_bytes_iff rfl hcut).1 ⟨m, hm⟩)

end Rtw
