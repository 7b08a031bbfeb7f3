import Rtw.Lib.Tlv
import Rtw.Mlme.Ie

/-!
# Elements as items

An element is an item whose tag and length take one octet each. What the searches read at an element, and what
`rtw_get_ie` finds in a list of them.
-/

namespace Rtw
open Tlv

/-- Id and length of an element, an octet each. -/
def ieFormat : Format UInt8 UInt8 where
  hdr := 2
  max := 256
  header id len := [id, UInt8.ofNat len]
  length_header _ _ := rfl
  header_inj := by
    intro t n t' n' hn hn' h
    obtain ⟨rfl, htail⟩ := List.cons.inj h
    refine ⟨rfl, ?_⟩
    have hlen := congrArg UInt8.toNat (List.cons.inj htail).1
    rwa [UInt8.toNat_ofNat', UInt8.toNat_ofNat', Nat.mod_eq_of_lt hn, Nat.mod_eq_of_lt hn'] at hlen
  hdr_pos := Nat.zero_lt_two

/-- An information element. -/
abbrev Ie := Item ieFormat

namespace Ie

def id (x : Ie) : Nat := x.tag.toNat

end Ie

theorem fits_nil : ([] : List UInt8).length < ieFormat.max := Nat.zero_lt_succ 255

section
variable {p q r s : List UInt8} {x : Ie} {l : List Ie} {i : Nat}

theorem byteAt_length (p s : List UInt8) : byteAt (p ++ s) p.length = byteAt s 0 := byteAt_append_right p s 0

theorem ie_bytes (x : Ie) : x.bytes = x.tag :: UInt8.ofNat x.data.length :: x.data := rfl

theorem length_ie_bytes (x : Ie) : x.bytes.length = 2 + x.data.length := x.length_bytes

theorem length_behind_ie (p : List UInt8) (x : Ie) : p.length + (x.data.length + 2) = (p ++ x.bytes).length := by
  rw [List.length_append, length_ie_bytes, Nat.add_comm 2]

theorem byteAt_ie_id : byteAt (x.bytes ++ r) 0 = x.id := rfl

theorem byteAt_ie_len : byteAt (x.bytes ++ r) 1 = x.data.length := by
  have hlen : byteAt (x.bytes ++ r) 1 = (UInt8.ofNat x.data.length).toNat := rfl
  rw [hlen, UInt8.toNat_ofNat']
  exact Nat.mod_eq_of_lt x.fits

theorem drop_ie (x : Ie) (r : List UInt8) : (x.bytes ++ r).drop 2 = x.data ++ r := rfl

theorem byteAt_at_ie : byteAt (p ++ (x.bytes ++ r)) p.length = x.id ∧
    byteAt (p ++ (x.bytes ++ r)) (p.length + 1) = x.data.length :=
  ⟨(byteAt_length p _).trans byteAt_ie_id, (byteAt_append_right p _ 1).trans byteAt_ie_len⟩

/-- A rest is one without a header, or with one that declares more than there is. -/
theorem cut_ie_iff : Cut ieFormat s ↔ s.length < 2 ∨ s.length < 2 + byteAt s 1 := by
  constructor
  · intro h
    by_contra hlong
    match s, h, hlong with
    | [], _, hlong => exact hlong (.inl Nat.zero_lt_two)
    | [_], _, hlong => exact hlong (.inl Nat.one_lt_two)
    | id :: len :: r, h, hlong =>
      have hle : len.toNat ≤ r.length := by
        have hlen : byteAt (id :: len :: r) 1 = len.toNat := rfl
        rw [hlen, List.length_cons, List.length_cons] at hlong
        omega
      have htake : (r.take len.toNat).length = len.toNat := List.length_take_of_le hle
      have hfits : (r.take len.toNat).length < ieFormat.max := by
        rw [htake]
        exact len.toNat_lt
      refine h ⟨id, r.take len.toNat, hfits⟩ (r.drop len.toNat) ?_
      rw [ie_bytes, htake, UInt8.ofNat_toNat, List.cons_append, List.cons_append, List.take_append_drop]
  · rintro h x r rfl
    rw [List.length_append, length_ie_bytes, byteAt_ie_len] at h
    omega

/-! ### `rtw_get_ie` -/

theorem rtwGetIeLoop_step {index limit fuel : Nat} (hid : x.id ≠ index) :
    rtwGetIeLoop (p ++ (x.bytes ++ r)) index limit (fuel + 1) p.length =
      if (p ++ x.bytes).length ≥ limit then none
      else rtwGetIeLoop (p ++ x.bytes ++ r) index limit fuel (p ++ x.bytes).length := by
  have hpos := length_behind_ie p x
  rw [rtwGetIeLoop, byteAt_at_ie.1, byteAt_at_ie.2, if_neg hid, hpos, List.append_assoc]

theorem rtwGetIeLoop_found {index limit fuel : Nat} (hl : ∀ y ∈ l, y.id ≠ index) (hx : x.id = index)
    (hlimit : p.length + (bytes l).length < limit) (hfuel : l.length < fuel) :
    rtwGetIeLoop (p ++ (bytes l ++ (x.bytes ++ r))) index limit fuel p.length =
      some (p.length + (bytes l).length, x.data.length) := by
  induction l generalizing p fuel with
  | nil =>
    obtain ⟨fuel, rfl⟩ := Nat.exists_eq_succ_of_ne_zero (Nat.ne_of_gt hfuel)
    rw [bytes_nil, List.nil_append, rtwGetIeLoop, byteAt_at_ie.1, byteAt_at_ie.2, if_pos hx]
    rfl
  | cons y l ih =>
    obtain ⟨fuel, rfl⟩ := Nat.exists_eq_succ_of_ne_zero (Nat.ne_zero_of_lt hfuel)
    have hlen := length_add_bytes_cons p y l
    rw [hlen] at hlimit ⊢
    rw [bytes_cons, List.append_assoc, rtwGetIeLoop_step (hl y List.mem_cons_self), if_neg (by omega)]
    exact ih (fun z hz => hl z (List.mem_cons_of_mem _ hz)) hlimit (Nat.lt_of_succ_lt_succ hfuel)

theorem rtwGetIeLoop_none {index fuel : Nat} (hl : ∀ y ∈ l, y.id ≠ index) (hne : l ≠ []) :
    rtwGetIeLoop (p ++ (bytes l ++ r)) index (p.length + (bytes l).length) fuel p.length = none := by
  induction l generalizing p fuel with
  | nil => exact absurd rfl hne
  | cons y l ih =>
    cases fuel with
    | zero => rfl
    | succ fuel =>
      have hlen := length_add_bytes_cons p y l
      rw [hlen, bytes_cons, List.append_assoc, rtwGetIeLoop_step (hl y List.mem_cons_self)]
      by_cases hnil : l = []
      · rw [hnil]
        exact if_pos (Nat.le_refl _)
      · by_cases hend : (p ++ y.bytes).length ≥ (p ++ y.bytes).length + (bytes l).length
        · exact if_pos hend
        · rw [if_neg hend]
          exact ih (fun z hz => hl z (List.mem_cons_of_mem _ hz)) hnil

/-- The first element with the id is found. -/
theorem rtwGetIe_found {index limit : Nat} (hl : ∀ y ∈ l, y.id ≠ index) (hx : x.id = index)
    (hlimit : (bytes l).length < limit) :
    rtwGetIe (bytes l ++ (x.bytes ++ r)) index limit = some ((bytes l).length, x.data.length) := by
  have hcount : l.length * 2 ≤ (bytes l).length := length_le_bytes l
  have hfound : rtwGetIeLoop (bytes l ++ (x.bytes ++ r)) index limit limit 0 =
      some (0 + (bytes l).length, x.data.length) :=
    rtwGetIeLoop_found (p := []) hl hx (by rw [List.length_nil, Nat.zero_add]; exact hlimit) (by omega)
  rw [rtwGetIe, if_neg (by omega), hfound, Nat.zero_add]

theorem rtwGetIe_none {index : Nat} (hl : ∀ y ∈ l, y.id ≠ index) :
    rtwGetIe (bytes l ++ r) index (bytes l).length = none := by
  by_cases hnil : l = []
  · rw [hnil]
    rfl
  · have hnone : rtwGetIeLoop (bytes l ++ r) index (0 + (bytes l).length) (bytes l).length 0 = none :=
      rtwGetIeLoop_none (p := []) hl hnil
    rw [Nat.zero_add] at hnone
    unfold rtwGetIe
    split
    · rfl
    · exact hnone

/-- No item has the property, or the first one that has it. -/
theorem exists_first {α : Type*} (P : α → Prop) (l : List α) :
    (∀ y ∈ l, ¬ P y) ∨ ∃ a x b, l = a ++ x :: b ∧ (∀ y ∈ a, ¬ P y) ∧ P x := by
  classical
  by_cases hex : ∃ y ∈ l, P y
  · obtain ⟨y, hy, hP⟩ := hex
    obtain ⟨x, a, b, ha, hx, hl, -⟩ := List.exists_of_eraseP (p := fun y => decide (P y)) hy (decide_eq_true hP)
    exact .inr ⟨a, x, b, hl, fun z hz => by simpa using ha z hz, of_decide_eq_true hx⟩
  · exact .inl fun y hy hP => hex ⟨y, hy, hP⟩

end

end Rtw
