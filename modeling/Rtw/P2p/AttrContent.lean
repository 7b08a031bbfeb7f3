import Rtw.P2p.AttrRemove

/-!
# The contents of P2P attributes

What a received frame says is spread over P2P elements, which `rtw_get_p2p_ie` finds one behind the other, and
attributes in them, whose contents `rtw_get_p2p_attr_content` copies. `ies` is the memory from the first element on, of
which `iesLen` bytes are the elements.
-/

namespace Rtw
open Tlv Scan

variable {ies : List UInt8} {iesLen pos : Nat} {ie : Nat × Nat}

/-- The first P2P element from `pos` on: where it is, and its length with the header. -/
def p2pIeFrom (ies : List UInt8) (iesLen pos : Nat) : Option (Nat × Nat) :=
  (rtwGetP2pIeLoop (ies.drop pos) (iesLen - pos) (iesLen - pos) 0).map fun r => (pos + r.1, r.2)

/-- `rtw_get_p2p_attr_content` for the element `ie`: where the content is in `ies`, and its length. -/
def rtwGetP2pAttrContent (ies : List UInt8) (ie : Nat × Nat) (targetAttrId : Nat) : AttrRes :=
  match rtwGetP2pAttr (ies.drop ie.1) ie.2 targetAttrId with
  | .found pos attrLen => if attrLen = 0 then .notFound else .found (ie.1 + pos + 3) (attrContentlen attrLen)
  | .notFound => .notFound
  | .endless => .endless

theorem rtwGetP2pIeLoop_lt {inLen fuel cnt : Nat} (h : rtwGetP2pIeLoop ies inLen fuel cnt = some ie) :
    cnt ≤ ie.1 ∧ ie.1 + 5 < inLen ∧ 2 ≤ ie.2 := by
  induction fuel generalizing cnt with
  | zero => cases h
  | succ fuel ih =>
    unfold rtwGetP2pIeLoop at h
    split at h
    · split at h
      · cases h
      · split at h
        · cases h
          exact ⟨Nat.le_refl _, by omega, Nat.le_add_left 2 _⟩
        · obtain ⟨hle, hrest⟩ := ih h
          exact ⟨by omega, hrest⟩
    · cases h

theorem p2pIeFrom_lt (h : p2pIeFrom ies iesLen pos = some ie) : pos ≤ ie.1 ∧ ie.1 + 5 < iesLen ∧ 2 ≤ ie.2 := by
  obtain ⟨r, hr, rfl⟩ := Option.map_eq_some_iff.1 h
  obtain ⟨-, hlt, hlen⟩ := rtwGetP2pIeLoop_lt hr
  exact ⟨Nat.le_add_right pos _, by show pos + r.1 + 5 < iesLen; omega, hlen⟩

/-- The element behind another one is farther on. -/
theorem p2pIeFrom_next {ie' : Nat × Nat} (h : p2pIeFrom ies iesLen (ie.1 + ie.2) = some ie') (hlen : 2 ≤ ie.2) :
    iesLen - ie'.1 < iesLen - ie.1 := by
  obtain ⟨hle, hlt, -⟩ := p2pIeFrom_lt h
  omega

/-- In a list of elements in which none is taken for it before, the first P2P element is found. -/
theorem p2pIeFrom_of_list {l : P2pList} {p : P2pAttrs} (hp : l.p2p? = some p) (hmax : (bytes l.es).length ≤ 768)
    (room : List UInt8) (hno : ∀ a y c, l.pre = a ++ y :: c →
      ¬ Ie.P2pHit y (bytes c ++ (p.element.bytes ++ (bytes l.post ++ room)))) :
    p2pIeFrom (bytes l.es ++ room) (bytes l.es).length 0 =
      some ((bytes l.pre).length, p.element.bytes.length) := by
  have hlen := congrArg List.length (P2pList.bytes_es hp)
  rw [List.length_append, List.length_append] at hlen
  have hsix := p.length_element
  have hcount : l.pre.length * 2 ≤ (bytes l.pre).length := length_le_bytes l.pre
  have hhit : Ie.P2pHit p.element (bytes l.post ++ room) :=
    Ie.P2pHit.of_isP2p (decide_eq_true ⟨rfl, List.prefix_append ..⟩)
  have hes : bytes l.es ++ room = bytes l.pre ++ (p.element.bytes ++ (bytes l.post ++ room)) := by
    rw [P2pList.bytes_es hp, List.append_assoc, List.append_assoc]
  have hfound := rtwGetP2pIeLoop_first (p := []) hno hhit
    (show (bytes l.es).length ≤ _ by rw [List.nil_append, ← hes, List.length_append]; omega) hmax
    (show l.pre.length < (bytes l.es).length by omega)
  rw [List.nil_append, ← hes, List.length_nil, Nat.zero_add, if_pos (by omega)] at hfound
  rw [p2pIeFrom, List.drop_zero, Nat.sub_zero, hfound, Option.map_some, Nat.zero_add, length_ie_bytes p.element,
    Nat.add_comm 2]

/-- The content of the first attribute with the id is found. -/
theorem rtwGetP2pAttrContent_of_attrs {attrs : P2pAttrs} {as bs : List P2pAttr} {y : P2pAttr} {pre rest : List UInt8}
    {attrId : Nat} (hattrs : attrs.1 = as ++ y :: bs) (ha : ∀ w ∈ as, w.tag.toNat ≠ attrId) (hy : y.tag.toNat = attrId) :
    rtwGetP2pAttrContent (pre ++ (attrs.element.bytes ++ rest)) (pre.length, attrs.element.bytes.length) attrId =
      .found (pre.length + (6 + (bytes as).length) + 3) y.data.length := by
  have hylen : y.bytes.length = 3 + y.data.length := length_attr_bytes y
  have hcontent : attrContentlen y.bytes.length = y.data.length := by
    unfold attrContentlen
    rw [if_neg (by omega), if_neg (by omega)]
    omega
  unfold rtwGetP2pAttrContent
  dsimp only
  rw [List.drop_left, rtwGetP2pAttr_found hattrs ha hy]
  dsimp only
  rw [if_neg (by omega), hcontent]

end Rtw
