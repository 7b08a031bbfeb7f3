import Rtw.Mlme.IeEdit
import Rtw.P2p.MergeIes
import Rtw.Scan.CollectBss

/-!
# Removing attributes from the P2P element

`rtw_WLAN_BSSID_EX_remove_p2p_attr` cuts the attributes with an id out of the first P2P element, one after the other,
and moves the elements behind it up. `removeP2pAttrOk_iff`: it goes wrong only when `rtw_get_p2p_ie` takes a vendor
element for it that is too short for the OUI.
-/

namespace Rtw
open Tlv Scan

/-! ### The code -/

/-- The loop of `rtw_p2p_attr_remove` for the element at `ie`. `none`: `rtw_get_p2p_attr` does not return. Each
`_rtw_memcpy` goes upwards. -/
def p2pAttrRemoveLoop (ie attrId : Nat) : Nat → List UInt8 → Nat → Option (List UInt8 × Nat)
  | 0, _, _ => none
  | fuel + 1, mem, ielen =>
    match rtwGetP2pAttr (mem.drop ie) ielen attrId with
    | .endless => none
    | .notFound => some (mem, ielen)
    | .found pos targetAttrLen =>
      if targetAttrLen = 0 then some (mem, ielen)
      else
        let targetAttr := ie + pos
        let nextAttr := targetAttr + targetAttrLen
        let remainLen := uintSub ielen (nextAttr - ie)
        let mem := writeAt mem targetAttr (.replicate targetAttrLen 0)
        let mem := writeAt mem targetAttr ((mem.drop nextAttr).take remainLen)
        let mem := writeAt mem (targetAttr + remainLen) (.replicate targetAttrLen 0)
        let mem := writeAt mem (ie + 1) [UInt8.ofNat (byteAt mem (ie + 1) + 256 - targetAttrLen % 256)]
        p2pAttrRemoveLoop ie attrId fuel mem (uintSub ielen targetAttrLen)

/-- `rtw_p2p_attr_remove` -/
def rtwP2pAttrRemove (mem : List UInt8) (ie ielen attrId : Nat) : Option (List UInt8 × Nat) :=
  p2pAttrRemoveLoop ie attrId (ielen + 1) mem ielen

/-- `rtw_WLAN_BSSID_EX_remove_p2p_attr`; the fixed fields are the first 12 bytes. -/
def rtwRemoveP2pAttr (attrId : Nat) (bss : BcnIes) : Option BcnIes :=
  match rtwGetP2pIeLoop (bss.ies.drop 12) (bss.ieLength - 12) (bss.ieLength - 12) 0 with
  | none => some bss
  | some (pos, p2pIelenOri) =>
    let p2pIe := 12 + pos
    (rtwP2pAttrRemove bss.ies p2pIe p2pIelenOri attrId).map fun r =>
      if r.2 ≠ p2pIelenOri then
        let nextIeOri := p2pIe + p2pIelenOri
        let nextIe := p2pIe + r.2
        let remainLen := uintSub bss.ieLength nextIeOri
        let ies := writeAt r.1 nextIe ((r.1.drop nextIeOri).take remainLen)
        { ies := writeAt ies (nextIe + remainLen) (.replicate (p2pIelenOri - r.2) 0)
          ieLength := uintSub bss.ieLength (p2pIelenOri - r.2) }
      else { bss with ies := r.1 }

/-! ### Attributes -/

/-- Id and length of an attribute, the low octet of the length first. -/
def p2pAttrFormat : Format UInt8 UInt8 where
  hdr := 3
  max := 65536
  header id len := [id, UInt8.ofNat len, UInt8.ofNat (len / 256)]
  length_header _ _ := rfl
  header_inj := by
    intro t n t' n' hn hn' h
    obtain ⟨rfl, htail⟩ := List.cons.inj h
    obtain ⟨hlow, hhigh⟩ := List.cons.inj htail
    have hlow := congrArg UInt8.toNat hlow
    have hhigh := congrArg UInt8.toNat (List.cons.inj hhigh).1
    rw [UInt8.toNat_ofNat', UInt8.toNat_ofNat'] at hlow hhigh
    exact ⟨rfl, by omega⟩
  hdr_pos := Nat.succ_pos 2

abbrev P2pAttr := Item p2pAttrFormat

/-- The attributes of a P2P element. -/
abbrev P2pAttrs := {attrs : List P2pAttr // (p2pOui ++ bytes attrs).length < 256}

namespace P2pAttrs

def element (p : P2pAttrs) : Ie := ⟨0xdd, p2pOui ++ bytes p.1, p.2⟩

/-- The attributes without those that have the id. -/
def without (attrId : Nat) (p : P2pAttrs) : P2pAttrs :=
  ⟨p.1.filter fun y => y.tag.toNat ≠ attrId, by
    refine Nat.lt_of_le_of_lt ?_ p.2
    rw [List.length_append, List.length_append]
    exact Nat.add_le_add_left (length_bytes_le_of_sublist List.filter_sublist) _⟩

end P2pAttrs

/-- Elements with a first P2P element, or without any. -/
structure P2pList where
  pre : List Ie
  p2p? : Option P2pAttrs
  post : List Ie
  none_pre : ∀ x ∈ pre, x.isP2p = false
  none_post : p2p? = none → post = []

namespace P2pList

def es (l : P2pList) : List Ie := l.pre ++ ((l.p2p?.map P2pAttrs.element).toList ++ l.post)

def without (attrId : Nat) (l : P2pList) : P2pList where
  pre := l.pre
  p2p? := l.p2p?.map (P2pAttrs.without attrId)
  post := l.post
  none_pre := l.none_pre
  none_post h := l.none_post (Option.map_eq_none_iff.1 h)

/-- A vendor element before the P2P element is shorter than the OUI, and what is behind it completes the OUI. -/
def Lookalike (l : P2pList) : Prop :=
  ∃ (a b : List Ie) (y : Ie), l.pre = a ++ y :: b ∧ y.id = 221 ∧ y.data.length < 4 ∧
    p2pOui <+: y.data ++ bytes (b ++ ((l.p2p?.map P2pAttrs.element).toList ++ l.post))

end P2pList

/-- A BSS with such elements behind its fixed fields, in an array of `MAX_IE_SZ` bytes. -/
structure P2pBss where
  fixed : List UInt8
  list : P2pList
  room : List UInt8
  length_fixed : fixed.length = 12
  length_ies : (fixed ++ (bytes list.es ++ room)).length = 768

def P2pBss.bss (b : P2pBss) : BcnIes where
  ies := b.fixed ++ (bytes b.list.es ++ b.room)
  ieLength := (b.fixed ++ bytes b.list.es).length

/-- The function returns, and leaves the same elements without the attributes in the P2P element. -/
def RemoveP2pAttrOk (attrId : Nat) (b : P2pBss) : Prop :=
  ∃ bss, rtwRemoveP2pAttr attrId b.bss = some bss ∧
    bss.ieLength = (b.fixed ++ bytes (b.list.without attrId).es).length ∧
    bss.ies.take bss.ieLength = b.fixed ++ bytes (b.list.without attrId).es

/-! ### The searches -/

/-- The comparison of `rtw_get_p2p_ie` succeeds at the element, with `r` behind it. -/
def Ie.P2pHit (x : Ie) (r : List UInt8) : Prop := x.id = 221 ∧ p2pOui <+: x.data ++ r

instance (x : Ie) (r : List UInt8) : Decidable (Ie.P2pHit x r) := inferInstanceAs (Decidable (_ ∧ _))

section
variable {p q r z mem : List UInt8} {x : Ie} {l a b pre post : List Ie} {fuel inLen ielen attrId : Nat}

theorem rtwGetP2pIeLoop_step (h4 : 4 ≤ (x.data ++ r).length) (hlt : p.length + 5 < inLen)
    (hmax : p.length + 5 < 768) :
    rtwGetP2pIeLoop (p ++ (x.bytes ++ r)) inLen (fuel + 1) p.length =
      if Ie.P2pHit x r then some (p.length, x.data.length + 2)
      else rtwGetP2pIeLoop (p ++ x.bytes ++ r) inLen fuel (p ++ x.bytes).length := by
  have hcmp : (List.range 4).map (fun i => byteAt (p ++ (x.bytes ++ r)) (p.length + 2 + i)) =
      [0x50, 0x6F, 0x9A, 0x09] ↔ p2pOui <+: x.data ++ r := by
    have hdrop := memcmpAt_drop (p := p) (t := []) (s := x.bytes ++ r) (o := p2pOui) (by
      rw [List.length_append] at h4
      rw [List.length_append, length_ie_bytes]
      show 2 + 4 ≤ _
      omega)
    rw [List.append_nil, drop_ie, memcmpAt, decide_eq_true_iff] at hdrop
    exact hdrop
  have hpos := length_behind_ie p x
  rw [rtwGetP2pIeLoop, if_pos (by omega), if_neg (by omega), byteAt_at_ie.1, byteAt_at_ie.2, hpos, List.append_assoc]
  exact if_congr (and_congr_right fun _ => hcmp) rfl rfl

theorem rtwGetP2pIeLoop_end (h : inLen ≤ p.length + 5) : rtwGetP2pIeLoop mem inLen fuel p.length = none := by
  cases fuel with
  | zero => rfl
  | succ fuel => exact if_neg (by omega)

/-- The first hit is found, if the search comes to it. -/
theorem rtwGetP2pIeLoop_first
    (hl : ∀ a y b, l = a ++ y :: b → ¬ Ie.P2pHit y (bytes b ++ (x.bytes ++ r))) (hx : Ie.P2pHit x r)
    (hmem : inLen ≤ (p ++ (bytes l ++ (x.bytes ++ r))).length)
    (hmax : inLen ≤ 768) (hfuel : l.length < fuel) :
    rtwGetP2pIeLoop (p ++ (bytes l ++ (x.bytes ++ r))) inLen fuel p.length =
      if p.length + (bytes l).length + 5 < inLen then some (p.length + (bytes l).length, x.data.length + 2)
      else none := by
  obtain ⟨fuel, rfl⟩ := Nat.exists_eq_succ_of_ne_zero (Nat.ne_zero_of_lt hfuel)
  induction l generalizing p fuel with
  | nil =>
    rw [bytes_nil, List.nil_append] at hmem ⊢
    rw [List.length_append, List.length_append, length_ie_bytes] at hmem
    by_cases hlt : p.length + 5 < inLen
    · rw [rtwGetP2pIeLoop_step (by rw [List.length_append]; omega) hlt (by omega), if_pos hx]
      exact (if_pos hlt).symm
    · rw [rtwGetP2pIeLoop_end (by omega)]
      exact (if_neg hlt).symm
  | cons y l ih =>
    have hlen := length_add_bytes_cons p y l
    rw [hlen]
    rw [bytes_cons, List.append_assoc] at hmem ⊢
    have hsize : 4 + p.length + 2 ≤ inLen → 4 ≤ (y.data ++ (bytes l ++ (x.bytes ++ r))).length := by
      rw [List.length_append, List.length_append, length_ie_bytes] at hmem
      rw [List.length_append]
      omega
    by_cases hlt : p.length + 5 < inLen
    · rw [List.length_cons] at hfuel
      obtain ⟨fuel, rfl⟩ := Nat.exists_eq_succ_of_ne_zero (show fuel ≠ 0 by omega)
      rw [rtwGetP2pIeLoop_step (hsize (by omega)) hlt (by omega), if_neg (hl [] y l rfl)]
      rw [← List.append_assoc] at hmem
      exact ih (fun a z b h => hl (y :: a) z b (congrArg (y :: ·) h)) hmem fuel (Nat.lt_of_succ_lt_succ hfuel)
    · rw [rtwGetP2pIeLoop_end (by omega), if_neg (by rw [List.length_append, length_ie_bytes]; omega)]

theorem rtwGetP2pIeLoop_none (hl : ∀ a y b, l = a ++ y :: b → ¬ Ie.P2pHit y (bytes b ++ r))
    (hmem : inLen ≤ p.length + (bytes l).length) (hmax : inLen ≤ 768) :
    rtwGetP2pIeLoop (p ++ (bytes l ++ r)) inLen fuel p.length = none := by
  induction l generalizing p fuel with
  | nil =>
    rw [bytes_nil, List.length_nil] at hmem
    exact rtwGetP2pIeLoop_end (by omega)
  | cons y l ih =>
    by_cases hlt : p.length + 5 < inLen
    · cases fuel with
      | zero => rfl
      | succ fuel =>
        rw [bytes_cons, List.length_append, length_ie_bytes] at hmem
        have hsize : 4 ≤ (y.data ++ (bytes l ++ r)).length := by
          rw [List.length_append, List.length_append]
          omega
        rw [bytes_cons, List.append_assoc, rtwGetP2pIeLoop_step hsize hlt (by omega), if_neg (hl [] y l rfl)]
        refine ih (fun a z b h => hl (y :: a) z b (congrArg (y :: ·) h)) ?_
        rw [List.length_append, length_ie_bytes]
        omega
    · exact rtwGetP2pIeLoop_end (by omega)

/-! ### Attributes in memory -/

section
variable {as bs : List P2pAttr} {y : P2pAttr}

theorem byteAt_at_attr (hlt : y.data.length < 65536) :
    byteAt (p ++ (y.bytes ++ r)) p.length = y.tag.toNat ∧
      byteAt (p ++ (y.bytes ++ r)) (p.length + 1) + 256 * byteAt (p ++ (y.bytes ++ r)) (p.length + 2) =
        y.data.length := by
  have hlow : byteAt (y.bytes ++ r) 1 = (UInt8.ofNat y.data.length).toNat := rfl
  have hhigh : byteAt (y.bytes ++ r) 2 = (UInt8.ofNat (y.data.length / 256)).toNat := rfl
  refine ⟨byteAt_length p _, ?_⟩
  rw [byteAt_append_right, byteAt_append_right, hlow, hhigh, UInt8.toNat_ofNat', UInt8.toNat_ofNat']
  omega

theorem length_attr_bytes (y : P2pAttr) : y.bytes.length = 3 + y.data.length := y.length_bytes

theorem rtwGetP2pAttrLoop_step (hsize : y.bytes.length < 65536) (hlt : p.length < ielen) :
    rtwGetP2pAttrLoop (p ++ (y.bytes ++ r)) ielen attrId (fuel + 1) p.length =
      if y.tag.toNat = attrId then .found p.length y.bytes.length
      else rtwGetP2pAttrLoop (p ++ y.bytes ++ r) ielen attrId fuel (p ++ y.bytes).length := by
  rw [length_attr_bytes] at hsize
  obtain ⟨hid, hlen⟩ := byteAt_at_attr (p := p) (r := r) (y := y) (by omega)
  have hmod : (y.data.length + 3) % 2 ^ 16 = y.bytes.length := by
    rw [length_attr_bytes]
    omega
  rw [rtwGetP2pAttrLoop, if_pos hlt]
  dsimp only
  rw [hid, hlen, hmod, if_neg (show ¬ y.bytes.length = 0 by rw [length_attr_bytes]; omega), List.append_assoc,
    List.length_append]

theorem rtwGetP2pAttrLoop_found (ha : ∀ y ∈ as, y.tag.toNat ≠ attrId) (hy : y.tag.toNat = attrId)
    (hsize : (bytes (as ++ [y])).length < 65536) (hlt : p.length + (bytes as).length < ielen)
    (hfuel : as.length < fuel) :
    rtwGetP2pAttrLoop (p ++ (bytes as ++ (y.bytes ++ r))) ielen attrId fuel p.length =
      .found (p.length + (bytes as).length) y.bytes.length := by
  obtain ⟨fuel, rfl⟩ := Nat.exists_eq_succ_of_ne_zero (Nat.ne_zero_of_lt hfuel)
  induction as generalizing p fuel with
  | nil =>
    rw [bytes_nil, List.nil_append, rtwGetP2pAttrLoop_step ?_ ?_, if_pos hy]
    · rfl
    · rwa [List.nil_append, bytes_cons, bytes_nil, List.append_nil] at hsize
    · exact hlt
  | cons w as ih =>
    have hlen : p.length + (bytes (w :: as)).length = (p ++ w.bytes).length + (bytes as).length := by
      rw [bytes_cons, List.length_append, List.length_append, Nat.add_assoc]
    rw [hlen] at hlt ⊢
    rw [List.cons_append, bytes_cons, List.length_append] at hsize
    rw [List.length_append] at hlt
    rw [List.length_cons] at hfuel
    obtain ⟨fuel, rfl⟩ := Nat.exists_eq_succ_of_ne_zero (show fuel ≠ 0 by omega)
    rw [bytes_cons, List.append_assoc, rtwGetP2pAttrLoop_step (by omega) (by omega), if_neg (ha w List.mem_cons_self)]
    refine ih (fun z hz => ha z (List.mem_cons_of_mem w hz)) (by omega) ?_ fuel (Nat.lt_of_succ_lt_succ hfuel)
    rw [List.length_append]
    omega

theorem rtwGetP2pAttrLoop_none (ha : ∀ y ∈ as, y.tag.toNat ≠ attrId) (hsize : (bytes as).length < 65536) :
    rtwGetP2pAttrLoop (p ++ (bytes as ++ r)) (p.length + (bytes as).length) attrId fuel p.length = .notFound := by
  induction as generalizing p fuel with
  | nil =>
    cases fuel with
    | zero => rfl
    | succ fuel => exact if_neg (Nat.lt_irrefl _)
  | cons w as ih =>
    have hlen : p.length + (bytes (w :: as)).length = (p ++ w.bytes).length + (bytes as).length := by
      rw [bytes_cons, List.length_append, List.length_append, Nat.add_assoc]
    cases fuel with
    | zero => rfl
    | succ fuel =>
      rw [bytes_cons, List.length_append] at hsize
      have hpos : 0 < w.bytes.length := List.length_pos_of_ne_nil w.bytes_ne_nil
      rw [hlen, bytes_cons, List.append_assoc, rtwGetP2pAttrLoop_step (by omega) ?_, if_neg (ha w List.mem_cons_self)]
      · exact ih (fun z hz => ha z (List.mem_cons_of_mem w hz)) (by omega)
      · rw [List.length_append]
        omega

/-! ### The removal -/

/-- Id, length and OUI of the element. -/
def P2pAttrs.hdr (p : P2pAttrs) : List UInt8 := [0xdd, UInt8.ofNat (4 + (bytes p.1).length)] ++ p2pOui

theorem P2pAttrs.element_bytes (attrs : P2pAttrs) : attrs.element.bytes = attrs.hdr ++ bytes attrs.1 := by
  have hlen : attrs.element.data.length = 4 + (bytes attrs.1).length := List.length_append
  rw [ie_bytes, hlen]
  rfl

theorem P2pAttrs.length_element (attrs : P2pAttrs) : attrs.element.bytes.length = 6 + (bytes attrs.1).length := by
  rw [attrs.element_bytes, List.length_append]
  rfl

theorem P2pAttrs.length_lt (attrs : P2pAttrs) : 4 + (bytes attrs.1).length < 256 := by
  have hlt := attrs.2
  rwa [List.length_append] at hlt

theorem P2pAttrs.without_eq {p : P2pAttrs} (h : ∀ y ∈ p.1, y.tag.toNat ≠ attrId) : p.without attrId = p :=
  Subtype.ext (List.filter_eq_self.2 fun w hw => decide_eq_true (h w hw))

theorem P2pAttrs.bytes_split {attrs : P2pAttrs} (hattrs : attrs.1 = as ++ y :: bs) :
    attrs.element.bytes ++ r = attrs.hdr ++ (bytes as ++ (y.bytes ++ (bytes bs ++ r))) ∧
      (bytes attrs.1).length = (bytes as).length + (y.bytes.length + (bytes bs).length) := by
  rw [attrs.element_bytes, hattrs, bytes_append, bytes_cons]
  simp only [List.append_assoc, List.length_append]
  exact ⟨trivial, trivial⟩

theorem rtwGetP2pAttr_found {attrs : P2pAttrs} (hattrs : attrs.1 = as ++ y :: bs)
    (ha : ∀ w ∈ as, w.tag.toNat ≠ attrId) (hy : y.tag.toNat = attrId) :
    rtwGetP2pAttr (attrs.element.bytes ++ r) attrs.element.bytes.length attrId =
      .found (6 + (bytes as).length) y.bytes.length := by
  have hlt := attrs.length_lt
  obtain ⟨hbytes, hsplit⟩ := P2pAttrs.bytes_split (r := r) hattrs
  have hylen : 3 ≤ y.bytes.length := length_attr_bytes y ▸ Nat.le_add_right 3 _
  have hcount : as.length * 3 ≤ (bytes as).length := length_le_bytes as
  rw [rtwGetP2pAttr, hbytes, attrs.length_element]
  refine rtwGetP2pAttrLoop_found (p := attrs.hdr) ha hy ?_ ?_ (by omega)
  · rw [bytes_append, bytes_cons, bytes_nil, List.append_nil, List.length_append]
    omega
  · show 6 + _ < _
    omega

theorem rtwGetP2pAttr_none {attrs : P2pAttrs} (h : ∀ w ∈ attrs.1, w.tag.toNat ≠ attrId) :
    rtwGetP2pAttr (attrs.element.bytes ++ r) attrs.element.bytes.length attrId = .notFound := by
  have hlt := attrs.length_lt
  rw [rtwGetP2pAttr, attrs.length_element, attrs.element_bytes, List.append_assoc]
  exact rtwGetP2pAttrLoop_none (p := attrs.hdr) h (by omega)

theorem writeAt_lenOctet {n k : Nat} (hk : k ≤ n) (hn : n < 256) :
    writeAt (p ++ ([0xdd, UInt8.ofNat n] ++ r)) (p.length + 1)
        [UInt8.ofNat (byteAt (p ++ ([0xdd, UInt8.ofNat n] ++ r)) (p.length + 1) + 256 - k % 256)] =
      p ++ ([0xdd, UInt8.ofNat (n - k)] ++ r) := by
  have hread : byteAt (p ++ ([0xdd, UInt8.ofNat n] ++ r)) (p.length + 1) = n := by
    rw [byteAt_append_right]
    exact UInt8.toNat_ofNat'.trans (Nat.mod_eq_of_lt hn)
  have hoctet : UInt8.ofNat (n + 256 - k % 256) = UInt8.ofNat (n - k) := by
    rw [← UInt8.toNat_inj, UInt8.toNat_ofNat', UInt8.toNat_ofNat']
    omega
  have hset : ∀ u v : UInt8, writeAt (p ++ [0xdd] ++ ([u] ++ r)) (p ++ [0xdd]).length [v] =
      p ++ [0xdd] ++ ([v] ++ r) := fun u v => writeAt_part rfl
  have hpos : p.length + 1 = (p ++ [0xdd]).length := by
    rw [List.length_append, List.length_singleton]
  have happ : ∀ u : UInt8, p ++ ([0xdd, u] ++ r) = p ++ [0xdd] ++ ([u] ++ r) := fun u => by
    rw [List.append_assoc]
    rfl
  rw [hread, hoctet, happ, happ, hpos]
  exact hset _ _

theorem p2pAttrRemoveLoop_step {attrs attrs' : P2pAttrs} (hattrs : attrs.1 = as ++ y :: bs)
    (hattrs' : attrs'.1 = as ++ bs)
    (ha : ∀ w ∈ as, w.tag.toNat ≠ attrId) (hy : y.tag.toNat = attrId) :
    p2pAttrRemoveLoop p.length attrId (fuel + 1) (p ++ (attrs.element.bytes ++ r)) attrs.element.bytes.length =
      p2pAttrRemoveLoop p.length attrId fuel (p ++ (attrs'.element.bytes ++ (.replicate y.bytes.length 0 ++ r)))
        attrs'.element.bytes.length := by
  have hlt := attrs.length_lt
  have hylen : 3 ≤ y.bytes.length := length_attr_bytes y ▸ Nat.le_add_right 3 _
  obtain ⟨hbytes, hsplit⟩ := P2pAttrs.bytes_split (r := r) hattrs
  have hsplit' : (bytes attrs'.1).length = (bytes as).length + (bytes bs).length := by
    rw [hattrs', bytes_append, List.length_append]
  have hmem : p ++ (attrs.element.bytes ++ r) = p ++ (attrs.hdr ++ bytes as) ++ (y.bytes ++ (bytes bs ++ r)) := by
    rw [hbytes]
    simp only [List.append_assoc]
  have htarget : p.length + (6 + (bytes as).length) = (p ++ (attrs.hdr ++ bytes as)).length := by
    rw [List.length_append, List.length_append]
    rfl
  have hremain : uintSub attrs.element.bytes.length (p.length + (6 + (bytes as).length) + y.bytes.length - p.length) =
      (bytes bs).length := by
    rw [attrs.length_element, uintSub_of_le (by omega) (by omega)]
    omega
  have hclear : writeAt (p ++ (attrs.hdr ++ bytes as) ++ (y.bytes ++ (bytes bs ++ r)))
      (p ++ (attrs.hdr ++ bytes as)).length (.replicate y.bytes.length 0) =
      p ++ (attrs.hdr ++ bytes as) ++ (.replicate y.bytes.length 0 ++ (bytes bs ++ r)) :=
    writeAt_part List.length_replicate
  have hmove := writeAt_moveUp (p ++ (attrs.hdr ++ bytes as)) (.replicate y.bytes.length 0) (bytes bs) r
  rw [List.length_replicate] at hmove
  have hhdr : p ++ (attrs.hdr ++ bytes as) ++ (bytes bs ++ (.replicate y.bytes.length 0 ++ r)) =
      p ++ ([0xdd, UInt8.ofNat (4 + (bytes attrs.1).length)] ++
        (p2pOui ++ (bytes as ++ (bytes bs ++ (.replicate y.bytes.length 0 ++ r))))) := by
    rw [P2pAttrs.hdr]
    simp only [List.append_assoc]
  have hlen : 4 + (bytes attrs.1).length - y.bytes.length = 4 + (bytes attrs'.1).length := by omega
  have hielen : uintSub attrs.element.bytes.length y.bytes.length = attrs'.element.bytes.length := by
    rw [attrs.length_element, attrs'.length_element, uintSub_of_le (by omega) (by omega)]
    omega
  rw [p2pAttrRemoveLoop, List.drop_left, rtwGetP2pAttr_found hattrs ha hy]
  dsimp only
  rw [if_neg (show ¬ y.bytes.length = 0 by omega), hremain, htarget, hmem, hclear, hmove, hhdr,
    writeAt_lenOctet (by omega) hlt, hlen, hielen, attrs'.element_bytes, P2pAttrs.hdr, hattrs', bytes_append]
  simp only [List.append_assoc]

/-- The loop takes all attributes with the id out, and leaves as many zeroes behind the element. -/
theorem p2pAttrRemoveLoop_spec (attrs : P2pAttrs) (hfuel : attrs.1.length < fuel) :
    ∃ n, p2pAttrRemoveLoop p.length attrId fuel (p ++ (attrs.element.bytes ++ r)) attrs.element.bytes.length =
        some (p ++ ((attrs.without attrId).element.bytes ++ (.replicate n 0 ++ r)),
          (attrs.without attrId).element.bytes.length) ∧
      (attrs.without attrId).element.bytes.length + n = attrs.element.bytes.length := by
  induction fuel generalizing attrs r with
  | zero => exact absurd hfuel (Nat.not_lt_zero _)
  | succ fuel ih =>
    obtain hnone | ⟨as, y, bs, hattrs, ha, hy⟩ := exists_first (fun y : P2pAttr => y.tag.toNat = attrId) attrs.1
    · have hsame : attrs.without attrId = attrs := P2pAttrs.without_eq hnone
      refine ⟨0, ?_, by rw [hsame, Nat.add_zero]⟩
      rw [hsame, p2pAttrRemoveLoop, List.drop_left, rtwGetP2pAttr_none hnone]
      rfl
    · have hshort : (p2pOui ++ bytes (as ++ bs)).length < 256 := by
        have hlt := attrs.length_lt
        have hsplit := (P2pAttrs.bytes_split (r := []) hattrs).2
        rw [bytes_append, List.length_append, List.length_append]
        show 4 + _ < 256
        omega
      have hwithout : attrs.without attrId = P2pAttrs.without attrId ⟨as ++ bs, hshort⟩ := by
        refine Subtype.ext ?_
        simp only [P2pAttrs.without, hattrs, List.filter_append, List.filter_cons, hy, ne_eq, not_true, decide_false,
          Bool.false_eq_true, if_false]
      have hcount : (as ++ bs).length < fuel := by
        rw [hattrs, List.length_append, List.length_cons] at hfuel
        rw [List.length_append]
        omega
      obtain ⟨n, hloop, hn⟩ := ih (r := .replicate y.bytes.length 0 ++ r) ⟨as ++ bs, hshort⟩ hcount
      refine ⟨n + y.bytes.length, ?_, ?_⟩
      · have hshorter : (⟨as ++ bs, hshort⟩ : P2pAttrs).1 = as ++ bs := rfl
        rw [p2pAttrRemoveLoop_step hattrs hshorter ha hy, hloop, hwithout, List.replicate_add, List.append_assoc]
      · have hsplit := (P2pAttrs.bytes_split (r := []) hattrs).2
        have hlen : (bytes (as ++ bs)).length = (bytes as).length + (bytes bs).length := by
          rw [bytes_append, List.length_append]
        have hshorter : (P2pAttrs.element ⟨as ++ bs, hshort⟩).bytes.length = 6 + (bytes (as ++ bs)).length :=
          P2pAttrs.length_element _
        rw [hwithout, attrs.length_element]
        omega

end

/-! ### The whole -/

theorem Ie.P2pHit.of_isP2p (h : x.isP2p = true) : Ie.P2pHit x r := by
  obtain ⟨htag, houi⟩ := of_decide_eq_true h
  exact ⟨congrArg UInt8.toNat htag, houi.trans (List.prefix_append ..)⟩

theorem Ie.P2pHit.short (h : Ie.P2pHit x r) (hnot : x.isP2p = false) : x.data.length < 4 := by
  by_contra hlong
  have htag : x.tag = 0xdd := UInt8.toNat_inj.1 h.1
  have houi : p2pOui <+: x.data := List.prefix_of_prefix_length_le h.2 (List.prefix_append ..) (Nat.le_of_not_lt hlong)
  exact absurd (decide_eq_true ⟨htag, houi⟩) (Bool.eq_false_iff.1 hnot)

end

section
variable {attrId : Nat} {b : P2pBss}

/-- What is behind the elements before the P2P element. -/
def P2pBss.behind (b : P2pBss) : List UInt8 :=
  bytes ((b.list.p2p?.map P2pAttrs.element).toList ++ b.list.post) ++ b.room

theorem P2pBss.ies_eq (b : P2pBss) : b.bss.ies.drop 12 = bytes b.list.pre ++ b.behind := by
  have hdrop : b.bss.ies.drop b.fixed.length = bytes b.list.es ++ b.room := List.drop_left
  rw [b.length_fixed] at hdrop
  rw [hdrop, P2pBss.behind, P2pList.es, bytes_append, List.append_assoc]

theorem P2pBss.ieLength_eq (b : P2pBss) : b.bss.ieLength - 12 = (bytes b.list.es).length := by
  show (b.fixed ++ bytes b.list.es).length - 12 = _
  rw [List.length_append, b.length_fixed, Nat.add_sub_cancel_left]

theorem P2pBss.length_le (b : P2pBss) :
    (bytes b.list.es).length ≤ 756 ∧ b.bss.ieLength = 12 + (bytes b.list.es).length ∧
    (bytes b.list.es).length ≤ (bytes b.list.pre ++ b.behind).length := by
  have hlen := b.length_ies
  have hfixed := b.length_fixed
  rw [List.length_append, List.length_append] at hlen
  refine ⟨by omega, ?_, ?_⟩
  · show (b.fixed ++ bytes b.list.es).length = _
    rw [List.length_append, hfixed]
  · rw [P2pBss.behind, ← List.append_assoc, ← bytes_append]
    show (bytes b.list.es).length ≤ (bytes b.list.es ++ b.room).length
    rw [List.length_append]
    exact Nat.le_add_right ..

theorem P2pBss.take_ies (b : P2pBss) : b.bss.ies.take b.bss.ieLength = b.fixed ++ bytes b.list.es := by
  show (b.fixed ++ (bytes b.list.es ++ b.room)).take (b.fixed ++ bytes b.list.es).length = _
  rw [← List.append_assoc, List.take_left]

theorem P2pBss.append_behind (b : P2pBss) (data : List UInt8) (c : List Ie) : data ++ (bytes c ++ b.behind) =
    data ++ bytes (c ++ ((b.list.p2p?.map P2pAttrs.element).toList ++ b.list.post)) ++ b.room := by
  rw [P2pBss.behind, bytes_append (l := c)]
  simp only [List.append_assoc]

/-- An element that is too short for the OUI has no attributes. -/
theorem rtwRemoveP2pAttr_short {pos n : Nat} (hn : n < 6)
    (h : rtwGetP2pIeLoop (b.bss.ies.drop 12) (b.bss.ieLength - 12) (b.bss.ieLength - 12) 0 = some (pos, n)) :
    rtwRemoveP2pAttr attrId b.bss = some b.bss := by
  have hattr : rtwGetP2pAttr (b.bss.ies.drop (12 + pos)) n attrId = .notFound := by
    unfold rtwGetP2pAttr
    cases n with
    | zero => rfl
    | succ n => exact if_neg (by omega)
  unfold rtwRemoveP2pAttr
  rw [h]
  dsimp only
  rw [rtwP2pAttrRemove, p2pAttrRemoveLoop, hattr, Option.map_some]
  exact congrArg some (if_neg (fun hne => hne rfl))

/-- A short vendor element that is taken for the P2P element keeps the function from it. -/
theorem rtwRemoveP2pAttr_lookalike {a c : List Ie} {x : Ie} (hpre : b.list.pre = a ++ x :: c)
    (hx : Ie.P2pHit x (bytes c ++ b.behind))
    (hfirst : ∀ a' y b', a = a' ++ y :: b' → ¬ Ie.P2pHit y (bytes (b' ++ x :: c) ++ b.behind)) :
    rtwRemoveP2pAttr attrId b.bss = some b.bss := by
  obtain ⟨hmax, -, hmem⟩ := b.length_le
  have hshort := hx.short (b.list.none_pre x (hpre ▸ List.mem_append_right a List.mem_cons_self))
  have hcount : a.length * 2 ≤ (bytes a).length := length_le_bytes a
  have hes : (bytes a).length + 2 ≤ (bytes b.list.es).length := by
    rw [P2pList.es, hpre, bytes_append, bytes_append, bytes_cons, List.length_append, List.length_append,
      List.length_append, length_ie_bytes]
    omega
  have hbytes : bytes b.list.pre ++ b.behind = bytes a ++ (x.bytes ++ (bytes c ++ b.behind)) := by
    rw [hpre, bytes_append, bytes_cons]
    simp only [List.append_assoc]
  rw [hbytes] at hmem
  have hsearch := rtwGetP2pIeLoop_first (p := []) (l := a) (x := x) (r := bytes c ++ b.behind) ?_ hx hmem
    (show (bytes b.list.es).length ≤ 768 by omega) (show a.length < (bytes b.list.es).length by omega)
  · rw [List.nil_append, ← hbytes, ← b.ies_eq, ← b.ieLength_eq, List.length_nil, Nat.zero_add] at hsearch
    by_cases hlt : (bytes a).length + 5 < b.bss.ieLength - 12
    · rw [if_pos hlt] at hsearch
      exact rtwRemoveP2pAttr_short (by omega) hsearch
    · rw [if_neg hlt] at hsearch
      unfold rtwRemoveP2pAttr
      rw [hsearch]
  · intro a' y b' h
    have hno := hfirst a' y b' h
    rwa [bytes_append, bytes_cons, List.append_assoc, List.append_assoc] at hno

/-- Without such an element, and without a P2P element, nothing is found. -/
theorem rtwRemoveP2pAttr_none (hp2p : b.list.p2p? = none)
    (hno : ∀ a y c, b.list.pre = a ++ y :: c → ¬ Ie.P2pHit y (bytes c ++ b.behind)) :
    rtwRemoveP2pAttr attrId b.bss = some b.bss := by
  obtain ⟨hmax, -, -⟩ := b.length_le
  have hes : b.list.es = b.list.pre := by
    rw [P2pList.es, hp2p, b.list.none_post hp2p]
    exact List.append_nil _
  have hsearch : rtwGetP2pIeLoop ([] ++ (bytes b.list.pre ++ b.behind)) (bytes b.list.es).length
      (bytes b.list.es).length 0 = none :=
    rtwGetP2pIeLoop_none (p := []) hno (by rw [hes, List.length_nil]; omega) (by omega)
  rw [List.nil_append, ← b.ies_eq, ← b.ieLength_eq] at hsearch
  unfold rtwRemoveP2pAttr
  rw [hsearch]

theorem P2pList.bytes_es {l : P2pList} {p : P2pAttrs} (h : l.p2p? = some p) :
    bytes l.es = bytes l.pre ++ (p.element.bytes ++ bytes l.post) := by
  rw [P2pList.es, h, bytes_append, bytes_append, Option.map_some, Option.toList_some, bytes_cons, bytes_nil,
    List.append_nil]

theorem rtwGetP2pIeLoop_element {p : P2pAttrs} (hp2p : b.list.p2p? = some p)
    (hno : ∀ a y c, b.list.pre = a ++ y :: c → ¬ Ie.P2pHit y (bytes c ++ b.behind)) :
    rtwGetP2pIeLoop (b.bss.ies.drop 12) (b.bss.ieLength - 12) (b.bss.ieLength - 12) 0 =
      some ((bytes b.list.pre).length, p.element.bytes.length) := by
  obtain ⟨hmax, -, hmem⟩ := b.length_le
  have hbehind : b.behind = p.element.bytes ++ (bytes b.list.post ++ b.room) := by
    rw [P2pBss.behind, hp2p, bytes_append, Option.map_some, Option.toList_some, bytes_cons, bytes_nil, List.append_nil,
      List.append_assoc]
  have hlen := congrArg List.length (P2pList.bytes_es hp2p)
  rw [List.length_append, List.length_append] at hlen
  have hsix := p.length_element
  have hcount : b.list.pre.length * 2 ≤ (bytes b.list.pre).length := length_le_bytes b.list.pre
  have hhit : Ie.P2pHit p.element (bytes b.list.post ++ b.room) :=
    Ie.P2pHit.of_isP2p (decide_eq_true ⟨rfl, List.prefix_append ..⟩)
  rw [hbehind] at hmem hno
  have hfound := rtwGetP2pIeLoop_first (p := []) hno hhit hmem (by omega)
    (show b.list.pre.length < (bytes b.list.es).length by omega)
  rw [List.nil_append, ← hbehind, ← b.ies_eq, ← b.ieLength_eq, List.length_nil, Nat.zero_add,
    if_pos (by rw [b.ieLength_eq]; omega)] at hfound
  rw [hfound, length_ie_bytes, Nat.add_comm 2]

/-- Otherwise the attributes of the P2P element are removed. -/
theorem rtwRemoveP2pAttr_some {p : P2pAttrs} (hp2p : b.list.p2p? = some p)
    (hno : ∀ a y c, b.list.pre = a ++ y :: c → ¬ Ie.P2pHit y (bytes c ++ b.behind)) :
    RemoveP2pAttrOk attrId b := by
  obtain ⟨hmax, hieLen, hmem⟩ := b.length_le
  have hes := P2pList.bytes_es hp2p
  have hes' : bytes (b.list.without attrId).es =
      bytes b.list.pre ++ ((p.without attrId).element.bytes ++ bytes b.list.post) :=
    P2pList.bytes_es (congrArg (Option.map (P2pAttrs.without attrId)) hp2p)
  have hlen := congrArg List.length hes
  rw [List.length_append, List.length_append] at hlen
  have hsix := p.length_element
  have hattrs : p.1.length * 3 ≤ (bytes p.1).length := length_le_bytes p.1
  have hpos : 12 + (bytes b.list.pre).length = (b.fixed ++ bytes b.list.pre).length := by
    rw [List.length_append, b.length_fixed]
  have hies : b.bss.ies = (b.fixed ++ bytes b.list.pre) ++ (p.element.bytes ++ (bytes b.list.post ++ b.room)) := by
    show b.fixed ++ (bytes b.list.es ++ b.room) = _
    rw [hes]
    simp only [List.append_assoc]
  obtain ⟨n, hloop, hn⟩ : ∃ n, p2pAttrRemoveLoop (b.fixed ++ bytes b.list.pre).length attrId _ _ _ = some _ ∧ _ :=
    p2pAttrRemoveLoop_spec (r := bytes b.list.post ++ b.room) p (show p.1.length < p.element.bytes.length + 1 by omega)
  have hlen' : (b.fixed ++ bytes (b.list.without attrId).es).length + n = b.bss.ieLength := by
    rw [List.length_append, hes', List.length_append, List.length_append, b.length_fixed]
    omega
  have hdone : ∃ w, rtwRemoveP2pAttr attrId b.bss = some
      ⟨b.fixed ++ bytes (b.list.without attrId).es ++ w, (b.fixed ++ bytes (b.list.without attrId).es).length⟩ := by
    unfold rtwRemoveP2pAttr
    rw [rtwGetP2pIeLoop_element hp2p hno]
    dsimp only
    rw [hpos, hies, rtwP2pAttrRemove, hloop, Option.map_some]
    dsimp only
    by_cases hsame : (p.without attrId).element.bytes.length = p.element.bytes.length
    · refine ⟨b.room, ?_⟩
      have hzero : n = 0 := by omega
      have hbytes : b.fixed ++ bytes b.list.pre ++ ((p.without attrId).element.bytes ++
          (List.replicate n 0 ++ (bytes b.list.post ++ b.room))) =
          b.fixed ++ bytes (b.list.without attrId).es ++ b.room := by
        rw [hzero, hes', List.replicate_zero, List.nil_append]
        simp only [List.append_assoc]
      rw [if_neg (not_not.2 hsame), hbytes, ← hlen', hzero, Nat.add_zero]
    · refine ⟨List.replicate n 0 ++ b.room, ?_⟩
      have hmove := writeAt_moveUp (b.fixed ++ bytes b.list.pre ++ (p.without attrId).element.bytes)
        (List.replicate n 0) (bytes b.list.post) b.room
      have hnext : (b.fixed ++ bytes b.list.pre).length + (p.without attrId).element.bytes.length =
          (b.fixed ++ bytes b.list.pre ++ (p.without attrId).element.bytes).length := List.length_append.symm
      have hnextOri : (b.fixed ++ bytes b.list.pre).length + p.element.bytes.length =
          (b.fixed ++ bytes b.list.pre ++ (p.without attrId).element.bytes).length + n := by
        rw [← hnext, Nat.add_assoc, hn]
      have hremain : uintSub b.bss.ieLength ((b.fixed ++ bytes b.list.pre).length + p.element.bytes.length) =
          (bytes b.list.post).length := by
        rw [← hpos, uintSub_of_le (by omega) (by omega)]
        omega
      have hbytes : b.fixed ++ bytes b.list.pre ++ (p.without attrId).element.bytes ++
          (bytes b.list.post ++ (List.replicate n 0 ++ b.room)) =
          b.fixed ++ bytes (b.list.without attrId).es ++ (List.replicate n 0 ++ b.room) := by
        rw [hes']
        simp only [List.append_assoc]
      have hshift : p.element.bytes.length - (p.without attrId).element.bytes.length = n := by omega
      have hieLength : uintSub b.bss.ieLength n = (b.fixed ++ bytes (b.list.without attrId).es).length := by
        rw [uintSub_of_le (by omega) (by omega)]
        omega
      rw [List.length_replicate, hbytes] at hmove
      rw [if_pos hsame, hremain, hnextOri, hnext, hshift, hieLength,
        ← List.append_assoc _ (p.without attrId).element.bytes, hmove]
  obtain ⟨w, hw⟩ := hdone
  exact ⟨_, hw, rfl, List.take_left⟩

theorem P2pAttrs.length_without_lt {p : P2pAttrs} {y : P2pAttr} (hy : y ∈ p.1) (hid : y.tag.toNat = attrId) :
    (bytes (p.without attrId).1).length < (bytes p.1).length := by
  obtain ⟨as, bs, hsplit⟩ := List.append_of_mem hy
  have hle : (bytes (p.without attrId).1).length ≤ (bytes (as ++ bs)).length := by
    refine length_bytes_le_of_sublist ?_
    simp only [P2pAttrs.without, hsplit, List.filter_append, List.filter_cons, hid, ne_eq, not_true, decide_false,
      Bool.false_eq_true, if_false]
    exact List.filter_sublist.append List.filter_sublist
  have hpos : 0 < y.bytes.length := List.length_pos_of_ne_nil y.bytes_ne_nil
  rw [bytes_append, List.length_append] at hle
  rw [hsplit, bytes_append, bytes_cons, List.length_append, List.length_append]
  omega

theorem P2pList.without_eq {l : P2pList} (h : ∀ p ∈ l.p2p?, ∀ y ∈ p.1, y.tag.toNat ≠ attrId) :
    l.without attrId = l := by
  have hp2p : l.p2p?.map (P2pAttrs.without attrId) = l.p2p? := by
    cases hp : l.p2p? with
    | none => rfl
    | some p => exact congrArg some (P2pAttrs.without_eq (h p hp))
  cases l
  simp only [P2pList.without] at hp2p ⊢
  congr

/-- Nothing is done, and that is right if there is nothing to do. -/
theorem removeP2pAttrOk_same (h : rtwRemoveP2pAttr attrId b.bss = some b.bss) :
    RemoveP2pAttrOk attrId b ↔ ∀ p ∈ b.list.p2p?, ∀ y ∈ p.1, y.tag.toNat ≠ attrId := by
  constructor
  · rintro ⟨bss, hbss, hlen, -⟩ p hp y hy hid
    obtain rfl := Option.some.inj (h.symm.trans hbss)
    have hes := P2pList.bytes_es hp
    have hes' : bytes (b.list.without attrId).es =
        bytes b.list.pre ++ ((p.without attrId).element.bytes ++ bytes b.list.post) :=
      P2pList.bytes_es (congrArg (Option.map (P2pAttrs.without attrId)) hp)
    have hshort := P2pAttrs.length_without_lt hy hid
    have hsame : (b.fixed ++ bytes b.list.es).length = (b.fixed ++ bytes (b.list.without attrId).es).length := hlen
    rw [List.length_append, List.length_append, hes, hes', List.length_append, List.length_append, List.length_append,
      List.length_append, P2pAttrs.length_element, P2pAttrs.length_element] at hsame
    omega
  · intro hno
    have hsame : b.list.without attrId = b.list := P2pList.without_eq hno
    rw [RemoveP2pAttrOk, hsame]
    exact ⟨b.bss, h, rfl, b.take_ies⟩

/-- The function does what it should exactly if there is nothing to remove, or no vendor element before the P2P element
is taken for it. -/
theorem removeP2pAttrOk_iff (attrId : Nat) (b : P2pBss) : RemoveP2pAttrOk attrId b ↔
    (∀ p ∈ b.list.p2p?, ∀ y ∈ p.1, y.tag.toNat ≠ attrId) ∨ ¬ b.list.Lookalike := by
  obtain hno | ⟨a, x, c, hpre, hx, hfirst⟩ := exists_firstHit Ie.P2pHit b.list.pre b.behind
  · have hnot : ¬ b.list.Lookalike := by
      rintro ⟨a, c, y, hpre, hid, -, houi⟩
      refine hno a y c hpre ⟨hid, ?_⟩
      rw [b.append_behind]
      exact houi.trans (List.prefix_append ..)
    refine iff_of_true ?_ (.inr hnot)
    cases hp2p : b.list.p2p? with
    | none =>
      refine (removeP2pAttrOk_same (rtwRemoveP2pAttr_none hp2p hno)).2 fun p hp => ?_
      rw [hp2p] at hp
      exact absurd hp (Option.not_mem_none p)
    | some p => exact rtwRemoveP2pAttr_some hp2p hno
  · rw [removeP2pAttrOk_same (rtwRemoveP2pAttr_lookalike hpre hx hfirst)]
    refine (or_iff_left_of_imp fun hnot => ?_).symm
    cases hp2p : b.list.p2p? with
    | none => exact fun p hp => absurd hp (Option.not_mem_none p)
    | some p =>
      refine absurd ⟨a, c, x, hpre, hx.1, hx.short (b.list.none_pre x ?_), ?_⟩ hnot
      · rw [hpre]
        exact List.mem_append_right a List.mem_cons_self
      · -- the OUI ends before the rest of the buffer, since the P2P element is behind `x`
        have hhit := hx.2
        rw [b.append_behind] at hhit
        refine List.prefix_of_prefix_length_le hhit (List.prefix_append ..) ?_
        rw [hp2p, Option.map_some, Option.toList_some, bytes_append, List.cons_append, bytes_cons, List.length_append,
          List.length_append, List.length_append, p.length_element]
        show 4 ≤ _
        omega

/-- A vendor element without contents before it, and a P2P element with the attribute 15 behind it. -/
def lookalikeBss : P2pBss where
  fixed := .replicate 12 0
  list :=
    { pre := [⟨0xdd, [], fits_nil⟩, ouiIe]
      p2p? := some ⟨[⟨0x0f, [], by decide⟩], by decide⟩
      post := []
      none_pre := by decide
      none_post := by decide }
  room := .replicate 632 0
  length_fixed := length_zeroFixed
  length_ies := by
    rw [List.length_append, List.length_append, List.length_replicate, List.length_replicate, P2pList.es, bytes_append,
      List.length_append, length_bytes_cons, length_bytes_cons, length_ouiIe]
    decide

/-- The attribute 15 is not removed. -/
theorem not_removeP2pAttrOk_lookalike : ¬ ∀ attrId b, RemoveP2pAttrOk attrId b := by
  intro h
  obtain hnone | hnot := (removeP2pAttrOk_iff 15 lookalikeBss).1 (h 15 lookalikeBss)
  · exact hnone _ rfl _ List.mem_cons_self rfl
  · exact hnot ⟨[], _, _, rfl, rfl, by decide, by decide⟩

end

end Rtw
