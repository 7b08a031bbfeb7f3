import Rtw.Mlme.IeEdit
import Rtw.Mlme.IeSearch

/-!
# Removing elements from a list

`rtw_ies_remove_ie` searches for an element with `rtw_get_ie_ex`, moves what is behind it up through a buffer of
`MAX_IE_SZ` bytes, and goes on from there. `iesRemoveOk_iff`: it goes wrong when the OUI is compared with an element
that is too short for it, and when there is more behind an element than the buffer has room for.
-/

namespace Rtw
open Access Traced Tlv

/-! ### The code -/

/-- `ret`, the memory from `ies` on, and `*ies_len`. -/
structure IesBuf where
  ret : Bool
  mem : List UInt8
  iesLen : Nat

/-- The loop of `rtw_ies_remove_ie`, with what is written to `buf` and read from there. -/
def iesRemoveLoop (eid : UInt8) (oui : Option (List UInt8)) : Nat → Nat → Nat → IesBuf → Traced Unit IesBuf
  | 0, _, _, b => pure b
  | fuel + 1, start, searchLen, b =>
    match (rtwGetIeExT (b.mem.drop start) searchLen eid oui false true).val with
    | none => pure b
    | some (cnt, targetIelen) =>
      if targetIelen = 0 then pure b
      else do
        let targetIe := start + cnt
        let remainIes := targetIe + targetIelen
        let remainLen := uintSub searchLen (remainIes - start)
        touch () 0 remainLen
        iesRemoveLoop eid oui fuel targetIe remainLen
          { ret := true
            mem := writeAt b.mem targetIe ((b.mem.drop remainIes).take remainLen)
            iesLen := uintSub b.iesLen targetIelen }

/-- `rtw_ies_remove_ie`; without an OUI only the id is compared. -/
def rtwIesRemoveIe (ies : List UInt8) (iesLen offset : Nat) (eid : UInt8) (oui : Option (List UInt8)) :
    Traced Unit IesBuf :=
  if iesLen ≤ offset then pure { ret := false, mem := ies, iesLen }
  else iesRemoveLoop eid oui (iesLen + 1) offset (iesLen - offset) { ret := false, mem := ies, iesLen }

/-! ### What it should do -/

/-- The element has the id, and the OUI if one is given. -/
def Ie.Matches (eid : UInt8) (oui : Option (List UInt8)) (x : Ie) : Prop := x.tag = eid ∧ ∀ o ∈ oui, o <+: x.data

instance (eid : UInt8) (oui : Option (List UInt8)) (x : Ie) : Decidable (x.Matches eid oui) :=
  inferInstanceAs (Decidable (_ ∧ _))

/-- The elements that do not match. -/
def othersOf (eid : UInt8) (oui : Option (List UInt8)) (l : List Ie) : List Ie :=
  l.filter fun x => ¬ Ie.Matches eid oui x

/-- A buffer whose elements begin at `offset`, behind `head`; what is behind its end is `stale`. With an offset behind
the end there are no elements. -/
structure IesList where
  head : List UInt8
  offset : Nat
  es : List Ie
  stale : List UInt8
  le_offset : head.length ≤ offset
  at_offset : es ≠ [] → head.length = offset
  lt : (head ++ bytes es).length < 2 ^ 32

/-- `MAX_IE_SZ` -/
def removeBufSize : Unit → Nat := fun _ => 768

/-- The elements that match are removed, the others and what is before them stay, and `buf` is large enough. -/
structure IesRemoveOk (eid : UInt8) (oui : Option (List UInt8)) (a : IesList) (m : Traced Unit IesBuf) : Prop where
  within : Within removeBufSize m
  len : m.val.iesLen = (a.head ++ bytes (othersOf eid oui a.es)).length
  mem : m.val.mem.take m.val.iesLen = a.head ++ bytes (othersOf eid oui a.es)

/-! ### What it does -/

/-- The comparison of `rtw_get_ie_ex` succeeds at the element, with `r` behind it. -/
def Ie.ExHit (eid : UInt8) (oui : Option (List UInt8)) (x : Ie) (r : List UInt8) : Prop :=
  x.tag = eid ∧ ∀ o ∈ oui, memcmpAt (x.data ++ r) 0 o

instance (eid : UInt8) (oui : Option (List UInt8)) (x : Ie) (r : List UInt8) : Decidable (x.ExHit eid oui r) :=
  inferInstanceAs (Decidable (_ ∧ _))

/-- What is behind the elements `l` when they have been moved over `x`. -/
def staleAfter (x : Ie) (l : List Ie) (t : List UInt8) : List UInt8 := (x.bytes ++ (bytes l ++ t)).drop (bytes l).length

section
variable (eid : UInt8) (oui : Option (List UInt8))

/-- The elements that are left, and for each one that is removed the length of what is behind it. -/
def removeHits : List Ie → List UInt8 → List Ie × List Nat
  | [], _ => ([], [])
  | x :: l, t =>
    if x.ExHit eid oui (bytes l ++ t) then
      ((removeHits l (staleAfter x l t)).1, (bytes l).length :: (removeHits l (staleAfter x l t)).2)
    else (x :: (removeHits l t).1, (removeHits l t).2)

/-- At no element that is too short for the OUI is it completed by what is behind at that time. -/
def NoFalseHit : List Ie → List UInt8 → Prop
  | [], _ => True
  | x :: l, t =>
    if x.Matches eid oui then NoFalseHit l (staleAfter x l t) else ¬ x.ExHit eid oui (bytes l ++ t) ∧ NoFalseHit l t

end

section
variable {eid : UInt8} {oui : Option (List UInt8)} {p r s t : List UInt8} {x : Ie} {l m : List Ie} {fuel inLen k : Nat}
  {ie ielen : Bool}

theorem memcmpAt_append (p s o : List UInt8) (k : Nat) : memcmpAt (p ++ s) (p.length + k) o = memcmpAt s k o := by
  unfold memcmpAt
  simp only [Nat.add_assoc, byteAt_append_right]

theorem exHit_at : (byteAt (p ++ (x.bytes ++ r)) p.length = eid.toNat ∧
    (oui.all fun o => memcmpAt (p ++ (x.bytes ++ r)) (p.length + 2) o) = true) ↔ x.ExHit eid oui r := by
  have hdata : ∀ o, memcmpAt (p ++ (x.bytes ++ r)) (p.length + 2) o = memcmpAt (x.data ++ r) 0 o := fun o => by
    rw [memcmpAt_append]
    exact memcmpAt_append [x.tag, UInt8.ofNat x.data.length] (x.data ++ r) o 0
  rw [byteAt_at_ie.1]
  refine and_congr UInt8.toNat_inj ?_
  simp only [hdata]
  cases oui <;> simp

theorem Ie.Matches.exHit (h : x.Matches eid oui) : x.ExHit eid oui r := by
  refine ⟨h.1, fun o ho => ?_⟩
  have hprefix := (h.2 o ho).trans (List.prefix_append x.data r)
  exact (memcmpAt_iff (p := []) hprefix.length_le).2 hprefix

theorem exLoop_val_step (hlt : p.length < inLen) :
    (rtwGetIeExLoopT (p ++ (x.bytes ++ r)) inLen eid oui ie ielen (fuel + 1) p.length).val =
      if x.ExHit eid oui r then some (p.length, x.data.length + 2)
      else (rtwGetIeExLoopT (p ++ x.bytes ++ r) inLen eid oui ie ielen fuel (p ++ x.bytes).length).val := by
  have hpos := length_behind_ie p x
  rw [rtwGetIeExLoopT, if_pos hlt, val_bind, val_bind]
  simp only [exHit_at, byteAt_at_ie.2, hpos]
  split
  · rfl
  · rw [List.append_assoc]
    rfl

theorem exLoop_val_end (h : inLen ≤ p.length) :
    (rtwGetIeExLoopT s inLen eid oui ie ielen fuel p.length).val = none := by
  cases fuel with
  | zero => rfl
  | succ fuel => rw [rtwGetIeExLoopT, if_neg (by omega), val_pure]

theorem exLoop_val_first (hl : ∀ a y b, l = a ++ y :: b → ¬ Ie.ExHit eid oui y (bytes b ++ (x.bytes ++ r)))
    (hx : x.ExHit eid oui r) (hlt : p.length + (bytes l).length < inLen) (hfuel : l.length < fuel) :
    (rtwGetIeExLoopT (p ++ (bytes l ++ (x.bytes ++ r))) inLen eid oui ie ielen fuel p.length).val =
      some (p.length + (bytes l).length, x.data.length + 2) := by
  obtain ⟨fuel, rfl⟩ := Nat.exists_eq_succ_of_ne_zero (Nat.ne_zero_of_lt hfuel)
  induction l generalizing p fuel with
  | nil =>
    rw [bytes_nil, List.nil_append, exLoop_val_step hlt, if_pos hx]
    rfl
  | cons y l ih =>
    have hlen := length_add_bytes_cons p y l
    rw [List.length_cons] at hfuel
    obtain ⟨fuel, rfl⟩ := Nat.exists_eq_succ_of_ne_zero (show fuel ≠ 0 by omega)
    rw [hlen] at hlt ⊢
    rw [bytes_cons, List.append_assoc, exLoop_val_step (by rw [List.length_append] at hlt; omega),
      if_neg (hl [] y l rfl)]
    exact ih (fun a z b h => hl (y :: a) z b (congrArg (y :: ·) h)) hlt fuel (Nat.lt_of_succ_lt_succ hfuel)

theorem exLoop_val_none (hl : ∀ a y b, l = a ++ y :: b → ¬ Ie.ExHit eid oui y (bytes b ++ r)) :
    (rtwGetIeExLoopT (p ++ (bytes l ++ r)) (p.length + (bytes l).length) eid oui ie ielen fuel p.length).val =
      none := by
  induction l generalizing p fuel with
  | nil => exact exLoop_val_end (Nat.le_refl _)
  | cons y l ih =>
    have hlen := length_add_bytes_cons p y l
    have hpos : 0 < y.bytes.length := List.length_pos_of_ne_nil y.bytes_ne_nil
    cases fuel with
    | zero => rfl
    | succ fuel =>
      rw [hlen, bytes_cons, List.append_assoc, exLoop_val_step (by rw [List.length_append]; omega),
        if_neg (hl [] y l rfl)]
      exact ih fun a z b h => hl (y :: a) z b (congrArg (y :: ·) h)

/-- Elements without a hit are left. -/
theorem removeHits_append {a : List Ie}
    (ha : ∀ a' y b', a = a' ++ y :: b' → ¬ Ie.ExHit eid oui y (bytes (b' ++ l) ++ t)) :
    removeHits eid oui (a ++ l) t = (a ++ (removeHits eid oui l t).1, (removeHits eid oui l t).2) := by
  induction a with
  | nil => rfl
  | cons x a ih =>
    rw [List.cons_append, removeHits, if_neg (ha [] x a rfl),
      ih fun a' y b' h => ha (x :: a') y b' (congrArg (x :: ·) h)]
    rfl

theorem iesRemoveLoop_none {b : IesBuf} (hmem : b.mem = p ++ (bytes l ++ t))
    (hnone : ∀ a x c, l = a ++ x :: c → ¬ Ie.ExHit eid oui x (bytes c ++ t)) :
    iesRemoveLoop eid oui (fuel + 1) p.length (bytes l).length b = pure b := by
  have hsearch : (rtwGetIeExLoopT ([] ++ (bytes l ++ t)) (0 + (bytes l).length) eid oui false true (bytes l).length
      0).val = none := exLoop_val_none (p := []) hnone
  rw [List.nil_append, Nat.zero_add] at hsearch
  rw [iesRemoveLoop, hmem, List.drop_left, rtwGetIeExT, hsearch]

/-- What is behind the first hit is moved over it, and the loop goes on there. -/
theorem iesRemoveLoop_first {b : IesBuf} {a c : List Ie} (hmem : b.mem = p ++ (bytes (a ++ x :: c) ++ t))
    (hlen : b.iesLen = (p ++ bytes (a ++ x :: c)).length) (hlt : (p ++ bytes (a ++ x :: c)).length < 2 ^ 32)
    (hx : x.ExHit eid oui (bytes c ++ t))
    (hfirst : ∀ a' y b', a = a' ++ y :: b' → ¬ Ie.ExHit eid oui y (bytes (b' ++ x :: c) ++ t)) :
    iesRemoveLoop eid oui (fuel + 1) p.length (bytes (a ++ x :: c)).length b = (do
      touch () 0 (bytes c).length
      iesRemoveLoop eid oui fuel (p ++ bytes a).length (bytes c).length
        ⟨true, p ++ bytes a ++ (bytes c ++ staleAfter x c t), (p ++ bytes a ++ bytes c).length⟩) := by
  have hbytes : bytes (a ++ x :: c) ++ t = bytes a ++ (x.bytes ++ (bytes c ++ t)) := by
    rw [bytes_append, bytes_cons]
    simp only [List.append_assoc]
  have hcount : a.length * 2 ≤ (bytes a).length := length_le_bytes a
  have hsize : (bytes (a ++ x :: c)).length = (bytes a).length + (2 + x.data.length + (bytes c).length) := by
    rw [bytes_append, List.length_append, length_bytes_cons]
    rfl
  have hfound : (rtwGetIeExLoopT ([] ++ (bytes a ++ (x.bytes ++ (bytes c ++ t)))) (bytes (a ++ x :: c)).length eid
      oui false true (bytes (a ++ x :: c)).length 0).val = some (0 + (bytes a).length, x.data.length + 2) := by
    refine exLoop_val_first (p := []) (fun a' y b' h => ?_) hx (by rw [List.length_nil]; omega) (by omega)
    have hno := hfirst a' y b' h
    rwa [bytes_append, bytes_cons, List.append_assoc, List.append_assoc] at hno
  rw [List.nil_append, ← hbytes, Nat.zero_add] at hfound
  rw [List.length_append, hsize] at hlt hlen
  have htarget : p.length + (bytes a).length = (p ++ bytes a).length := List.length_append.symm
  have hremainIes := length_behind_ie (p ++ bytes a) x
  have hend : (p ++ bytes a ++ x.bytes).length = p.length + (bytes a).length + (2 + x.data.length) := by
    rw [List.length_append, List.length_append, length_ie_bytes]
  have hremain : uintSub (bytes (a ++ x :: c)).length ((p ++ bytes a ++ x.bytes).length - p.length) =
      (bytes c).length := by
    rw [hend, hsize, uintSub_of_le (by omega) (by omega)]
    omega
  have hread : ((p ++ (bytes (a ++ x :: c) ++ t)).drop (p ++ bytes a ++ x.bytes).length).take (bytes c).length =
      bytes c := by
    rw [hbytes, ← List.append_assoc, ← List.append_assoc, List.drop_left, List.take_left]
  have hwrite : writeAt (p ++ (bytes (a ++ x :: c) ++ t)) (p ++ bytes a).length (bytes c) =
      p ++ bytes a ++ (bytes c ++ staleAfter x c t) := by
    rw [hbytes, ← List.append_assoc, writeAt_append, staleAfter]
  have hiesLen : uintSub b.iesLen (x.data.length + 2) = (p ++ bytes a ++ bytes c).length := by
    rw [hlen, uintSub_of_le (by omega) hlt, List.length_append, List.length_append]
    omega
  rw [iesRemoveLoop, hmem, List.drop_left, rtwGetIeExT, hfound]
  dsimp only
  rw [if_neg (Nat.succ_ne_zero _), htarget, hremainIes, hremain, hread, hwrite, hiesLen]

/-- The loop does on the memory what `removeHits` does on the list. -/
theorem iesRemoveLoop_spec (eid : UInt8) (oui : Option (List UInt8)) {b : IesBuf}
    (hmem : b.mem = p ++ (bytes l ++ t)) (hlen : b.iesLen = (p ++ bytes l).length)
    (hlt : (p ++ bytes l).length < 2 ^ 32) (hfuel : l.length < fuel) :
    (∃ t', (iesRemoveLoop eid oui fuel p.length (bytes l).length b).val.mem =
      p ++ (bytes (removeHits eid oui l t).1 ++ t')) ∧
    (iesRemoveLoop eid oui fuel p.length (bytes l).length b).val.iesLen =
      (p ++ bytes (removeHits eid oui l t).1).length ∧
    (Within removeBufSize (iesRemoveLoop eid oui fuel p.length (bytes l).length b) ↔
      ∀ n ∈ (removeHits eid oui l t).2, n ≤ 768) := by
  induction fuel generalizing p l t b with
  | zero => exact absurd hfuel (Nat.not_lt_zero _)
  | succ fuel ih =>
    obtain hnone | ⟨a, x, c, rfl, hx, hfirst⟩ := exists_firstHit (Ie.ExHit eid oui) l t
    · have hall : removeHits eid oui (l ++ []) t = (l ++ (removeHits eid oui [] t).1, (removeHits eid oui [] t).2) :=
        removeHits_append (by simpa only [List.append_nil] using hnone)
      rw [List.append_nil] at hall
      rw [iesRemoveLoop_none hmem hnone, hall]
      dsimp only [removeHits]
      rw [List.append_nil, val_pure]
      exact ⟨⟨t, hmem⟩, hlen, iff_of_true within_pure fun n hn => absurd hn List.not_mem_nil⟩
    · have hcut : removeHits eid oui (a ++ x :: c) t = (a ++ (removeHits eid oui c (staleAfter x c t)).1,
          (bytes c).length :: (removeHits eid oui c (staleAfter x c t)).2) := by
        rw [removeHits_append hfirst, removeHits, if_pos hx]
      have hshort : (p ++ bytes a ++ bytes c).length ≤ (p ++ bytes (a ++ x :: c)).length := by
        simp only [bytes_append, bytes_cons, List.length_append]
        omega
      rw [List.length_append, List.length_cons] at hfuel
      rw [iesRemoveLoop_first hmem hlen hlt hx hfirst, hcut, val_bind, within_bind, within_touch_zero]
      obtain ⟨⟨t', hmem'⟩, hlen', hwithin⟩ := ih (p := p ++ bytes a) (l := c) (t := staleAfter x c t)
        (b := ⟨true, p ++ bytes a ++ (bytes c ++ staleAfter x c t), (p ++ bytes a ++ bytes c).length⟩) rfl rfl
        (Nat.lt_of_le_of_lt hshort hlt) (by omega)
      refine ⟨⟨t', ?_⟩, ?_, ?_⟩
      · rw [hmem', bytes_append]
        simp only [List.append_assoc]
      · rw [hlen', bytes_append, List.append_assoc]
      · rw [hwithin, List.forall_mem_cons]
        rfl

/-! ### When it is right -/

theorem length_removeHits_le (eid : UInt8) (oui : Option (List UInt8)) (l : List Ie) (t : List UInt8) :
    (bytes (removeHits eid oui l t).1).length ≤ (bytes (othersOf eid oui l)).length := by
  induction l generalizing t with
  | nil => exact Nat.le_refl _
  | cons x l ih =>
    unfold removeHits othersOf
    by_cases hmatch : Ie.Matches eid oui x
    · rw [if_pos hmatch.exHit, List.filter_cons_of_neg (by simpa using hmatch)]
      exact ih _
    · rw [List.filter_cons_of_pos (by simpa using hmatch), length_bytes_cons]
      split
      · exact Nat.le_trans (ih _) (Nat.le_add_left ..)
      · rw [length_bytes_cons]
        exact Nat.add_le_add_left (ih _) _

/-- The right elements are left exactly if no hit is a false one. -/
theorem removeHits_eq_iff (l : List Ie) (t : List UInt8) :
    (removeHits eid oui l t).1 = othersOf eid oui l ↔ NoFalseHit eid oui l t := by
  induction l generalizing t with
  | nil => exact iff_of_true rfl trivial
  | cons x l ih =>
    unfold removeHits NoFalseHit
    by_cases hmatch : Ie.Matches eid oui x
    · have hothers : othersOf eid oui (x :: l) = othersOf eid oui l := List.filter_cons_of_neg (by simpa using hmatch)
      rw [if_pos hmatch.exHit, if_pos hmatch, hothers]
      exact ih _
    · have hothers : othersOf eid oui (x :: l) = x :: othersOf eid oui l :=
        List.filter_cons_of_pos (by simpa using hmatch)
      rw [if_neg hmatch, hothers]
      by_cases hhit : x.ExHit eid oui (bytes l ++ t)
      · rw [if_pos hhit]
        refine iff_of_false (fun heq => ?_) fun hno => hno.1 hhit
        have hle := length_removeHits_le eid oui l (staleAfter x l t)
        have hlen := congrArg (fun l => (bytes l).length) heq
        dsimp only at hlen
        rw [length_bytes_cons] at hlen
        have hpos := ieFormat.hdr_pos
        omega
      · rw [if_neg hhit, and_iff_right hhit]
        exact (List.cons_inj_right x).trans (ih t)

/-- Without false hits the buffer is used for what is behind the elements that match. -/
theorem removeHits_room (h : NoFalseHit eid oui l t) : (∀ n ∈ (removeHits eid oui l t).2, n ≤ 768) ↔
    ∀ a x c, l = a ++ x :: c → Ie.Matches eid oui x → (bytes c).length ≤ 768 := by
  induction l generalizing t with
  | nil =>
    refine iff_of_true (fun n hn => absurd hn List.not_mem_nil) fun a x c hl => ?_
    exact absurd hl.symm (List.append_ne_nil_of_right_ne_nil a (List.cons_ne_nil x c))
  | cons x l ih =>
    rw [forall_split_cons]
    unfold NoFalseHit at h
    unfold removeHits
    by_cases hmatch : Ie.Matches eid oui x
    · rw [if_pos hmatch] at h
      rw [if_pos hmatch.exHit, List.forall_mem_cons, ih h]
      exact and_congr_left fun _ => (imp_iff_right hmatch).symm
    · rw [if_neg hmatch] at h
      rw [if_neg h.1, ih h.2]
      exact (and_iff_right fun hx => absurd hx hmatch).symm

/-- Elements are removed as they should exactly if none is taken for one with the OUI that is too short for it, and
behind each one that is removed there is not more than the buffer takes. -/
theorem iesRemoveOk_iff (eid : UInt8) (oui : Option (List UInt8)) (a : IesList) :
    IesRemoveOk eid oui a
        (rtwIesRemoveIe (a.head ++ (bytes a.es ++ a.stale)) (a.head ++ bytes a.es).length a.offset eid oui) ↔
      NoFalseHit eid oui a.es a.stale ∧
        ∀ b x c, a.es = b ++ x :: c → Ie.Matches eid oui x → (bytes c).length ≤ 768 := by
  by_cases hnil : a.es = []
  · have hend : (a.head ++ bytes ([] : List Ie)).length ≤ a.offset := by
      rw [bytes_nil, List.append_nil]
      exact a.le_offset
    rw [hnil, rtwIesRemoveIe, if_pos hend]
    refine iff_of_true ⟨within_pure, ?_, ?_⟩ ⟨trivial, fun b x c hl => ?_⟩
    · rw [hnil]
      rfl
    · rw [hnil]
      show (a.head ++ ([] ++ a.stale)).take (a.head ++ []).length = a.head ++ []
      rw [List.nil_append, List.append_nil, List.take_left]
    · exact absurd hl.symm (List.append_ne_nil_of_right_ne_nil b (List.cons_ne_nil x c))
  · have hpos : 0 < (bytes a.es).length := by
      have hcount : a.es.length * 2 ≤ (bytes a.es).length := length_le_bytes a.es
      have hlen := List.length_pos_of_ne_nil hnil
      omega
    have hcount : a.es.length * 2 ≤ (bytes a.es).length := length_le_bytes a.es
    have hsub : (a.head ++ bytes a.es).length - a.head.length = (bytes a.es).length := by
      rw [List.length_append, Nat.add_sub_cancel_left]
    rw [rtwIesRemoveIe, ← a.at_offset hnil, if_neg (by rw [List.length_append]; omega), hsub]
    obtain ⟨⟨t', hmem⟩, hlen, hwithin⟩ := iesRemoveLoop_spec eid oui (l := a.es) (t := a.stale)
      (b := ⟨false, a.head ++ (bytes a.es ++ a.stale), (a.head ++ bytes a.es).length⟩) rfl rfl a.lt
      (show a.es.length < (a.head ++ bytes a.es).length + 1 by rw [List.length_append]; omega)
    have htake : (iesRemoveLoop eid oui ((a.head ++ bytes a.es).length + 1) a.head.length (bytes a.es).length
        ⟨false, a.head ++ (bytes a.es ++ a.stale), (a.head ++ bytes a.es).length⟩).val.mem.take
          (a.head ++ bytes (removeHits eid oui a.es a.stale).1).length =
        a.head ++ bytes (removeHits eid oui a.es a.stale).1 := by
      rw [hmem, ← List.append_assoc, List.take_left]
    constructor
    · rintro ⟨hw, -, hm⟩
      rw [hlen, htake] at hm
      have hkeep := (removeHits_eq_iff a.es a.stale).1 (bytes_inj (List.append_cancel_left hm))
      exact ⟨hkeep, (removeHits_room hkeep).1 (hwithin.1 hw)⟩
    · rintro ⟨hno, hroom⟩
      have hkeep := (removeHits_eq_iff a.es a.stale).2 hno
      refine ⟨hwithin.2 ((removeHits_room hno).2 hroom), ?_, ?_⟩
      · rw [hlen, hkeep]
      · rw [hlen, htake, hkeep]

/-- A vendor element without contents, and behind it an element that begins with the OUI of P2P. -/
def shortVendorIes : IesList where
  head := []
  offset := 0
  es := [⟨0xdd, [], fits_nil⟩, ouiIe]
  stale := []
  le_offset := Nat.le_refl 0
  at_offset _ := rfl
  lt := by
    rw [List.nil_append, length_bytes_cons, length_bytes_cons, length_ouiIe]
    decide

/-- It is removed as a P2P element. -/
theorem not_iesRemoveOk_short : ¬ ∀ eid oui (a : IesList), IesRemoveOk eid oui a
    (rtwIesRemoveIe (a.head ++ (bytes a.es ++ a.stale)) (a.head ++ bytes a.es).length a.offset eid oui) := by
  intro h
  have hno := ((iesRemoveOk_iff 0xdd (some p2pOui) shortVendorIes).1 (h 0xdd (some p2pOui) shortVendorIes)).1
  exact hno.1 (by decide)

end

end Rtw
