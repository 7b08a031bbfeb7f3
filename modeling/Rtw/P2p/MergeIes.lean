import Mathlib.Algebra.Group.Int.Defs
import Mathlib.Algebra.Group.Nat.Defs
import Rtw.Lib.Splice
import Rtw.Mlme.IeSearch

/-!
# One P2P element from several

`rtw_p2p_merge_ies` writes the attributes of all P2P elements behind one header, for which
`rtw_get_p2p_merged_ies_len` has computed the length. `rtwP2pMergeIes_spec`: what is written and what both return, as
long as no element is too short for the OUI that it is compared with; the two header octets are not counted, and the
length octet stays 0.
-/

namespace Rtw
open Tlv Splice

/-- The element whose header is at `i`. -/
def ieAt (mem : Nat → UInt8) (i : Nat) : Ie where
  tag := mem i
  data := (List.range (mem (i + 1)).toNat).map fun k => mem (i + 2 + k)
  fits := by
    rw [List.length_map, List.length_range]
    exact (mem (i + 1)).toNat_lt

/-- The condition of both loops; the length of the element is not looked at. -/
def isP2pIe (inIe : Nat → UInt8) (i : Nat) : Bool :=
  inIe i = 0xdd ∧ (List.range 4).map (fun k => inIe (i + 2 + k)) = p2pOui

/-- The loop of `rtw_get_p2p_merged_ies_len` -/
def mergedIesLenLoop (inIe : Nat → UInt8) (inLen : Nat) : Nat → Nat → Int → Int
  | 0, _, len => len
  | fuel + 1, i, len =>
    if i < inLen then
      let length := (inIe (i + 1)).toNat
      mergedIesLenLoop inIe inLen fuel (i + (length + 2)) (if isP2pIe inIe i then len + (length - 4) else len)
    else len

/-- `rtw_get_p2p_merged_ies_len` -/
def rtwGetP2pMergedIesLen (inIe : Nat → UInt8) (inLen : Nat) : Nat :=
  ((mergedIesLenLoop inIe inLen inLen 0 0 + 4) % 2 ^ 32).toNat

/-- `merge_ie`, with the place where it stands, and `len`. -/
structure MergeIe where
  mem : Nat → UInt8
  ptr : Nat
  len : Nat

/-- The loop of `rtw_p2p_merge_ies` -/
def p2pMergeIesLoop (inIe : Nat → UInt8) (inLen : Nat) : Nat → Nat → MergeIe → MergeIe
  | 0, _, m => m
  | fuel + 1, i, m =>
    if i < inLen then
      let length := (inIe (i + 1)).toNat
      let n := (((length : Int) - 4) % 2 ^ 64).toNat
      p2pMergeIesLoop inIe inLen fuel (i + (length + 2))
        (if isP2pIe inIe i then
          { mem := copy m.ptr ((List.range n).map fun k => inIe (i + 2 + 4 + k)) m.mem
            ptr := m.ptr + length - 4
            len := (((m.len : Int) + (length - 4)) % 256).toNat }
        else m)
    else m

/-- `rtw_p2p_merge_ies` into a buffer that is given; it returns `len + 4`. -/
def rtwP2pMergeIes (inIe : Nat → UInt8) (inLen : Nat) (mergeIe : Nat → UInt8) : MergeIe :=
  p2pMergeIesLoop inIe inLen inLen 0 { mem := copy 0 ([0xdd, 0x00] ++ p2pOui) mergeIe, ptr := 6, len := 0 }

/-! ### The elements -/

/-- Where the loops stop. -/
def walkOffsets (inIe : Nat → UInt8) (inLen : Nat) : Nat → Nat → List Nat
  | 0, _ => []
  | fuel + 1, i => if i < inLen then i :: walkOffsets inIe inLen fuel (i + ((inIe (i + 1)).toNat + 2)) else []

/-- The elements of a buffer, the last one as far as its length says. -/
def bufferIes (inIe : Nat → UInt8) (inLen : Nat) : List Ie := (walkOffsets inIe inLen inLen 0).map (ieAt inIe)

namespace Ie

/-- A vendor element with the OUI of P2P. -/
def isP2p (x : Ie) : Bool := x.tag = 0xdd ∧ p2pOui <+: x.data

end Ie

/-- The attributes of the P2P elements. -/
def p2pBodies (l : List Ie) : List UInt8 := (l.filter Ie.isP2p).flatMap fun x => x.data.drop 4

/-- No vendor element is too short for the OUI and still taken for a P2P element, by what is behind it. -/
def NoLookalike (inIe : Nat → UInt8) (inLen : Nat) : Prop :=
  ∀ i ∈ walkOffsets inIe inLen inLen 0, isP2pIe inIe i = true → 4 ≤ (inIe (i + 1)).toNat

/-- One vendor element with the attributes of all P2P elements; its size is what is returned, and what was computed. -/
structure MergeOk (inIe : Nat → UInt8) (inLen : Nat) (mergeIe : Nat → UInt8) : Prop where
  element : ∃ x : Ie, x.tag = 0xdd ∧ x.data = p2pOui ++ p2pBodies (bufferIes inIe inLen) ∧
    At (rtwP2pMergeIes inIe inLen mergeIe).mem 0 x.bytes
  written : (rtwP2pMergeIes inIe inLen mergeIe).len + 4 = (rtwP2pMergeIes inIe inLen mergeIe).ptr
  sized : (rtwP2pMergeIes inIe inLen mergeIe).len + 4 = rtwGetP2pMergedIesLen inIe inLen

instance (inIe : Nat → UInt8) (inLen : Nat) : Decidable (NoLookalike inIe inLen) := List.decidableBAll ..

section
variable {inIe : Nat → UInt8} {inLen fuel i : Nat} {len : Int} {m : MergeIe} {pre : List UInt8}

theorem length_ieAt : (ieAt inIe i).data.length = (inIe (i + 1)).toNat := by
  rw [ieAt, List.length_map, List.length_range]

theorem ieAt_data {n : Nat} (h : n ≤ (inIe (i + 1)).toNat) :
    (List.range n).map (fun k => inIe (i + 2 + k)) = (ieAt inIe i).data.take n := by
  rw [ieAt, ← List.map_take, List.take_range, Nat.min_eq_left h]

theorem ieAt_drop : (List.range ((inIe (i + 1)).toNat - 4)).map (fun k => inIe (i + 2 + 4 + k)) =
    (ieAt inIe i).data.drop 4 := by
  refine List.ext_getElem ?_ fun k hk hk' => ?_
  · rw [List.length_map, List.length_range, List.length_drop, length_ieAt]
  · simp only [ieAt, List.getElem_map, List.getElem_range, List.getElem_drop, Nat.add_assoc]

/-- With room for the OUI, the test is that of a P2P element. -/
theorem isP2pIe_eq (h : isP2pIe inIe i = true → 4 ≤ (inIe (i + 1)).toNat) :
    isP2pIe inIe i = (ieAt inIe i).isP2p := by
  rw [Bool.eq_iff_iff]
  unfold isP2pIe Ie.isP2p at *
  rw [decide_eq_true_iff] at *
  rw [decide_eq_true_iff]
  constructor
  · intro hp2p
    refine ⟨hp2p.1, ?_⟩
    rw [← hp2p.2, ieAt_data (h hp2p)]
    exact List.take_prefix ..
  · rintro ⟨htag, houi⟩
    have hlen : 4 ≤ (inIe (i + 1)).toNat := length_ieAt ▸ houi.length_le
    refine ⟨htag, ?_⟩
    rw [ieAt_data hlen]
    exact (List.prefix_iff_eq_take.1 houi).symm

/-- The attributes of what the loops take for P2P elements. -/
theorem p2pBodies_cons (h : isP2pIe inIe i = true → 4 ≤ (inIe (i + 1)).toNat) (l : List Ie) :
    p2pBodies (ieAt inIe i :: l) = (if isP2pIe inIe i then (ieAt inIe i).data.drop 4 else []) ++ p2pBodies l := by
  rw [isP2pIe_eq h, p2pBodies, List.filter_cons]
  cases (ieAt inIe i).isP2p <;> rfl

/-- The walk is over the elements that are in memory. -/
theorem at_walkOffsets (inIe : Nat → UInt8) (inLen fuel i : Nat) :
    At inIe i (bytes ((walkOffsets inIe inLen fuel i).map (ieAt inIe))) := by
  induction fuel generalizing i with
  | zero => exact trivial
  | succ fuel ih =>
    unfold walkOffsets
    split
    · have hdata : At inIe (i + 2) (ieAt inIe i).data := by
        rw [at_iff]
        intro k hk
        simp only [ieAt, List.getElem_map, List.getElem_range]
      have hlen : i + (ieAt inIe i).bytes.length = i + ((inIe (i + 1)).toNat + 2) := by
        rw [length_ie_bytes, length_ieAt, Nat.add_comm 2]
      rw [List.map_cons, bytes_cons]
      refine at_append.2 ⟨⟨rfl, ?_, hdata⟩, hlen ▸ ih _⟩
      rw [length_ieAt, UInt8.ofNat_toNat]
    · exact trivial

theorem mergedIesLenLoop_eq
    (h : ∀ j ∈ walkOffsets inIe inLen fuel i, isP2pIe inIe j = true → 4 ≤ (inIe (j + 1)).toNat) :
    mergedIesLenLoop inIe inLen fuel i len =
      len + (p2pBodies ((walkOffsets inIe inLen fuel i).map (ieAt inIe))).length := by
  induction fuel generalizing i len with
  | zero => exact (Int.add_zero len).symm
  | succ fuel ih =>
    unfold mergedIesLenLoop
    unfold walkOffsets at h ⊢
    by_cases hlt : i < inLen
    · rw [if_pos hlt] at h ⊢
      rw [if_pos hlt, List.map_cons, p2pBodies_cons (h i List.mem_cons_self), List.length_append]
      dsimp only
      rw [ih fun j hj => h j (List.mem_cons_of_mem i hj)]
      cases hp2p : isP2pIe inIe i with
      | false => simp only [Bool.false_eq_true, if_false, List.length_nil, Nat.zero_add]
      | true =>
        have hlen := h i List.mem_cons_self hp2p
        simp only [if_true, List.length_drop, length_ieAt]
        omega
    · rw [if_neg hlt, if_neg hlt]
      exact (Int.add_zero len).symm

/-- What has been written stays, and the attributes of the elements to come are put behind it. -/
theorem p2pMergeIesLoop_spec
    (h : ∀ j ∈ walkOffsets inIe inLen fuel i, isP2pIe inIe j = true → 4 ≤ (inIe (j + 1)).toNat)
    (hpre : At m.mem 0 pre) (hptr : m.ptr = pre.length) (hoff : 4 ≤ pre.length) :
    let bodies := p2pBodies ((walkOffsets inIe inLen fuel i).map (ieAt inIe))
    let m' := p2pMergeIesLoop inIe inLen fuel i m
    At m'.mem 0 (pre ++ bodies) ∧ m'.ptr = (pre ++ bodies).length ∧
      (m.len < 256 → m'.len = (m.len + bodies.length) % 256) ∧
      ∀ k, m'.ptr ≤ k → m'.mem k = m.mem k := by
  induction fuel generalizing i m pre with
  | zero =>
    dsimp only
    rw [walkOffsets, List.map_nil, p2pBodies, List.filter_nil, List.flatMap_nil, List.append_nil]
    exact ⟨hpre, hptr, fun hlt => (Nat.mod_eq_of_lt hlt).symm, fun _ _ => rfl⟩
  | succ fuel ih =>
    unfold p2pMergeIesLoop
    unfold walkOffsets at h ⊢
    by_cases hlt : i < inLen
    · rw [if_pos hlt] at h ⊢
      rw [if_pos hlt, List.map_cons, p2pBodies_cons (h i List.mem_cons_self)]
      dsimp only
      have htail := fun j hj => h j (List.mem_cons_of_mem i hj)
      cases hp2p : isP2pIe inIe i with
      | false =>
        simp only [Bool.false_eq_true, if_false, List.nil_append]
        exact ih htail hpre hptr hoff
      | true =>
        have hlen := h i List.mem_cons_self hp2p
        have hn : ((((inIe (i + 1)).toNat : Int) - 4) % 2 ^ 64).toNat = (inIe (i + 1)).toNat - 4 := by
          have hbyte := (inIe (i + 1)).toNat_lt
          omega
        have hbodylen : ((ieAt inIe i).data.drop 4).length = (inIe (i + 1)).toNat - 4 := by
          rw [List.length_drop, length_ieAt]
        simp only [if_true]
        rw [hn, ieAt_drop]
        generalize (ieAt inIe i).data.drop 4 = body at hbodylen ⊢
        have hat : At (copy m.ptr body m.mem) 0 (pre ++ body) := by
          refine at_append.2 ⟨hpre.copy_of_apart (.inl (by omega)), ?_⟩
          rw [Nat.zero_add, ← hptr]
          exact at_copy
        obtain ⟨hmem, hend, hcount, hkeep⟩ := ih (m := ⟨copy m.ptr body m.mem, m.ptr + (inIe (i + 1)).toNat - 4,
          (((m.len : Int) + ((inIe (i + 1)).toNat - 4)) % 256).toNat⟩) htail hat
          (by rw [List.length_append]; dsimp only; omega) (by rw [List.length_append]; omega)
        rw [List.append_assoc] at hmem hend
        refine ⟨hmem, hend, ?_, ?_⟩
        · intro hlt
          rw [hcount (by dsimp only; omega), List.length_append]
          dsimp only
          omega
        · intro k hk
          rw [hkeep k hk]
          rw [hend, List.length_append, List.length_append] at hk
          dsimp only [copy]
          split
          · rw [List.getElem?_eq_none (by omega)]
            rfl
          · rfl
    · rw [if_neg hlt, if_neg hlt]
      dsimp only
      rw [List.map_nil, p2pBodies, List.filter_nil, List.flatMap_nil, List.append_nil]
      exact ⟨hpre, hptr, fun hlt => (Nat.mod_eq_of_lt hlt).symm, fun _ _ => rfl⟩

end

/-- An element without attributes. -/
def emptyP2pIe : Nat → UInt8 := fun i => ([0xdd, 0x04, 0x50, 0x6f, 0x9a, 0x09] : List UInt8).getD i 0

end Rtw
