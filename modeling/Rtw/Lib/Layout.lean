import Mathlib.Data.List.Basic

/-!
# Fields at their alignment

A row of fields in memory, each of a size and an alignment that a table gives for its key. `walk` reads them one behind
the other; where the padding that a writer puts between them is what the alignments ask for (`fits`), it reads what has
been written and ends where the writer ended. `walkEnd` says where a walk ends without the memory.
-/

namespace Layout

variable {ι α : Type*} {table : ι → Option (Nat × Nat)} {off : Nat}

/-- The next multiple of `a`. -/
def align (a off : Nat) : Nat := off + (a - off % a) % a

/-- A field as it is written, behind its padding. -/
structure Piece (ι α : Type*) where
  key : ι
  pad : List α
  val : List α

namespace Piece

def bytes (p : Piece ι α) : List α := p.pad ++ p.val

/-- The key, and how many bytes of padding and of the field there are. -/
def sizes (p : Piece ι α) : ι × Nat × Nat := (p.key, p.pad.length, p.val.length)

end Piece

def bytes (ps : List (Piece ι α)) : List α := ps.flatMap Piece.bytes

def total : List (ι × Nat × Nat) → Nat
  | [] => 0
  | (_, pad, len) :: l => pad + len + total l

/-- Each field begins at its alignment, and has the size that the table says. -/
def fits (table : ι → Option (Nat × Nat)) : List (ι × Nat × Nat) → Nat → Bool
  | [], _ => true
  | (k, pad, len) :: l, off =>
    match table k with
    | none => false
    | some (a, size) => off + pad == align a off && len == size && fits table l (off + pad + len)

/-- The fields with the given keys, and where the last one ends. -/
def walk (table : ι → Option (Nat × Nat)) (mem : List α) : List ι → Nat → Option (List (ι × List α) × Nat)
  | [], off => some ([], off)
  | k :: ks, off =>
    (table k).bind fun e => (walk table mem ks (align e.1 off + e.2)).map fun r =>
      ((k, (mem.drop (align e.1 off)).take e.2) :: r.1, r.2)

def walkEnd (table : ι → Option (Nat × Nat)) : List ι → Nat → Option Nat
  | [], off => some off
  | k :: ks, off => (table k).bind fun e => walkEnd table ks (align e.1 off + e.2)

theorem walkEnd_of_walk {mem : List α} {ks : List ι} {fields : List (ι × List α)} {last : Nat}
    (h : walk table mem ks off = some (fields, last)) : walkEnd table ks off = some last := by
  induction ks generalizing off fields with
  | nil =>
    cases h
    rfl
  | cons k ks ih =>
    unfold walk at h
    unfold walkEnd
    cases htable : table k with
    | none =>
      rw [htable] at h
      cases h
    | some e =>
      rw [htable] at h
      obtain ⟨r, hrest, hr⟩ := Option.map_eq_some_iff.1 h
      cases hr
      exact ih hrest

theorem length_bytes (ps : List (Piece ι α)) : (bytes ps).length = total (ps.map Piece.sizes) := by
  induction ps with
  | nil => rfl
  | cons p ps ih =>
    rw [bytes, List.flatMap_cons, List.length_append, Piece.bytes, List.length_append]
    exact congrArg _ ih

/-- What has been written with the right padding is read again. -/
theorem walk_pieces {ps : List (Piece ι α)} (h : fits table (ps.map Piece.sizes) off = true) (pre rest : List α)
    (hpre : pre.length = off) : walk table (pre ++ (bytes ps ++ rest)) (ps.map Piece.key) off =
      some (ps.map fun p => (p.key, p.val), off + (bytes ps).length) := by
  induction ps generalizing off pre with
  | nil => rfl
  | cons p ps ih =>
    rw [List.map_cons] at h ⊢
    unfold fits Piece.sizes at h
    unfold walk
    cases htable : table p.key with
    | none =>
      simp only [htable] at h
      cases h
    | some e =>
      simp only [htable, Bool.and_eq_true, beq_iff_eq] at h
      obtain ⟨⟨halign, hsize⟩, hrest⟩ := h
      have hpre' : (pre ++ p.bytes).length = off + p.pad.length + p.val.length := by
        rw [List.length_append, Piece.bytes, List.length_append, hpre, Nat.add_assoc]
      have happ : pre ++ (bytes (p :: ps) ++ rest) = (pre ++ p.bytes) ++ (bytes ps ++ rest) := by
        rw [bytes, List.flatMap_cons]
        simp only [List.append_assoc]
        rfl
      have hval : ((pre ++ (bytes (p :: ps) ++ rest)).drop (off + p.pad.length)).take p.val.length = p.val := by
        have hsplit : pre ++ (bytes (p :: ps) ++ rest) = (pre ++ p.pad) ++ (p.val ++ (bytes ps ++ rest)) := by
          rw [happ, Piece.bytes]
          simp only [List.append_assoc]
        rw [hsplit, ← hpre, ← List.length_append, List.drop_left, List.take_left]
      show (walk table _ _ (align e.1 off + e.2)).map _ = _
      rw [← halign, ← hsize, hval, happ, ih hrest _ hpre']
      refine congrArg (fun n => some (_, n)) ?_
      rw [length_bytes, length_bytes, List.map_cons]
      show off + p.pad.length + p.val.length + _ = off + (p.pad.length + p.val.length + _)
      omega

end Layout
