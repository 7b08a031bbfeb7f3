import Rtw.Lib.Access
import Rtw.Mlme.Ie

/-!
# What the walks over elements read

`rtw_ieee802_11_parse_elems` accepts a list of elements only if they tile it (`tiling_of_parse`), and reads nothing
outside it in any case. `rtw_get_ie` trusts each length: on a list that is tiled it stays inside, unless it starts
in the middle with the limit of the whole list and finds nothing.
-/

namespace Rtw
open Access Traced

/-- The elements at `vs` lie one behind the other from `pos` to `e`. -/
def Tiling (buf : List UInt8) : List Nat → Nat → Nat → Prop
  | [], pos, e => pos = e
  | v :: vs, pos, e => v = pos ∧ pos + 2 + byteAt buf (pos + 1) ≤ e ∧ Tiling buf vs (pos + 2 + byteAt buf (pos + 1)) e

/-- Where the elements between `pos` and `e` start. -/
def ieOffsets (buf : List UInt8) : Nat → Nat → Nat → List Nat
  | 0, _, _ => []
  | fuel + 1, pos, e =>
    if pos + 2 ≤ e then pos :: ieOffsets buf fuel (pos + 2 + byteAt buf (pos + 1)) e else []

section
variable {O : Type} (obj : O) (base : Nat)

/-- `rtw_ieee802_11_parse_elems` on the memory from `base` on, with what it reads. -/
def parseElemsT (start : List UInt8) : Nat → Nat → Nat → Elems → Nat → Traced O (ParseRes × Elems)
  | 0, _, _, elems, _ => pure (.parseFailed, elems)
  | fuel + 1, pos, left, elems, unknown =>
    if left ≥ 2 then do
      touch obj (base + pos : Nat) 2
      let id := byteAt start pos
      let elen := byteAt start (pos + 1)
      let pos := pos + 2
      let left := left - 2
      if elen > left then return (.parseFailed, elems)
      else
        -- the OUI, its type, and the subtype
        touchIf (id = 221 ∧ elen ≥ 4) obj (base + pos : Nat) 4
        touchIf (id = 221 ∧ elen ≥ 5) obj (base + pos + 4 : Nat) 1
        match if id = 221 then vendorSpecific? start pos elen else elemKind? id with
        | some k => parseElemsT start fuel (pos + elen) (left - elen) (Function.update elems k (some (pos, elen))) unknown
        | none => parseElemsT start fuel (pos + elen) (left - elen) elems (unknown + 1)
    else pure (if left ≠ 0 then (.parseFailed, elems) else (if unknown ≠ 0 then .parseUnknown else .parseOK, elems))

/-- The loop of `rtw_get_ie` from the element at `q` on, with what it reads; `i` has been passed. -/
def rtwGetIeLoopT (pbuf : List UInt8) (index limit q : Nat) : Nat → Nat → Traced O (Option (Nat × Nat))
  | 0, _ => pure none
  | fuel + 1, i => do
    touch obj (base + (q + i) : Nat) 2
    if byteAt pbuf (q + i) = index then return some (q + i, byteAt pbuf (q + i + 1))
    else
      let i := i + (byteAt pbuf (q + i + 1) + 2)
      if i ≥ limit then return none else rtwGetIeLoopT pbuf index limit q fuel i

/-- `rtw_get_ie`, with what it reads. -/
def rtwGetIeT (pbuf : List UInt8) (index limit q : Nat) : Traced O (Option (Nat × Nat)) :=
  if limit < 1 then pure none else rtwGetIeLoopT obj base pbuf index limit q limit 0

end

section
variable {O : Type} {obj : O} {base : Nat} {size : O → Nat} {buf : List UInt8} {vs : List Nat} {pos e : Nat}

/-! ### The parser -/

theorem parseElemsT_val (fuel pos left : Nat) (elems : Elems) (unknown : Nat) :
    (parseElemsT obj base buf fuel pos left elems unknown).val = parseElemsLoop buf fuel pos left elems unknown := by
  induction fuel generalizing pos left elems unknown with
  | zero => rfl
  | succ fuel ih =>
    unfold parseElemsT parseElemsLoop
    by_cases hleft : left ≥ 2
    · rw [if_pos hleft, if_pos hleft, val_bind]
      dsimp only
      by_cases helen : byteAt buf (pos + 1) > left - 2
      · rw [if_pos helen, if_pos helen]
        rfl
      · rw [if_neg helen, if_neg helen, val_bind, val_bind]
        cases if byteAt buf pos = 221 then vendorSpecific? buf (pos + 2) (byteAt buf (pos + 1))
          else elemKind? (byteAt buf pos) with
        | some k => exact ih _ _ _ _
        | none => exact ih _ _ _ _
    · rw [if_neg hleft, if_neg hleft]
      rfl

theorem within_parseElemsT (fuel pos left : Nat) (elems : Elems) (unknown : Nat)
    (h : base + pos + left ≤ size obj) :
    Within size (parseElemsT obj base buf fuel pos left elems unknown) := by
  induction fuel generalizing pos left elems unknown with
  | zero => exact within_pure
  | succ fuel ih =>
    unfold parseElemsT
    by_cases hleft : left ≥ 2
    · rw [if_pos hleft, within_bind]
      refine ⟨within_touch_nat.2 (.inr (by omega)), ?_⟩
      dsimp only
      by_cases helen : byteAt buf (pos + 1) > left - 2
      · rw [if_pos helen]
        exact within_pure
      · rw [if_neg helen, within_bind, within_bind]
        refine ⟨within_touchIf.2 fun hv => within_touch_nat.2 (.inr (by omega)),
          within_touchIf.2 fun hv => within_touch_nat.2 (.inr (by omega)), ?_⟩
        cases if byteAt buf pos = 221 then vendorSpecific? buf (pos + 2) (byteAt buf (pos + 1))
          else elemKind? (byteAt buf pos) with
        | some k => exact ih _ _ _ _ (by omega)
        | none => exact ih _ _ _ _ (by omega)
    · rw [if_neg hleft]
      exact within_pure

/-- A list that is not refused is tiled by its elements. -/
theorem tiling_of_parse (fuel pos left : Nat) (elems : Elems) (unknown : Nat)
    (h : (parseElemsLoop buf fuel pos left elems unknown).1 ≠ .parseFailed) :
    Tiling buf (ieOffsets buf fuel pos (pos + left)) pos (pos + left) := by
  induction fuel generalizing pos left elems unknown with
  | zero => exact absurd rfl h
  | succ fuel ih =>
    unfold parseElemsLoop at h
    unfold ieOffsets
    by_cases hleft : left ≥ 2
    · rw [if_pos hleft] at h
      rw [if_pos (by omega)]
      dsimp only at h
      by_cases helen : byteAt buf (pos + 1) > left - 2
      · rw [if_pos helen] at h
        exact absurd rfl h
      · rw [if_neg helen] at h
        have hrest : pos + left = pos + 2 + byteAt buf (pos + 1) + (left - 2 - byteAt buf (pos + 1)) := by omega
        refine ⟨rfl, by omega, ?_⟩
        rw [hrest]
        split at h
        · exact ih _ _ _ _ h
        · exact ih _ _ _ _ h
    · rw [if_neg hleft] at h
      rw [if_neg (by omega)]
      by_cases hz : left ≠ 0
      · rw [if_pos hz] at h
        exact absurd rfl h
      · show pos = pos + left
        omega

/-- What the parser points to is inside the list, with its header, and a WPA element has its OUI. -/
def ElemsIn (elems : Elems) (e : Nat) : Prop :=
  ∀ k p len, elems k = some (p, len) → 2 ≤ p ∧ p + len ≤ e ∧ (k = .wpaIe → 4 ≤ len)

theorem elemKind_ne_wpaIe (id : Nat) : elemKind? id ≠ some .wpaIe := by
  unfold elemKind?
  split <;> simp

theorem vendorSpecific_le {k : ElemKind} {elen : Nat} (h : vendorSpecific? buf pos elen = some k) : 4 ≤ elen := by
  unfold vendorSpecific? at h
  by_cases hlen : elen < 4
  · simp [hlen] at h
  · exact Nat.not_lt.1 hlen

theorem le_of_wpaIe {id elen : Nat}
    (h : (if id = 221 then vendorSpecific? buf pos elen else elemKind? id) = some .wpaIe) : 4 ≤ elen := by
  by_cases hid : id = 221
  · rw [if_pos hid] at h
    exact vendorSpecific_le h
  · rw [if_neg hid] at h
    exact absurd h (elemKind_ne_wpaIe id)

theorem elemsIn_of_parse (fuel pos left : Nat) (elems : Elems) (unknown : Nat) (h : ElemsIn elems (pos + left)) :
    ElemsIn (parseElemsLoop buf fuel pos left elems unknown).2 (pos + left) := by
  induction fuel generalizing pos left elems unknown with
  | zero => exact h
  | succ fuel ih =>
    unfold parseElemsLoop
    by_cases hleft : left ≥ 2
    · rw [if_pos hleft]
      dsimp only
      by_cases helen : byteAt buf (pos + 1) > left - 2
      · rw [if_pos helen]
        exact h
      · rw [if_neg helen]
        have hrest : pos + left = pos + 2 + byteAt buf (pos + 1) + (left - 2 - byteAt buf (pos + 1)) := by omega
        rw [hrest] at h ⊢
        split
        · rename_i k hkind
          refine ih _ _ _ _ fun k' p len hk => ?_
          by_cases hkk : k' = k
          · subst hkk
            rw [Function.update_self] at hk
            obtain ⟨rfl, rfl⟩ := Prod.mk.inj (Option.some.inj hk)
            refine ⟨Nat.le_add_left 2 pos, Nat.le_add_right _ _, ?_⟩
            rintro rfl
            exact le_of_wpaIe hkind
          · rw [Function.update_of_ne hkk] at hk
            exact h k' p len hk
        · exact ih _ _ _ _ h
    · rw [if_neg hleft]
      split
      · exact h
      · exact h

/-! ### The search -/

theorem Tiling.le (h : Tiling buf vs pos e) : pos ≤ e := by
  induction vs generalizing pos with
  | nil => exact Nat.le_of_eq h
  | cons v vs ih =>
    have := ih h.2.2
    omega

theorem Tiling.length_le (h : Tiling buf vs pos e) : pos + 2 * vs.length ≤ e := by
  induction vs generalizing pos with
  | nil => exact Nat.le_of_eq h
  | cons v vs ih =>
    have := ih h.2.2
    rw [List.length_cons]
    omega

theorem Tiling.behind {us : List Nat} {v : Nat} (h : Tiling buf (us ++ v :: vs) pos e) :
    pos ≤ v ∧ v + 2 + byteAt buf (v + 1) ≤ e ∧ Tiling buf vs (v + 2 + byteAt buf (v + 1)) e := by
  induction us generalizing pos with
  | nil =>
    obtain ⟨rfl, hle, hrest⟩ := h
    exact ⟨Nat.le_refl _, hle, hrest⟩
  | cons u us ih =>
    obtain ⟨h1, h2⟩ := ih h.2.2
    exact ⟨by omega, h2⟩

theorem Tiling.behind_of_mem {v : Nat} (h : Tiling buf vs pos e) (hv : v ∈ vs) : v + 2 + byteAt buf (v + 1) ≤ e := by
  obtain ⟨us, ws, rfl⟩ := List.append_of_mem hv
  exact h.behind.2.1

/-- The search over a tiled rest: it finds the first element `index` and stays inside, or it comes to the end, and
goes on behind it unless the limit has been reached there. -/
theorem rtwGetIeLoopT_spec {q i fuel : Nat} (index : Nat) (h : Tiling buf vs (q + i) e) (hfuel : vs.length < fuel)
    (hsize : size obj = base + e) (hi : i < e) :
    match vs.find? fun v => byteAt buf v = index with
    | some v => Within size (rtwGetIeLoopT obj base buf index e q fuel i) ∧
        (rtwGetIeLoopT obj base buf index e q fuel i).val = some (v, byteAt buf (v + 1))
    | none => (Within size (rtwGetIeLoopT obj base buf index e q fuel i) ↔ q = 0) ∧
        (q = 0 → (rtwGetIeLoopT obj base buf index e q fuel i).val = none) := by
  induction vs generalizing i fuel with
  | nil =>
    obtain ⟨fuel, rfl⟩ : ∃ n, fuel = n + 1 := ⟨fuel - 1, by simp at hfuel; omega⟩
    have hend : q + i = e := h
    refine ⟨iff_of_false (fun hw => ?_) (by omega), fun hq => by omega⟩
    have htouch := within_touch_nat.1 (within_bind.1 hw).1
    omega
  | cons v vs ih =>
    obtain ⟨fuel, rfl⟩ : ∃ n, fuel = n + 1 := ⟨fuel - 1, by simp at hfuel; omega⟩
    obtain ⟨rfl, hle, hrest⟩ := h
    have htouch : Within size (touch obj (base + (q + i) : Nat) 2) := within_touch_nat.2 (.inr (by omega))
    unfold rtwGetIeLoopT
    rw [List.find?_cons]
    by_cases hid : byteAt buf (q + i) = index
    · simp only [hid, decide_true, if_true, within_bind, within_pure, and_true, val_bind, val_pure]
      exact htouch
    · simp only [hid, decide_false, if_false, within_bind, htouch, true_and, val_bind]
      have hpos : q + i + 2 + byteAt buf (q + i + 1) = q + (i + (byteAt buf (q + i + 1) + 2)) := by omega
      rw [hpos] at hrest
      by_cases hlim : i + (byteAt buf (q + i + 1) + 2) ≥ e
      · -- the end of the list, with nothing behind `q` skipped
        have hq : q = 0 := by omega
        have hnil : vs = [] := List.length_eq_zero_iff.1 (by have := hrest.length_le; omega)
        rw [if_pos hlim, hnil]
        exact ⟨iff_of_true within_pure hq, fun _ => rfl⟩
      · rw [if_neg hlim]
        exact ih hrest (by simpa using hfuel) (Nat.lt_of_not_le hlim)

theorem rtwGetIeT_spec {index : Nat} (h : Tiling buf vs 0 e) (hsize : size obj = base + e) :
    Within size (rtwGetIeT obj base buf index e 0) ∧ (rtwGetIeT obj base buf index e 0).val =
      (vs.find? fun v => byteAt buf v = index).map fun v => (v, byteAt buf (v + 1)) := by
  unfold rtwGetIeT
  by_cases he : e < 1
  · have hnil : vs = [] := List.length_eq_zero_iff.1 (by have := h.length_le; omega)
    rw [if_pos he, hnil]
    exact ⟨within_pure, rfl⟩
  · rw [if_neg he]
    have hfuel : vs.length < e := by
      have := h.length_le
      omega
    have hspec := rtwGetIeLoopT_spec (i := 0) index h hfuel hsize (by omega)
    cases hf : vs.find? fun v => byteAt buf v = index with
    | some v =>
      rw [hf] at hspec
      exact hspec
    | none =>
      rw [hf] at hspec
      exact ⟨hspec.1.2 rfl, hspec.2 rfl⟩

end

end Rtw
