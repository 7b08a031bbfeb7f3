import Rtw.Mlme.IeItems
import Rtw.Mlme.IeList

/-!
# The four searches for an element

`rtw_get_ie`, `rtw_get_ie_ex`, `rtw_get_wps_ie` and `rtw_get_p2p_ie` walk over the elements below a limit. None of them
looks whether the element at hand ends below it: `searchOk_iff` says for which strings they stay there all the same.
-/

namespace Rtw
open Access Traced Tlv

/-- The comparison of `len` bytes of the memory at `off` with an OUI. -/
def memcmpAt (mem : List UInt8) (off : Nat) (oui : List UInt8) : Bool :=
  (List.range oui.length).map (fun i => byteAt mem (off + i)) = oui.map UInt8.toNat

/-- The loop of `rtw_get_ie_ex`; `ie` and `ielen` tell whether the pointers are given. -/
def rtwGetIeExLoopT (inIe : List UInt8) (inLen : Nat) (eid : UInt8) (oui : Option (List UInt8)) (ie ielen : Bool) :
    Nat → Nat → Traced Unit (Option (Nat × Nat))
  | 0, _ => pure none
  | fuel + 1, cnt =>
    if cnt < inLen then do
      touch () (cnt : Nat) 1
      touchIf (byteAt inIe cnt = eid.toNat) () (cnt + 2 : Nat) (oui.getD []).length
      if byteAt inIe cnt = eid.toNat ∧ (oui.all fun o => memcmpAt inIe (cnt + 2) o) then
        touchIf (ie ∨ ielen) () (cnt + 1 : Nat) 1
        touchIf ie () (cnt : Nat) (byteAt inIe (cnt + 1) + 2)
        return some (cnt, byteAt inIe (cnt + 1) + 2)
      else
        touch () (cnt + 1 : Nat) 1
        rtwGetIeExLoopT inIe inLen eid oui ie ielen fuel (cnt + (byteAt inIe (cnt + 1) + 2))
    else pure none

def rtwGetIeExT (inIe : List UInt8) (inLen : Nat) (eid : UInt8) (oui : Option (List UInt8)) (ie ielen : Bool) :
    Traced Unit (Option (Nat × Nat)) :=
  rtwGetIeExLoopT inIe inLen eid oui ie ielen inLen 0

/-- The loop of `rtw_get_wps_ie` and `rtw_get_p2p_ie`, which differ in the OUI. -/
def vendorIeLoopT (oui inIe : List UInt8) (inLen : Nat) (ie ielen : Bool) :
    Nat → Nat → Traced Unit (Option (Nat × Nat))
  | 0, _ => pure none
  | fuel + 1, cnt =>
    if cnt + 1 + 4 < inLen then do
      touch () (cnt : Nat) 1
      -- MAX_IE_SZ
      if cnt + 1 + 4 ≥ 768 then return none
      else
        touchIf (byteAt inIe cnt = 221) () (cnt + 2 : Nat) 4
        if byteAt inIe cnt = 221 ∧ memcmpAt inIe (cnt + 2) oui then
          touchIf (ie ∨ ielen) () (cnt + 1 : Nat) 1
          touchIf ie () (cnt : Nat) (byteAt inIe (cnt + 1) + 2)
          return some (cnt, byteAt inIe (cnt + 1) + 2)
        else
          touch () (cnt + 1 : Nat) 1
          vendorIeLoopT oui inIe inLen ie ielen fuel (cnt + (byteAt inIe (cnt + 1) + 2))
    else pure none

def wpsOui : List UInt8 := [0x00, 0x50, 0xf2, 0x04]
def p2pOui : List UInt8 := [0x50, 0x6F, 0x9A, 0x09]

def rtwGetWpsIeT (inIe : List UInt8) (inLen : Nat) (ie ielen : Bool) : Traced Unit (Option (Nat × Nat)) :=
  vendorIeLoopT wpsOui inIe inLen ie ielen inLen 0

def rtwGetP2pIeT (inIe : List UInt8) (inLen : Nat) (ie ielen : Bool) : Traced Unit (Option (Nat × Nat)) :=
  vendorIeLoopT p2pOui inIe inLen ie ielen inLen 0

/-- A call of one of the searches. -/
inductive IeSearch where
  | getIe (index : Nat)
  | getIeEx (eid : UInt8) (oui : Option (List UInt8)) (ie ielen : Bool)
  | getWpsIe (ie ielen : Bool)
  | getP2pIe (ie ielen : Bool)

namespace IeSearch

/-- What is found, with its length, and what is read below and behind the limit. A limit below 1 is like 0. -/
def runT (buf : List UInt8) (limit : Nat) : IeSearch → Traced Unit (Option (Nat × Nat))
  | getIe index => do
    let r ← rtwGetIeT () 0 buf index limit 0
    return r.map fun e => (e.1, e.2 + 2)
  | getIeEx eid oui ie ielen => rtwGetIeExT buf limit eid oui ie ielen
  | getWpsIe ie ielen => rtwGetWpsIeT buf limit ie ielen
  | getP2pIe ie ielen => rtwGetP2pIeT buf limit ie ielen

end IeSearch

/-- Only bytes below the limit are read, and what is found ends there; its header is not counted in the length that the
search gives when `hdr` is not 0. -/
def SearchOk (hdr limit : Nat) (m : Traced Unit (Option (Nat × Nat))) : Prop :=
  Within (fun _ => limit) m ∧ ∀ pos len, m.val = some (pos, len) → pos + hdr + len ≤ limit

namespace IeSearch

/-- The comparison succeeds at the element `x` with `post` behind it. -/
def Hit (x : Ie) (post : List UInt8) : IeSearch → Prop
  | getIe index => x.id = index
  | getIeEx eid oui _ _ => x.tag = eid ∧ ∀ o ∈ oui, o <+: x.data ++ post
  | getWpsIe _ _ => x.id = 221 ∧ wpsOui <+: x.data ++ post
  | getP2pIe _ _ => x.id = 221 ∧ p2pOui <+: x.data ++ post

/-- The OUI of `rtw_get_ie_ex` is no longer than what there is behind the header to compare it with. -/
def CmpIn (x : Ie) (post : List UInt8) : IeSearch → Prop
  | getIeEx eid oui _ _ => x.tag = eid → ∀ o ∈ oui, o.length ≤ (x.data ++ post).length
  | getIe _ | getWpsIe _ _ | getP2pIe _ _ => True

/-- What the last bytes below the limit must be, at `pos`, when no element begins there that ends below it. -/
def RestOk (r : List UInt8) (pos : Nat) : IeSearch → Prop
  | getIe index => r = [] ∨ 2 ≤ r.length ∧ byteAt r 0 ≠ index
  | getIeEx eid oui _ _ => r = [] ∨ 2 ≤ r.length ∧
      (byteAt r 0 = eid.toNat → ∃ o ∈ oui, 2 + o.length ≤ r.length ∧ ¬ o <+: r.drop 2)
  | getWpsIe _ _ => ¬ (6 ≤ r.length ∧ pos + 5 < 768 ∧ byteAt r 0 = 221 ∧ wpsOui <+: r.drop 2)
  | getP2pIe _ _ => ¬ (6 ≤ r.length ∧ pos + 5 < 768 ∧ byteAt r 0 = 221 ∧ p2pOui <+: r.drop 2)

/-- The walk over the complete elements from `pos` on, with `r` behind them: it stops at one of them, or the rest does
no harm. -/
def Good (q : IeSearch) (r : List UInt8) : Nat → List Ie → Prop
  | pos, [] => q.RestOk r pos
  | pos, x :: l => q.CmpIn x (bytes l ++ r) ∧ (q.Hit x (bytes l ++ r) ∨ q.Good r (pos + x.bytes.length) l)

end IeSearch

section
variable {hdr limit off len n cnt : Nat} {c : Prop} [Decidable c] {f : Unit → Traced Unit (Option (Nat × Nat))}
  {p r t o oui s : List UInt8} {x : Ie} {l : List Ie}

theorem searchOk_none : SearchOk hdr limit (pure none) :=
  ⟨within_pure, fun _ _ h => absurd h.symm (Option.some_ne_none _)⟩

theorem searchOk_some : SearchOk hdr limit (pure (some (off, len))) ↔ off + hdr + len ≤ limit := by
  constructor
  · exact fun h => h.2 off len rfl
  · intro h
    refine ⟨within_pure, fun pos len' hval => ?_⟩
    obtain ⟨rfl, rfl⟩ := Prod.mk.inj (Option.some.inj hval)
    exact h

theorem searchOk_touch : SearchOk hdr limit (touch () (off : Nat) len >>= f) ↔
    (len = 0 ∨ off + len ≤ limit) ∧ SearchOk hdr limit (f ()) := by
  unfold SearchOk
  rw [within_bind, within_touch_nat, and_assoc]
  rfl

theorem searchOk_touchIf : SearchOk hdr limit (touchIf c () (off : Nat) len >>= f) ↔
    (c → len = 0 ∨ off + len ≤ limit) ∧ SearchOk hdr limit (f ()) := by
  unfold SearchOk
  rw [within_bind, within_touchIf, within_touch_nat, and_assoc]
  rfl

/-- What is copied of an element that is found is the element. -/
theorem searchOk_found {c c' : Prop} [Decidable c] [Decidable c'] : SearchOk 0 limit (do
      touchIf c () (cnt + 1 : Nat) 1
      touchIf c' () (cnt : Nat) (n + 2)
      return some (cnt, n + 2)) ↔ cnt + (n + 2) ≤ limit := by
  rw [searchOk_touchIf, searchOk_touchIf]
  have hsome : SearchOk 0 limit (pure (some (cnt, n + 2))) ↔ cnt + 0 + (n + 2) ≤ limit := searchOk_some
  rw [hsome]
  omega

theorem memcmpAt_iff (h : o.length ≤ s.length) : memcmpAt (p ++ s) p.length o ↔ o <+: s := by
  have hmap : (List.range o.length).map (fun i => byteAt (p ++ s) (p.length + i)) =
      (s.take o.length).map UInt8.toNat := by
    refine List.ext_getElem (by simp [h]) fun i hi hi' => ?_
    have hs : i < s.length := by simp at hi; omega
    rw [List.getElem_map, List.getElem_range, byteAt_append_right, List.getElem_map, List.getElem_take, byteAt,
      List.getElem?_eq_getElem hs, Option.getD_some]
  rw [memcmpAt, decide_eq_true_iff, hmap, List.prefix_iff_eq_take]
  constructor
  · intro heq
    exact (List.map_injective_iff.2 (fun _ _ => UInt8.toNat_inj.1) heq).symm
  · intro heq
    rw [← heq]

/-- What is inside is compared without what is behind the limit. -/
theorem memcmpAt_in (h : o.length ≤ s.length) : memcmpAt (p ++ (s ++ t)) p.length o ↔ o <+: s := by
  rw [memcmpAt_iff (Nat.le_trans h (by rw [List.length_append]; exact Nat.le_add_right ..))]
  constructor
  · intro hpre
    exact List.prefix_of_prefix_length_le hpre (List.prefix_append s t) h
  · intro hpre
    exact hpre.trans (List.prefix_append s t)

/-- The length that a rest declares is more than it has. -/
theorem rest_lt (h : Cut ieFormat r) (hr : 2 ≤ r.length) : r.length < 2 + byteAt r 1 := by
  have hcut := cut_ie_iff.1 h
  omega

theorem byteAt_rest {i : Nat} (h : i < r.length) : byteAt (p ++ r ++ t) (p.length + i) = byteAt r i := by
  rw [List.append_assoc, byteAt_append_right, byteAt_append_left h]

theorem walk_cons : p ++ (bytes (x :: l) ++ r) ++ t = p ++ (x.bytes ++ (bytes l ++ r ++ t)) ∧
    p ++ (bytes (x :: l) ++ r) = p ++ x.bytes ++ (bytes l ++ r) ∧
    (p ++ (bytes (x :: l) ++ r)).length = p.length + (2 + x.data.length) + (bytes l ++ r).length ∧
    (p ++ x.bytes).length = p.length + x.bytes.length ∧ x.bytes.length = 2 + x.data.length := by
  refine ⟨?_, ?_, ?_, List.length_append, length_ie_bytes x⟩
  · rw [bytes_cons]
    simp only [List.append_assoc]
  · rw [bytes_cons]
    simp only [List.append_assoc]
  · rw [List.length_append, bytes_cons, List.append_assoc, List.length_append, length_ie_bytes]
    omega

/-! ### `rtw_get_ie` -/

theorem getIeLoop_rest (index fuel : Nat) (h : Cut ieFormat r) (hr : r ≠ []) :
    SearchOk 2 (p ++ r).length (rtwGetIeLoopT () 0 (p ++ r ++ t) index (p ++ r).length 0 (fuel + 1) p.length) ↔
      (IeSearch.getIe index).RestOk r p.length := by
  have hlen : (p ++ r).length = p.length + r.length := List.length_append
  unfold rtwGetIeLoopT IeSearch.RestOk
  simp only [Nat.zero_add]
  rw [searchOk_touch]
  by_cases h2 : 2 ≤ r.length
  · have hlong := rest_lt h h2
    have h0 : byteAt (p ++ r ++ t) p.length = byteAt r 0 := byteAt_rest (Nat.lt_of_lt_of_le Nat.zero_lt_two h2)
    rw [h0, byteAt_rest h2]
    by_cases hid : byteAt r 0 = index
    · rw [if_pos hid, hlen]
      have hsome : SearchOk 2 (p.length + r.length) (pure (some (p.length, byteAt r 1))) ↔ _ := searchOk_some
      rw [hsome]
      simp only [hr, hid, ne_eq, not_true, and_false, or_false, iff_false]
      omega
    · rw [if_neg hid, if_pos (by omega)]
      refine iff_of_true ⟨.inr (by omega), searchOk_none⟩ (.inr ⟨h2, hid⟩)
  · refine iff_of_false (fun hw => ?_) ?_
    · have := hw.1
      omega
    · rintro (h0 | hin)
      · exact hr h0
      · exact h2 hin.1

theorem getIeLoop_ok (index fuel : Nat) (h : Cut ieFormat r) (hne : bytes l ++ r ≠ [])
    (hfuel : (bytes l ++ r).length ≤ fuel) :
    SearchOk 2 (p ++ (bytes l ++ r)).length
        (rtwGetIeLoopT () 0 (p ++ (bytes l ++ r) ++ t) index (p ++ (bytes l ++ r)).length 0 fuel p.length) ↔
      (IeSearch.getIe index).Good r p.length l := by
  have hpos := List.length_pos_iff.2 hne
  obtain ⟨fuel, rfl⟩ := Nat.exists_eq_succ_of_ne_zero (show fuel ≠ 0 by omega)
  induction l generalizing p fuel with
  | nil => exact getIeLoop_rest index fuel h hne
  | cons x l ih =>
    obtain ⟨hmem, hbuf, hlen, hlen', hx⟩ := walk_cons (p := p) (x := x) (l := l) (r := r) (t := t)
    unfold rtwGetIeLoopT IeSearch.Good
    simp only [Nat.zero_add]
    rw [searchOk_touch, hmem, byteAt_at_ie.1, byteAt_at_ie.2]
    simp only [IeSearch.CmpIn, IeSearch.Hit, true_and]
    by_cases hid : x.id = index
    · rw [if_pos hid]
      have hsome : SearchOk 2 (p ++ (bytes (x :: l) ++ r)).length (pure (some (p.length, x.data.length))) ↔ _ :=
        searchOk_some
      rw [hsome]
      refine iff_of_true ⟨.inr ?_, ?_⟩ (.inl hid)
      · omega
      · omega
    · have hnext := length_behind_ie p x
      rw [if_neg hid, hnext, ← hmem]
      simp only [hid, false_or]
      rw [← hlen', and_iff_right (.inr (by omega))]
      by_cases hend : (p ++ x.bytes).length ≥ (p ++ (bytes (x :: l) ++ r)).length
      · have hnil : bytes l ++ r = [] := List.length_eq_zero_iff.1 (by omega)
        obtain ⟨hl, hr⟩ := List.append_eq_nil_iff.1 hnil
        cases l with
        | nil =>
          rw [if_pos hend]
          exact iff_of_true searchOk_none (.inl hr)
        | cons y l => exact absurd hl (List.append_ne_nil_of_left_ne_nil y.bytes_ne_nil _)
      · rw [if_neg hend, hbuf]
        have hrest : bytes l ++ r ≠ [] := List.ne_nil_of_length_pos (by omega)
        have hfuel' : (bytes l ++ r).length ≤ fuel := by
          rw [bytes_cons, List.append_assoc, List.length_append] at hfuel
          omega
        obtain ⟨fuel, rfl⟩ := Nat.exists_eq_succ_of_ne_zero (show fuel ≠ 0 by omega)
        exact ih hrest (by omega) fuel hfuel'

theorem getIe_ok (index : Nat) (h : Cut ieFormat r) :
    SearchOk 0 (bytes l ++ r).length ((IeSearch.getIe index).runT (bytes l ++ r ++ t) (bytes l ++ r).length) ↔
      (IeSearch.getIe index).Good r 0 l := by
  have hmap (m : Traced Unit (Option (Nat × Nat))) : SearchOk 0 (bytes l ++ r).length
      (m >>= fun e => pure (e.map fun e => (e.1, e.2 + 2))) ↔ SearchOk 2 (bytes l ++ r).length m := by
    unfold SearchOk
    simp only [within_bind, within_pure, and_true, val_bind, val_pure, Option.map_eq_some_iff, Prod.mk.injEq,
      Prod.exists]
    refine and_congr_right fun _ => ⟨fun hall pos len hval => ?_, ?_⟩
    · have := hall pos (len + 2) ⟨pos, len, hval, rfl, rfl⟩
      omega
    · rintro hall pos len ⟨pos', len', hval, rfl, rfl⟩
      have := hall pos' len' hval
      omega
  unfold IeSearch.runT
  dsimp only
  rw [hmap]
  unfold rtwGetIeT
  by_cases hne : bytes l ++ r = []
  · obtain ⟨hl, hr⟩ := List.append_eq_nil_iff.1 hne
    rw [hne, if_pos (show ([] : List UInt8).length < 1 from Nat.zero_lt_one)]
    cases l with
    | nil => exact iff_of_true searchOk_none (.inl hr)
    | cons y l => exact absurd hl (List.append_ne_nil_of_left_ne_nil y.bytes_ne_nil _)
  · have hpos := List.length_pos_iff.2 hne
    rw [if_neg (by omega)]
    exact getIeLoop_ok (p := []) index _ h hne (Nat.le_refl _)

/-! ### `rtw_get_ie_ex` -/

section
variable {eid : UInt8} {ie ielen : Bool} {fuel : Nat} {oui : Option (List UInt8)}

theorem memcmpAt_drop (h : 2 + o.length ≤ s.length) : memcmpAt (p ++ s ++ t) (p.length + 2) o ↔ o <+: s.drop 2 := by
  have hmem : p ++ s ++ t = (p ++ s.take 2) ++ (s.drop 2 ++ t) := by
    rw [List.append_assoc, List.append_assoc, ← List.append_assoc (s.take 2), List.take_append_drop]
  have hlen : (p ++ s.take 2).length = p.length + 2 := by
    rw [List.length_append, List.length_take_of_le (by omega)]
  rw [hmem, ← hlen]
  exact memcmpAt_in (by rw [List.length_drop]; omega)

theorem exLoop_end {inIe : List UInt8} {inLen : Nat} (h : inLen ≤ cnt) :
    rtwGetIeExLoopT inIe inLen eid oui ie ielen fuel cnt = pure none := by
  cases fuel with
  | zero => rfl
  | succ fuel => exact if_neg (Nat.not_lt.2 h)

theorem exLoop_step {inIe : List UInt8} {inLen : Nat} (h : cnt < inLen) :
    SearchOk 0 inLen (rtwGetIeExLoopT inIe inLen eid oui ie ielen (fuel + 1) cnt) ↔
      (byteAt inIe cnt = eid.toNat → ∀ o ∈ oui, o.length = 0 ∨ cnt + 2 + o.length ≤ inLen) ∧
      if byteAt inIe cnt = eid.toNat ∧ ∀ o ∈ oui, memcmpAt inIe (cnt + 2) o then
        cnt + (byteAt inIe (cnt + 1) + 2) ≤ inLen
      else cnt + 2 ≤ inLen ∧
        SearchOk 0 inLen (rtwGetIeExLoopT inIe inLen eid oui ie ielen fuel (cnt + (byteAt inIe (cnt + 1) + 2))) := by
  have hall : (oui.all fun o => memcmpAt inIe (cnt + 2) o) ↔ ∀ o ∈ oui, memcmpAt inIe (cnt + 2) o := by
    cases oui <;> simp
  have hcmp : (oui.getD []).length = 0 ∨ cnt + 2 + (oui.getD []).length ≤ inLen ↔
      ∀ o ∈ oui, o.length = 0 ∨ cnt + 2 + o.length ≤ inLen := by
    cases oui <;> simp
  rw [rtwGetIeExLoopT, if_pos h, searchOk_touch, searchOk_touchIf, and_iff_right (.inr h), hcmp]
  refine and_congr_right fun _ => ?_
  simp only [hall]
  by_cases hhit : byteAt inIe cnt = eid.toNat ∧ ∀ o ∈ oui, memcmpAt inIe (cnt + 2) o
  · rw [if_pos hhit, if_pos hhit]
    exact searchOk_found
  · rw [if_neg hhit, if_neg hhit, searchOk_touch]
    simp only [Nat.one_ne_zero, false_or, Nat.add_assoc, Nat.reduceAdd]

/-- A rest that is taken for the element is not below the limit. -/
theorem not_rest_le (h : Cut ieFormat r) :
    ¬ p.length + (byteAt (p ++ r ++ t) (p.length + 1) + 2) ≤ (p ++ r).length := by
  rw [List.length_append]
  by_cases h2 : 2 ≤ r.length
  · rw [byteAt_rest h2]
    have := rest_lt h h2
    omega
  · omega

theorem getIeExLoop_rest (h : Cut ieFormat r) (hr : r ≠ []) :
    SearchOk 0 (p ++ r).length (rtwGetIeExLoopT (p ++ r ++ t) (p ++ r).length eid oui ie ielen (fuel + 1) p.length) ↔
      (IeSearch.getIeEx eid oui ie ielen).RestOk r p.length := by
  have hlen : (p ++ r).length = p.length + r.length := List.length_append
  have hpos := List.length_pos_iff.2 hr
  have hlong := not_rest_le (p := p) (t := t) h
  have h0 : byteAt (p ++ r ++ t) p.length = byteAt r 0 := byteAt_rest hpos
  have hcmp (o : List UInt8) (ho : 2 + o.length ≤ r.length) := memcmpAt_drop (p := p) (t := t) ho
  rw [exLoop_step (by omega), exLoop_end (by omega), h0]
  simp only [IeSearch.RestOk, hr, false_or, hlong, searchOk_none, and_true]
  by_cases hid : byteAt r 0 = eid.toNat
  · simp only [hid, true_and, true_imp_iff]
    cases oui with
    | none => simp
    | some o =>
      simp only [Option.mem_some_iff, forall_eq', exists_eq_left']
      by_cases ho : 2 + o.length ≤ r.length
      · simp only [hcmp o ho]
        by_cases hpre : o <+: r.drop 2
        · simp [hpre]
        · simp only [hpre, if_false, ho, not_false_eq_true, and_true]
          omega
      · by_cases hnil : o = []
        · subst hnil
          simp [memcmpAt]
        · have hlo := List.length_pos_iff.2 hnil
          simp only [ho, false_and, and_false, iff_false, not_and]
          omega
  · simp only [hid, false_and, if_false, false_imp_iff, true_and, and_true]
    omega

theorem getIeExLoop_ok (h : Cut ieFormat r) (hfuel : (bytes l ++ r).length ≤ fuel) :
    SearchOk 0 (p ++ (bytes l ++ r)).length
        (rtwGetIeExLoopT (p ++ (bytes l ++ r) ++ t) (p ++ (bytes l ++ r)).length eid oui ie ielen fuel p.length) ↔
      (IeSearch.getIeEx eid oui ie ielen).Good r p.length l := by
  induction l generalizing p fuel with
  | nil =>
    by_cases hr : r = []
    · subst hr
      rw [exLoop_end (Nat.le_of_eq (by simp))]
      exact iff_of_true searchOk_none (.inl rfl)
    · have hpos := List.length_pos_iff.2 hr
      rw [bytes_nil, List.nil_append] at hfuel
      obtain ⟨fuel, rfl⟩ := Nat.exists_eq_succ_of_ne_zero (show fuel ≠ 0 by omega)
      exact getIeExLoop_rest h hr
  | cons x l ih =>
    obtain ⟨hmem, hbuf, hlen, hlen', hx⟩ := walk_cons (p := p) (x := x) (l := l) (r := r) (t := t)
    have hcount : (bytes (x :: l) ++ r).length = 2 + x.data.length + (bytes l ++ r).length := by
      rw [List.length_append] at hlen
      omega
    obtain ⟨fuel, rfl⟩ := Nat.exists_eq_succ_of_ne_zero (show fuel ≠ 0 by omega)
    have hnext := length_behind_ie p x
    have hid : byteAt (p ++ (bytes (x :: l) ++ r) ++ t) p.length = x.id := by rw [hmem, byteAt_at_ie.1]
    have hxlen : byteAt (p ++ (bytes (x :: l) ++ r) ++ t) (p.length + 1) = x.data.length := by
      rw [hmem, byteAt_at_ie.2]
    have hcmp (o : List UInt8) (ho : o.length ≤ (x.data ++ (bytes l ++ r)).length) :
        memcmpAt (p ++ (bytes (x :: l) ++ r) ++ t) (p.length + 2) o ↔ o <+: x.data ++ (bytes l ++ r) := by
      have hdrop := memcmpAt_drop (p := p) (t := t) (s := x.bytes ++ (bytes l ++ r)) (o := o)
        (by rw [List.length_append, hx]; rw [List.length_append] at ho; omega)
      rw [bytes_cons, List.append_assoc x.bytes]
      exact hdrop
    have hrest := ih (p := p ++ x.bytes) (show (bytes l ++ r).length ≤ fuel by omega)
    rw [← hbuf] at hrest
    rw [exLoop_step (by omega), hid, hxlen, hnext, hrest]
    have htag : x.id = eid.toNat ↔ x.tag = eid := UInt8.toNat_inj
    simp only [IeSearch.Good, IeSearch.CmpIn, IeSearch.Hit, htag]
    have hin (o : List UInt8) : (o.length = 0 ∨ p.length + 2 + o.length ≤ (p ++ (bytes (x :: l) ++ r)).length) ↔
        o.length ≤ (x.data ++ (bytes l ++ r)).length := by
      have hpost : (x.data ++ (bytes l ++ r)).length = x.data.length + (bytes l ++ r).length := List.length_append
      omega
    simp only [hin]
    refine and_congr_right fun hcmpIn => ?_
    have hhit : (x.tag = eid ∧ ∀ o ∈ oui, memcmpAt (p ++ (bytes (x :: l) ++ r) ++ t) (p.length + 2) o) ↔
        x.tag = eid ∧ ∀ o ∈ oui, o <+: x.data ++ (bytes l ++ r) :=
      and_congr_right fun heid => forall₂_congr fun o ho => hcmp o (hcmpIn heid o ho)
    simp only [hhit]
    by_cases hh : x.tag = eid ∧ ∀ o ∈ oui, o <+: x.data ++ (bytes l ++ r)
    · rw [if_pos hh]
      exact iff_of_true (by omega) (.inl hh)
    · rw [if_neg hh, or_iff_right hh, hlen', and_iff_right (by omega)]

end

/-! ### `rtw_get_wps_ie` and `rtw_get_p2p_ie` -/

section
variable {ie ielen : Bool} {fuel : Nat}

theorem vendorLoop_end {inIe : List UInt8} {inLen : Nat} (h : inLen ≤ cnt + 5 ∨ 768 ≤ cnt + 5) :
    SearchOk 0 inLen (vendorIeLoopT oui inIe inLen ie ielen fuel cnt) := by
  cases fuel with
  | zero => exact searchOk_none
  | succ fuel =>
    unfold vendorIeLoopT
    by_cases hlt : cnt + 1 + 4 < inLen
    · rw [if_pos hlt, searchOk_touch, if_pos (by omega)]
      exact ⟨.inr (by omega), searchOk_none⟩
    · rw [if_neg hlt]
      exact searchOk_none

theorem vendorLoop_step {inIe : List UInt8} {inLen : Nat} (h : cnt + 5 < inLen) (h' : cnt + 5 < 768) :
    SearchOk 0 inLen (vendorIeLoopT oui inIe inLen ie ielen (fuel + 1) cnt) ↔
      if byteAt inIe cnt = 221 ∧ memcmpAt inIe (cnt + 2) oui then cnt + (byteAt inIe (cnt + 1) + 2) ≤ inLen
      else SearchOk 0 inLen (vendorIeLoopT oui inIe inLen ie ielen fuel (cnt + (byteAt inIe (cnt + 1) + 2))) := by
  rw [vendorIeLoopT, if_pos (by omega), searchOk_touch, if_neg (by omega), searchOk_touchIf,
    and_iff_right (.inr (by omega)), and_iff_right fun _ => .inr (by omega)]
  by_cases hhit : byteAt inIe cnt = 221 ∧ memcmpAt inIe (cnt + 2) oui
  · rw [if_pos hhit, if_pos hhit]
    exact searchOk_found
  · rw [if_neg hhit, if_neg hhit, searchOk_touch, and_iff_right (.inr (by omega))]

/-- What `rtw_get_wps_ie` and `rtw_get_p2p_ie` need of the elements from `pos` on. -/
def VendorGood (oui r : List UInt8) : Nat → List Ie → Prop
  | pos, [] => ¬ (6 ≤ r.length ∧ pos + 5 < 768 ∧ byteAt r 0 = 221 ∧ oui <+: r.drop 2)
  | pos, x :: l => (x.id = 221 ∧ oui <+: x.data ++ (bytes l ++ r)) ∨ VendorGood oui r (pos + x.bytes.length) l

theorem vendorGood_of_short {pos : Nat} (h : (bytes l ++ r).length ≤ 5 ∨ 768 ≤ pos + 5) : VendorGood oui r pos l := by
  induction l generalizing pos with
  | nil =>
    rintro ⟨h6, hpos, -⟩
    rw [bytes_nil, List.nil_append] at h
    omega
  | cons x l ih =>
    rw [bytes_cons, List.append_assoc, List.length_append] at h
    exact .inr (ih (by omega))

theorem vendorLoop_ok (ho : oui.length = 4) (h : Cut ieFormat r) (hfuel : (bytes l ++ r).length ≤ fuel) :
    SearchOk 0 (p ++ (bytes l ++ r)).length
        (vendorIeLoopT oui (p ++ (bytes l ++ r) ++ t) (p ++ (bytes l ++ r)).length ie ielen fuel p.length) ↔
      VendorGood oui r p.length l := by
  induction l generalizing p fuel with
  | nil =>
    have hlen : (p ++ (bytes ([] : List Ie) ++ r)).length = p.length + r.length := List.length_append
    by_cases hend : r.length ≤ 5 ∨ 768 ≤ p.length + 5
    · exact iff_of_true (vendorLoop_end (by omega)) (vendorGood_of_short hend)
    · rw [bytes_nil, List.nil_append] at hfuel hlen ⊢
      obtain ⟨fuel, rfl⟩ := Nat.exists_eq_succ_of_ne_zero (show fuel ≠ 0 by omega)
      have hlong := not_rest_le (p := p) (t := t) h
      have hcut := rest_lt h (by omega)
      have hid : byteAt (p ++ r ++ t) p.length = byteAt r 0 := byteAt_rest (show 0 < r.length by omega)
      have hcmp : memcmpAt (p ++ r ++ t) (p.length + 2) oui ↔ oui <+: r.drop 2 := memcmpAt_drop (by omega)
      rw [vendorLoop_step (by omega) (by omega), hid, VendorGood]
      simp only [hcmp]
      by_cases hhit : byteAt r 0 = 221 ∧ oui <+: r.drop 2
      · rw [if_pos hhit]
        exact iff_of_false hlong fun hn => hn ⟨by omega, by omega, hhit⟩
      · rw [if_neg hhit]
        refine iff_of_true (vendorLoop_end (.inl ?_)) fun hn => hhit hn.2.2
        rw [byteAt_rest (by omega)]
        omega
  | cons x l ih =>
    obtain ⟨hmem, hbuf, hlen, hlen', hx⟩ := walk_cons (p := p) (x := x) (l := l) (r := r) (t := t)
    have hcount : (bytes (x :: l) ++ r).length = 2 + x.data.length + (bytes l ++ r).length := by
      rw [List.length_append] at hlen
      omega
    by_cases hend : (bytes (x :: l) ++ r).length ≤ 5 ∨ 768 ≤ p.length + 5
    · refine iff_of_true (vendorLoop_end ?_) (vendorGood_of_short hend)
      rw [hcount] at hend
      omega
    · obtain ⟨fuel, rfl⟩ := Nat.exists_eq_succ_of_ne_zero (show fuel ≠ 0 by omega)
      have hnext := length_behind_ie p x
      have hid : byteAt (p ++ (bytes (x :: l) ++ r) ++ t) p.length = x.id := by rw [hmem, byteAt_at_ie.1]
      have hxlen : byteAt (p ++ (bytes (x :: l) ++ r) ++ t) (p.length + 1) = x.data.length := by
        rw [hmem, byteAt_at_ie.2]
      have hcmp : memcmpAt (p ++ (bytes (x :: l) ++ r) ++ t) (p.length + 2) oui ↔ oui <+: x.data ++ (bytes l ++ r) := by
        have hdrop := memcmpAt_drop (p := p) (t := t) (s := x.bytes ++ (bytes l ++ r)) (o := oui)
          (by rw [← List.append_assoc, ← bytes_cons]; omega)
        rw [bytes_cons, List.append_assoc x.bytes]
        exact hdrop
      have hrest := ih (p := p ++ x.bytes) (show (bytes l ++ r).length ≤ fuel by omega)
      rw [← hbuf] at hrest
      rw [vendorLoop_step (by omega) (by omega), hid, hxlen, hnext, hrest, VendorGood]
      simp only [hcmp]
      rw [← hlen']
      by_cases hh : x.id = 221 ∧ oui <+: x.data ++ (bytes l ++ r)
      · rw [if_pos hh]
        exact iff_of_true (by omega) (.inl hh)
      · rw [if_neg hh, or_iff_right hh]

theorem good_getWpsIe {pos : Nat} : (IeSearch.getWpsIe ie ielen).Good r pos l ↔ VendorGood wpsOui r pos l := by
  induction l generalizing pos with
  | nil => exact Iff.rfl
  | cons x l ih => exact (and_iff_right trivial).trans (or_congr_right ih)

theorem good_getP2pIe {pos : Nat} : (IeSearch.getP2pIe ie ielen).Good r pos l ↔ VendorGood p2pOui r pos l := by
  induction l generalizing pos with
  | nil => exact Iff.rfl
  | cons x l ih => exact (and_iff_right trivial).trans (or_congr_right ih)

end

end

/-- With any memory `t` behind the limit, a search stays below the limit exactly if its walk over the complete elements
of the string stops at one of them, or comes to an end that does no harm. -/
theorem searchOk_iff (q : IeSearch) (s t : List UInt8) : SearchOk 0 s.length (q.runT (s ++ t) s.length) ↔
    ∃ (l : List Ie) (r : List UInt8), s = bytes l ++ r ∧ Cut ieFormat r ∧ q.Good r 0 l := by
  have hiff (l : List Ie) (r : List UInt8) (h : Cut ieFormat r) :
      SearchOk 0 (bytes l ++ r).length (q.runT (bytes l ++ r ++ t) (bytes l ++ r).length) ↔ q.Good r 0 l := by
    cases q with
    | getIe index => exact getIe_ok index h
    | getIeEx eid oui ie ielen => exact getIeExLoop_ok (p := []) h (Nat.le_refl _)
    | getWpsIe ie ielen => exact (vendorLoop_ok (p := []) rfl h (Nat.le_refl _)).trans good_getWpsIe.symm
    | getP2pIe ie ielen => exact (vendorLoop_ok (p := []) rfl h (Nat.le_refl _)).trans good_getP2pIe.symm
  constructor
  · intro hok
    obtain ⟨l, r, rfl, hcut⟩ := exists_items ieFormat s
    exact ⟨l, r, rfl, hcut, (hiff l r hcut).1 hok⟩
  · rintro ⟨l, r, rfl, hcut, hgood⟩
    exact (hiff l r hcut).2 hgood

/-- The last byte below the limit is the id of an element. -/
theorem not_searchOk_header :
    ¬ ∀ (q : IeSearch) (s t : List UInt8), SearchOk 0 s.length (q.runT (s ++ t) s.length) := by
  intro h
  have hin := (h (.getIe 0) [5] []).1
  exact absurd hin (by decide)

section
variable {oui inIe : List UInt8} {inLen fuel cnt : Nat} {ie ielen : Bool} {r : Nat × Nat}

theorem val_vendorIeLoopT : (vendorIeLoopT p2pOui inIe inLen ie ielen fuel cnt).val =
    rtwGetP2pIeLoop inIe inLen fuel cnt := by
  induction fuel generalizing cnt with
  | zero => rfl
  | succ fuel ih =>
    have hcmp : memcmpAt inIe (cnt + 2) p2pOui ↔
        (List.range 4).map (fun i => byteAt inIe (cnt + 2 + i)) = [0x50, 0x6F, 0x9A, 0x09] := decide_eq_true_iff
    unfold vendorIeLoopT rtwGetP2pIeLoop
    by_cases hlt : cnt + 1 + 4 < inLen
    · rw [if_pos hlt, if_pos hlt, val_bind]
      by_cases hmax : cnt + 1 + 4 ≥ 768
      · rw [if_pos hmax, if_pos hmax]
        rfl
      · rw [if_neg hmax, if_neg hmax, val_bind]
        simp only [hcmp]
        split
        · rfl
        · exact ih
    · rw [if_neg hlt, if_neg hlt]
      rfl

/-- Without a copy of the element the search stays below the limit, wherever the element ends. -/
theorem within_vendorIeLoopT : Within (fun _ => inLen) (vendorIeLoopT oui inIe inLen false ielen fuel cnt) := by
  induction fuel generalizing cnt with
  | zero => exact within_pure
  | succ fuel ih =>
    unfold vendorIeLoopT
    split
    · case isTrue hlt =>
      rw [within_bind, within_touch_pos Nat.one_ne_zero]
      refine ⟨by omega, ?_⟩
      split
      · exact within_pure
      · rw [within_bind, within_touchIf, within_touch_pos (Nat.succ_ne_zero 3)]
        refine ⟨fun _ => by omega, ?_⟩
        split
        · rw [within_bind, within_bind, within_touchIf, within_touchIf, within_touch_pos Nat.one_ne_zero]
          exact ⟨fun _ => by omega, fun h => absurd h Bool.false_ne_true, within_pure⟩
        · rw [within_bind, within_touch_pos Nat.one_ne_zero]
          exact ⟨by omega, ih⟩
    · exact within_pure

/-- What is found begins at least six bytes below the limit. -/
theorem vendorIeLoopT_lt (h : (vendorIeLoopT oui inIe inLen ie ielen fuel cnt).val = some r) : r.1 + 6 ≤ inLen := by
  induction fuel generalizing cnt with
  | zero => cases h
  | succ fuel ih =>
    unfold vendorIeLoopT at h
    split at h
    · rw [val_bind] at h
      split at h
      · cases h
      · rw [val_bind] at h
        split at h
        · rw [val_bind, val_bind] at h
          obtain rfl := Option.some.inj h
          show cnt + 6 ≤ inLen
          omega
        · exact ih h
    · cases h

end

/-- `rtw_get_p2p_ie` is the one that the handlers call. -/
theorem rtwGetP2pIeT_val (inIe : List UInt8) (ie ielen : Bool) :
    (rtwGetP2pIeT inIe inIe.length ie ielen).val = rtwGetP2pIe inIe :=
  val_vendorIeLoopT

end Rtw
