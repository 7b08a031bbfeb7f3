import Rtw.Mlme.JoinIes

/-!
# What a join reads of the network

The searches for an element and the walk of `rtw_restruct_wmm_ie`, on a list of elements with a rest behind them that is
not one. A header is read where at least a byte is left, so a rest of one byte is too short for it; the comparison with the
OUI goes on behind the elements, and what is copied of a WMM element has nine bytes whatever its length is.
-/

namespace Rtw
open Access Traced Splice Tlv

/-- The search does not come to a last byte that is by itself. -/
def SearchEnds (index : Nat) (l : List Ie) (r : List UInt8) : Prop := r.length = 1 → ∃ y ∈ l, y.id = index

/-- `s` comes to its end before the comparison with `c` does. -/
def CutShort (s c : List UInt8) : Prop := s <+: c ∧ s ≠ c

/-- What is read at an element of the id, with `s` behind its header. -/
def WmmAt (id : UInt8) (s : List UInt8) : Prop := id = 0xdd → ¬CutShort s wmmOui ∧ (wmmOui <+: s → 7 ≤ s.length)

/-- The walk over the elements with `r` behind them comes to a WMM element or to the end. -/
def WmmEnds (r : List UInt8) : List Ie → Prop
  | [] => r = [] ∨ ∃ id len s, r = id :: len :: s ∧ WmmAt id s
  | y :: l => WmmAt y.tag (y.data ++ (bytes l ++ r)) ∧
      (y.tag = 0xdd ∧ wmmOui <+: y.data ++ (bytes l ++ r) ∨ WmmEnds r l)

section
variable {O : Type} {obj : O} {base fuel : Nat} {size : O → Nat} {p r t s c : List UInt8} {l : List Ie}

theorem within_getIeLoop_rest {index : Nat} (h : Cut ieFormat r) (hr : r ≠ [])
    (hsize : size obj = base + (p ++ r).length) :
    Within size (rtwGetIeLoopT obj base (p ++ r ++ t) index (p ++ r).length 0 (fuel + 1) p.length) ↔
      SearchEnds index [] r := by
  have hlen : (p ++ r).length = p.length + r.length := List.length_append
  have hpos := List.length_pos_iff.2 hr
  unfold rtwGetIeLoopT SearchEnds
  simp only [Nat.zero_add]
  rw [within_bind, within_touch_pos (Nat.succ_ne_zero 1), hsize]
  by_cases h2 : 2 ≤ r.length
  · have hlong := rest_lt h h2
    refine iff_of_true ⟨by omega, ?_⟩ (by omega)
    rw [byteAt_rest h2]
    split
    · exact within_pure
    · rw [if_pos (by omega)]
      exact within_pure
  · refine iff_of_false (fun hw => ?_) fun he => ?_
    · have := hw.1
      omega
    · obtain ⟨y, hy, -⟩ := he (by omega)
      exact absurd hy List.not_mem_nil

theorem within_getIeLoop {index : Nat} (h : Cut ieFormat r) (hne : bytes l ++ r ≠ [])
    (hsize : size obj = base + (p ++ (bytes l ++ r)).length) (hfuel : (bytes l ++ r).length ≤ fuel) :
    Within size (rtwGetIeLoopT obj base (p ++ (bytes l ++ r) ++ t) index (p ++ (bytes l ++ r)).length 0 fuel p.length) ↔
      SearchEnds index l r := by
  have hpos := List.length_pos_iff.2 hne
  obtain ⟨fuel, rfl⟩ := Nat.exists_eq_succ_of_ne_zero (show fuel ≠ 0 by omega)
  induction l generalizing p fuel with
  | nil => exact within_getIeLoop_rest h hne hsize
  | cons x l ih =>
    obtain ⟨hmem, hbuf, hlen, hlen', hx⟩ := walk_cons (p := p) (x := x) (l := l) (r := r) (t := t)
    unfold rtwGetIeLoopT
    simp only [Nat.zero_add]
    rw [within_bind, within_touch_pos (Nat.succ_ne_zero 1), hmem, byteAt_at_ie.1, byteAt_at_ie.2,
      and_iff_right (show base + p.length + 2 ≤ size obj by omega)]
    by_cases hid : x.id = index
    · rw [if_pos hid]
      exact iff_of_true within_pure fun _ => ⟨x, List.mem_cons_self, hid⟩
    · have hmore : SearchEnds index (x :: l) r ↔ SearchEnds index l r := by
        refine forall_congr' fun _ => ⟨?_, ?_⟩
        · rintro ⟨y, hy, hyid⟩
          rcases List.mem_cons.1 hy with rfl | hy
          · exact absurd hyid hid
          · exact ⟨y, hy, hyid⟩
        · rintro ⟨y, hy, hyid⟩
          exact ⟨y, List.mem_cons_of_mem _ hy, hyid⟩
      have hnext := length_behind_ie p x
      rw [if_neg hid, hnext, ← hmem, hmore]
      by_cases hend : (p ++ x.bytes).length ≥ (p ++ (bytes (x :: l) ++ r)).length
      · have hnil : bytes l ++ r = [] := List.length_eq_zero_iff.1 (by omega)
        obtain ⟨-, rfl⟩ := List.append_eq_nil_iff.1 hnil
        rw [if_pos hend]
        exact iff_of_true within_pure fun h1 => absurd h1 (Nat.zero_ne_one)
      · rw [if_neg hend, hbuf]
        have hrest : bytes l ++ r ≠ [] := List.ne_nil_of_length_pos (by omega)
        have hfuel' : (bytes l ++ r).length ≤ fuel := by
          rw [bytes_cons, List.append_assoc, List.length_append] at hfuel
          omega
        obtain ⟨fuel, rfl⟩ := Nat.exists_eq_succ_of_ne_zero (show fuel ≠ 0 by omega)
        exact ih hrest (by rw [hsize, hbuf]) (by omega) fuel hfuel'

/-- `rtw_get_ie` on elements with a rest stays below the limit but for a last byte. -/
theorem within_rtwGetIeT {index : Nat} (h : Cut ieFormat r) (hsize : size obj = base + (bytes l ++ r).length) :
    Within size (rtwGetIeT obj base (bytes l ++ r ++ t) index (bytes l ++ r).length 0) ↔ SearchEnds index l r := by
  unfold rtwGetIeT
  by_cases hne : bytes l ++ r = []
  · obtain ⟨-, rfl⟩ := List.append_eq_nil_iff.1 hne
    rw [hne, if_pos (show ([] : List UInt8).length < 1 from Nat.zero_lt_one)]
    exact iff_of_true within_pure fun h1 => absurd h1 Nat.zero_ne_one
  · have hpos := List.length_pos_iff.2 hne
    rw [if_neg (by omega)]
    exact within_getIeLoop (p := []) h hne hsize (Nat.le_refl _)

theorem val_rtwGetIeT {pbuf : List UInt8} {index limit : Nat} :
    (rtwGetIeT obj base pbuf index limit 0).val = rtwGetIe pbuf index limit := by
  have hloop (fuel i : Nat) :
      (rtwGetIeLoopT obj base pbuf index limit 0 fuel i).val = rtwGetIeLoop pbuf index limit fuel i := by
    induction fuel generalizing i with
    | zero => rfl
    | succ fuel ih =>
      unfold rtwGetIeLoopT rtwGetIeLoop
      simp only [Nat.zero_add, val_bind]
      split
      · rfl
      · split
        · rfl
        · exact ih _
  unfold rtwGetIeT rtwGetIe
  split
  · rfl
  · exact hloop _ _

end

section
variable {mem : Nat → UInt8} {off i inLen fuel : Nat} {size : JoinObj → Nat} {r s c : List UInt8} {l : List Ie}

/-! ### The walk to the WMM element -/

theorem val_compareT : (compareT mem off c).val = true ↔ At mem off c := by
  induction c generalizing off with
  | nil => exact iff_of_true rfl trivial
  | cons a c ih =>
    unfold compareT
    rw [val_bind]
    by_cases ha : mem off = a
    · rw [if_pos ha, ih]
      exact ⟨fun h => ⟨ha, h⟩, fun h => h.2⟩
    · rw [if_neg ha]
      exact iff_of_false Bool.false_ne_true fun h => ha h.1

theorem cutShort_cons {a b : UInt8} : CutShort (b :: s) (a :: c) ↔ b = a ∧ CutShort s c := by
  simp only [CutShort, List.cons_prefix_cons, ne_eq, List.cons.injEq]
  constructor
  · rintro ⟨⟨rfl, hpre⟩, hne⟩
    exact ⟨rfl, hpre, fun he => hne ⟨rfl, he⟩⟩
  · rintro ⟨rfl, hpre, hne⟩
    exact ⟨⟨rfl, hpre⟩, fun he => hne he.2⟩

theorem within_compareT (hat : At mem off s) (hsize : size .network = off + s.length) :
    Within size (compareT mem off c) ↔ ¬CutShort s c := by
  induction c generalizing off s with
  | nil => exact iff_of_true within_pure fun h => h.2 (List.prefix_nil.1 h.1)
  | cons a c ih =>
    unfold compareT
    rw [within_bind, within_touch_pos Nat.one_ne_zero]
    cases s with
    | nil =>
      refine iff_of_false (fun h => ?_) fun h => h ⟨List.nil_prefix, (List.cons_ne_nil a c).symm⟩
      have := h.1
      rw [hsize, List.length_nil] at this
      omega
    | cons b s =>
      obtain ⟨hb, hat⟩ := hat
      rw [List.length_cons] at hsize
      rw [cutShort_cons, hb, and_iff_right (by omega)]
      by_cases hab : b = a
      · rw [if_pos hab, ih hat (by omega)]
        simp only [hab, true_and]
      · rw [if_neg hab]
        exact iff_of_true within_pure fun h => hab h.1

theorem front_of_at (hat : At mem off s) (hc : At mem off c) (h : s.length ≤ c.length) : s <+: c := by
  have hsplit : Splice.read mem off (s.length + (c.length - s.length)) = _ := read_add _
  rw [Nat.add_sub_cancel' h] at hsplit
  have hs : read mem off s.length = s := hat.eq_map
  have hc' : read mem off c.length = c := hc.eq_map
  rw [hs, hc'] at hsplit
  exact ⟨_, hsplit.symm⟩

theorem at_iff_front (hat : At mem off s) (h : ¬CutShort s c) : At mem off c ↔ c <+: s := by
  constructor
  · intro hc
    rcases Nat.le_total s.length c.length with hle | hle
    · have hpre := front_of_at hat hc hle
      by_cases heq : s = c
      · exact heq ▸ List.prefix_refl s
      · exact absurd ⟨hpre, heq⟩ h
    · exact front_of_at hc hat hle
  · rintro ⟨s', rfl⟩
    exact (at_append.1 hat).1

/-- What the walk reads, and what is copied where it ends. -/
def WmmIn (size : JoinObj → Nat) (inLen : Nat) (m : Traced JoinObj (Option Nat)) : Prop :=
  Within size m ∧ ∀ j, m.val = some j → j + 9 ≤ inLen

theorem wmmLoop_end (h : inLen ≤ i) : WmmIn size inLen (wmmLoopT mem inLen fuel i) := by
  have hnone : wmmLoopT mem inLen fuel i = pure none := by
    cases fuel with
    | zero => rfl
    | succ fuel => exact if_neg (Nat.not_lt.2 h)
  rw [hnone]
  exact ⟨within_pure, fun j hj => by cases hj⟩

theorem wmmLoop_step {id len : UInt8} (hat : At mem i (id :: len :: s)) (hin : i + 2 + s.length = inLen)
    (hsize : size .network = inLen) : WmmIn size inLen (wmmLoopT mem inLen (fuel + 1) i) ↔ WmmAt id s ∧
      (id = 0xdd ∧ wmmOui <+: s ∨ WmmIn size inLen (wmmLoopT mem inLen fuel (i + (len.toNat + 2)))) := by
  obtain ⟨hid, hlen, hs⟩ := hat
  have hstep : WmmIn size inLen (wmmLoopT mem inLen (fuel + 1) i) ↔ Within size (isWmmT mem i) ∧
      if (isWmmT mem i).val = true ∧ i + 5 < inLen then i + 9 ≤ inLen
      else WmmIn size inLen (wmmLoopT mem inLen fuel (i + (len.toNat + 2))) := by
    have hhead : i + 1 ≤ size .network := by omega
    unfold WmmIn
    rw [wmmLoopT, if_pos (by omega), within_bind, within_touch_pos Nat.one_ne_zero, val_bind, within_bind, val_bind,
      and_iff_right hhead, and_assoc, hlen]
    refine and_congr_right fun _ => ?_
    by_cases hhit : (isWmmT mem i).val = true ∧ i + 5 < inLen
    · rw [if_pos hhit, if_pos hhit]
      refine ⟨fun h => h.2 i rfl, fun h => ⟨within_pure, fun j hj => ?_⟩⟩
      obtain rfl := Option.some.inj hj
      exact h
    · have hlen1 : i + 1 + 1 ≤ size .network := by omega
      rw [if_neg hhit, if_neg hhit, within_bind, within_touch_pos Nat.one_ne_zero, and_iff_right hlen1, val_bind]
  rw [hstep]
  unfold isWmmT WmmAt
  rw [hid]
  by_cases hdd : id = 0xdd
  · rw [if_pos hdd, within_compareT hs (by omega)]
    simp only [hdd, forall_const, true_and, and_assoc]
    refine and_congr_right fun hcut => ?_
    have hval : (compareT mem (i + 2) wmmOui).val = true ↔ wmmOui <+: s := val_compareT.trans (at_iff_front hs hcut)
    by_cases houi : wmmOui <+: s
    · have hlong : 4 ≤ s.length := houi.length_le
      rw [if_pos ⟨hval.2 houi, by omega⟩]
      simp only [houi, forall_const, true_or, and_true]
      omega
    · rw [if_neg fun h => houi (hval.1 h.1)]
      simp only [houi, false_implies, true_and, false_or]
  · rw [if_neg hdd, if_neg (fun h => Bool.false_ne_true h.1), and_iff_right within_pure]
    simp only [hdd, false_implies, true_and, false_and, false_or]

theorem wmmLoop_rest (h : Cut ieFormat r) (hat : At mem i r) (hin : i + r.length = inLen)
    (hsize : size .network = inLen) (hr : r ≠ []) :
    WmmIn size inLen (wmmLoopT mem inLen (fuel + 1) i) ↔ WmmEnds r [] := by
  unfold WmmEnds
  rcases r with _ | ⟨id, _ | ⟨len, s⟩⟩
  · exact absurd rfl hr
  · rw [List.length_singleton] at hin
    refine iff_of_false (fun hw => ?_) ?_
    · have hw := hw.1
      have hend : ¬((isWmmT mem i).val = true ∧ i + 5 < inLen) := fun hc => by omega
      rw [wmmLoopT, if_pos (by omega), within_bind, within_bind, if_neg hend, within_bind] at hw
      have hover : i + 1 + 1 ≤ size .network := (within_touch_pos Nat.one_ne_zero).1 hw.2.2.1
      omega
    · rintro (hn | ⟨_, _, _, hn, -⟩)
      · exact absurd hn (List.cons_ne_nil _ _)
      · exact absurd (List.cons.inj hn).2.symm (List.cons_ne_nil _ _)
  · have hlong : (id :: len :: s).length < 2 + len.toNat := rest_lt h (by simp)
    rw [List.length_cons, List.length_cons] at hin hlong
    have hend : WmmIn size inLen (wmmLoopT mem inLen fuel (i + (len.toNat + 2))) := wmmLoop_end (by omega)
    rw [wmmLoop_step hat (by omega) hsize]
    simp only [hend, or_true, and_true]
    constructor
    · exact fun hw => .inr ⟨id, len, s, rfl, hw⟩
    · rintro (hn | ⟨_, _, _, hn, hw⟩)
      · exact absurd hn (List.cons_ne_nil _ _)
      · injection hn with hid hn
        injection hn with hlen hs
        rwa [hid, hs]

/-- The walk of `rtw_restruct_wmm_ie` and the copy stay inside exactly if each element in its way lets them. -/
theorem wmmLoop_ok (h : Cut ieFormat r) (hat : At mem i (bytes l ++ r)) (hin : i + (bytes l ++ r).length = inLen)
    (hsize : size .network = inLen) (hfuel : (bytes l ++ r).length ≤ fuel) :
    WmmIn size inLen (wmmLoopT mem inLen fuel i) ↔ WmmEnds r l := by
  induction l generalizing i fuel with
  | nil =>
    rw [bytes_nil, List.nil_append] at hat hin hfuel
    by_cases hr : r = []
    · rw [hr] at hin
      exact iff_of_true (wmmLoop_end (Nat.le_of_eq hin.symm)) (.inl hr)
    · have hpos := List.length_pos_iff.2 hr
      obtain ⟨fuel, rfl⟩ := Nat.exists_eq_succ_of_ne_zero (show fuel ≠ 0 by omega)
      exact wmmLoop_rest h hat hin hsize hr
  | cons y l ih =>
    have hlen : (bytes (y :: l) ++ r).length = 2 + y.data.length + (bytes l ++ r).length := by
      rw [bytes_cons, List.append_assoc, List.length_append, length_ie_bytes]
    have hfits : y.data.length ≤ 255 := Nat.le_of_lt_succ y.fits
    obtain ⟨fuel, rfl⟩ := Nat.exists_eq_succ_of_ne_zero (show fuel ≠ 0 by omega)
    rw [bytes_cons, List.append_assoc, ie_bytes, List.cons_append, List.cons_append] at hat
    have hrest := (at_append.1 hat.2.2).2
    have hin' : i + 2 + (y.data ++ (bytes l ++ r)).length = inLen := by
      rw [List.length_append]
      omega
    rw [wmmLoop_step hat hin' hsize, toNat_ofNat_small hfits, WmmEnds]
    have hnext : i + (y.data.length + 2) = i + 1 + 1 + y.data.length := by omega
    rw [hnext, ih hrest (by omega) (by omega)]

end

end Rtw
