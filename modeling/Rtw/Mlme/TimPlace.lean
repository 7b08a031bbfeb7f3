import Rtw.Mlme.BcnIe

/-!
# The place of the TIM element

`update_BCNTIM` writes the TIM element over the one that is there, or behind SSID, rates and DS parameter set, without
a look at whether there is a DS parameter set. `timOk_iff` tells for which lists of elements it is the only change.
-/

namespace Rtw
open Tlv

theorem length_timIe_le (b : BitVec 16) : (timIe b).length ≤ 7 := by
  unfold timIe
  dsimp only
  split
  · exact Nat.le_refl 7
  · exact Nat.le_succ 6

/-- The element that is written. -/
def timElement (b : BitVec 16) : Ie where
  tag := 5
  data := (timIe b).drop 2
  fits := by
    have hle := length_timIe_le b
    rw [List.length_drop]
    show (timIe b).length - 2 < 256
    omega

/-- After the update `t` is the only TIM element of the list, and the others are as they were. -/
def TimOk (t : Ie) (malloc : Nat → Bool) (b : BitVec 16) (l : BcnList) : Prop :=
  ∃ c d, othersThan t l.es = c ++ d ∧ HoldsBcn l.fixed (c ++ t :: d) (updateBcntim malloc b l.net)

/-- The length of the first element with the id. -/
def firstLen (index : Nat) (es : List Ie) : Nat := ((es.find? fun y => y.id = index).map (·.data.length + 2)).getD 0

/-- Where the element is written when there is none. -/
def timOffset (es : List Ie) : Nat := 12 + firstLen 0 es + firstLen 1 es + 3

/-- The element is written at the right place: over the only one there is, or at the beginning of an element or the end
of the list. Otherwise the bytes from there to such a place, `z`, happen to make up for the difference. -/
inductive TimFits (malloc : Nat → Bool) (b : BitVec 16) (l : BcnList) : Prop
  | replace (c d : List Ie) (y : Ie) (hes : l.es = c ++ y :: d) (hy : y.id = 5) (hne : y.data ≠ [])
      (hother : ∀ z ∈ c ++ d, z.id ≠ 5) (hsize : (l.fixed ++ bytes (c ++ d)).length + (timIe b).length ≤ 768)
      (hkept : Kept malloc y.bytes (bytes d) l.room (timIe b).length) : TimFits malloc b l
  | insert (c d : List Ie) (hes : l.es = c ++ d) (hother : ∀ z ∈ c ++ d, z.id ≠ 5)
      (hat : (l.fixed ++ bytes c).length = timOffset l.es)
      (hsize : (l.fixed ++ bytes (c ++ d)).length + (timIe b).length ≤ 768)
      (hkept : Kept malloc [] (bytes d) l.room (timIe b).length) : TimFits malloc b l
  | repeats (c d : List Ie) (z : List UInt8) (hes : l.es = c ++ d) (hother : ∀ z ∈ c ++ d, z.id ≠ 5)
      (hat : (l.fixed ++ bytes c).length = timOffset l.es + z.length) (hz : z <:+ l.fixed ++ bytes c)
      (hne : z ≠ []) (hsize : (l.fixed ++ bytes (c ++ d)).length + (timIe b).length ≤ 768)
      (hsame : if malloc (z ++ bytes d).length then timIe b ++ z = z ++ timIe b
        else z ++ (timIe b ++ bytes d) <+: timIe b ++ (z ++ (bytes d ++ l.room)).drop (timIe b).length) :
      TimFits malloc b l

section
variable {malloc : Nat → Bool} {b : BitVec 16} {l : BcnList} {c d es : List Ie} {y t : Ie} {p q q' new : List UInt8}
  {index : Nat} {net : BcnIes}

theorem exists_timIe_eq (b : BitVec 16) : ∃ data, timIe b = 5 :: UInt8.ofNat data.length :: data := by
  unfold timIe
  dsimp only
  split
  · exact ⟨[0, 1, _, _, _], rfl⟩
  · exact ⟨[0, 1, _, _], rfl⟩

theorem bytes_timElement (b : BitVec 16) : (timElement b).bytes = timIe b := by
  obtain ⟨data, h⟩ := exists_timIe_eq b
  show 5 :: UInt8.ofNat ((timIe b).drop 2).length :: (timIe b).drop 2 = timIe b
  rw [h]
  rfl

theorem updateBcntim_eq : updateBcntim malloc b l.net =
    putBcnIe malloc l.net (timPlace l.net).2 (timPlace l.net).1 (timIe b) := by
  unfold updateBcntim putBcnIe
  cases timPlace l.net
  rfl

/-! ### The searches -/

theorem firstLen_eq_zero (h : ∀ z ∈ es, z.id ≠ index) : firstLen index es = 0 := by
  have hnone : (es.find? fun y => decide (y.id = index)) = none :=
    List.find?_eq_none.2 fun z hz => by simpa using h z hz
  rw [firstLen, hnone]
  rfl

theorem firstLen_append (hc : ∀ z ∈ c, z.id ≠ index) (hy : y.id = index) :
    firstLen index (c ++ y :: d) = y.data.length + 2 := by
  have hsome : ((c ++ y :: d).find? fun y => decide (y.id = index)) = some y := by
    rw [List.find?_eq_some_iff_append]
    exact ⟨decide_eq_true hy, c, d, rfl, fun z hz => by simpa using hc z hz⟩
  rw [firstLen, hsome]
  rfl

theorem timPlace_replace (hes : l.es = c ++ y :: d) (hc : ∀ z ∈ c, z.id ≠ 5) (hy : y.id = 5) (hne : y.data ≠ []) :
    timPlace l.net = ((l.fixed ++ bytes c ++ y.bytes).length, (l.fixed ++ bytes c).length) := by
  obtain ⟨n, hn⟩ := Nat.exists_eq_succ_of_ne_zero (List.length_pos_of_ne_nil hne).ne'
  rw [timPlace, rtwGetIe_net_found hes hc hy, hn]
  dsimp only
  simp only [List.length_append, length_ie_bytes, l.length_fixed, hn]
  refine Prod.ext ?_ rfl
  show 12 + (bytes c).length + (n + 1 + 2) = 12 + (bytes c).length + (2 + (n + 1))
  omega

theorem firstLen_net (l : BcnList) (index : Nat) : firstLen index l.es =
    ((rtwGetIe (l.net.ies.drop 12) index (l.net.ieLength - 12)).map (·.2 + 2)).getD 0 := by
  obtain hnone | ⟨c, y, d, hes, hc, hy⟩ := exists_first (fun z : Ie => z.id = index) l.es
  · rw [rtwGetIe_net_none hnone]
    exact firstLen_eq_zero hnone
  · rw [rtwGetIe_net_found hes hc hy, hes]
    exact firstLen_append hc hy

theorem timPlace_insert (h : rtwGetIe (l.net.ies.drop 12) 5 (l.net.ieLength - 12) = none ∨
    ∃ p, rtwGetIe (l.net.ies.drop 12) 5 (l.net.ieLength - 12) = some (p, 0)) :
    timPlace l.net = (timOffset l.es, timOffset l.es) := by
  have hoffset : (12 + firstLen 0 l.es + firstLen 1 l.es + 3, 12 + firstLen 0 l.es + firstLen 1 l.es + 3) =
      timPlace l.net := by
    rw [timPlace, firstLen_net l 0, firstLen_net l 1]
    obtain h | ⟨p, h⟩ := h
    · rw [h]
      dsimp only
      cases rtwGetIe (l.net.ies.drop 12) 0 (l.net.ieLength - 12) <;>
        cases rtwGetIe (l.net.ies.drop 12) 1 (l.net.ieLength - 12) <;> rfl
    · rw [h]
      dsimp only
      cases rtwGetIe (l.net.ies.drop 12) 0 (l.net.ieLength - 12) <;>
        cases rtwGetIe (l.net.ies.drop 12) 1 (l.net.ieLength - 12) <;> rfl
  exact hoffset.symm

theorem firstLen_cons (y : Ie) (es : List Ie) (index : Nat) :
    firstLen index (y :: es) = if y.id = index then y.data.length + 2 else firstLen index es := by
  unfold firstLen
  rw [List.find?_cons]
  by_cases hy : y.id = index <;> simp [hy]

theorem firstLen_le (es : List Ie) (index : Nat) : firstLen index es ≤ (bytes es).length := by
  induction es with
  | nil => exact Nat.le_refl 0
  | cons y es ih =>
    rw [firstLen_cons, bytes_cons, List.length_append, length_ie_bytes]
    split <;> omega

theorem firstLen_add_le {i j : Nat} (hij : i ≠ j) (es : List Ie) :
    firstLen i es + firstLen j es ≤ (bytes es).length := by
  induction es with
  | nil => exact Nat.le_refl 0
  | cons y es ih =>
    have hi := firstLen_le es i
    have hj := firstLen_le es j
    rw [firstLen_cons, firstLen_cons, bytes_cons, List.length_append, length_ie_bytes]
    split <;> split <;> omega

theorem timOffset_le (l : BcnList) : timOffset l.es ≤ (l.fixed ++ bytes l.es).length + 3 := by
  have hle := firstLen_add_le Nat.zero_ne_one l.es
  rw [List.length_append, l.length_fixed]
  unfold timOffset
  omega

/-! ### Without an element to write over -/

theorem ieLength_insert (hplace : timPlace l.net = (timOffset l.es, timOffset l.es)) :
    (updateBcntim malloc b l.net).ieLength = (l.fixed ++ bytes l.es).length + (timIe b).length := by
  have hk := timOffset_le l
  have hl := l.length_le
  have hw := length_timIe_le b
  rw [updateBcntim_eq, hplace]
  show (timOffset l.es + (timIe b).length + uintSub (l.fixed ++ bytes l.es).length (timOffset l.es)) % 2 ^ 32 = _
  unfold uintSub
  omega

/-- An element put into a list at `p` has its place there or behind it. -/
theorem exists_between {fixed : List UInt8} (hes : fixed ++ (bytes c ++ bytes d) = p ++ q) (hd : ∀ z ∈ d, z.id ≠ t.id)
    (h : fixed ++ (bytes c ++ (t.bytes ++ bytes d)) = p ++ (new ++ q')) :
    ∃ z, fixed ++ bytes c = p ++ z ∧ q = z ++ bytes d ∧ new ++ q' = z ++ (t.bytes ++ bytes d) := by
  rw [← List.append_assoc] at hes h
  obtain ⟨z, hp, hq⟩ | ⟨z, hc, hq⟩ := List.append_eq_append_iff.1 hes
  · cases z with
    | nil =>
      rw [List.append_nil] at hp
      rw [hp] at h
      exact ⟨[], by rw [hp, List.append_nil], hq.symm, (List.append_cancel_left h).symm⟩
    | cons a z =>
      -- the place would be before `p`, at an element with the same id
      rw [hp, List.append_assoc (fixed ++ bytes c) (a :: z)] at h
      have ha : a = t.tag := (List.cons.inj (List.append_cancel_left h)).1.symm
      cases d with
      | nil => exact absurd hq.symm (List.cons_ne_nil a _)
      | cons y d =>
        have hy : y.tag = a := (List.cons.inj hq).1
        exact absurd (congrArg UInt8.toNat (hy.trans ha)) (hd y List.mem_cons_self)
  · refine ⟨z, hc, hq, ?_⟩
    rw [hc, List.append_assoc] at h
    exact (List.append_cancel_left h).symm

theorem holdsBcn_insert_iff (hplace : timPlace l.net = (timOffset l.es, timOffset l.es))
    (hk : timOffset l.es ≤ (l.fixed ++ bytes l.es).length) (hes : l.es = c ++ d) (hd : ∀ z ∈ d, z.id ≠ t.id) :
    HoldsBcn l.fixed (c ++ t :: d) (updateBcntim malloc b l.net) ↔
      (l.fixed ++ bytes (c ++ d)).length + (timIe b).length ≤ 768 ∧
        ∃ z q', l.fixed ++ bytes c = (l.fixed ++ bytes l.es).take (timOffset l.es) ++ z ∧
          timIe b ++ q' = z ++ (t.bytes ++ bytes d) ∧ q'.length = (z ++ bytes d).length ∧
          if malloc (z ++ bytes d).length then q' = z ++ bytes d
          else q' <+: (z ++ bytes d ++ l.room).drop (timIe b).length := by
  have hp : ((l.fixed ++ bytes l.es).take (timOffset l.es)).length = timOffset l.es := List.length_take_of_le hk
  have hpq : l.fixed ++ bytes l.es =
      (l.fixed ++ bytes l.es).take (timOffset l.es) ++ (l.fixed ++ bytes l.es).drop (timOffset l.es) :=
    (List.take_append_drop ..).symm
  generalize (l.fixed ++ bytes l.es).take (timOffset l.es) = p at hp hpq ⊢
  generalize (l.fixed ++ bytes l.es).drop (timOffset l.es) = q at hpq ⊢
  have hsize := l.length_le
  have hw := length_timIe_le b
  have hnet : l.net = ⟨p ++ ([] ++ (q ++ l.room)), (p ++ ([] ++ q)).length⟩ := by
    rw [BcnList.net, List.nil_append, List.nil_append, ← List.append_assoc, ← List.append_assoc, hpq]
  have hput : updateBcntim malloc b l.net =
      putBcnIe malloc ⟨p ++ ([] ++ (q ++ l.room)), (p ++ ([] ++ q)).length⟩ p.length (p ++ []).length (timIe b) := by
    rw [updateBcntim_eq, hplace, List.append_nil, hp, hnet]
  have hlen : (p ++ (timIe b ++ q)).length = (l.fixed ++ bytes (c ++ d)).length + (timIe b).length := by
    rw [← hes, hpq]
    simp only [List.length_append]
    omega
  rw [hpq, List.length_append] at hsize
  have hlt : (p ++ ([] ++ q)).length < 2 ^ 32 := by
    rw [List.nil_append, List.length_append]
    omega
  have hnew : (p ++ (timIe b ++ q)).length < 2 ^ 32 := by
    simp only [List.length_append]
    omega
  rw [hput, holdsBcn_putBcnIe_iff hlt hnew, hlen, List.nil_append]
  rw [hes, bytes_append] at hpq
  refine and_congr_right fun _ => ?_
  constructor
  · rintro ⟨q', hq', hlen', hrest⟩
    rw [bytes_append, bytes_cons] at hq'
    obtain ⟨z, hc, hq, hz⟩ := exists_between hpq hd hq'
    rw [hq] at hlen' hrest
    exact ⟨z, q', hc, hz, hlen', hrest⟩
  · rintro ⟨z, q', hc, hz, hlen', hrest⟩
    have hq : q = z ++ bytes d := by
      rw [← List.append_assoc, hc, List.append_assoc] at hpq
      exact (List.append_cancel_left hpq).symm
    rw [hq]
    refine ⟨q', ?_, hlen', hrest⟩
    rw [bytes_append, bytes_cons, ← List.append_assoc, hc, hz, List.append_assoc]

theorem byteAt_timIe (b : BitVec 16) : byteAt (timIe b) 0 = 5 ∧ byteAt (timIe b) 2 = 0 ∧ byteAt (timIe b) 3 = 1 := by
  unfold timIe
  dsimp only
  split <;> exact ⟨rfl, rfl, rfl⟩

/-- The bytes do not go on with themselves one, two or three bytes later. -/
theorem not_shift_timIe {g : Nat} (hg : 0 < g) (hg3 : g ≤ 3)
    (h : ∀ i, g + i < (timIe b).length → byteAt (timIe b) (g + i) = byteAt (timIe b) i) : False := by
  obtain ⟨h0, h2, h3⟩ := byteAt_timIe b
  have hlen := length_timIe (b := b)
  have h4 := four_lt_timIe b
  have hcases : g = 1 ∨ g = 2 ∨ g = 3 := by omega
  rcases hcases with rfl | rfl | rfl
  · have h1 : byteAt (timIe b) 2 = byteAt (timIe b) 1 := h 1 (by omega)
    omega
  · have h1 : byteAt (timIe b) 2 = byteAt (timIe b) 0 := h 0 (by omega)
    omega
  · have h1 : byteAt (timIe b) 3 = byteAt (timIe b) 0 := h 0 (by omega)
    omega

theorem byteAt_update_of_lt {i : Nat} (hi : i < (timPlace l.net).2) :
    byteAt (updateBcntim malloc b l.net).ies i = byteAt l.net.ies i := by
  rw [updateBcntim_eq]
  unfold putBcnIe
  dsimp only
  rw [byteAt_writeAt_of_lt (by omega), byteAt_writeAt_of_lt hi]

theorem byteAt_holdsBcn {i : Nat} (h : HoldsBcn l.fixed (c ++ timElement b :: d) net) (hi : i < (timIe b).length) :
    byteAt net.ies ((l.fixed ++ bytes c).length + i) = byteAt (timIe b) i := by
  obtain ⟨s, hs⟩ := h.ies
  have hsplit : l.fixed ++ bytes (c ++ timElement b :: d) ++ s = l.fixed ++ bytes c ++ (timIe b ++ (bytes d ++ s)) := by
    rw [bytes_append, bytes_cons, bytes_timElement]
    simp only [List.append_assoc]
  rw [← hs, hsplit, byteAt_append_right, byteAt_append_left hi]

/-- An element that is written behind the end of the list is not the next one. -/
theorem not_holdsBcn_behind (hplace : timPlace l.net = (timOffset l.es, timOffset l.es))
    (hk : (l.fixed ++ bytes l.es).length < timOffset l.es) (hes : l.es = c ++ d) (hother : ∀ z ∈ c ++ d, z.id ≠ 5) :
    ¬ HoldsBcn l.fixed (c ++ timElement b :: d) (updateBcntim malloc b l.net) := by
  intro h
  have h4 := four_lt_timIe b
  have hdst : (timPlace l.net).2 = timOffset l.es := congrArg Prod.snd hplace
  cases d with
  | nil =>
    rw [List.append_nil] at hes
    have hle := timOffset_le l
    -- the bytes are read at the end of the list, and have been written `g` bytes behind it
    obtain ⟨g, hg⟩ := Nat.exists_eq_add_of_le hk.le
    refine not_shift_timIe (g := g) (b := b) (by omega) (by omega) fun i hi => ?_
    have hfound := byteAt_holdsBcn h hi
    have hwritten := byteAt_updateBcntim malloc b l.net (show i < (timIe b).length by omega)
    rw [byteAt_drop, hdst, hg] at hwritten
    rw [← hfound, ← hwritten, ← hes, Nat.add_assoc]
  | cons y d =>
    have hshort : (l.fixed ++ bytes c).length ≤ (l.fixed ++ bytes l.es).length := by
      rw [hes, bytes_append, ← List.append_assoc]
      exact (List.prefix_append ..).length_le
    have hy : byteAt l.net.ies (l.fixed ++ bytes c).length = y.id := by
      have hsplit : l.net.ies = l.fixed ++ bytes c ++ (y.bytes ++ (bytes d ++ l.room)) := by
        rw [BcnList.net, hes, bytes_append, bytes_cons]
        simp only [List.append_assoc]
      rw [hsplit]
      exact byteAt_at_ie.1
    have h5 := byteAt_holdsBcn h (show 0 < (timIe b).length by omega)
    rw [Nat.add_zero, byteAt_update_of_lt (hdst ▸ Nat.lt_of_le_of_lt hshort hk), hy, (byteAt_timIe b).1] at h5
    exact hother y (List.mem_append_right _ List.mem_cons_self) h5

theorem repeats_iff {z r : List UInt8} :
    (∃ q', timIe b ++ q' = z ++ (timIe b ++ bytes d) ∧ q'.length = (z ++ bytes d).length ∧
        if malloc (z ++ bytes d).length then q' = z ++ bytes d
        else q' <+: (z ++ bytes d ++ r).drop (timIe b).length) ↔
      if malloc (z ++ bytes d).length then timIe b ++ z = z ++ timIe b
      else z ++ (timIe b ++ bytes d) <+: timIe b ++ (z ++ (bytes d ++ r)).drop (timIe b).length := by
  rw [List.append_assoc z (bytes d) r]
  split
  · constructor
    · rintro ⟨q', heq, -, rfl⟩
      rw [← List.append_assoc, ← List.append_assoc] at heq
      exact List.append_cancel_right heq
    · intro heq
      refine ⟨z ++ bytes d, ?_, rfl, rfl⟩
      rw [← List.append_assoc, heq, List.append_assoc]
  · constructor
    · rintro ⟨q', heq, -, hrest⟩
      rw [← heq]
      exact (List.prefix_append_right_inj _).2 hrest
    · intro hpre
      obtain ⟨q', heq⟩ := List.prefix_of_prefix_length_le (List.prefix_append ..) hpre (by
        simp only [List.length_append]
        omega)
      refine ⟨q', heq, ?_, ?_⟩
      · have hlen := congrArg List.length heq
        simp only [List.length_append] at hlen ⊢
        omega
      · rw [← heq] at hpre
        exact (List.prefix_append_right_inj _).1 hpre

/-! ### When it is right -/

theorem ne_of_othersThan (h : othersThan (timElement b) es = c ++ d) : ∀ z ∈ c ++ d, z.id ≠ 5 := fun z hz => by
  rw [← h] at hz
  exact of_decide_eq_true (List.mem_filter.1 hz).2

theorem length_insert (b : BitVec 16) (fixed : List UInt8) (c d : List Ie) :
    (fixed ++ bytes (c ++ timElement b :: d)).length = (fixed ++ bytes (c ++ d)).length + (timIe b).length := by
  simp only [bytes_append, bytes_cons, bytes_timElement, List.length_append]
  omega

theorem kept_nil_iff {r : List UInt8} : Kept malloc [] (bytes d) r (timIe b).length ↔
    if malloc ([] ++ bytes d).length then timIe b ++ [] = [] ++ timIe b
    else [] ++ (timIe b ++ bytes d) <+: timIe b ++ ([] ++ (bytes d ++ r)).drop (timIe b).length := by
  rw [List.nil_append, List.nil_append, List.nil_append, List.nil_append, List.append_nil,
    List.prefix_append_right_inj]
  unfold Kept
  by_cases hm : malloc (bytes d).length = true
  · rw [if_pos hm]
    exact iff_of_true (.inl hm) rfl
  · rw [if_neg hm]
    exact or_iff_right hm

theorem timOk_insert_iff (hnone : ∀ z ∈ l.es, z.id ≠ 5) : TimOk (timElement b) malloc b l ↔ TimFits malloc b l := by
  have hplace := timPlace_insert (.inl (rtwGetIe_net_none hnone))
  have hself : othersThan (timElement b) l.es = l.es := othersThan_eq_self.2 hnone
  constructor
  · rintro ⟨c, d, hothers, h⟩
    rw [hself] at hothers
    have hother := hothers ▸ hnone
    rcases Nat.lt_or_ge (l.fixed ++ bytes l.es).length (timOffset l.es) with hk | hk
    · exact absurd h (not_holdsBcn_behind hplace hk hothers hother)
    · have hd : ∀ z ∈ d, z.id ≠ (timElement b).id := fun z hz => hother z (List.mem_append_right _ hz)
      obtain ⟨hsize, z, hz⟩ := (holdsBcn_insert_iff hplace hk hothers hd).1 h
      simp only [bytes_timElement, exists_and_left] at hz
      obtain ⟨hc, hz⟩ := hz
      have hat : (l.fixed ++ bytes c).length = timOffset l.es + z.length := by
        rw [hc, List.length_append, List.length_take_of_le hk]
      have hrest := repeats_iff.1 hz
      by_cases hnil : z = []
      · rw [hnil] at hat hrest
        exact .insert c d hothers hother hat hsize (kept_nil_iff.2 hrest)
      · exact .repeats c d z hothers hother hat ⟨_, hc.symm⟩ hnil hsize hrest
  · intro h
    have hinsert : ∃ c d z, l.es = c ++ d ∧ (l.fixed ++ bytes c).length = timOffset l.es + z.length ∧
        z <:+ l.fixed ++ bytes c ∧ (l.fixed ++ bytes (c ++ d)).length + (timIe b).length ≤ 768 ∧
        if malloc (z ++ bytes d).length then timIe b ++ z = z ++ timIe b
        else z ++ (timIe b ++ bytes d) <+: timIe b ++ (z ++ (bytes d ++ l.room)).drop (timIe b).length := by
      cases h with
      | replace c d y hes hy =>
        refine absurd hy (hnone y ?_)
        rw [hes]
        exact List.mem_append_right _ List.mem_cons_self
      | insert c d hes _ hat hsize hkept =>
        exact ⟨c, d, [], hes, hat, List.nil_suffix, hsize, kept_nil_iff.1 hkept⟩
      | repeats c d z hes _ hat hz _ hsize hsame => exact ⟨c, d, z, hes, hat, hz, hsize, hsame⟩
    obtain ⟨c, d, z, hes, hat, ⟨p, hp⟩, hsize, hsame⟩ := hinsert
    have hlen : p.length = timOffset l.es := by
      rw [← hp, List.length_append] at hat
      exact Nat.add_right_cancel hat
    have hall : l.fixed ++ bytes l.es = p ++ (z ++ bytes d) := by
      rw [hes, bytes_append, ← List.append_assoc, ← hp, List.append_assoc]
    have hk : timOffset l.es ≤ (l.fixed ++ bytes l.es).length := by
      rw [hall, List.length_append, hlen]
      exact Nat.le_add_right ..
    have hd : ∀ z ∈ d, z.id ≠ (timElement b).id := fun z hz =>
      hnone z (hes ▸ List.mem_append_right _ hz)
    obtain ⟨q', hq'⟩ := repeats_iff.2 hsame
    refine ⟨c, d, hself.trans hes, (holdsBcn_insert_iff hplace hk hes hd).2 ⟨hsize, z, q', ?_, ?_⟩⟩
    · rw [hall, List.take_left' hlen, hp]
    · rw [bytes_timElement]
      exact hq'

/-- An element without contents is left, and another one is written. -/
theorem not_timOk_empty (hes : l.es = c ++ y :: d) (hc : ∀ z ∈ c, z.id ≠ 5) (hy : y.id = 5) (hnil : y.data = []) :
    ¬ TimOk (timElement b) malloc b l := by
  rintro ⟨c', d', hothers, h⟩
  have hplace := timPlace_insert (l := l) (.inr ⟨_, by rw [rtwGetIe_net_found hes hc hy, hnil]; rfl⟩)
  have hlen := (ieLength_insert hplace).symm.trans h.ieLength
  rw [length_insert, ← hothers, List.length_append, List.length_append] at hlen
  have hsub : (othersThan (timElement b) l.es).Sublist l.es := List.filter_sublist
  have hself := eq_of_sublist_of_length_bytes_le hsub (by omega)
  refine othersThan_eq_self.1 hself y ?_ hy
  rw [hes]
  exact List.mem_append_right _ List.mem_cons_self

theorem timOk_replace_iff (hes : l.es = c ++ y :: d) (hc : ∀ z ∈ c, z.id ≠ 5) (hy : y.id = 5) (hne : y.data ≠ []) :
    TimOk (timElement b) malloc b l ↔ TimFits malloc b l := by
  have hput : updateBcntim malloc b l.net = putBcnIe malloc l.net (l.fixed ++ bytes c).length
      (l.fixed ++ bytes c ++ y.bytes).length (timElement b).bytes := by
    rw [updateBcntim_eq, timPlace_replace hes hc hy hne, bytes_timElement]
  have hbytes : bytes l.es = bytes c ++ (y.bytes ++ bytes d) := by rw [hes, bytes_append, bytes_cons]
  have hself : othersThan (timElement b) c = c := othersThan_eq_self.2 hc
  have hsplit : othersThan (timElement b) l.es = c ++ othersThan (timElement b) d := by
    have hid : y.id = (timElement b).id := hy
    rw [hes, othersThan_append, hself]
    exact congrArg (_ ++ ·) (List.filter_cons_of_neg (by simpa using hid))
  have hw : (timElement b).bytes.length = (timIe b).length := congrArg List.length (bytes_timElement b)
  constructor
  · rintro ⟨c', d', hothers, h⟩
    rw [hput] at h
    obtain ⟨rfl, rfl, hsize, hkept⟩ := (holdsBcn_put_iff hbytes hsplit hothers).1 h
    rw [length_insert] at hsize
    rw [hw] at hkept
    exact .replace c' d' y hes hy hne (ne_of_othersThan hothers) hsize hkept
  · intro h
    have hmem : y ∈ l.es := by
      rw [hes]
      exact List.mem_append_right _ List.mem_cons_self
    cases h with
    | replace c' d' y' hes' hy' _ hother hsize hkept =>
      have hc' : y ∉ c' := fun hmem => hother y (List.mem_append_left _ hmem) hy
      have hd' : y ∉ d' := fun hmem => hother y (List.mem_append_right _ hmem) hy
      obtain ⟨rfl, rfl, rfl⟩ := (List.append_cons_inj_of_notMem hc' hd').1 (hes'.symm.trans hes)
      have hd : othersThan (timElement b) d' = d' :=
        othersThan_eq_self.2 fun z hz => hother z (List.mem_append_right _ hz)
      refine ⟨c', d', by rw [hsplit, hd], ?_⟩
      rw [hput]
      refine (holdsBcn_put_iff hbytes hsplit (by rw [hsplit, hd])).2 ⟨rfl, rfl, ?_, ?_⟩
      · rw [length_insert]
        exact hsize
      · rw [hw]
        exact hkept
    | insert c' d' hes' hother => exact absurd hy (hother y (hes' ▸ hmem))
    | repeats c' d' z hes' hother => exact absurd hy (hother y (hes' ▸ hmem))

end

/-- The TIM element is the only thing that changes exactly if it is written at the right place. -/
theorem timOk_iff (malloc : Nat → Bool) (b : BitVec 16) (l : BcnList) :
    TimOk (timElement b) malloc b l ↔ TimFits malloc b l := by
  obtain hnone | ⟨c, y, d, hes, hc, hy⟩ := exists_first (fun z : Ie => z.id = 5) l.es
  · exact timOk_insert_iff hnone
  · by_cases hnil : y.data = []
    · refine iff_of_false (not_timOk_empty hes hc hy hnil) fun h => ?_
      have hmem : y ∈ l.es := by
        rw [hes]
        exact List.mem_append_right _ List.mem_cons_self
      cases h with
      | replace c' d' y' hes' hy' hne hother =>
        rw [hes'] at hmem
        rcases List.mem_append.1 hmem with hc' | hd'
        · exact hother y (List.mem_append_left _ hc') hy
        · rcases List.mem_cons.1 hd' with rfl | hd'
          · exact hne hnil
          · exact hother y (List.mem_append_right _ hd') hy
      | insert c' d' hes' hother => exact hother y (hes' ▸ hmem) hy
      | repeats c' d' z hes' hother => exact hother y (hes' ▸ hmem) hy
    · exact timOk_replace_iff hes hc hy hnil

/-- A beacon on a channel of 5 GHz: SSID, a rate and a country element, and no DS parameter set. -/
def noDsBcn : BcnList where
  fixed := .replicate 12 0
  es := [⟨0, [0x61], by decide⟩, ⟨1, [0x8c], by decide⟩, ⟨7, [0x55, 0x53, 0x20, 0x24, 0x04, 0x17], by decide⟩]
  room := .replicate 742 0
  length_fixed := length_zeroFixed
  length_ies := by
    rw [List.length_append, List.length_append, List.length_replicate, List.length_replicate]
    decide

/-- The TIM element is written into the country element, and the list has no TIM element at all. -/
theorem not_timOk_noDs : ¬ ∃ t : Ie, t.id = 5 ∧ TimOk t (fun _ => true) 0 noDsBcn := by
  rintro ⟨t, ht, c, d, hothers, h⟩
  have hnone : ∀ z ∈ noDsBcn.es, z.id ≠ 5 := by decide
  have hself : othersThan t noDsBcn.es = noDsBcn.es := othersThan_eq_self.2 (ht ▸ hnone)
  have hes : noDsBcn.es = c ++ d := hself.symm.trans hothers
  have hd : ∀ z ∈ d, z.id ≠ t.id := fun z hz => by
    rw [ht]
    exact hnone z (hes ▸ List.mem_append_right _ hz)
  have hplace := timPlace_insert (.inl (rtwGetIe_net_none hnone))
  obtain ⟨-, z, q', hc, hz, -, -⟩ := (holdsBcn_insert_iff hplace (by decide) hes hd).1 h
  have hat : (noDsBcn.fixed ++ bytes c).length = 21 + z.length := by
    rw [hc, List.length_append]
    rfl
  have hcount : c.length ≤ 3 := by
    have hlen : 3 = c.length + d.length := (congrArg List.length hes).trans List.length_append
    omega
  have hpre : c = noDsBcn.es.take c.length := by rw [hes, List.take_left]
  -- behind the offset there is no element but the end of the list
  have hall : c = noDsBcn.es := by
    generalize c.length = n at hcount hpre
    rw [hpre] at hat ⊢
    interval_cases n
    · exact absurd hat (Nat.ne_of_lt (Nat.lt_add_right _ (by decide)))
    · exact absurd hat (Nat.ne_of_lt (Nat.lt_add_right _ (by decide)))
    · exact absurd hat (Nat.ne_of_lt (Nat.lt_add_right _ (by decide)))
    · rfl
  have hbytes : noDsBcn.fixed ++ bytes noDsBcn.es =
      (noDsBcn.fixed ++ bytes noDsBcn.es).take (timOffset noDsBcn.es) ++ [0x53, 0x20, 0x24, 0x04, 0x17] := by decide
  rw [hall, hbytes] at hc
  obtain rfl := List.append_cancel_left hc
  exact absurd (List.cons.inj hz).1 (by decide)

end Rtw
