import Rtw.Mlme.Ie
import Mathlib.Tactic.IntervalCases

/-!
# The TIM element of the beacon

`update_BCNTIM`, against the rule by which a station reads the element it writes. The element has one
octet of the bitmap when only one of the two is in use, and always the offset 0: `timReports_iff` says
that this goes wrong exactly when the octet in use is the second one.
-/

namespace Rtw

/-- `IEs` and `IELength` of the BSS. A write behind the array is not stopped. -/
structure BcnIes where
  ies : List UInt8
  ieLength : Nat

def writeAt (mem : List UInt8) (off : Nat) (bs : List UInt8) : List UInt8 :=
  mem.take off ++ .replicate (off - mem.length) 0 ++ bs ++ mem.drop (off + bs.length)

/-- Subtraction of `uint` values. -/
def uintSub (a b : Nat) : Nat := (a + 2 ^ 32 - b % 2 ^ 32) % 2 ^ 32

/-- `premainder_ie` and `dst_ie`: where the old element ends, and where the new one starts. Without an
old one both are the place behind SSID, rates and DS parameter set. -/
def timPlace (net : BcnIes) : Nat × Nat :=
  match rtwGetIe (net.ies.drop 12) 5 (net.ieLength - 12) with
  | some (p, tim_ielen + 1) => (12 + p + (tim_ielen + 1 + 2), 12 + p)
  | _ =>
    let lenOf (id : Nat) := match rtwGetIe (net.ies.drop 12) id (net.ieLength - 12) with
      | some (_, tmpLen) => tmpLen + 2
      | none => 0
    let offset := 12 + lenOf 0 + lenOf 1 + 3
    (offset, offset)

/-- The element for `tim_bitmap`. -/
def timIe (timBitmap : BitVec 16) : List UInt8 :=
  let low := UInt8.ofNat timBitmap.toNat
  let high := UInt8.ofNat (timBitmap.toNat / 256)
  let bitmapCtrl : UInt8 := if timBitmap &&& 1 ≠ 0 then 1 else 0
  if timBitmap &&& 0xff00 ≠ 0 ∧ timBitmap &&& 0x00fe ≠ 0 then [5, 5, 0, 1, bitmapCtrl, low, high]
  else
    let pvb :=
      if timBitmap &&& 0x00fe ≠ 0 then low
      else if timBitmap &&& 0xff00 ≠ 0 then high
      else low
    [5, 4, 0, 1, bitmapCtrl, pvb]

/-- `update_BCNTIM`; `malloc` tells whether the rest of the elements can be saved. -/
def updateBcntim (malloc : Nat → Bool) (timBitmap : BitVec 16) (net : BcnIes) : BcnIes :=
  let (premainder, dst) := timPlace net
  let remainderLen := uintSub net.ieLength premainder
  let backup :=
    if remainderLen > 0 ∧ malloc remainderLen then (net.ies.drop premainder).take remainderLen else []
  let ie := timIe timBitmap
  { ies := writeAt (writeAt net.ies dst ie) (dst + ie.length) backup
    ieLength := (dst + ie.length + remainderLen) % 2 ^ 32 }

/-! ### What a station reads -/

/-- The TIM element `e` announces traffic for `aid`: its octets start at `N1`, which is twice the upper
seven bits of the bitmap control. -/
def timIndicates (e : List UInt8) (aid : Nat) : Prop :=
  let n1 := 2 * (byteAt e 4 / 2)
  n1 ≤ aid / 8 ∧ aid / 8 - n1 + 3 < byteAt e 1 ∧ (byteAt e (5 + (aid / 8 - n1))).testBit (aid % 8)

instance (e : List UInt8) (aid : Nat) : Decidable (timIndicates e aid) :=
  inferInstanceAs (Decidable (_ ∧ _ ∧ _))

/-- The element says what the bitmap says, of the stations and of the group frames. -/
structure TimReports (timBitmap : BitVec 16) (e : List UInt8) : Prop where
  station : ∀ aid, 1 ≤ aid → (timIndicates e aid ↔ timBitmap.getLsbD aid)
  group : byteAt e 4 % 2 = 1 ↔ timBitmap.getLsbD 0

/-- Only the second octet of the bitmap is in use. -/
def OnlyHighOctet (timBitmap : BitVec 16) : Prop := timBitmap &&& 0xff00 ≠ 0 ∧ timBitmap &&& 0x00fe = 0

instance (timBitmap : BitVec 16) : Decidable (OnlyHighOctet timBitmap) :=
  inferInstanceAs (Decidable (_ ∧ _))

section
variable {mem bs bs' e e' : List UInt8} {off off' i n aid : Nat} {b : BitVec 16}

theorem byteAt_drop (mem : List UInt8) (off i : Nat) : byteAt (mem.drop off) i = byteAt mem (off + i) := by
  simp [byteAt]

theorem byteAt_writeAt_of_lt (h : i < off) : byteAt (writeAt mem off bs) i = byteAt mem i := by
  have hlen : (mem.take off ++ List.replicate (off - mem.length) 0).length = off := by simp; omega
  simp only [byteAt, writeAt, List.append_assoc (mem.take off ++ _)]
  rw [List.getElem?_append_left (by omega)]
  rcases Nat.lt_or_ge i mem.length with hi | hi
  · rw [List.getElem?_append_left (by simp; omega), List.getElem?_take_of_lt h]
  · rw [List.getElem?_append_right (by simp; omega), List.getElem?_replicate_of_lt (by simp; omega),
      List.getElem?_eq_none hi]
    rfl

theorem byteAt_writeAt (h : i < bs.length) : byteAt (writeAt mem off bs) (off + i) = byteAt bs i := by
  have hlen : (mem.take off ++ List.replicate (off - mem.length) 0).length = off := by simp; omega
  simp only [byteAt, writeAt, List.append_assoc (mem.take off ++ _)]
  rw [List.getElem?_append_right (by omega), hlen, Nat.add_sub_cancel_left, List.getElem?_append_left h]

theorem testBit_low (h : i < 8) : (UInt8.ofNat b.toNat).toNat.testBit i = b.getLsbD i := by
  rw [UInt8.toNat_ofNat', Nat.testBit_mod_two_pow, BitVec.testBit_toNat]
  simp [h]

theorem testBit_high (h : i < 8) : (UInt8.ofNat (b.toNat / 256)).toNat.testBit i = b.getLsbD (i + 8) := by
  rw [UInt8.toNat_ofNat', Nat.testBit_mod_two_pow, show 256 = 2 ^ 8 from rfl, Nat.testBit_div_two_pow,
    BitVec.testBit_toNat]
  simp [h]

theorem and_high_eq_zero : b &&& 0xff00 = 0 ↔ ∀ i, 8 ≤ i → b.getLsbD i = false := by
  constructor
  · intro h i hi
    rcases Nat.lt_or_ge i 16 with hlt | hge
    · have hbit : (b &&& 0xff00).getLsbD i = false := by rw [h]; simp
      rw [BitVec.getLsbD_and] at hbit
      interval_cases i <;> simpa using hbit
    · exact BitVec.getLsbD_of_ge b i hge
  · intro h
    refine BitVec.eq_of_getLsbD_eq fun i hi => ?_
    rcases Nat.lt_or_ge i 8 with hlt | hge
    · rw [BitVec.getLsbD_and]
      interval_cases i <;> simp
    · rw [BitVec.getLsbD_and, h i hge]
      simp

theorem and_one_ne_zero : b &&& 1 ≠ 0 ↔ b.getLsbD 0 := by
  rw [not_iff_comm]
  constructor
  · intro h
    refine BitVec.eq_of_getLsbD_eq fun i hi => ?_
    rcases Nat.eq_zero_or_pos i with rfl | hpos
    · simpa using h
    · rw [BitVec.getLsbD_and]
      interval_cases i <;> simp
  · intro h
    have hbit : (b &&& 1).getLsbD 0 = false := by rw [h]; simp
    simpa using hbit

theorem length_timIe : (timIe b).length = byteAt (timIe b) 1 + 2 := by
  unfold timIe
  dsimp only
  split <;> rfl

theorem four_lt_timIe (b : BitVec 16) : 4 < (timIe b).length := by
  unfold timIe
  dsimp only
  split <;> exact Nat.le_add_left ..

theorem byteAt_timIe_ctrl : byteAt (timIe b) 4 = if b.getLsbD 0 then 1 else 0 := by
  have hctrl : byteAt (timIe b) 4 = if b &&& 1 ≠ 0 then 1 else 0 := by
    unfold timIe
    dsimp only
    split <;> simp only [byteAt] <;> split <;> rfl
  rw [hctrl]
  simp only [and_one_ne_zero]

/-- The reader looks at the bytes of the element alone. -/
theorem timIndicates_congr (h : ∀ i < (timIe b).length, byteAt e i = byteAt (timIe b) i) :
    timIndicates e aid ↔ timIndicates (timIe b) aid := by
  have hlen := length_timIe (b := b)
  have h4 := four_lt_timIe b
  unfold timIndicates
  dsimp only
  rw [h 1 (by omega), h 4 h4]
  refine and_congr_right fun hle => and_congr_right fun hlt => ?_
  rw [h _ (by omega)]

/-- With the offset 0 the octets are those of the first stations. -/
theorem timIndicates_timIe : timIndicates (timIe b) aid ↔
    aid / 8 + 3 < byteAt (timIe b) 1 ∧ (byteAt (timIe b) (5 + aid / 8)).testBit (aid % 8) := by
  have hn1 : 2 * (byteAt (timIe b) 4 / 2) = 0 := by
    rw [byteAt_timIe_ctrl]
    split <;> rfl
  unfold timIndicates
  dsimp only
  rw [hn1]
  simp

theorem timIe_of_both (h : b &&& 0xff00 ≠ 0 ∧ b &&& 0x00fe ≠ 0) : byteAt (timIe b) 1 = 5 ∧
    byteAt (timIe b) 5 = (UInt8.ofNat b.toNat).toNat ∧ byteAt (timIe b) 6 = (UInt8.ofNat (b.toNat / 256)).toNat := by
  simp only [timIe, if_pos h]
  exact ⟨rfl, rfl, rfl⟩

theorem timIe_of_low (h : b &&& 0xff00 = 0) :
    byteAt (timIe b) 1 = 4 ∧ byteAt (timIe b) 5 = (UInt8.ofNat b.toNat).toNat := by
  simp only [timIe, h, ne_eq, not_true, false_and, if_false, ite_self]
  split <;> exact ⟨rfl, rfl⟩

theorem timIe_of_onlyHigh (h : OnlyHighOctet b) : byteAt (timIe b) 1 = 4 := by
  simp only [timIe, h.2, ne_eq, not_true, and_false, if_false]
  rfl

theorem timReports_timIe : TimReports b (timIe b) ↔ ¬ OnlyHighOctet b := by
  constructor
  · intro hr hhigh
    -- a station of the second octet is not announced
    have hex : ∃ i, 8 ≤ i ∧ b.getLsbD i := by
      by_contra hno
      push Not at hno
      exact hhigh.1 (and_high_eq_zero.2 fun i hi => by simpa using hno i hi)
    obtain ⟨i, hi, hbit⟩ := hex
    have hind := timIndicates_timIe.1 ((hr.station i (by omega)).2 hbit)
    rw [timIe_of_onlyHigh hhigh] at hind
    omega
  · intro hhigh
    refine ⟨fun aid _ => ?_, ?_⟩
    · rw [timIndicates_timIe]
      by_cases h0 : b &&& 0xff00 = 0
      · obtain ⟨hlen, hlow⟩ := timIe_of_low h0
        rw [hlen]
        rcases Nat.lt_or_ge aid 8 with hlt | hge
        · have hdiv : aid / 8 = 0 := by omega
          have hmod : aid % 8 = aid := Nat.mod_eq_of_lt hlt
          rw [hdiv, hmod, hlow, testBit_low hlt]
          simp
        · rw [and_high_eq_zero.1 h0 aid hge]
          simp
          omega
      · have h1 : b &&& 0x00fe ≠ 0 := fun h1 => hhigh ⟨h0, h1⟩
        obtain ⟨hlen, hlow, hhi⟩ := timIe_of_both ⟨h0, h1⟩
        rw [hlen]
        rcases Nat.lt_or_ge aid 8 with hlt | hge
        · have hdiv : aid / 8 = 0 := by omega
          have hmod : aid % 8 = aid := Nat.mod_eq_of_lt hlt
          rw [hdiv, hmod, hlow, testBit_low hlt]
          simp
        rcases Nat.lt_or_ge aid 16 with hlt' | hge'
        · have hdiv : aid / 8 = 1 := by omega
          rw [hdiv, hhi, testBit_high (Nat.mod_lt aid (by decide)), show aid % 8 + 8 = aid by omega]
          simp
        · rw [BitVec.getLsbD_of_ge b aid hge']
          simp
          omega
    · rw [byteAt_timIe_ctrl]
      cases b.getLsbD 0 <;> simp

/-- The element that is written is found where it was put. -/
theorem byteAt_updateBcntim (malloc : Nat → Bool) (b : BitVec 16) (net : BcnIes) (h : i < (timIe b).length) :
    byteAt ((updateBcntim malloc b net).ies.drop (timPlace net).2) i = byteAt (timIe b) i := by
  rw [byteAt_drop]
  unfold updateBcntim
  dsimp only
  rw [byteAt_writeAt_of_lt (by omega), byteAt_writeAt h]

end

/-- The stations read the bitmap out of the element that is written, exactly when not only the second
octet of the bitmap is in use. -/
theorem timReports_iff (malloc : Nat → Bool) (timBitmap : BitVec 16) (net : BcnIes) :
    TimReports timBitmap ((updateBcntim malloc timBitmap net).ies.drop (timPlace net).2) ↔
      ¬ OnlyHighOctet timBitmap := by
  rw [← timReports_timIe]
  have hsame := fun i (hi : i < (timIe timBitmap).length) => byteAt_updateBcntim malloc timBitmap net hi
  have h4 := four_lt_timIe timBitmap
  constructor
  · intro hr
    refine ⟨fun aid haid => ?_, ?_⟩
    · rw [← hr.station aid haid, timIndicates_congr hsame]
    · rw [← hr.group, hsame 4 h4]
  · intro hr
    refine ⟨fun aid haid => ?_, ?_⟩
    · rw [← hr.station aid haid, timIndicates_congr hsame]
    · rw [← hr.group, hsame 4 h4]

/-- The elements of a small beacon: SSID, a rate, the channel and a TIM element. -/
def smallBcn : BcnIes :=
  ⟨.replicate 12 0 ++ [0, 2, 0x61, 0x70, 1, 1, 0x82, 3, 1, 6, 5, 4, 0, 1, 0, 0], 28⟩

/-- With traffic for the station 9 alone, the beacon announces traffic for the station 1. -/
theorem not_timReports_aid9 :
    ¬ TimReports 0x0200 ((updateBcntim (fun _ => true) 0x0200 smallBcn).ies.drop (timPlace smallBcn).2) := by
  intro h
  have h1 := h.station 1 (by decide)
  revert h1
  decide

end Rtw
