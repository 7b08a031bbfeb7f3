import Rtw.Lib.Access
import Rtw.Mlme.BcnInfo

/-!
# What is read of a WPA element

`rtw_parse_wpa_ie` and `rtw_parse_wpa2_ie` take the ciphers and the key management out of an element of a given length,
the memory going on behind it. `secIeOk_iff`: they are right exactly if the header is long enough for what is compared
with it, and of the list of key managements, whose length they do not look at, the first one is all that matters.
-/

namespace Rtw
open Access Traced

/-- What the two parsers differ in. -/
structure SecIe where
  id : Nat
  /-- What the four octets behind the length are compared with. -/
  ouiType : Option (List Nat)
  hdrLen : Nat
  oui : List Nat

def wpaSecIe : SecIe := ⟨0xdd, some (ouiMicrosoft ++ [1]), 8, ouiMicrosoft⟩

def rsnSecIe : SecIe := ⟨0x30, none, 4, [0x00, 0x0f, 0xac]⟩

/-- What a parser leaves in variables that its caller has set to 0. -/
structure SecParsed where
  groupCipher : Nat
  pairwiseCipher : Nat
  is8021x : Nat

def octetsAt (ie : List UInt8) (pos n : Nat) : List Nat := (List.range n).map fun i => byteAt ie (pos + i)

namespace SecIe
variable (k : SecIe) (ie : List UInt8)

/-- `SUITE_1X` at `pos` -/
def Is1x (pos : Nat) : Prop := octetsAt ie pos 4 = k.oui ++ [1]

instance (pos : Nat) : Decidable (k.Is1x ie pos) := inferInstanceAs (Decidable (_ = _))

/-- The loop over the pairwise ciphers. -/
def pairwiseT : Nat → Nat → Nat → Traced Unit Nat
  | 0, _, cipher => pure cipher
  | n + 1, pos, cipher => do
    touch () (pos : Nat) 4
    pairwiseT n (pos + 4) (cipher ||| cipherSuite k.oui ie pos)

/-- The lines for `is_8021x`, which may be `NULL`. -/
def is8021xT (is8021x : Bool) (pos : Nat) (left : Int) : Traced Unit Nat :=
  if is8021x ∧ left ≥ 6 then do
    touch () (pos + 2 : Nat) 4
    return if k.Is1x ie (pos + 2) then 1 else 0
  else return 0

/-- From the pairwise ciphers on. -/
def ciphersT (is8021x : Bool) (group : Nat) (pos : Nat) (left : Int) : Traced Unit (SecParsed × Bool) :=
  if left ≥ 2 then do
    touch () (pos : Nat) 2
    let count := byteAt ie pos + 256 * byteAt ie (pos + 1)
    if count = 0 ∨ left - 2 < count * 4 then return (⟨group, 0, 0⟩, false)
    else
      let pairwise ← k.pairwiseT ie count (pos + 2) 0
      let found ← k.is8021xT ie is8021x (pos + 2 + 4 * count) (left - 2 - 4 * count)
      return (⟨group, pairwise, found⟩, true)
  else if left = 1 then return (⟨group, 0, 0⟩, false)
  else do
    let found ← k.is8021xT ie is8021x pos left
    return (⟨group, 0, found⟩, true)

/-- From the group cipher on. -/
def bodyT (is8021x : Bool) (pos : Nat) (left : Int) : Traced Unit (SecParsed × Bool) :=
  if left ≥ 4 then do
    touch () (pos : Nat) 4
    k.ciphersT ie is8021x (cipherSuite k.oui ie pos) (pos + 4) (left - 4)
  else if left > 0 then return (⟨0, 0, 0⟩, false)
  else k.ciphersT ie is8021x 0 pos left

/-- The common text of the two parsers; `ie` is the memory from the element on. -/
def parseT (ieLen : Int) (is8021x : Bool) : Traced Unit (SecParsed × Bool) :=
  if ieLen ≤ 0 then return (⟨0, 0, 0⟩, false)
  else do
    touch () 0 1
    if byteAt ie 0 ≠ k.id then return (⟨0, 0, 0⟩, false)
    else
      touch () 1 1
      if (byteAt ie 1 : Int) ≠ (ieLen - 2) % 256 then return (⟨0, 0, 0⟩, false)
      else
        touchIf (k.ouiType ≠ none) () 2 4
        if ∃ t ∈ k.ouiType, octetsAt ie 2 4 ≠ t then return (⟨0, 0, 0⟩, false)
        else k.bodyT ie is8021x k.hdrLen (ieLen - k.hdrLen)

end SecIe

/-- `rtw_parse_wpa_ie` -/
def rtwParseWpaIeT (wpaIe : List UInt8) (wpaIeLen : Int) (is8021x : Bool) : Traced Unit (SecParsed × Bool) :=
  wpaSecIe.parseT wpaIe wpaIeLen is8021x

/-- `rtw_parse_wpa2_ie` -/
def rtwParseWpa2IeT (rsnIe : List UInt8) (rsnIeLen : Int) (is8021x : Bool) : Traced Unit (SecParsed × Bool) :=
  rsnSecIe.parseT rsnIe rsnIeLen is8021x

namespace SecIe
variable (k : SecIe) (ie : List UInt8)

/-- Where the pairwise ciphers are, behind the group cipher and their number. -/
def pairwiseOff : Nat := k.hdrLen + 6

def pairwiseCount : Nat := byteAt ie (k.hdrLen + 4) + 256 * byteAt ie (k.hdrLen + 5)

/-- Where the number of the key managements is. -/
def akmOff : Nat := k.pairwiseOff + 4 * k.pairwiseCount ie

def akmCount : Nat := byteAt ie (k.akmOff ie) + 256 * byteAt ie (k.akmOff ie + 1)

/-- The parse of an element of `ieLen` bytes is right. -/
structure ParseOk (ieLen : Int) (is8021x : Bool) (m : Traced Unit (SecParsed × Bool)) : Prop where
  inside : Within (fun _ => ieLen.toNat) m
  pairwiseFits : m.val.2 = true → k.pairwiseOff ≤ ieLen → k.akmOff ie ≤ ieLen
  akmFits : m.val.2 = true → k.akmOff ie + 2 ≤ ieLen → k.akmOff ie + 2 + 4 * k.akmCount ie ≤ ieLen
  pairwise : m.val.2 = true → ∀ b, m.val.1.pairwiseCipher.testBit b = true ↔ k.pairwiseOff ≤ ieLen ∧
    ∃ i < k.pairwiseCount ie, (cipherSuite k.oui ie (k.pairwiseOff + 4 * i)).testBit b = true
  akm : m.val.2 = true → is8021x = true → (m.val.1.is8021x = 1 ↔ k.akmOff ie + 2 ≤ ieLen ∧
    ∃ i < k.akmCount ie, k.Is1x ie (k.akmOff ie + 2 + 4 * i))

/-- The header is as long as what is compared with it. -/
def HdrReads (ieLen : Int) : Prop :=
  0 < ieLen → byteAt ie 0 = k.id →
    2 ≤ ieLen ∧ ((byteAt ie 1 : Int) = (ieLen - 2) % 256 → k.ouiType ≠ none → 6 ≤ ieLen)

def HdrOk (ieLen : Int) : Prop :=
  0 < ieLen ∧ byteAt ie 0 = k.id ∧ (byteAt ie 1 : Int) = (ieLen - 2) % 256 ∧ ∀ t ∈ k.ouiType, octetsAt ie 2 4 = t

/-- The ciphers are not cut off, and there are some. -/
def CiphersOk (ieLen : Int) : Prop :=
  (ieLen ≤ k.hdrLen ∨ k.hdrLen + 4 ≤ ieLen) ∧ ieLen ≠ k.hdrLen + 5 ∧
    (k.pairwiseOff ≤ ieLen → k.pairwiseCount ie ≠ 0 ∧ k.akmOff ie ≤ ieLen)

/-- The key managements are complete, and where 802.1X is one, it is the first; without any, what is behind their
number is not the suite. -/
def AkmOk (ieLen : Int) (is8021x : Bool) : Prop :=
  k.akmOff ie + 2 ≤ ieLen → k.akmOff ie + 2 + 4 * k.akmCount ie ≤ ieLen ∧ (is8021x = true →
    if k.akmCount ie = 0 then ¬ (k.akmOff ie + 6 ≤ ieLen ∧ k.Is1x ie (k.akmOff ie + 2))
    else (∃ i < k.akmCount ie, k.Is1x ie (k.akmOff ie + 2 + 4 * i)) → k.Is1x ie (k.akmOff ie + 2))

section
variable {k : SecIe} {ie : List UInt8} {ieLen left : Int} {is8021x : Bool} {n pos cipher group : Nat}

theorem within_pairwiseT {size : Unit → Nat} (h : pos + 4 * n ≤ size ()) :
    Within size (k.pairwiseT ie n pos cipher) := by
  induction n generalizing pos cipher with
  | zero => exact within_pure
  | succ n ih => exact within_bind.2 ⟨within_touch_nat.2 (.inr (by omega)), ih (by omega)⟩

theorem testBit_pairwiseT {b : Nat} : (k.pairwiseT ie n pos cipher).val.testBit b = true ↔
    cipher.testBit b = true ∨ ∃ i < n, (cipherSuite k.oui ie (pos + 4 * i)).testBit b = true := by
  induction n generalizing pos cipher with
  | zero => exact ⟨.inl, fun h => h.resolve_right fun ⟨_, hlt, _⟩ => absurd hlt (Nat.not_lt_zero _)⟩
  | succ n ih =>
    show (k.pairwiseT ie n (pos + 4) (cipher ||| cipherSuite k.oui ie pos)).val.testBit b = true ↔ _
    rw [ih, Nat.testBit_or, Bool.or_eq_true, or_assoc]
    refine or_congr_right ?_
    constructor
    · rintro (h | ⟨i, hi, h⟩)
      · exact ⟨0, Nat.zero_lt_succ n, h⟩
      · refine ⟨i + 1, Nat.succ_lt_succ hi, ?_⟩
        rwa [show pos + 4 * (i + 1) = pos + 4 + 4 * i by omega]
    · rintro ⟨i, hi, h⟩
      cases i with
      | zero => exact .inl h
      | succ i =>
        rw [show pos + 4 * (i + 1) = pos + 4 + 4 * i by omega] at h
        exact .inr ⟨i, Nat.lt_of_succ_lt_succ hi, h⟩

theorem val_pairwiseT : (k.pairwiseT ie n pos cipher).val =
    ((List.range n).map fun i => cipherSuite k.oui ie (pos + 4 * i)).foldl (· ||| ·) cipher := by
  induction n generalizing pos cipher with
  | zero => rfl
  | succ n ih =>
    have hshift : ((List.range n).map fun i => cipherSuite k.oui ie (pos + 4 * (i + 1))) =
        (List.range n).map fun i => cipherSuite k.oui ie (pos + 4 + 4 * i) := by
      refine List.map_congr_left fun i _ => ?_
      congr 1
      omega
    rw [List.range_succ_eq_map, List.map_cons, List.map_map, List.foldl_cons]
    refine ih.trans ?_
    rw [← hshift]
    rfl

/-- The element is `ieLen` bytes long, of which `left` are from `pos` on. -/
theorem within_is8021xT (h : (pos : Int) + left ≤ ieLen) :
    Within (fun _ => ieLen.toNat) (k.is8021xT ie is8021x pos left) := by
  unfold is8021xT
  split
  · exact within_bind.2 ⟨within_touch_nat.2 (.inr (by omega)), within_pure⟩
  · exact within_pure

theorem val_is8021xT : (k.is8021xT ie is8021x pos left).val =
    if (is8021x ∧ left ≥ 6) ∧ k.Is1x ie (pos + 2) then 1 else 0 := by
  unfold is8021xT
  rw [ite_and (is8021x = true ∧ left ≥ 6)]
  split <;> rfl

theorem within_ciphersT (h : (pos : Int) + left ≤ ieLen) :
    Within (fun _ => ieLen.toNat) (k.ciphersT ie is8021x group pos left) := by
  unfold ciphersT
  split
  · refine within_bind.2 ⟨within_touch_nat.2 (.inr (by omega)), ?_⟩
    dsimp only
    split
    · exact within_pure
    · refine within_bind.2 ⟨within_pairwiseT ?_, within_bind.2 ⟨within_is8021xT ?_, within_pure⟩⟩ <;> omega
  · split
    · exact within_pure
    · exact within_bind.2 ⟨within_is8021xT h, within_pure⟩

theorem within_bodyT (h : (pos : Int) + left ≤ ieLen) :
    Within (fun _ => ieLen.toNat) (k.bodyT ie is8021x pos left) := by
  unfold bodyT
  split
  · exact within_bind.2 ⟨within_touch_nat.2 (.inr (by omega)), within_ciphersT (by omega)⟩
  · split
    · exact within_pure
    · exact within_ciphersT h

/-- The three variables. -/
def SecParsed.keys (p : SecParsed) : Nat × Nat × Nat := (p.groupCipher, p.pairwiseCipher, p.is8021x)

theorem keys_ciphersT : SecParsed.keys (k.ciphersT ie true group pos left).val.1 =
    if left ≥ 2 then
      let count := byteAt ie pos + 256 * byteAt ie (pos + 1)
      if count = 0 ∨ left - 2 < count * 4 then (group, 0, 0)
      else
        (group, ((List.range count).map fun i => cipherSuite k.oui ie (pos + 2 + 4 * i)).foldl (· ||| ·) 0,
          if left - 2 - 4 * count ≥ 6 ∧ octetsAt ie (pos + 2 + 4 * count + 2) 4 = k.oui ++ [1] then 1 else 0)
    else (group, 0, 0) := by
  unfold ciphersT
  split
  · rw [val_bind]
    dsimp only
    split
    · rfl
    · rw [val_bind, val_bind, val_pure, val_is8021xT, val_pairwiseT, SecParsed.keys]
      refine congrArg (fun x => (_, _, x)) (if_congr ?_ rfl rfl)
      rw [and_iff_right rfl]
      rfl
  · split
    · rfl
    · rw [val_bind, val_pure, val_is8021xT, if_neg (by omega)]
      rfl

/-- The keys of a beacon are what the parser leaves. -/
theorem parseKeys_eq : parseKeys k.oui ie pos left = SecParsed.keys (k.bodyT ie true pos left).val.1 := by
  unfold parseKeys bodyT
  by_cases hfour : left ≥ 4
  · rw [if_neg (by omega)]
    simp only [if_pos hfour, val_bind, keys_ciphersT]
    rfl
  · simp only [if_neg hfour]
    by_cases hpos : left > 0
    · rw [if_pos ⟨hpos, by omega⟩, if_pos hpos]
      rfl
    · rw [if_neg (fun h => hpos h.1), if_neg hpos, keys_ciphersT]
      rfl

/-- All that is behind the header is read inside the element. -/
theorem within_parseT : Within (fun _ => ieLen.toNat) (k.parseT ie ieLen is8021x) ↔ k.HdrReads ie ieLen := by
  unfold parseT HdrReads
  by_cases hlen : ieLen ≤ 0
  · rw [if_pos hlen]
    exact iff_of_true within_pure fun h => absurd hlen (by omega)
  rw [if_neg hlen, within_bind, within_touch, imp_iff_right (Int.not_le.1 hlen)]
  rw [and_iff_right (.inr ⟨Int.le_refl 0, by omega⟩)]
  by_cases hid : byteAt ie 0 = k.id
  · rw [if_neg (not_not_intro hid), imp_iff_right hid, within_bind, within_touch]
    refine and_congr (by omega) ?_
    by_cases hsize : (byteAt ie 1 : Int) = (ieLen - 2) % 256
    · rw [if_neg (not_not_intro hsize), imp_iff_right hsize, within_bind, within_touchIf, within_touch]
      refine (and_iff_left ?_).trans (imp_congr_right fun _ => by omega)
      split
      · exact within_pure
      · exact within_bodyT (by omega)
    · rw [if_pos hsize]
      exact iff_of_true within_pure fun h => absurd h hsize
  · rw [if_pos hid]
    exact iff_of_true within_pure fun h => absurd h hid

/-- What comes out for an element whose ciphers are not cut off. -/
def parsed (k : SecIe) (ie : List UInt8) (ieLen : Int) (is8021x : Bool) : SecParsed where
  groupCipher := if k.hdrLen + 4 ≤ ieLen then cipherSuite k.oui ie k.hdrLen else 0
  pairwiseCipher := if k.pairwiseOff ≤ ieLen then (k.pairwiseT ie (k.pairwiseCount ie) k.pairwiseOff 0).val else 0
  is8021x := if (is8021x ∧ k.akmOff ie + 6 ≤ ieLen) ∧ k.Is1x ie (k.akmOff ie + 2) then 1 else 0

theorem val_bodyT_of_ok (h : k.CiphersOk ie ieLen) :
    (k.bodyT ie is8021x k.hdrLen (ieLen - k.hdrLen)).val = (k.parsed ie ieLen is8021x, true) := by
  obtain ⟨hgroup, hne, hpair⟩ := h
  have hoff : k.pairwiseOff = k.hdrLen + 6 := rfl
  have hakm : k.akmOff ie = k.pairwiseOff + 4 * k.pairwiseCount ie := rfl
  have hcount : k.pairwiseCount ie = byteAt ie (k.hdrLen + 4) + 256 * byteAt ie (k.hdrLen + 5) := rfl
  have hshort {pos : Nat} {left : Int} (hl : left < 6) (hlen : ¬ k.pairwiseOff ≤ ieLen) :
      (k.is8021xT ie is8021x pos left).val = (k.parsed ie ieLen is8021x).is8021x := by
    rw [val_is8021xT, if_neg (fun hc => by omega), parsed]
    exact (if_neg fun hc => by omega).symm
  unfold bodyT
  split
  · case isTrue hfour =>
    rw [val_bind]
    unfold ciphersT
    split
    · case isTrue htwo =>
      have hlen : k.pairwiseOff ≤ ieLen := by omega
      obtain ⟨hzero, hfits⟩ := hpair hlen
      have hleft : ieLen - k.hdrLen - 4 - 2 - 4 * (k.pairwiseCount ie : Nat) = ieLen - k.akmOff ie := by omega
      have hfound : (k.is8021xT ie is8021x (k.akmOff ie) (ieLen - k.akmOff ie)).val =
          (k.parsed ie ieLen is8021x).is8021x := by
        have hsix : ieLen - k.akmOff ie ≥ 6 ↔ k.akmOff ie + 6 ≤ ieLen := by omega
        rw [val_is8021xT]
        exact if_congr (and_congr_left fun _ => and_congr_right fun _ => hsix) rfl rfl
      rw [val_bind]
      dsimp only
      rw [← hcount, if_neg (by omega), hleft, val_bind, val_bind, val_pure]
      refine (congrArg (fun x => (SecParsed.mk _ _ x, true)) hfound).trans ?_
      rw [parsed, if_pos (by omega), if_pos hlen]
      rfl
    · case isFalse htwo =>
      rw [if_neg (by omega), val_bind, val_pure, hshort (by omega) (by omega), parsed, if_pos (by omega),
        if_neg (by omega)]
  · case isFalse hfour =>
    rw [if_neg (by omega)]
    unfold ciphersT
    rw [if_neg (by omega), if_neg (by omega), val_bind, val_pure, hshort (by omega) (by omega), parsed,
      if_neg (by omega), if_neg (by omega)]

theorem bodyT_of_not_ok (h : ¬ k.CiphersOk ie ieLen) :
    (k.bodyT ie is8021x k.hdrLen (ieLen - k.hdrLen)).val.2 = false := by
  have hoff : k.pairwiseOff = k.hdrLen + 6 := rfl
  have hakm : k.akmOff ie = k.pairwiseOff + 4 * k.pairwiseCount ie := rfl
  have hcount : k.pairwiseCount ie = byteAt ie (k.hdrLen + 4) + 256 * byteAt ie (k.hdrLen + 5) := rfl
  unfold CiphersOk at h
  unfold bodyT
  split
  · case isTrue hfour =>
    rw [val_bind]
    unfold ciphersT
    split
    · case isTrue htwo =>
      rw [val_bind]
      dsimp only
      rw [← hcount, if_pos (by omega)]
      rfl
    · case isFalse htwo =>
      rw [if_pos (by omega)]
      rfl
  · case isFalse hfour =>
    rw [if_pos (by omega)]
    rfl

theorem val_parseT_of_hdr (h : k.HdrOk ie ieLen) : (k.parseT ie ieLen is8021x).val =
    (k.bodyT ie is8021x k.hdrLen (ieLen - k.hdrLen)).val := by
  obtain ⟨hlen, hid, hsize, htype⟩ := h
  have htype' : ¬ ∃ t ∈ k.ouiType, octetsAt ie 2 4 ≠ t := fun ⟨t, ht, hne⟩ => hne (htype t ht)
  unfold parseT
  rw [if_neg (by omega), val_bind, if_neg (not_not_intro hid), val_bind, if_neg (not_not_intro hsize), val_bind,
    if_neg htype']

theorem parseT_of_not_hdr (h : ¬ k.HdrOk ie ieLen) : (k.parseT ie ieLen is8021x).val.2 = false := by
  unfold parseT
  split
  · rfl
  rw [val_bind]
  split
  · rfl
  rw [val_bind]
  split
  · rfl
  rw [val_bind]
  split
  · rfl
  · case isFalse hlen hid hsize htype =>
    refine absurd ⟨by omega, not_not.1 hid, not_not.1 hsize, fun t ht => ?_⟩ h
    exact not_not.1 fun hne => htype ⟨t, ht, hne⟩

/-- An element is accepted if its header is right and its ciphers are not cut off. -/
theorem parseT_accepts : (k.parseT ie ieLen is8021x).val.2 = true ↔ k.HdrOk ie ieLen ∧ k.CiphersOk ie ieLen := by
  by_cases hhdr : k.HdrOk ie ieLen
  · rw [val_parseT_of_hdr hhdr, and_iff_right hhdr]
    by_cases hbody : k.CiphersOk ie ieLen
    · rw [val_bodyT_of_ok hbody]
      exact iff_of_true rfl hbody
    · rw [bodyT_of_not_ok hbody]
      exact iff_of_false Bool.false_ne_true hbody
  · rw [parseT_of_not_hdr hhdr]
    exact iff_of_false Bool.false_ne_true fun h => hhdr h.1

theorem parsed_is8021x (hwant : is8021x = true) : (k.parsed ie ieLen is8021x).is8021x = 1 ↔
    k.akmOff ie + 6 ≤ ieLen ∧ k.Is1x ie (k.akmOff ie + 2) := by
  unfold parsed
  dsimp only
  rw [hwant]
  split
  · case isTrue h => exact iff_of_true rfl ⟨h.1.2, h.2⟩
  · case isFalse h => exact iff_of_false Nat.zero_ne_one fun hc => h ⟨⟨rfl, hc.1⟩, hc.2⟩

/-- That the first suite is 802.1X is the same as that some suite is. -/
theorem is1x_first_iff (hoff : k.akmOff ie + 2 + 4 * k.akmCount ie ≤ ieLen) :
    ((k.akmOff ie + 6 ≤ ieLen ∧ k.Is1x ie (k.akmOff ie + 2)) ↔
      ∃ i < k.akmCount ie, k.Is1x ie (k.akmOff ie + 2 + 4 * i)) ↔
    if k.akmCount ie = 0 then ¬ (k.akmOff ie + 6 ≤ ieLen ∧ k.Is1x ie (k.akmOff ie + 2))
    else (∃ i < k.akmCount ie, k.Is1x ie (k.akmOff ie + 2 + 4 * i)) → k.Is1x ie (k.akmOff ie + 2) := by
  split
  · case isTrue hzero =>
    have hnone : ¬ ∃ i < k.akmCount ie, k.Is1x ie (k.akmOff ie + 2 + 4 * i) := by
      rintro ⟨i, hi, -⟩
      omega
    rw [iff_false_right hnone]
  · case isFalse hne =>
    rw [and_iff_right (by omega)]
    exact ⟨fun h => h.2, fun h => ⟨fun hfirst => ⟨0, Nat.pos_of_ne_zero hne, hfirst⟩, h⟩⟩

theorem parseOk_iff : k.ParseOk ie ieLen is8021x (k.parseT ie ieLen is8021x) ↔
    k.HdrReads ie ieLen ∧ (k.HdrOk ie ieLen → k.CiphersOk ie ieLen → k.AkmOk ie ieLen is8021x) := by
  constructor
  · rintro ⟨hin, -, hfits, -, hakm⟩
    refine ⟨within_parseT.1 hin, fun hhdr hbody hcount => ?_⟩
    have hacc : (k.parseT ie ieLen is8021x).val.2 = true := parseT_accepts.2 ⟨hhdr, hbody⟩
    refine ⟨hfits hacc hcount, fun hwant => (is1x_first_iff (hfits hacc hcount)).1 ?_⟩
    have := hakm hacc hwant
    rwa [val_parseT_of_hdr hhdr, val_bodyT_of_ok hbody, parsed_is8021x hwant, and_iff_right hcount] at this
  · rintro ⟨hreads, hok⟩
    refine ⟨within_parseT.2 hreads, fun hacc hlen => ?_, fun hacc hcount => ?_, fun hacc b => ?_,
      fun hacc hwant => ?_⟩
    all_goals obtain ⟨hhdr, hbody⟩ := parseT_accepts.1 hacc
    · exact (hbody.2.2 hlen).2
    · exact (hok hhdr hbody hcount).1
    · rw [val_parseT_of_hdr hhdr, val_bodyT_of_ok hbody, parsed]
      dsimp only
      split
      · case isTrue hlen =>
        rw [testBit_pairwiseT, Nat.zero_testBit, and_iff_right hlen]
        exact or_iff_right Bool.false_ne_true
      · case isFalse hlen =>
        rw [Nat.zero_testBit]
        exact iff_of_false Bool.false_ne_true fun h => hlen h.1
    · rw [val_parseT_of_hdr hhdr, val_bodyT_of_ok hbody, parsed_is8021x hwant]
      by_cases hcount : k.akmOff ie + 2 ≤ ieLen
      · obtain ⟨hfits, hfirst⟩ := hok hhdr hbody hcount
        rw [and_iff_right hcount]
        exact (is1x_first_iff hfits).2 (hfirst hwant)
      · exact iff_of_false (fun h => hcount (by omega)) fun h => hcount h.1

end

end SecIe

/-- Both parsers are right exactly where their headers are long enough and the first key management says it all. -/
theorem secIeOk_iff (ie : List UInt8) (ieLen : Int) (is8021x : Bool) :
    (wpaSecIe.ParseOk ie ieLen is8021x (rtwParseWpaIeT ie ieLen is8021x) ↔ wpaSecIe.HdrReads ie ieLen ∧
      (wpaSecIe.HdrOk ie ieLen → wpaSecIe.CiphersOk ie ieLen → wpaSecIe.AkmOk ie ieLen is8021x)) ∧
    (rsnSecIe.ParseOk ie ieLen is8021x (rtwParseWpa2IeT ie ieLen is8021x) ↔ rsnSecIe.HdrReads ie ieLen ∧
      (rsnSecIe.HdrOk ie ieLen → rsnSecIe.CiphersOk ie ieLen → rsnSecIe.AkmOk ie ieLen is8021x)) :=
  ⟨SecIe.parseOk_iff, SecIe.parseOk_iff⟩

/-- An RSN element with the key managements PSK and 802.1X. -/
def pskFirst : List UInt8 :=
  [0x30, 22, 1, 0, 0, 0x0f, 0xac, 4, 1, 0, 0, 0x0f, 0xac, 4, 2, 0, 0, 0x0f, 0xac, 2, 0, 0x0f, 0xac, 1]

theorem not_secIeOk_pskFirst : ¬ ∀ (ie : List UInt8) (ieLen : Int) (is8021x : Bool),
    rsnSecIe.ParseOk ie ieLen is8021x (rtwParseWpa2IeT ie ieLen is8021x) := by
  intro h
  have hakm := (h pskFirst 24 true).akm (by decide) rfl
  exact absurd (hakm.2 ⟨by decide, 1, by decide, by decide⟩) (by decide)

end Rtw
