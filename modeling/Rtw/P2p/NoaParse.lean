import Mathlib.Logic.Function.Basic
import Rtw.Lib.Loop
import Rtw.P2p.AttrContent

/-!
# Notices of absence

`process_p2p_ps_ie` copies the NoA attribute of a beacon into a buffer of 256 bytes and goes over its descriptors with an
offset of 8 bits, for arrays of two entries. `noaOk_iff`: it returns and writes inside its objects exactly if the
attribute fits, and has no more than two descriptors when they are taken over.
-/

namespace Rtw
open Access Traced Scan

def p2pAttrNoa : Nat := 12
def maxP2pIeLen : Nat := 256
def p2pMaxNoaNum : Nat := 2

/-- `enum P2P_PS_MODE` -/
inductive P2pPsMode where
  | none
  | ctwindow
  | noa
  | mix
  deriving DecidableEq

/-- What is asked of the firmware. -/
inductive P2pPsCmd where
  | enable
  | disable
  deriving DecidableEq

/-- An entry of `noa_count`, `noa_duration`, `noa_interval` and `noa_start_time`, as it is in memory. -/
structure NoaDesc where
  count : UInt8
  duration : List UInt8
  interval : List UInt8
  startTime : List UInt8
  deriving DecidableEq

/-- The part of `wifidirect_info` for power save. -/
structure WdNoa where
  /-- `P2P_STATE_NONE` -/
  stateNone : Bool
  p2pPsMode : P2pPsMode
  noaIndex : UInt8
  oppPs : UInt8
  ctwindow : UInt8
  noaNum : UInt8
  noa : Nat → NoaDesc

/-- What `process_p2p_ps_ie` writes to. -/
inductive NoaObj where
  | noaAttr
  | noaCount
  | noaDuration
  | noaInterval
  | noaStartTime

def NoaObj.size : NoaObj → Nat
  | noaAttr => maxP2pIeLen
  | noaCount => p2pMaxNoaNum
  | noaDuration | noaInterval | noaStartTime => 4 * p2pMaxNoaNum

section
variable (ies : List UInt8) (iesLen : Nat)

/-- A round of the search for the attribute, which ends with its content. A walk over attributes that does not end
stays where it is. -/
def psIeRound (ie : Nat × Nat) : Traced NoaObj (Round (Nat × Nat) (Option (Nat × Nat))) :=
  match rtwGetP2pAttrContent ies ie p2pAttrNoa with
  | .found pos len => return .stop (some (pos, len))
  | .endless => return .next ie
  | .notFound =>
    match p2pIeFrom ies iesLen (ie.1 + ie.2) with
    | some ie => return .next ie
    | none => return .stop none

end

/-- `noa_offset`, `noa_num` and the arrays. -/
structure NoaCur where
  offset : UInt8
  num : UInt8
  noa : Nat → NoaDesc

section
variable (noaAttr : Nat → UInt8)

def noaAttrRead (offset : UInt8) : List UInt8 := Splice.read noaAttr offset.toNat 4

/-- The descriptor at an offset of 8 bits. -/
def noaDesc (offset : UInt8) : NoaDesc where
  count := noaAttr offset.toNat
  duration := noaAttrRead noaAttr (offset + 1)
  interval := noaAttrRead noaAttr (offset + 5)
  startTime := noaAttrRead noaAttr (offset + 9)

def NoaCur.step (c : NoaCur) : NoaCur :=
  ⟨c.offset + 13, c.num + 1, Function.update c.noa c.num.toNat (noaDesc noaAttr c.offset)⟩

/-- A round of the loop over the descriptors. -/
def noaRound (attrContentlen : Nat) (c : NoaCur) : Traced NoaObj (Round NoaCur NoaCur) :=
  if c.offset.toNat < attrContentlen then do
    touch .noaCount (c.num.toNat : Nat) 1
    touch .noaDuration (4 * c.num.toNat : Nat) 4
    touch .noaInterval (4 * c.num.toNat : Nat) 4
    touch .noaStartTime (4 * c.num.toNat : Nat) 4
    return .next (c.step noaAttr)
  else return .stop c

end

/-- The loop over the descriptors. -/
def noaLoopT (noaAttr : Nat → UInt8) (attrContentlen fuel : Nat) (c : NoaCur) : Traced NoaObj (Option NoaCur) :=
  if attrContentlen > 2 then loopT (noaRound noaAttr attrContentlen) fuel c else return some c

/-- The lines behind the loop: the mode, and what is asked of the firmware. -/
def noaMode (fwCurrentInPSMode : Bool) (w : WdNoa) : WdNoa × Option P2pPsCmd :=
  if w.oppPs = 1 then ({ w with p2pPsMode := .ctwindow }, if fwCurrentInPSMode then some .enable else none)
  else if w.noaNum > 0 then ({ w with p2pPsMode := .noa }, some .enable)
  else (w, if w.p2pPsMode ≠ .none then some .disable else none)

/-- The attribute is that of another instance, or the first one. -/
def NoaTaken (w : WdNoa) (noaAttr : Nat → UInt8) : Prop := w.p2pPsMode = .none ∨ noaAttr 0 ≠ w.noaIndex

instance (w : WdNoa) (noaAttr : Nat → UInt8) : Decidable (NoaTaken w noaAttr) := inferInstanceAs (Decidable (_ ∨ _))

/-- `noa_attr` with `len` bytes of content, zero behind. -/
def noaAttrOf (ies : List UInt8) (pos len : Nat) : Nat → UInt8 := fun i =>
  if i < len then ies[pos + i]?.getD 0 else 0

/-- The lines for an attribute that has been found. -/
def noaFoundT (w : WdNoa) (fwCurrentInPSMode : Bool) (ies : List UInt8) (pos len fuel : Nat) :
    Traced NoaObj (Option (WdNoa × Option P2pPsCmd)) := do
  touch .noaAttr 0 len
  let noaAttr := noaAttrOf ies pos len
  if NoaTaken w noaAttr then
    let w := { w with
      noaIndex := noaAttr 0
      oppPs := noaAttr 1 >>> 7
      ctwindow := noaAttr 1 &&& 0x7f }
    match ← noaLoopT noaAttr len fuel ⟨2, 0, w.noa⟩ with
    | none => return none
    | some c => return some (noaMode fwCurrentInPSMode { w with noaNum := c.num, noa := c.noa })
  else return some (w, none)

/-- `process_p2p_ps_ie`, each loop for `fuel` rounds. `ies` is the memory from the first element on, behind the twelve
fixed bytes of `IEs`. -/
def processP2pPsIeT (w : WdNoa) (fwCurrentInPSMode : Bool) (ies : List UInt8) (ieLength fuel : Nat) :
    Traced NoaObj (Option (WdNoa × Option P2pPsCmd)) :=
  if w.stateNone then return some (w, none)
  else if ieLength ≤ 12 then return some (w, none)
  else
    match p2pIeFrom ies (ieLength - 12) 0 with
    | none => return some (w, none)
    | some ie => do
      match ← loopT (psIeRound ies (ieLength - 12)) fuel ie with
      | none => return none
      | some none => return some (w, if w.p2pPsMode ≠ .none then some .disable else none)
      | some (some (pos, len)) => noaFoundT w fwCurrentInPSMode ies pos len fuel

/-- Descriptor `i` of the content at `pos`. -/
def noaDescAt (ies : List UInt8) (pos i : Nat) : NoaDesc :=
  let byte (k : Nat) : UInt8 := ies[pos + (2 + 13 * i) + k]?.getD 0
  ⟨byte 0, [byte 1, byte 2, byte 3, byte 4], [byte 5, byte 6, byte 7, byte 8], [byte 9, byte 10, byte 11, byte 12]⟩

section
variable (ies : List UInt8) (iesLen : Nat)

/-- The P2P elements in which the attribute is looked for, one behind the other until it is found. -/
inductive NoaIe : Nat × Nat → Prop where
  | first {ie : Nat × Nat} (h : p2pIeFrom ies iesLen 0 = some ie) : NoaIe ie
  | behind {ie ie' : Nat × Nat} (h : NoaIe ie) (hnone : rtwGetP2pAttrContent ies ie p2pAttrNoa = .notFound)
      (h' : p2pIeFrom ies iesLen (ie.1 + ie.2) = some ie') : NoaIe ie'

/-- The content of the attribute is at `pos`. -/
def NoaFound (pos len : Nat) : Prop :=
  ∃ ie, NoaIe ies iesLen ie ∧ rtwGetP2pAttrContent ies ie p2pAttrNoa = .found pos len

end

/-- The function returns, writes inside its objects, and takes over a right number of descriptors as they are. -/
structure NoaOk (w : WdNoa) (fwCurrentInPSMode : Bool) (ies : List UInt8) (ieLength : Nat) : Prop where
  returns : ∃ fuel, (processP2pPsIeT w fwCurrentInPSMode ies ieLength fuel).val ≠ none
  inside : ∀ fuel, Within NoaObj.size (processP2pPsIeT w fwCurrentInPSMode ies ieLength fuel)
  stored : ∀ fuel r pos n, (processP2pPsIeT w fwCurrentInPSMode ies ieLength fuel).val = some r →
    w.stateNone = false → 12 < ieLength → NoaFound ies (ieLength - 12) pos (2 + 13 * n) → n ≤ p2pMaxNoaNum →
    NoaTaken w (noaAttrOf ies pos (2 + 13 * n)) →
      r.1.noaNum.toNat = n ∧ (∀ i < n, r.1.noa i = noaDescAt ies pos i) ∧ ∀ i, n ≤ i → r.1.noa i = w.noa i

/-! ### The search -/

section
variable {ies : List UInt8} {iesLen pos len : Nat} {ie ie' : Nat × Nat} {r : Option (Nat × Nat)}

theorem within_psIeRound : Within NoaObj.size (psIeRound ies iesLen ie) := by
  unfold psIeRound
  split
  · exact within_pure
  · exact within_pure
  · split <;> exact within_pure

theorem psIeRound_next (h : (psIeRound ies iesLen ie).val = .next ie') :
    rtwGetP2pAttrContent ies ie p2pAttrNoa = .endless ∧ ie' = ie ∨
      rtwGetP2pAttrContent ies ie p2pAttrNoa = .notFound ∧ p2pIeFrom ies iesLen (ie.1 + ie.2) = some ie' := by
  unfold psIeRound at h
  split at h
  · cases h
  · case h_2 hend =>
    cases h
    exact .inl ⟨hend, rfl⟩
  · case h_3 hnone =>
    refine .inr ⟨hnone, ?_⟩
    split at h
    · case h_1 hie =>
      cases h
      exact hie
    · cases h

theorem psIeRound_stop : (psIeRound ies iesLen ie).val = .stop r ↔
    (∃ pos len, rtwGetP2pAttrContent ies ie p2pAttrNoa = .found pos len ∧ r = some (pos, len)) ∨
      rtwGetP2pAttrContent ies ie p2pAttrNoa = .notFound ∧ p2pIeFrom ies iesLen (ie.1 + ie.2) = none ∧ r = none := by
  unfold psIeRound
  cases rtwGetP2pAttrContent ies ie p2pAttrNoa with
  | found pos len => simp [eq_comm]
  | endless => simp
  | notFound =>
    cases p2pIeFrom ies iesLen (ie.1 + ie.2) with
    | none => simp [eq_comm]
    | some ie => simp

theorem psIeRound_endless (h : rtwGetP2pAttrContent ies ie p2pAttrNoa = .endless) :
    (psIeRound ies iesLen ie).val = .next ie := by
  unfold psIeRound
  rw [h]
  rfl

/-- The search goes over the elements. -/
theorem reaches_psIeRound (h : p2pIeFrom ies iesLen 0 = some ie) :
    Reaches (psIeRound ies iesLen) ie ie' ↔ NoaIe ies iesLen ie' := by
  constructor
  · intro hr
    refine hr.invariant (NoaIe.first h) fun t u ht hu => ?_
    rcases psIeRound_next hu with ⟨-, rfl⟩ | ⟨hnone, hnext⟩
    · exact ht
    · exact ht.behind hnone hnext
  · intro hie
    induction hie with
    | first h' =>
      obtain rfl := Option.some.inj (h.symm.trans h')
      exact .start
    | behind _ hnone hnext ih =>
      refine ih.next ?_
      unfold psIeRound
      rw [hnone]
      dsimp only
      rw [hnext]
      rfl

theorem NoaIe.two_le (h : NoaIe ies iesLen ie) : 2 ≤ ie.2 := by
  cases h with
  | first h => exact (p2pIeFrom_lt h).2.2
  | behind _ _ h => exact (p2pIeFrom_lt h).2.2

/-- It returns unless it comes to an element with endless attributes. -/
theorem returns_psIeRound (h : p2pIeFrom ies iesLen 0 = some ie) : (∃ r, Returns (psIeRound ies iesLen) ie r) ↔
    ∀ ie', NoaIe ies iesLen ie' → rtwGetP2pAttrContent ies ie' p2pAttrNoa ≠ .endless := by
  constructor
  · rintro ⟨r, hr⟩ ie' hie hend
    exact not_returns_of_fixed ((reaches_psIeRound h).2 hie) (psIeRound_endless hend) hr
  · intro hno
    refine returns_of_measure (fun ie => iesLen - ie.1) fun t u ht hu => ?_
    have hie := (reaches_psIeRound h).1 ht
    rcases psIeRound_next hu with ⟨hend, -⟩ | ⟨-, hnext⟩
    · exact absurd hend (hno t hie)
    · exact p2pIeFrom_next hnext hie.two_le

theorem returns_found (h : p2pIeFrom ies iesLen 0 = some ie) :
    Returns (psIeRound ies iesLen) ie (some (pos, len)) ↔ NoaFound ies iesLen pos len := by
  rw [returns_iff]
  refine exists_congr fun t => and_congr (reaches_psIeRound h) ?_
  rw [psIeRound_stop]
  constructor
  · rintro (⟨pos', len', hfound, heq⟩ | ⟨-, -, heq⟩)
    · cases heq
      exact hfound
    · cases heq
  · exact fun hfound => .inl ⟨pos, len, hfound, rfl⟩

end

/-- In a list of elements it is the attribute of the first P2P element. -/
theorem noaFound_of_list {l : P2pList} {p : P2pAttrs} {as bs : List P2pAttr} {y : P2pAttr} (hp : l.p2p? = some p)
    (hmax : (Tlv.bytes l.es).length ≤ 768) (room : List UInt8) (hno : ∀ a x c, l.pre = a ++ x :: c →
      ¬ Ie.P2pHit x (Tlv.bytes c ++ (p.element.bytes ++ (Tlv.bytes l.post ++ room))))
    (hattrs : p.1 = as ++ y :: bs) (ha : ∀ x ∈ as, x.tag.toNat ≠ p2pAttrNoa) (hy : y.tag.toNat = p2pAttrNoa) :
    NoaFound (Tlv.bytes l.es ++ room) (Tlv.bytes l.es).length
      ((Tlv.bytes l.pre).length + (6 + (Tlv.bytes as).length) + 3) y.data.length := by
  refine ⟨_, .first (p2pIeFrom_of_list hp hmax room hno), ?_⟩
  rw [P2pList.bytes_es hp, List.append_assoc, List.append_assoc]
  exact rtwGetP2pAttrContent_of_attrs hattrs ha hy

/-! ### The descriptors -/

section
variable {noaAttr : Nat → UInt8} {len k n : Nat} {c t : NoaCur} {noa : Nat → NoaDesc}

/-- The cursor after `k` rounds. -/
def noaCur (noaAttr : Nat → UInt8) (noa : Nat → NoaDesc) : Nat → NoaCur
  | 0 => ⟨2, 0, noa⟩
  | k + 1 => (noaCur noaAttr noa k).step noaAttr

theorem noaCur_num (hk : k ≤ 3) : (noaCur noaAttr noa k).offset = UInt8.ofNat (2 + 13 * k) ∧
    (noaCur noaAttr noa k).num = UInt8.ofNat k := by
  induction k with
  | zero => exact ⟨rfl, rfl⟩
  | succ k ih =>
    obtain ⟨hoff, hnum⟩ := ih (by omega)
    refine ⟨?_, ?_⟩
    · show (noaCur noaAttr noa k).offset + 13 = _
      rw [hoff, Nat.mul_succ, ← Nat.add_assoc, UInt8.ofNat_add (2 + 13 * k)]
      rfl
    · show (noaCur noaAttr noa k).num + 1 = _
      rw [hnum, UInt8.ofNat_add k]
      rfl

theorem noaCur_offset (hk : k ≤ 3) : (noaCur noaAttr noa k).offset.toNat = 2 + 13 * k := by
  rw [(noaCur_num hk).1, UInt8.toNat_ofNat']
  omega

theorem noaCur_toNat (hk : k ≤ 3) : (noaCur noaAttr noa k).num.toNat = k := by
  rw [(noaCur_num hk).2, UInt8.toNat_ofNat']
  omega

theorem noaRound_next (h : c.offset.toNat < len) : (noaRound noaAttr len c).val = .next (c.step noaAttr) := by
  unfold noaRound
  rw [if_pos h]
  rfl

theorem noaRound_stop (h : ¬ c.offset.toNat < len) : (noaRound noaAttr len c).val = .stop c := by
  unfold noaRound
  rw [if_neg h]
  rfl

/-- A round writes to the entry with the number that it has come to. -/
theorem within_noaRound : Within NoaObj.size (noaRound noaAttr len c) ↔
    (c.offset.toNat < len → c.num.toNat < p2pMaxNoaNum) := by
  have htwo : p2pMaxNoaNum = 2 := rfl
  unfold noaRound
  split
  · case isTrue h =>
    rw [imp_iff_right h, within_bind, within_bind, within_bind, within_bind, within_touch_nat, within_touch_nat,
      within_touch_nat, within_touch_nat, and_iff_left within_pure]
    simp only [NoaObj.size]
    omega
  · case isFalse h => exact iff_of_true within_pure fun hlt => absurd hlt h

theorem reaches_noaCur (hk : k ≤ 3) (h : ∀ i < k, 2 + 13 * i < len) :
    Reaches (noaRound noaAttr len) (noaCur noaAttr noa 0) (noaCur noaAttr noa k) := by
  induction k with
  | zero => exact .start
  | succ k ih =>
    refine (ih (by omega) fun i hi => h i (Nat.lt_succ_of_lt hi)).next (noaRound_next ?_)
    rw [noaCur_offset (by omega)]
    exact h k (Nat.lt_succ_self k)

/-- With two descriptors at most there are three cursors. -/
theorem noaCur_of_reaches (hlen : len ≤ 28) (h : Reaches (noaRound noaAttr len) (noaCur noaAttr noa 0) t) :
    ∃ k ≤ 2, t = noaCur noaAttr noa k := by
  refine h.invariant (I := fun t => ∃ k ≤ 2, t = noaCur noaAttr noa k) ⟨0, Nat.zero_le 2, rfl⟩ ?_
  rintro t u ⟨k, hk, rfl⟩ hu
  by_cases hlt : (noaCur noaAttr noa k).offset.toNat < len
  · rw [noaRound_next hlt] at hu
    cases hu
    rw [noaCur_offset (by omega)] at hlt
    exact ⟨k + 1, by omega, rfl⟩
  · rw [noaRound_stop hlt] at hu
    cases hu

/-- The loop stays inside the arrays exactly if there are two descriptors at most. -/
theorem within_noaLoop (hlen : 2 < len) :
    (∀ fuel, Within NoaObj.size (loopT (noaRound noaAttr len) fuel (noaCur noaAttr noa 0))) ↔ len ≤ 28 := by
  have htwo : p2pMaxNoaNum = 2 := rfl
  rw [within_loopT_iff]
  constructor
  · intro h
    by_contra hlong
    have hreach : Reaches (noaRound noaAttr len) (noaCur noaAttr noa 0) (noaCur noaAttr noa 2) :=
      reaches_noaCur (by omega) fun i hi => by omega
    have := within_noaRound.1 (h _ hreach) (by rw [noaCur_offset (by omega)]; omega)
    rw [noaCur_toNat (by omega)] at this
    omega
  · intro h28 t ht
    obtain ⟨k, hk, rfl⟩ := noaCur_of_reaches h28 ht
    refine within_noaRound.2 fun hlt => ?_
    rw [noaCur_offset (by omega)] at hlt
    rw [noaCur_toNat (by omega)]
    omega

theorem returns_noaLoop (hlen : len ≤ 28) : ∃ c, Returns (noaRound noaAttr len) (noaCur noaAttr noa 0) c := by
  refine returns_of_measure (fun c => 3 - c.num.toNat) fun t u ht hu => ?_
  obtain ⟨k, hk, rfl⟩ := noaCur_of_reaches hlen ht
  by_cases hlt : (noaCur noaAttr noa k).offset.toNat < len
  · rw [noaRound_next hlt] at hu
    cases hu
    show 3 - (noaCur noaAttr noa (k + 1)).num.toNat < _
    rw [noaCur_toNat (by omega), noaCur_toNat (by omega)]
    omega
  · rw [noaRound_stop hlt] at hu
    cases hu

/-- `n` descriptors take `n` rounds. -/
theorem returns_noaCur (hn : n ≤ 2) (h : Returns (noaRound noaAttr (2 + 13 * n)) (noaCur noaAttr noa 0) c) :
    c = noaCur noaAttr noa n := by
  have hreach : Reaches (noaRound noaAttr (2 + 13 * n)) (noaCur noaAttr noa 0) (noaCur noaAttr noa n) :=
    reaches_noaCur (by omega) fun i hi => by omega
  refine h.unique (hreach.returns_iff.2 ((returns_of_stop (noaRound_stop ?_)).2 rfl))
  rw [noaCur_offset (by omega)]
  omega

theorem noaCur_noa (hk : k ≤ 3) (i : Nat) : (noaCur noaAttr noa k).noa i =
    if i < k then noaDesc noaAttr (UInt8.ofNat (2 + 13 * i)) else noa i := by
  induction k with
  | zero => rfl
  | succ k ih =>
    show Function.update (noaCur noaAttr noa k).noa (noaCur noaAttr noa k).num.toNat _ i = _
    rw [noaCur_toNat (by omega), (noaCur_num (by omega)).1]
    by_cases hik : i = k
    · rw [hik, Function.update_self, if_pos (Nat.lt_succ_self k)]
    · rw [Function.update_of_ne hik, ih (by omega)]
      exact if_congr (by omega) rfl rfl

/-- The descriptors are read where they are in the content. -/
theorem noaDesc_eq {ies : List UInt8} {pos i : Nat} (hi : i < n) (hn : n ≤ 2) :
    noaDesc (noaAttrOf ies pos (2 + 13 * n)) (UInt8.ofNat (2 + 13 * i)) = noaDescAt ies pos i := by
  have hread (k : Nat) (hk : k < 13) : noaAttrOf ies pos (2 + 13 * n) (2 + 13 * i + k) =
      ies[pos + (2 + 13 * i) + k]?.getD 0 := by
    rw [noaAttrOf, if_pos (by omega), Nat.add_assoc pos]
  have hoff (k : Nat) (hk : k < 13) : (UInt8.ofNat (2 + 13 * i) + UInt8.ofNat k).toNat = 2 + 13 * i + k := by
    rw [UInt8.toNat_add, UInt8.toNat_ofNat', UInt8.toNat_ofNat']
    omega
  have hfour (k : Nat) (hk : k + 4 ≤ 13) : noaAttrRead (noaAttrOf ies pos (2 + 13 * n))
      (UInt8.ofNat (2 + 13 * i) + UInt8.ofNat k) = [ies[pos + (2 + 13 * i) + k]?.getD 0,
        ies[pos + (2 + 13 * i) + (k + 1)]?.getD 0, ies[pos + (2 + 13 * i) + (k + 2)]?.getD 0,
        ies[pos + (2 + 13 * i) + (k + 3)]?.getD 0] := by
    rw [noaAttrRead, hoff k (by omega), ← hread k (by omega), ← hread (k + 1) (by omega), ← hread (k + 2) (by omega),
      ← hread (k + 3) (by omega)]
    rfl
  have hcount : noaAttrOf ies pos (2 + 13 * n) (UInt8.ofNat (2 + 13 * i)).toNat = ies[pos + (2 + 13 * i)]?.getD 0 := by
    have hzero := hread 0 (by omega)
    rw [Nat.add_zero, Nat.add_zero] at hzero
    rw [UInt8.toNat_ofNat', Nat.mod_eq_of_lt (by omega), hzero]
  unfold noaDesc noaDescAt
  dsimp only
  rw [NoaDesc.mk.injEq]
  exact ⟨hcount, hfour 1 (by omega), hfour 5 (by omega), hfour 9 (by omega)⟩

end

/-! ### The whole -/

section
variable {w : WdNoa} {fwCurrentInPSMode : Bool} {ies : List UInt8} {ieLength pos len fuel fuel' n : Nat} {ie : Nat × Nat}

theorem within_noaFoundT_iff : Within NoaObj.size (noaFoundT w fwCurrentInPSMode ies pos len fuel) ↔
    len ≤ maxP2pIeLen ∧ (NoaTaken w (noaAttrOf ies pos len) →
      Within NoaObj.size (noaLoopT (noaAttrOf ies pos len) len fuel (noaCur (noaAttrOf ies pos len) w.noa 0))) := by
  unfold noaFoundT
  rw [within_bind, within_touch_zero]
  refine and_congr_right fun _ => ?_
  dsimp only
  split
  · case isTrue h =>
    rw [imp_iff_right h, within_bind]
    refine and_iff_left ?_
    split <;> exact within_pure
  · case isFalse h => exact iff_of_true within_pure fun ht => absurd ht h

theorem within_noaFoundT_of_le (h : Within NoaObj.size (noaFoundT w fwCurrentInPSMode ies pos len fuel'))
    (hle : fuel ≤ fuel') : Within NoaObj.size (noaFoundT w fwCurrentInPSMode ies pos len fuel) := by
  rw [within_noaFoundT_iff] at h ⊢
  refine ⟨h.1, fun ht => ?_⟩
  have hloop := h.2 ht
  unfold noaLoopT at hloop ⊢
  split
  · case isTrue hlen =>
    rw [if_pos hlen] at hloop
    exact within_loopT_of_le hloop hle
  · exact within_pure

theorem within_noaFoundT : (∀ fuel, Within NoaObj.size (noaFoundT w fwCurrentInPSMode ies pos len fuel)) ↔
    len ≤ maxP2pIeLen ∧ (NoaTaken w (noaAttrOf ies pos len) → len ≤ 28) := by
  simp only [within_noaFoundT_iff, forall_and, forall_const]
  refine and_congr_right fun _ => ?_
  rw [forall_comm]
  refine imp_congr_right fun _ => ?_
  unfold noaLoopT
  by_cases hlen : len > 2
  · simp only [if_pos hlen]
    exact within_noaLoop hlen
  · simp only [if_neg hlen]
    exact iff_of_true (fun _ => within_pure) (by omega)

/-- What comes of the cursor at the end. -/
def noaTake (w : WdNoa) (fwCurrentInPSMode : Bool) (noaAttr : Nat → UInt8) (c : NoaCur) : WdNoa × Option P2pPsCmd :=
  noaMode fwCurrentInPSMode { w with
    noaIndex := noaAttr 0
    oppPs := noaAttr 1 >>> 7
    ctwindow := noaAttr 1 &&& 0x7f
    noaNum := c.num
    noa := c.noa }

theorem val_noaFoundT (ht : NoaTaken w (noaAttrOf ies pos len)) :
    (noaFoundT w fwCurrentInPSMode ies pos len fuel).val =
      (noaLoopT (noaAttrOf ies pos len) len fuel (noaCur (noaAttrOf ies pos len) w.noa 0)).val.map
        (noaTake w fwCurrentInPSMode (noaAttrOf ies pos len)) := by
  unfold noaFoundT
  rw [val_bind]
  dsimp only
  rw [if_pos ht, val_bind]
  show _ = (noaLoopT (noaAttrOf ies pos len) len fuel ⟨2, 0, w.noa⟩).val.map _
  cases (noaLoopT (noaAttrOf ies pos len) len fuel ⟨2, 0, w.noa⟩).val <;> rfl

theorem noaTake_noa (noaAttr : Nat → UInt8) (c : NoaCur) : (noaTake w fwCurrentInPSMode noaAttr c).1.noaNum = c.num ∧
    (noaTake w fwCurrentInPSMode noaAttr c).1.noa = c.noa := by
  unfold noaTake noaMode
  split
  · exact ⟨rfl, rfl⟩
  · split <;> exact ⟨rfl, rfl⟩

/-- With two descriptors at most, or those of the same instance again, the lines return. -/
theorem noaFoundT_returns (h : NoaTaken w (noaAttrOf ies pos len) → len ≤ 28) :
    ∃ fuel, ∀ fuel' ≥ fuel, (noaFoundT w fwCurrentInPSMode ies pos len fuel').val ≠ none := by
  by_cases ht : NoaTaken w (noaAttrOf ies pos len)
  · obtain ⟨c, fuel, hc⟩ : ∃ c, Returns (noaRound (noaAttrOf ies pos len) len)
        (noaCur (noaAttrOf ies pos len) w.noa 0) c := returns_noaLoop (h ht)
    refine ⟨fuel, fun fuel' hle => ?_⟩
    rw [val_noaFoundT ht, Ne, Option.map_eq_none_iff, noaLoopT]
    split
    · rw [loopT_of_le hc hle]
      exact Option.some_ne_none _
    · exact Option.some_ne_none _
  · refine ⟨0, fun fuel' _ => ?_⟩
    unfold noaFoundT
    rw [val_bind]
    dsimp only
    rw [if_neg ht]
    exact Option.some_ne_none _

theorem noaFoundT_stored (ht : NoaTaken w (noaAttrOf ies pos (2 + 13 * n))) (hn : n ≤ 2) {r : WdNoa × Option P2pPsCmd}
    (h : (noaFoundT w fwCurrentInPSMode ies pos (2 + 13 * n) fuel).val = some r) :
    r.1.noaNum.toNat = n ∧ (∀ i < n, r.1.noa i = noaDescAt ies pos i) ∧ ∀ i, n ≤ i → r.1.noa i = w.noa i := by
  rw [val_noaFoundT ht, Option.map_eq_some_iff] at h
  obtain ⟨c, hc, rfl⟩ := h
  have hcur : c = noaCur (noaAttrOf ies pos (2 + 13 * n)) w.noa n := by
    unfold noaLoopT at hc
    split at hc
    · exact returns_noaCur hn ⟨fuel, hc⟩
    · obtain rfl : n = 0 := by omega
      exact (Option.some.inj hc).symm
  obtain ⟨hnum, hnoa⟩ := @noaTake_noa w fwCurrentInPSMode (noaAttrOf ies pos (2 + 13 * n)) c
  rw [hnum, hnoa, hcur]
  refine ⟨noaCur_toNat (by omega), fun i hi => ?_, fun i hi => ?_⟩
  · rw [noaCur_noa (by omega), if_pos hi, noaDesc_eq hi hn]
  · rw [noaCur_noa (by omega), if_neg (by omega)]

theorem processP2pPsIeT_eq (hstate : w.stateNone = false) (hlen : 12 < ieLength)
    (h : p2pIeFrom ies (ieLength - 12) 0 = some ie) : processP2pPsIeT w fwCurrentInPSMode ies ieLength fuel =
      (loopT (psIeRound ies (ieLength - 12)) fuel ie >>= fun r => match r with
        | none => pure none
        | some none => pure (some (w, if w.p2pPsMode ≠ .none then some .disable else none))
        | some (some (pos, len)) => noaFoundT w fwCurrentInPSMode ies pos len fuel) := by
  unfold processP2pPsIeT
  rw [if_neg (by rw [hstate]; exact Bool.false_ne_true), if_neg (by omega), h]

/-- What a beacon must be like for an adapter that looks for the attribute. -/
def NoaFits (w : WdNoa) (ies : List UInt8) (iesLen : Nat) : Prop :=
  (∀ ie, NoaIe ies iesLen ie → rtwGetP2pAttrContent ies ie p2pAttrNoa ≠ .endless) ∧
    ∀ pos len, NoaFound ies iesLen pos len →
      len ≤ maxP2pIeLen ∧ (NoaTaken w (noaAttrOf ies pos len) → len ≤ 2 + 13 * p2pMaxNoaNum)

theorem noaOk_of_ie (hstate : w.stateNone = false) (hlen : 12 < ieLength)
    (h : p2pIeFrom ies (ieLength - 12) 0 = some ie) :
    NoaOk w fwCurrentInPSMode ies ieLength ↔ NoaFits w ies (ieLength - 12) := by
  have hrun (fuel : Nat) : processP2pPsIeT w fwCurrentInPSMode ies ieLength fuel = _ :=
    processP2pPsIeT_eq hstate hlen h
  have hsearch (fuel : Nat) : Within NoaObj.size (loopT (psIeRound ies (ieLength - 12)) fuel ie) :=
    within_loopT_iff.2 (fun _ _ => within_psIeRound) fuel
  constructor
  · intro hok
    have hends : ∃ r, Returns (psIeRound ies (ieLength - 12)) ie r := by
      obtain ⟨fuel, hret⟩ := hok.returns
      rw [hrun, val_bind] at hret
      cases hr : (loopT (psIeRound ies (ieLength - 12)) fuel ie).val with
      | none =>
        rw [hr] at hret
        exact absurd rfl hret
      | some r => exact ⟨r, fuel, hr⟩
    refine ⟨(returns_psIeRound h).1 hends, fun pos len hfound => ?_⟩
    obtain ⟨fuel, hr⟩ := (returns_found h).2 hfound
    have hall : ∀ fuel', Within NoaObj.size (noaFoundT w fwCurrentInPSMode ies pos len fuel') := by
      intro fuel'
      have hin := hok.inside (max fuel fuel')
      rw [hrun, within_bind, loopT_of_le hr (Nat.le_max_left fuel fuel')] at hin
      exact within_noaFoundT_of_le hin.2 (Nat.le_max_right fuel fuel')
    exact within_noaFoundT.1 hall
  · rintro ⟨hends, hfits⟩
    refine ⟨?_, fun fuel => ?_, fun fuel r pos n hr _ _ hfound hn ht => ?_⟩
    · obtain ⟨r, fuel, hr⟩ := (returns_psIeRound h).2 hends
      cases r with
      | none =>
        refine ⟨fuel, ?_⟩
        rw [hrun, val_bind, hr]
        exact Option.some_ne_none _
      | some r =>
        obtain ⟨fuel', hret⟩ : ∃ fuel', ∀ n ≥ fuel', (noaFoundT w fwCurrentInPSMode ies r.1 r.2 n).val ≠ none :=
          noaFoundT_returns (hfits r.1 r.2 ((returns_found h).1 ⟨fuel, hr⟩)).2
        refine ⟨max fuel fuel', ?_⟩
        rw [hrun, val_bind, loopT_of_le hr (Nat.le_max_left fuel fuel')]
        exact hret _ (Nat.le_max_right fuel fuel')
    · rw [hrun, within_bind]
      refine ⟨hsearch fuel, ?_⟩
      cases hr : (loopT (psIeRound ies (ieLength - 12)) fuel ie).val with
      | none => exact within_pure
      | some r =>
        cases r with
        | none => exact within_pure
        | some r => exact within_noaFoundT.2 (hfits r.1 r.2 ((returns_found h).1 ⟨fuel, hr⟩)) fuel
    · rw [hrun, val_bind] at hr
      cases hs : (loopT (psIeRound ies (ieLength - 12)) fuel ie).val with
      | none =>
        rw [hs] at hr
        cases hr
      | some s =>
        obtain rfl := Returns.unique ⟨fuel, hs⟩ ((returns_found h).2 hfound)
        rw [hs] at hr
        exact noaFoundT_stored ht hn hr

theorem not_noaIe_of_none (h : p2pIeFrom ies (ieLength - 12) 0 = none) : ¬ NoaIe ies (ieLength - 12) ie := by
  intro hie
  induction hie with
  | first h' =>
    rw [h] at h'
    cases h'
  | behind _ _ _ ih => exact ih

end

/-- A beacon is handled right exactly if the walk over its attributes ends, and the attribute fits: the buffer, and the
two entries if it is taken over. -/
theorem noaOk_iff (w : WdNoa) (fwCurrentInPSMode : Bool) (ies : List UInt8) (ieLength : Nat) :
    NoaOk w fwCurrentInPSMode ies ieLength ↔ (w.stateNone = false → 12 < ieLength → NoaFits w ies (ieLength - 12)) := by
  by_cases hlook : w.stateNone = false ∧ 12 < ieLength
  · obtain ⟨hstate, hlen⟩ := hlook
    rw [imp_iff_right hstate, imp_iff_right hlen]
    cases h : p2pIeFrom ies (ieLength - 12) 0 with
    | some ie => exact noaOk_of_ie hstate hlen h
    | none =>
      have hrun (fuel : Nat) : processP2pPsIeT w fwCurrentInPSMode ies ieLength fuel = pure (some (w, none)) := by
        unfold processP2pPsIeT
        rw [if_neg (by rw [hstate]; exact Bool.false_ne_true), if_neg (by omega), h]
      refine iff_of_true ⟨⟨0, ?_⟩, fun fuel => ?_, fun fuel r pos n _ _ _ hfound => ?_⟩
        ⟨fun ie hie => absurd hie (not_noaIe_of_none h), fun pos len hfound => ?_⟩
      · rw [hrun]
        exact Option.some_ne_none _
      · rw [hrun]
        exact within_pure
      · exact absurd hfound.choose_spec.1 (not_noaIe_of_none h)
      · exact absurd hfound.choose_spec.1 (not_noaIe_of_none h)
  · have hrun (fuel : Nat) : processP2pPsIeT w fwCurrentInPSMode ies ieLength fuel = pure (some (w, none)) := by
      unfold processP2pPsIeT
      cases hstate : w.stateNone with
      | true => rfl
      | false =>
        rw [if_neg Bool.false_ne_true, if_pos (by
          have := not_and.1 hlook hstate
          omega)]
    refine iff_of_true ⟨⟨0, ?_⟩, fun fuel => ?_, fun fuel r pos n _ hstate hlen => ?_⟩
      fun hstate hlen => absurd ⟨hstate, hlen⟩ hlook
    · rw [hrun]
      exact Option.some_ne_none _
    · rw [hrun]
      exact within_pure
    · exact absurd ⟨hstate, hlen⟩ hlook

/-- A P2P element with three descriptors. -/
def threeNoa : List UInt8 :=
  [0xdd, 48] ++ p2pOui ++ [12, 41, 0, 1, 0] ++ (List.replicate 3 [255, 0, 0, 1, 0, 0, 0, 2, 0, 0, 0, 3, 0]).flatten

def wdStart : WdNoa := ⟨false, .none, 0, 0, 0, 0, fun _ => ⟨0, [], [], []⟩⟩

/-- The third descriptor is written behind the arrays. -/
theorem not_noaOk_three : ¬ NoaOk wdStart false threeNoa 62 := by
  intro h
  exact absurd (h.inside 4) (by decide +kernel)

end Rtw
