import Rtw.Mlme.IeSearch
import Rtw.Scan.CollectBss

/-!
# The walk over attributes

`rtw_get_wps_attr` and `rtw_get_p2p_attr` add the header to the length of an attribute as an `u16`, so that the walk
goes on too early behind a long attribute, or stays where it is. `attrWalkOk_iff`: only behind such a one.
-/

namespace Rtw
open Scan (AttrRes rtwGetP2pAttrLoop)

/-- The elements that have attributes. -/
inductive AttrKind where
  | wps | p2p
  deriving DecidableEq

namespace AttrKind

def oui : AttrKind → List UInt8
  | wps => wpsOui
  | p2p => p2pOui

/-- The header of an attribute: id and length. -/
def hdr : AttrKind → Nat
  | wps => 4
  | p2p => 3

def attrId (ie : List UInt8) (pos : Nat) : AttrKind → Nat
  | wps => 256 * byteAt ie pos + byteAt ie (pos + 1)
  | p2p => byteAt ie pos

def attrDataLen (ie : List UInt8) (pos : Nat) : AttrKind → Nat
  | wps => 256 * byteAt ie (pos + 2) + byteAt ie (pos + 3)
  | p2p => byteAt ie (pos + 1) + 256 * byteAt ie (pos + 2)

/-- The true size of the attribute at `pos`. -/
def attrSize (k : AttrKind) (ie : List UInt8) (pos : Nat) : Nat := k.attrDataLen ie pos + k.hdr

theorem hdr_pos (k : AttrKind) : 0 < k.hdr := by
  cases k with
  | wps => exact Nat.succ_pos 3
  | p2p => exact Nat.succ_pos 2

end AttrKind

/-- What a round of the loop comes to: the result of the function, or the cursor of the next round. -/
inductive AttrRound where
  | stop (r : Option (Nat × Nat))
  | next (attrPtr : Nat)
  deriving DecidableEq

/-- A round of the loop of `rtw_get_wps_attr` or `rtw_get_p2p_attr`. -/
def attrRound (k : AttrKind) (ie : List UInt8) (ielen targetAttrId attrPtr : Nat) : AttrRound :=
  if attrPtr < ielen then
    let attrLen := (k.attrDataLen ie attrPtr + k.hdr) % 2 ^ 16
    if k.attrId ie attrPtr = targetAttrId then .stop (some (attrPtr, attrLen)) else .next (attrPtr + attrLen)
  else .stop none

/-- The functions look at attributes in an element with their OUI only. -/
def AttrHeader (k : AttrKind) (ie : List UInt8) : Prop := byteAt ie 0 = 221 ∧ memcmpAt ie 2 k.oui

instance (k : AttrKind) (ie : List UInt8) : Decidable (AttrHeader k ie) := inferInstanceAs (Decidable (_ ∧ _))

/-- The cursor after some rounds, `none` when the function has returned. -/
def attrCursor (k : AttrKind) (ie : List UInt8) (ielen targetAttrId : Nat) : Nat → Option Nat
  | 0 => if AttrHeader k ie then some 6 else none
  | n + 1 => (attrCursor k ie ielen targetAttrId n).bind fun attrPtr =>
    match attrRound k ie ielen targetAttrId attrPtr with
    | .stop _ => none
    | .next attrPtr => some attrPtr

/-- The function returns, and each round before takes the cursor on by the true size of the attribute. -/
structure AttrWalkOk (k : AttrKind) (ie : List UInt8) (ielen targetAttrId : Nat) : Prop where
  returns : ∃ n, attrCursor k ie ielen targetAttrId n = none
  size : ∀ n pos pos', attrCursor k ie ielen targetAttrId n = some pos →
    attrCursor k ie ielen targetAttrId (n + 1) = some pos' → pos < pos' ∧ pos' = pos + k.attrSize ie pos

/-- Attributes begin at `pos`, one behind the other, without the one that is looked for among them. -/
inductive AttrBegins (k : AttrKind) (ie : List UInt8) (ielen targetAttrId : Nat) : Nat → Prop where
  | first : AttrBegins k ie ielen targetAttrId 6
  | behind {pos : Nat} (h : AttrBegins k ie ielen targetAttrId pos) (hlt : pos < ielen)
      (hid : k.attrId ie pos ≠ targetAttrId) : AttrBegins k ie ielen targetAttrId (pos + k.attrSize ie pos)

section
variable {k : AttrKind} {ie : List UInt8} {ielen targetAttrId pos pos' n : Nat}

theorem attrRound_eq_next : attrRound k ie ielen targetAttrId pos = .next pos' ↔
    pos < ielen ∧ k.attrId ie pos ≠ targetAttrId ∧ pos' = pos + k.attrSize ie pos % 2 ^ 16 := by
  unfold attrRound AttrKind.attrSize
  by_cases hlt : pos < ielen
  · by_cases hid : k.attrId ie pos = targetAttrId
    · simp [hlt, hid]
    · simp [hlt, hid, eq_comm]
  · simp [hlt]

theorem attrCursor_succ : attrCursor k ie ielen targetAttrId (n + 1) = some pos' ↔
    ∃ pos, attrCursor k ie ielen targetAttrId n = some pos ∧ pos < ielen ∧ k.attrId ie pos ≠ targetAttrId ∧
      pos' = pos + k.attrSize ie pos % 2 ^ 16 := by
  rw [attrCursor, Option.bind_eq_some_iff]
  refine exists_congr fun pos => and_congr_right fun _ => ?_
  rw [← attrRound_eq_next]
  cases attrRound k ie ielen targetAttrId pos with
  | stop r => simp
  | next p => simp

theorem attrCursor_of_not_header (h : ¬ AttrHeader k ie) (n : Nat) : attrCursor k ie ielen targetAttrId n = none := by
  induction n with
  | zero => exact if_neg h
  | succ n ih =>
    rw [attrCursor, ih]
    rfl

/-- With true sizes the cursor is at the begin of an attribute, and behind the number of rounds. -/
theorem attrCursor_begins
    (h : ∀ pos, AttrBegins k ie ielen targetAttrId pos → pos < ielen → k.attrId ie pos ≠ targetAttrId →
      k.attrSize ie pos < 2 ^ 16) (hn : attrCursor k ie ielen targetAttrId n = some pos) :
    AttrBegins k ie ielen targetAttrId pos ∧ n < pos := by
  induction n generalizing pos with
  | zero =>
    rw [attrCursor] at hn
    split at hn
    · obtain rfl := Option.some.inj hn
      exact ⟨.first, Nat.succ_pos 5⟩
    · exact absurd hn.symm (Option.some_ne_none _)
  | succ n ih =>
    obtain ⟨pos₀, hpos₀, hlt, hid, rfl⟩ := attrCursor_succ.1 hn
    obtain ⟨hbegins, hn₀⟩ := ih hpos₀
    rw [Nat.mod_eq_of_lt (h pos₀ hbegins hlt hid)]
    refine ⟨hbegins.behind hlt hid, ?_⟩
    have hhdr := k.hdr_pos
    unfold AttrKind.attrSize
    omega

/-- A walk by true sizes comes to each attribute before the one that is looked for. -/
theorem AttrWalkOk.reaches (h : AttrWalkOk k ie ielen targetAttrId) (hhdr : AttrHeader k ie)
    (hpos : AttrBegins k ie ielen targetAttrId pos) : ∃ n, attrCursor k ie ielen targetAttrId n = some pos := by
  induction hpos with
  | first => exact ⟨0, if_pos hhdr⟩
  | behind _ hlt hid ih =>
    obtain ⟨n, hn⟩ := ih
    have hnext := attrCursor_succ.2 ⟨_, hn, hlt, hid, rfl⟩
    refine ⟨n + 1, ?_⟩
    rw [hnext, (h.size n _ _ hn hnext).2]

end

/-- For each length that the attributes of a buffer can declare, the walk returns and goes by their true sizes exactly
if none that it passes is, with its header, longer than an `u16` can tell. -/
theorem attrWalkOk_iff (k : AttrKind) (ie : List UInt8) (ielen targetAttrId : Nat) :
    AttrWalkOk k ie ielen targetAttrId ↔
      (AttrHeader k ie → ∀ pos, AttrBegins k ie ielen targetAttrId pos → pos < ielen →
        k.attrId ie pos ≠ targetAttrId → k.attrDataLen ie pos < 65536 - k.hdr) := by
  have hsize (pos : Nat) : k.attrDataLen ie pos < 65536 - k.hdr ↔ k.attrSize ie pos < 2 ^ 16 := by
    have hhdr : k.hdr < 65536 := by cases k <;> decide
    unfold AttrKind.attrSize
    omega
  simp only [hsize]
  constructor
  · intro hok hhdr pos hbegins hlt hid
    obtain ⟨n, hn⟩ := hok.reaches hhdr hbegins
    have hnext := (hok.size n _ _ hn (attrCursor_succ.2 ⟨_, hn, hlt, hid, rfl⟩)).2
    have hmod := Nat.mod_lt (k.attrSize ie pos) (Nat.two_pow_pos 16)
    omega
  · intro h
    by_cases hhdr : AttrHeader k ie
    · have h := h hhdr
      refine ⟨⟨ielen + 1, ?_⟩, fun n pos pos' hn hn' => ?_⟩
      · cases hend : attrCursor k ie ielen targetAttrId (ielen + 1) with
        | none => rfl
        | some pos =>
          obtain ⟨pos₀, hpos₀, hlt, -⟩ := attrCursor_succ.1 hend
          have := (attrCursor_begins h hpos₀).2
          omega
      · obtain ⟨pos₀, hpos₀, hlt, hid, rfl⟩ := attrCursor_succ.1 hn'
        obtain rfl := Option.some.inj (hn.symm.trans hpos₀)
        have hmod := Nat.mod_eq_of_lt (h pos (attrCursor_begins h hn).1 hlt hid)
        have hpos := k.hdr_pos
        rw [hmod]
        refine ⟨?_, rfl⟩
        unfold AttrKind.attrSize
        omega
    · have hnone (n : Nat) : attrCursor k ie ielen targetAttrId n = none := attrCursor_of_not_header hhdr n
      exact ⟨⟨0, hnone 0⟩, fun n pos pos' hn => absurd (hn.symm.trans (hnone n)) (Option.some_ne_none _)⟩

/-- An UUID attribute of 65532 bytes in a WPS element: the loop stays at it. -/
def endlessWps : List UInt8 := [0xdd, 8, 0x00, 0x50, 0xf2, 0x04, 0x10, 0x47, 0xff, 0xfc]

theorem not_attrWalkOk_endless : ¬ ∀ (k : AttrKind) (ie : List UInt8) (ielen targetAttrId : Nat),
    AttrWalkOk k ie ielen targetAttrId := by
  intro h
  obtain ⟨n, hn⟩ := (h .wps endlessWps 10 0x1044).returns
  have hstays (n : Nat) : attrCursor .wps endlessWps 10 0x1044 n = some 6 := by
    induction n with
    | zero => decide
    | succ n ih => exact attrCursor_succ.2 ⟨6, ih, by decide⟩
  exact absurd ((hstays n).symm.trans hn) (Option.some_ne_none _)

/-- The loop that `collect_bss_info` goes through is made of these rounds. -/
theorem rtwGetP2pAttrLoop_next {ie : List UInt8} {ielen targetAttrId fuel pos pos' : Nat}
    (h : attrRound .p2p ie ielen targetAttrId pos = .next pos') :
    rtwGetP2pAttrLoop ie ielen targetAttrId (fuel + 1) pos =
      if pos' = pos then .endless else rtwGetP2pAttrLoop ie ielen targetAttrId fuel pos' := by
  obtain ⟨hlt, hid, rfl⟩ := attrRound_eq_next.1 h
  have hzero : pos + AttrKind.p2p.attrSize ie pos % 2 ^ 16 = pos ↔ AttrKind.p2p.attrSize ie pos % 2 ^ 16 = 0 :=
    Nat.add_eq_left
  rw [rtwGetP2pAttrLoop, if_pos hlt]
  simp only [hzero]
  exact if_neg hid

theorem rtwGetP2pAttrLoop_stop {ie : List UInt8} {ielen targetAttrId fuel pos : Nat} {r : Option (Nat × Nat)}
    (h : attrRound .p2p ie ielen targetAttrId pos = .stop r) :
    rtwGetP2pAttrLoop ie ielen targetAttrId (fuel + 1) pos = r.elim .notFound fun e => .found e.1 e.2 := by
  unfold attrRound at h
  unfold rtwGetP2pAttrLoop
  by_cases hlt : pos < ielen
  · rw [if_pos hlt] at h ⊢
    by_cases hid : AttrKind.p2p.attrId ie pos = targetAttrId
    · rw [if_pos hid] at h
      obtain rfl := AttrRound.stop.inj h
      exact if_pos hid
    · rw [if_neg hid] at h
      cases h
  · rw [if_neg hlt] at h ⊢
    obtain rfl := AttrRound.stop.inj h
    rfl

end Rtw
