import Mathlib.Logic.Function.Basic
import Mathlib.Data.List.FinRange
import Mathlib.Data.List.Nodup
import Rtw.Recv.Frame

/-!
# Stations

The pool of station entries of `rtw_sta_mgt.c` and the table of association ids. An entry is named by
its index in the pool. The hash buckets are one list: an address selects its bucket, so within a
bucket the first match is the first match overall.
-/

namespace Rtw

abbrev numSta : Nat := 32

/-- A pointer to a station entry. -/
abbrev StaId := Fin numSta

instance neZeroNumSta : @NeZero Nat Zero.ofOfNat0 numSta := ⟨by decide⟩

instance lawfulBEqStaId : LawfulBEq StaId := inferInstance

/-- The bits of `sta_info.state` that the handlers of an access point use. -/
structure FwState where
  authNull : Bool := false
  authState : Bool := false
  authSuccess : Bool := false
  assocState : Bool := false
  assocSuccess : Bool := false
  deriving DecidableEq

/-- The part of `struct sta_info` that authentication and association work on. -/
structure StaInfo where
  hwaddr : MacAddr
  state : FwState
  authSeq : Nat
  authalg : Nat
  chgTxt : List UInt8
  aid : Nat
  deriving DecidableEq

def rtwInitStainfo : StaInfo :=
  { hwaddr := .replicate 6 0, state := {}, authSeq := 0, authalg := 0, chgTxt := .replicate 128 0, aid := 0 }

/-- `struct sta_priv` -/
structure StaPriv where
  sta : StaId → StaInfo
  freeStaQueue : List StaId
  staHash : List StaId
  asocStaCount : Nat
  staAid : Fin numSta → Option StaId
  maxNumSta : Nat

namespace StaPriv

/-- `_rtw_init_sta_priv` -/
def init (maxNumSta : Nat) : StaPriv where
  sta _ := rtwInitStainfo
  freeStaQueue := List.finRange numSta
  staHash := []
  asocStaCount := 0
  staAid _ := none
  maxNumSta

def modify (s : StaPriv) (i : StaId) (f : StaInfo → StaInfo) : StaPriv :=
  { s with sta := Function.update s.sta i (f (s.sta i)) }

end StaPriv

def bcAddr : MacAddr := .replicate 6 0xff

def rtwGetStainfo (s : StaPriv) (hwaddr : MacAddr) : Option StaId :=
  let addr := if hwaddr.isMcast then bcAddr else hwaddr
  s.staHash.find? fun i => (s.sta i).hwaddr = addr

def rtwAllocStainfo (s : StaPriv) (hwaddr : MacAddr) : Option (StaPriv × StaId) :=
  match s.freeStaQueue with
  | [] => none
  | i :: free =>
    some ({ s with
      sta := Function.update s.sta i { rtwInitStainfo with hwaddr }
      freeStaQueue := free
      staHash := s.staHash ++ [i]
      asocStaCount := s.asocStaCount + 1 }, i)

/-- The slot of an association id. -/
def aidSlot? (aid : Nat) : Option (Fin numSta) :=
  if h : 0 < aid ∧ aid - 1 < numSta then some ⟨aid - 1, h.2⟩ else none

def rtwFreeStainfo (s : StaPriv) (i : StaId) : StaPriv :=
  let s := { s with staHash := s.staHash.erase i, asocStaCount := s.asocStaCount - 1 }
  let s :=
    match aidSlot? (s.sta i).aid with
    | some k =>
      if s.staAid k = some i then
        { s.modify i fun p => { p with aid := 0 } with staAid := Function.update s.staAid k none }
      else s
    | none => s
  { s with freeStaQueue := s.freeStaQueue ++ [i] }

/-- The search for a unique AID in `OnAssocReq`: `none` when there is no room for the station. -/
def getUniqueAid (s : StaPriv) (i : StaId) : Option StaPriv :=
  if (s.sta i).aid > 0 then some s
  else
    match (List.finRange numSta).find? fun k => s.staAid k = none with
    | some k =>
      if k + 1 > s.maxNumSta then none
      else some { s.modify i fun p => { p with aid := k + 1 } with staAid := Function.update s.staAid k (some i) }
    -- every slot is taken: the loop leaves the index behind the table
    | none => some (s.modify i fun p => { p with aid := numSta + 1 })

section
variable {s t : StaPriv} {i j : StaId} {k : Fin numSta} {hwaddr : MacAddr} {f : StaInfo → StaInfo}

@[simp] theorem StaPriv.modify_staHash : (s.modify i f).staHash = s.staHash := rfl
@[simp] theorem StaPriv.modify_freeStaQueue : (s.modify i f).freeStaQueue = s.freeStaQueue := rfl
@[simp] theorem StaPriv.modify_staAid : (s.modify i f).staAid = s.staAid := rfl
@[simp] theorem StaPriv.modify_maxNumSta : (s.modify i f).maxNumSta = s.maxNumSta := rfl
@[simp] theorem StaPriv.modify_sta_self : (s.modify i f).sta i = f (s.sta i) := by simp [StaPriv.modify]

theorem StaPriv.modify_sta_of_ne (h : j ≠ i) : (s.modify i f).sta j = s.sta j := by
  simp [StaPriv.modify, h]

theorem aidSlot?_eq_some {aid : Nat} : aidSlot? aid = some k ↔ aid = k + 1 := by
  unfold aidSlot?
  split
  · rename_i h
    rw [Option.some_inj, Fin.ext_iff]; dsimp only; omega
  · rename_i h
    constructor
    · intro h
      cases h
    · intro he
      exact absurd ⟨by omega, by have := k.isLt; omega⟩ h

theorem rtwAllocStainfo_eq_some (h : rtwAllocStainfo s hwaddr = some (t, i)) :
    s.freeStaQueue = i :: t.freeStaQueue ∧
    t = { s with
      sta := Function.update s.sta i { rtwInitStainfo with hwaddr }
      freeStaQueue := t.freeStaQueue
      staHash := s.staHash ++ [i]
      asocStaCount := s.asocStaCount + 1 } := by
  unfold rtwAllocStainfo at h
  split at h
  · cases h
  · rename_i x free hq
    obtain ⟨rfl, rfl⟩ := Prod.mk.inj (Option.some.inj h)
    exact ⟨hq, rfl⟩

/-- The station keeps its AID, or gets that of a free slot, or, with no slot free, one behind the table. -/
theorem getUniqueAid_cases (h : getUniqueAid s i = some t) :
    (s.sta i).aid > 0 ∧ t = s ∨ (s.sta i).aid = 0 ∧
      ((∃ k, s.staAid k = none ∧ k + 1 ≤ s.maxNumSta ∧
          t = { s.modify i fun p => { p with aid := k + 1 } with staAid := Function.update s.staAid k (some i) }) ∨
        (∀ k, s.staAid k ≠ none) ∧ t = s.modify i fun p => { p with aid := numSta + 1 }) := by
  unfold getUniqueAid at h
  by_cases h0 : (s.sta i).aid > 0
  · rw [if_pos h0] at h
    exact .inl ⟨h0, (Option.some.inj h).symm⟩
  rw [if_neg h0] at h
  refine .inr ⟨by omega, ?_⟩
  cases hk : (List.finRange numSta).find? fun k => s.staAid k = none with
  | some k =>
    rw [hk] at h
    dsimp only at h
    have hfree : s.staAid k = none := by simpa using List.find?_some hk
    by_cases hmax : k + 1 > s.maxNumSta
    · rw [if_pos hmax] at h
      cases h
    · rw [if_neg hmax] at h
      exact .inl ⟨k, hfree, Nat.not_lt.1 hmax, (Option.some.inj h).symm⟩
  | none =>
    rw [hk] at h
    refine .inr ⟨fun k => ?_, (Option.some.inj h).symm⟩
    simpa using List.find?_eq_none.1 hk k (List.mem_finRange k)

theorem rtwGetStainfo_mem (h : rtwGetStainfo s hwaddr = some i) : i ∈ s.staHash :=
  List.mem_of_find?_eq_some h

end

end Rtw
