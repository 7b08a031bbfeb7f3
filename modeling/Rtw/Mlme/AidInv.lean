import Rtw.Lib.Run
import Rtw.Mlme.Assoc
import Mathlib.Data.Fintype.EquivFin

/-!
# Association ids

A station's `aid` and the table `sta_aid` point at each other. `StaPriv.Inv` is kept by every handler
as long as `OnAssocReq` refuses no station that holds an AID: `OnAssocReqFail` clears the station's
`aid` and leaves the slot behind.
-/

namespace Rtw

/-- The request passes the state check of `OnAssocReq` for a station in state `st`, and the checks on
its elements refuse it. -/
def Refused (cfg : ApCfg) (f : MgmtFrame) (st : FwState) : Prop :=
  cfg.apState ∧ f.ieOffset ≤ f.body.length ∧ st.onAssocReq ≠ none ∧ assocReqStatus cfg f.ies ≠ statsSuccessful

instance (cfg : ApCfg) (f : MgmtFrame) (st : FwState) : Decidable (Refused cfg f st) :=
  inferInstanceAs (Decidable (_ ∧ _ ∧ _ ∧ _))

/-- What happens to the stations of an access point. -/
inductive ApEvent where
  | auth (cfg : ApCfg) (f : MgmtFrame)
  | assocReq (cfg : ApCfg) (f : MgmtFrame)
  | freeSta (i : StaId)

/-! ### What the handlers do -/

theorem authStep_ok {cfg : ApCfg} {algorithm seq : Nat} {body : List UInt8} {p q : StaInfo}
    (h : authStep cfg algorithm seq body p = .ok q) :
    q.aid = p.aid ∧ q.state.assocSuccess = p.state.assocSuccess := by
  unfold authStep at h
  dsimp only at h
  split at h
  · cases h
  split at h
  · split at h
    · cases h; exact ⟨rfl, rfl⟩
    · cases h
  split at h
  · cases h; exact ⟨rfl, rfl⟩
  split at h
  · cases hc : challengeMatches body p.chgTxt with
    | error e => rw [hc] at h; cases h
    | ok u => rw [hc] at h; cases h; exact ⟨rfl, rfl⟩
  · cases h

/-- The algorithm number of an authentication frame. -/
def MgmtFrame.authAlg (f : MgmtFrame) : Nat :=
  byteAt f.body (if f.privacy then 4 else 0) + 256 * byteAt f.body ((if f.privacy then 4 else 0) + 1)

/-- The transaction sequence number of an authentication frame. -/
def MgmtFrame.authSeq (f : MgmtFrame) : Nat :=
  byteAt f.body ((if f.privacy then 4 else 0) + 2) + 256 * byteAt f.body ((if f.privacy then 4 else 0) + 3)

/-- `i` is the station that sent the frame: it is found, or it is new and `t` has an entry for it. -/
def FoundIn (f : MgmtFrame) (s t : StaPriv) (i : StaId) : Prop :=
  rtwGetStainfo s f.sa = some i ∧ t = s ∨
    rtwGetStainfo s f.sa = none ∧ ∃ u, rtwAllocStainfo s f.sa = some (u, i) ∧
      t = u.modify i fun p => { p with state := { authNull := true }, authSeq := 0 }

/-- `OnAuth` touches one station, found or new: it frees it or moves it on. -/
theorem onAuth_cases (cfg : ApCfg) (f : MgmtFrame) (s : StaPriv) :
    (onAuth cfg f s).1 = s ∨
    ∃ t i, FoundIn f s t i ∧ (cfg.apState ∧ ¬ (f.authAlg = 0 ∧ authMode cfg = 1) ∧ rtwAccessCtrl cfg.aclList f.sa) ∧
      ((onAuth cfg f s).1 = rtwFreeStainfo t i ∨
        ∃ p, authStep cfg f.authAlg f.authSeq f.body (t.sta i) = .ok p ∧
          (onAuth cfg f s).1 = t.modify i fun _ => p) := by
  unfold onAuth
  dsimp only
  rw [← MgmtFrame.authAlg, ← MgmtFrame.authSeq]
  split
  · exact .inl rfl
  rename_i hap
  split
  · exact .inl rfl
  rename_i halg
  split
  · exact .inl rfl
  rename_i hacl
  split
  · exact .inl rfl
  rename_i t i hfound
  refine .inr ⟨t, i, ?_, ⟨by simpa using hap, fun h => halg (.inr h), by simpa using hacl⟩, ?_⟩
  · split at hfound
    · rename_i j hj
      obtain ⟨rfl, rfl⟩ := Prod.mk.inj (Option.some.inj hfound)
      exact .inl ⟨hj, rfl⟩
    · rename_i hnone
      obtain ⟨⟨u, j⟩, hu, hm⟩ := Option.map_eq_some_iff.1 hfound
      obtain ⟨rfl, rfl⟩ := Prod.mk.inj hm
      exact .inr ⟨hnone, u, hu, rfl⟩
  · split
    · exact .inl rfl
    · rename_i p hp
      exact .inr ⟨p, hp, rfl⟩

/-- `OnAssocReq` touches the requesting station: the refusal clears its AID, a success keeps the one
it has or finds a new one. -/
theorem onAssocReq_cases (cfg : ApCfg) (f : MgmtFrame) (s : StaPriv) :
    (onAssocReq cfg f s).1 = s ∨
    ∃ i st t, rtwGetStainfo s f.sa = some i ∧ (s.sta i).state.onAssocReq = some st ∧
      t = s.modify i (fun p => { p with state := st }) ∧
      ((Refused cfg f (s.sta i).state ∨ getUniqueAid t i = none) ∧
          (onAssocReq cfg f s).1 = t.modify i (fun p => { p with aid := 0 }) ∨
        ∃ u, getUniqueAid t i = some u ∧ (onAssocReq cfg f s).1 =
          u.modify i fun p => { p with state := { p.state with assocState := false, assocSuccess := true } }) := by
  unfold onAssocReq
  dsimp only
  split
  · exact .inl rfl
  rename_i hap
  split
  · exact .inl rfl
  rename_i hlen
  split
  · exact .inl rfl
  rename_i i hi
  split
  · exact .inl rfl
  rename_i st hst
  refine .inr ⟨i, st, _, hi, hst, rfl, ?_⟩
  split
  · rename_i hstatus
    exact .inl ⟨.inl ⟨by simpa using hap, Nat.le_of_not_lt hlen, by simp [hst], hstatus⟩, rfl⟩
  · split
    · rename_i hg; exact .inl ⟨.inr hg, rfl⟩
    · rename_i u hg; exact .inr ⟨u, hg, rfl⟩

theorem FwState.onAssocReq_assocSuccess {st st' : FwState} (h : st.onAssocReq = some st')
    (hs : st'.assocSuccess) : st.assocSuccess := by
  unfold FwState.onAssocReq at h
  split at h
  · split at h
    · cases h
    · cases h; cases hs
  · cases h; exact hs

theorem getUniqueAid_eq_none {s : StaPriv} {i : StaId} (h : getUniqueAid s i = none) : (s.sta i).aid = 0 := by
  unfold getUniqueAid at h
  split at h
  · cases h
  · omega

/-! ### The invariant -/

namespace StaPriv
variable {s t : StaPriv} {i j : StaId} {k : Fin numSta} {f : StaInfo → StaInfo} {a : MacAddr}

/-- The pool after initialisation, with the station for broadcast frames. -/
def start (maxNumSta : Nat) : StaPriv :=
  ((rtwAllocStainfo (init maxNumSta) bcAddr).map (·.1)).getD (init maxNumSta)

def next (s : StaPriv) : ApEvent → StaPriv
  | .auth cfg f => (onAuth cfg f s).1
  | .assocReq cfg f => (onAssocReq cfg f s).1
  | .freeSta i => if i ∈ s.staHash then rtwFreeStainfo s i else s

/-- No station that holds an AID is refused. -/
def StepOk (s : StaPriv) : ApEvent → Prop
  | .assocReq cfg f =>
    ∀ i, rtwGetStainfo s f.sa = some i → Refused cfg f (s.sta i).state → (s.sta i).aid = 0
  | _ => True

instance (s : StaPriv) : (e : ApEvent) → Decidable (s.StepOk e)
  | .auth .. => .isTrue trivial
  | .assocReq cfg f => inferInstanceAs (Decidable (∀ i, rtwGetStainfo s f.sa = some i →
      Refused cfg f (s.sta i).state → (s.sta i).aid = 0))
  | .freeSta _ => .isTrue trivial

/-- The AID bookkeeping is consistent. -/
structure AidOk (s : StaPriv) : Prop where
  /-- A slot points exactly to the live station with its AID. -/
  slot_iff : ∀ k i, s.staAid k = some i ↔ i ∈ s.staHash ∧ (s.sta i).aid = k + 1
  range : ∀ i ∈ s.staHash, (s.sta i).state.assocSuccess →
    1 ≤ (s.sta i).aid ∧ (s.sta i).aid ≤ min numSta s.maxNumSta
  unique : ∀ i ∈ s.staHash, ∀ j ∈ s.staHash, (s.sta i).aid = (s.sta j).aid → (s.sta i).aid ≠ 0 → i = j

structure Inv (s : StaPriv) : Prop where
  nodup : (s.staHash ++ s.freeStaQueue).Nodup
  slot_iff : ∀ k i, s.staAid k = some i ↔ i ∈ s.staHash ∧ (s.sta i).aid = k + 1
  aid_le : ∀ i ∈ s.staHash, (s.sta i).aid ≤ min numSta s.maxNumSta
  aid_ne_zero : ∀ i ∈ s.staHash, (s.sta i).state.assocSuccess → (s.sta i).aid ≠ 0

theorem Inv.aidOk (h : s.Inv) : s.AidOk where
  slot_iff := h.slot_iff
  range i hi hs := ⟨Nat.one_le_iff_ne_zero.2 (h.aid_ne_zero i hi hs), h.aid_le i hi⟩
  unique i hi j hj he h0 := by
    have hlt : (s.sta i).aid - 1 < numSta := by have := h.aid_le i hi; omega
    have hsi := (h.slot_iff ⟨_, hlt⟩ i).2 ⟨hi, by dsimp only; omega⟩
    have hsj := (h.slot_iff ⟨_, hlt⟩ j).2 ⟨hj, by dsimp only; omega⟩
    exact Option.some_inj.1 (hsi.symm.trans hsj)

theorem Inv.init (maxNumSta : Nat) : (init maxNumSta).Inv where
  nodup := List.nodup_finRange numSta
  slot_iff k i := by simp [StaPriv.init]
  aid_le i hi := absurd hi (by simp [StaPriv.init])
  aid_ne_zero i hi := absurd hi (by simp [StaPriv.init])

theorem Inv.modify (h : s.Inv) (haid : (f (s.sta i)).aid = (s.sta i).aid)
    (hst : i ∈ s.staHash → (f (s.sta i)).state.assocSuccess → (s.sta i).aid ≠ 0) : (s.modify i f).Inv := by
  have hall : ∀ j, ((s.modify i f).sta j).aid = (s.sta j).aid := by
    intro j
    rcases eq_or_ne j i with rfl | hj
    · rw [modify_sta_self, haid]
    · rw [modify_sta_of_ne hj]
  refine ⟨h.nodup, fun k j => ?_, fun j hj => ?_, fun j hj hs => ?_⟩
  · rw [hall, modify_staAid, modify_staHash]; exact h.slot_iff k j
  · rw [hall]; exact h.aid_le j hj
  · rw [hall]
    rcases eq_or_ne j i with rfl | hne
    · rw [modify_sta_self] at hs; exact hst hj hs
    · rw [modify_sta_of_ne hne] at hs; exact h.aid_ne_zero j hj hs

/-- The lists of live and of free entries share nothing, before and after an allocation. -/
theorem nodup_alloc (h : (s.staHash ++ s.freeStaQueue).Nodup) (ha : rtwAllocStainfo s a = some (t, i)) :
    (t.staHash ++ t.freeStaQueue).Nodup ∧ i ∉ s.staHash := by
  obtain ⟨hq, ht⟩ := rtwAllocStainfo_eq_some ha
  rw [hq] at h
  constructor
  · rw [ht]
    simpa using h
  · intro hi
    exact (List.nodup_append.1 h).2.2 i hi i (List.mem_cons_self ..) rfl

theorem Inv.alloc (h : s.Inv) (ha : rtwAllocStainfo s a = some (t, i)) :
    t.Inv ∧ i ∈ t.staHash ∧ t.sta i = { rtwInitStainfo with hwaddr := a } := by
  obtain ⟨hnd, hni⟩ := nodup_alloc h.nodup ha
  obtain ⟨-, ht⟩ := rtwAllocStainfo_eq_some ha
  rw [ht] at hnd ⊢
  refine ⟨⟨hnd, fun k j => ?_, fun j hj => ?_, fun j hj hs => ?_⟩, by simp, by simp⟩
  · rcases eq_or_ne j i with rfl | hj
    · have : s.staAid k ≠ some j := fun hk => hni ((h.slot_iff k j).1 hk).1
      simp [this, rtwInitStainfo]
    · simpa [hj] using h.slot_iff k j
  · rcases eq_or_ne j i with rfl | hj'
    · simp [rtwInitStainfo]
    · simpa [hj'] using h.aid_le j (by simpa [hj'] using hj)
  · rcases eq_or_ne j i with rfl | hj'
    · simp [rtwInitStainfo] at hs
    · simp only [Function.update_of_ne hj'] at hs ⊢
      exact h.aid_ne_zero j (by simpa [hj'] using hj) hs

/-- What `rtw_free_stainfo` changes for the other stations and in the table. -/
theorem Inv.free_spec (h : s.Inv) (hi : i ∈ s.staHash) :
    (∀ j, j ≠ i → (rtwFreeStainfo s i).sta j = s.sta j) ∧
    (∀ k j, (rtwFreeStainfo s i).staAid k = some j ↔ j ≠ i ∧ s.staAid k = some j) := by
  unfold rtwFreeStainfo
  dsimp only
  split
  · rename_i k hk
    have hslot : s.staAid k = some i := (h.slot_iff k i).2 ⟨hi, aidSlot?_eq_some.1 hk⟩
    rw [if_pos hslot]
    refine ⟨fun j hj => by simp [StaPriv.modify, hj], fun k' j => ?_⟩
    dsimp only
    rcases eq_or_ne k' k with rfl | hkk
    · simp only [Function.update_self, hslot, Option.some_inj, reduceCtorEq, false_iff]
      exact fun hji => hji.1 hji.2.symm
    · rw [Function.update_of_ne hkk]
      refine ⟨fun hj => ⟨?_, hj⟩, And.right⟩
      rintro rfl
      have := ((h.slot_iff k' j).1 hj).2.symm.trans ((h.slot_iff k j).1 hslot).2
      exact hkk (Fin.ext (by omega))
  · rename_i hk
    refine ⟨fun j _ => rfl, fun k' j => ⟨fun hj => ⟨?_, hj⟩, And.right⟩⟩
    rintro rfl
    rw [aidSlot?_eq_some.2 ((h.slot_iff k' j).1 hj).2] at hk
    cases hk

theorem rtwFreeStainfo_lists : (rtwFreeStainfo s i).staHash = s.staHash.erase i ∧
    (rtwFreeStainfo s i).freeStaQueue = s.freeStaQueue ++ [i] ∧
    (rtwFreeStainfo s i).maxNumSta = s.maxNumSta := by
  unfold rtwFreeStainfo
  dsimp only
  split
  · split <;> exact ⟨rfl, rfl, rfl⟩
  · exact ⟨rfl, rfl, rfl⟩

theorem nodup_free (h : (s.staHash ++ s.freeStaQueue).Nodup) (hi : i ∈ s.staHash) :
    ((rtwFreeStainfo s i).staHash ++ (rtwFreeStainfo s i).freeStaQueue).Nodup := by
  obtain ⟨hhash, hfree, -⟩ := rtwFreeStainfo_lists (s := s) (i := i)
  have hperm : (s.staHash.erase i ++ (s.freeStaQueue ++ [i])).Perm (s.staHash ++ s.freeStaQueue) :=
    (List.Perm.append_left _ (List.perm_append_singleton ..)).trans
      (List.perm_middle.trans ((List.perm_cons_erase hi).symm.append_right _))
  rw [hhash, hfree]
  exact hperm.nodup_iff.2 h

theorem Inv.free (h : s.Inv) (hi : i ∈ s.staHash) : (rtwFreeStainfo s i).Inv := by
  obtain ⟨hhash, -, hmax⟩ := rtwFreeStainfo_lists (s := s) (i := i)
  obtain ⟨hsta, hslot⟩ := h.free_spec hi
  have hmem : ∀ j, j ∈ (rtwFreeStainfo s i).staHash ↔ j ≠ i ∧ j ∈ s.staHash := fun j => by
    rw [hhash]; exact (List.nodup_append.1 h.nodup).1.mem_erase_iff
  refine ⟨nodup_free h.nodup hi, fun k j => ?_, fun j hj => ?_, fun j hj hs => ?_⟩
  · rw [hslot, hmem, h.slot_iff]
    constructor
    · rintro ⟨hj, hl, ha⟩; exact ⟨⟨hj, hl⟩, by rw [hsta j hj]; exact ha⟩
    · rintro ⟨⟨hj, hl⟩, ha⟩; rw [hsta j hj] at ha; exact ⟨hj, hl, ha⟩
  · obtain ⟨hj, hl⟩ := (hmem j).1 hj
    rw [hsta j hj, hmax]; exact h.aid_le j hl
  · obtain ⟨hj, hl⟩ := (hmem j).1 hj
    rw [hsta j hj] at hs ⊢; exact h.aid_ne_zero j hl hs

/-- A live station without an AID finds a free slot: the table has a slot for each entry of the pool. -/
theorem Inv.exists_free_slot (h : s.Inv) (hi : i ∈ s.staHash) (h0 : (s.sta i).aid = 0) :
    ∃ k, s.staAid k = none := by
  by_contra hfull
  push Not at hfull
  choose owner howner using fun k => Option.ne_none_iff_exists'.1 (hfull k)
  have hinj : Function.Injective owner := by
    intro k k' he
    have h1 := ((h.slot_iff k _).1 (howner k)).2
    have h2 := ((h.slot_iff k' _).1 (howner k')).2
    rw [he] at h1
    exact Fin.ext (by omega)
  obtain ⟨k, rfl⟩ := Finite.surjective_of_injective hinj i
  have := ((h.slot_iff k _).1 (howner k)).2
  omega

/-- The search for an AID: it keeps the invariant and gives the station an AID. -/
theorem Inv.getUniqueAid (h : s.Inv) (hi : i ∈ s.staHash) (hg : getUniqueAid s i = some t) :
    t.Inv ∧ i ∈ t.staHash ∧ (t.sta i).aid ≠ 0 := by
  rcases getUniqueAid_cases hg with ⟨hpos, rfl⟩ | ⟨h0, ⟨k, hfree, hmax, rfl⟩ | ⟨hfull, -⟩⟩
  · exact ⟨h, hi, by omega⟩
  · have hk32 := k.isLt
    have hne : ∀ j ∈ s.staHash, (s.sta j).aid ≠ k + 1 := fun j hj ha => by
      rw [(h.slot_iff k j).2 ⟨hj, ha⟩] at hfree; cases hfree
    refine ⟨⟨h.nodup, fun k' j => ?_, fun j hj => ?_, fun j hj hs => ?_⟩, hi, by simp⟩
    · dsimp only [modify_staHash]
      rcases eq_or_ne j i with rfl | hj
      · rw [modify_sta_self]
        rcases eq_or_ne k' k with rfl | hkk
        · simp [hi]
        · rw [Function.update_of_ne hkk]
          have hk' : s.staAid k' ≠ some j := fun hs => by
            have := ((h.slot_iff k' j).1 hs).2; omega
          have : (k : Nat) ≠ k' := fun he => hkk (Fin.ext he.symm)
          simp [hk', this]
      · rw [modify_sta_of_ne hj]
        rcases eq_or_ne k' k with rfl | hkk
        · simp only [Function.update_self, Option.some_inj]
          exact ⟨fun he => absurd he.symm hj, fun ⟨hl, ha⟩ => absurd ha (hne j hl)⟩
        · rw [Function.update_of_ne hkk]; exact h.slot_iff k' j
    · dsimp only [modify_maxNumSta]
      rcases eq_or_ne j i with rfl | hj'
      · rw [modify_sta_self]; dsimp only; omega
      · rw [modify_sta_of_ne hj']; exact h.aid_le j hj
    · rcases eq_or_ne j i with rfl | hj'
      · simp
      · dsimp only at hs ⊢
        rw [modify_sta_of_ne hj'] at hs ⊢; exact h.aid_ne_zero j hj hs
  · obtain ⟨k, hk⟩ := h.exists_free_slot hi h0
    exact absurd hk (hfull k)

theorem Inv.found {f : MgmtFrame} (h : s.Inv) (hf : FoundIn f s t i) : t.Inv ∧ i ∈ t.staHash := by
  rcases hf with ⟨hi, rfl⟩ | ⟨-, u, hu, rfl⟩
  · exact ⟨h, rtwGetStainfo_mem hi⟩
  · obtain ⟨hinv, hi, hsta⟩ := h.alloc hu
    exact ⟨hinv.modify rfl fun _ hs => absurd hs (by simp), hi⟩

theorem Inv.onAuth (h : s.Inv) (cfg : ApCfg) (f : MgmtFrame) : (onAuth cfg f s).1.Inv := by
  rcases onAuth_cases cfg f s with he | ⟨t, i, hfound, -, he | ⟨p, hp, he⟩⟩
  · rw [he]; exact h
  · obtain ⟨ht, hi⟩ := h.found hfound
    rw [he]; exact ht.free hi
  · obtain ⟨ht, hi⟩ := h.found hfound
    obtain ⟨haid, hst⟩ := authStep_ok hp
    rw [he]; exact ht.modify haid fun hi hs => ht.aid_ne_zero i hi (hst ▸ hs)

theorem Inv.onAssocReq {cfg : ApCfg} {f : MgmtFrame} (h : s.Inv) (hok : s.StepOk (.assocReq cfg f)) :
    (onAssocReq cfg f s).1.Inv := by
  rcases onAssocReq_cases cfg f s with he | ⟨i, st, t, hi, hst, rfl, hres⟩
  · rw [he]; exact h
  have hmem := rtwGetStainfo_mem hi
  have ht : (s.modify i fun p => { p with state := st }).Inv :=
    h.modify rfl fun _ hs => h.aid_ne_zero i hmem (FwState.onAssocReq_assocSuccess hst hs)
  rcases hres with ⟨hrefused, he⟩ | ⟨u, hu, he⟩
  · -- a refusal clears the AID of a station that has none
    have h0 : ((s.modify i fun p => { p with state := st }).sta i).aid = 0 := by
      rcases hrefused with hr | hn
      · rw [modify_sta_self]; exact hok i hi hr
      · exact getUniqueAid_eq_none hn
    rw [he]
    exact ht.modify h0.symm fun hl hs => ht.aid_ne_zero i hl hs
  · obtain ⟨hinv, hl, hne⟩ := ht.getUniqueAid hmem hu
    rw [he]
    exact hinv.modify rfl fun _ _ => hne

theorem Inv.start (maxNumSta : Nat) : (start maxNumSta).Inv := by
  unfold StaPriv.start
  cases ha : rtwAllocStainfo (StaPriv.init maxNumSta) bcAddr with
  | none => exact Inv.init maxNumSta
  | some r => exact ((Inv.init maxNumSta).alloc (t := r.1) (i := r.2) ha).1

theorem Inv.next (h : s.Inv) (e : ApEvent) (hok : s.StepOk e) : (s.next e).Inv := by
  cases e with
  | auth cfg f => exact h.onAuth cfg f
  | assocReq cfg f => exact h.onAssocReq hok
  | freeSta i =>
    unfold StaPriv.next
    dsimp only
    split
    · rename_i hi; exact h.free hi
    · exact h

/-- In every run in which no station that holds an AID is refused, the AID bookkeeping stays
consistent. -/
theorem aidOk_run (maxNumSta : Nat) (evs : List ApEvent)
    (hok : Machine.RunOk next StepOk (start maxNumSta) evs) : (Machine.run next (start maxNumSta) evs).AidOk :=
  (Machine.run_invariant_of_ok (fun _ e h hok => h.next e hok) (Inv.start maxNumSta) hok).aidOk

/-- An open AP with the SSID `ap`. -/
def openAp : ApCfg where
  apState := true
  dot11AuthAlgrthm := 0
  dot11PrivacyAlgrthm := .noPrivacy
  aclList := ⟨0, []⟩
  ssid := [0x61, 0x70]
  wpaPsk := 0
  wpaGroupCipher := 0
  wpaPairwiseCipher := 0
  wpa2GroupCipher := 0
  wpa2PairwiseCipher := 0
  wpsSelectedRegistrar := none
  htOption := true
  vhtOption := true
  p2pGo := false

def staAddr (n : UInt8) : MacAddr := #v[0x02, 0, 0, 0, 0, n]

/-- The first frame of an open-system authentication. -/
def openAuth (n : UInt8) : ApEvent := .auth openAp ⟨staAddr n, false, false, [0, 0, 1, 0, 0, 0]⟩

/-- An association request for `ssid` with the rate 1 Mb/s. -/
def assocReq (n : UInt8) (ssid : List UInt8) : ApEvent :=
  .assocReq openAp
    ⟨staAddr n, false, false, [1, 0, 10, 0] ++ 0 :: UInt8.ofNat ssid.length :: ssid ++ [1, 1, 0x82]⟩

theorem aidOk_run_openAp :
    (Machine.run next (start 2) [openAuth 1, assocReq 1 [0x61, 0x70], openAuth 2, assocReq 2 [0x62],
      openAuth 3, assocReq 3 [0x61, 0x70], assocReq 1 [0x61, 0x70], .freeSta 1]).AidOk :=
  aidOk_run 2 _ (by decide +kernel)

/-- A second request with another SSID is refused, and the slot of the station points to a station
without an AID. -/
theorem not_aidOk_refused :
    ¬ (Machine.run next (start 32) [openAuth 1, assocReq 1 [0x61, 0x70], assocReq 1 [0x62]]).AidOk := by
  intro h
  have haid := ((h.slot_iff 0 1).1 (by decide +kernel)).2
  revert haid
  decide +kernel

end StaPriv

end Rtw
