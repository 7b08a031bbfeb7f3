import Rtw.Lib.Run
import Rtw.Mlme.ApWf
import Rtw.Mlme.ApLists

/-!
# The lists of stations

Every station of a peer is on one of `auth_list` and `asoc_list`, a free entry is on none, and the counters
are the lengths, so that `expire_timeout_chk` divides by no zero. What breaks this is `OnAuth` in a build
with `CONFIG_IEEE80211W`: the entry of a station with a key or an association stays on `asoc_list`, and a
frame that is refused frees it all the same. In runs without such a frame, and so in every run of a build
without `CONFIG_IEEE80211W`, the lists are right (`MlmeAp.listed_run_iff`). `MlmeAp.Holds` is the invariant
inside a handler, which may hold entries that are on no list for the moment.
-/

namespace Rtw.MlmeAp

/-- What the lists promise. -/
structure Listed (a : MlmeAp) : Prop where
  peer : ∀ i ∈ a.pool.staHash, ¬ (a.pool.sta i).hwaddr.isMcast → (a.authList ++ a.asocList).count i = 1
  freed : ∀ i, i ∉ a.pool.staHash → i ∉ a.authList ∧ i ∉ a.asocList
  authCnt : a.authListCnt.toNat = a.authList.length
  asocCnt : a.asocListCnt.toNat = a.asocList.length
  divides : ∀ e, ∀ n ∈ (a.expireTimeoutChk e).2, n ≠ 0

/-- A refused authentication frame is not from a station of `asoc_list` that the build protects. -/
def ListStepOk (w : Bool) (a : MlmeAp) : MlmeEvent → Prop
  | .auth cfg _ f => ∀ i, rtwGetStainfo a.pool f.sa = some i → Ap.AuthConsidered cfg f →
    AuthRejected cfg f (a.pool.sta i) → i ∈ a.asocList → a.locked w i = false
  | _ => True

/-- The lists are right, except that the running handler holds the entries `held`, which are on none. -/
structure Holds (held : List StaId) (a : MlmeAp) : Prop where
  wf : a.toAp.Wf
  nodup : held.Nodup
  live : ∀ i ∈ held, i ∈ a.pool.staHash ∧ i ∉ a.authList ∧ i ∉ a.asocList
  peer : ∀ i ∈ a.pool.staHash, ¬ (a.pool.sta i).hwaddr.isMcast → i ∉ held → i ∈ a.authList ∨ i ∈ a.asocList
  authCnt : a.authListCnt = UInt8.ofNat a.authList.length
  asocCnt : a.asocListCnt = UInt8.ofNat a.asocList.length

section
variable {a b : MlmeAp} {i j : StaId} {held : List StaId} {w : Bool} {t : StaTimeouts} {f : MgmtFrame}

theorem Holds.congr (h : Holds held a) (hp : b.pool.Wf) (he : SameEntries a.pool b.pool)
    (hu : b.authList = a.authList) (hs : b.asocList = a.asocList) (hcu : b.authListCnt = a.authListCnt)
    (hcs : b.asocListCnt = a.asocListCnt) : Holds held b := by
  refine ⟨⟨hp, ?_, fun i hi => ?_⟩, h.nodup, fun i hi => ?_, fun i hi hm hn => ?_, ?_, ?_⟩
  · rw [hu, hs]
    exact h.wf.lists
  · rw [he.staHash]
    rw [hu, hs] at hi
    exact h.wf.live i hi
  · rw [he.staHash, hu, hs]
    exact h.live i hi
  · rw [he.staHash] at hi
    rw [he.hwaddr] at hm
    rw [hu, hs]
    exact h.peer i hi hm hn
  · rw [hcu, hu]
    exact h.authCnt
  · rw [hcs, hs]
    exact h.asocCnt

theorem Holds.perm {held' : List StaId} (h : Holds held a) (hp : held.Perm held') : Holds held' a :=
  ⟨h.wf, hp.nodup_iff.1 h.nodup, fun i hi => h.live i (hp.mem_iff.2 hi),
    fun i hi hm hn => h.peer i hi hm fun hin => hn (hp.mem_iff.1 hin), h.authCnt, h.asocCnt⟩

theorem Holds.lists (h : Holds held a) : a.authList.Nodup ∧ a.asocList.Nodup ∧ ∀ i ∈ a.authList, i ∉ a.asocList := by
  obtain ⟨hu, hs, hdis⟩ := List.nodup_append.1 h.wf.lists
  exact ⟨hu, hs, fun i hi hin => hdis i hi i hin rfl⟩

theorem nodup_length_le {l : List StaId} (h : l.Nodup) : l.length ≤ numSta := by
  simpa using h.length_le_card

theorem Holds.counts (h : Holds held a) :
    a.authListCnt.toNat = a.authList.length ∧ a.asocListCnt.toNat = a.asocList.length := by
  have hu := nodup_length_le h.lists.1
  have hs := nodup_length_le h.lists.2.1
  have h32 : numSta = 32 := rfl
  rw [h.authCnt, h.asocCnt, UInt8.toNat_ofNat', UInt8.toNat_ofNat']
  exact ⟨Nat.mod_eq_of_lt (by omega), Nat.mod_eq_of_lt (by omega)⟩

/-! ### Entries between the lists -/

/-- The handler takes a live entry that is on no list. -/
theorem Holds.take (h : Holds held a) (hi : i ∈ a.pool.staHash) (hu : i ∉ a.authList) (hs : i ∉ a.asocList)
    (hn : i ∉ held) : Holds (i :: held) a :=
  ⟨h.wf, List.nodup_cons.2 ⟨hn, h.nodup⟩, List.forall_mem_cons.2 ⟨⟨hi, hu, hs⟩, h.live⟩,
    fun j hj hm hjn => h.peer j hj hm fun hin => hjn (List.mem_cons_of_mem _ hin), h.authCnt, h.asocCnt⟩

theorem ofNat_erase {l : List StaId} (hi : i ∈ l) :
    UInt8.ofNat (l.erase i).length = UInt8.ofNat l.length - 1 := by
  have hlen : l.length = (l.erase i).length + 1 := by
    have := List.length_pos_of_mem hi
    rw [List.length_erase_of_mem hi]
    omega
  rw [hlen, UInt8.ofNat_add]
  simp

theorem Holds.authErase (h : Holds held a) (hi : i ∈ a.authList) :
    Holds (i :: held) { a with authList := a.authList.erase i, authListCnt := a.authListCnt - 1 } := by
  obtain ⟨hu, hs, hdis⟩ := h.lists
  have hn : i ∉ held := fun hin => (h.live i hin).2.1 hi
  have hlive := h.wf.live i (List.mem_append_left _ hi)
  refine ⟨⟨h.wf.pool, ?_, fun j hj => ?_⟩, List.nodup_cons.2 ⟨hn, h.nodup⟩, fun j hj => ?_, fun j hj hm hjn => ?_,
    ?_, h.asocCnt⟩
  · exact h.wf.lists.sublist ((List.erase_sublist ..).append_right _)
  · exact h.wf.live j (((List.erase_sublist ..).append_right _).subset hj)
  · rcases List.mem_cons.1 hj with rfl | hj
    · exact ⟨hlive, hu.not_mem_erase, hdis _ hi⟩
    · obtain ⟨h1, h2, h3⟩ := h.live j hj
      exact ⟨h1, fun hin => h2 (List.mem_of_mem_erase hin), h3⟩
  · have hji : j ≠ i := fun he => hjn (he ▸ List.mem_cons_self ..)
    rcases h.peer j hj hm fun hin => hjn (List.mem_cons_of_mem _ hin) with hj | hj
    · exact .inl (hu.mem_erase_iff.2 ⟨hji, hj⟩)
    · exact .inr hj
  · dsimp only
    rw [ofNat_erase hi, h.authCnt]

theorem Holds.asocErase (h : Holds held a) (hi : i ∈ a.asocList) :
    Holds (i :: held) { a with asocList := a.asocList.erase i, asocListCnt := a.asocListCnt - 1 } := by
  obtain ⟨hu, hs, hdis⟩ := h.lists
  have hn : i ∉ held := fun hin => (h.live i hin).2.2 hi
  have hlive := h.wf.live i (List.mem_append_right _ hi)
  refine ⟨⟨h.wf.pool, ?_, fun j hj => ?_⟩, List.nodup_cons.2 ⟨hn, h.nodup⟩, fun j hj => ?_, fun j hj hm hjn => ?_,
    h.authCnt, ?_⟩
  · exact h.wf.lists.sublist ((List.erase_sublist ..).append_left _)
  · exact h.wf.live j (((List.erase_sublist ..).append_left _).subset hj)
  · rcases List.mem_cons.1 hj with rfl | hj
    · exact ⟨hlive, fun hin => hdis _ hin hi, hs.not_mem_erase⟩
    · obtain ⟨h1, h2, h3⟩ := h.live j hj
      exact ⟨h1, h2, fun hin => h3 (List.mem_of_mem_erase hin)⟩
  · have hji : j ≠ i := fun he => hjn (he ▸ List.mem_cons_self ..)
    rcases h.peer j hj hm fun hin => hjn (List.mem_cons_of_mem _ hin) with hj | hj
    · exact .inl hj
    · exact .inr (hs.mem_erase_iff.2 ⟨hji, hj⟩)
  · dsimp only
    rw [ofNat_erase hi, h.asocCnt]

theorem Holds.authInsert (h : Holds (i :: held) a) :
    Holds held { a with authList := a.authList ++ [i], authListCnt := a.authListCnt + 1 } := by
  obtain ⟨hlive, hu, hs⟩ := h.live i (List.mem_cons_self ..)
  obtain ⟨hn, hnd⟩ := List.nodup_cons.1 h.nodup
  refine ⟨⟨h.wf.pool, ?_, fun j hj => ?_⟩, hnd, fun j hj => ?_, fun j hj hm hjn => ?_, ?_, h.asocCnt⟩
  · dsimp only
    rw [List.append_assoc, List.singleton_append, List.nodup_middle, List.nodup_cons, List.mem_append, not_or]
    exact ⟨⟨hu, hs⟩, h.wf.lists⟩
  · have hmem : j = i ∨ j ∈ a.authList ++ a.asocList := by
      simp only [List.mem_append, List.mem_singleton] at hj ⊢
      tauto
    rcases hmem with rfl | hj
    · exact hlive
    · exact h.wf.live j hj
  · obtain ⟨h1, h2, h3⟩ := h.live j (List.mem_cons_of_mem _ hj)
    have hji : j ≠ i := fun he => hn (he ▸ hj)
    exact ⟨h1, by simp [h2, hji], h3⟩
  · rcases eq_or_ne j i with rfl | hji
    · exact .inl (by simp)
    · rcases h.peer j hj hm (by simp [hji, hjn]) with hj | hj
      · exact .inl (List.mem_append_left _ hj)
      · exact .inr hj
  · dsimp only
    rw [List.length_append, List.length_singleton, UInt8.ofNat_add, h.authCnt]
    rfl

theorem Holds.asocInsert (h : Holds (i :: held) a) :
    Holds held { a with asocList := a.asocList ++ [i], asocListCnt := a.asocListCnt + 1 } := by
  obtain ⟨hlive, hu, hs⟩ := h.live i (List.mem_cons_self ..)
  obtain ⟨hn, hnd⟩ := List.nodup_cons.1 h.nodup
  refine ⟨⟨h.wf.pool, ?_, fun j hj => ?_⟩, hnd, fun j hj => ?_, fun j hj hm hjn => ?_, h.authCnt, ?_⟩
  · dsimp only
    rw [← List.append_assoc, List.nodup_append_comm, List.singleton_append, List.nodup_cons, List.mem_append, not_or]
    exact ⟨⟨hu, hs⟩, h.wf.lists⟩
  · have hmem : j = i ∨ j ∈ a.authList ++ a.asocList := by
      simp only [List.mem_append, List.mem_singleton] at hj ⊢
      tauto
    rcases hmem with rfl | hj
    · exact hlive
    · exact h.wf.live j hj
  · obtain ⟨h1, h2, h3⟩ := h.live j (List.mem_cons_of_mem _ hj)
    have hji : j ≠ i := fun he => hn (he ▸ hj)
    exact ⟨h1, h2, by simp [h3, hji]⟩
  · rcases eq_or_ne j i with rfl | hji
    · exact .inr (by simp)
    · rcases h.peer j hj hm (by simp [hji, hjn]) with hj | hj
      · exact .inl hj
      · exact .inr (List.mem_append_left _ hj)
  · dsimp only
    rw [List.length_append, List.length_singleton, UInt8.ofNat_add, h.asocCnt]
    rfl

theorem Holds.free (h : Holds (i :: held) a) : Holds held (a.rtwFreeStainfo i) := by
  obtain ⟨hlive, hu, hs⟩ := h.live i (List.mem_cons_self ..)
  obtain ⟨hn, hnd⟩ := List.nodup_cons.1 h.nodup
  have hlist : (a.rtwFreeStainfo i).authList = a.authList := List.erase_of_not_mem hu
  have hmem : ∀ j, j ∈ (a.rtwFreeStainfo i).pool.staHash ↔ j ≠ i ∧ j ∈ a.pool.staHash := fun j => h.wf.pool.mem_free
  refine ⟨h.wf.free hlive hs, hnd, fun j hj => ?_, fun j hj hm hjn => ?_, ?_, h.asocCnt⟩
  · obtain ⟨h1, h2, h3⟩ := h.live j (List.mem_cons_of_mem _ hj)
    refine ⟨(hmem j).2 ⟨fun he => hn (he ▸ hj), h1⟩, ?_, h3⟩
    rw [hlist]
    exact h2
  · obtain ⟨hji, hj⟩ := (hmem j).1 hj
    have hm : ¬ (a.pool.sta j).hwaddr.isMcast := by
      rw [← rtwFreeStainfo_hwaddr (i := i)]
      exact hm
    rw [hlist]
    exact h.peer j hj hm (by simp [hji, hjn])
  · have hcnt : (a.rtwFreeStainfo i).authListCnt = a.authListCnt := if_neg hu
    rw [hlist, hcnt]
    exact h.authCnt

theorem Holds.freeAuth (h : Holds held a) (hi : i ∈ a.authList) : Holds held (a.rtwFreeStainfo i) := by
  have hni := h.lists.1.not_mem_erase (a := i)
  have hfree := (h.authErase hi).free
  have he : { a with authList := a.authList.erase i, authListCnt := a.authListCnt - 1 }.rtwFreeStainfo i =
      a.rtwFreeStainfo i := by
    unfold rtwFreeStainfo Ap.rtwFreeStainfo
    dsimp only
    rw [List.erase_of_not_mem hni, if_neg hni, if_pos hi]
    rfl
  rw [← he]
  exact hfree

theorem apFreeSta_asocList : (a.apFreeSta i).asocList = a.asocList := by
  have hleave := congrArg Ap.asocList (Ap.onlyCounts_leave { a.toAp with
    ps := Function.update a.ps i { a.ps i with linked := false } } i)
  exact hleave

theorem Holds.apFree (h : Holds (i :: held) a) : Holds held (a.apFreeSta i) := by
  refine Holds.free (h.congr ?_ ?_ ?_ ?_ rfl rfl)
  all_goals
    dsimp only
    rw [Ap.onlyCounts_leave]
  · exact h.wf.pool
  · exact .refl _
  · rfl
  · rfl

/-! ### `OnAuth` and `OnAssocReq` -/

/-- The handler holds the entry, or `auth_list` has it. -/
def Linkable (a : MlmeAp) (i : StaId) : Prop := Holds [i] a ∨ Holds [] a ∧ i ∈ a.authList

theorem Linkable.authLink (h : Linkable a i) : Holds [] (a.authLink i) ∧ i ∈ (a.authLink i).authList := by
  unfold MlmeAp.authLink
  rcases h with h | ⟨h, hi⟩
  · rw [if_neg (h.live i (List.mem_cons_self ..)).2.1]
    exact ⟨h.authInsert, by simp⟩
  · rw [if_pos hi]
    exact ⟨h, hi⟩

theorem Holds.linkable (h : Holds [] a) (hi : i ∈ a.pool.staHash) (hs : i ∉ a.asocList) : Linkable a i := by
  by_cases hu : i ∈ a.authList
  · exact .inr ⟨h, hu⟩
  · exact .inl (h.take hi hu hs (by simp))

theorem Holds.asocUnlink (h : Holds [] a) (hi : i ∈ a.pool.staHash) : Linkable (a.asocUnlink i) i := by
  unfold MlmeAp.asocUnlink
  split
  · rename_i hs
    exact .inl (h.asocErase hs)
  · rename_i hs
    exact h.linkable hi hs

/-- The entry of an authentication frame: it is found and protected, or it can go on `auth_list`. -/
theorem Holds.authSta (h : Holds [] a) (hb : a.authSta w f = some (b, i)) :
    rtwGetStainfo a.pool f.sa = some i ∧ a.locked w i = true ∧ b = a ∨ b.locked w i = false ∧ Linkable b i := by
  unfold MlmeAp.authSta at hb
  cases hg : rtwGetStainfo a.pool f.sa with
  | some j =>
    rw [hg] at hb
    obtain ⟨rfl, rfl⟩ := Prod.mk.inj (Option.some.inj hb)
    cases hl : a.locked w j with
    | true => exact .inl ⟨rfl, rfl, rfl⟩
    | false =>
      rw [if_neg (by simp)]
      refine .inr ⟨?_, h.asocUnlink (rtwGetStainfo_mem hg)⟩
      rw [← hl]
      unfold MlmeAp.asocUnlink MlmeAp.locked
      split <;> rfl
  | none =>
    rw [hg] at hb
    obtain ⟨⟨c, j⟩, hc, hcb⟩ := Option.map_eq_some_iff.1 hb
    obtain ⟨⟨d, k⟩, hd, hdc⟩ := Option.map_eq_some_iff.1 hc
    obtain ⟨rfl, rfl⟩ := Prod.mk.inj hdc
    obtain ⟨rfl, rfl⟩ := Prod.mk.inj hcb
    obtain ⟨pool, hpool, rfl⟩ := Ap.rtwAllocStainfo_eq_some hd
    obtain ⟨-, hnew⟩ := StaPriv.nodup_alloc h.wf.pool.nodup hpool
    obtain ⟨-, ht⟩ := Rtw.rtwAllocStainfo_eq_some hpool
    have hmem : ∀ j, j ∈ pool.staHash ↔ j ∈ a.pool.staHash ∨ j = k := by
      intro j
      rw [ht]
      simp
    have hother : ∀ j ∈ a.pool.staHash, pool.sta j = a.pool.sta j := by
      intro j hj
      rw [ht]
      refine Function.update_of_ne (fun he : j = k => hnew ?_) _ _
      rw [← he]
      exact hj
    have hnl : k ∉ a.authList ∧ k ∉ a.asocList := by
      rw [← not_or, ← List.mem_append]
      exact fun hin => hnew (h.wf.live k hin)
    refine .inr ⟨by simp [MlmeAp.locked], .inl ⟨⟨?_, h.wf.lists, fun j hj => ?_⟩, List.nodup_singleton k, ?_, ?_,
      h.authCnt, h.asocCnt⟩⟩
    · exact (h.wf.pool.alloc hpool hg).modify (f := fun p => { p with state := { authNull := true }, authSeq := 0 })
        rfl (.inl rfl)
    · exact (hmem j).2 (.inl (h.wf.live j hj))
    · intro j hj
      rw [List.mem_singleton.1 hj]
      exact ⟨(hmem k).2 (.inr rfl), hnl⟩
    · intro j hj hm hjn
      have hjk : j ≠ k := by simpa using hjn
      have hja : j ∈ a.pool.staHash := ((hmem j).1 hj).resolve_right hjk
      dsimp only at hm
      rw [StaPriv.modify_sta_of_ne hjk, hother j hja] at hm
      exact h.peer j hja hm (by simp)

theorem Holds.modify (h : Holds held a) {g : StaInfo → StaInfo} (hw : (g (a.pool.sta i)).hwaddr = (a.pool.sta i).hwaddr)
    (ha : (g (a.pool.sta i)).aid = (a.pool.sta i).aid ∨ (g (a.pool.sta i)).aid = 0) :
    Holds held { a with pool := a.pool.modify i g } :=
  h.congr (h.wf.pool.modify hw ha) (.modify hw) rfl rfl rfl rfl

theorem authLink_pool : (a.authLink i).pool = a.pool := by rw [authLink_toAp]

theorem Holds.authEntry (hlink : a.locked w i = false → Linkable a i)
    (hlock : a.locked w i = true → Holds [] a ∧ i ∈ a.pool.staHash) {cfg : ApCfg}
    (hok : AuthRejected cfg f (a.pool.sta i) → i ∈ a.asocList → a.locked w i = false) :
    Holds [] (a.authEntry w cfg t f i) := by
  obtain ⟨age, ⟨hrej, he⟩ | ⟨p, hp, b, rfl, he⟩⟩ := authEntry_cases w cfg t f a i
  · rw [he]
    cases hl : a.locked w i with
    | false =>
      rw [if_neg (by simp)]
      obtain ⟨h, hi⟩ := (hlink hl).authLink
      exact Holds.freeAuth (h.congr h.wf.pool (.refl _) rfl rfl rfl rfl) hi
    | true =>
      rw [if_pos rfl]
      obtain ⟨h, hi⟩ := hlock hl
      have hs : i ∉ a.asocList := fun hin => by
        rw [hok hrej hin] at hl
        cases hl
      have hage : Holds [] { a with age } := h.congr h.wf.pool (.refl _) rfl rfl rfl rfl
      by_cases hu : i ∈ a.authList
      · exact hage.freeAuth hu
      · exact (hage.take hi hu hs (by simp)).free
  · rw [he]
    obtain ⟨hw, haid, -, -⟩ := authStepPmf_ok hp
    have hb : Holds [] (if a.locked w i then a else a.authLink i) := by
      split
      · rename_i hl
        exact (hlock hl).1
      · rename_i hl
        exact ((hlink (by simpa using hl)).authLink).1
    have hpool : (if a.locked w i then a else a.authLink i).pool = a.pool := by
      split
      · rfl
      · exact authLink_pool
    have hmod := hb.modify (i := i) (g := fun _ => p) (by rw [hpool]; exact hw) (.inl (by rw [hpool]; exact haid))
    exact hmod.congr hmod.wf.pool (.refl _) rfl rfl rfl rfl

theorem Holds.onAuth (h : Holds [] a) (cfg : ApCfg)
    (hok : ∀ i, rtwGetStainfo a.pool f.sa = some i → Ap.AuthConsidered cfg f →
      AuthRejected cfg f (a.pool.sta i) → i ∈ a.asocList → a.locked w i = false) :
    Holds [] (a.onAuth w cfg t f) := by
  rw [onAuth_eq]
  split
  · rename_i hcons
    cases hb : a.authSta w f with
    | none => exact h
    | some r =>
      obtain ⟨b, i⟩ := r
      rcases h.authSta hb with ⟨hg, hl, rfl⟩ | ⟨hl, hlink⟩
      · exact Holds.authEntry (fun hn => by rw [hl] at hn; cases hn) (fun _ => ⟨h, rtwGetStainfo_mem hg⟩)
          (hok i hg hcons)
      · exact Holds.authEntry (fun _ => hlink) (fun hn => by rw [hl] at hn; cases hn) (fun _ _ => hl)
  · exact h

/-- A refused frame of a protected station frees its entry, which stays on `asoc_list`. -/
theorem not_listed_onAuth (h : Holds [] a) {cfg : ApCfg} (hg : rtwGetStainfo a.pool f.sa = some i)
    (hcons : Ap.AuthConsidered cfg f) (hrej : AuthRejected cfg f (a.pool.sta i)) (hs : i ∈ a.asocList)
    (hl : a.locked w i = true) : ¬ (a.onAuth w cfg t f).Listed := by
  obtain ⟨age, he⟩ := onAuth_of_rejected (t := t) hg hl hcons hrej
  rw [he]
  intro hlisted
  have hgone : i ∉ (a.toAp.rtwFreeStainfo i).pool.staHash := fun hin => (h.wf.pool.mem_free.1 hin).1 rfl
  exact (hlisted.freed i hgone).2 hs

theorem Holds.move (h : Holds [] a) (hi : i ∈ a.pool.staHash) : Holds [] ((a.authUnlink i).asocLink t i) := by
  have hlink : Holds [i] (a.authUnlink i) ∨ Holds [] (a.authUnlink i) ∧ i ∈ (a.authUnlink i).asocList := by
    unfold MlmeAp.authUnlink
    split
    · rename_i hu
      exact .inl (h.authErase hu)
    · rename_i hu
      by_cases hs : i ∈ a.asocList
      · exact .inr ⟨h, hs⟩
      · exact .inl (h.take hi hu hs (by simp))
  unfold MlmeAp.asocLink
  rcases hlink with h | ⟨h, hs⟩
  · rw [if_neg (h.live i (List.mem_cons_self ..)).2.2]
    exact h.asocInsert.congr h.wf.pool (.refl _) rfl rfl rfl rfl
  · rw [if_pos hs]
    exact h

theorem Holds.join (h : Holds held a) (cfg : BssCfg) (i : StaId) :
    Holds held { a with toAp := (a.toAp.bssCapUpdateOnStaJoin i).staInfoUpdate cfg i } := by
  unfold Ap.staInfoUpdate
  rw [Ap.onlyCounts_join]
  exact h.congr h.wf.pool (.refl _) rfl rfl rfl rfl

theorem Holds.onAssocReq (h : Holds [] a) (cfg : BssCfg) : Holds [] (a.onAssocReq w cfg t f) := by
  unfold MlmeAp.onAssocReq
  cases hsta : assocReqSta cfg.toApCfg f a.pool with
  | none => exact h
  | some i =>
    dsimp only
    have hentries := onAssocReq_entries cfg.toApCfg f a.pool
    have h1 := h.congr (b := { a with
      pool := (Rtw.onAssocReq cfg.toApCfg f a.pool).1
      cap := Function.update a.cap i (assocReqCap cfg f (a.cap i))
      assoc := Function.update a.assoc i (assocReqAssoc cfg.toApCfg f (a.assoc i)) })
      (h.wf.pool.onAssocReq cfg.toApCfg f) hentries rfl rfl rfl rfl
    have hi : i ∈ (Rtw.onAssocReq cfg.toApCfg f a.pool).1.staHash := by
      rw [hentries.staHash]
      exact rtwGetStainfo_mem (onAssocReq_of_sta hsta).1
    split
    · exact h1
    split
    · exact h1
    · exact (h1.move hi).join cfg i

theorem Holds.onDeAuth (h : Holds [] a) (ownBss : Bool) (sa : MacAddr) : Holds [] (a.onDeAuth ownBss sa) := by
  unfold MlmeAp.onDeAuth MlmeAp.asocUnlink
  split
  · exact h
  cases rtwGetStainfo a.pool sa with
  | none => exact h
  | some i =>
    dsimp only
    split
    · rename_i hs
      exact (h.asocErase hs).apFree
    · exact h

/-! ### Loops over the lists -/

/-- A loop over a snapshot of a list, of which each round takes off at most its own station. -/
theorem foldl_snapshot {I : MlmeAp → Prop} {step : MlmeAp → StaId → MlmeAp} {L : MlmeAp → List StaId}
    (hstep : ∀ a i, I a → i ∈ L a → I (step a i) ∧ ∀ j, j ≠ i → j ∈ L a → j ∈ L (step a i))
    {l : List StaId} (hl : l.Nodup) (hmem : ∀ i ∈ l, i ∈ L a) (h : I a) : I (l.foldl step a) := by
  induction l generalizing a with
  | nil => exact h
  | cons i rest ih =>
    obtain ⟨hi, hrest⟩ := List.nodup_cons.1 hl
    obtain ⟨hI, hkeep⟩ := hstep a i h (hmem i (List.mem_cons_self ..))
    refine ih hrest (fun j hj => hkeep j ?_ (hmem j (List.mem_cons_of_mem _ hj))) hI
    rintro rfl
    exact hi hj

theorem Holds.age (h : Holds held a) {age : StaId → StaAge} {ba : StaId → StaBa} {ps : StaId → PsSta}
    {timBitmap : BitVec 16} : Holds held { a with age, ba, ps, timBitmap } :=
  h.congr h.wf.pool (.refl _) rfl rfl rfl rfl

theorem Holds.authAge (h : Holds [] a) (hi : i ∈ a.authList) :
    Holds [] (a.authAge i) ∧ ∀ j, j ≠ i → j ∈ a.authList → j ∈ (a.authAge i).authList := by
  unfold MlmeAp.authAge
  dsimp only
  split
  · split
    · refine ⟨((h.authErase hi).age).free, fun j hj hin => ?_⟩
      show j ∈ (a.authList.erase i).erase i
      exact (List.mem_erase_of_ne hj).2 ((List.mem_erase_of_ne hj).2 hin)
    · exact ⟨h.age, fun j _ hin => hin⟩
  · exact ⟨h, fun j _ hin => hin⟩

/-- Only what has to do with power save differs. -/
def OnlyPs (a b : Ap) : Prop := b = { a with ps := b.ps, staDzBitmap := b.staDzBitmap, timBitmap := b.timBitmap }

theorem OnlyPs.trans {a b c : Ap} (h : OnlyPs a b) (h' : OnlyPs b c) : OnlyPs a c := by
  unfold OnlyPs at h h' ⊢
  rw [h'.trans (by rw [h])]

theorem onlyPs_hal (a : Ap) (f : XmitFrame) : OnlyPs a (a.rtwHalXmitframeEnqueue f) := by
  unfold Ap.rtwHalXmitframeEnqueue
  dsimp only
  split <;> rfl

theorem onlyPs_foldl {step : Ap → XmitFrame → Ap} (hstep : ∀ a f, OnlyPs a (step a f)) (l : List XmitFrame)
    (a : Ap) : OnlyPs a (l.foldl step a) := by
  induction l generalizing a with
  | nil => rfl
  | cons f l ih => exact (hstep a f).trans (ih _)

theorem onlyPs_wakeup (a : Ap) (i : StaId) : OnlyPs a (a.wakeupStaToXmit i) := by
  have hset : ∀ (a : Ap) (i : StaId) (p : PsSta), OnlyPs a (a.setPs i p) := fun _ _ _ => rfl
  have hwake : ∀ (b : Ap), OnlyPs a b → OnlyPs a ((b.ps i).sleepQ.foldl (Ap.wakeupFrame i) b) := fun b hb =>
    hb.trans (onlyPs_foldl (fun b f => (hset ..).trans (onlyPs_hal ..)) _ b)
  have hpop : ∀ (b : Ap) (j : StaId), OnlyPs a b → OnlyPs a ((b.ps j).sleepQ.foldl (Ap.popFrame j true) b) :=
    fun b j hb => hb.trans (onlyPs_foldl (fun b f => (hset ..).trans (onlyPs_hal ..)) _ b)
  have hclear : ∀ (b : Ap) (n : Nat), OnlyPs b (b.clearBits n) := fun _ _ => rfl
  unfold Ap.wakeupStaToXmit
  dsimp only
  have hfirst := hwake a rfl
  generalize (a.ps i).sleepQ.foldl (Ap.wakeupFrame i) a = b at hfirst ⊢
  have hsecond : OnlyPs a (if (b.ps i).sleepqLen = 0 then
      (b.setPs i { b.ps i with sleep := false, aliveChk := false }).clearBits (b.pool.sta i).aid else b) := by
    split
    · exact hfirst.trans ((hset ..).trans (hclear ..))
    · exact hfirst
  generalize (if (b.ps i).sleepqLen = 0 then
    (b.setPs i { b.ps i with sleep := false, aliveChk := false }).clearBits (b.pool.sta i).aid else b) = c at hsecond ⊢
  split
  · exact hsecond
  split
  · split
    · exact (hpop _ _ hsecond).trans (hclear ..)
    · exact hpop _ _ hsecond
  · exact hsecond

theorem Holds.wakeup (h : Holds held a) (i : StaId) : Holds held { a with toAp := a.toAp.wakeupStaToXmit i } := by
  rw [onlyPs_wakeup]
  exact h.congr h.wf.pool (.refl _) rfl rfl rfl rfl

/-- A station of `asoc_list` that timed out stays or is freed. -/
theorem Holds.asocTimeout (h : Holds [] a) (e : ExpireEnv) (hi : i ∈ a.asocList) :
    Holds [] (a.asocTimeout e i) ∧ ∀ j, j ≠ i → j ∈ a.asocList → j ∈ (a.asocTimeout e i).asocList := by
  have htry : ∃ age ps, a.keepAliveTry i = { a with age, ps } := by
    unfold MlmeAp.keepAliveTry
    dsimp only
    split_ifs <;> exact ⟨_, _, rfl⟩
  obtain ⟨age, ps, htry⟩ := htry
  have hb : Holds [] { a with age, ps } := h.age
  have hchange : ∃ age' ps', { a with age, ps }.keepAliveChange i = { a with age := age', ps := ps' } := by
    unfold MlmeAp.keepAliveChange
    split_ifs <;> exact ⟨_, _, rfl⟩
  obtain ⟨age', ps', hchange⟩ := hchange
  have hc : Holds [] { a with age := age', ps := ps' } := h.age
  unfold MlmeAp.asocTimeout
  rw [htry]
  dsimp only
  rw [hchange]
  unfold MlmeAp.asocExpire
  split
  · exact ⟨h.age, fun j _ hj => hj⟩
  split
  · exact ⟨h.age, fun j _ hj => hj⟩
  split
  · exact ⟨h.age, fun j _ hj => hj⟩
  · refine ⟨(hc.asocErase hi).apFree, fun j hj hin => ?_⟩
    rw [apFreeSta_asocList]
    exact (List.mem_erase_of_ne hj).2 hin

/-- A round of the loop over `asoc_list` leaves the other stations alone and divides by no zero. -/
theorem Holds.asocAge (h : Holds [] a) (e : ExpireEnv) (hi : i ∈ a.asocList) :
    Holds [] (a.asocAge e i).1 ∧ (∀ j, j ≠ i → j ∈ a.asocList → j ∈ (a.asocAge e i).1.asocList) ∧
      ∀ n ∈ (a.asocAge e i).2, n ≠ 0 := by
  have hchk : ∃ age ba, a.asocCheck e i = { a with age, ba } := by
    unfold MlmeAp.asocCheck
    dsimp only
    split_ifs <;> exact ⟨_, _, rfl⟩
  obtain ⟨age, ba, hchk⟩ := hchk
  have hb : Holds [] { a with age, ba } := h.age
  have hpos : a.asocListCnt ≠ 0 := by
    intro h0
    have hlen := h.counts.2
    rw [h0] at hlen
    have := List.length_pos_of_mem hi
    simp at hlen
    omega
  unfold MlmeAp.asocAge
  rw [hchk]
  dsimp only
  split
  · obtain ⟨hI, hkeep⟩ := hb.asocTimeout e hi
    exact ⟨hI, hkeep, fun n hn => nomatch hn⟩
  · split
    · refine ⟨hb.wakeup i, fun j _ hj => ?_, fun n hn => ?_⟩
      · rw [onlyPs_wakeup]
        exact hj
      · rw [← Option.mem_some_iff.1 hn]
        exact hpos
    · refine ⟨hb, fun j _ hj => hj, fun n hn => ?_⟩
      rw [← Option.mem_some_iff.1 hn]
      exact hpos

theorem Holds.asocAgeLoop (e : ExpireEnv) {l : List StaId} (hl : l.Nodup) (hmem : ∀ i ∈ l, i ∈ a.asocList)
    (h : Holds [] a) : Holds [] (asocAgeLoop e l a).1 ∧ ∀ n ∈ (asocAgeLoop e l a).2, n ≠ 0 := by
  induction l generalizing a with
  | nil => exact ⟨h, fun n hn => by cases hn⟩
  | cons i rest ih =>
    obtain ⟨hi, hrest⟩ := List.nodup_cons.1 hl
    obtain ⟨hI, hkeep, hdiv⟩ := h.asocAge e (hmem i (List.mem_cons_self ..))
    have hrestMem : ∀ j ∈ rest, j ∈ (a.asocAge e i).1.asocList := by
      intro j hj
      refine hkeep j ?_ (hmem j (List.mem_cons_of_mem _ hj))
      rintro rfl
      exact hi hj
    obtain ⟨hloop, hdivs⟩ := ih hrest hrestMem hI
    unfold MlmeAp.asocAgeLoop
    dsimp only
    refine ⟨hloop, fun n hn => ?_⟩
    rcases List.mem_append.1 hn with hn | hn
    · exact hdiv n (Option.mem_toList.1 hn)
    · exact hdivs n hn

theorem Holds.expireTimeoutChk (h : Holds [] a) (e : ExpireEnv) :
    Holds [] (a.expireTimeoutChk e).1 ∧ ∀ n ∈ (a.expireTimeoutChk e).2, n ≠ 0 := by
  have hauth : Holds [] (a.authList.foldl MlmeAp.authAge a) :=
    foldl_snapshot (I := Holds []) (L := fun a => a.authList) (fun b i hb hi => hb.authAge hi) h.lists.1
      (fun i hi => hi) h
  exact hauth.asocAgeLoop e hauth.lists.2.1 fun i hi => hi

theorem Holds.rtwStaFlush (h : Holds [] a) (apState : Bool) : Holds [] (a.rtwStaFlush apState) := by
  have hunlink : ∀ (l held : List StaId) (b : MlmeAp), Holds held b → l.Nodup → (∀ i ∈ l, i ∈ b.asocList) →
      Holds (l ++ held) (l.foldl (fun a i =>
        { a with asocList := a.asocList.erase i, asocListCnt := a.asocListCnt - 1 }) b) := by
    intro l
    induction l with
    | nil => exact fun held b hb _ _ => hb
    | cons i rest ih =>
      intro held b hb hl hmem
      obtain ⟨hi, hrest⟩ := List.nodup_cons.1 hl
      refine (ih (i :: held) _ (hb.asocErase (hmem i (List.mem_cons_self ..))) hrest fun j hj => ?_).perm
        List.perm_middle
      refine (List.mem_erase_of_ne ?_).2 (hmem j (List.mem_cons_of_mem _ hj))
      rintro rfl
      exact hi hj
  have hfree : ∀ (l : List StaId) (b : MlmeAp), Holds l b → Holds [] (l.foldl apFreeSta b) := by
    intro l
    induction l with
    | nil => exact fun b hb => hb
    | cons i rest ih => exact fun b hb => ih _ hb.apFree
  unfold MlmeAp.rtwStaFlush
  split
  · exact h
  · refine hfree _ _ ?_
    have hall := hunlink a.asocList [] a h h.lists.2.1 fun i hi => hi
    rwa [List.append_nil] at hall

/-! ### Runs -/

theorem Holds.listed (h : Holds [] a) : a.Listed := by
  obtain ⟨hu, hs, hdis⟩ := h.lists
  refine ⟨fun i hi hm => ?_, fun i hi => ?_, h.counts.1, h.counts.2, fun e => (h.expireTimeoutChk e).2⟩
  · rw [List.Nodup.count h.wf.lists, if_pos (List.mem_append.2 (h.peer i hi hm (by simp)))]
  · rw [← not_or, ← List.mem_append]
    exact fun hin => hi (h.wf.live i hin)

theorem Holds.next (h : Holds [] a) {e : MlmeEvent} (hok : a.ListStepOk w e) : Holds [] (a.next w e) := by
  cases e with
  | auth cfg t f => exact h.onAuth cfg hok
  | assocReq cfg t f => exact h.onAssocReq cfg
  | deAuth ownBss sa => exact h.onDeAuth ownBss sa
  | disassoc ownBss sa => exact h.onDeAuth ownBss sa
  | expire e => exact (h.expireTimeoutChk e).1
  | flush apState => exact h.rtwStaFlush apState
  | installKey i => exact h.congr h.wf.pool (.refl _) rfl rfl rfl rfl
  | other ps ba => exact h.age

/-- After a step that is not right, the lists are not. -/
theorem listStepOk_of_listed (h : Holds [] a) {e : MlmeEvent} (hn : (a.next w e).Listed) : a.ListStepOk w e := by
  cases e with
  | auth cfg t f =>
    intro i hg hcons hrej hs
    by_contra hl
    exact not_listed_onAuth h hg hcons hrej hs (by simpa using hl) hn
  | _ => trivial

theorem Holds.start (maxNumSta : Nat) : Holds [] (start maxNumSta) :=
  ⟨.start maxNumSta, List.nodup_nil, fun _ hi => absurd hi List.not_mem_nil,
    fun _ hi hm => absurd (StaPriv.start_isMcast hi) hm, rfl, rfl⟩

/-- The lists are right all along a run exactly if no authentication frame of a protected station of
`asoc_list` is refused in it. -/
theorem listed_run_iff (w : Bool) (maxNumSta : Nat) (evs : List MlmeEvent) :
    (∀ pre, pre <+: evs → (Machine.run (next w) (start maxNumSta) pre).Listed) ↔
      Machine.RunOk (next w) (ListStepOk w) (start maxNumSta) evs :=
  Machine.forall_prefix_iff_of_invariant (I := Holds []) (fun _ h => h.listed) (fun _ _ h hok => h.next hok)
    (fun _ _ h hn => listStepOk_of_listed h hn) (Holds.start maxNumSta) evs

theorem listed_run_false (maxNumSta : Nat) (evs : List MlmeEvent) :
    (Machine.run (next false) (start maxNumSta) evs).Listed := by
  have hok : ∀ (a : MlmeAp) (e : MlmeEvent), a.ListStepOk false e := by
    intro a e
    cases e with
    | auth cfg t f => exact fun i _ _ _ _ => rfl
    | _ => trivial
  exact (Machine.run_invariant (fun a e h => Holds.next h (hok a e)) (Holds.start maxNumSta) evs).listed

/-- A station authenticates, associates, and authenticates again with the sequence number `seq`. -/
def reauth (seq : UInt8) : List MlmeEvent :=
  [.auth StaPriv.openAp ⟨3, 3, 60⟩ ⟨StaPriv.staAddr 1, false, false, [0, 0, 1, 0, 0, 0]⟩,
    .assocReq { StaPriv.openAp with qosOption := true } ⟨3, 3, 60⟩ ⟨StaPriv.staAddr 1, false, false,
      [1, 0, 10, 0, 0, 2, 0x61, 0x70, 1, 1, 0x82]⟩,
    .auth StaPriv.openAp ⟨3, 3, 60⟩ ⟨StaPriv.staAddr 1, false, false, [0, 0, seq, 0, 0, 0]⟩]

/-- The sequence number 2 does not follow: the entry is freed and stays on `asoc_list`. -/
theorem not_listed_reauth : ¬ (Machine.run (next true) (start 32) (reauth 2)).Listed := by
  intro h
  have hfreed := (h.freed 1 (by decide +kernel)).2
  revert hfreed
  decide +kernel

end

end Rtw.MlmeAp
