import Rtw.Mlme.ApState

/-!
# What every handler keeps

Without any condition on the frames, no handler puts a station twice into the pool or into the two lists,
gives two stations one address or hands out an AID that another station has (`Ap.Wf`). The table `sta_aid`
may keep a slot that its station has lost, which `StaPriv.Inv` excludes and `StaPriv.Wf` does not.
-/

namespace Rtw

namespace StaPriv
variable {s t : StaPriv} {i j : StaId} {k : Fin numSta} {f : StaInfo → StaInfo} {addr : MacAddr}

structure Wf (s : StaPriv) : Prop where
  nodup : (s.staHash ++ s.freeStaQueue).Nodup
  uniq : ∀ i ∈ s.staHash, ∀ j ∈ s.staHash, (s.sta i).hwaddr = (s.sta j).hwaddr →
    ¬ (s.sta i).hwaddr.isMcast → i = j
  owned : ∀ i ∈ s.staHash, ∀ k : Fin numSta, (s.sta i).aid = k + 1 → s.staAid k = some i

/-- Two live stations share no AID that the table has a slot for. -/
theorem Wf.aid_inj (h : s.Wf) (hi : i ∈ s.staHash) (hj : j ∈ s.staHash) (he : (s.sta i).aid = (s.sta j).aid)
    (h1 : 1 ≤ (s.sta i).aid) (h32 : (s.sta i).aid ≤ numSta) : i = j := by
  have hlt : (s.sta i).aid - 1 < numSta := by omega
  have hsi := h.owned i hi ⟨_, hlt⟩ (by dsimp only; omega)
  have hsj := h.owned j hj ⟨_, hlt⟩ (by dsimp only; omega)
  exact Option.some_inj.1 (hsi.symm.trans hsj)

/-- A live station with an individual address is found by it. -/
theorem Wf.rtwGetStainfo_self (h : s.Wf) (hi : i ∈ s.staHash) (hm : ¬ (s.sta i).hwaddr.isMcast) :
    rtwGetStainfo s (s.sta i).hwaddr = some i := by
  have haddr : (if (s.sta i).hwaddr.isMcast then bcAddr else (s.sta i).hwaddr) = (s.sta i).hwaddr := if_neg hm
  unfold rtwGetStainfo
  dsimp only
  rw [haddr]
  cases hf : s.staHash.find? fun j => (s.sta j).hwaddr = (s.sta i).hwaddr with
  | none =>
    have hno := List.find?_eq_none.1 hf i hi
    simp at hno
  | some j =>
    have hj := List.mem_of_find?_eq_some hf
    have he : (s.sta j).hwaddr = (s.sta i).hwaddr := by simpa using List.find?_some hf
    rw [h.uniq i hi j hj he.symm hm]

theorem Wf.modify (h : s.Wf) (hw : (f (s.sta i)).hwaddr = (s.sta i).hwaddr)
    (ha : (f (s.sta i)).aid = (s.sta i).aid ∨ (f (s.sta i)).aid = 0) : (s.modify i f).Wf := by
  have hwaddr := (SameEntries.modify (s := s) (i := i) hw).hwaddr
  refine ⟨h.nodup, fun j hj l hl he hm => ?_, fun j hj k hk => ?_⟩
  · rw [hwaddr, hwaddr] at he
    rw [hwaddr] at hm
    exact h.uniq j hj l hl he hm
  · rcases eq_or_ne j i with rfl | hne
    · rw [modify_sta_self] at hk
      rcases ha with ha | ha
      · exact h.owned j hj k (ha ▸ hk)
      · omega
    · rw [modify_sta_of_ne hne] at hk
      exact h.owned j hj k hk

theorem Wf.alloc (h : s.Wf) (ha : rtwAllocStainfo s addr = some (t, i)) (hn : rtwGetStainfo s addr = none) :
    t.Wf := by
  obtain ⟨hnd, hni⟩ := nodup_alloc h.nodup ha
  obtain ⟨-, ht⟩ := rtwAllocStainfo_eq_some ha
  have hold : ∀ j ∈ s.staHash, j ≠ i := fun j hj he => hni (he ▸ hj)
  have hfree : ¬ addr.isMcast → ∀ j ∈ s.staHash, (s.sta j).hwaddr ≠ addr := by
    intro hm j hj
    have hno := List.find?_eq_none.1 hn j hj
    rw [if_neg hm] at hno
    simpa using hno
  have hmem : ∀ j, j ∈ t.staHash ↔ j ∈ s.staHash ∨ j = i := by
    intro j
    rw [ht]
    simp
  have hself : t.sta i = { rtwInitStainfo with hwaddr := addr } := by
    rw [ht]
    exact Function.update_self ..
  have hother : ∀ j ∈ s.staHash, t.sta j = s.sta j := by
    intro j hj
    rw [ht]
    exact Function.update_of_ne (hold j hj) _ _
  refine ⟨hnd, fun j hj l hl he hm => ?_, fun j hj k hk => ?_⟩
  · rcases (hmem j).1 hj with hj | rfl <;> rcases (hmem l).1 hl with hl | rfl
    · rw [hother j hj, hother l hl] at he
      rw [hother j hj] at hm
      exact h.uniq j hj l hl he hm
    · rw [hself, hother j hj] at he
      rw [hother j hj, he] at hm
      exact absurd he (hfree hm j hj)
    · rw [hself, hother l hl] at he
      rw [hself] at hm
      exact absurd he.symm (hfree hm l hl)
    · rfl
  · rcases (hmem j).1 hj with hj | rfl
    · rw [hother j hj] at hk
      rw [ht]
      exact h.owned j hj k hk
    · rw [hself] at hk
      simp [rtwInitStainfo] at hk

theorem rtwFreeStainfo_sta_of_ne (hj : j ≠ i) : (rtwFreeStainfo s i).sta j = s.sta j := by
  unfold rtwFreeStainfo
  dsimp only
  split
  · split
    · simp [modify, hj]
    · rfl
  · rfl

theorem rtwFreeStainfo_staAid (hj : j ≠ i) (hk : s.staAid k = some j) :
    (rtwFreeStainfo s i).staAid k = some j := by
  unfold rtwFreeStainfo
  dsimp only
  split
  · rename_i l hl
    split
    · rename_i hs
      have hne : k ≠ l := by
        rintro rfl
        exact hj (Option.some_inj.1 (hk.symm.trans hs))
      dsimp only
      rw [Function.update_of_ne hne]
      exact hk
    · exact hk
  · exact hk

theorem Wf.mem_free (h : s.Wf) : j ∈ (rtwFreeStainfo s i).staHash ↔ j ≠ i ∧ j ∈ s.staHash := by
  rw [rtwFreeStainfo_lists.1]
  exact (List.nodup_append.1 h.nodup).1.mem_erase_iff

theorem Wf.free (h : s.Wf) (hi : i ∈ s.staHash) : (rtwFreeStainfo s i).Wf := by
  refine ⟨nodup_free h.nodup hi, fun j hj l hl he hm => ?_, fun j hj k hk => ?_⟩
  · rw [rtwFreeStainfo_hwaddr, rtwFreeStainfo_hwaddr] at he
    rw [rtwFreeStainfo_hwaddr] at hm
    exact h.uniq j (h.mem_free.1 hj).2 l (h.mem_free.1 hl).2 he hm
  · obtain ⟨hne, hl⟩ := h.mem_free.1 hj
    rw [rtwFreeStainfo_sta_of_ne hne] at hk
    exact rtwFreeStainfo_staAid hne (h.owned j hl k hk)

/-- A station without an AID gets one that no live station has, or one behind the table. -/
theorem Wf.getUniqueAid (h : s.Wf) (hg : getUniqueAid s i = some t) :
    t.Wf ∧ (∀ j, j ≠ i → t.sta j = s.sta j) ∧
      ((t.sta i).aid = (s.sta i).aid ∧ 1 ≤ (s.sta i).aid ∨
        (s.sta i).aid = 0 ∧ 1 ≤ (t.sta i).aid ∧ ∀ j ∈ s.staHash, (t.sta i).aid ≤ numSta →
          (s.sta j).aid ≠ (t.sta i).aid) := by
  have hwaddr := (getUniqueAid_entries hg).hwaddr
  rcases getUniqueAid_cases hg with ⟨hpos, rfl⟩ | ⟨h0, ⟨k, hfree, -, rfl⟩ | ⟨-, rfl⟩⟩
  · exact ⟨h, fun _ _ => rfl, .inl ⟨rfl, hpos⟩⟩
  · have hnone : ∀ j ∈ s.staHash, (s.sta j).aid ≠ k + 1 := by
      intro j hj he
      rw [h.owned j hj k he] at hfree
      cases hfree
    refine ⟨⟨h.nodup, fun j hj l hl he hm => ?_, fun j hj l hl => ?_⟩, fun j hj => ?_, .inr ⟨h0, ?_⟩⟩
    · rw [hwaddr, hwaddr] at he
      rw [hwaddr] at hm
      exact h.uniq j hj l hl he hm
    · dsimp only at hl ⊢
      rcases eq_or_ne j i with rfl | hne
      · rw [modify_sta_self] at hl
        have : l = k := Fin.ext (by dsimp only at hl; omega)
        rw [this, Function.update_self]
      · rw [modify_sta_of_ne hne] at hl
        have : l ≠ k := by
          rintro rfl
          exact hnone j hj hl
        rw [Function.update_of_ne this]
        exact h.owned j hj l hl
    · dsimp only
      rw [modify_sta_of_ne hj]
    · rw [modify_sta_self]
      exact ⟨by dsimp only; omega, fun j hj _ => hnone j hj⟩
  · refine ⟨⟨h.nodup, fun j hj l hl he hm => ?_, fun j hj k hk => ?_⟩, fun j hj => modify_sta_of_ne hj, .inr ⟨h0, ?_⟩⟩
    · rw [hwaddr, hwaddr] at he
      rw [hwaddr] at hm
      exact h.uniq j hj l hl he hm
    · rcases eq_or_ne j i with rfl | hne
      · rw [modify_sta_self] at hk
        have := k.isLt
        dsimp only at hk
        omega
      · rw [modify_sta_of_ne hne] at hk
        exact h.owned j hj k hk
    · rw [modify_sta_self]
      exact ⟨by dsimp only; omega, fun j _ hle => absurd hle (by dsimp only; omega)⟩

theorem Wf.onAssocReq (h : s.Wf) (cfg : ApCfg) (f : MgmtFrame) : (onAssocReq cfg f s).1.Wf := by
  rcases onAssocReq_cases cfg f s with he | ⟨i, st, t, -, -, rfl, ⟨-, he⟩ | ⟨u, hu, he⟩⟩
  · rw [he]
    exact h
  · rw [he]
    exact (h.modify rfl (.inl rfl)).modify rfl (.inr rfl)
  · rw [he]
    exact ((h.modify rfl (.inl rfl)).getUniqueAid hu).1.modify rfl (.inl rfl)

theorem Wf.init (maxNumSta : Nat) : (init maxNumSta).Wf where
  nodup := List.nodup_finRange numSta
  uniq i hi := absurd hi (by simp [StaPriv.init])
  owned i hi := absurd hi (by simp [StaPriv.init])

theorem Wf.start (maxNumSta : Nat) : (start maxNumSta).Wf := by
  unfold StaPriv.start
  cases ha : rtwAllocStainfo (StaPriv.init maxNumSta) bcAddr with
  | none => exact Wf.init maxNumSta
  | some r => exact (Wf.init maxNumSta).alloc (t := r.1) (i := r.2) ha rfl

/-- At the start the only station is the one for group frames. -/
theorem start_isMcast {maxNumSta : Nat} (hi : i ∈ (start maxNumSta).staHash) :
    ((start maxNumSta).sta i).hwaddr.isMcast := by
  unfold StaPriv.start at hi ⊢
  cases ha : rtwAllocStainfo (StaPriv.init maxNumSta) bcAddr with
  | none =>
    rw [ha] at hi
    exact absurd hi List.not_mem_nil
  | some r =>
    obtain ⟨-, ht⟩ := rtwAllocStainfo_eq_some (t := r.1) (i := r.2) ha
    rw [ha] at hi
    simp only [Option.map_some, Option.getD_some] at hi ⊢
    rw [ht] at hi ⊢
    obtain rfl : i = r.2 := by simpa [StaPriv.init] using hi
    dsimp only
    rw [Function.update_self]
    decide

end StaPriv

namespace Ap
variable {a b : Ap} {i : StaId} {f : MgmtFrame} {addr : MacAddr}

/-- The stations are well formed, and the two lists hold live stations, each once. -/
structure Wf (a : Ap) : Prop where
  pool : a.pool.Wf
  lists : (a.authList ++ a.asocList).Nodup
  live : ∀ i ∈ a.authList ++ a.asocList, i ∈ a.pool.staHash

theorem Wf.congr (h : a.Wf) (hp : b.pool = a.pool) (hu : b.authList = a.authList) (hs : b.asocList = a.asocList) :
    b.Wf := by
  refine ⟨by rw [hp]; exact h.pool, by rw [hu, hs]; exact h.lists, ?_⟩
  rw [hu, hs, hp]
  exact h.live

theorem Wf.counts_only (h : a.Wf) (hb : OnlyCounts a b) : b.Wf := by
  rw [hb]
  exact h.congr rfl rfl rfl

/-- The station that an authentication frame is from is live, on `auth_list`, and not on `asoc_list`. -/
theorem Wf.found (h : a.Wf) (hf : Found f a b i) :
    b.Wf ∧ i ∈ b.pool.staHash ∧ i ∈ b.authList ∧ i ∉ b.asocList := by
  have hlist : ∀ c : Ap, c.pool.Wf → (c.authList ++ c.asocList).Nodup → i ∉ c.asocList → i ∈ c.pool.staHash →
      (∀ j ∈ c.authList ++ c.asocList, j ∈ c.pool.staHash) →
      Wf { c with authList := if i ∈ c.authList then c.authList else c.authList ++ [i] } ∧
        i ∈ (if i ∈ c.authList then c.authList else c.authList ++ [i]) := by
    intro c hpool hnd hni hi hlive
    split
    · rename_i hin
      exact ⟨⟨hpool, hnd, hlive⟩, hin⟩
    · rename_i hin
      refine ⟨⟨hpool, ?_, fun j hj => ?_⟩, by simp⟩
      · dsimp only
        rw [List.append_assoc, List.singleton_append, List.nodup_middle, List.nodup_cons]
        exact ⟨by simp [hin, hni], hnd⟩
      · have hmem : j ∈ c.authList ++ c.asocList ∨ j = i := by
          simp only [List.mem_append, List.mem_singleton] at hj ⊢
          tauto
        rcases hmem with hj | rfl
        · exact hlive j hj
        · exact hi
  obtain ⟨c, ⟨hi, rfl⟩ | ⟨hn, d, hd, rfl⟩, rfl⟩ := hf
  · obtain ⟨hu, hs, hdis⟩ := List.nodup_append.1 h.lists
    have hlive : ∀ j ∈ a.authList ++ a.asocList.erase i, j ∈ a.pool.staHash := by
      intro j hj
      refine h.live j (List.mem_append.2 ?_)
      rcases List.mem_append.1 hj with hj | hj
      · exact .inl hj
      · exact .inr (List.mem_of_mem_erase hj)
    have hnd : (a.authList ++ a.asocList.erase i).Nodup :=
      List.nodup_append.2 ⟨hu, hs.erase i, fun x hx y hy => hdis x hx y (List.mem_of_mem_erase hy)⟩
    have hni : i ∉ a.asocList.erase i := hs.not_mem_erase
    have hall := hlist { a with asocList := a.asocList.erase i } h.pool hnd hni (rtwGetStainfo_mem hi) hlive
    exact ⟨hall.1, rtwGetStainfo_mem hi, hall.2, hni⟩
  · obtain ⟨pool, hpool, rfl⟩ := rtwAllocStainfo_eq_some hd
    obtain ⟨-, hnew⟩ := StaPriv.nodup_alloc h.pool.nodup hpool
    obtain ⟨-, ht⟩ := Rtw.rtwAllocStainfo_eq_some hpool
    have hwf := h.pool.alloc hpool hn
    have hmem : ∀ j, j ∈ pool.staHash ↔ j ∈ a.pool.staHash ∨ j = i := by
      intro j
      rw [ht]
      simp
    have hni : i ∉ a.asocList := fun hi => hnew (h.live i (List.mem_append_right _ hi))
    have hself : i ∈ pool.staHash := (hmem i).2 (.inr rfl)
    have hmod : (pool.modify i fun p => { p with state := { authNull := true }, authSeq := 0 }).Wf :=
      hwf.modify rfl (.inl rfl)
    have hall := hlist { a with
      pool := pool.modify i fun p => { p with state := { authNull := true }, authSeq := 0 }
      cap := Function.update a.cap i {}
      capSet := Function.update a.capSet i fun _ => false
      ps := Function.update a.ps i {} } hmod h.lists hni hself
        fun j hj => (hmem j).2 (.inl (h.live j hj))
    exact ⟨hall.1, hself, hall.2, hni⟩

theorem Wf.free (h : a.Wf) (hi : i ∈ a.pool.staHash) (hni : i ∉ a.asocList) : (a.rtwFreeStainfo i).Wf := by
  obtain ⟨hu, hs, hdis⟩ := List.nodup_append.1 h.lists
  refine ⟨h.pool.free hi, ?_, fun j hj => ?_⟩
  · exact List.nodup_append.2 ⟨hu.erase i, hs, fun x hx => hdis x (List.mem_of_mem_erase hx)⟩
  · refine h.pool.mem_free.2 ?_
    rcases List.mem_append.1 hj with hj | hj
    · obtain ⟨hne, hj⟩ := hu.mem_erase_iff.1 hj
      exact ⟨hne, h.live j (List.mem_append_left _ hj)⟩
    · refine ⟨fun he => hni (he ▸ hj), h.live j (List.mem_append_right _ hj)⟩

theorem Wf.onAuth (h : a.Wf) (cfg : ApCfg) (f : MgmtFrame) : (a.onAuth cfg f).Wf := by
  rcases onAuth_cases cfg f a with he | ⟨b, i, hfound, -, ⟨e, -, he⟩ | ⟨p, hp, he⟩⟩
  · rw [he]
    exact h
  · obtain ⟨hb, hi, -, hni⟩ := h.found hfound
    rw [he]
    exact hb.free hi hni
  · obtain ⟨hb, -, -, -⟩ := h.found hfound
    have hmod : (b.pool.modify i fun _ => p).Wf :=
      hb.pool.modify (authStep_hwaddr hp) (.inl (authStep_ok hp).1)
    rw [he]
    exact ⟨hmod, hb.lists, hb.live⟩

theorem Wf.toAsocList (h : a.Wf) (hi : i ∈ a.pool.staHash) : (a.toAsocList i).Wf := by
  obtain ⟨hu, hs, hdis⟩ := List.nodup_append.1 h.lists
  have hmem : ∀ j, j ∈ (a.toAsocList i).asocList ↔ j ∈ a.asocList ∨ j = i := by
    intro j
    unfold Ap.toAsocList
    dsimp only
    split
    · rename_i hin
      exact ⟨.inl, fun hj => hj.elim id fun he => he ▸ hin⟩
    · simp
  refine ⟨h.pool, ?_, fun j hj => ?_⟩
  · refine List.nodup_append.2 ⟨hu.erase i, ?_, fun x hx y hy => ?_⟩
    · unfold Ap.toAsocList
      dsimp only
      split
      · exact hs
      · rename_i hin
        exact List.nodup_append.2 ⟨hs, by simp, fun x hx y hy => by
          rw [List.mem_singleton.1 hy]
          exact fun he => hin (he ▸ hx)⟩
    · obtain ⟨hxi, hx⟩ := hu.mem_erase_iff.1 hx
      rcases (hmem y).1 hy with hy | rfl
      · exact hdis x hx y hy
      · exact hxi
  · rcases List.mem_append.1 hj with hj | hj
    · exact h.live j (List.mem_append_left _ (List.mem_of_mem_erase hj))
    · rcases (hmem j).1 hj with hj | rfl
      · exact h.live j (List.mem_append_right _ hj)
      · exact hi

theorem Wf.onAssocReq (h : a.Wf) (cfg : BssCfg) (f : MgmtFrame) : (a.onAssocReq cfg f).Wf := by
  unfold Ap.onAssocReq
  split
  · exact h
  rename_i i hi
  have hhash := (onAssocReq_entries cfg.toApCfg f a.pool).staHash
  have h1 : Wf { a with
      pool := (Rtw.onAssocReq cfg.toApCfg f a.pool).1
      cap := Function.update a.cap i (assocReqCap cfg f (a.cap i)) } :=
    ⟨h.pool.onAssocReq cfg.toApCfg f, h.lists, fun j hj => by rw [hhash]; exact h.live j hj⟩
  dsimp only
  split
  · have hmem : i ∈ (Rtw.onAssocReq cfg.toApCfg f a.pool).1.staHash := by
      rw [hhash]
      exact rtwGetStainfo_mem (onAssocReq_of_sta hi).1
    exact ((h1.toAsocList hmem).counts_only (onlyCounts_join _ i)).congr rfl rfl rfl
  · exact h1

theorem Wf.asocExpire (h : a.Wf) (i : StaId) : (a.asocExpire i).Wf := by
  unfold Ap.asocExpire
  split
  · rename_i hi
    obtain ⟨hu, hs, hdis⟩ := List.nodup_append.1 h.lists
    have h1 : Wf { a with
        asocList := a.asocList.erase i, ps := Function.update a.ps i { a.ps i with linked := false } } := by
      refine ⟨h.pool, ?_, fun j hj => ?_⟩
      · exact List.nodup_append.2 ⟨hu, hs.erase i, fun x hx y hy => hdis x hx y (List.mem_of_mem_erase hy)⟩
      · refine h.live j (List.mem_append.2 ?_)
        rcases List.mem_append.1 hj with hj | hj
        · exact .inl hj
        · exact .inr (List.mem_of_mem_erase hj)
    have hleave := onlyCounts_leave { a with
      asocList := a.asocList.erase i, ps := Function.update a.ps i { a.ps i with linked := false } } i
    have hpool := congrArg Ap.pool hleave
    have hasoc := congrArg Ap.asocList hleave
    refine (h1.counts_only hleave).free ?_ ?_
    · rw [hpool]
      exact h.live i (List.mem_append_right _ hi)
    · rw [hasoc]
      exact hs.not_mem_erase
  · exact h

theorem Wf.authExpire (h : a.Wf) (i : StaId) : (a.authExpire i).Wf := by
  unfold Ap.authExpire
  split
  · rename_i hi
    obtain ⟨hu, hs, hdis⟩ := List.nodup_append.1 h.lists
    have h1 : Wf { a with authList := a.authList.erase i } := by
      refine ⟨h.pool, ?_, fun j hj => ?_⟩
      · exact List.nodup_append.2 ⟨hu.erase i, hs, fun x hx => hdis x (List.mem_of_mem_erase hx)⟩
      · refine h.live j (List.mem_append.2 ?_)
        rcases List.mem_append.1 hj with hj | hj
        · exact .inl (List.mem_of_mem_erase hj)
        · exact .inr hj
    refine h1.free (h.live i (List.mem_append_left _ hi)) ?_
    exact fun hin => hdis i hi i hin rfl
  · exact h

theorem Wf.onDeAuth (h : a.Wf) (sa : MacAddr) : (a.onDeAuth sa).Wf := by
  unfold Ap.onDeAuth
  split
  · exact h
  · exact h.asocExpire _

theorem Wf.start (maxNumSta : Nat) : (start maxNumSta).Wf :=
  ⟨StaPriv.Wf.start maxNumSta, List.nodup_nil, fun i hi => absurd hi (by simp [Ap.start])⟩

end Ap

end Rtw
