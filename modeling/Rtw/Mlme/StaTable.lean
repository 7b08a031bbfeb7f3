import Mathlib.Data.Fintype.Card
import Mathlib.Data.Finset.Card
import Rtw.Lib.Run
import Rtw.Mlme.StaMgt

/-!
# The hash table of the stations

The free queue and the buckets of `struct sta_priv`, and the functions of `rtw_sta_mgt.c` on them.
`StaRun.tableOk_run`: every entry is in one place, and a lookup finds who has been allocated and not
freed. `StaTable.Flat`: the table behaves as `StaPriv` does, where the buckets are one list.
-/

namespace Rtw

def wifiMacHash (mac : MacAddr) : Nat :=
  let x := mac.toList.foldl (fun x b => (x <<< 2) ^^^ b.toNat) 0
  (x ^^^ x >>> 8) &&& (numSta - 1)

theorem wifiMacHash_lt (mac : MacAddr) : wifiMacHash mac < numSta :=
  Nat.lt_of_le_of_lt Nat.and_le_right (by decide)

/-- The bucket of an address. -/
def staBucket (mac : MacAddr) : Fin numSta := ⟨wifiMacHash mac, wifiMacHash_lt mac⟩

/-- The lists of `struct sta_priv`. The index check of `rtw_alloc_stainfo` never fails
(`wifiMacHash_lt`). -/
structure StaTable where
  hwaddr : StaId → MacAddr
  freeStaQueue : List StaId
  staHash : Fin numSta → List StaId
  asocStaCount : Int

namespace StaTable

/-- `_rtw_init_sta_priv` -/
def init : StaTable where
  hwaddr _ := .replicate 6 0
  freeStaQueue := List.finRange numSta
  staHash _ := []
  asocStaCount := 0

def rtwAllocStainfo (s : StaTable) (hwaddr : MacAddr) : Option (StaTable × StaId) :=
  match s.freeStaQueue with
  | [] => none
  | i :: free =>
    let k := staBucket hwaddr
    some ({
      hwaddr := Function.update s.hwaddr i hwaddr
      freeStaQueue := free
      staHash := Function.update s.staHash k (s.staHash k ++ [i])
      asocStaCount := s.asocStaCount + 1 }, i)

/-- `rtw_list_delete(&psta->hash_list)` -/
def hashDelete (s : StaTable) (i : StaId) : StaTable := { s with staHash k := (s.staHash k).erase i }

def rtwFreeStainfo (s : StaTable) (i : StaId) : StaTable :=
  { s.hashDelete i with asocStaCount := s.asocStaCount - 1, freeStaQueue := s.freeStaQueue ++ [i] }

def rtwGetStainfo (s : StaTable) (hwaddr : MacAddr) : Option StaId :=
  let addr := if hwaddr.isMcast then bcAddr else hwaddr
  (s.staHash (staBucket addr)).find? fun i => s.hwaddr i = addr

def rtwGetBcmcStainfo (s : StaTable) : Option StaId := s.rtwGetStainfo bcAddr

/-- `free_sta_list`: the stations that `rtw_free_all_stainfo` collects. -/
def freeStaList (s : StaTable) : List StaId :=
  if s.asocStaCount = 1 then []
  else (List.finRange numSta).flatMap fun k => (s.staHash k).filter fun i => s.rtwGetBcmcStainfo ≠ some i

/-- `rtw_free_all_stainfo`: the stations leave their buckets, and then each is freed. -/
def rtwFreeAllStainfo (s : StaTable) : StaTable :=
  s.freeStaList.foldl rtwFreeStainfo (s.freeStaList.foldl hashDelete s)

/-- The entry is in a bucket. -/
def InHash (s : StaTable) (i : StaId) : Prop := ∃ k, i ∈ s.staHash k

instance (s : StaTable) (i : StaId) : Decidable (s.InHash i) := inferInstanceAs (Decidable (∃ _, _))

/-- The entries in the buckets. -/
def stations (s : StaTable) : Finset StaId := Finset.univ.filter s.InHash

/-- What the functions keep up. -/
structure Inv (s : StaTable) : Prop where
  nodupFree : s.freeStaQueue.Nodup
  nodupHash : ∀ k, (s.staHash k).Nodup
  place : ∀ i, i ∈ s.freeStaQueue ∧ (∀ k, i ∉ s.staHash k) ∨
    i ∉ s.freeStaQueue ∧ ∀ k, i ∈ s.staHash k ↔ k = staBucket (s.hwaddr i)
  count : s.asocStaCount = s.stations.card
  distinct : ∀ i j, s.InHash i → s.InHash j → s.hwaddr i = s.hwaddr j → i = j

theorem inv_init : init.Inv where
  nodupFree := List.nodup_finRange _
  nodupHash _ := List.nodup_nil
  place i := .inl ⟨List.mem_finRange i, fun _ => List.not_mem_nil⟩
  count := by
    have hempty : init.stations = ∅ := Finset.filter_false_of_mem fun i _ => by
      rintro ⟨k, hk⟩
      cases hk
    rw [hempty]
    rfl
  distinct := by
    rintro i j ⟨k, hk⟩
    cases hk

namespace Inv
variable {s t : StaTable} {i j : StaId} {k : Fin numSta} {addr : MacAddr} {l : List StaId}

theorem mem_staHash (h : s.Inv) : i ∈ s.staHash k ↔ s.InHash i ∧ k = staBucket (s.hwaddr i) := by
  rcases h.place i with ⟨-, hno⟩ | ⟨-, hk⟩
  · exact iff_of_false (hno k) fun hi => hi.1.elim hno
  · rw [hk]
    exact ⟨fun he => ⟨⟨k, (hk k).2 he⟩, he⟩, And.right⟩

theorem not_mem_free (h : s.Inv) (hi : s.InHash i) : i ∉ s.freeStaQueue := by
  rcases h.place i with ⟨-, hno⟩ | ⟨hf, -⟩
  · exact absurd hi.choose_spec (hno _)
  · exact hf

theorem not_inHash (h : s.Inv) (hi : i ∈ s.freeStaQueue) : ¬ s.InHash i := fun hin => h.not_mem_free hin hi

/-- A bucket is searched for an address: the entry that has it is found. -/
theorem find?_eq_some (h : s.Inv) :
    (s.staHash (staBucket addr)).find? (fun i => s.hwaddr i = addr) = some i ↔ s.InHash i ∧ s.hwaddr i = addr := by
  constructor
  · intro hf
    exact ⟨⟨_, List.mem_of_find?_eq_some hf⟩, by simpa using List.find?_some hf⟩
  · rintro ⟨hi, rfl⟩
    have hmem : i ∈ s.staHash (staBucket (s.hwaddr i)) := h.mem_staHash.2 ⟨hi, rfl⟩
    cases hf : (s.staHash (staBucket (s.hwaddr i))).find? fun j => s.hwaddr j = s.hwaddr i with
    | none => simpa using List.find?_eq_none.1 hf i hmem
    | some j => rw [h.distinct j i ⟨_, List.mem_of_find?_eq_some hf⟩ hi (by simpa using List.find?_some hf)]

theorem rtwGetStainfo_eq_some (h : s.Inv) (huni : addr.isMcast = false) :
    s.rtwGetStainfo addr = some i ↔ s.InHash i ∧ s.hwaddr i = addr := by
  unfold rtwGetStainfo
  rw [huni]
  exact h.find?_eq_some

/-- An entry of the free queue comes into its bucket. -/
theorem alloc (h : s.Inv) (hnew : ¬ ∃ i, s.InHash i ∧ s.hwaddr i = addr)
    (ha : s.rtwAllocStainfo addr = some (t, i)) :
    t.Inv ∧ t.hwaddr = Function.update s.hwaddr i addr ∧ ¬ s.InHash i ∧
      ∀ j, t.InHash j ↔ j = i ∨ s.InHash j := by
  unfold rtwAllocStainfo at ha
  split at ha
  · cases ha
  rename_i i' free hfree
  obtain ⟨rfl, rfl⟩ := Prod.mk.inj (Option.some.inj ha)
  have hif : i' ∈ s.freeStaQueue := by
    rw [hfree]
    exact List.mem_cons_self
  have hi : ¬ s.InHash i' := h.not_inHash hif
  have hnd : i' ∉ free ∧ free.Nodup := by
    have hn := h.nodupFree
    rw [hfree] at hn
    exact List.nodup_cons.1 hn
  set t : StaTable := {
    hwaddr := Function.update s.hwaddr i' addr
    freeStaQueue := free
    staHash := Function.update s.staHash (staBucket addr) (s.staHash (staBucket addr) ++ [i'])
    asocStaCount := s.asocStaCount + 1 } with ht
  have hmem : ∀ j k, j ∈ t.staHash k ↔ j ∈ s.staHash k ∨ j = i' ∧ k = staBucket addr := by
    intro j k
    by_cases hk : k = staBucket addr
    · subst hk
      rw [show t.staHash (staBucket addr) = s.staHash (staBucket addr) ++ [i'] from Function.update_self ..]
      simp
    · rw [show t.staHash k = s.staHash k from Function.update_of_ne hk ..]
      simp [hk]
  have hin : ∀ j, t.InHash j ↔ j = i' ∨ s.InHash j := by
    intro j
    unfold InHash
    constructor
    · rintro ⟨k, hk⟩
      rcases (hmem j k).1 hk with hk | ⟨rfl, -⟩
      · exact .inr ⟨k, hk⟩
      · exact .inl rfl
    · rintro (rfl | ⟨k, hk⟩)
      · exact ⟨_, (hmem _ _).2 (.inr ⟨rfl, rfl⟩)⟩
      · exact ⟨k, (hmem j k).2 (.inl hk)⟩
  have hself : t.hwaddr i' = addr := Function.update_self ..
  have hother : ∀ j, j ≠ i' → t.hwaddr j = s.hwaddr j := fun j hj => Function.update_of_ne hj ..
  refine ⟨⟨hnd.2, fun k => ?_, fun j => ?_, ?_, fun j k hj hk he => ?_⟩, rfl, hi, hin⟩
  · by_cases hk : k = staBucket addr
    · subst hk
      rw [show t.staHash (staBucket addr) = s.staHash (staBucket addr) ++ [i'] from Function.update_self ..]
      refine List.nodup_append.2 ⟨h.nodupHash _, List.nodup_singleton _, fun x hx y hy hxy => hi ⟨staBucket addr, ?_⟩⟩
      rw [List.mem_singleton.1 hy] at hxy
      rwa [← hxy]
    · rw [show t.staHash k = s.staHash k from Function.update_of_ne hk ..]
      exact h.nodupHash k
  · by_cases hj : j = i'
    · subst hj
      refine .inr ⟨hnd.1, fun k => ?_⟩
      rw [hmem, hself]
      exact ⟨fun hk => hk.elim (fun hk => absurd ⟨k, hk⟩ hi) And.right, fun hk => .inr ⟨rfl, hk⟩⟩
    · have hq : j ∈ s.freeStaQueue ↔ j ∈ free := by
        rw [hfree]
        simp [hj]
      have hb : ∀ k, j ∈ t.staHash k ↔ j ∈ s.staHash k := fun k => by
        rw [hmem]
        simp [hj]
      rw [hother j hj]
      simp only [show t.freeStaQueue = free from rfl, hb, ← hq]
      exact h.place j
  · have hset : t.stations = insert i' s.stations := by
      ext j
      simp [stations, hin]
    have hni : i' ∉ s.stations := by simpa [stations] using hi
    rw [hset, Finset.card_insert_of_notMem hni, show t.asocStaCount = s.asocStaCount + 1 from rfl, h.count]
    rfl
  · rcases (hin j).1 hj with rfl | hj' <;> rcases (hin k).1 hk with rfl | hk'
    · rfl
    · have hki : k ≠ j := by
        rintro rfl
        exact hi hk'
      rw [hself, hother k hki] at he
      exact absurd ⟨k, hk', he.symm⟩ hnew
    · have hji : j ≠ k := by
        rintro rfl
        exact hi hj'
      rw [hself, hother j hji] at he
      exact absurd ⟨j, hj', he⟩ hnew
    · have hji : j ≠ i' := by
        rintro rfl
        exact hi hj'
      have hki : k ≠ i' := by
        rintro rfl
        exact hi hk'
      rw [hother j hji, hother k hki] at he
      exact h.distinct j k hj' hk' he

theorem remove (h : s.Inv) (hl : l.Nodup) (hin : ∀ i ∈ l, s.InHash i) (hw : t.hwaddr = s.hwaddr)
    (hfree : t.freeStaQueue = s.freeStaQueue ++ l) (hnd : ∀ k, (t.staHash k).Nodup)
    (hmem : ∀ k i, i ∈ t.staHash k ↔ i ∈ s.staHash k ∧ i ∉ l) (hcount : t.asocStaCount = s.asocStaCount - l.length) :
    t.Inv ∧ ∀ i, t.InHash i ↔ s.InHash i ∧ i ∉ l := by
  have hint : ∀ i, t.InHash i ↔ s.InHash i ∧ i ∉ l := by
    intro i
    constructor
    · rintro ⟨k, hk⟩
      obtain ⟨hk, hi⟩ := (hmem k i).1 hk
      exact ⟨⟨k, hk⟩, hi⟩
    · rintro ⟨⟨k, hk⟩, hi⟩
      exact ⟨k, (hmem k i).2 ⟨hk, hi⟩⟩
  refine ⟨⟨?_, hnd, fun i => ?_, ?_, fun i j hi hj he => ?_⟩, hint⟩
  · rw [hfree]
    refine List.nodup_append.2 ⟨h.nodupFree, hl, fun x hx y hy hxy => ?_⟩
    exact h.not_mem_free (hin y hy) (hxy ▸ hx)
  · by_cases hi : i ∈ l
    · refine .inl ⟨by simp [hfree, hi], fun k hk => ((hmem k i).1 hk).2 hi⟩
    · have hq : i ∈ t.freeStaQueue ↔ i ∈ s.freeStaQueue := by simp [hfree, hi]
      have hb : ∀ k, i ∈ t.staHash k ↔ i ∈ s.staHash k := fun k => by
        rw [hmem]
        simp [hi]
      rw [hq, hw]
      simp only [hb]
      exact h.place i
  · have hset : t.stations = s.stations \ l.toFinset := by
      ext i
      simp [stations, hint]
    have hsub : l.toFinset ⊆ s.stations := by
      intro i hi
      simpa [stations] using hin i (List.mem_toFinset.1 hi)
    have hle := Finset.card_le_card hsub
    rw [List.toFinset_card_of_nodup hl] at hle
    rw [hset, hcount, h.count, Finset.card_sdiff_of_subset hsub, List.toFinset_card_of_nodup hl]
    omega
  · rw [hw] at he
    exact h.distinct i j ((hint i).1 hi).1 ((hint j).1 hj).1 he

theorem free (h : s.Inv) (hi : s.InHash i) :
    (s.rtwFreeStainfo i).Inv ∧ ∀ j, (s.rtwFreeStainfo i).InHash j ↔ s.InHash j ∧ j ≠ i := by
  have hrem := h.remove (t := s.rtwFreeStainfo i) (l := [i]) (List.nodup_singleton i)
    (fun j hj => by rwa [List.mem_singleton.1 hj]) rfl rfl (fun k => (h.nodupHash k).erase i)
    (fun k j => by
      rw [show (s.rtwFreeStainfo i).staHash k = (s.staHash k).erase i from rfl, (h.nodupHash k).mem_erase_iff,
        List.mem_singleton]
      exact and_comm) rfl
  simpa using hrem

end Inv

variable {s : StaTable} {l : List StaId}

theorem foldl_hashDelete : l.foldl hashDelete s = { s with staHash k := (s.staHash k).diff l } := by
  induction l generalizing s with
  | nil => simp
  | cons i l ih =>
    rw [List.foldl_cons, ih]
    simp [hashDelete, List.diff_cons]

theorem foldl_rtwFreeStainfo : l.foldl rtwFreeStainfo s = { s with
    staHash k := (s.staHash k).diff l
    asocStaCount := s.asocStaCount - l.length
    freeStaQueue := s.freeStaQueue ++ l } := by
  induction l generalizing s with
  | nil => simp
  | cons i l ih =>
    rw [List.foldl_cons, ih]
    simp [rtwFreeStainfo, hashDelete, List.diff_cons]
    omega

theorem mem_freeStaList {i : StaId} (hi : i ∈ s.freeStaList) :
    s.asocStaCount ≠ 1 ∧ s.InHash i ∧ s.rtwGetBcmcStainfo ≠ some i := by
  unfold freeStaList at hi
  split at hi
  · cases hi
  · rename_i hcount
    obtain ⟨k, -, hk⟩ := List.mem_flatMap.1 hi
    obtain ⟨hk, hne⟩ := List.mem_filter.1 hk
    exact ⟨hcount, ⟨k, hk⟩, by simpa using hne⟩

theorem Inv.nodup_freeStaList (h : s.Inv) : s.freeStaList.Nodup := by
  unfold freeStaList
  split
  · exact List.nodup_nil
  · refine List.nodup_flatMap.2 ⟨fun k _ => (h.nodupHash k).filter _, ?_⟩
    refine (List.nodup_finRange numSta).imp fun {k k'} hne i hi hi' => hne ?_
    rw [(h.mem_staHash.1 (List.mem_filter.1 hi).1).2, (h.mem_staHash.1 (List.mem_filter.1 hi').1).2]

theorem Inv.freeAll (h : s.Inv) : s.rtwFreeAllStainfo.Inv ∧ s.rtwFreeAllStainfo.hwaddr = s.hwaddr ∧
    ∀ i, s.rtwFreeAllStainfo.InHash i ↔ s.InHash i ∧ i ∉ s.freeStaList := by
  have heq : s.rtwFreeAllStainfo = { s with
      staHash k := ((s.staHash k).diff s.freeStaList).diff s.freeStaList
      asocStaCount := s.asocStaCount - s.freeStaList.length
      freeStaQueue := s.freeStaQueue ++ s.freeStaList } := by
    unfold rtwFreeAllStainfo
    rw [foldl_rtwFreeStainfo, foldl_hashDelete]
  have hnd : ∀ k, ((s.staHash k).diff s.freeStaList).Nodup := fun k => (h.nodupHash k).diff
  have hhash : ∀ k, s.rtwFreeAllStainfo.staHash k = ((s.staHash k).diff s.freeStaList).diff s.freeStaList := by
    simp [heq]
  have hw : s.rtwFreeAllStainfo.hwaddr = s.hwaddr := by rw [heq]
  obtain ⟨ht, hin⟩ := h.remove h.nodup_freeStaList (fun i hi => (mem_freeStaList hi).2.1) hw (by rw [heq])
    (fun k => by rw [hhash]; exact (hnd k).diff)
    (fun k i => by
      rw [hhash, (hnd k).mem_sdiff_iff, (h.nodupHash k).mem_sdiff_iff]
      simp only [and_assoc, and_self])
    (by rw [heq])
  exact ⟨ht, hw, hin⟩

/-- With the station for broadcast frames in the table, that one is left. -/
theorem Inv.freeAll_bcmc (h : s.Inv) {bc i : StaId} (hbc : s.InHash bc) (haddr : s.hwaddr bc = bcAddr) :
    s.rtwFreeAllStainfo.InHash i ↔ i = bc := by
  have hget : s.rtwGetBcmcStainfo = some bc := by
    unfold rtwGetBcmcStainfo rtwGetStainfo
    rw [if_pos (by decide)]
    exact h.find?_eq_some.2 ⟨hbc, haddr⟩
  rw [h.freeAll.2.2]
  constructor
  · rintro ⟨hi, hnl⟩
    by_contra hne
    by_cases hcount : s.asocStaCount = 1
    · have hcard : s.stations.card = 1 := by
        have := h.count
        omega
      obtain ⟨a, ha⟩ := Finset.card_eq_one.1 hcard
      have hmem : ∀ j, s.InHash j → j = a := fun j hj => by
        have : j ∈ s.stations := by simpa [stations] using hj
        rwa [ha, Finset.mem_singleton] at this
      exact hne ((hmem i hi).trans (hmem bc hbc).symm)
    · refine hnl ?_
      unfold freeStaList
      rw [if_neg hcount, hget]
      refine List.mem_flatMap.2 ⟨_, List.mem_finRange _, List.mem_filter.2 ⟨h.mem_staHash.2 ⟨hi, rfl⟩, ?_⟩⟩
      simpa using Ne.symm hne
  · rintro rfl
    exact ⟨hbc, fun hl => (mem_freeStaList hl).2.2 hget⟩

/-! ### The buckets as one list -/

/-- `p` is the table with its buckets put together. -/
structure Flat (s : StaTable) (p : StaPriv) : Prop where
  hwaddr : ∀ i, (p.sta i).hwaddr = s.hwaddr i
  freeStaQueue : p.freeStaQueue = s.freeStaQueue
  mem : ∀ i, i ∈ p.staHash ↔ s.InHash i
  nodup : p.staHash.Nodup
  count : (p.asocStaCount : Int) = s.asocStaCount

namespace Flat
variable {p : StaPriv} {t : StaTable} {addr : MacAddr} {i : StaId}

theorem init (maxNumSta : Nat) : Flat .init (.init maxNumSta) where
  hwaddr _ := rfl
  freeStaQueue := rfl
  mem i := by
    refine iff_of_false List.not_mem_nil ?_
    rintro ⟨k, hk⟩
    cases hk
  nodup := List.nodup_nil
  count := rfl

theorem get (h : Flat s p) (hs : s.Inv) : Rtw.rtwGetStainfo p addr = s.rtwGetStainfo addr := by
  have hfind : ∀ (addr : MacAddr) i, p.staHash.find? (fun i => (p.sta i).hwaddr = addr) = some i ↔
      s.InHash i ∧ s.hwaddr i = addr := by
    intro addr i
    simp only [h.hwaddr]
    constructor
    · intro hf
      exact ⟨(h.mem i).1 (List.mem_of_find?_eq_some hf), by simpa using List.find?_some hf⟩
    · rintro ⟨hi, rfl⟩
      cases hf : p.staHash.find? fun j => s.hwaddr j = s.hwaddr i with
      | none => simpa using List.find?_eq_none.1 hf i ((h.mem i).2 hi)
      | some j =>
        rw [hs.distinct j i ((h.mem j).1 (List.mem_of_find?_eq_some hf)) hi (by simpa using List.find?_some hf)]
  refine Option.ext fun i => ?_
  unfold Rtw.rtwGetStainfo rtwGetStainfo
  dsimp only
  rw [hfind, hs.find?_eq_some]

theorem alloc (h : Flat s p) (hs : s.Inv) (hnew : ¬ ∃ i, s.InHash i ∧ s.hwaddr i = addr)
    (ha : s.rtwAllocStainfo addr = some (t, i)) : ∃ q, Rtw.rtwAllocStainfo p addr = some (q, i) ∧ Flat t q := by
  obtain ⟨-, hw, hi, hin⟩ := hs.alloc hnew ha
  unfold rtwAllocStainfo at ha
  split at ha
  · cases ha
  rename_i i' free hfree
  obtain ⟨rfl, rfl⟩ := Prod.mk.inj (Option.some.inj ha)
  have hmem : i' ∉ p.staHash := fun hm => hi ((h.mem i').1 hm)
  refine ⟨_, by rw [Rtw.rtwAllocStainfo, h.freeStaQueue, hfree], ⟨fun j => ?_, rfl, fun j => ?_, ?_, ?_⟩⟩
  · dsimp only
    by_cases hj : j = i'
    · rw [hj, Function.update_self, Function.update_self]
    · rw [Function.update_of_ne hj, Function.update_of_ne hj, h.hwaddr]
  · rw [hin, ← h.mem, List.mem_append, List.mem_singleton, or_comm]
  · exact List.nodup_append.2 ⟨h.nodup, List.nodup_singleton _, fun x hx y hy hxy =>
      hmem (List.mem_singleton.1 hy ▸ hxy ▸ hx)⟩
  · rw [← h.count]
    rfl

theorem free (h : Flat s p) (hs : s.Inv) (hi : s.InHash i) :
    Flat (s.rtwFreeStainfo i) (Rtw.rtwFreeStainfo p i) := by
  obtain ⟨-, hin⟩ := hs.free hi
  have hlists : ∀ q : StaPriv, q = Rtw.rtwFreeStainfo p i → (∀ j, (q.sta j).hwaddr = (p.sta j).hwaddr) ∧
      q.freeStaQueue = p.freeStaQueue ++ [i] ∧ q.staHash = p.staHash.erase i ∧
      q.asocStaCount = p.asocStaCount - 1 := by
    rintro q rfl
    unfold Rtw.rtwFreeStainfo
    dsimp only
    split
    · split
      · refine ⟨fun j => ?_, rfl, rfl, rfl⟩
        rcases eq_or_ne j i with rfl | hj
        · simp [StaPriv.modify]
        · simp [StaPriv.modify, hj]
      · exact ⟨fun _ => rfl, rfl, rfl, rfl⟩
    · exact ⟨fun _ => rfl, rfl, rfl, rfl⟩
  obtain ⟨hw, hq, hl, hc⟩ := hlists _ rfl
  have hpos : 0 < s.stations.card := Finset.card_pos.2 ⟨i, by simpa [stations] using hi⟩
  refine ⟨fun j => (hw j).trans (h.hwaddr j), ?_, fun j => ?_, ?_, ?_⟩
  · rw [hq, h.freeStaQueue]
    rfl
  · rw [hl, h.nodup.mem_erase_iff, hin, h.mem]
    exact and_comm
  · rw [hl]
    exact h.nodup.erase i
  · have hcount := h.count
    have hcard := hs.count
    rw [hc, show (s.rtwFreeStainfo i).asocStaCount = s.asocStaCount - 1 from rfl]
    omega

end Flat

end StaTable

/-- The calls of `rtw_alloc_stainfo` and `rtw_free_stainfo`. -/
inductive StaCall where
  | alloc (hwaddr : MacAddr) (i : StaId)
  | free (i : StaId)

/-- The station allocated for `addr` that has not been freed, after the calls `calls`. -/
def stationOf (addr : MacAddr) (calls : List StaCall) : Option StaId :=
  calls.foldl
    (fun o => fun
      | .alloc hwaddr i => if hwaddr = addr then some i else o
      | .free i => if o = some i then none else o)
    none

inductive StaEvent where
  | alloc (hwaddr : MacAddr)
  | free (i : StaId)
  | freeAll

/-- The table, and the calls that brought it about. -/
structure StaRun where
  tab : StaTable
  calls : List StaCall

namespace StaRun

def start : StaRun := ⟨.init, []⟩

/-- An address is not allocated again while it is there, and only a station of the table is freed. -/
def next (s : StaRun) : StaEvent → StaRun
  | .alloc hwaddr =>
    if ∃ i, s.tab.InHash i ∧ s.tab.hwaddr i = hwaddr then s
    else
      match s.tab.rtwAllocStainfo hwaddr with
      | none => s
      | some (tab, i) => ⟨tab, s.calls ++ [.alloc hwaddr i]⟩
  | .free i => if s.tab.InHash i then ⟨s.tab.rtwFreeStainfo i, s.calls ++ [.free i]⟩ else s
  | .freeAll => ⟨s.tab.rtwFreeAllStainfo, s.calls ++ s.tab.freeStaList.map .free⟩

/-- Every entry is in one place, and is found there. -/
structure TableOk (s : StaRun) : Prop where
  nodupFree : s.tab.freeStaQueue.Nodup
  nodupHash : ∀ k, (s.tab.staHash k).Nodup
  place : ∀ i, i ∈ s.tab.freeStaQueue ∧ (∀ k, i ∉ s.tab.staHash k) ∨
    i ∉ s.tab.freeStaQueue ∧ ∀ k, i ∈ s.tab.staHash k ↔ k = staBucket (s.tab.hwaddr i)
  count : s.tab.asocStaCount = s.tab.stations.card
  lookup : ∀ addr : MacAddr, addr.isMcast = false → s.tab.rtwGetStainfo addr = stationOf addr s.calls

variable {s : StaRun} {addr : MacAddr} {calls : List StaCall} {i : StaId} {l : List StaId}

theorem stationOf_alloc {hwaddr : MacAddr} :
    stationOf addr (calls ++ [.alloc hwaddr i]) = if hwaddr = addr then some i else stationOf addr calls := by
  simp [stationOf]

theorem stationOf_free :
    stationOf addr (calls ++ l.map .free) = some i ↔ stationOf addr calls = some i ∧ i ∉ l := by
  induction l using List.reverseRecOn with
  | nil => simp
  | append_singleton l j ih =>
    have hlast : stationOf addr (calls ++ (l ++ [j]).map .free) =
        if stationOf addr (calls ++ l.map .free) = some j then none else stationOf addr (calls ++ l.map .free) := by
      simp [stationOf]
    rw [hlast]
    split
    · rename_i hj
      have hj' := hj
      rw [hj] at ih
      refine iff_of_false (by simp) ?_
      rintro ⟨ho, hni⟩
      rw [List.mem_append, List.mem_singleton, not_or] at hni
      exact hni.2 (Option.some.inj (ih.2 ⟨ho, hni.1⟩)).symm
    · rename_i hj
      rw [ih, List.mem_append, List.mem_singleton, not_or]
      refine and_congr_right fun ho => ⟨fun hni => ⟨hni, ?_⟩, And.left⟩
      rintro rfl
      exact hj (ih.2 ⟨ho, hni⟩)

structure Inv (s : StaRun) : Prop where
  tab : s.tab.Inv
  calls : ∀ addr i, stationOf addr s.calls = some i ↔ s.tab.InHash i ∧ s.tab.hwaddr i = addr

theorem inv_start : start.Inv where
  tab := StaTable.inv_init
  calls addr i := by
    refine iff_of_false (by simp [start, stationOf]) ?_
    rintro ⟨⟨k, hk⟩, -⟩
    cases hk

theorem Inv.next (h : s.Inv) (e : StaEvent) : (s.next e).Inv := by
  cases e with
  | alloc hwaddr =>
    unfold StaRun.next
    dsimp only
    split
    · exact h
    rename_i hnew
    split
    · exact h
    rename_i t i ha
    obtain ⟨ht, hw, hni, hin⟩ := h.tab.alloc hnew ha
    refine ⟨ht, fun addr j => ?_⟩
    dsimp only
    rw [stationOf_alloc, hin, hw]
    by_cases hj : j = i
    · subst hj
      rw [Function.update_self]
      split
      · rename_i he
        exact iff_of_true rfl ⟨.inl rfl, he⟩
      · rename_i he
        refine iff_of_false (fun ho => hni ((h.calls addr j).1 ho).1) fun hr => he hr.2
    · rw [Function.update_of_ne hj]
      split
      · rename_i he
        refine iff_of_false (fun ho => hj (Option.some.inj ho).symm) ?_
        rintro ⟨hor, rfl⟩
        exact hnew ⟨j, hor.resolve_left hj, he.symm⟩
      · rw [h.calls]
        simp [hj]
  | free i =>
    unfold StaRun.next
    dsimp only
    split
    · rename_i hi
      obtain ⟨ht, hin⟩ := h.tab.free hi
      refine ⟨ht, fun addr j => ?_⟩
      have hone : [StaCall.free i] = [i].map .free := rfl
      dsimp only
      rw [hone, stationOf_free, h.calls, hin, List.mem_singleton]
      exact and_right_comm
    · exact h
  | freeAll =>
    obtain ⟨ht, hw, hin⟩ := h.tab.freeAll
    refine ⟨ht, fun addr j => ?_⟩
    unfold StaRun.next
    dsimp only
    rw [stationOf_free, h.calls, hin, hw]
    exact and_right_comm

theorem Inv.tableOk (h : s.Inv) : s.TableOk where
  nodupFree := h.tab.nodupFree
  nodupHash := h.tab.nodupHash
  place := h.tab.place
  count := h.tab.count
  lookup addr huni := by
    refine Option.ext fun i => ?_
    rw [h.tab.rtwGetStainfo_eq_some huni, h.calls]

theorem tableOk_run (evs : List StaEvent) : (Machine.run next start evs).TableOk :=
  (Machine.run_invariant (fun _ e h => h.next e) inv_start evs).tableOk

end StaRun

end Rtw
