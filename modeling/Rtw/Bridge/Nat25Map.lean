import Rtw.Bridge.Nat25

/-!
# The NAT2.5 database is a map

`Nat25Db.DbInv s lists` is what every operation of the database keeps: `lists` are its buckets, each entry is
in the bucket of its hash, no network address has two entries, and `scdb_entry` is one of them or null.
`Nat25Db.table` reads the database as a map, and each operation is an update of that map (`table_setEntry`,
`table_insertEntry`, `table_freeEntry`). What a lookup gives is then the last recorded address
(`Nat25Run.isMap_run`).
-/

namespace Rtw

namespace Nat25Db
variable {w : Nat} {hz : Nat} {malloc : Malloc} {s t : Nat25Db w} {lists : Fin nat25HashSize → List DbPtr}
  {p q : DbPtr} {e f : Nat25Entry w} {a b : NetworkAddr} {i : Fin nat25HashSize} {jiffies : BitVec w}

structure DbInv (s : Nat25Db w) (lists : Fin nat25HashSize → List DbPtr) : Prop where
  wf : s.links.Wf lists
  mem_live : ∀ p, p ∈ s.live ↔ ∃ i, p ∈ lists i
  entry_ne_none : ∀ p, s.entry p ≠ none ↔ p ∈ s.live
  hash : ∀ i p e, p ∈ lists i → s.entry p = some e → nat25NetworkHash e.networkAddr = i
  eq_of_addr : ∀ p q e f, s.entry p = some e → s.entry q = some f → e.networkAddr = f.networkAddr → p = q
  scdbEntry : ∀ p, s.scdbEntry = some p → p ∈ s.live

/-- The lists of the database, with all that is to hold of them. -/
def IsMap (s : Nat25Db w) : Prop := ∃ lists, s.DbInv lists

namespace DbInv

theorem init : (init : Nat25Db w).DbInv fun _ => [] := by
  refine ⟨Hlist.wf_empty, fun p => ?_, fun p => ?_, fun i p e h => ?_, fun p q e f h => ?_, fun p h => ?_⟩
  · simp [Nat25Db.init]
  · simp [Nat25Db.init]
  · cases h
  · cases h
  · cases h

theorem live_of_entry (h : s.DbInv lists) (he : s.entry p = some e) : p ∈ s.live :=
  (h.entry_ne_none p).1 (by rw [he]; exact Option.some_ne_none e)

theorem mem_of_entry (h : s.DbInv lists) (he : s.entry p = some e) : p ∈ lists (nat25NetworkHash e.networkAddr) := by
  obtain ⟨i, hi⟩ := (h.mem_live p).1 (h.live_of_entry he)
  rw [h.hash i p e hi he]
  exact hi

theorem length_le (h : s.DbInv lists) (i : Fin nat25HashSize) : (lists i).length ≤ s.live.card := by
  rw [← List.toFinset_card_of_nodup (h.wf.nodup i)]
  refine Finset.card_le_card fun p hp => ?_
  exact (h.mem_live p).2 ⟨i, List.mem_toFinset.1 hp⟩

theorem find_eq_some (h : s.DbInv lists) : s.find a = some p ↔ ∃ e, s.entry p = some e ∧ e.networkAddr = a := by
  have hfind : s.find a = (lists (nat25NetworkHash a)).find? (s.hasAddr a) := h.wf.find (h.length_le _) _
  have hany : ∀ q, s.hasAddr a q = true ↔ ∃ e, s.entry q = some e ∧ e.networkAddr = a := by
    intro q
    unfold hasAddr
    cases hq : s.entry q <;> simp
  rw [hfind]
  constructor
  · intro hp
    exact (hany p).1 (List.find?_some hp)
  · rintro ⟨e, he, rfl⟩
    have hmem := h.mem_of_entry he
    obtain ⟨q, hq⟩ : ∃ q, (lists (nat25NetworkHash e.networkAddr)).find? (s.hasAddr e.networkAddr) = some q := by
      refine Option.isSome_iff_exists.1 (List.find?_isSome.2 ⟨p, hmem, (hany p).2 ⟨e, he, rfl⟩⟩)
    obtain ⟨f, hf, hfe⟩ := (hany q).1 (List.find?_some hq)
    rw [hq, h.eq_of_addr q p f e hf he hfe]

end DbInv

/-- The database as a map: the entry of a network address. -/
def table (s : Nat25Db w) (a : NetworkAddr) : Option (Nat25Entry w) := (s.find a).bind s.entry

theorem DbInv.table_eq_some (h : s.DbInv lists) : s.table a = some e ↔ ∃ p, s.entry p = some e ∧ e.networkAddr = a := by
  unfold Nat25Db.table
  constructor
  · intro he
    obtain ⟨p, hp, he⟩ := Option.bind_eq_some_iff.1 he
    obtain ⟨f, hf, hfa⟩ := h.find_eq_some.1 hp
    rw [hf] at he
    cases he
    exact ⟨p, hf, hfa⟩
  · rintro ⟨p, he, hea⟩
    rw [h.find_eq_some.2 ⟨e, he, hea⟩]
    exact he

/-- Two databases with the same entries are the same map. -/
theorem DbInv.table_ext (h : s.DbInv lists) (g : NetworkAddr → Option (Nat25Entry w))
    (hg : ∀ a e, g a = some e ↔ ∃ p, s.entry p = some e ∧ e.networkAddr = a) : s.table = g := by
  funext a
  refine Option.ext fun e => ?_
  rw [h.table_eq_some, hg]

/-! ### The steps -/

theorem DbInv.setEntry (h : s.DbInv lists) (he : s.entry p = some e) (hf : f.networkAddr = e.networkAddr) :
    (s.setEntry p f).DbInv lists := by
  have hentry : ∀ {q g}, (s.setEntry p f).entry q = some g →
      ∃ g', s.entry q = some g' ∧ g.networkAddr = g'.networkAddr := by
    intro q g hg
    have hg : Function.update s.entry p (some f) q = some g := hg
    rcases eq_or_ne q p with rfl | hq
    · rw [Function.update_self] at hg
      cases hg
      exact ⟨e, he, hf⟩
    · rw [Function.update_of_ne hq] at hg
      exact ⟨g, hg, rfl⟩
  refine ⟨h.wf, h.mem_live, fun q => ?_, fun i q g hq hg => ?_, fun q r g g' hg hg' haddr => ?_, h.scdbEntry⟩
  · show Function.update s.entry p (some f) q ≠ none ↔ q ∈ s.live
    rw [← h.entry_ne_none q]
    rcases eq_or_ne q p with rfl | hq
    · rw [Function.update_self, he]
      exact iff_of_true (Option.some_ne_none _) (Option.some_ne_none _)
    · rw [Function.update_of_ne hq]
  · obtain ⟨g', hg', haddr⟩ := hentry hg
    rw [haddr]
    exact h.hash i q g' hq hg'
  · obtain ⟨g₁, hg₁, haddr₁⟩ := hentry hg
    obtain ⟨g₂, hg₂, haddr₂⟩ := hentry hg'
    exact h.eq_of_addr q r g₁ g₂ hg₁ hg₂ (haddr₁.symm.trans (haddr.trans haddr₂))

theorem DbInv.table_setEntry (h : s.DbInv lists) (he : s.entry p = some e) (hf : f.networkAddr = e.networkAddr) :
    (s.setEntry p f).table = Function.update s.table e.networkAddr (some f) := by
  refine (h.setEntry he hf).table_ext _ fun a g => ?_
  show _ ↔ ∃ q, Function.update s.entry p (some f) q = some g ∧ g.networkAddr = a
  rcases eq_or_ne a e.networkAddr with rfl | ha
  · rw [Function.update_self]
    constructor
    · intro hg
      cases hg
      exact ⟨p, Function.update_self .., hf⟩
    · rintro ⟨q, hq, hga⟩
      rcases eq_or_ne q p with rfl | hqp
      · rwa [Function.update_self] at hq
      · rw [Function.update_of_ne hqp] at hq
        exact absurd (h.eq_of_addr q p g e hq he hga) hqp
  · rw [Function.update_of_ne ha, h.table_eq_some]
    constructor
    · rintro ⟨q, hq, hga⟩
      have hqp : q ≠ p := by
        rintro rfl
        rw [he] at hq
        cases hq
        exact ha hga.symm
      exact ⟨q, by rw [Function.update_of_ne hqp]; exact hq, hga⟩
    · rintro ⟨q, hq, hga⟩
      rcases eq_or_ne q p with rfl | hqp
      · rw [Function.update_self] at hq
        cases hq
        exact absurd (hga.symm.trans hf) ha
      · rw [Function.update_of_ne hqp] at hq
        exact ⟨q, hq, hga⟩

/-- A new entry is linked. -/
def insertEntry (s : Nat25Db w) (p : DbPtr) (e : Nat25Entry w) : Nat25Db w :=
  { s.setEntry p e with live := insert p s.live, links := s.links.link p (nat25NetworkHash e.networkAddr) }

theorem DbInv.insertEntry (h : s.DbInv lists) (hp : p ∉ s.live) (hnone : s.table e.networkAddr = none) :
    (s.insertEntry p e).DbInv (Function.update lists (nat25NetworkHash e.networkAddr)
      (p :: lists (nat25NetworkHash e.networkAddr))) := by
  have hfree : ∀ i, p ∉ lists i := fun i hi => hp ((h.mem_live p).2 ⟨i, hi⟩)
  have hentry : ∀ {q g}, (s.insertEntry p e).entry q = some g → q = p ∧ g = e ∨ q ≠ p ∧ s.entry q = some g := by
    intro q g hg
    have hg : Function.update s.entry p (some e) q = some g := hg
    rcases eq_or_ne q p with rfl | hq
    · rw [Function.update_self] at hg
      cases hg
      exact .inl ⟨rfl, rfl⟩
    · rw [Function.update_of_ne hq] at hg
      exact .inr ⟨hq, hg⟩
  have hmem : ∀ i q, q ∈ Function.update lists (nat25NetworkHash e.networkAddr)
      (p :: lists (nat25NetworkHash e.networkAddr)) i ↔ q = p ∧ i = nat25NetworkHash e.networkAddr ∨ q ∈ lists i := by
    intro i q
    rcases eq_or_ne i (nat25NetworkHash e.networkAddr) with rfl | hi
    · rw [Function.update_self, List.mem_cons]
      simp
    · rw [Function.update_of_ne hi]
      simp [hi]
  have hother : ∀ q g, s.entry q = some g → g.networkAddr ≠ e.networkAddr := by
    intro q g hg haddr
    rw [h.table_eq_some.2 ⟨q, hg, haddr⟩] at hnone
    cases hnone
  refine ⟨h.wf.link hfree _, fun q => ?_, fun q => ?_, fun i q g hq hg => ?_, fun q r g g' hg hg' haddr => ?_,
    fun q hq => ?_⟩
  · show q ∈ insert p s.live ↔ _
    simp only [hmem, Finset.mem_insert, h.mem_live q]
    constructor
    · rintro (rfl | ⟨i, hi⟩)
      · exact ⟨_, .inl ⟨rfl, rfl⟩⟩
      · exact ⟨i, .inr hi⟩
    · rintro ⟨i, ⟨rfl, -⟩ | hi⟩
      · exact .inl rfl
      · exact .inr ⟨i, hi⟩
  · show Function.update s.entry p (some e) q ≠ none ↔ q ∈ insert p s.live
    rcases eq_or_ne q p with rfl | hq
    · rw [Function.update_self]
      exact iff_of_true (Option.some_ne_none _) (Finset.mem_insert_self ..)
    · rw [Function.update_of_ne hq, h.entry_ne_none, Finset.mem_insert, or_iff_right hq]
  · rcases hentry hg with ⟨rfl, rfl⟩ | ⟨hqp, hg⟩
    · rcases (hmem i q).1 hq with ⟨-, hi⟩ | hq
      · exact hi.symm
      · exact absurd hq (hfree i)
    · rcases (hmem i q).1 hq with ⟨rfl, -⟩ | hq
      · exact absurd rfl hqp
      · exact h.hash i q g hq hg
  · rcases hentry hg with ⟨hqp, hge⟩ | ⟨-, hgs⟩
    · rcases hentry hg' with ⟨hrp, -⟩ | ⟨-, hgs'⟩
      · exact hqp.trans hrp.symm
      · exact absurd (haddr.symm.trans (congrArg _ hge)) (hother r g' hgs')
    · rcases hentry hg' with ⟨-, hge'⟩ | ⟨-, hgs'⟩
      · exact absurd (haddr.trans (congrArg _ hge')) (hother q g hgs)
      · exact h.eq_of_addr q r g g' hgs hgs' haddr
  · exact Finset.mem_insert_of_mem (h.scdbEntry q hq)

theorem DbInv.table_insertEntry (h : s.DbInv lists) (hp : p ∉ s.live) (hnone : s.table e.networkAddr = none) :
    (s.insertEntry p e).table = Function.update s.table e.networkAddr (some e) := by
  have hnew := h.insertEntry hp hnone
  refine hnew.table_ext _ fun a g => ?_
  show _ ↔ ∃ q, Function.update s.entry p (some e) q = some g ∧ g.networkAddr = a
  have hpnone : s.entry p = none := by
    by_contra hne
    exact hp ((h.entry_ne_none p).1 hne)
  rcases eq_or_ne a e.networkAddr with rfl | ha
  · rw [Function.update_self]
    constructor
    · intro hg
      cases hg
      exact ⟨p, Function.update_self .., rfl⟩
    · rintro ⟨q, hq, hga⟩
      rcases eq_or_ne q p with rfl | hqp
      · rwa [Function.update_self] at hq
      · rw [Function.update_of_ne hqp] at hq
        rw [h.table_eq_some.2 ⟨q, hq, hga⟩] at hnone
        cases hnone
  · rw [Function.update_of_ne ha, h.table_eq_some]
    constructor
    · rintro ⟨q, hq, hga⟩
      have hqp : q ≠ p := by
        rintro rfl
        rw [hpnone] at hq
        cases hq
      exact ⟨q, by rw [Function.update_of_ne hqp]; exact hq, hga⟩
    · rintro ⟨q, hq, hga⟩
      rcases eq_or_ne q p with rfl | hqp
      · rw [Function.update_self] at hq
        cases hq
        exact absurd hga.symm ha
      · rw [Function.update_of_ne hqp] at hq
        exact ⟨q, hq, hga⟩

theorem freeEntry_entry : (s.freeEntry p).entry = Function.update s.entry p none := by
  unfold freeEntry
  dsimp only
  split <;> rfl

theorem freeEntry_links : (s.freeEntry p).links = s.links.unlink p := by
  unfold freeEntry
  dsimp only
  split <;> rfl

theorem freeEntry_live : (s.freeEntry p).live = s.live.erase p := by
  unfold freeEntry
  dsimp only
  split <;> rfl

theorem freeEntry_scdbEntry (hq : (s.freeEntry p).scdbEntry = some q) : s.scdbEntry = some q ∧ q ≠ p := by
  unfold freeEntry at hq
  dsimp only at hq
  split at hq
  · cases hq
  · rename_i hne
    exact ⟨hq, fun hqp => hne (hqp ▸ hq)⟩

theorem DbInv.freeEntry (h : s.DbInv lists) (hp : p ∈ lists i) :
    (s.freeEntry p).DbInv (Function.update lists i ((lists i).erase p)) := by
  have hmem : ∀ j q, q ∈ Function.update lists i ((lists i).erase p) j ↔ q ∈ lists j ∧ q ≠ p := by
    intro j q
    rcases eq_or_ne j i with rfl | hj
    · rw [Function.update_self, (h.wf.nodup j).mem_erase_iff, and_comm]
    · rw [Function.update_of_ne hj]
      exact ⟨fun hq => ⟨hq, fun hqp => hj (h.wf.eq_of_mem j i q hq (hqp ▸ hp))⟩, fun hq => hq.1⟩
  have hentry : ∀ {q g}, (s.freeEntry p).entry q = some g → s.entry q = some g := by
    intro q g hg
    rw [freeEntry_entry] at hg
    rcases eq_or_ne q p with rfl | hq
    · rw [Function.update_self] at hg
      cases hg
    · rwa [Function.update_of_ne hq] at hg
  refine ⟨?_, fun q => ?_, fun q => ?_, fun j q g hq hg => ?_, fun q r g g' hg hg' haddr => ?_, fun q hq => ?_⟩
  · rw [freeEntry_links]
    exact h.wf.unlink hp
  · simp only [freeEntry_live, Finset.mem_erase, hmem, h.mem_live q, exists_and_right]
    exact and_comm
  · rw [freeEntry_entry, freeEntry_live, Finset.mem_erase]
    rcases eq_or_ne q p with rfl | hq
    · rw [Function.update_self]
      exact iff_of_false (fun h => h rfl) (fun h => h.1 rfl)
    · rw [Function.update_of_ne hq, h.entry_ne_none]
      exact ⟨fun hl => ⟨hq, hl⟩, fun hl => hl.2⟩
  · exact h.hash j q g ((hmem j q).1 hq).1 (hentry hg)
  · exact h.eq_of_addr q r g g' (hentry hg) (hentry hg') haddr
  · obtain ⟨hsame, hne⟩ := freeEntry_scdbEntry hq
    rw [freeEntry_live]
    exact Finset.mem_erase.2 ⟨hne, h.scdbEntry q hsame⟩

theorem DbInv.table_freeEntry (h : s.DbInv lists) (he : s.entry p = some e) :
    (s.freeEntry p).table = Function.update s.table e.networkAddr none := by
  refine (h.freeEntry (h.mem_of_entry he)).table_ext _ fun a g => ?_
  rw [freeEntry_entry]
  rcases eq_or_ne a e.networkAddr with rfl | ha
  · rw [Function.update_self]
    refine iff_of_false (Option.some_ne_none g).symm ?_
    rintro ⟨q, hq, hga⟩
    rcases eq_or_ne q p with rfl | hqp
    · rw [Function.update_self] at hq
      cases hq
    · rw [Function.update_of_ne hqp] at hq
      exact hqp (h.eq_of_addr q p g e hq he hga)
  · rw [Function.update_of_ne ha, h.table_eq_some]
    refine exists_congr fun q => and_congr_left fun hga => ?_
    rcases eq_or_ne q p with rfl | hqp
    · rw [Function.update_self, he]
      refine iff_of_false (fun heq => ?_) (Option.some_ne_none g).symm
      cases heq
      exact ha hga.symm
    · rw [Function.update_of_ne hqp]

theorem DbInv.find_eq_none (h : s.DbInv lists) : s.find a = none ↔ s.table a = none := by
  unfold table
  constructor
  · intro hnone
    rw [hnone]
    rfl
  · intro hnone
    cases hf : s.find a with
    | none => rfl
    | some p =>
      obtain ⟨e, he, -⟩ := h.find_eq_some.1 hf
      rw [hf] at hnone
      exact absurd (hnone.symm.trans he) (Option.some_ne_none e).symm

theorem DbInv.find_table (h : s.DbInv lists) (hf : s.find a = some p) :
    ∃ e, s.entry p = some e ∧ e.networkAddr = a ∧ s.table a = some e := by
  obtain ⟨e, he, hea⟩ := h.find_eq_some.1 hf
  exact ⟨e, he, hea, h.table_eq_some.2 ⟨p, he, hea⟩⟩

/-! ### The operations -/

theorem DbInv.networkInsert (h : s.DbInv lists) (malloc : Malloc) (jiffies : BitVec w) (mac : MacAddr) (a : NetworkAddr) :
    (s.networkInsert malloc jiffies mac a).IsMap ∧ ∃ e, e.macAddr = mac ∧ e.ageingTimer = jiffies ∧
      (s.networkInsert malloc jiffies mac a).table = Function.update s.table a (some e) := by
  unfold Nat25Db.networkInsert
  cases hf : s.find a with
  | some p =>
    obtain ⟨e, he, rfl, -⟩ := h.find_table hf
    dsimp only
    rw [he]
    refine ⟨⟨lists, h.setEntry he rfl⟩, { e with macAddr := mac, ageingTimer := jiffies }, rfl, rfl, ?_⟩
    exact h.table_setEntry he rfl
  | none =>
    have hnew := malloc.alloc_not_mem s.live
    have hnone : s.table a = none := h.find_eq_none.1 hf
    refine ⟨⟨_, h.insertEntry (e := ⟨1, mac, jiffies, a⟩) hnew hnone⟩, ⟨1, mac, jiffies, a⟩, rfl, rfl, ?_⟩
    exact h.table_insertEntry (e := ⟨1, mac, jiffies, a⟩) hnew hnone

/-- A lookup gives what the map has, if it is not expired. -/
theorem DbInv.lookup_eq (h : s.DbInv lists) (dst : MacAddr) : (s.lookupAndReplace hz jiffies a dst).2.1 =
    match s.table a with
    | none => dst
    | some e => if nat25HasExpired hz jiffies e.ageingTimer then dst else e.macAddr := by
  unfold lookupAndReplace
  cases hf : s.find a with
  | none => rw [h.find_eq_none.1 hf]
  | some p =>
    obtain ⟨e, he, -, htable⟩ := h.find_table hf
    rw [htable]
    dsimp only
    rw [he]
    dsimp only
    cases nat25HasExpired hz jiffies e.ageingTimer <;> rfl

theorem DbInv.lookup_found (h : s.DbInv lists) (hz : Nat) (a : NetworkAddr) (jiffies : BitVec w) (dst : MacAddr) :
    (s.lookupAndReplace hz jiffies a dst).2.2 = (s.table a).isSome := by
  unfold lookupAndReplace
  cases hf : s.find a with
  | none => rw [h.find_eq_none.1 hf, Option.isSome_none]
  | some p =>
    obtain ⟨e, he, -, htable⟩ := h.find_table hf
    rw [htable, Option.isSome_some]
    dsimp only
    rw [he]
    dsimp only
    cases nat25HasExpired hz jiffies e.ageingTimer <;> rfl

theorem DbInv.lookup (h : s.DbInv lists) (hz : Nat) (jiffies : BitVec w) (a : NetworkAddr) (dst : MacAddr) :
    (s.lookupAndReplace hz jiffies a dst).1.IsMap ∧
    ((s.lookupAndReplace hz jiffies a dst).1.table = s.table ∨ ∃ e n, s.table a = some e ∧
      (s.lookupAndReplace hz jiffies a dst).1.table = Function.update s.table a (some { e with useCount := n })) := by
  unfold lookupAndReplace
  cases hf : s.find a with
  | none => exact ⟨⟨lists, h⟩, .inl rfl⟩
  | some p =>
    obtain ⟨e, he, rfl, htable⟩ := h.find_table hf
    dsimp only
    rw [he]
    dsimp only
    split
    · exact ⟨⟨lists, h.setEntry he rfl⟩, .inr ⟨e, _, htable, h.table_setEntry he rfl⟩⟩
    · exact ⟨⟨lists, h⟩, .inl rfl⟩

theorem DbInv.touch (h : s.DbInv lists) (jiffies : BitVec w) :
    (s.touchScdbEntry jiffies).DbInv lists ∧
      (s.scdbEntry = none ∧ s.touchScdbEntry jiffies = s ∨
        ∃ p e, s.scdbEntry = some p ∧ s.entry p = some e ∧ s.table e.networkAddr = some e ∧
          (s.touchScdbEntry jiffies).table =
            Function.update s.table e.networkAddr (some { e with ageingTimer := jiffies })) := by
  unfold touchScdbEntry
  cases hs : s.scdbEntry with
  | none => exact ⟨h, .inl ⟨rfl, rfl⟩⟩
  | some p =>
    obtain ⟨e, he⟩ := Option.ne_none_iff_exists'.1 ((h.entry_ne_none p).2 (h.scdbEntry p hs))
    dsimp only
    rw [he]
    exact ⟨h.setEntry he rfl, .inr ⟨p, e, rfl, he, h.table_eq_some.2 ⟨p, he, rfl⟩, h.table_setEntry he rfl⟩⟩

/-- The pointer is set to an entry of the table. -/
theorem DbInv.setScdb (h : s.DbInv lists) {v : Option DbPtr} (hv : ∀ p, v = some p → p ∈ s.live) (mac : MacAddr)
    (ip : IpAddr) : DbInv { s with scdbEntry := v, scdbMac := mac, scdbIp := ip } lists :=
  ⟨h.wf, h.mem_live, h.entry_ne_none, h.hash, h.eq_of_addr, hv⟩

theorem DbInv.find_live (h : s.DbInv lists) (hf : s.find a = some p) : p ∈ s.live := by
  obtain ⟨e, he, -, -⟩ := h.find_table hf
  exact h.live_of_entry he

/-! ### Walks through the database -/

theorem expireEntry_links (hz : Nat) (jiffies : BitVec w) (s : Nat25Db w) (p : DbPtr) :
    (expireEntry hz jiffies s p).links = s.links ∨ (expireEntry hz jiffies s p).links = s.links.unlink p := by
  unfold expireEntry
  split
  · exact .inl rfl
  · split
    · dsimp only
      split
      · exact .inr freeEntry_links
      · exact .inl rfl
    · exact .inl rfl

/-- What a step on an entry preserves is preserved by a walk. -/
theorem forEachEntry_invariant {step : Nat25Db w → DbPtr → Nat25Db w} {I : Nat25Db w → Prop}
    (hlinks : ∀ s p, (step s p).links = s.links ∨ (step s p).links = s.links.unlink p)
    (hmap : ∀ s, I s → s.IsMap) (hstep : ∀ s p, I s → I (step s p)) (hs : I s) : I (s.forEachEntry step) := by
  refine Machine.run_invariant (fun s i hs => ?_) hs _
  obtain ⟨lists, h⟩ := hmap s hs
  rw [h.wf.forEach hlinks (h.length_le i)]
  exact Machine.run_invariant hstep hs _

theorem DbInv.freeBucket (h : s.DbInv lists) (i : Fin nat25HashSize) :
    ((lists i).foldl Nat25Db.freeEntry s).DbInv (Function.update lists i []) := by
  generalize hl : lists i = l
  induction l generalizing s lists with
  | nil =>
    have hsame : Function.update lists i [] = lists := by
      rw [← hl]
      exact Function.update_eq_self ..
    rw [hsame]
    exact h
  | cons p l ih =>
    have hfree := h.freeEntry (i := i) (p := p) (by rw [hl]; exact List.mem_cons_self ..)
    rw [hl, List.erase_cons_head] at hfree
    have hrest := ih hfree (Function.update_self ..)
    rwa [Function.update_idem] at hrest

theorem DbInv.cleanup (h : s.DbInv lists) : s.cleanup.DbInv fun _ => [] := by
  have hfold : ∀ (is : List (Fin nat25HashSize)) (s : Nat25Db w) (lists : Fin nat25HashSize → List DbPtr), s.DbInv lists →
      (is.foldl (fun s i => Hlist.forEach Nat25Db.links Nat25Db.freeEntry s.live.card (s.links.head i) s) s).DbInv
        fun i => if i ∈ is then [] else lists i := by
    intro is
    induction is with
    | nil => exact fun s lists h => h
    | cons i is ih =>
      intro s lists h
      have hstep := Hlist.Wf.forEach (b := i) h.wf
        (fun s p => .inr freeEntry_links) (h.length_le i)
      have hrest := ih _ _ (h.freeBucket i)
      rw [List.foldl_cons, hstep]
      convert hrest using 2 with j
      rcases eq_or_ne j i with rfl | hj
      · simp
      · simp [hj]
  have hall := hfold (List.finRange nat25HashSize) s lists h
  simp only [List.mem_finRange, if_true] at hall
  exact hall

theorem DbInv.table_of_nil (h : s.DbInv fun _ => []) : s.table = fun _ => none := by
  funext a
  cases ha : s.table a with
  | none => rfl
  | some e =>
    obtain ⟨p, he, -⟩ := h.table_eq_some.1 ha
    exact absurd (h.mem_of_entry he) List.not_mem_nil

/-! ### What was recorded -/

/-- The map has what was recorded last, except for entries that have expired. -/
structure Tracks (table : NetworkAddr → Option (Nat25Entry w)) (latest : NetworkAddr → Option (Latest w)) : Prop where
  of_none : ∀ a, latest a = none → table a = none
  of_some : ∀ a r, latest a = some r →
    (∃ e, table a = some e ∧ e.macAddr = r.mac ∧ e.ageingTimer = r.timer) ∨ table a = none ∧ r.expired = true

namespace Tracks
variable {table : NetworkAddr → Option (Nat25Entry w)} {latest : NetworkAddr → Option (Latest w)} {r : Latest w}

theorem recorded (h : Tracks table latest) (ha : table a = some e) :
    ∃ r, latest a = some r ∧ e.macAddr = r.mac ∧ e.ageingTimer = r.timer := by
  cases hr : latest a with
  | none =>
    rw [h.of_none a hr] at ha
    cases ha
  | some r =>
    rcases h.of_some a r hr with ⟨f, hf, hmac, htimer⟩ | ⟨hnone, -⟩
    · rw [ha] at hf
      cases hf
      exact ⟨r, rfl, hmac, htimer⟩
    · rw [ha] at hnone
      cases hnone

theorem update (h : Tracks table latest) (a : NetworkAddr) (hmac : e.macAddr = r.mac) (htimer : e.ageingTimer = r.timer) :
    Tracks (Function.update table a (some e)) (Function.update latest a (some r)) := by
  refine ⟨fun b hb => ?_, fun b r' hb => ?_⟩
  · rcases eq_or_ne b a with rfl | hba
    · rw [Function.update_self] at hb
      cases hb
    · rw [Function.update_of_ne hba] at hb ⊢
      exact h.of_none b hb
  · rcases eq_or_ne b a with rfl | hba
    · rw [Function.update_self] at hb ⊢
      cases hb
      exact .inl ⟨e, rfl, hmac, htimer⟩
    · rw [Function.update_of_ne hba] at hb ⊢
      exact h.of_some b r' hb

theorem keep (h : Tracks table latest) (ha : table a = some e) (hmac : f.macAddr = e.macAddr)
    (htimer : f.ageingTimer = e.ageingTimer) : Tracks (Function.update table a (some f)) latest := by
  obtain ⟨r, hr, hem, het⟩ := h.recorded ha
  have hup := h.update a (hmac.trans hem) (htimer.trans het)
  rwa [← hr, Function.update_eq_self] at hup

/-- The entry of an address that has expired is dropped. -/
theorem drop (h : Tracks table latest) (hr : latest a = some r) (hexp : r.expired = true) :
    Tracks (Function.update table a none) latest := by
  refine ⟨fun b hb => ?_, fun b r' hb => ?_⟩
  · rcases eq_or_ne b a with rfl | hba
    · exact Function.update_self ..
    · rw [Function.update_of_ne hba]
      exact h.of_none b hb
  · rcases eq_or_ne b a with rfl | hba
    · rw [hr] at hb
      cases hb
      exact .inr ⟨Function.update_self .., hexp⟩
    · rw [Function.update_of_ne hba]
      exact h.of_some b r' hb

theorem expire (h : Tracks table latest) (g : Latest w → Bool) :
    Tracks table fun a => (latest a).map fun r => { r with expired := r.expired || g r } := by
  refine ⟨fun a ha => h.of_none a (Option.map_eq_none_iff.1 ha), fun a r ha => ?_⟩
  obtain ⟨r, hr, rfl⟩ := Option.map_eq_some_iff.1 ha
  rcases h.of_some a r hr with hsome | ⟨hnone, hexp⟩
  · exact .inl hsome
  · exact .inr ⟨hnone, by rw [hexp]; rfl⟩

end Tracks

theorem expire_tracks (hz : Nat) (jiffies : BitVec w) {latest : NetworkAddr → Option (Latest w)} (hmap : s.IsMap)
    (h : Tracks s.table latest) :
    (s.expire hz jiffies).IsMap ∧ Tracks (s.expire hz jiffies).table fun a => (latest a).map fun r =>
      { r with expired := r.expired || nat25HasExpired hz jiffies r.timer } := by
  set latest' := fun a => (latest a).map fun r =>
    { r with expired := r.expired || nat25HasExpired hz jiffies r.timer } with hlatest
  have hexpired : ∀ a r, latest' a = some r → nat25HasExpired hz jiffies r.timer = true → r.expired = true := by
    intro a r hr hexp
    obtain ⟨r, -, rfl⟩ := Option.map_eq_some_iff.1 hr
    exact Bool.or_eq_true_iff.2 (.inr hexp)
  refine forEachEntry_invariant (I := fun s => s.IsMap ∧ Tracks s.table latest')
    (expireEntry_links hz jiffies) (fun s hs => hs.1) (fun s p hs => ?_) ⟨hmap, h.expire _⟩
  obtain ⟨⟨lists, hinv⟩, htracks⟩ := hs
  unfold expireEntry
  cases he : s.entry p with
  | none => exact ⟨⟨lists, hinv⟩, htracks⟩
  | some e =>
    have htable : s.table e.networkAddr = some e := hinv.table_eq_some.2 ⟨p, he, rfl⟩
    dsimp only
    split
    · rename_i hexp
      split
      · obtain ⟨r, hr, -, htimer⟩ := htracks.recorded htable
        rw [hinv.table_freeEntry he]
        exact ⟨⟨_, hinv.freeEntry (hinv.mem_of_entry he)⟩, htracks.drop hr (hexpired _ r hr (htimer ▸ hexp))⟩
      · refine ⟨⟨lists, hinv.setEntry he rfl⟩, ?_⟩
        rw [hinv.table_setEntry (f := { e with useCount := e.useCount - 1 }) he rfl]
        exact htracks.keep htable rfl rfl
    · exact ⟨⟨lists, hinv⟩, htracks⟩

end Nat25Db

namespace Nat25Run
variable {w : Nat} {hz : Nat} {malloc : Malloc} {s : Nat25Run w} {e : Nat25Entry w} {p : DbPtr}

/-- The database is a map, and has what was recorded. -/
structure Inv (s : Nat25Run w) : Prop where
  isMap : s.db.IsMap
  tracks : Nat25Db.Tracks s.db.table s.latest

theorem inv_init : (init : Nat25Run w).Inv := by
  refine ⟨⟨_, .init⟩, fun a _ => ?_, fun a r h => ?_⟩
  · exact congrFun (Nat25Db.DbInv.table_of_nil .init) a
  · cases h

/-- What `scdb_entry` points to is refreshed, in the database and in the record. -/
theorem refresh_tracks (h : s.Inv) (jiffies : BitVec w) (hp : s.db.entry p = some e)
    (htable : s.db.table e.networkAddr = some e) :
    Nat25Db.Tracks (Function.update s.db.table e.networkAddr (some { e with ageingTimer := jiffies }))
      (s.refresh jiffies (some p)) := by
  obtain ⟨r, hr, hmac, -⟩ := h.tracks.recorded htable
  unfold refresh
  rw [Option.bind_some, hp]
  dsimp only
  rw [hr]
  exact h.tracks.update (r := { r with timer := jiffies, expired := false }) e.networkAddr hmac rfl

theorem Inv.touch (h : s.Inv) (jiffies : BitVec w) :
    Inv { db := s.db.touchScdbEntry jiffies, latest := s.refresh jiffies s.db.scdbEntry } := by
  obtain ⟨lists, hinv⟩ := h.isMap
  obtain ⟨hnext, ⟨hnone, hsame⟩ | ⟨p, e, hs, hp, htable, hup⟩⟩ := hinv.touch jiffies
  · have hlatest : s.refresh jiffies s.db.scdbEntry = s.latest := by rw [hnone]; rfl
    rw [hsame, hlatest]
    exact h
  · refine ⟨⟨lists, hnext⟩, ?_⟩
    dsimp only
    rw [hup, hs]
    exact refresh_tracks h jiffies hp htable

theorem Inv.setScdb (h : s.Inv) (jiffies : BitVec w) (mac : MacAddr) (ip : IpAddr) :
    Inv { db := s.db.setScdbEntry jiffies mac ip, latest := s.refresh jiffies (s.db.scdbFindEntry ip) } := by
  obtain ⟨lists, hinv⟩ := h.isMap
  have hlive : ∀ p, s.db.scdbFindEntry ip = some p → p ∈ s.db.live := fun p hp => hinv.find_live hp
  unfold Nat25Db.setScdbEntry
  cases hf : s.db.scdbFindEntry ip with
  | none =>
    have hnone : ∀ p, (none : Option DbPtr) = some p → p ∈ s.db.live := fun p hp => nomatch hp
    exact ⟨⟨lists, hinv.setScdb hnone s.db.scdbMac s.db.scdbIp⟩, h.tracks⟩
  | some p =>
    have hset : Inv { s with db := { s.db with scdbEntry := some p, scdbMac := mac, scdbIp := ip } } :=
      ⟨⟨lists, hinv.setScdb (by rw [← hf]; exact hlive) mac ip⟩, h.tracks⟩
    exact hset.touch jiffies

theorem Inv.next (h : s.Inv) (hz : Nat) (malloc : Malloc) (ev : Nat25Event w) : (s.next hz malloc ev).Inv := by
  obtain ⟨lists, hinv⟩ := h.isMap
  cases ev with
  | insert jiffies mac a =>
    obtain ⟨hmap, e, hmac, htimer, htable⟩ := hinv.networkInsert malloc jiffies mac a
    refine ⟨hmap, ?_⟩
    show Nat25Db.Tracks (s.db.networkInsert malloc jiffies mac a).table _
    rw [htable]
    exact h.tracks.update (r := ⟨mac, jiffies, false⟩) a hmac htimer
  | lookup jiffies a dst =>
    obtain ⟨hmap, hsame | ⟨e, n, he, hup⟩⟩ := hinv.lookup hz jiffies a dst
    · refine ⟨hmap, ?_⟩
      show Nat25Db.Tracks (s.db.lookupAndReplace hz jiffies a dst).1.table _
      rw [hsame]
      exact h.tracks
    · refine ⟨hmap, ?_⟩
      show Nat25Db.Tracks (s.db.lookupAndReplace hz jiffies a dst).1.table _
      rw [hup]
      exact h.tracks.keep he rfl rfl
  | expire jiffies =>
    have hexpire := Nat25Db.expire_tracks hz jiffies h.isMap h.tracks
    show Inv { db := s.db.expire hz jiffies, latest := fun a => (s.latest a).map _ }
    generalize s.db.expire hz jiffies = db at hexpire ⊢
    exact ⟨hexpire.1, hexpire.2⟩
  | cleanup =>
    have hempty := hinv.cleanup
    show Inv { db := s.db.cleanup, latest := fun _ => none }
    generalize s.db.cleanup = db at hempty ⊢
    refine ⟨⟨_, hempty⟩, fun a _ => ?_, fun a r hr => ?_⟩
    · exact congrFun hempty.table_of_nil a
    · cases hr
  | setScdb jiffies mac ip => exact h.setScdb jiffies mac ip
  | touchScdb jiffies => exact h.touch jiffies

/-- In every run the database is a map, and a lookup gives the address that was recorded last, unless its entry
has expired. -/
theorem isMap_run (hz : Nat) (malloc : Malloc) (evs : List (Nat25Event w)) :
    (Machine.run (next hz malloc) init evs).db.IsMap ∧ ∀ jiffies a dst,
      ((Machine.run (next hz malloc) init evs).latest a = none →
        ((Machine.run (next hz malloc) init evs).db.lookupAndReplace hz jiffies a dst).2.1 = dst) ∧
      ∀ r, (Machine.run (next hz malloc) init evs).latest a = some r →
        (nat25HasExpired hz jiffies r.timer = true →
          ((Machine.run (next hz malloc) init evs).db.lookupAndReplace hz jiffies a dst).2.1 = dst) ∧
        (nat25HasExpired hz jiffies r.timer = false →
          (((Machine.run (next hz malloc) init evs).db.lookupAndReplace hz jiffies a dst).2.1 = r.mac ∨
            r.expired = true ∧
              ((Machine.run (next hz malloc) init evs).db.lookupAndReplace hz jiffies a dst).2.1 = dst)) := by
  have hrun : (Machine.run (next hz malloc) init evs).Inv :=
    Machine.run_invariant (fun s ev h => h.next hz malloc ev) inv_init evs
  generalize Machine.run (next hz malloc) init evs = s at hrun ⊢
  obtain ⟨lists, hinv⟩ := hrun.isMap
  refine ⟨hrun.isMap, fun jiffies a dst => ?_⟩
  rw [hinv.lookup_eq]
  refine ⟨fun hnone => ?_, fun r hr => ?_⟩
  · rw [hrun.tracks.of_none a hnone]
  · rcases hrun.tracks.of_some a r hr with ⟨e, he, hmac, htimer⟩ | ⟨hnone, hexp⟩
    · rw [he]
      dsimp only
      rw [htimer, hmac]
      exact ⟨fun h => if_pos h, fun h => .inl (if_neg (by rw [h]; exact Bool.false_ne_true))⟩
    · rw [hnone]
      exact ⟨fun _ => rfl, fun _ => .inr ⟨hexp, rfl⟩⟩

end Nat25Run

end Rtw
