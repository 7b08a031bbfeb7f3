import Mathlib.Data.Finset.Dedup
import Rtw.P2p.ChEntries

/-!
# What the walks over a channel list can take

Both walks stay inside the body and the arrays exactly if the body is a country string and entries that end where it
does, with no more than 40 channels in all: `chWalksOk_iff`.
-/

namespace Rtw
open Access Traced Tlv Splice

/-- On a body of `n` bytes that is not too long for the callers' arrays, both walks return and stay inside. -/
structure ChWalksOk (chContent : Nat → UInt8) (n : Nat) (peerChList : Nat → UInt8) (bufLen : UInt32) (buf : Nat → Char) :
    Prop where
  peerReturns : ∃ fuel, (rtwP2pGetPeerChListT chContent (UInt8.ofNat n) peerChList fuel).val ≠ none
  peerInside : ∀ fuel, Within (ChListObj.size n bufLen)
    (rtwP2pGetPeerChListT chContent (UInt8.ofNat n) peerChList fuel)
  dumpReturns : ∃ fuel, (dumpP2pAttrChListT (some chContent) (UInt32.ofNat n) bufLen buf fuel).val ≠ none
  dumpInside : ∀ fuel, Within (ChListObj.size n bufLen)
    (dumpP2pAttrChListT (some chContent) (UInt32.ofNat n) bufLen buf fuel)

/-! ### Arrays that are filled from the start -/

namespace ChArray
variable {a : ChArray} {ch : UInt8} {l : List UInt8}

/-- What `dump_p2p_attr_ch_list` does with a channel. -/
def add (a : ChArray) (ch : UInt8) : ChArray := if ch ∈ a.list then a else a.put ch

@[simp] theorem length_list : a.list.length = a.cnt.toNat := length_read

theorem toNat_put (h : a.cnt.toNat < 255) : (a.put ch).cnt.toNat = a.cnt.toNat + 1 := by
  show (a.cnt + 1).toNat = _
  rw [UInt8.toNat_add]
  exact Nat.mod_eq_of_lt (by show a.cnt.toNat + 1 < 256; omega)

theorem list_put (h : a.cnt.toNat < 255) : (a.put ch).list = a.list ++ [ch] := by
  show read (Function.update a.arr a.cnt.toNat ch) 0 (a.put ch).cnt.toNat = _
  rw [toNat_put h, read_add]
  refine congrArg₂ (· ++ ·) (read_congr fun i hi => Function.update_of_ne (by omega) ch a.arr) ?_
  show [Function.update a.arr a.cnt.toNat ch (0 + a.cnt.toNat + 0)] = _
  rw [Nat.zero_add, Nat.add_zero, Function.update_self]

theorem list_foldl_put (h : a.cnt.toNat + l.length < 256) : (l.foldl put a).list = a.list ++ l := by
  induction l generalizing a with
  | nil => exact (List.append_nil _).symm
  | cons ch l ih =>
    rw [List.length_cons] at h
    rw [List.foldl_cons, ih (by rw [toNat_put (by omega)]; omega), list_put (by omega), List.append_assoc]
    rfl

/-- The list has each of the channels once. -/
structure Holds (a : ChArray) (chs : List UInt8) : Prop where
  nodup : a.list.Nodup
  toFinset : a.list.toFinset = chs.toFinset

theorem Holds.cnt {chs : List UInt8} (h : a.Holds chs) : a.cnt.toNat = chs.toFinset.card := by
  rw [← h.toFinset, List.toFinset_card_of_nodup h.nodup, length_list]

theorem Holds.add {chs : List UInt8} (h : a.Holds chs) (ch : UInt8) (hlen : chs.length < 255) : (a.add ch).Holds (chs ++ [ch]) := by
  have hcnt : a.cnt.toNat < 255 := h.cnt ▸ lt_of_le_of_lt (List.toFinset_card_le chs) hlen
  unfold ChArray.add
  split
  · case isTrue hmem =>
    refine ⟨h.nodup, ?_⟩
    rw [List.toFinset_append, ← h.toFinset]
    exact (Finset.union_eq_left.2 fun x hx => by
      rw [List.mem_toFinset, List.mem_singleton] at hx
      rw [hx]
      exact List.mem_toFinset.2 hmem).symm
  · case isFalse hmem =>
    refine ⟨?_, ?_⟩
    · rw [list_put hcnt]
      exact List.nodup_append.2 ⟨h.nodup, List.nodup_singleton ch, fun x hx y hy => by
        rw [List.mem_singleton.1 hy]
        exact fun heq => hmem (heq ▸ hx)⟩
    · rw [list_put hcnt, List.toFinset_append, List.toFinset_append, h.toFinset]

theorem Holds.foldl_add {chs : List UInt8} (h : a.Holds chs) (hlen : chs.length + l.length < 256) :
    (l.foldl ChArray.add a).Holds (chs ++ l) := by
  induction l generalizing a chs with
  | nil => rwa [List.append_nil]
  | cons ch l ih =>
    rw [List.length_cons] at hlen
    have hrest := ih (h.add ch (by omega)) (by rw [List.length_append, List.length_singleton]; omega)
    rwa [List.append_assoc] at hrest

end ChArray

/-! ### The walks -/

section
variable {chContent : Nat → UInt8} {n pos k : Nat} {bufLen : UInt32} {a : ChArray}

theorem val_peerChT : ((List.range k).foldlM (peerChT chContent pos) a).val =
    (read chContent (pos + 2) k).foldl ChArray.put a := by
  rw [val_foldlM, Splice.read, List.foldl_map]
  rfl

@[simp] theorem dumpChT_val {i : Nat} : (dumpChT chContent pos a i).val = a.add (chContent (pos + 2 + i)) := by
  unfold dumpChT ChArray.add
  rw [val_bind, val_bind]
  split <;> rfl

theorem val_dumpChT : ((List.range k).foldlM (dumpChT chContent pos) a).val =
    (read chContent (pos + 2) k).foldl ChArray.add a := by
  rw [val_foldlM, Splice.read, List.foldl_map]
  simp only [dumpChT_val]

theorem within_peerChT_iff {i : Nat} : Within (ChListObj.size n bufLen) (peerChT chContent pos a i) ↔
    pos + 2 + i < n ∧ a.cnt.toNat < 100 := by
  unfold peerChT
  rw [within_bind, within_bind, within_touch_pos Nat.one_ne_zero, within_touch_pos Nat.one_ne_zero]
  exact and_congr_right fun _ => and_iff_left within_pure

theorem inside_of_peerChT (h : Within (ChListObj.size n bufLen) ((List.range k).foldlM (peerChT chContent pos) a))
    (hk : k ≠ 0) : pos + 2 + k ≤ n := by
  have hlast := within_peerChT_iff.1 (within_foldlM_range.1 h (k - 1) (by omega))
  omega

theorem within_peerChT (hin : pos + 2 + k ≤ n) (hcnt : a.cnt.toNat + k ≤ 100) :
    Within (ChListObj.size n bufLen) ((List.range k).foldlM (peerChT chContent pos) a) := by
  refine within_foldlM_range.2 fun i hi => ?_
  have hput : ((List.range i).foldl (fun a i => (peerChT chContent pos a i).val) a).cnt.toNat = a.cnt.toNat + i := by
    have hval : ((List.range i).foldlM (peerChT chContent pos) a).val = _ := val_peerChT
    rw [val_foldlM] at hval
    rw [hval, ← ChArray.length_list, ChArray.list_foldl_put (by rw [length_read]; omega), List.length_append, length_read,
      ChArray.length_list]
  rw [within_peerChT_iff, hput]
  omega

theorem within_dumpChT_iff {i : Nat} : Within (ChListObj.size n bufLen) (dumpChT chContent pos a i) ↔
    pos + 2 + i < n ∧ min (a.list.idxOf (chContent (pos + 2 + i)) + 1) a.cnt.toNat ≤ 40 ∧
      (chContent (pos + 2 + i) ∉ a.list → a.cnt.toNat < 40) := by
  unfold dumpChT
  rw [within_bind, within_bind, within_touch_pos Nat.one_ne_zero, within_touch_zero]
  refine and_congr_right fun _ => and_congr_right fun _ => ?_
  split
  · case isTrue h => exact iff_of_true within_pure fun hnot => absurd h hnot
  · case isFalse h =>
    rw [within_bind, within_touch_pos Nat.one_ne_zero, imp_iff_right h]
    exact and_iff_left within_pure

theorem inside_of_dumpChT (h : Within (ChListObj.size n bufLen) ((List.range k).foldlM (dumpChT chContent pos) a))
    (hk : k ≠ 0) : pos + 2 + k ≤ n := by
  have hlast := within_dumpChT_iff.1 (within_foldlM_range.1 h (k - 1) (by omega))
  omega

theorem cnt_add_le {ch : UInt8} (h : a.cnt.toNat ≤ 40) (hnew : ch ∉ a.list → a.cnt.toNat < 40) :
    (a.add ch).cnt.toNat ≤ 40 := by
  unfold ChArray.add
  split
  · exact h
  · case isFalse hmem =>
    rw [ChArray.toNat_put (by omega)]
    exact hnew hmem

/-- A walk that stays inside `ch_list` does not fill more of it than there is. -/
theorem cnt_le_of_dumpChT (h : Within (ChListObj.size n bufLen) ((List.range k).foldlM (dumpChT chContent pos) a))
    (ha : a.cnt.toNat ≤ 40) : ((List.range k).foldlM (dumpChT chContent pos) a).val.cnt.toNat ≤ 40 := by
  induction k with
  | zero => exact ha
  | succ k ih =>
    rw [within_foldlM_range] at h
    have hprev := ih (within_foldlM_range.2 fun i hi => h i (by omega))
    have hlast := (within_dumpChT_iff.1 (h k (Nat.lt_succ_self k))).2.2
    rw [val_foldlM] at hprev ⊢
    rw [List.range_succ, List.foldl_append, List.foldl_cons, List.foldl_nil, dumpChT_val]
    exact cnt_add_le hprev hlast

theorem within_dumpChT {chs : List UInt8} (hin : pos + 2 + k ≤ n) (ha : a.Holds chs) (hlen : chs.length + k < 256)
    (hcard : (chs ++ read chContent (pos + 2) k).toFinset.card ≤ 40) :
    Within (ChListObj.size n bufLen) ((List.range k).foldlM (dumpChT chContent pos) a) := by
  refine within_foldlM_range.2 fun i hi => ?_
  have hval : ((List.range i).foldlM (dumpChT chContent pos) a).val = _ := val_dumpChT
  rw [val_foldlM] at hval
  rw [hval, within_dumpChT_iff]
  obtain ⟨m, rfl⟩ := Nat.exists_eq_add_of_lt hi
  rw [Nat.add_assoc, read_add, ← List.append_assoc, Nat.add_comm m, read_add] at hcard
  have hholds := ha.foldl_add (l := read chContent (pos + 2) i) (by rw [length_read]; omega)
  have hall : ∀ l ⊆ chs ++ read chContent (pos + 2) i ++ (read chContent (pos + 2 + i) 1 ++
      read chContent (pos + 2 + i + 1) m), l.toFinset.card ≤ 40 := fun l hl =>
    le_trans (Finset.card_le_card fun x hx => List.mem_toFinset.2 (hl (List.mem_toFinset.1 hx))) hcard
  have hcnt := hholds.cnt ▸ hall _ (List.subset_append_left _ _)
  refine ⟨by omega, le_trans (Nat.min_le_right _ _) hcnt, fun hnew => ?_⟩
  have hnext := (hholds.add (chContent (pos + 2 + i)) (by rw [List.length_append, length_read]; omega)).cnt
  rw [ChArray.add, if_neg hnew, ChArray.toNat_put (by omega)] at hnext
  refine Nat.lt_of_succ_le (le_of_eq_of_le hnext (hall _ fun x hx => ?_))
  rcases List.mem_append.1 hx with hx | hx
  · exact List.mem_append_left _ hx
  · refine List.mem_append_right _ (List.mem_append_left _ ?_)
    exact hx

theorem peerChRound_next {c : PeerChCur} (h : c.cnt.toNat ≠ 0) : (peerChRound chContent c).val =
    .next ⟨c.pos + (2 + (chContent (c.pos + 1)).toNat), c.cnt - 1 - (chContent (c.pos + 1) + 1),
      c.chNo + chContent (c.pos + 1),
      (read chContent (c.pos + 2) (chContent (c.pos + 1)).toNat).foldl ChArray.put c.peerChList⟩ := by
  unfold peerChRound
  rw [if_pos (show 0 < c.cnt from UInt8.lt_iff_toNat_lt.2 (Nat.pos_of_ne_zero h)), ← val_peerChT]
  rfl

theorem within_peerChRound_iff {c : PeerChCur} (h : c.cnt.toNat ≠ 0) :
    Within (ChListObj.size n bufLen) (peerChRound chContent c) ↔ c.pos + 1 < n ∧ Within (ChListObj.size n bufLen)
      ((List.range (chContent (c.pos + 1)).toNat).foldlM (peerChT chContent c.pos) c.peerChList) := by
  unfold peerChRound
  rw [if_pos (show 0 < c.cnt from UInt8.lt_iff_toNat_lt.2 (Nat.pos_of_ne_zero h)), within_bind, within_bind,
    within_touch_pos Nat.one_ne_zero]
  exact and_congr_right fun _ => and_iff_left within_pure

theorem peerChRound_stop {c : PeerChCur} (h : c.cnt.toNat = 0) : peerChRound chContent c = pure (.stop c) := by
  unfold peerChRound
  rw [if_neg fun hpos => Nat.ne_of_gt (UInt8.lt_iff_toNat_lt.1 hpos) h]

theorem peerWalk (bufLen : UInt32) : EntryWalk (ChListObj.size n bufLen) (peerChRound chContent) chContent n PeerChCur.pos
    (fun c => c.cnt.toNat) where
  stop t ht := ⟨t, by rw [peerChRound_stop ht]; rfl⟩
  next t ht := by
    refine ⟨_, peerChRound_next ht, rfl, fun hle => ?_⟩
    show (t.cnt - 1 - (chContent (t.pos + 1) + 1)).toNat = _
    simp only [UInt8.toNat_sub, UInt8.toNat_add, UInt8.toNat_one]
    have := t.cnt.toNat_lt
    omega
  inside t ht h := by
    obtain ⟨hone, hchs⟩ := (within_peerChRound_iff ht).1 h
    by_cases hk : (chContent (t.pos + 1)).toNat = 0
    · omega
    · have := inside_of_peerChT hchs hk
      omega

theorem dumpChRound_next {c : DumpChCur} (h : c.len.toNat ≠ 0) : (dumpChRound chContent c).val =
    .next ⟨c.pos + (2 + (chContent (c.pos + 1)).toNat), c.len - (2 + (chContent (c.pos + 1)).toUInt32),
      (read chContent (c.pos + 2) (chContent (c.pos + 1)).toNat).foldl ChArray.add c.chList⟩ := by
  unfold dumpChRound
  rw [if_pos (show 0 < c.len from UInt32.lt_iff_toNat_lt.2 (Nat.pos_of_ne_zero h)), ← val_dumpChT]
  rfl

theorem within_dumpChRound_iff {c : DumpChCur} (h : c.len.toNat ≠ 0) :
    Within (ChListObj.size n bufLen) (dumpChRound chContent c) ↔ c.pos + 1 < n ∧ Within (ChListObj.size n bufLen)
      ((List.range (chContent (c.pos + 1)).toNat).foldlM (dumpChT chContent c.pos) c.chList) := by
  unfold dumpChRound
  rw [if_pos (show 0 < c.len from UInt32.lt_iff_toNat_lt.2 (Nat.pos_of_ne_zero h)), within_bind, within_bind,
    within_touch_pos Nat.one_ne_zero]
  exact and_congr_right fun _ => and_iff_left within_pure

theorem dumpChRound_stop {c : DumpChCur} (h : c.len.toNat = 0) : dumpChRound chContent c = pure (.stop c) := by
  unfold dumpChRound
  rw [if_neg fun hpos => Nat.ne_of_gt (UInt32.lt_iff_toNat_lt.1 hpos) h]

theorem dumpWalk (bufLen : UInt32) : EntryWalk (ChListObj.size n bufLen) (dumpChRound chContent) chContent n DumpChCur.pos
    (fun c => c.len.toNat) where
  stop t ht := ⟨t, by rw [dumpChRound_stop ht]; rfl⟩
  next t ht := by
    refine ⟨_, dumpChRound_next ht, rfl, fun hle => ?_⟩
    show (t.len - (2 + (chContent (t.pos + 1)).toUInt32)).toNat = _
    have htwo : (2 : UInt32).toNat = 2 := rfl
    simp only [UInt32.toNat_sub, UInt32.toNat_add, UInt8.toNat_toUInt32, htwo]
    have := t.len.toNat_lt
    omega
  inside t ht h := by
    obtain ⟨hone, hchs⟩ := (within_dumpChRound_iff ht).1 h
    by_cases hk : (chContent (t.pos + 1)).toNat = 0
    · omega
    · have := inside_of_dumpChT hchs hk
      omega

end

/-! ### On a body -/

section
variable {chContent : Nat → UInt8} {n : Nat} {bufLen : UInt32} {buf : Nat → Char} {arr : Nat → UInt8}
variable {chs : List UInt8} {l l₁ : List ChEntry} {e : ChEntry}

theorem chans_append : chans (l ++ [e]) = chans l ++ e.data := by
  rw [chans, chans, List.flatMap_append, List.flatMap_singleton]

theorem length_chans_le : (chans l).length ≤ (bytes l).length := by
  induction l with
  | nil => exact Nat.le_refl _
  | cons e l ih =>
    rw [chans, List.flatMap_cons, List.length_append, length_bytes_cons]
    exact Nat.add_le_add (Nat.le_add_left _ _) ih

theorem chans_initial (h : l₁ <+: l) : (chans l₁).length ≤ (chans l).length ∧ chans l₁ ⊆ chans l := by
  obtain ⟨l₂, rfl⟩ := h
  rw [chans, chans, List.flatMap_append]
  exact ⟨by rw [List.length_append]; omega, List.subset_append_left _ _⟩

theorem prefix_cons (l₁ : List ChEntry) (e : ChEntry) (l₂ : List ChEntry) : l₁ ++ [e] <+: l₁ ++ e :: l₂ :=
  ⟨l₂, by rw [List.append_assoc]; rfl⟩

theorem chBody_iff : ChBody chContent n chs ↔
    3 ≤ n ∧ ∃ l : List ChEntry, read chContent 3 (n - 3) = bytes l ∧ chs = chans l := by
  constructor
  · rintro ⟨country, l, hcountry, hread, hchs⟩
    have hlen := congrArg List.length hread
    rw [length_read, List.length_append, hcountry] at hlen
    obtain ⟨m, rfl⟩ := Nat.exists_eq_add_of_le (show 3 ≤ n by omega)
    rw [read_add, Nat.zero_add] at hread
    refine ⟨Nat.le_add_right 3 m, l, ?_, hchs⟩
    rw [Nat.add_sub_cancel_left]
    exact (List.append_inj hread (by rw [length_read, hcountry])).2
  · rintro ⟨hn, l, hread, hchs⟩
    obtain ⟨m, rfl⟩ := Nat.exists_eq_add_of_le hn
    rw [Nat.add_sub_cancel_left] at hread
    refine ⟨read chContent 0 3, l, length_read, ?_, hchs⟩
    rw [read_add, Nat.zero_add, hread]

theorem length_chans_of_read (h : read chContent 3 (n - 3) = bytes l) : (chans l).length ≤ n - 3 := by
  refine le_of_le_of_eq length_chans_le ?_
  rw [← h, length_read]

/-- A walk from the fourth byte that stays inside goes over a body. -/
theorem EntryWalk.chBody {O σ ρ : Type} {size : O → Nat} {round : σ → Traced O (Round σ ρ)} {pos left : σ → Nat} {s : σ}
    (hw : EntryWalk size round chContent n pos left) (hpos : pos s = 3) (hleft : 3 ≤ n → left s = n - 3)
    (hshort : n < 3 → left s ≠ 0) (hin : ∀ t, Reaches round s t → Within size (round t)) :
    ∃ chs, ChBody chContent n chs := by
  by_cases hn : 3 ≤ n
  · obtain ⟨l, hl⟩ := hw.exists_entries (s := s) (by rw [hpos, hleft hn]; omega) hin
    rw [hpos, hleft hn] at hl
    exact ⟨chans l, chBody_iff.2 ⟨hn, l, hl, rfl⟩⟩
  · have := hw.inside s (hshort (by omega)) (hin s .start)
    omega

/-- The start of `rtw_p2p_get_peer_ch_list`. -/
def peerStart (n : Nat) (arr : Nat → UInt8) : PeerChCur := ⟨3, UInt8.ofNat n - 3, 0, ⟨0, arr⟩⟩

theorem toNat_peerStart : (peerStart n arr).cnt.toNat = (n + 253) % 256 := by
  show (UInt8.ofNat n - 3).toNat = _
  have hthree : (3 : UInt8).toNat = 3 := rfl
  rw [UInt8.toNat_sub, UInt8.toNat_ofNat', hthree]
  omega

/-- After some entries their channels are in the list, and both counts are their number. -/
def PeerTaken (l : List ChEntry) (c : PeerChCur) : Prop := c.peerChList.list = chans l ∧ c.chNo = c.peerChList.cnt

theorem peerTaken_step (hlen : (chans l).length < 256) (t u : PeerChCur) (ht : PeerTaken l₁ t) (hne : t.cnt.toNat ≠ 0)
    (hu : (peerChRound chContent t).val = .next u) (hpre : l₁ ++ [entryAt chContent t.pos] <+: l) :
    PeerTaken (l₁ ++ [entryAt chContent t.pos]) u := by
  rw [peerChRound_next hne] at hu
  cases hu
  obtain ⟨hlist, hno⟩ := ht
  have hle := (chans_initial hpre).1
  rw [chans_append, List.length_append, length_entryAt, ← hlist, ChArray.length_list] at hle
  have hput := ChArray.list_foldl_put (a := t.peerChList) (l := (entryAt chContent t.pos).data)
    (by rw [length_entryAt]; omega)
  refine ⟨by rw [chans_append, ← hlist]; exact hput, ?_⟩
  have hcnt := congrArg List.length hput
  rw [ChArray.length_list, List.length_append, ChArray.length_list, length_entryAt] at hcnt
  refine UInt8.toNat_inj.1 ?_
  show (t.chNo + chContent (t.pos + 1)).toNat = ((entryAt chContent t.pos).data.foldl ChArray.put t.peerChList).cnt.toNat
  rw [hcnt, hno, UInt8.toNat_add]
  exact Nat.mod_eq_of_lt (by show _ < 256; omega)

theorem peerTaken_start : PeerTaken [] (peerStart n arr) := ⟨rfl, rfl⟩

theorem toNat_peerStart_of_le (arr : Nat → UInt8) (hn : n < 256) (hthree : 3 ≤ n) : (peerStart n arr).cnt.toNat = n - 3 := by
  rw [toNat_peerStart]
  omega

theorem peerStart_add (arr : Nat → UInt8) (hn : n < 256) (hthree : 3 ≤ n) :
    (peerStart n arr).pos + (peerStart n arr).cnt.toNat = n := by
  rw [toNat_peerStart_of_le arr hn hthree]
  exact Nat.add_sub_cancel' hthree

theorem peer_reaches {t : PeerChCur} (hn : n < 256) (hthree : 3 ≤ n) (hlist : read chContent 3 (n - 3) = bytes l)
    (ht : Reaches (peerChRound chContent) (peerStart n arr) t) :
    ∃ l₁ l₂, l = l₁ ++ l₂ ∧ t.pos + t.cnt.toNat = n ∧ read chContent t.pos t.cnt.toNat = bytes l₂ ∧ PeerTaken l₁ t := by
  have hlen := length_chans_of_read hlist
  rw [← toNat_peerStart_of_le arr hn hthree] at hlist
  exact (peerWalk 0).invariant (peerStart_add arr hn hthree) hlist peerTaken_start
    (fun l₁ t u => peerTaken_step (by omega) t u) ht

theorem peer_returns (arr : Nat → UInt8) (hn : n < 256) (hthree : 3 ≤ n) (hlist : read chContent 3 (n - 3) = bytes l) :
    ∃ c, Returns (peerChRound chContent) (peerStart n arr) c ∧ PeerTaken l c := by
  have hlen := length_chans_of_read hlist
  rw [← toNat_peerStart_of_le arr hn hthree] at hlist
  obtain ⟨t, ht, hzero, htaken⟩ := (peerWalk 0).returns
    (peerStart_add arr hn hthree) hlist peerTaken_start
    (fun l₁ t u => peerTaken_step (by omega) t u)
  exact ⟨t, returns_iff.2 ⟨t, ht, by rw [peerChRound_stop hzero]; rfl⟩, htaken⟩

/-- What the function gives is the list of the channels. -/
theorem rtwP2pGetPeerChListT_eq {r : UInt8 × (Nat → UInt8)} {fuel : Nat} (hn : n < 256) (hbody : ChBody chContent n chs)
    (hr : (rtwP2pGetPeerChListT chContent (UInt8.ofNat n) arr fuel).val = some r) : read r.2 0 r.1.toNat = chs := by
  obtain ⟨hthree, l, hlist, rfl⟩ := chBody_iff.1 hbody
  obtain ⟨c, hc, htaken⟩ := peer_returns arr hn hthree hlist
  obtain ⟨c', hc', rfl⟩ := Option.map_eq_some_iff.1 hr
  obtain rfl := hc.unique ⟨fuel, hc'⟩
  rw [← htaken.1, htaken.2]
  rfl

theorem peerReturns (hn : n < 256) (hbody : ChBody chContent n chs) :
    ∃ fuel, (rtwP2pGetPeerChListT chContent (UInt8.ofNat n) arr fuel).val ≠ none := by
  obtain ⟨hthree, l, hlist, -⟩ := chBody_iff.1 hbody
  obtain ⟨c, ⟨fuel, hc⟩, -⟩ := peer_returns arr hn hthree hlist
  refine ⟨fuel, fun hnone => ?_⟩
  obtain hnone := Option.map_eq_none_iff.1 hnone
  exact absurd (hnone.symm.trans hc) (Option.some_ne_none c).symm

/-- It stays inside exactly on a body. -/
theorem peerInside_iff (hn : n ≤ 100) :
    (∀ fuel, Within (ChListObj.size n bufLen) (rtwP2pGetPeerChListT chContent (UInt8.ofNat n) arr fuel)) ↔
      ∃ chs, ChBody chContent n chs := by
  have hloop : (∀ fuel, Within (ChListObj.size n bufLen) (rtwP2pGetPeerChListT chContent (UInt8.ofNat n) arr fuel)) ↔
      ∀ fuel, Within (ChListObj.size n bufLen) (loopT (peerChRound chContent) fuel (peerStart n arr)) :=
    forall_congr' fun fuel => within_bind.trans (and_iff_left within_pure)
  rw [hloop, within_loopT_iff]
  constructor
  · intro hin
    refine (peerWalk bufLen).chBody rfl (toNat_peerStart_of_le arr (by omega)) (fun hshort => ?_) hin
    rw [toNat_peerStart]
    omega
  · rintro ⟨chs, hbody⟩ t ht
    obtain ⟨hthree, l, hlist, -⟩ := chBody_iff.1 hbody
    obtain ⟨l₁, l₂, rfl, hpos, hread, hold, -⟩ := peer_reaches (by omega) hthree hlist ht
    by_cases hzero : t.cnt.toNat = 0
    · rw [peerChRound_stop hzero]
      exact within_pure
    · obtain ⟨l₂, rfl, hle, -⟩ := exists_entryAt hread hzero
      have hlen := length_chans_of_read hlist
      have hpre := (chans_initial (prefix_cons l₁ (entryAt chContent t.pos) l₂)).1
      rw [chans_append, List.length_append, length_entryAt, ← hold, ChArray.length_list] at hpre
      exact (within_peerChRound_iff hzero).2 ⟨by omega, within_peerChT (by omega) (by omega)⟩

theorem exists_entries_in {c : PeerChCur} (hpos : c.pos + c.cnt.toNat = n) (hn : n ≤ 100)
    (hin : ∀ t, Reaches (peerChRound chContent) c t → Within (ChListObj.size 100 bufLen) (peerChRound chContent t)) :
    ∃ l : List ChEntry, read chContent c.pos c.cnt.toNat = bytes l := by
  have hw : EntryWalk (ChListObj.size 100 bufLen) (peerChRound chContent) chContent 100 PeerChCur.pos
    (fun c => c.cnt.toNat) := peerWalk bufLen
  induction hleft : c.cnt.toNat using Nat.strongRecOn generalizing c with
  | ind k ih =>
    subst hleft
    by_cases hzero : c.cnt.toNat = 0
    · exact ⟨[], by rw [hzero]; rfl⟩
    · obtain ⟨u, hu, hposu, hcntu⟩ := hw.next c hzero
      have hrest (t : PeerChCur) (ht : Reaches (peerChRound chContent) u t) := hin t (.head hu ht)
      have hstep := hw.inside c hzero (hin c .start)
      by_cases hle : 2 + (chContent (c.pos + 1)).toNat ≤ c.cnt.toNat
      · have hcntu := hcntu hle
        obtain ⟨l, hl⟩ := ih u.cnt.toNat (by omega) (by omega) hrest rfl
        refine ⟨entryAt chContent c.pos :: l, ?_⟩
        rw [bytes_cons, ← read_entryAt, ← hl, hposu, hcntu, ← read_add, Nat.add_sub_cancel' hle]
      · -- the count wraps, and is more than the array has
        rw [peerChRound_next hzero] at hu
        cases hu
        have hcnt : (c.cnt - 1 - (chContent (c.pos + 1) + 1)).toNat =
            c.cnt.toNat + 256 - (2 + (chContent (c.pos + 1)).toNat) := by
          simp only [UInt8.toNat_sub, UInt8.toNat_add, UInt8.toNat_one]
          have := c.cnt.toNat_lt
          omega
        have hmore := hw.add_le (by dsimp only; rw [hcnt]; omega) hrest
        dsimp only at hmore
        omega

/-- In an array of 100 bytes the function stays inside exactly on a body, too: what it takes to be left wraps once. -/
theorem peerRounds_in_iff (hn : n ≤ 100) :
    (∀ t, Reaches (peerChRound chContent) (peerStart n arr) t →
      Within (ChListObj.size 100 bufLen) (peerChRound chContent t)) ↔ ∃ chs, ChBody chContent n chs := by
  constructor
  · intro hin
    by_cases hthree : 3 ≤ n
    · obtain ⟨l, hl⟩ := exists_entries_in (peerStart_add arr (by omega) hthree) hn hin
      rw [toNat_peerStart_of_le arr (by omega) hthree] at hl
      exact ⟨chans l, chBody_iff.2 ⟨hthree, l, hl, rfl⟩⟩
    · have hcnt : (peerStart n arr).cnt.toNat = n + 253 := by
        rw [toNat_peerStart]
        omega
      have hw : EntryWalk (ChListObj.size 100 bufLen) (peerChRound chContent) chContent 100 PeerChCur.pos
        (fun c => c.cnt.toNat) := peerWalk bufLen
      have hmore := hw.add_le (by rw [hcnt]; omega) hin
      have hpos : (peerStart n arr).pos = 3 := rfl
      omega
  · intro hbody t ht s hs
    have hall : ∀ fuel, Within (ChListObj.size n bufLen) (rtwP2pGetPeerChListT chContent (UInt8.ofNat n) arr fuel) :=
      (peerInside_iff hn).2 hbody
    have hin := within_loopT_iff.1 (fun fuel => (within_bind.1 (hall fuel)).1) t ht
    refine (hin s hs).imp_right fun h => ⟨h.1, h.2.trans ?_⟩
    cases s.obj with
    | chContent => exact Int.ofNat_le.2 hn
    | peerChList => exact Int.le_refl _
    | chList => exact Int.le_refl _
    | buf => exact Int.le_refl _

/-- The start of `dump_p2p_attr_ch_list`. -/
def dumpStart (n : Nat) : DumpChCur := ⟨3, UInt32.ofNat n - 3, ⟨0, fun _ => 0⟩⟩

theorem toNat_dumpStart : (dumpStart n).len.toNat = (n + (2 ^ 32 - 3)) % 2 ^ 32 := by
  show (UInt32.ofNat n - 3).toNat = _
  have hthree : (3 : UInt32).toNat = 3 := rfl
  rw [UInt32.toNat_sub, UInt32.toNat_ofNat', hthree]
  omega

theorem toNat_dumpStart_of_le (hn : n ≤ 100) (hthree : 3 ≤ n) : (dumpStart n).len.toNat = n - 3 := by
  rw [toNat_dumpStart]
  omega

theorem dumpStart_add (hn : n ≤ 100) (hthree : 3 ≤ n) : (dumpStart n).pos + (dumpStart n).len.toNat = n := by
  rw [toNat_dumpStart_of_le hn hthree]
  exact Nat.add_sub_cancel' hthree

/-- After some entries each of their channels is in the list once. -/
def DumpTaken (l : List ChEntry) (c : DumpChCur) : Prop := c.chList.Holds (chans l)

theorem dumpTaken_start : DumpTaken [] (dumpStart n) := ⟨List.nodup_nil, rfl⟩

theorem dumpTaken_step (hlen : (chans l).length < 256) (t u : DumpChCur) (ht : DumpTaken l₁ t) (hne : t.len.toNat ≠ 0)
    (hu : (dumpChRound chContent t).val = .next u) (hpre : l₁ ++ [entryAt chContent t.pos] <+: l) :
    DumpTaken (l₁ ++ [entryAt chContent t.pos]) u := by
  rw [dumpChRound_next hne] at hu
  cases hu
  have hle := (chans_initial hpre).1
  unfold DumpTaken
  rw [chans_append, List.length_append] at *
  exact ht.foldl_add (by show _ + (entryAt chContent t.pos).data.length < 256; omega)

theorem dump_reaches {t : DumpChCur} (hn : n ≤ 100) (hthree : 3 ≤ n) (hlist : read chContent 3 (n - 3) = bytes l)
    (ht : Reaches (dumpChRound chContent) (dumpStart n) t) :
    ∃ l₁ l₂, l = l₁ ++ l₂ ∧ t.pos + t.len.toNat = n ∧ read chContent t.pos t.len.toNat = bytes l₂ ∧ DumpTaken l₁ t := by
  have hlen := length_chans_of_read hlist
  rw [← toNat_dumpStart_of_le hn hthree] at hlist
  exact (dumpWalk 0).invariant (dumpStart_add hn hthree) hlist dumpTaken_start
    (fun l₁ t u => dumpTaken_step (by omega) t u) ht

theorem dump_returns (hn : n ≤ 100) (hthree : 3 ≤ n) (hlist : read chContent 3 (n - 3) = bytes l) :
    ∃ c, Returns (dumpChRound chContent) (dumpStart n) c ∧ Reaches (dumpChRound chContent) (dumpStart n) c ∧
      DumpTaken l c := by
  have hlen := length_chans_of_read hlist
  rw [← toNat_dumpStart_of_le hn hthree] at hlist
  obtain ⟨t, ht, hzero, htaken⟩ := (dumpWalk 0).returns
    (dumpStart_add hn hthree) hlist dumpTaken_start
    (fun l₁ t u => dumpTaken_step (by omega) t u)
  exact ⟨t, returns_iff.2 ⟨t, ht, by rw [dumpChRound_stop hzero]; rfl⟩, ht, htaken⟩

/-- The first loop stays inside exactly on a body with no more channels than `ch_list` has room for. -/
theorem within_dumpLoop_iff (hn : n ≤ 100) :
    (∀ fuel, Within (ChListObj.size n bufLen) (loopT (dumpChRound chContent) fuel (dumpStart n))) ↔
      ∃ chs, ChBody chContent n chs ∧ chs.toFinset.card ≤ 40 := by
  rw [within_loopT_iff]
  constructor
  · intro hin
    obtain ⟨chs, hbody⟩ := (dumpWalk bufLen).chBody rfl (toNat_dumpStart_of_le hn)
      (fun hshort => by rw [toNat_dumpStart]; omega) hin
    refine ⟨chs, hbody, ?_⟩
    obtain ⟨hthree, l, hlist, rfl⟩ := chBody_iff.1 hbody
    obtain ⟨c, -, hc, htaken⟩ := dump_returns hn hthree hlist
    rw [← htaken.cnt]
    refine (hc.invariant (I := fun t => Reaches (dumpChRound chContent) (dumpStart n) t ∧ t.chList.cnt.toNat ≤ 40)
      ⟨.start, Nat.zero_le 40⟩ ?_).2
    rintro t u ⟨ht, hcnt⟩ hu
    refine ⟨.next ht hu, ?_⟩
    by_cases hzero : t.len.toNat = 0
    · rw [dumpChRound_stop hzero] at hu
      cases hu
    · have hchs := ((within_dumpChRound_iff hzero).1 (hin t ht)).2
      have hle := cnt_le_of_dumpChT hchs hcnt
      rw [val_dumpChT] at hle
      rw [dumpChRound_next hzero] at hu
      cases hu
      exact hle
  · rintro ⟨chs, hbody, hcard⟩ t ht
    obtain ⟨hthree, l, hlist, rfl⟩ := chBody_iff.1 hbody
    obtain ⟨l₁, l₂, rfl, hpos, hread, hold⟩ := dump_reaches hn hthree hlist ht
    by_cases hzero : t.len.toNat = 0
    · rw [dumpChRound_stop hzero]
      exact within_pure
    · obtain ⟨l₂, rfl, hle, -⟩ := exists_entryAt hread hzero
      have hlen := length_chans_of_read hlist
      have hpre := chans_initial (prefix_cons l₁ (entryAt chContent t.pos) l₂)
      rw [chans_append, List.length_append, length_entryAt] at hpre
      refine (within_dumpChRound_iff hzero).2 ⟨by omega, within_dumpChT (by omega) hold (by omega) ?_⟩
      exact le_trans (Finset.card_le_card fun x hx => List.mem_toFinset.2 (hpre.2 (List.mem_toFinset.1 hx))) hcard

end

/-! ### The text -/

section
variable {n j : Nat} {bufLen : UInt32} {t : ChText} {text : List Char} {a : ChArray} {s : Nat × ChText}

theorem within_snprintfT (h : t.wSz < 2 ^ 31) : Within (ChListObj.size n bufLen) (snprintfT bufLen t text) := by
  have hsize : (bufLen - UInt32.ofNat t.wSz).toNat = (2 ^ 32 - t.wSz + bufLen.toNat) % 2 ^ 32 := by
    rw [UInt32.toNat_sub, UInt32.toNat_ofNat', Nat.mod_eq_of_lt (a := t.wSz) (by omega)]
  have hlt := bufLen.toNat_lt
  unfold snprintfT
  rw [hsize]
  dsimp only
  split
  · exact within_pure
  · case isFalse hsmall =>
    rw [within_bind, within_touch_nat]
    refine ⟨?_, within_pure⟩
    show _ ∨ _ ≤ bufLen.toNat
    split
    · exact .inl rfl
    · case isFalse hpos =>
      rw [List.length_append, List.length_take, List.length_singleton]
      omega

theorem wSz_snprintfT : (snprintfT bufLen t text).val.wSz ≤ t.wSz + text.length := by
  unfold snprintfT
  dsimp only
  split
  · exact Nat.le_add_right _ _
  · exact Nat.le_refl _

theorem length_digits (p : UInt8) : (toString p.toNat).toList.length ≤ 3 := by
  have hall : ∀ k < 256, (toString k).toList.length ≤ 3 := by decide +kernel
  exact hall _ p.toNat_lt

theorem length_chText (h : chText? a j = some text) : text.length ≤ 5 := by
  have hdigits := length_digits (a.arr j)
  unfold chText? at h
  dsimp only at h
  split at h
  · cases h
    omega
  · split at h
    · cases h
      simp only [List.length_cons]
      omega
    · split at h
      · cases h
      · cases h
        simp only [List.length_cons]
        omega

/-- A round goes on to the next entry, with five more letters at most. -/
theorem printChRound_next (bufLen : UInt32) (h : s.1 < a.cnt.toNat) :
    ∃ t, (printChRound bufLen a s).val = .next (s.1 + 1, t) ∧ t.wSz ≤ s.2.wSz + 5 := by
  unfold printChRound
  rw [if_pos h]
  simp only [val_bind]
  split
  · exact ⟨s.2, rfl, Nat.le_add_right _ _⟩
  · case h_2 text htext =>
    have hlen := length_chText htext
    have hsz : (snprintfT bufLen s.2 text).val.wSz ≤ _ := wSz_snprintfT
    exact ⟨_, rfl, by omega⟩

theorem within_printChRound (hcnt : a.cnt.toNat ≤ 40) (hsz : s.2.wSz < 2 ^ 31) :
    Within (ChListObj.size n bufLen) (printChRound bufLen a s) := by
  unfold printChRound
  split
  · case isTrue h =>
    have harr : (ChListObj.chList).size n bufLen = 40 := rfl
    simp only [within_bind, within_touchIf, within_touch_pos Nat.one_ne_zero, harr]
    refine ⟨by omega, fun _ => by omega, fun hlast => by omega, ?_⟩
    split
    · exact within_pure
    · exact within_bind.2 ⟨within_snprintfT hsz, within_pure⟩
  · exact within_pure

theorem within_printLoop (hcnt : a.cnt.toNat ≤ 40) {buf : Nat → Char} {fuel : Nat} :
    Within (ChListObj.size n bufLen) (loopT (printChRound bufLen a) fuel (0, ⟨0, buf⟩)) := by
  refine within_loopT_iff.2 (fun s hs => ?_) fuel
  have hinv : s.1 ≤ a.cnt.toNat ∧ s.2.wSz ≤ 5 * s.1 := by
    refine hs.invariant (I := fun s => s.1 ≤ a.cnt.toNat ∧ s.2.wSz ≤ 5 * s.1) ⟨Nat.zero_le _, Nat.le_refl 0⟩ ?_
    rintro t u ⟨hle, hsz⟩ hu
    by_cases hlt : t.1 < a.cnt.toNat
    · obtain ⟨v, hv, hvsz⟩ := printChRound_next bufLen hlt
      rw [hv] at hu
      cases hu
      exact ⟨hlt, by show v.wSz ≤ 5 * (t.1 + 1); omega⟩
    · unfold printChRound at hu
      rw [if_neg hlt] at hu
      cases hu
  exact within_printChRound hcnt (by omega)

theorem returns_printLoop {buf : Nat → Char} : ∃ t, Returns (printChRound bufLen a) (0, ⟨0, buf⟩) t := by
  refine returns_of_measure (fun s => a.cnt.toNat - s.1) fun t u _ hu => ?_
  by_cases hlt : t.1 < a.cnt.toNat
  · obtain ⟨v, hv, -⟩ := printChRound_next bufLen hlt
    rw [hv] at hu
    cases hu
    show a.cnt.toNat - (t.1 + 1) < _
    omega
  · unfold printChRound at hu
    rw [if_neg hlt] at hu
    cases hu

end

/-! ### The whole -/

section
variable {chContent arr : Nat → UInt8} {n : Nat} {bufLen : UInt32} {buf : Nat → Char}

theorem chWalksOk_iff (hn : n ≤ 100) :
    ChWalksOk chContent n arr bufLen buf ↔ ∃ chs, ChBody chContent n chs ∧ chs.toFinset.card ≤ 40 := by
  constructor
  · intro hok
    have hloop : ∀ fuel, Within (ChListObj.size n bufLen) (loopT (dumpChRound chContent) fuel (dumpStart n)) := by
      intro fuel
      have hin := hok.dumpInside fuel
      unfold dumpP2pAttrChListT at hin
      exact (within_bind.1 hin).1
    exact (within_dumpLoop_iff hn).1 hloop
  · rintro ⟨chs, hbody, hcard⟩
    obtain ⟨hthree, l, hlist, rfl⟩ := chBody_iff.1 hbody
    obtain ⟨c, ⟨fuel, hc⟩, -, htaken⟩ := dump_returns hn hthree hlist
    refine ⟨peerReturns (by omega) hbody, (peerInside_iff hn).2 ⟨_, hbody⟩, ?_, fun fuel' => ?_⟩
    · obtain ⟨t, fuel', ht⟩ : ∃ t, Returns (printChRound bufLen c.chList) (0, ⟨0, buf⟩) t := returns_printLoop
      refine ⟨max fuel fuel', ?_⟩
      unfold dumpP2pAttrChListT
      dsimp only
      change (loopT (dumpChRound chContent) (max fuel fuel') (dumpStart n) >>= _).val ≠ none
      rw [val_bind, loopT_of_le hc (Nat.le_max_left fuel fuel')]
      dsimp only
      rw [val_bind, loopT_of_le ht (Nat.le_max_right fuel fuel')]
      exact Option.some_ne_none _
    · unfold dumpP2pAttrChListT
      refine within_bind.2 ⟨(within_dumpLoop_iff hn).2 ⟨_, hbody, hcard⟩ fuel', ?_⟩
      split
      · exact within_pure
      · case h_2 c' hr =>
        obtain rfl := Returns.unique ⟨fuel', hr⟩ ⟨fuel, hc⟩
        exact within_bind.2 ⟨within_printLoop (htaken.cnt ▸ hcard), within_pure⟩

end

end Rtw
