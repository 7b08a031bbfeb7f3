import Mathlib.Data.List.Destutter
import Rtw.P2p.ChWalks
import Rtw.P2p.GoNego

/-!
# The channels that two devices have in common

What `rtw_p2p_ch_inclusion` makes of the channels of a body: `chListOk_iff`. Its search goes on where the last one
ended, so it finds all the common channels only if they stand in the order of `channel_set`, a row of the same channel
taken for one.
-/

namespace Rtw
open Access Traced Tlv Splice

/-- The outer loop of `rtw_p2p_ch_inclusion` on the channels that are left. -/
def chInclusionFrom (channelSet : List UInt8) : Nat → List UInt8 → List UInt8
  | _, [] => []
  | temp, ch :: peer =>
    match (channelSet.drop temp).findIdx? (· = ch) with
    | some j => ch :: chInclusionFrom channelSet (temp + j) peer
    | none => chInclusionFrom channelSet temp peer

/-- `rtw_p2p_ch_inclusion`: what it puts into `ch_list_inclusioned`. -/
def rtwP2pChInclusion (channelSet : List UInt8) (peerChList : Nat → UInt8) (peerChNum : UInt8) : List UInt8 :=
  chInclusionFrom channelSet 0 (read peerChList 0 peerChNum.toNat)

/-- The walks are right, and of a well-formed body exactly the channels are found that the device has, too. -/
structure ChListOk (chContent : Nat → UInt8) (n : Nat) (peerChList : Nat → UInt8) (bufLen : UInt32) (buf : Nat → Char)
    (channelSet : List UInt8) : Prop where
  walks : n ≤ 100 → ChWalksOk chContent n peerChList bufLen buf
  common : ∀ chs fuel r, n < 256 → ChBody chContent n chs →
    (rtwP2pGetPeerChListT chContent (UInt8.ofNat n) peerChList fuel).val = some r →
      rtwP2pChInclusion channelSet r.2 r.1 = chs.filter (· ∈ channelSet)

/-! ### The channels in common -/

section
variable {channelSet peer t s s' u v : List UInt8} {temp : Nat} {ch : UInt8}

theorem destutter'_head (l : List UInt8) (ch : UInt8) : ∃ t, l.destutter' (· ≠ ·) ch = ch :: t := by
  induction l with
  | nil => exact ⟨[], rfl⟩
  | cons c l ih =>
    by_cases h : ch ≠ c
    · exact ⟨_, List.destutter'_cons_pos l h⟩
    · rw [List.destutter'_cons_neg l h]
      exact ih

/-- A list is found behind what does not have its first element. -/
theorem cons_sublist_append_iff (h : ch ∉ u) : (ch :: t).Sublist (u ++ v) ↔ (ch :: t).Sublist v := by
  induction u with
  | nil => exact Iff.rfl
  | cons c u ih =>
    obtain ⟨hne, hu⟩ := not_or.1 (List.mem_cons.not.1 h)
    rw [← ih hu, List.cons_append]
    exact ⟨fun hsub => hsub.of_cons_of_ne hne, fun hsub => hsub.cons c⟩

/-- The channel that was found last is not needed again, but may be taken again. -/
theorem destutter_cons_sublist_iff :
    ((ch :: t).destutter (· ≠ ·)).Sublist (ch :: s') ↔ (t.destutter (· ≠ ·)).Sublist (ch :: s') := by
  cases t with
  | nil => exact iff_of_true (List.cons_sublist_cons.2 (List.nil_sublist s')) (List.nil_sublist _)
  | cons c t =>
    rw [List.destutter_cons', List.destutter_cons']
    by_cases hne : ch ≠ c
    · obtain ⟨r, hr⟩ := destutter'_head t c
      rw [List.destutter'_cons_pos t hne, List.cons_sublist_cons, hr]
      exact (cons_sublist_append_iff (u := [ch]) fun h => hne (List.mem_singleton.1 h).symm).symm
    · rw [List.destutter'_cons_neg t hne, not_not.1 hne]

theorem filter_common_cons (h : ch ∈ channelSet) :
    (ch :: peer).filter (· ∈ channelSet) = ch :: peer.filter (· ∈ channelSet) := by
  rw [List.filter_cons, if_pos (decide_eq_true h)]

theorem chInclusionFrom_sublist : (chInclusionFrom channelSet temp peer).Sublist (peer.filter (· ∈ channelSet)) := by
  induction peer generalizing temp with
  | nil => exact List.Sublist.refl _
  | cons ch peer ih =>
    unfold chInclusionFrom
    split
    · case h_1 j hj =>
      have hmem : ch ∈ channelSet := by
        obtain ⟨hlt, hp, -⟩ := List.findIdx?_eq_some_iff_getElem.1 hj
        exact List.mem_of_mem_drop (of_decide_eq_true hp ▸ List.getElem_mem hlt)
      rw [filter_common_cons hmem]
      exact List.cons_sublist_cons.2 ih
    · exact ih.trans ((List.sublist_cons_self ch peer).filter _)

/-- All the common channels are found exactly if they stand in the rest of `channel_set` in their order. -/
theorem chInclusionFrom_eq_iff : chInclusionFrom channelSet temp peer = peer.filter (· ∈ channelSet) ↔
    ((peer.filter (· ∈ channelSet)).destutter (· ≠ ·)).Sublist (channelSet.drop temp) := by
  induction peer generalizing temp with
  | nil => exact iff_of_true rfl (List.nil_sublist _)
  | cons ch peer ih =>
    unfold chInclusionFrom
    split
    · case h_1 j hj =>
      obtain ⟨hlt, hp, hbefore⟩ := List.findIdx?_eq_some_iff_getElem.1 hj
      have hch : (channelSet.drop temp)[j] = ch := of_decide_eq_true hp
      have hmem : ch ∈ channelSet := List.mem_of_mem_drop (hch ▸ List.getElem_mem hlt)
      have hdrop : channelSet.drop (temp + j) = ch :: (channelSet.drop temp).drop (j + 1) := by
        rw [← List.drop_drop, List.drop_eq_getElem_cons hlt, hch]
      have hnot : ch ∉ (channelSet.drop temp).take j := by
        intro hin
        obtain ⟨i, hi, hget⟩ := List.getElem_of_mem hin
        rw [List.length_take] at hi
        rw [List.getElem_take] at hget
        exact hbefore i (by omega) (decide_eq_true hget)
      rw [filter_common_cons hmem, List.cons_inj_right, ih, hdrop, ← destutter_cons_sublist_iff]
      obtain ⟨r, hr⟩ := destutter'_head (peer.filter (· ∈ channelSet)) ch
      rw [List.destutter_cons', hr, ← cons_sublist_append_iff hnot, ← hdrop, ← List.drop_drop, List.take_append_drop]
    · case h_2 hnone =>
      by_cases hmem : ch ∈ channelSet
      · rw [filter_common_cons hmem]
        refine iff_of_false (fun heq => ?_) fun hsub => ?_
        · have hsub : (chInclusionFrom channelSet temp peer).Sublist _ := chInclusionFrom_sublist
          have hle := hsub.length_le
          rw [heq, List.length_cons] at hle
          omega
        · rw [List.destutter_cons'] at hsub
          have hin := hsub.mem (List.mem_destutter' _ _ _)
          exact absurd (decide_eq_true rfl) (by
            have := List.findIdx?_eq_none_iff.1 hnone ch hin
            rw [this]
            exact Bool.false_ne_true)
      · rw [List.filter_cons, if_neg (by rw [decide_eq_true_eq]; exact hmem)]
        exact ih

/-- The search of the negotiation drops what is before the channel. -/
theorem dropWhile_toNat (s : List UInt8) (ch : UInt8) : (s.map UInt8.toNat).dropWhile (· != ch.toNat) =
    (s.drop (s.findIdx (· = ch))).map UInt8.toNat := by
  rw [List.dropWhile_map, List.dropWhile_eq_drop_findIdx_not]
  congr 3
  funext c
  by_cases h : c = ch
  · simp [h]
  · simp [h, UInt8.toNat_inj]

theorem chInclusionFrom_toNat : (chInclusionFrom channelSet temp peer).map UInt8.toNat =
    chInclusion ((channelSet.drop temp).map UInt8.toNat) (peer.map UInt8.toNat) := by
  induction peer generalizing temp with
  | nil => rfl
  | cons ch peer ih =>
    unfold chInclusionFrom
    rw [List.map_cons, chInclusion, dropWhile_toNat]
    split
    · case h_1 j hj =>
      obtain ⟨hlt, hidx⟩ := List.findIdx?_eq_some_iff_findIdx_eq.1 hj
      obtain ⟨_, hp, _⟩ := List.findIdx?_eq_some_iff_getElem.1 hj
      have hdrop : ((channelSet.drop temp).drop j).map UInt8.toNat =
          ch.toNat :: ((channelSet.drop temp).drop (j + 1)).map UInt8.toNat := by
        rw [List.drop_eq_getElem_cons hlt, of_decide_eq_true hp, List.map_cons]
      rw [hidx, hdrop]
      dsimp only
      rw [List.map_cons, ih, ← List.drop_drop, hdrop]
    · case h_2 hnone =>
      rw [List.findIdx?_eq_none_iff_findIdx_eq.1 hnone, List.drop_length]
      exact ih

end

/-- A body is handled right exactly if it is a country string and entries with no more than 40 channels in all, and the
channels that the device has stand in the order of `channel_set`. -/
theorem chListOk_iff (chContent : Nat → UInt8) (n : Nat) (peerChList : Nat → UInt8) (bufLen : UInt32) (buf : Nat → Char)
    (channelSet : List UInt8) : ChListOk chContent n peerChList bufLen buf channelSet ↔
      (n ≤ 100 → ∃ chs, ChBody chContent n chs ∧ chs.toFinset.card ≤ 40) ∧
        ∀ chs, n < 256 → ChBody chContent n chs →
          ((chs.filter (· ∈ channelSet)).destutter (· ≠ ·)).Sublist channelSet := by
  have hcommon {chs : List UInt8} {fuel : Nat} {r : UInt8 × (Nat → UInt8)} (hn : n < 256)
      (hbody : ChBody chContent n chs)
      (hr : (rtwP2pGetPeerChListT chContent (UInt8.ofNat n) peerChList fuel).val = some r) :
      rtwP2pChInclusion channelSet r.2 r.1 = chs.filter (· ∈ channelSet) ↔
        ((chs.filter (· ∈ channelSet)).destutter (· ≠ ·)).Sublist channelSet := by
    rw [rtwP2pChInclusion, rtwP2pGetPeerChListT_eq hn hbody hr]
    exact chInclusionFrom_eq_iff
  constructor
  · rintro ⟨hwalks, hinc⟩
    refine ⟨fun hn => (chWalksOk_iff hn).1 (hwalks hn), fun chs hn hbody => ?_⟩
    obtain ⟨fuel, hret⟩ := peerReturns hn hbody
    obtain ⟨r, hr⟩ := Option.ne_none_iff_exists'.1 hret
    exact (hcommon hn hbody hr).1 (hinc chs fuel r hn hbody hr)
  · rintro ⟨hwalks, hinc⟩
    exact ⟨fun hn => (chWalksOk_iff hn).2 (hwalks hn),
      fun chs fuel r hn hbody hr => (hcommon hn hbody hr).2 (hinc chs hn hbody)⟩

/-- A body with operating classes 116 and 117. -/
def chBody40 : Nat → UInt8 := fun i => ([85, 83, 4, 116, 2, 36, 44, 117, 2, 40, 48] : List UInt8).getD i 0

/-- Channel 40 is not found behind 44. -/
theorem not_chListOk_40 : ¬ ∀ (chContent : Nat → UInt8) (n : Nat) (peerChList : Nat → UInt8) (bufLen : UInt32)
    (buf : Nat → Char) (channelSet : List UInt8), ChListOk chContent n peerChList bufLen buf channelSet := by
  intro h
  have hbody : ChBody chBody40 11 [36, 44, 40, 48] :=
    ⟨[85, 83, 4], [⟨116, [36, 44], by decide⟩, ⟨117, [40, 48], by decide⟩], rfl, rfl, rfl⟩
  have hinc := (h chBody40 11 (fun _ => 0) 128 (fun _ => ' ') [36, 40, 44, 48]).common _ 3 _ (by decide) hbody rfl
  exact absurd hinc (by decide)

end Rtw
