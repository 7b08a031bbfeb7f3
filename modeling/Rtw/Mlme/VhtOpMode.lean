import Mathlib.Data.Vector.Basic
import Mathlib.Data.List.Induction
import Mathlib.Tactic.IntervalCases
import Rtw.Recv.Frame

/-!
# Operating mode notifications

A VHT peer says with how many spatial streams it receives. `rtw_process_vht_op_mode_notify` cuts the MCS map of the peer
down to these in place, so what one notification takes away a later one does not bring back. `opModeOk_iff`: the map is
that of the association, cut down to the last number, exactly if no earlier notification has taken one of these streams,
and the last one is not ignored while the map has more.
-/

namespace Rtw

/-- `vht_mcs_map`, two bits a spatial stream. -/
abbrev McsMap := Vector UInt8 2

/-- The shifts of the inner loops. -/
def mcsShifts : List UInt8 := [0, 2, 4, 6]

def rtwVhtMcsmapToNss (pvhtMcsMap : McsMap) : Nat :=
  (List.finRange 2).foldl (fun nss i =>
    if pvhtMcsMap[i] ≠ 0xff then
      mcsShifts.foldl (fun nss j => if (pvhtMcsMap[i] >>> j) &&& 3 ≠ 3 then nss + 1 else nss) nss
    else nss) 0

def targetRate (nss i : Nat) (j curRate : UInt8) : UInt8 :=
  if curRate = 3 then 3 else if nss ≤ j.toNat / 2 + i * 4 then 3 else curRate

/-- `rtw_vht_nss_to_mcsmap`, with `target_mcs_map`. -/
def rtwVhtNssToMcsmap (nss : Nat) (curMcsMap : McsMap) : McsMap :=
  .ofFn fun i => mcsShifts.foldl (fun target j => target ||| targetRate nss i j ((curMcsMap[i] >>> j) &&& 3) <<< j) 0

/-- What the adapter allows; `bwMode` is that of the registry. -/
structure VhtAdapter where
  vhtOption : Bool
  bwCap : UInt8
  bwMode : UInt8

/-- What the notifications change of a peer. -/
structure VhtPeer where
  bwMode : UInt8
  vhtMcsMap : McsMap

/-- The bits `BW_CAP_…` of a channel width. -/
def chWidthToBwCap (bw : UInt8) : UInt8 :=
  match bw.toNat with
  | 0 => 0x04
  | 1 => 0x08
  | 2 => 0x10
  | 3 => 0x20
  | 4 => 0x40
  | _ => 0

/-- `GET_VHT_OPERATING_MODE_FIELD_CHNL_WIDTH` -/
def opModeChnlWidth (pframe : UInt8) : UInt8 := pframe &&& 3

/-- `target_rxss` -/
def targetRxss (pframe : UInt8) : Nat := ((pframe >>> 4) &&& 7).toNat + 1

/-- `rtw_process_vht_op_mode_notify`, with `update_ra`. -/
def rtwProcessVhtOpModeNotify (a : VhtAdapter) (psta : VhtPeer) (pframe : UInt8) : VhtPeer × Bool :=
  if a.vhtOption = false then (psta, false)
  else
    let targetBw := opModeChnlWidth pframe
    let newBw : Bool := targetBw ≠ psta.bwMode ∧ a.bwCap &&& chWidthToBwCap targetBw ≠ 0 ∧ a.bwMode >>> 4 ≥ targetBw
    let psta := if newBw then { psta with bwMode := targetBw } else psta
    if targetRxss pframe ≠ rtwVhtMcsmapToNss psta.vhtMcsMap then
      ({ psta with vhtMcsMap := rtwVhtNssToMcsmap (targetRxss pframe) psta.vhtMcsMap }, true)
    else (psta, newBw)

/-- A sequence of notifications. -/
def opModeRun (a : VhtAdapter) (psta : VhtPeer) (l : List UInt8) : VhtPeer :=
  l.foldl (fun psta pframe => (rtwProcessVhtOpModeNotify a psta pframe).1) psta

/-- The MCS that the map has for a stream; 3 is none. -/
def McsMap.mcs (map : McsMap) (k : Fin 8) : UInt8 :=
  (map.get ⟨k.val / 4, by omega⟩ >>> UInt8.ofNat (2 * (k.val % 4))) &&& 3

/-- `map'` is `map` for the first `nss` streams, and has no others. -/
def McsMap.Restricted (map : McsMap) (nss : Nat) (map' : McsMap) : Prop :=
  ∀ k, map'.mcs k = if k.val < nss then map.mcs k else 3

/-- The streams that a map has. -/
def McsMap.streams (map : McsMap) : List (Fin 8) := (List.finRange 8).filter fun k => map.mcs k ≠ 3

/-- A notification takes no streams away if it gives the number of those that are left. -/
def Heeds (a : VhtAdapter) (left : List (Fin 8)) (pframe : UInt8) : Prop :=
  a.vhtOption = true ∧ targetRxss pframe ≠ left.length

instance (a : VhtAdapter) (left : List (Fin 8)) (pframe : UInt8) : Decidable (Heeds a left pframe) :=
  inferInstanceAs (Decidable (_ ∧ _))

/-- The streams of `left` below the number given. -/
def streamsBelow (left : List (Fin 8)) (pframe : UInt8) : List (Fin 8) := left.filter fun k => k.val < targetRxss pframe

/-- What notifications leave of streams. -/
def streamsLeft (a : VhtAdapter) (streams : List (Fin 8)) (l : List UInt8) : List (Fin 8) :=
  l.foldl (fun left pframe => if Heeds a left pframe then streamsBelow left pframe else left) streams

section
variable {a : VhtAdapter} {p : VhtPeer} {m n : UInt8} {l : List UInt8} {map : McsMap} {nss : Nat} {k : Fin 8}

theorem fields_or_fin : ∀ r₀ r₁ r₂ r₃ : Fin 4,
    let b : UInt8 := ((((0 : UInt8) ||| UInt8.ofNat r₀.val <<< 0) ||| UInt8.ofNat r₁.val <<< 2) |||
      UInt8.ofNat r₂.val <<< 4) ||| UInt8.ofNat r₃.val <<< 6
    (b >>> 0) &&& 3 = UInt8.ofNat r₀.val ∧ (b >>> 2) &&& 3 = UInt8.ofNat r₁.val ∧
      (b >>> 4) &&& 3 = UInt8.ofNat r₂.val ∧ (b >>> 6) &&& 3 = UInt8.ofNat r₃.val := by
  decide +kernel

/-- The fields of two bits of a byte. -/
theorem fields_or {r : UInt8 → UInt8} (hr : ∀ j, (r j).toNat < 4) {q : Nat} (hq : q < 4) :
    (mcsShifts.foldl (fun b j => b ||| r j <<< j) 0 >>> UInt8.ofNat (2 * q)) &&& 3 = r (UInt8.ofNat (2 * q)) := by
  have h := fields_or_fin ⟨_, hr 0⟩ ⟨_, hr 2⟩ ⟨_, hr 4⟩ ⟨_, hr 6⟩
  simp only [UInt8.ofNat_toNat] at h
  obtain ⟨h₀, h₁, h₂, h₃⟩ := h
  interval_cases q
  · exact h₀
  · exact h₁
  · exact h₂
  · exact h₃

theorem targetRate_eq {i : Nat} {j c : UInt8} :
    targetRate nss i j c = if j.toNat / 2 + i * 4 < nss then c else 3 := by
  unfold targetRate
  by_cases hc : c = 3
  · simp [hc]
  · by_cases hn : nss ≤ j.toNat / 2 + i * 4
    · rw [if_neg hc, if_pos hn, if_neg (by omega)]
    · rw [if_neg hc, if_neg hn, if_pos (by omega)]

theorem and_three_lt (c : UInt8) : (c &&& 3).toNat < 4 := by
  rw [UInt8.toNat_and]
  exact Nat.lt_succ_of_le Nat.and_le_right

theorem mcs_nssToMcsmap : (rtwVhtNssToMcsmap nss map).mcs k = if k.val < nss then map.mcs k else 3 := by
  have hq : k.val % 4 < 4 := Nat.mod_lt _ (by decide)
  have hj : (UInt8.ofNat (2 * (k.val % 4))).toNat = 2 * (k.val % 4) := Nat.mod_eq_of_lt (by omega)
  have hk : 2 * (k.val % 4) / 2 + k.val / 4 * 4 = k.val := by omega
  unfold McsMap.mcs rtwVhtNssToMcsmap
  change ((Vector.ofFn _)[k.val / 4] >>> _) &&& 3 = _
  rw [Vector.getElem_ofFn, fields_or _ hq, targetRate_eq, hj, hk]
  · rfl
  · intro j
    rw [targetRate_eq]
    split
    · exact and_three_lt _
    · decide

theorem foldl_nss (b : UInt8) : ∀ (js : List UInt8) (c : Nat),
    js.foldl (fun nss j => if (b >>> j) &&& 3 ≠ 3 then nss + 1 else nss) c =
      c + js.countP fun j => (b >>> j) &&& 3 ≠ 3 := by
  intro js
  induction js with
  | nil => exact fun _ => rfl
  | cons j js ih =>
    intro c
    rw [List.foldl_cons, ih, List.countP_cons]
    by_cases hj : (b >>> j) &&& 3 ≠ 3
    · rw [if_pos hj, if_pos (decide_eq_true hj), Nat.add_right_comm, Nat.add_assoc]
    · rw [if_neg hj, if_neg (by simpa using hj), Nat.add_zero]

/-- The test for 0xff is only a short cut. -/
theorem nss_byte (b : UInt8) (c : Nat) :
    (if b ≠ 0xff then mcsShifts.foldl (fun nss j => if (b >>> j) &&& 3 ≠ 3 then nss + 1 else nss) c else c) =
      c + mcsShifts.countP fun j => (b >>> j) &&& 3 ≠ 3 := by
  by_cases hb : b = 0xff
  · subst hb
    rfl
  · rw [if_pos hb, foldl_nss]

theorem mcsmapToNss_eq : rtwVhtMcsmapToNss map = map.streams.length := by
  have hfin : List.finRange 8 = (List.finRange 4).map (Fin.castAdd 4) ++ (List.finRange 4).map (Fin.natAdd 4) := rfl
  have hshifts : mcsShifts = (List.finRange 4).map fun q => UInt8.ofNat (2 * q.val) := rfl
  have hl : rtwVhtMcsmapToNss map =
      0 + (mcsShifts.countP fun j => (map[(0 : Fin 2)] >>> j) &&& 3 ≠ 3) +
        mcsShifts.countP fun j => (map[(1 : Fin 2)] >>> j) &&& 3 ≠ 3 := by
    unfold rtwVhtMcsmapToNss
    simp only [nss_byte]
    rfl
  rw [hl, McsMap.streams, ← List.countP_eq_length_filter, hfin, List.countP_append, hshifts, Nat.zero_add]
  simp only [List.countP_map]
  congr 1

theorem mem_streams : k ∈ map.streams ↔ map.mcs k ≠ 3 := by simp [McsMap.streams]

theorem heeds_iff : Heeds a map.streams m ↔ a.vhtOption = true ∧ targetRxss m ≠ rtwVhtMcsmapToNss map := by
  rw [mcsmapToNss_eq]
  rfl

theorem notify_map : (rtwProcessVhtOpModeNotify a p m).1.vhtMcsMap =
    if Heeds a p.vhtMcsMap.streams m then rtwVhtNssToMcsmap (targetRxss m) p.vhtMcsMap else p.vhtMcsMap := by
  have hmap : ∀ (b : Bool) (bw : UInt8), (if b then { p with bwMode := bw } else p).vhtMcsMap = p.vhtMcsMap := by
    intro b bw
    cases b <;> rfl
  simp only [heeds_iff, rtwProcessVhtOpModeNotify, hmap]
  by_cases hv : a.vhtOption = false
  · simp [hv]
  · by_cases hn : targetRxss m ≠ rtwVhtMcsmapToNss p.vhtMcsMap
    · have hh : a.vhtOption = true ∧ targetRxss m ≠ rtwVhtMcsmapToNss p.vhtMcsMap := ⟨by simpa using hv, hn⟩
      rw [if_neg hv, if_pos hn, if_pos hh]
    · have hh : ¬(a.vhtOption = true ∧ targetRxss m ≠ rtwVhtMcsmapToNss p.vhtMcsMap) := fun h => hn h.2
      rw [if_neg hv, if_neg hn, if_neg hh, hmap]

/-- What a run of notifications has made of the map of the association: the streams that are left have their MCS. -/
def LeftOf (map : McsMap) (left : List (Fin 8)) (map' : McsMap) : Prop :=
  map'.streams = left ∧ ∀ k, map'.mcs k = if k ∈ left then map.mcs k else 3

theorem leftOf_self : LeftOf map map.streams map := by
  refine ⟨rfl, fun k => ?_⟩
  by_cases hk : k ∈ map.streams
  · rw [if_pos hk]
  · rw [if_neg hk]
    simpa [mem_streams] using hk

theorem leftOf_notify {left : List (Fin 8)} (h : LeftOf map left p.vhtMcsMap) :
    LeftOf map (if Heeds a left m then streamsBelow left m else left) (rtwProcessVhtOpModeNotify a p m).1.vhtMcsMap := by
  rw [notify_map, h.1]
  by_cases hm : Heeds a left m
  · rw [if_pos hm, if_pos hm]
    constructor
    · rw [streamsBelow, ← h.1, McsMap.streams, McsMap.streams, List.filter_filter]
      apply List.filter_congr
      intro k _
      rw [mcs_nssToMcsmap]
      by_cases hk : k.val < targetRxss m <;> simp [hk]
    · intro k
      rw [mcs_nssToMcsmap, h.2]
      by_cases hk : k.val < targetRxss m <;> simp [streamsBelow, hk]
  · rw [if_neg hm, if_neg hm]
    exact h

theorem streamsLeft_append {s : List (Fin 8)} : streamsLeft a s (l ++ [n]) =
    if Heeds a (streamsLeft a s l) n then streamsBelow (streamsLeft a s l) n else streamsLeft a s l := by
  rw [streamsLeft, List.foldl_append]
  rfl

theorem leftOf_run : LeftOf p.vhtMcsMap (streamsLeft a p.vhtMcsMap.streams l) (opModeRun a p l).vhtMcsMap := by
  induction l using List.reverseRecOn with
  | nil => exact leftOf_self
  | append_singleton l m ih =>
    rw [streamsLeft_append, opModeRun, List.foldl_append]
    exact leftOf_notify ih

/-- A stream is left if each notification that was heeded allows it. -/
theorem mem_streamsLeft {s : List (Fin 8)} : k ∈ streamsLeft a s l ↔ k ∈ s ∧
    ∀ pre m post, l = pre ++ m :: post → Heeds a (streamsLeft a s pre) m → k.val < targetRxss m := by
  induction l generalizing s with
  | nil => simp [streamsLeft]
  | cons n l ih =>
    have hstep : k ∈ (if Heeds a s n then streamsBelow s n else s) ↔ k ∈ s ∧ (Heeds a s n → k.val < targetRxss n) := by
      by_cases hn : Heeds a s n <;> simp [streamsBelow, hn]
    rw [streamsLeft, List.foldl_cons, ← streamsLeft, ih, hstep, and_assoc]
    refine and_congr_right fun _ => ⟨fun ⟨hn, hl⟩ pre m post he hm => ?_, fun h => ⟨h [] n l rfl, ?_⟩⟩
    · rcases List.cons_eq_append_iff.1 he with ⟨rfl, he⟩ | ⟨pre', rfl, rfl⟩
      · obtain ⟨rfl, -⟩ := List.cons.inj he
        exact hn hm
      · exact hl pre' m post rfl hm
    · intro pre m post he hm
      exact h (n :: pre) m post (by rw [he, List.cons_append]) hm

theorem restricted_iff {left : List (Fin 8)} {map' : McsMap} (h : LeftOf map left map') :
    map.Restricted nss map' ↔ ∀ k ∈ map.streams, (k ∈ left ↔ k.val < nss) := by
  refine forall_congr' fun k => ?_
  rw [h.2]
  by_cases hk : k ∈ map.streams
  · have h3 := mem_streams.1 hk
    by_cases hl : k ∈ left <;> by_cases hn : k.val < nss <;> simp [hk, hl, hn, h3, Ne.symm h3]
  · have h3 : map.mcs k = 3 := by simpa [mem_streams] using hk
    simp [hk, h3]

end

/-- For any map of the association, after any notifications `l` and then `n`. -/
theorem opModeOk_iff (a : VhtAdapter) (p : VhtPeer) (l : List UInt8) (n : UInt8) :
    p.vhtMcsMap.Restricted (targetRxss n) (opModeRun a p (l ++ [n])).vhtMcsMap ↔
      (∀ pre m post, l = pre ++ m :: post → Heeds a (streamsLeft a p.vhtMcsMap.streams pre) m →
        ∀ k ∈ p.vhtMcsMap.streams, targetRxss m ≤ k.val → targetRxss n ≤ k.val) ∧
      (¬Heeds a (streamsLeft a p.vhtMcsMap.streams l) n →
        ∀ k ∈ streamsLeft a p.vhtMcsMap.streams l, k.val < targetRxss n) := by
  have hlast : ∀ k, k ∈ streamsLeft a p.vhtMcsMap.streams (l ++ [n]) ↔
      k ∈ streamsLeft a p.vhtMcsMap.streams l ∧
        (Heeds a (streamsLeft a p.vhtMcsMap.streams l) n → k.val < targetRxss n) := by
    intro k
    rw [streamsLeft_append]
    by_cases hn : Heeds a (streamsLeft a p.vhtMcsMap.streams l) n <;> simp [streamsBelow, hn]
  rw [restricted_iff leftOf_run]
  constructor
  · intro h
    refine ⟨fun pre m post he hm k hk hmk => ?_, fun hn k hk => ?_⟩
    · by_contra hlt
      have hleft := ((hlast k).1 ((h k hk).2 (by omega))).1
      exact absurd ((mem_streamsLeft.1 hleft).2 pre m post he hm) (by omega)
    · exact (h k (mem_streamsLeft.1 hk).1).1 ((hlast k).2 ⟨hk, fun hh => absurd hh hn⟩)
  · rintro ⟨htaken, hignored⟩ k hk
    rw [hlast]
    constructor
    · rintro ⟨hleft, hheeded⟩
      by_cases hn : Heeds a (streamsLeft a p.vhtMcsMap.streams l) n
      · exact hheeded hn
      · exact hignored hn k hleft
    · intro hlt
      refine ⟨mem_streamsLeft.2 ⟨hk, fun pre m post he hm => ?_⟩, fun _ => hlt⟩
      by_contra hmk
      exact absurd (htaken pre m post he hm k hk (by omega)) (by omega)

/-- Two streams; one is notified, then two again. -/
def twoStreams : VhtPeer where
  bwMode := 2
  vhtMcsMap := Vector.ofFn fun i => if i.val = 0 then 0xfa else 0xff

theorem not_opModeOk : ¬ ∀ (a : VhtAdapter) (p : VhtPeer) (l : List UInt8) (n : UInt8),
    p.vhtMcsMap.Restricted (targetRxss n) (opModeRun a p (l ++ [n])).vhtMcsMap := by
  intro h
  have h1 := h ⟨true, 0x1c, 0x21⟩ twoStreams [0x02] 0x12 ⟨1, by decide⟩
  exact absurd h1 (by decide +kernel)

end Rtw
