import Mathlib.Logic.Function.Basic
import Rtw.Lib.Run
import Rtw.Mlme.StaMgt

/-!
# MAC ids

The ids under which the firmware knows the stations, one set for all interfaces: `rtw_alloc_macid` and
`rtw_release_macid` on the maps of `struct macid_ctl_t`. `MacidRun.macidOk_run`: the ids in use are those
of the stations, and nobody shares one, except that 1 is for broadcast frames of every interface.
-/

namespace Rtw

/-- `macid_ctl->num`: what the chip has, up to `MACID_NUM_SW_LIMIT`. -/
abbrev macidNum : Nat := min 128 32

abbrev ifaceIdMax : Nat := 4

/-- `struct macid_bmp`; with `MACID_NUM_SW_LIMIT` 32 there is only `m0`. -/
abbrev MacidBmp := BitVec 32

namespace MacidBmp

/-- `rtw_macid_is_set` -/
def isSet (map : MacidBmp) (id : Nat) : Bool := if id < 32 then map.getLsbD id else false

/-- `rtw_macid_map_set` -/
def set (map : MacidBmp) (id : Nat) : MacidBmp := if id < 32 then map ||| 1#32 <<< id else map

/-- `rtw_macid_map_clr` -/
def clr (map : MacidBmp) (id : Nat) : MacidBmp := if id < 32 then map &&& ~~~ (1#32 <<< id) else map

variable {map : MacidBmp} {id j : Nat}

theorem isSet_eq_true : map.isSet id = true ↔ id < 32 ∧ map.getLsbD id = true := by
  unfold isSet
  split <;> simp_all

@[simp] theorem isSet_zero : isSet 0 id = false := by
  simp [isSet]

theorem getLsbD_bit (hj : j < 32) : (1#32 <<< id).getLsbD j = decide (j = id) := by
  rw [BitVec.getLsbD_shiftLeft, BitVec.getLsbD_one, decide_eq_true hj]
  by_cases h : j = id
  · simp [h]
  · by_cases hlt : j < id
    · simp [h, hlt]
    · simp [h, hlt, show j - id ≠ 0 by omega]

theorem isSet_set : (map.set id).isSet j = true ↔ map.isSet j = true ∨ j = id ∧ id < 32 := by
  unfold set
  split
  · rename_i hid
    rw [isSet_eq_true, isSet_eq_true, BitVec.getLsbD_or]
    by_cases hj : j < 32
    · rw [getLsbD_bit hj]
      simp [hj, hid]
    · simp [hj]
      omega
  · rename_i hid
    simp [hid]

theorem isSet_clr : (map.clr id).isSet j = true ↔ map.isSet j = true ∧ j ≠ id := by
  unfold clr
  split
  · rw [isSet_eq_true, isSet_eq_true, BitVec.getLsbD_and, BitVec.getLsbD_not]
    by_cases hj : j < 32
    · rw [getLsbD_bit hj]
      simp [hj]
    · simp [hj]
  · rename_i hid
    rw [isSet_eq_true]
    refine ⟨fun h => ⟨h, by omega⟩, And.left⟩

end MacidBmp

/-- `struct macid_ctl_t` -/
structure MacidCtl where
  used : MacidBmp
  bmc : MacidBmp
  ifG : Fin ifaceIdMax → MacidBmp
  chG : Fin 2 → MacidBmp

/-- An interface. Its address has passed `rtw_check_invalid_mac_address`. -/
structure Adapter where
  ifaceId : Fin ifaceIdMax
  macAddr : MacAddr
  unicast : macAddr.isMcast = false

/-- The part of `struct sta_info` that tells its id. -/
structure MacidSta where
  hwaddr : MacAddr
  macId : Nat

def rtwAllocMacid (padapter : Adapter) (psta : MacidSta) (ctl : MacidCtl) : MacidSta × MacidCtl :=
  if psta.hwaddr = padapter.macAddr then ({ psta with macId := macidNum }, ctl)
  else if psta.hwaddr = bcAddr then
    -- the shared id for broadcast and multicast frames
    ({ psta with macId := 1 }, { ctl with
      used := ctl.used.set 1
      bmc := ctl.bmc.set 1
      ifG := Function.update ctl.ifG padapter.ifaceId ((ctl.ifG padapter.ifaceId).set 1) })
  else
    match (List.range macidNum).find? fun i => i ≠ 1 ∧ ¬ ctl.used.isSet i with
    | some i =>
      ({ psta with macId := i }, { ctl with
        used := ctl.used.set i
        ifG := Function.update ctl.ifG padapter.ifaceId ((ctl.ifG padapter.ifaceId).set i) })
    | none => ({ psta with macId := macidNum }, ctl)

def rtwReleaseMacid (padapter : Adapter) (psta : MacidSta) (ctl : MacidCtl) : MacidSta × MacidCtl :=
  if psta.hwaddr = padapter.macAddr then (psta, ctl)
  else if psta.hwaddr = bcAddr then (psta, ctl)
  else if psta.macId = 1 then (psta, ctl)
  else
    let ctl :=
      if psta.macId < macidNum then
        { used := ctl.used.clr psta.macId
          bmc := ctl.bmc.clr psta.macId
          ifG i := (ctl.ifG i).clr psta.macId
          chG i := (ctl.chG i).clr psta.macId }
      else ctl
    ({ psta with macId := macidNum }, ctl)

/-- The station entries `ι` of all interfaces get and lose their ids. An entry belongs to one interface
for good (`pallocated_stainfo_buf`). -/
inductive MacidEvent (ι : Type*) where
  /-- `rtw_alloc_stainfo` takes the entry from the free queue for a station of this address. -/
  | alloc (i : ι) (hwaddr : MacAddr)
  /-- `rtw_free_stainfo` puts it back. -/
  | release (i : ι)

/-- The maps and the entries, with those that are taken, and whether an interface has had a station for
broadcast frames. -/
structure MacidRun (ι : Type*) where
  ctl : MacidCtl
  sta : ι → MacidSta
  live : ι → Bool
  bcmc : Bool

namespace MacidRun
variable {ι : Type*}

def start : MacidRun ι where
  ctl := { used := 0, bmc := 0, ifG _ := 0, chG _ := 0 }
  sta _ := { hwaddr := .replicate 6 0, macId := 0 }
  live _ := false
  bcmc := false

/-- The id of the station, if it has one. -/
def Holds (s : MacidRun ι) (i : ι) (id : Nat) : Prop :=
  s.live i = true ∧ (s.sta i).macId = id ∧ id < macidNum

/-- The bookkeeping is right. -/
structure MacidOk (s : MacidRun ι) : Prop where
  distinct : ∀ i j id, (s.sta i).hwaddr ≠ bcAddr → (s.sta j).hwaddr ≠ bcAddr → s.Holds i id → s.Holds j id → i = j
  notShared : ∀ i, s.live i = true → (s.sta i).hwaddr ≠ bcAddr → (s.sta i).macId ≠ 1
  used : ∀ id, s.ctl.used.isSet id = true ↔ id = 1 ∧ s.bcmc = true ∨ ∃ i, s.Holds i id

variable {adapter : ι → Adapter} {s : MacidRun ι} {i : ι} {addr : MacAddr}

/-- What an entry that is taken has for an id. -/
structure Inv (adapter : ι → Adapter) (s : MacidRun ι) : Prop extends s.MacidOk where
  own : ∀ i, s.live i = true → (s.sta i).hwaddr = (adapter i).macAddr → (s.sta i).macId = macidNum
  bcmc : ∀ i, s.live i = true → (s.sta i).hwaddr = bcAddr → (s.sta i).macId = 1 ∧ s.bcmc = true

theorem macAddr_ne_bcAddr (a : Adapter) : a.macAddr ≠ bcAddr := by
  intro h
  have hm := a.unicast
  rw [h] at hm
  exact absurd hm (by decide)

theorem inv_start : (start : MacidRun ι).Inv adapter where
  distinct := by
    intro i j id _ _ hi _
    cases hi.1
  notShared := by
    intro i hi
    cases hi
  used := by
    intro id
    refine ⟨fun h => ?_, ?_⟩
    · rw [show (start : MacidRun ι).ctl.used.isSet id = false from MacidBmp.isSet_zero] at h
      cases h
    · rintro (⟨-, hb⟩ | ⟨i, hi⟩)
      · cases hb
      · cases hi.1
  own := by
    intro i hi
    cases hi
  bcmc := by
    intro i hi
    cases hi

variable [DecidableEq ι]

/-- Only an entry of the free queue is allocated, and only one that is not there is freed. -/
def next (adapter : ι → Adapter) (s : MacidRun ι) : MacidEvent ι → MacidRun ι
  | .alloc i hwaddr =>
    if s.live i then s
    else
      let (psta, ctl) := rtwAllocMacid (adapter i) { hwaddr, macId := 0 } s.ctl
      { ctl
        sta := Function.update s.sta i psta
        live := Function.update s.live i true
        bcmc := s.bcmc || hwaddr = bcAddr }
  | .release i =>
    if s.live i then
      let (psta, ctl) := rtwReleaseMacid (adapter i) (s.sta i) s.ctl
      { s with ctl, sta := Function.update s.sta i psta, live := Function.update s.live i false }
    else s

theorem holds_of_ne {t : MacidRun ι} {j : ι} {id : Nat} {psta : MacidSta} {b : Bool} (hj : j ≠ i)
    (hsta : t.sta = Function.update s.sta i psta) (hlive : t.live = Function.update s.live i b) :
    t.Holds j id ↔ s.Holds j id := by
  unfold Holds
  rw [hsta, hlive, Function.update_of_ne hj, Function.update_of_ne hj]

/-- An entry is taken with an id that is free, or with none, or for broadcast frames. -/
theorem Inv.take {ctl : MacidCtl} {macId : Nat} {b : Bool} (h : s.Inv adapter) (hlive : s.live i ≠ true)
    (hown : addr = (adapter i).macAddr → macId = macidNum)
    (hbc : addr = bcAddr → macId = 1 ∧ b = true) (hne : addr ≠ bcAddr → macId ≠ 1 ∧ s.ctl.used.isSet macId = false)
    (hb : b = (s.bcmc || decide (addr = bcAddr)))
    (hused : ∀ id, ctl.used.isSet id = true ↔ s.ctl.used.isSet id = true ∨ id = macId ∧ macId < macidNum) :
    Inv adapter { ctl, sta := Function.update s.sta i ⟨addr, macId⟩, live := Function.update s.live i true, bcmc := b } := by
  set t : MacidRun ι :=
    { ctl, sta := Function.update s.sta i ⟨addr, macId⟩, live := Function.update s.live i true, bcmc := b } with ht
  have hself : t.sta i = ⟨addr, macId⟩ := Function.update_self ..
  have hlives : t.live i = true := Function.update_self ..
  have hsta : ∀ j, j ≠ i → t.sta j = s.sta j := fun j hj => Function.update_of_ne hj ..
  have hliveo : ∀ j, j ≠ i → t.live j = s.live j := fun j hj => Function.update_of_ne hj ..
  have hother : ∀ {j id}, j ≠ i → (t.Holds j id ↔ s.Holds j id) := fun hj => holds_of_ne hj rfl rfl
  have hfresh : addr ≠ bcAddr → ∀ j, j ≠ i → ∀ id, t.Holds i id → ¬ t.Holds j id := by
    rintro haddr j hj id ⟨-, hid, hlt⟩ hjid
    rw [hself] at hid
    have hset := (h.used id).2 (.inr ⟨j, (hother hj).1 hjid⟩)
    have hnot := (hne haddr).2
    dsimp only at hid
    rw [hid, hset] at hnot
    cases hnot
  refine ⟨⟨?_, ?_, ?_⟩, ?_, ?_⟩
  · intro j k id hj hk hjid hkid
    by_cases hji : j = i <;> by_cases hki : k = i
    · rw [hji, hki]
    · subst hji
      rw [hself] at hj
      exact absurd hkid (hfresh hj k hki id hjid)
    · subst hki
      rw [hself] at hk
      exact absurd hjid (hfresh hk j hji id hkid)
    · rw [hsta j hji] at hj
      rw [hsta k hki] at hk
      exact h.distinct j k id hj hk ((hother hji).1 hjid) ((hother hki).1 hkid)
  · intro j hj haddr
    by_cases hji : j = i
    · subst hji
      rw [hself] at haddr ⊢
      exact (hne haddr).1
    · rw [hsta j hji] at haddr ⊢
      exact h.notShared j (by rwa [← hliveo j hji]) haddr
  · intro id
    have hbc' : b = true ↔ s.bcmc = true ∨ addr = bcAddr := by
      rw [hb]
      simp
    have hholds : t.Holds i id ↔ id = macId ∧ macId < macidNum := by
      unfold Holds
      rw [hself]
      constructor
      · rintro ⟨-, rfl, hlt⟩
        exact ⟨rfl, hlt⟩
      · rintro ⟨rfl, hlt⟩
        exact ⟨hlives, rfl, hlt⟩
    rw [show t.ctl = ctl from rfl, hused, h.used, show t.bcmc = b from rfl, hbc']
    constructor
    · rintro ((⟨h1, hs⟩ | ⟨j, hj⟩) | hnew)
      · exact .inl ⟨h1, .inl hs⟩
      · have hji : j ≠ i := by
          rintro rfl
          exact hlive hj.1
        exact .inr ⟨j, (hother hji).2 hj⟩
      · exact .inr ⟨i, hholds.2 hnew⟩
    · rintro (⟨h1, hs | ha⟩ | ⟨j, hj⟩)
      · exact .inl (.inl ⟨h1, hs⟩)
      · obtain ⟨hid, -⟩ := hbc ha
        exact .inr ⟨by rw [h1, hid], by rw [hid]; decide⟩
      · by_cases hji : j = i
        · subst hji
          exact .inr (hholds.1 hj)
        · exact .inl (.inr ⟨j, (hother hji).1 hj⟩)
  · intro j hj haddr
    by_cases hji : j = i
    · subst hji
      rw [hself] at haddr ⊢
      exact hown haddr
    · rw [hsta j hji] at haddr ⊢
      exact h.own j (by rwa [← hliveo j hji]) haddr
  · intro j hj haddr
    by_cases hji : j = i
    · subst hji
      rw [hself] at haddr ⊢
      exact hbc haddr
    · rw [hsta j hji] at haddr ⊢
      obtain ⟨h1, h2⟩ := h.bcmc j (by rwa [← hliveo j hji]) haddr
      exact ⟨h1, by rw [show t.bcmc = b from rfl, hb, h2]; rfl⟩

theorem Inv.alloc (h : s.Inv adapter) (hlive : s.live i ≠ true) (addr : MacAddr) :
    (s.next adapter (.alloc i addr)).Inv adapter := by
  have hnum : s.ctl.used.isSet macidNum = false := if_neg (by decide)
  unfold next rtwAllocMacid
  dsimp only
  rw [if_neg hlive]
  by_cases hown : addr = (adapter i).macAddr
  · rw [if_pos hown]
    have hbc : addr ≠ bcAddr := by
      rw [hown]
      exact macAddr_ne_bcAddr _
    exact h.take hlive (fun _ => rfl) (fun hb => absurd hb hbc) (fun _ => ⟨by decide, hnum⟩) rfl fun id => by simp
  rw [if_neg hown]
  by_cases hbc : addr = bcAddr
  · rw [if_pos hbc]
    refine h.take hlive (fun ho => absurd ho hown) (fun _ => ⟨rfl, by simp [hbc]⟩) (fun hb => absurd hbc hb) rfl
      fun id => ?_
    exact MacidBmp.isSet_set
  rw [if_neg hbc]
  split
  · rename_i id hid
    have hlt : id < macidNum := List.mem_range.1 (List.mem_of_find?_eq_some hid)
    obtain ⟨h1, hfree⟩ : id ≠ 1 ∧ ¬ s.ctl.used.isSet id = true := by simpa using List.find?_some hid
    refine h.take hlive (fun ho => absurd ho hown) (fun hb => absurd hb hbc) (fun _ => ⟨h1, by simpa using hfree⟩) rfl
      fun j => ?_
    exact MacidBmp.isSet_set
  · exact h.take hlive (fun _ => rfl) (fun hb => absurd hb hbc) (fun _ => ⟨by decide, hnum⟩) rfl fun id => by simp

/-- An entry goes whose id, if it has one, is taken back. -/
theorem Inv.drop {ctl : MacidCtl} {psta : MacidSta} (h : s.Inv adapter)
    (hused : ∀ id, ctl.used.isSet id = true ↔
      s.ctl.used.isSet id = true ∧ ((s.sta i).hwaddr ≠ bcAddr → s.Holds i id → False)) :
    Inv adapter { s with ctl, sta := Function.update s.sta i psta, live := Function.update s.live i false } := by
  set t : MacidRun ι :=
    { s with ctl, sta := Function.update s.sta i psta, live := Function.update s.live i false } with ht
  have hdead : ∀ j, t.live j = true → j ≠ i ∧ s.live j = true ∧ t.sta j = s.sta j := by
    intro j hj
    have hji : j ≠ i := by
      rintro rfl
      rw [show t.live j = false from Function.update_self ..] at hj
      cases hj
    exact ⟨hji, by rwa [← show t.live j = s.live j from Function.update_of_ne hji ..], Function.update_of_ne hji ..⟩
  have hold : ∀ {j id}, t.Holds j id → j ≠ i ∧ s.Holds j id := by
    rintro j id hj
    obtain ⟨hji, -, -⟩ := hdead j hj.1
    exact ⟨hji, (holds_of_ne hji rfl rfl).1 hj⟩
  refine ⟨⟨?_, ?_, ?_⟩, ?_, ?_⟩
  · intro j k id hj hk hjid hkid
    rw [(hdead j hjid.1).2.2] at hj
    rw [(hdead k hkid.1).2.2] at hk
    exact h.distinct j k id hj hk (hold hjid).2 (hold hkid).2
  · intro j hj haddr
    obtain ⟨-, hlive, hsta⟩ := hdead j hj
    rw [hsta] at haddr ⊢
    exact h.notShared j hlive haddr
  · intro id
    rw [show t.ctl = ctl from rfl, hused, h.used, show t.bcmc = s.bcmc from rfl]
    constructor
    · rintro ⟨hone | ⟨j, hj⟩, hnot⟩
      · exact .inl hone
      · by_cases hji : j = i
        · subst hji
          by_cases haddr : (s.sta j).hwaddr = bcAddr
          · obtain ⟨h1, h2⟩ := h.bcmc j hj.1 haddr
            exact .inl ⟨by rw [← hj.2.1, h1], h2⟩
          · exact (hnot haddr hj).elim
        · exact .inr ⟨j, (holds_of_ne hji rfl rfl).2 hj⟩
    · rintro (hone | ⟨j, hj⟩)
      · refine ⟨.inl hone, fun haddr hi => ?_⟩
        exact h.notShared i hi.1 haddr (hi.2.1.trans hone.1)
      · obtain ⟨hji, hj⟩ := hold hj
        refine ⟨.inr ⟨j, hj⟩, fun haddr hi => hji ?_⟩
        by_cases hjaddr : (s.sta j).hwaddr = bcAddr
        · exact absurd (hi.2.1.trans (hj.2.1.symm.trans (h.bcmc j hj.1 hjaddr).1)) (h.notShared i hi.1 haddr)
        · exact h.distinct j i id hjaddr haddr hj hi
  · intro j hj haddr
    obtain ⟨-, hlive, hsta⟩ := hdead j hj
    rw [hsta] at haddr ⊢
    exact h.own j hlive haddr
  · intro j hj haddr
    obtain ⟨-, hlive, hsta⟩ := hdead j hj
    rw [hsta] at haddr ⊢
    exact h.bcmc j hlive haddr

theorem Inv.release (h : s.Inv adapter) (hlive : s.live i = true) : (s.next adapter (.release i)).Inv adapter := by
  unfold next rtwReleaseMacid
  dsimp only
  rw [if_pos hlive]
  by_cases hown : (s.sta i).hwaddr = (adapter i).macAddr
  · rw [if_pos hown]
    refine h.drop fun id => ⟨fun hid => ⟨hid, fun _ hi => ?_⟩, And.left⟩
    exact absurd hi.2.2 (by rw [← hi.2.1, h.own i hlive hown]; exact lt_irrefl _)
  rw [if_neg hown]
  by_cases hbc : (s.sta i).hwaddr = bcAddr
  · rw [if_pos hbc]
    exact h.drop fun id => ⟨fun hid => ⟨hid, fun hne => absurd hbc hne⟩, And.left⟩
  rw [if_neg hbc, if_neg (h.notShared i hlive hbc)]
  dsimp only
  by_cases hlt : (s.sta i).macId < macidNum
  · rw [if_pos hlt]
    refine h.drop fun id => ?_
    dsimp only
    rw [MacidBmp.isSet_clr]
    refine and_congr_right fun _ => ⟨fun hne _ hi => hne hi.2.1.symm, fun hno he => hno hbc ⟨hlive, he.symm, ?_⟩⟩
    rwa [he]
  · rw [if_neg hlt]
    refine h.drop fun id => ⟨fun hid => ⟨hid, fun _ hi => hlt ?_⟩, And.left⟩
    rw [hi.2.1]
    exact hi.2.2

theorem Inv.next (h : s.Inv adapter) (e : MacidEvent ι) : (s.next adapter e).Inv adapter := by
  cases e with
  | alloc i addr =>
    by_cases hlive : s.live i = true
    · rwa [show s.next adapter (.alloc i addr) = s from if_pos hlive]
    · exact h.alloc hlive addr
  | release i =>
    by_cases hlive : s.live i = true
    · exact h.release hlive
    · rwa [show s.next adapter (.release i) = s from if_neg hlive]

theorem macidOk_run (adapter : ι → Adapter) (evs : List (MacidEvent ι)) :
    (Machine.run (MacidRun.next adapter) start evs).MacidOk :=
  (Machine.run_invariant (I := Inv adapter) (fun _ e h => h.next e) inv_start evs).toMacidOk

end MacidRun

end Rtw
