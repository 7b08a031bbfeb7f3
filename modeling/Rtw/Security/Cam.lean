import Rtw.Lib.Run
import Rtw.Mlme.StaMgt

/-!
# The hardware key table

`setkey_hdl` and `set_stakey_hdl` with the allocation of the entries: `cam_cache` is the driver's copy
of the table, `used` the bitmap. `consistent_run`: the two agree as long as no pairwise key is set over
a group key, since `set_stakey_hdl` frees that entry and then writes it.
-/

namespace Rtw

/-- `cam_ctl.num`: SEC_CAM_ENT_NUM_SW_LIMIT is below the 64 entries of the chips. -/
abbrev camEntNum : Nat := 32

abbrev CamId := Fin camEntNum

/-- `struct sec_cam_ent` -/
structure SecCamEnt where
  ctrl : BitVec 16
  mac : MacAddr
  key : List UInt8
  deriving DecidableEq

def nullAddr : MacAddr := .replicate 6 0

/-- An entry that was handed out for `addr`, and what it held then. -/
structure Handout where
  addr : MacAddr
  ent : SecCamEnt

/-- `cam_ctl` and `cam_cache`. `pairwise` tells of each entry whether `set_stakey_hdl` wrote it last, and
`handouts` keeps what `rtw_camid_alloc` returned; no function reads them. `hung` is a loop that does not
end. -/
structure CamCtl where
  cache : CamId → SecCamEnt
  used : CamId → Bool
  pkGkConflict : Bool
  hung : Bool
  pairwise : CamId → Bool
  handouts : List Handout

namespace CamCtl
variable (s : CamCtl)

/-- The table behind `invalidate_cam_all`. -/
def init : CamCtl where
  cache _ := ⟨0, nullAddr, .replicate 16 0⟩
  used _ := false
  pkGkConflict := false
  hung := false
  pairwise _ := false
  handouts := []

/-- The cached control word marks a valid key. -/
def valid (id : CamId) : Bool := (s.cache id).ctrl.getLsbD 15

/-- `rtw_camid_is_gk` -/
def camidIsGk (id : CamId) : Bool := s.used id && (s.cache id).ctrl.getLsbD 6

def camCacheChk (id : CamId) (addr : MacAddr) (kid : Option Nat) (gk : Option Bool) : Bool :=
  (s.cache id).mac = addr && kid.all (fun k => k = (s.cache id).ctrl.toNat % 4) &&
    gk.all fun g => g = s.camidIsGk id

/-- `rtw_camid_search` -/
def camidSearch (addr : MacAddr) (kid : Option Nat) (gk : Option Bool) : Option CamId :=
  (List.finRange camEntNum).find? fun id => s.camCacheChk id addr kid gk

def clearCamEntry (id : CamId) : CamCtl :=
  { s with
    cache := Function.update s.cache id ⟨0, nullAddr, .replicate 16 0⟩
    pairwise := Function.update s.pairwise id false }

/-- `rtw_camid_free` -/
def camidFree (id : CamId) : CamCtl := { s with used := Function.update s.used id false }

def writeCam (id : CamId) (ctrl : BitVec 16) (mac : MacAddr) (key : List UInt8) (pairwise : Bool) : CamCtl :=
  { s with
    cache := Function.update s.cache id ⟨ctrl, mac, key⟩
    pairwise := Function.update s.pairwise id pairwise }

end CamCtl

/-- The loop that clears the entries of an address, all of them or the group keys. -/
def clearLoop (addr : MacAddr) (gk : Option Bool) : Nat → CamCtl → CamCtl
  | 0, s => { s with hung := true }
  | fuel + 1, s =>
    match s.camidSearch addr none gk with
    | some id => clearLoop addr gk fuel ((s.clearCamEntry id).camidFree id)
    | none => s

/-- What the handlers find: the mode of the interface, the BSSID, whether the ciphers are WEP, and the
addresses of the known stations. -/
structure CamEnv where
  apOrAdhoc : Bool
  assocSuccess : Bool
  bssid : MacAddr
  wep : Bool
  stas : List MacAddr

/-- The address of the station that `rtw_get_stainfo` finds. -/
def CamEnv.staAddr (env : CamEnv) (addr : MacAddr) : Option MacAddr :=
  let hwaddr := if addr.isMcast then bcAddr else addr
  if hwaddr ∈ env.stas then some hwaddr else none

/-- The entry that `rtw_camid_alloc` chooses, with the address it is for; `sta` is none for a group key.
`chkBmc` is SEC_CAP_CHK_BMC. -/
def camidChoose (chkBmc : Bool) (env : CamEnv) (s : CamCtl) (sta : Option MacAddr) (kid : Nat) :
    Option (CamId × MacAddr) :=
  if env.apOrAdhoc ∧ sta = none then
    if h : kid > 3 then none
    else some (⟨kid, Nat.lt_of_le_of_lt (Nat.le_of_not_lt h) (by decide)⟩, nullAddr)
  else
    match sta <|> (if env.assocSuccess then some env.bssid else none) with
    | none => none
    | some addr =>
      match s.camidSearch addr (some kid) (if chkBmc then some sta.isNone else none) with
      | some id => some (id, addr)
      | none =>
        -- the entries below 4 are for default keys
        ((List.finRange camEntNum).find? fun id => 4 ≤ id.val && !s.used id).map fun id => (id, addr)

/-- `rtw_camid_alloc`: the entry, and whether it was in use before. -/
def rtwCamidAlloc (chkBmc : Bool) (env : CamEnv) (s : CamCtl) (sta : Option MacAddr) (kid : Nat) :
    Option (CamId × Bool) × CamCtl :=
  match camidChoose chkBmc env s sta kid with
  | none => (none, s)
  | some (id, addr) =>
    (some (id, s.used id),
      { s with
        used := Function.update s.used id true
        handouts := s.handouts ++ [⟨addr, s.cache id⟩] })

/-- `struct setkey_parm` and `struct set_stakey_parm`, whose address the first does not have. -/
structure KeyParm where
  addr : MacAddr
  algorithm : Nat
  keyid : Nat
  key : List UInt8

/-- `ctrl`, without the bit that marks a group key. -/
def KeyParm.ctrl (p : KeyParm) : BitVec 16 :=
  0x8000 ||| (BitVec.ofNat 16 p.algorithm <<< 2) ||| BitVec.ofNat 16 p.keyid

def setStakeyHdl (chkBmc : Bool) (env : CamEnv) (s : CamCtl) (p : KeyParm) : CamCtl :=
  if p.algorithm = 0 then clearLoop p.addr none (camEntNum + 1) s
  else
    match env.staAddr p.addr with
    | none => s
    | some hwaddr =>
      match rtwCamidAlloc chkBmc env s (some hwaddr) 0 with
      | (none, s) => s
      | (some (id, used), s) =>
        let s :=
          if used && s.camidIsGk id then
            clearLoop p.addr (some true) (camEntNum + 1) { s with pkGkConflict := true }
          else s
        s.writeCam id p.ctrl p.addr p.key true

/-- `setkey_hdl` up to the pairwise copy of a WEP key, and whether it comes to that. -/
def setkeyGroup (chkBmc : Bool) (env : CamEnv) (s : CamCtl) (p : KeyParm) : CamCtl × Bool :=
  match rtwCamidAlloc chkBmc env s none p.keyid with
  | (none, s) => (s, false)
  | (some (id, used), s) =>
    let addr := if id.val > 3 then env.bssid else nullAddr
    if used && !s.camidIsGk id then
      -- the entry holds a pairwise key: the group keys go, and the new one is not set
      (clearLoop addr (some true) (camEntNum + 1) { s with pkGkConflict := true }, false)
    else (s.writeCam id (p.ctrl ||| 0x40) addr p.key false, chkBmc && env.wep)

def setkeyHdl (chkBmc : Bool) (env : CamEnv) (s : CamCtl) (p : KeyParm) : CamCtl :=
  let (s, wepCopy) := setkeyGroup chkBmc env s p
  if wepCopy then setStakeyHdl chkBmc env s { p with addr := env.bssid } else s

inductive CamEvent where
  | setkey (env : CamEnv) (p : KeyParm)
  | setStakey (env : CamEnv) (p : KeyParm)
  /-- `rtw_clearstakey_cmd` without the command queue -/
  | clearStakey (addr : MacAddr)
  | invalidateCamAll

namespace CamCtl

def next (chkBmc : Bool) (s : CamCtl) (e : CamEvent) : CamCtl :=
  if s.hung then s
  else
    match e with
    | .setkey env p => setkeyHdl chkBmc env s p
    | .setStakey env p => setStakeyHdl chkBmc env s p
    | .clearStakey addr => clearLoop addr none (camEntNum + 1) s
    | .invalidateCamAll => { init with pkGkConflict := s.pkGkConflict, handouts := s.handouts }

/-- The key table is consistent. -/
structure Consistent (s : CamCtl) : Prop where
  used_of_valid : ∀ id, s.valid id → s.used id
  /-- An entry that held a key was handed out for the address of that key only. -/
  handouts : ∀ h ∈ s.handouts, h.ent.ctrl.getLsbD 15 → h.ent.mac = h.addr
  kinds : ∀ id, ¬ (s.camidIsGk id ∧ s.pairwise id)

/-- A pairwise key is not set into an entry that holds a group key of the same address, and its control
word does not mark a group key. -/
def StakeyOk (chkBmc : Bool) (env : CamEnv) (s : CamCtl) (p : KeyParm) : Prop :=
  ∀ hwaddr ∈ env.staAddr p.addr, ∀ c ∈ camidChoose chkBmc env s (some hwaddr) 0, p.algorithm ≠ 0 →
    ¬ (s.camidIsGk c.1 ∧ (s.cache c.1).mac = p.addr) ∧ p.ctrl.getLsbD 6 = false

/-- Every `set_stakey_hdl` is one that `StakeyOk` allows, also the one that `setkey_hdl` makes for a WEP
key. -/
def StepOk (chkBmc : Bool) (s : CamCtl) : CamEvent → Prop
  | .setStakey env p => StakeyOk chkBmc env s p
  | .setkey env p => (setkeyGroup chkBmc env s p).2 →
    StakeyOk chkBmc env (setkeyGroup chkBmc env s p).1 { p with addr := env.bssid }
  | _ => True

section
variable {s : CamCtl} {id j : CamId} {addr : MacAddr} {gk : Option Bool} {fuel : Nat}

/-- The cleared and freed entry, and the others. -/
structure Cleared (s t : CamCtl) : Prop where
  cases : ∀ id, (t.cache id = s.cache id ∧ t.used id = s.used id ∧ t.pairwise id = s.pairwise id) ∨
    t.cache id = ⟨0, nullAddr, .replicate 16 0⟩ ∧ t.used id = false ∧ t.pairwise id = false
  handouts : t.handouts = s.handouts

theorem Cleared.refl (s : CamCtl) : Cleared s s := ⟨fun _ => .inl ⟨rfl, rfl, rfl⟩, rfl⟩

theorem Cleared.trans {t u : CamCtl} (h : Cleared s t) (h' : Cleared t u) : Cleared s u := by
  refine ⟨fun id => ?_, h'.handouts.trans h.handouts⟩
  rcases h'.cases id with ⟨hc, hu, hp⟩ | hcl
  · rw [hc, hu, hp]
    exact h.cases id
  · exact .inr hcl

theorem cleared_one : Cleared s ((s.clearCamEntry id).camidFree id) := by
  refine ⟨fun j => ?_, rfl⟩
  rcases eq_or_ne j id with rfl | hj
  · exact .inr (by simp [clearCamEntry, camidFree])
  · exact .inl (by simp [clearCamEntry, camidFree, hj])

theorem cleared_clearLoop : Cleared s (clearLoop addr gk fuel s) := by
  induction fuel generalizing s with
  | zero => exact ⟨fun _ => .inl ⟨rfl, rfl, rfl⟩, rfl⟩
  | succ fuel ih =>
    unfold clearLoop
    split
    · exact cleared_one.trans ih
    · exact Cleared.refl s

/-- The loop leaves an entry alone that the search does not find. -/
theorem clearLoop_of_not_chk (h : s.camCacheChk j addr none gk = false) :
    (clearLoop addr gk fuel s).cache j = s.cache j ∧ (clearLoop addr gk fuel s).used j = s.used j := by
  induction fuel generalizing s with
  | zero => exact ⟨rfl, rfl⟩
  | succ fuel ih =>
    unfold clearLoop
    split
    · rename_i id hid
      have hne : j ≠ id := by
        rintro rfl
        rw [List.find?_some hid] at h
        cases h
      have hsame : ((s.clearCamEntry id).camidFree id).cache j = s.cache j ∧
          ((s.clearCamEntry id).camidFree id).used j = s.used j := by
        simp [clearCamEntry, camidFree, hne]
      obtain ⟨hc, hu⟩ := ih (s := (s.clearCamEntry id).camidFree id) (by
        rw [← h]
        unfold camCacheChk camidIsGk
        rw [hsame.1, hsame.2])
      exact ⟨hc.trans hsame.1, hu.trans hsame.2⟩
    · exact ⟨rfl, rfl⟩

end

/-! ### The invariant -/

section
variable {s t : CamCtl} {id : CamId} {chkBmc : Bool} {env : CamEnv} {sta : Option MacAddr} {kid : Nat}
  {addr : MacAddr} {p : KeyParm} {used : Bool}

structure Inv (s : CamCtl) : Prop where
  consistent : s.Consistent
  /-- The default keys have no address. -/
  low : ∀ id : CamId, id.val < 4 → (s.cache id).mac = nullAddr
  unused : ∀ id, s.used id = false → s.pairwise id = false

theorem Inv.init : Inv init where
  consistent := ⟨fun id h => absurd h (by simp [valid, CamCtl.init]), fun h hh => absurd hh (by simp [CamCtl.init]),
    fun id h => absurd h.2 (by simp [CamCtl.init])⟩
  low _ _ := rfl
  unused _ _ := rfl

theorem Inv.cleared (h : s.Inv) (hc : Cleared s t) : t.Inv := by
  refine ⟨⟨fun id hv => ?_, ?_, fun id hk => ?_⟩, fun id hid => ?_, fun id hu => ?_⟩
  · rcases hc.cases id with ⟨he, hu, -⟩ | ⟨he, -, -⟩
    · rw [valid, he] at hv
      rw [hu]
      exact h.consistent.used_of_valid id hv
    · rw [valid, he] at hv
      simp at hv
  · rw [hc.handouts]
    exact h.consistent.handouts
  · obtain ⟨hgk, hp⟩ := hk
    rcases hc.cases id with ⟨he, hu, hp'⟩ | ⟨-, -, hp'⟩
    · rw [camidIsGk, he, hu] at hgk
      rw [hp'] at hp
      exact h.consistent.kinds id ⟨hgk, hp⟩
    · rw [hp'] at hp
      cases hp
  · rcases hc.cases id with ⟨he, -, -⟩ | ⟨he, -, -⟩
    · rw [he]
      exact h.low id hid
    · rw [he]
  · rcases hc.cases id with ⟨-, hu', hp⟩ | ⟨-, -, hp⟩
    · rw [hp]
      exact h.unused id (hu' ▸ hu)
    · exact hp

/-- The entry that is chosen has the address it is for, or is one of the free ones. -/
theorem Inv.chosen (h : s.Inv) {c : CamId × MacAddr} (hc : camidChoose chkBmc env s sta kid = some c) :
    ((s.cache c.1).mac = c.2 ∨ 4 ≤ c.1.val ∧ s.used c.1 = false) ∧ ∀ a, sta = some a → c.2 = a := by
  unfold camidChoose at hc
  split at hc
  · rename_i hgroup
    split at hc
    · cases hc
    · rename_i hkid
      obtain rfl := Option.some.inj hc
      refine ⟨.inl (h.low _ (by dsimp only; omega)), fun a ha => ?_⟩
      rw [hgroup.2] at ha
      cases ha
  split at hc
  · cases hc
  rename_i addr haddr
  have hsta : ∀ a, sta = some a → addr = a := by
    rintro a rfl
    exact (Option.some.inj haddr).symm
  split at hc
  · rename_i i hi
    obtain rfl := Option.some.inj hc
    have hchk := List.find?_some hi
    simp only [camCacheChk, Bool.and_eq_true, decide_eq_true_iff] at hchk
    exact ⟨.inl hchk.1.1, hsta⟩
  · obtain ⟨i, hi, rfl⟩ := Option.map_eq_some_iff.1 hc
    have hfree := List.find?_some hi
    simp only [Bool.and_eq_true, decide_eq_true_iff, Bool.not_eq_true'] at hfree
    exact ⟨.inr hfree, hsta⟩

theorem eq_of_rtwCamidAlloc_none (ha : rtwCamidAlloc chkBmc env s sta kid = (none, t)) : t = s := by
  unfold rtwCamidAlloc at ha
  split at ha
  · exact (Prod.mk.inj ha).2.symm
  · cases ha

theorem Inv.alloc (h : s.Inv) (ha : rtwCamidAlloc chkBmc env s sta kid = (some (id, used), t)) :
    t.Inv ∧ t.cache = s.cache ∧ used = s.used id ∧ t.used id ∧
      ∃ addr, camidChoose chkBmc env s sta kid = some (id, addr) := by
  unfold rtwCamidAlloc at ha
  split at ha
  · cases ha
  rename_i i addr hc
  obtain ⟨h1, rfl⟩ := Prod.mk.inj ha
  obtain ⟨rfl, rfl⟩ := Prod.mk.inj (Option.some.inj h1)
  refine ⟨⟨⟨fun j hv => ?_, fun o ho hv => ?_, fun j hk => ?_⟩, h.low, fun j hu => ?_⟩, rfl, rfl,
    Function.update_self .., addr, hc⟩
  · rcases eq_or_ne j i with rfl | hj
    · exact Function.update_self ..
    · dsimp only
      rw [Function.update_of_ne hj]
      exact h.consistent.used_of_valid j hv
  · rcases List.mem_append.1 ho with ho | ho
    · exact h.consistent.handouts o ho hv
    · rw [List.mem_singleton.1 ho] at hv ⊢
      rcases (h.chosen hc).1 with hmac | ⟨-, hfree⟩
      · exact hmac
      · have hused := h.consistent.used_of_valid i hv
        rw [hfree] at hused
        cases hused
  · obtain ⟨hgk, hp⟩ := hk
    dsimp only [camidIsGk] at hgk hp
    cases hu : s.used j
    · rw [h.unused j hu] at hp
      cases hp
    · rw [Bool.and_eq_true] at hgk
      exact h.consistent.kinds j ⟨by rw [camidIsGk, hu]; exact hgk.2, hp⟩
  · dsimp only at hu ⊢
    rcases eq_or_ne j i with rfl | hj
    · rw [Function.update_self] at hu
      cases hu
    · rw [Function.update_of_ne hj] at hu
      exact h.unused j hu

theorem Inv.write {ctrl : BitVec 16} {key : List UInt8} {pairwise : Bool} (h : s.Inv) (hu : s.used id)
    (hlow : id.val < 4 → addr = nullAddr) (hk : ¬ (ctrl.getLsbD 6 ∧ pairwise)) :
    (s.writeCam id ctrl addr key pairwise).Inv := by
  refine ⟨⟨fun j hv => ?_, h.consistent.handouts, fun j hkj => ?_⟩, fun j hj => ?_, fun j huj => ?_⟩
  · rcases eq_or_ne j id with rfl | hj
    · exact hu
    · exact h.consistent.used_of_valid j (by simpa [valid, writeCam, hj] using hv)
  · rcases eq_or_ne j id with rfl | hj
    · refine hk ⟨?_, by simpa [writeCam] using hkj.2⟩
      have hgk := hkj.1
      simp only [camidIsGk, writeCam, Function.update_self, Bool.and_eq_true] at hgk
      exact hgk.2
    · exact h.consistent.kinds j (by simpa [camidIsGk, writeCam, hj] using hkj)
  · rcases eq_or_ne j id with rfl | hne
    · simpa [writeCam] using hlow hj
    · simpa [writeCam, hne] using h.low j hj
  · rcases eq_or_ne j id with rfl | hj
    · have : s.used j = false := huj
      rw [hu] at this
      cases this
    · simpa [writeCam, hj] using h.unused j huj

/-- The address of a station is the one it was looked for by, unless that is a group address. -/
theorem eq_nullAddr_of_staAddr (h : env.staAddr addr = some nullAddr) : addr = nullAddr := by
  unfold CamEnv.staAddr at h
  dsimp only at h
  cases hm : addr.isMcast
  · simp only [hm, Bool.false_eq_true, if_false, Option.ite_none_right_eq_some, Option.some.injEq] at h
    exact h.2
  · simp only [hm, if_true, Option.ite_none_right_eq_some, Option.some.injEq] at h
    exact absurd h.2 (by decide)

theorem Inv.setStakey (h : s.Inv) (hok : StakeyOk chkBmc env s p) : (setStakeyHdl chkBmc env s p).Inv := by
  unfold setStakeyHdl
  split
  · exact h.cleared cleared_clearLoop
  rename_i halg
  split
  · exact h
  rename_i hwaddr hsta
  split
  · rename_i u ha
    obtain rfl := eq_of_rtwCamidAlloc_none ha
    exact h
  rename_i id used t ha
  obtain ⟨ht, hcache, hused, hid, addr, hc⟩ := h.alloc ha
  obtain ⟨hno, hctrl⟩ := hok hwaddr hsta _ hc halg
  obtain ⟨hmac, haddr⟩ := h.chosen hc
  have haddr := haddr hwaddr rfl
  dsimp only at hmac haddr hno ⊢
  subst haddr
  have hlow : id.val < 4 → p.addr = nullAddr := by
    intro hlt
    rcases hmac with hmac | ⟨hge, -⟩
    · rw [h.low id hlt] at hmac
      exact eq_nullAddr_of_staAddr (hmac ▸ hsta)
    · omega
  have hk : ¬ (p.ctrl.getLsbD 6 ∧ true) := by
    rintro ⟨hbit, -⟩
    rw [hctrl] at hbit
    cases hbit
  split
  · rename_i hconf
    rw [Bool.and_eq_true] at hconf
    have hgk : s.camidIsGk id := by
      have := hconf.2
      rw [camidIsGk, hcache, hid] at this
      rw [camidIsGk, ← hused, hconf.1]
      exact this
    -- the cleared entries are not the one that is written
    have hne : (t.cache id).mac ≠ p.addr := by
      rw [hcache]
      exact fun he => hno ⟨hgk, he⟩
    have hchk : CamCtl.camCacheChk { t with pkGkConflict := true } id p.addr none (some true) = false := by
      simp [camCacheChk, hne]
    have hpk : Inv { t with pkGkConflict := true } :=
      ⟨⟨ht.consistent.used_of_valid, ht.consistent.handouts, ht.consistent.kinds⟩, ht.low, ht.unused⟩
    refine (hpk.cleared cleared_clearLoop).write ?_ hlow hk
    rw [(clearLoop_of_not_chk hchk).2]
    exact hid
  · exact ht.write hid hlow hk

theorem Inv.setkeyGroup (h : s.Inv) : (setkeyGroup chkBmc env s p).1.Inv := by
  unfold Rtw.setkeyGroup
  split
  · rename_i u ha
    obtain rfl := eq_of_rtwCamidAlloc_none ha
    exact h
  rename_i id used t ha
  obtain ⟨ht, -, -, hid, -⟩ := h.alloc ha
  dsimp only
  split
  · have hpk : Inv { t with pkGkConflict := true } :=
      ⟨⟨ht.consistent.used_of_valid, ht.consistent.handouts, ht.consistent.kinds⟩, ht.low, ht.unused⟩
    exact hpk.cleared cleared_clearLoop
  · refine ht.write hid (fun hlt => ?_) (by simp)
    rw [if_neg (by omega)]

theorem Inv.next (h : s.Inv) (e : CamEvent) (hok : s.StepOk chkBmc e) : (s.next chkBmc e).Inv := by
  unfold CamCtl.next
  split
  · exact h
  cases e with
  | setkey env p =>
    dsimp only
    unfold setkeyHdl
    dsimp only
    split
    · rename_i hcopy
      exact h.setkeyGroup.setStakey (hok hcopy)
    · exact h.setkeyGroup
  | setStakey env p => exact h.setStakey hok
  | clearStakey addr => exact h.cleared cleared_clearLoop
  | invalidateCamAll =>
    refine h.cleared ⟨fun id => .inr ⟨rfl, rfl, rfl⟩, rfl⟩

end

/-- In every run in which no pairwise key is set into an entry that holds a group key of the same
address, the key table stays consistent. -/
theorem consistent_run (chkBmc : Bool) (evs : List CamEvent)
    (hok : Machine.RunOk (next chkBmc) (StepOk chkBmc) init evs) :
    (Machine.run (next chkBmc) init evs).Consistent :=
  (Machine.run_invariant_of_ok (fun _ e h hok => h.next e hok) Inv.init hok).consistent

/-- A client of the AP `02:00:00:00:00:01`. -/
def clientEnv : CamEnv := ⟨false, true, #v[2, 0, 0, 0, 0, 1], false, [#v[2, 0, 0, 0, 0, 1]]⟩

/-- A CCMP key for that AP. -/
def ccmpKey (keyid : Nat) : KeyParm := ⟨#v[2, 0, 0, 0, 0, 1], 4, keyid, .replicate 16 1⟩

instance (chkBmc : Bool) (env : CamEnv) (s : CamCtl) (p : KeyParm) : Decidable (StakeyOk chkBmc env s p) :=
  @Option.decidableForallMem _ _ (fun hwaddr => Option.decidableForallMem (camidChoose chkBmc env s (some hwaddr) 0)) _

/-- Pairwise key and group key with different indices, replaced and cleared. -/
theorem consistent_run_client :
    (Machine.run (next false) init [.setStakey clientEnv (ccmpKey 0), .setkey clientEnv (ccmpKey 1),
      .setkey clientEnv (ccmpKey 1), .setStakey clientEnv { ccmpKey 0 with algorithm := 0 }]).Consistent := by
  refine consistent_run false _ ⟨?_, ?_, ?_, ?_, trivial⟩
  · show StakeyOk _ _ _ _
    decide +kernel
  · show _ → _
    decide +kernel
  · show _ → _
    decide +kernel
  · show StakeyOk _ _ _ _
    decide +kernel

/-- The group key has the index 0, and the pairwise key is set over it: the entry is valid and free. -/
theorem not_consistent_conflict : ¬ (Machine.run (next false) init
    [.setkey clientEnv (ccmpKey 0), .setStakey clientEnv (ccmpKey 0)]).Consistent := by
  intro h
  have hu := h.used_of_valid 4
  revert hu
  decide +kernel

end CamCtl

end Rtw
