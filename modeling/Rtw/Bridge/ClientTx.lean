import Mathlib.Algebra.Group.Nat.Defs
import Rtw.Bridge.Nat25Map

/-!
# Bridge clients

A frame of a bridge client goes out under the address of this station; one that comes in gets the address
of the client it is for. `rtw_br_client_tx` and `nat25_handle_frame` take a shortcut for one client: on the
way out it goes by the hardware address (`scdb_mac`) and records nothing, on the way in by the IP address
(`scdb_ip`). `BrAdapter.StepOk` says when a frame leaves the shortcut and the database agreeing with what
has been sent (`BrAdapter.answersOk_run`).
-/

namespace Rtw

/-- An IPv4 frame with a header that ends within it. `len` is without a VLAN tag. -/
structure IpFrame where
  dst : MacAddr
  src : MacAddr
  vlan : Bool
  ihl : Nat
  len : Nat
  saddr : IpAddr
  daddr : IpAddr
  ihl_lt : 4 * ihl < len

/-- What the kernel and the device are set up with. -/
structure BrEnv where
  /-- The width of `unsigned long`. -/
  w : Nat
  /-- `HZ` -/
  hz : Nat
  malloc : Malloc
  /-- The address of this station. -/
  hwaddr : MacAddr
  /-- The address of the bridge device, if there is one. -/
  brNetdev : Option MacAddr
  hz_pos : 0 < hz
  ageing_lt : nat25AgeingTime * hz < 2 ^ (w - 1)

/-- The adapter in a bridge, `nat25_disable` and `nat25sc_disable` being 0. -/
structure BrAdapter (env : BrEnv) where
  db : Nat25Db env.w
  brMac : MacAddr
  brIp : IpAddr
  jiffies : BitVec env.w

def zeroMac : MacAddr := .replicate 6 0

def zeroIp : IpAddr := .replicate 4 0

def broadcastMac : MacAddr := .replicate 6 0xff

namespace BrAdapter
variable {env : BrEnv}

def netdevBrInit (s : BrAdapter env) : BrAdapter env := { s with brMac := env.brNetdev.getD s.brMac }

/-- `nat25_db_handle` with `NAT25_INSERT` -/
def nat25DbInsert (s : BrAdapter env) (f : IpFrame) : BrAdapter env × Int :=
  if 4 * f.ihl ≥ f.len then (s, -1)
  else if f.saddr = zeroIp then (s, 0)
  else
    ({ s with db := s.db.networkInsert env.malloc s.jiffies f.src (nat25GenerateIpv4NetworkAddr f.saddr) }, 0)

/-- `nat25_db_handle` with `NAT25_LOOKUP` -/
def nat25DbLookup (s : BrAdapter env) (f : IpFrame) : BrAdapter env × IpFrame :=
  if 4 * f.ihl ≥ f.len then (s, f)
  else
    let (db, dst, found) := s.db.lookupAndReplace env.hz s.jiffies (nat25GenerateIpv4NetworkAddr f.daddr) f.dst
    let s := { s with db }
    if found then (s, { f with dst })
    else if f.daddr.get (Fin.last 3) = 0xff then (s, { f with dst := broadcastMac })
    else
      let s := if s.brMac = zeroMac then s.netdevBrInit else s
      (s, { f with dst := s.brMac })

/-- The part of `rtw_br_client_tx` that looks after the shortcut, with `do_nat25`. -/
def scdbStep (s : BrAdapter env) (f : IpFrame) : BrAdapter env × Bool :=
  if s.db.scdbMac ≠ f.src then
    let s := { s with db := s.db.setScdbEntry s.jiffies f.src f.saddr }
    (s, s.db.scdbEntry = none)
  else if s.db.scdbEntry ≠ none then ({ s with db := s.db.touchScdbEntry s.jiffies }, false)
  else ({ s with db := { s.db with scdbMac := zeroMac, scdbIp := zeroIp } }, true)

/-- `rtw_br_client_tx`, which `rtw_xmit` calls when there is a bridge port, with the frame to be sent. What
`dhcp_flag_bcast` changes in a DHCP request is left out. -/
def rtwBrClientTx (s : BrAdapter env) (f : IpFrame) : BrAdapter env × IpFrame :=
  if !f.dst.isMcast ∧ f.src ≠ s.brMac ∧ !f.vlan ∧ s.db.scdbMac = f.src ∧ s.db.scdbEntry ≠ none then
    ({ s with db := s.db.touchScdbEntry s.jiffies }, { f with src := env.hwaddr })
  else
    let s := if f.src = s.brMac then { s with brIp := f.saddr } else s
    let (s, doNat25) := s.scdbStep f
    if doNat25 then
      let (s, res) := s.nat25DbInsert f
      if res < 0 then (s, f) else (s, { f with src := env.hwaddr })
    else (s, { f with src := env.hwaddr })

def nat25HandleFrame (s : BrAdapter env) (f : IpFrame) : BrAdapter env × IpFrame :=
  if f.dst.isMcast then (s, f)
  else if s.db.scdbIp = f.daddr then (s, { f with dst := s.db.scdbMac })
  else s.nat25DbLookup f

/-- What the database gives for an address, without the shortcut. -/
def dbAnswer (s : BrAdapter env) (ip : IpAddr) : MacAddr :=
  match s.db.table (nat25GenerateIpv4NetworkAddr ip) with
  | some e => e.macAddr
  | none =>
    if ip.get (Fin.last 3) = 0xff then broadcastMac
    else if s.brMac = zeroMac then env.brNetdev.getD s.brMac else s.brMac

/-- No entry is too old. -/
def NoneExpired (s : BrAdapter env) : Prop :=
  ∀ p ∈ s.db.live, ∀ e ∈ s.db.entry p, nat25HasExpired env.hz s.jiffies e.ageingTimer = false

instance (s : BrAdapter env) : Decidable s.NoneExpired :=
  @Finset.decidableDforallFinset _ _ _ fun p _ => Option.decidableForallMem (s.db.entry p)

/-- Time goes on, but no entry ages out. -/
def tick (s : BrAdapter env) (n : Nat) : BrAdapter env :=
  let t := { s with jiffies := s.jiffies + BitVec.ofNat env.w n }
  if t.NoneExpired then t else s

def init (brMac : MacAddr) (jiffies : BitVec env.w) : BrAdapter env := ⟨.init, brMac, zeroIp, jiffies⟩

end BrAdapter

/-- The adapter, and beside it which client has sent last from an address. -/
structure BrRun (env : BrEnv) extends BrAdapter env where
  lastTx : IpAddr → Option MacAddr

inductive BrEvent where
  | tx (f : IpFrame)
  | rx (f : IpFrame)
  | tick (n : Nat)

namespace BrRun
variable {env : BrEnv}

def init (brMac : MacAddr) (jiffies : BitVec env.w) : BrRun env := ⟨.init brMac jiffies, fun _ => none⟩

def next (s : BrRun env) : BrEvent → BrRun env
  | .tx f => ⟨(s.rtwBrClientTx f).1, Function.update s.lastTx f.saddr (some f.src)⟩
  | .rx f => ⟨(s.nat25HandleFrame f).1, s.lastTx⟩
  | .tick n => ⟨s.toBrAdapter.tick n, s.lastTx⟩

/-- A frame for an address goes to the client that has sent last from it. -/
def AnswersOk (s : BrRun env) : Prop :=
  ∀ f : IpFrame, f.dst.isMcast = false → ∀ m, s.lastTx f.daddr = some m → (s.nat25HandleFrame f).2.dst = m

/-- The database gives what the shortcut gives for its address, unless no frame has come from there. -/
def ScdbRecorded (s : BrRun env) : Prop :=
  s.lastTx s.db.scdbIp = none ∨ s.dbAnswer s.db.scdbIp = s.db.scdbMac

/-- A frame that takes the shortcut comes from its address or from one that is recorded with the client; a
frame that ends the shortcut for its address finds that recorded, too. The address 0.0.0.0 is never
recorded. -/
def StepOk (s : BrRun env) : BrEvent → Prop
  | .tx f =>
    if s.db.scdbMac = f.src then
      if s.db.scdbEntry ≠ none then s.db.scdbIp = f.saddr ∨ s.dbAnswer f.saddr = f.src
      else (s.db.scdbIp = f.saddr ∨ s.db.scdbIp = zeroIp ∨ s.ScdbRecorded) ∧
        ∀ m, Function.update s.lastTx f.saddr (some f.src) zeroIp = some m → m = zeroMac
    else if s.db.scdbFindEntry f.saddr ≠ none then s.db.scdbIp = f.saddr ∨ s.ScdbRecorded
    else f.saddr = zeroIp → s.db.scdbIp ≠ zeroIp ∧ s.dbAnswer zeroIp = f.src
  | _ => True

end BrRun

/-! ### The database under the steps of the bridge -/

namespace Nat25Db
variable {w hz : Nat} {s : Nat25Db w} {a b : NetworkAddr} {e f : Nat25Entry w} {jiffies : BitVec w} {mac dst : MacAddr}

/-- The hardware address that is recorded for a network address. -/
def macs (s : Nat25Db w) (a : NetworkAddr) : Option MacAddr := (s.table a).map Nat25Entry.macAddr

/-- No entry is too old. -/
def Fresh (hz : Nat) (jiffies : BitVec w) (s : Nat25Db w) : Prop :=
  ∀ a e, s.table a = some e → nat25HasExpired hz jiffies e.ageingTimer = false

/-- `t` is `s` with other entries only, and these are not too old. -/
structure Renewed (hz : Nat) (jiffies : BitVec w) (s t : Nat25Db w) : Prop where
  isMap : t.IsMap
  fresh : s.Fresh hz jiffies → t.Fresh hz jiffies
  scdbMac : t.scdbMac = s.scdbMac
  scdbIp : t.scdbIp = s.scdbIp
  scdbEntry : t.scdbEntry = s.scdbEntry

theorem macs_of_table_update {t : Nat25Db w} (ht : t.table = Function.update s.table a (some e)) :
    t.macs = Function.update s.macs a (some e.macAddr) := by
  funext b
  unfold macs
  rw [ht]
  rcases eq_or_ne b a with rfl | hb
  · rw [Function.update_self, Function.update_self, Option.map_some]
  · rw [Function.update_of_ne hb, Function.update_of_ne hb]

theorem fresh_of_table_update {t : Nat25Db w} (ht : t.table = Function.update s.table a (some e))
    (he : nat25HasExpired hz jiffies e.ageingTimer = false) (hs : s.Fresh hz jiffies) : t.Fresh hz jiffies := by
  intro b f hf
  rw [ht] at hf
  rcases eq_or_ne b a with rfl | hb
  · rw [Function.update_self] at hf
    cases hf
    exact he
  · rw [Function.update_of_ne hb] at hf
    exact hs b f hf

theorem macs_update_self (he : s.table a = some e) : Function.update s.macs a (some e.macAddr) = s.macs := by
  have hmac : s.macs a = some e.macAddr := by
    unfold macs
    rw [he, Option.map_some]
  rw [← hmac, Function.update_eq_self]

theorem setEntry_scdb {p : DbPtr} : (s.setEntry p e).scdbMac = s.scdbMac ∧ (s.setEntry p e).scdbIp = s.scdbIp ∧
    (s.setEntry p e).scdbEntry = s.scdbEntry := ⟨rfl, rfl, rfl⟩

theorem touchScdbEntry_scdb (s : Nat25Db w) (jiffies : BitVec w) : (s.touchScdbEntry jiffies).scdbMac = s.scdbMac ∧
    (s.touchScdbEntry jiffies).scdbIp = s.scdbIp ∧ (s.touchScdbEntry jiffies).scdbEntry = s.scdbEntry := by
  unfold touchScdbEntry
  split
  · exact ⟨rfl, rfl, rfl⟩
  · split
    · exact ⟨rfl, rfl, rfl⟩
    · exact setEntry_scdb

theorem networkInsert_scdb (s : Nat25Db w) (malloc : Malloc) (jiffies : BitVec w) (mac : MacAddr) (a : NetworkAddr) :
    (s.networkInsert malloc jiffies mac a).scdbMac = s.scdbMac ∧
    (s.networkInsert malloc jiffies mac a).scdbIp = s.scdbIp ∧
    (s.networkInsert malloc jiffies mac a).scdbEntry = s.scdbEntry := by
  unfold networkInsert
  split
  · split
    · exact ⟨rfl, rfl, rfl⟩
    · exact setEntry_scdb
  · exact ⟨rfl, rfl, rfl⟩

theorem lookupAndReplace_scdb (s : Nat25Db w) (hz : Nat) (jiffies : BitVec w) (a : NetworkAddr) (dst : MacAddr) :
    (s.lookupAndReplace hz jiffies a dst).1.scdbMac = s.scdbMac ∧
    (s.lookupAndReplace hz jiffies a dst).1.scdbIp = s.scdbIp ∧
    (s.lookupAndReplace hz jiffies a dst).1.scdbEntry = s.scdbEntry := by
  unfold lookupAndReplace
  split
  · exact ⟨rfl, rfl, rfl⟩
  · split
    · exact ⟨rfl, rfl, rfl⟩
    · split
      · exact setEntry_scdb
      · exact ⟨rfl, rfl, rfl⟩

theorem renewed_touch (hmap : s.IsMap) (hnow : nat25HasExpired hz jiffies jiffies = false) :
    Renewed hz jiffies s (s.touchScdbEntry jiffies) ∧ (s.touchScdbEntry jiffies).macs = s.macs := by
  obtain ⟨lists, h⟩ := hmap
  obtain ⟨hm, hi, he⟩ := touchScdbEntry_scdb s jiffies
  obtain ⟨hinv, ⟨-, hsame⟩ | ⟨p, e, -, -, hold, htable⟩⟩ := h.touch jiffies
  · rw [hsame]
    exact ⟨⟨⟨lists, h⟩, fun hf => hf, rfl, rfl, rfl⟩, rfl⟩
  · refine ⟨⟨⟨lists, hinv⟩, fresh_of_table_update htable hnow, hm, hi, he⟩, ?_⟩
    rw [macs_of_table_update htable]
    show Function.update s.macs _ (some e.macAddr) = s.macs
    exact macs_update_self hold

theorem renewed_insert (malloc : Malloc) (mac : MacAddr) (a : NetworkAddr) (hmap : s.IsMap)
    (hnow : nat25HasExpired hz jiffies jiffies = false) :
    Renewed hz jiffies s (s.networkInsert malloc jiffies mac a) ∧
      (s.networkInsert malloc jiffies mac a).macs = Function.update s.macs a (some mac) := by
  obtain ⟨lists, h⟩ := hmap
  obtain ⟨hm, hi, hs⟩ := networkInsert_scdb s malloc jiffies mac a
  obtain ⟨hinv, e, hmac, htimer, htable⟩ := h.networkInsert malloc jiffies mac a
  refine ⟨⟨hinv, fresh_of_table_update htable (by rw [htimer]; exact hnow), hm, hi, hs⟩, ?_⟩
  rw [macs_of_table_update htable, hmac]

theorem renewed_lookup (a : NetworkAddr) (dst : MacAddr) (hmap : s.IsMap) (hfresh : s.Fresh hz jiffies) :
    Renewed hz jiffies s (s.lookupAndReplace hz jiffies a dst).1 ∧
      (s.lookupAndReplace hz jiffies a dst).1.macs = s.macs := by
  obtain ⟨lists, h⟩ := hmap
  obtain ⟨hm, hi, hs⟩ := lookupAndReplace_scdb s hz jiffies a dst
  obtain ⟨hinv, hsame | ⟨e, n, hold, htable⟩⟩ := h.lookup hz jiffies a dst
  · refine ⟨⟨hinv, fun hf => ?_, hm, hi, hs⟩, ?_⟩
    · unfold Fresh
      rw [hsame]
      exact hf
    · unfold macs
      rw [hsame]
  · refine ⟨⟨hinv, fresh_of_table_update htable (hfresh a e hold), hm, hi, hs⟩, ?_⟩
    rw [macs_of_table_update htable]
    show Function.update s.macs _ (some e.macAddr) = s.macs
    exact macs_update_self hold

end Nat25Db

/-! ### The steps of the bridge -/

theorem BrEnv.not_expired_now (env : BrEnv) (jiffies : BitVec env.w) :
    nat25HasExpired env.hz jiffies jiffies = false := by
  have hpos : 0 < nat25AgeingTime * env.hz := Nat.mul_pos (by decide) env.hz_pos
  have hlt := env.ageing_lt
  have hw : 0 < env.w := by
    by_contra h0
    obtain h0 : env.w = 0 := by omega
    rw [h0] at hlt
    omega
  have hpow : 2 ^ env.w = 2 * 2 ^ (env.w - 1) := by
    rw [← Nat.pow_succ', Nat.succ_eq_add_one, Nat.sub_add_cancel hw]
  have hsub : jiffies - BitVec.ofNat env.w (nat25AgeingTime * env.hz) - jiffies =
      -BitVec.ofNat env.w (nat25AgeingTime * env.hz) := by
    rw [BitVec.sub_eq_add_neg jiffies, BitVec.add_comm, BitVec.add_sub_cancel]
  have htoInt : (BitVec.ofNat env.w (nat25AgeingTime * env.hz)).toInt = (nat25AgeingTime * env.hz : Nat) := by
    rw [BitVec.toInt_ofNat', Int.bmod_eq_of_le] <;> omega
  have hneg : (-BitVec.ofNat env.w (nat25AgeingTime * env.hz)).toInt = -(nat25AgeingTime * env.hz : Nat) := by
    rw [BitVec.toInt_neg, htoInt, Int.bmod_eq_of_le] <;> omega
  unfold nat25HasExpired timeBeforeEq
  rw [hsub, hneg]
  exact decide_eq_false (by omega)

theorem nat25GenerateIpv4NetworkAddr_injective : Function.Injective nat25GenerateIpv4NetworkAddr := by
  intro x y h
  have hbyte : ∀ i (hi : i < 4), x[i] = y[i] := by
    intro i hi
    have hi' : (nat25GenerateIpv4NetworkAddr x)[i + 7] = (nat25GenerateIpv4NetworkAddr y)[i + 7] := by rw [h]
    obtain rfl | rfl | rfl | rfl : i = 0 ∨ i = 1 ∨ i = 2 ∨ i = 3 := by omega
    · exact hi'
    · exact hi'
    · exact hi'
    · exact hi'
  exact Vector.ext hbyte

namespace BrAdapter
variable {env : BrEnv} {s t : BrAdapter env} {f : IpFrame} {ip : IpAddr} {mac : MacAddr}

/-- What an address gets that is not recorded. -/
def fallback (s : BrAdapter env) (ip : IpAddr) : MacAddr :=
  if ip.get (Fin.last 3) = 0xff then broadcastMac
  else if s.brMac = zeroMac then env.brNetdev.getD s.brMac else s.brMac

/-- The hardware address that is recorded for an address. -/
def macOf (s : BrAdapter env) (ip : IpAddr) : Option MacAddr := s.db.macs (nat25GenerateIpv4NetworkAddr ip)

theorem dbAnswer_eq (s : BrAdapter env) (ip : IpAddr) : s.dbAnswer ip = (s.macOf ip).getD (s.fallback ip) := by
  unfold dbAnswer macOf Nat25Db.macs
  cases s.db.table (nat25GenerateIpv4NetworkAddr ip) <;> rfl

/-- `0.0.0.0` is not recorded, and the address that the shortcut answers for is, if it is not that. -/
structure Inv (s : BrAdapter env) : Prop where
  isMap : s.db.IsMap
  fresh : s.db.Fresh env.hz s.jiffies
  zero : s.macOf zeroIp = none
  scdbIp : s.db.scdbIp ≠ zeroIp → s.macOf s.db.scdbIp ≠ none

theorem inv_init (brMac : MacAddr) (jiffies : BitVec env.w) : (init brMac jiffies).Inv := by
  have htable : ∀ a, (Nat25Db.init : Nat25Db env.w).table a = none := congrFun (Nat25Db.DbInv.table_of_nil .init)
  refine ⟨⟨_, .init⟩, fun a e he => ?_, ?_, fun hne => absurd rfl hne⟩
  · have he : (Nat25Db.init : Nat25Db env.w).table a = some e := he
    rw [htable] at he
    cases he
  · unfold macOf Nat25Db.macs
    show ((Nat25Db.init : Nat25Db env.w).table _).map Nat25Entry.macAddr = none
    rw [htable, Option.map_none]

/-- What `t` gives is what `s` gives, except for the shortcut. -/
structure SameAnswers (s t : BrAdapter env) : Prop where
  macOf : t.macOf = s.macOf
  fallback : t.fallback = s.fallback

theorem SameAnswers.dbAnswer (h : SameAnswers s t) : t.dbAnswer = s.dbAnswer := by
  funext ip
  rw [dbAnswer_eq, dbAnswer_eq, h.macOf, h.fallback]

theorem Inv.renewed (h : s.Inv) {db : Nat25Db env.w} (hdb : Nat25Db.Renewed env.hz s.jiffies s.db db)
    (hmacs : db.macs = s.db.macs) : Inv { s with db } ∧ SameAnswers s { s with db } := by
  have hmac : macOf { s with db } = s.macOf := by
    funext ip
    show db.macs _ = s.db.macs _
    rw [hmacs]
  refine ⟨⟨hdb.isMap, hdb.fresh h.fresh, ?_, fun hne => ?_⟩, hmac, rfl⟩
  · rw [hmac]
    exact h.zero
  · have hip : db.scdbIp = s.db.scdbIp := hdb.scdbIp
    rw [hmac]
    show s.macOf db.scdbIp ≠ none
    rw [hip]
    exact h.scdbIp (hip ▸ hne)

theorem Inv.touch (h : s.Inv) : Inv { s with db := s.db.touchScdbEntry s.jiffies } ∧
    SameAnswers s { s with db := s.db.touchScdbEntry s.jiffies } := by
  obtain ⟨hdb, hmacs⟩ := Nat25Db.renewed_touch h.isMap (env.not_expired_now s.jiffies)
  exact h.renewed hdb hmacs

def setDb (s : BrAdapter env) (db : Nat25Db env.w) : BrAdapter env := { s with db }

/-- The database with the client recorded. -/
def record (s : BrAdapter env) (f : IpFrame) : BrAdapter env := (s.nat25DbInsert f).1

theorem nat25DbInsert_res (s : BrAdapter env) (f : IpFrame) : (s.nat25DbInsert f).2 = 0 := by
  unfold nat25DbInsert
  rw [if_neg (by have := f.ihl_lt; omega)]
  split <;> rfl

theorem Inv.record (h : s.Inv) (f : IpFrame) : (s.record f).Inv ∧ (s.record f).db.scdbMac = s.db.scdbMac ∧
    (s.record f).db.scdbIp = s.db.scdbIp ∧
    (s.record f).dbAnswer =
      if f.saddr = zeroIp then s.dbAnswer else Function.update s.dbAnswer f.saddr f.src := by
  unfold BrAdapter.record nat25DbInsert
  rw [if_neg (by have := f.ihl_lt; omega)]
  split
  · exact ⟨h, rfl, rfl, rfl⟩
  · rename_i hne
    obtain ⟨hdb, hmacs⟩ := Nat25Db.renewed_insert env.malloc f.src (nat25GenerateIpv4NetworkAddr f.saddr) h.isMap
      (env.not_expired_now s.jiffies)
    dsimp only
    generalize s.db.networkInsert env.malloc s.jiffies f.src (nat25GenerateIpv4NetworkAddr f.saddr) = db at hdb hmacs ⊢
    have hmac : macOf { s with db } = Function.update s.macOf f.saddr (some f.src) := by
      funext ip
      show db.macs _ = _
      rw [hmacs]
      rcases eq_or_ne ip f.saddr with rfl | hip
      · rw [Function.update_self, Function.update_self]
      · rw [Function.update_of_ne hip,
          Function.update_of_ne (nat25GenerateIpv4NetworkAddr_injective.ne hip)]
        rfl
    have hip : db.scdbIp = s.db.scdbIp := hdb.scdbIp
    refine ⟨⟨hdb.isMap, hdb.fresh h.fresh, ?_, fun hscdb => ?_⟩, hdb.scdbMac, hip, ?_⟩
    · rw [hmac, Function.update_of_ne (Ne.symm hne)]
      exact h.zero
    · rw [hmac]
      show Function.update s.macOf f.saddr (some f.src) db.scdbIp ≠ none
      rw [hip]
      rcases eq_or_ne s.db.scdbIp f.saddr with heq | hother
      · rw [heq, Function.update_self]
        exact Option.some_ne_none _
      · rw [Function.update_of_ne hother]
        exact h.scdbIp (hip ▸ hscdb)
    · funext ip
      rw [dbAnswer_eq, hmac]
      rcases eq_or_ne ip f.saddr with rfl | hother
      · rw [Function.update_self, Function.update_self]
        rfl
      · rw [Function.update_of_ne hother, Function.update_of_ne hother, dbAnswer_eq]
        rfl

/-- What `rtw_br_client_tx` does to the adapter, `br_ip` aside. -/
def clientStep (s : BrAdapter env) (f : IpFrame) : BrAdapter env :=
  if (s.scdbStep f).2 then (s.scdbStep f).1.record f else (s.scdbStep f).1

theorem rtwBrClientTx_eq (s : BrAdapter env) (f : IpFrame) :
    ∃ brIp, (s.rtwBrClientTx f).1 = clientStep { s with brIp } f := by
  have hslow : ∀ s : BrAdapter env, (if (s.scdbStep f).2 then
      if ((s.scdbStep f).1.nat25DbInsert f).2 < 0 then (((s.scdbStep f).1.nat25DbInsert f).1, f)
      else (((s.scdbStep f).1.nat25DbInsert f).1, { f with src := env.hwaddr })
      else ((s.scdbStep f).1, { f with src := env.hwaddr })).1 = s.clientStep f := by
    intro s
    have hres : ¬((s.scdbStep f).1.nat25DbInsert f).2 < 0 := by
      rw [nat25DbInsert_res]
      exact lt_irrefl 0
    unfold clientStep record
    rw [if_neg hres]
    split <;> rfl
  unfold rtwBrClientTx
  split
  · rename_i hfast
    obtain ⟨-, -, -, hmac, hentry⟩ := hfast
    refine ⟨s.brIp, ?_⟩
    unfold clientStep scdbStep
    rw [if_neg (not_not_intro hmac), if_pos hentry]
    rfl
  · split
    · exact ⟨f.saddr, hslow { s with brIp := f.saddr }⟩
    · exact ⟨s.brIp, hslow s⟩

theorem Inv.find_eq_none (h : s.Inv) (ip : IpAddr) : s.db.scdbFindEntry ip = none ↔ s.macOf ip = none := by
  obtain ⟨lists, hinv⟩ := h.isMap
  unfold macOf Nat25Db.macs
  rw [Option.map_eq_none_iff]
  exact hinv.find_eq_none

theorem Inv.clientStep_keep (h : s.Inv) (hmac : s.db.scdbMac = f.src) (hentry : s.db.scdbEntry ≠ none) :
    (s.clientStep f).Inv ∧ (s.clientStep f).db.scdbMac = f.src ∧ (s.clientStep f).db.scdbIp = s.db.scdbIp ∧
      (s.clientStep f).dbAnswer = s.dbAnswer := by
  have hstep : s.clientStep f = { s with db := s.db.touchScdbEntry s.jiffies } := by
    unfold clientStep scdbStep
    rw [if_neg (not_not_intro hmac), if_pos hentry]
    rfl
  obtain ⟨hinv, hsame⟩ := h.touch
  obtain ⟨hm, hi, -⟩ := Nat25Db.touchScdbEntry_scdb s.db s.jiffies
  rw [hstep]
  exact ⟨hinv, hm.trans hmac, hi, hsame.dbAnswer⟩

/-- A frame of the client that had the shortcut, its entry being gone. -/
theorem Inv.clientStep_drop (h : s.Inv) (hmac : s.db.scdbMac = f.src) (hentry : s.db.scdbEntry = none) :
    (s.clientStep f).Inv ∧ (s.clientStep f).db.scdbMac = zeroMac ∧ (s.clientStep f).db.scdbIp = zeroIp ∧
      (s.clientStep f).dbAnswer =
        if f.saddr = zeroIp then s.dbAnswer else Function.update s.dbAnswer f.saddr f.src := by
  have hstep : s.clientStep f =
      (s.setDb { s.db with scdbMac := zeroMac, scdbIp := zeroIp }).record f := by
    unfold clientStep scdbStep
    rw [if_neg (not_not_intro hmac), if_neg (not_not_intro hentry)]
    rfl
  obtain ⟨lists, hdb⟩ := h.isMap
  have hzero : (s.setDb { s.db with scdbMac := zeroMac, scdbIp := zeroIp }).Inv :=
    ⟨⟨lists, hdb.setScdb hdb.scdbEntry zeroMac zeroIp⟩, h.fresh, h.zero, fun hne => absurd rfl hne⟩
  rw [hstep]
  exact hzero.record f

/-- A frame of another client, from an address that is recorded. -/
theorem Inv.clientStep_switch (h : s.Inv) (hmac : s.db.scdbMac ≠ f.src) (hfind : s.db.scdbFindEntry f.saddr ≠ none) :
    (s.clientStep f).Inv ∧ (s.clientStep f).db.scdbMac = f.src ∧ (s.clientStep f).db.scdbIp = f.saddr ∧
      (s.clientStep f).dbAnswer = s.dbAnswer := by
  obtain ⟨lists, hdb⟩ := h.isMap
  have hset : (s.setDb { s.db with
      scdbEntry := s.db.scdbFindEntry f.saddr, scdbMac := f.src, scdbIp := f.saddr }).Inv :=
    ⟨⟨lists, hdb.setScdb (fun p hp => hdb.find_live hp) f.src f.saddr⟩, h.fresh, h.zero,
      fun _ hnone => hfind ((h.find_eq_none f.saddr).2 hnone)⟩
  obtain ⟨hinv, hsame⟩ := hset.touch
  obtain ⟨hm, hi, he⟩ := Nat25Db.touchScdbEntry_scdb { s.db with
    scdbEntry := s.db.scdbFindEntry f.saddr, scdbMac := f.src, scdbIp := f.saddr } s.jiffies
  have hstep : s.clientStep f = { s with db := Nat25Db.touchScdbEntry { s.db with
      scdbEntry := s.db.scdbFindEntry f.saddr, scdbMac := f.src, scdbIp := f.saddr } s.jiffies } := by
    unfold clientStep scdbStep
    rw [if_pos hmac]
    unfold Nat25Db.setScdbEntry
    dsimp only
    rw [if_pos hfind, if_neg]
    rw [decide_eq_true_iff, he]
    exact hfind
  rw [hstep]
  exact ⟨hinv, hm, hi, hsame.dbAnswer⟩

/-- A frame of another client, from an address that is not recorded. -/
theorem Inv.clientStep_record (h : s.Inv) (hmac : s.db.scdbMac ≠ f.src) (hfind : s.db.scdbFindEntry f.saddr = none) :
    (s.clientStep f).Inv ∧ (s.clientStep f).db.scdbMac = s.db.scdbMac ∧ (s.clientStep f).db.scdbIp = s.db.scdbIp ∧
      (s.clientStep f).dbAnswer =
        if f.saddr = zeroIp then s.dbAnswer else Function.update s.dbAnswer f.saddr f.src := by
  obtain ⟨lists, hdb⟩ := h.isMap
  have hnone : (s.setDb { s.db with scdbEntry := none }).Inv :=
    ⟨⟨lists, hdb.setScdb (v := none) (fun p hp => nomatch hp) s.db.scdbMac s.db.scdbIp⟩, h.fresh, h.zero, h.scdbIp⟩
  have hstep : s.clientStep f = (s.setDb { s.db with scdbEntry := none }).record f := by
    unfold clientStep scdbStep
    rw [if_pos hmac]
    unfold Nat25Db.setScdbEntry
    dsimp only
    rw [hfind]
    rfl
  rw [hstep]
  exact hnone.record f

theorem Inv.setBrIp (h : s.Inv) (brIp : IpAddr) : Inv { s with brIp } := ⟨h.isMap, h.fresh, h.zero, h.scdbIp⟩

theorem Inv.clientStep (h : s.Inv) (f : IpFrame) : (s.clientStep f).Inv := by
  by_cases hmac : s.db.scdbMac = f.src
  · by_cases hentry : s.db.scdbEntry = none
    · exact (h.clientStep_drop hmac hentry).1
    · exact (h.clientStep_keep hmac hentry).1
  · by_cases hfind : s.db.scdbFindEntry f.saddr = none
    · exact (h.clientStep_record hmac hfind).1
    · exact (h.clientStep_switch hmac hfind).1

/-! ### The frames that come in -/

/-- What an address gets. -/
def answer (s : BrAdapter env) : IpAddr → MacAddr := Function.update s.dbAnswer s.db.scdbIp s.db.scdbMac

theorem Inv.lookup_dst (h : s.Inv) (f : IpFrame) : (s.nat25DbLookup f).2.dst = s.dbAnswer f.daddr := by
  obtain ⟨lists, hdb⟩ := h.isMap
  have hdst : (s.db.lookupAndReplace env.hz s.jiffies (nat25GenerateIpv4NetworkAddr f.daddr) f.dst).2.1 = _ :=
    hdb.lookup_eq f.dst
  have hfound := hdb.lookup_found env.hz (nat25GenerateIpv4NetworkAddr f.daddr) s.jiffies f.dst
  unfold nat25DbLookup dbAnswer
  rw [if_neg (by have := f.ihl_lt; omega)]
  dsimp only
  rw [hfound]
  cases htable : s.db.table (nat25GenerateIpv4NetworkAddr f.daddr) with
  | none =>
    rw [Option.isSome_none, if_neg Bool.false_ne_true]
    dsimp only
    split
    · rfl
    · split <;> rfl
  | some e =>
    rw [htable] at hdst
    dsimp only at hdst
    rw [h.fresh _ e htable, if_neg Bool.false_ne_true] at hdst
    rw [Option.isSome_some, if_pos rfl]
    exact hdst

theorem Inv.handleFrame_dst (h : s.Inv) (hdst : f.dst.isMcast = false) :
    (s.nat25HandleFrame f).2.dst = s.answer f.daddr := by
  unfold nat25HandleFrame answer
  rw [if_neg (by rw [hdst]; exact Bool.false_ne_true)]
  rcases eq_or_ne s.db.scdbIp f.daddr with hip | hip
  · rw [if_pos hip, hip, Function.update_self]
  · rw [if_neg hip, Function.update_of_ne (Ne.symm hip)]
    exact h.lookup_dst f

theorem netdevBrInit_fallback (s : BrAdapter env) (hzero : s.brMac = zeroMac) : s.netdevBrInit.fallback = s.fallback := by
  have hmac : (if env.brNetdev.getD s.brMac = zeroMac then env.brNetdev.getD (env.brNetdev.getD s.brMac)
      else env.brNetdev.getD s.brMac) = env.brNetdev.getD s.brMac := by
    cases env.brNetdev with
    | none => exact ite_self _
    | some m => exact ite_self _
  funext ip
  unfold fallback netdevBrInit
  dsimp only
  rw [hmac, if_pos hzero]

/-- Nothing changes for the answers when a frame comes in. -/
theorem Inv.handleFrame (h : s.Inv) (f : IpFrame) :
    (s.nat25HandleFrame f).1.Inv ∧ (s.nat25HandleFrame f).1.answer = s.answer := by
  unfold nat25HandleFrame
  split
  · exact ⟨h, rfl⟩
  · split
    · exact ⟨h, rfl⟩
    · obtain ⟨hdb, hmacs⟩ := Nat25Db.renewed_lookup (nat25GenerateIpv4NetworkAddr f.daddr) f.dst h.isMap h.fresh
      unfold nat25DbLookup
      rw [if_neg (by have := f.ihl_lt; omega)]
      dsimp only
      generalize s.db.lookupAndReplace env.hz s.jiffies (nat25GenerateIpv4NetworkAddr f.daddr) f.dst = r at hdb hmacs ⊢
      obtain ⟨hinv, hsame⟩ := h.renewed hdb hmacs
      have hanswer : ∀ t : BrAdapter env, t.db = r.1 → t.fallback = s.fallback → t.answer = s.answer := by
        intro t ht hfallback
        have hmac : t.macOf = s.macOf := by
          rw [← hsame.macOf]
          unfold macOf
          rw [ht]
        unfold answer
        rw [SameAnswers.dbAnswer ⟨hmac, hfallback⟩, ht, hdb.scdbMac, hdb.scdbIp]
      split
      · exact ⟨hinv, hanswer _ rfl rfl⟩
      · split
        · exact ⟨hinv, hanswer _ rfl rfl⟩
        · split
          · rename_i hzero
            refine ⟨⟨hinv.isMap, hinv.fresh, hinv.zero, hinv.scdbIp⟩, hanswer _ rfl ?_⟩
            exact netdevBrInit_fallback { s with db := r.1 } hzero
          · exact ⟨hinv, hanswer _ rfl rfl⟩

theorem Inv.tick (h : s.Inv) (n : Nat) : (s.tick n).Inv ∧ (s.tick n).answer = s.answer := by
  unfold BrAdapter.tick
  dsimp only
  split
  · rename_i hfresh
    refine ⟨⟨h.isMap, fun a e he => ?_, h.zero, h.scdbIp⟩, rfl⟩
    obtain ⟨lists, hdb⟩ := h.isMap
    obtain ⟨p, hp, -⟩ := hdb.table_eq_some.1 he
    exact hfresh p (hdb.live_of_entry hp) e hp
  · exact ⟨h, rfl⟩

end BrAdapter

/-! ### Runs -/

namespace BrRun
variable {env : BrEnv} {s : BrRun env} {f : IpFrame}

theorem answersOk_iff (h : s.Inv) : s.AnswersOk ↔ ∀ ip m, s.lastTx ip = some m → s.answer ip = m := by
  constructor
  · intro hok ip m hm
    have hf : zeroMac.isMcast = false := by decide
    have hdst := hok ⟨zeroMac, zeroMac, false, 5, 21, zeroIp, ip, by decide⟩ hf m hm
    rwa [h.handleFrame_dst hf] at hdst
  · intro hok f hf m hm
    rw [h.handleFrame_dst hf]
    exact hok f.daddr m hm

/-- A client sends, and is recorded with its address at most. -/
theorem answersOk_tx {t : BrAdapter env} (ht : t.Inv) :
    AnswersOk ⟨t, Function.update s.lastTx f.saddr (some f.src)⟩ ↔
      t.answer f.saddr = f.src ∧ ∀ ip, ip ≠ f.saddr → ∀ m, s.lastTx ip = some m → t.answer ip = m := by
  rw [answersOk_iff ht]
  dsimp only
  constructor
  · intro hok
    refine ⟨hok f.saddr f.src (Function.update_self ..), fun ip hip m hm => hok ip m ?_⟩
    rw [Function.update_of_ne hip, hm]
  · rintro ⟨hsrc, hother⟩ ip m hm
    rcases eq_or_ne ip f.saddr with rfl | hip
    · rw [Function.update_self] at hm
      rw [hsrc, Option.some_inj.1 hm]
    · rw [Function.update_of_ne hip] at hm
      exact hother ip hip m hm

/-- What the database gives for an address that the shortcut does not answer for. -/
theorem dbAnswer_of_ne (hok : ∀ ip m, s.lastTx ip = some m → s.answer ip = m) {ip : IpAddr} {m : MacAddr}
    (hm : s.lastTx ip = some m) (hne : ip ≠ s.db.scdbIp) : s.dbAnswer ip = m := by
  have hanswer := hok ip m hm
  unfold BrAdapter.answer at hanswer
  rwa [Function.update_of_ne hne] at hanswer

theorem scdbRecorded_iff (hok : ∀ ip m, s.lastTx ip = some m → s.answer ip = m) :
    s.ScdbRecorded ↔ ∀ m, s.lastTx s.db.scdbIp = some m → s.dbAnswer s.db.scdbIp = m := by
  unfold ScdbRecorded
  cases hlast : s.lastTx s.db.scdbIp with
  | none =>
    refine iff_of_true (.inl rfl) fun m hm => ?_
    cases hm
  | some m =>
    have hmac : s.db.scdbMac = m := by
      have hanswer := hok _ m hlast
      unfold BrAdapter.answer at hanswer
      rwa [Function.update_self] at hanswer
    rw [hmac]
    constructor
    · rintro (hnone | hanswer) m' hm'
      · cases hnone
      · rw [hanswer, Option.some_inj.1 hm']
    · exact fun hall => .inr (hall m rfl)

variable {t : BrAdapter env}

theorem tx_keep (hok : ∀ ip m, s.lastTx ip = some m → s.answer ip = m) (hs : s.db.scdbMac = f.src)
    (hmac : t.db.scdbMac = f.src) (hip : t.db.scdbIp = s.db.scdbIp) (hdb : t.dbAnswer = s.dbAnswer) :
    (t.answer f.saddr = f.src ∧ ∀ ip, ip ≠ f.saddr → ∀ m, s.lastTx ip = some m → t.answer ip = m) ↔
      s.db.scdbIp = f.saddr ∨ s.dbAnswer f.saddr = f.src := by
  have hanswer : t.answer = s.answer := by
    unfold BrAdapter.answer
    rw [hmac, hip, hdb, hs]
  rw [hanswer, and_iff_left (fun ip _ m hm => hok ip m hm)]
  unfold BrAdapter.answer
  rcases eq_or_ne f.saddr s.db.scdbIp with heq | hne
  · rw [heq, Function.update_self]
    exact iff_of_true hs (.inl rfl)
  · rw [Function.update_of_ne hne, or_iff_right hne.symm]

theorem tx_drop (hok : ∀ ip m, s.lastTx ip = some m → s.answer ip = m) (hmac : t.db.scdbMac = zeroMac)
    (hip : t.db.scdbIp = zeroIp)
    (hdb : t.dbAnswer = if f.saddr = zeroIp then s.dbAnswer else Function.update s.dbAnswer f.saddr f.src) :
    (t.answer f.saddr = f.src ∧ ∀ ip, ip ≠ f.saddr → ∀ m, s.lastTx ip = some m → t.answer ip = m) ↔
      (s.db.scdbIp = f.saddr ∨ s.db.scdbIp = zeroIp ∨ s.ScdbRecorded) ∧
        ∀ m, Function.update s.lastTx f.saddr (some f.src) zeroIp = some m → m = zeroMac := by
  have hzero : t.answer zeroIp = zeroMac := by
    unfold BrAdapter.answer
    rw [hip, Function.update_self, hmac]
  have hother : ∀ ip, ip ≠ f.saddr → ip ≠ zeroIp → t.answer ip = s.dbAnswer ip := by
    intro ip hne hne0
    unfold BrAdapter.answer
    rw [hip, Function.update_of_ne hne0, hdb]
    split
    · rfl
    · rw [Function.update_of_ne hne]
  rw [scdbRecorded_iff hok]
  rcases eq_or_ne f.saddr zeroIp with heq | hne
  · rw [heq, hzero, Function.update_self]
    constructor
    · rintro ⟨hsrc, hall⟩
      refine ⟨?_, fun m hm => ?_⟩
      · by_contra hnot
        obtain ⟨hne, -, hrec⟩ : s.db.scdbIp ≠ zeroIp ∧ s.db.scdbIp ≠ zeroIp ∧
            ¬∀ m, s.lastTx s.db.scdbIp = some m → s.dbAnswer s.db.scdbIp = m := by
          rwa [not_or, not_or] at hnot
        refine hrec fun m hm => ?_
        rw [← hother _ (heq ▸ hne) hne]
        exact hall _ hne m hm
      · rw [← Option.some_inj.1 hm, hsrc]
    · rintro ⟨hrec, hm⟩
      refine ⟨(hm f.src rfl).symm, fun ip hip m hm => ?_⟩
      rw [hother ip (heq ▸ hip) hip]
      rcases eq_or_ne ip s.db.scdbIp with rfl | hscdb
      · obtain habs | habs | hrec := hrec
        · exact absurd habs hip
        · exact absurd habs hip
        · exact hrec m hm
      · exact dbAnswer_of_ne hok hm hscdb
  · have hsrc : t.answer f.saddr = f.src := by
      unfold BrAdapter.answer
      rw [hip, Function.update_of_ne hne, hdb, if_neg hne, Function.update_self]
    rw [and_iff_right hsrc, Function.update_of_ne hne.symm]
    constructor
    · intro hall
      refine ⟨?_, fun m hm => ?_⟩
      · by_contra hnot
        obtain ⟨hsaddr, hne0, hrec⟩ : s.db.scdbIp ≠ f.saddr ∧ s.db.scdbIp ≠ zeroIp ∧
            ¬∀ m, s.lastTx s.db.scdbIp = some m → s.dbAnswer s.db.scdbIp = m := by
          rwa [not_or, not_or] at hnot
        refine hrec fun m hm => ?_
        rw [← hother _ hsaddr hne0]
        exact hall _ hsaddr m hm
      · rw [← hall zeroIp hne.symm m hm, hzero]
    · rintro ⟨hrec, hz⟩ ip hip m hm
      rcases eq_or_ne ip zeroIp with rfl | hip0
      · rw [hzero, hz m hm]
      · rw [hother ip hip hip0]
        rcases eq_or_ne ip s.db.scdbIp with rfl | hscdb
        · obtain habs | habs | hrec := hrec
          · exact absurd habs hip
          · exact absurd habs hip0
          · exact hrec m hm
        · exact dbAnswer_of_ne hok hm hscdb

theorem tx_switch (hok : ∀ ip m, s.lastTx ip = some m → s.answer ip = m) (hmac : t.db.scdbMac = f.src)
    (hip : t.db.scdbIp = f.saddr) (hdb : t.dbAnswer = s.dbAnswer) :
    (t.answer f.saddr = f.src ∧ ∀ ip, ip ≠ f.saddr → ∀ m, s.lastTx ip = some m → t.answer ip = m) ↔
      s.db.scdbIp = f.saddr ∨ s.ScdbRecorded := by
  have hsrc : t.answer f.saddr = f.src := by
    unfold BrAdapter.answer
    rw [hip, Function.update_self, hmac]
  have hother : ∀ ip, ip ≠ f.saddr → t.answer ip = s.dbAnswer ip := by
    intro ip hne
    unfold BrAdapter.answer
    rw [hip, Function.update_of_ne hne, hdb]
  rw [and_iff_right hsrc, scdbRecorded_iff hok]
  constructor
  · intro hall
    rcases eq_or_ne s.db.scdbIp f.saddr with heq | hne
    · exact .inl heq
    · refine .inr fun m hm => ?_
      rw [← hother _ hne]
      exact hall _ hne m hm
  · intro hrec ip hip m hm
    rw [hother ip hip]
    rcases eq_or_ne ip s.db.scdbIp with rfl | hscdb
    · exact hrec.resolve_left hip m hm
    · exact dbAnswer_of_ne hok hm hscdb

theorem tx_record (hok : ∀ ip m, s.lastTx ip = some m → s.answer ip = m) (hs : s.db.scdbMac ≠ f.src)
    (hrec : f.saddr ≠ zeroIp → s.db.scdbIp ≠ f.saddr) (hmac : t.db.scdbMac = s.db.scdbMac)
    (hip : t.db.scdbIp = s.db.scdbIp)
    (hdb : t.dbAnswer = if f.saddr = zeroIp then s.dbAnswer else Function.update s.dbAnswer f.saddr f.src) :
    (t.answer f.saddr = f.src ∧ ∀ ip, ip ≠ f.saddr → ∀ m, s.lastTx ip = some m → t.answer ip = m) ↔
      (f.saddr = zeroIp → s.db.scdbIp ≠ zeroIp ∧ s.dbAnswer zeroIp = f.src) := by
  have hother : ∀ ip, ip ≠ f.saddr → t.answer ip = s.answer ip := by
    intro ip hne
    unfold BrAdapter.answer
    rw [hip, hmac, hdb]
    rcases eq_or_ne ip s.db.scdbIp with rfl | hscdb
    · rw [Function.update_self, Function.update_self]
    · rw [Function.update_of_ne hscdb, Function.update_of_ne hscdb]
      split
      · rfl
      · rw [Function.update_of_ne hne]
  have hall : ∀ ip, ip ≠ f.saddr → ∀ m, s.lastTx ip = some m → t.answer ip = m := by
    intro ip hne m hm
    rw [hother ip hne]
    exact hok ip m hm
  rw [and_iff_left hall]
  unfold BrAdapter.answer
  rw [hip, hmac, hdb]
  rcases eq_or_ne f.saddr zeroIp with heq | hne
  · rw [if_pos heq, heq]
    rcases eq_or_ne s.db.scdbIp zeroIp with hzero | hzero
    · rw [hzero, Function.update_self]
      exact iff_of_false hs fun h => (h rfl).1 rfl
    · rw [Function.update_of_ne hzero.symm]
      exact ⟨fun h _ => ⟨hzero, h⟩, fun h => (h rfl).2⟩
  · rw [Function.update_of_ne (hrec hne).symm, if_neg hne, Function.update_self]
    exact iff_of_true rfl fun h => absurd h hne

theorem answersOk_next_tx (h : s.Inv) (hok : s.AnswersOk) : (s.next (.tx f)).AnswersOk ↔ s.StepOk (.tx f) := by
  rw [answersOk_iff h] at hok
  obtain ⟨brIp, heq⟩ := s.rtwBrClientTx_eq f
  have hs := h.setBrIp brIp
  show AnswersOk ⟨(s.rtwBrClientTx f).1, Function.update s.lastTx f.saddr (some f.src)⟩ ↔ _
  rw [heq, answersOk_tx (hs.clientStep f)]
  by_cases hmac : s.db.scdbMac = f.src
  · by_cases hentry : s.db.scdbEntry = none
    · obtain ⟨-, hm, hi, hdb⟩ := hs.clientStep_drop hmac hentry
      refine (tx_drop hok hm hi hdb).trans ?_
      unfold StepOk
      dsimp only
      rw [if_pos hmac, if_neg (not_not_intro hentry)]
    · obtain ⟨-, hm, hi, hdb⟩ := hs.clientStep_keep hmac hentry
      refine (tx_keep hok hmac hm hi hdb).trans ?_
      unfold StepOk
      dsimp only
      rw [if_pos hmac, if_pos hentry]
  · by_cases hfind : s.db.scdbFindEntry f.saddr = none
    · obtain ⟨-, hm, hi, hdb⟩ := hs.clientStep_record hmac hfind
      have hrec : f.saddr ≠ zeroIp → s.db.scdbIp ≠ f.saddr := by
        intro hne hip
        rw [← hip] at hne hfind
        exact h.scdbIp hne ((h.find_eq_none _).1 hfind)
      refine (tx_record hok hmac hrec hm hi hdb).trans ?_
      unfold StepOk
      dsimp only
      rw [if_neg hmac, if_neg (not_not_intro hfind)]
    · obtain ⟨-, hm, hi, hdb⟩ := hs.clientStep_switch hmac hfind
      refine (tx_switch hok hm hi hdb).trans ?_
      unfold StepOk
      dsimp only
      rw [if_neg hmac, if_pos hfind]

theorem inv_next (h : s.Inv) (ev : BrEvent) : (s.next ev).Inv := by
  cases ev with
  | tx f =>
    obtain ⟨brIp, heq⟩ := s.rtwBrClientTx_eq f
    show (s.rtwBrClientTx f).1.Inv
    rw [heq]
    exact (h.setBrIp brIp).clientStep f
  | rx f => exact (h.handleFrame f).1
  | tick n => exact (h.tick n).1

theorem answersOk_next (h : s.Inv) (hok : s.AnswersOk) (ev : BrEvent) : (s.next ev).AnswersOk ↔ s.StepOk ev := by
  have hsame : ∀ t : BrAdapter env, t.Inv → t.answer = s.answer → AnswersOk ⟨t, s.lastTx⟩ := by
    intro t ht hanswer
    rw [answersOk_iff ht]
    rw [answersOk_iff h] at hok
    show ∀ ip m, s.lastTx ip = some m → t.answer ip = m
    rw [hanswer]
    exact hok
  cases ev with
  | tx f => exact answersOk_next_tx h hok
  | rx f => exact iff_of_true (hsame _ (h.handleFrame f).1 (h.handleFrame f).2) trivial
  | tick n => exact iff_of_true (hsame _ (h.tick n).1 (h.tick n).2) trivial

/-- All along a run each frame for an address goes to the client that has sent last from it if and only if each
frame of a client leaves the shortcut and the database agreeing with that. -/
theorem answersOk_run (brMac : MacAddr) (jiffies : BitVec env.w) (evs : List BrEvent) :
    (∀ pre, pre <+: evs → (Machine.run next (init brMac jiffies) pre).AnswersOk) ↔
      Machine.RunOk next StepOk (init brMac jiffies) evs := by
  have hok : (init brMac jiffies).AnswersOk := fun f _ m hm => nomatch hm
  exact Machine.forall_prefix_iff_runOk (I := fun s : BrRun env => s.Inv) (fun s ev h => inv_next h ev)
    (fun s ev h hok => answersOk_next h hok ev) (BrAdapter.inv_init brMac jiffies) hok evs

theorem hz250_pos : 0 < 250 := by decide

theorem ageing250_lt : nat25AgeingTime * 250 < 2 ^ (32 - 1) := by decide

/-- A 32-bit kernel, and a bridge with an address of its own. -/
def bridgeEnv : BrEnv where
  w := 32
  hz := 250
  malloc := .behind
  hwaddr := .ofFn fun i => i.val.toUInt8 + 2
  brNetdev := none
  hz_pos := hz250_pos
  ageing_lt := ageing250_lt

/-- A frame that the client at `src` sends from `saddr`. -/
def clientFrame (src : MacAddr) (saddr : IpAddr) : IpFrame where
  dst := .replicate 6 0x22
  src := src
  vlan := false
  ihl := 5
  len := 84
  saddr := saddr
  daddr := .replicate 4 9
  ihl_lt := by decide

/-- A client with two addresses sends twice from the first and then from the second: the last frame takes the
shortcut, and the frames for the second address go to the bridge. -/
theorem not_answersOk_twoAddrs : ¬∀ evs : List BrEvent, ∀ pre, pre <+: evs →
    (Machine.run next (init (.replicate 6 0x44) 0 : BrRun bridgeEnv) pre).AnswersOk := by
  intro hall
  have hok := hall [.tx (clientFrame (.replicate 6 0x66) (.replicate 4 7)),
    .tx (clientFrame (.replicate 6 0x66) (.replicate 4 7)),
    .tx (clientFrame (.replicate 6 0x66) (.replicate 4 8))] _ List.prefix_rfl
  have hdst := hok { clientFrame (.replicate 6 0x88) (.replicate 4 9) with daddr := .replicate 4 8 } (by decide)
    (.replicate 6 0x66) (by decide)
  exact absurd hdst (by decide)

end BrRun

end Rtw
