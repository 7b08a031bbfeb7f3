import Rtw.P2p.NegoHandlers

/-!
# What an element must not have

A handler reads inside the frame and writes inside its destinations as long as the attributes that it fetches fit, a
channel list is a body of entries, and a group id is no shorter than an address. An attribute may be in the element and
the handler not come to it: `ReqIeOk`, `RespIeOk` and `ConfIeOk` say what it comes to, and `ReqIeTo` and the like how it
leaves the element.
-/

namespace Rtw
open Access Traced Splice

/-- What decides on the attributes that are fetched. -/
structure NegoCtl where
  role : P2pRole
  operatingChannel : UInt8
  intent : UInt8
  negoSsidlen : UInt8
  channelSet : List UInt8
  uiGotWpsInfo : P2pWpsinfo

def NegoWd.ctl (s : NegoWd) : NegoCtl :=
  ⟨s.role, s.operatingChannel, s.intent, s.negoSsidlen, s.channelSet, s.uiGotWpsInfo⟩

namespace NegoCtl
variable (x : NegoCtl)

/-- The channels that are common, as far as `rtw_p2p_ch_inclusion` finds them. -/
def common (chs : List UInt8) : List UInt8 := chInclusionFrom x.channelSet 0 chs

/-- The channel of a group owner is not common. -/
def MustChange (chs : List UInt8) : Prop := x.role = .go ∧ x.operatingChannel ∉ x.common chs

instance (chs : List UInt8) : Decidable (x.MustChange chs) := inferInstanceAs (Decidable (_ ∧ _))

end NegoCtl

namespace NegoRx
variable (f : NegoRx)

section
variable (ie : Nat × Nat) (x : NegoCtl)

/-- The role that the intent in an element leaves. -/
def afterIntent : Option (Nat × Nat) → NegoCtl
  | none => x
  | some r => { x with role := negoRole x.intent.toNat (f.copied r (fun _ => 0) 0).toNat }

/-- The channel that a group owner changes to. -/
def afterChange (chs : List UInt8) (ch : UInt8) (r : Option (Nat × Nat)) : NegoCtl :=
  let peerOperatingCh := r.elim 0 fun r => f.copied r (fun _ => 0) 4
  { x with operatingChannel := if peerOperatingCh ∈ x.common chs then peerOperatingCh else ch }

/-- The SSID that a group owner takes has room. -/
def OwnSsidOk (r : Option (Nat × Nat)) : Prop := r.isSome → x.role = .go → x.negoSsidlen.toNat ≤ 32

/-- The search for the attribute ends, and `P` holds of what it comes to. -/
def Comes (a : NegoAttr) (P : Option (Nat × Nat) → Prop) : Prop := ∃ r, f.Says ie a r ∧ P r

/-- A channel list is a country string and entries; the operating channel is fetched once more for some of them. -/
def ChansOk (r : Option (Nat × Nat)) : Prop := ∀ c, r = some c → ∃ chs, ChBody (f.copied c fun _ => 0) c.2 chs ∧
  (x.common chs ≠ [] → x.MustChange chs → f.Fetches ie .operatingCh fun _ => True)

/-- How a channel list leaves the element: without a common channel there is a `break`. -/
inductive ChansTo : Option (Nat × Nat) → Round NegoCtl Unit → Prop where
  | absent : ChansTo none (.next x)
  | stop {c : Nat × Nat} {chs : List UInt8} (hbody : ChBody (f.copied c fun _ => 0) c.2 chs) (hnone : x.common chs = []) :
      ChansTo (some c) (.stop ())
  | keep {c : Nat × Nat} {chs : List UInt8} (hbody : ChBody (f.copied c fun _ => 0) c.2 chs) (hsome : x.common chs ≠ [])
      (h : ¬ x.MustChange chs) : ChansTo (some c) (.next x)
  | change {c : Nat × Nat} {chs l : List UInt8} {ch : UInt8} {r : Option (Nat × Nat)}
      (hbody : ChBody (f.copied c fun _ => 0) c.2 chs) (hsome : x.common chs = ch :: l) (h : x.MustChange chs)
      (hr : f.Says ie .operatingCh r) : ChansTo (some c) (.next (f.afterChange x chs ch r))

/-- A group id has a device address. -/
def GroupIdOk (r : Option (Nat × Nat)) : Prop := ∀ c, r = some c → 6 ≤ c.2

/-- The status is success, or there is none. -/
def Accepted (r : Option (Nat × Nat)) : Prop :=
  f.statusOf r = none ∨ f.statusOf r = some P2pStatus.success.code

instance (r : Option (Nat × Nat)) : Decidable (f.Accepted r) := inferInstanceAs (Decidable (_ ∨ _))

def ReqIeOk : Prop :=
  f.Fetches ie .capability fun _ => f.Fetches ie .goIntent fun r => OwnSsidOk (f.afterIntent x r) r ∧
    f.Fetches ie .listenCh fun _ => f.Fetches ie .intentedIfAddr fun _ =>
      f.Fetches ie .chList fun r' => f.ChansOk ie (f.afterIntent x r) r'

def ReqIeTo (o : Round NegoCtl Unit) : Prop :=
  f.Comes ie .capability fun _ => f.Comes ie .goIntent fun r => f.Comes ie .listenCh fun _ =>
    f.Comes ie .intentedIfAddr fun _ => f.Comes ie .chList fun r' => f.ChansTo ie (f.afterIntent x r) r' o

/-- The rest of an element of a response whose status is success. -/
def RespAcceptOk : Prop :=
  f.Fetches ie .intentedIfAddr fun _ => f.Fetches ie .goIntent fun r => OwnSsidOk (f.afterIntent x r) r ∧
    f.Fetches ie .operatingCh fun _ => f.Fetches ie .chList fun r' =>
      f.ChansOk ie (f.afterIntent x r) r' ∧ ((∃ x', f.ChansTo ie (f.afterIntent x r) r' (.next x')) →
        f.Fetches ie .groupId GroupIdOk)

def RespAcceptTo (o : Round NegoCtl Unit) : Prop :=
  f.Comes ie .intentedIfAddr fun _ => f.Comes ie .goIntent fun r => f.Comes ie .operatingCh fun _ =>
    f.Comes ie .chList fun r' => f.ChansTo ie (f.afterIntent x r) r' o ∧ (o ≠ .stop () → f.Comes ie .groupId fun _ => True)

def RespIeOk : Prop :=
  f.Fetches ie .capability fun _ => f.Fetches ie .status fun r => f.Accepted r → f.RespAcceptOk ie x

def RespIeTo (o : Round NegoCtl Unit) : Prop :=
  f.Comes ie .capability fun _ => f.Comes ie .status fun r => if f.Accepted r then f.RespAcceptTo ie x o else o = .stop ()

def ConfIeOk : Prop :=
  f.Fetches ie .status fun r => f.Accepted r → f.Fetches ie .groupId fun r => GroupIdOk r ∧
    f.Fetches ie .operatingCh fun _ => True

def ConfIeTo (o : Round Unit Unit) : Prop :=
  f.Comes ie .status fun r =>
    if f.Accepted r then f.Comes ie .groupId fun _ => f.Comes ie .operatingCh fun _ => o = .next () else o = .stop ()

end

end NegoRx

/-! ### Channel lists -/

section
variable {f : NegoRx} {ie r : Nat × Nat} {c : NegoCur} {mem old : Nat → UInt8} {n : Nat} {chs : List UInt8}

theorem chBody_congr {mem' : Nat → UInt8} (h : ∀ i < n, mem i = mem' i) : ChBody mem n chs ↔ ChBody mem' n chs := by
  have hread : read mem 0 n = read mem' 0 n := read_congr fun i hi => by
    rw [Nat.zero_add]
    exact h i hi
  unfold ChBody
  rw [hread]

/-- The content does not depend on what the buffer had before. -/
theorem chBody_copied : ChBody (f.copied r old) r.2 chs ↔ ChBody (f.copied r fun _ => 0) r.2 chs := by
  refine chBody_congr fun i hi => ?_
  unfold NegoRx.copied
  rw [if_pos hi, if_pos hi]

/-- The walk over a body of entries returns, with its channels. -/
theorem returns_peerWalk {t : PeerChCur} (hn : n ≤ 100) (hbody : ChBody mem n chs)
    (h : Access.Returns (peerChRound mem) (peerStart n fun _ => 0) t) :
    t.chNo.toNat = chs.length ∧ ∀ x : NegoCtl,
      rtwP2pChInclusion x.channelSet t.peerChList.arr t.chNo = x.common chs := by
  obtain ⟨fuel, hfuel⟩ := h
  have hr : (rtwP2pGetPeerChListT mem (UInt8.ofNat n) (fun _ => 0) fuel).val = some (t.chNo, t.peerChList.arr) :=
    Option.map_eq_some_iff.2 ⟨t, hfuel, rfl⟩
  have hread : read t.peerChList.arr 0 t.chNo.toNat = chs := rtwP2pGetPeerChListT_eq (by omega) hbody hr
  refine ⟨?_, fun x => ?_⟩
  · rw [← hread, length_read]
  · rw [rtwP2pChInclusion, hread]
    rfl

theorem exists_peerWalk (hn : n ≤ 100) (hbody : ChBody mem n chs) :
    ∃ t, Access.Returns (peerChRound mem) (peerStart n fun _ => 0) t := by
  obtain ⟨hthree, l, hlist, -⟩ := chBody_iff.1 hbody
  obtain ⟨t, ht, -⟩ := peer_returns (fun _ => 0) (by omega) hthree hlist
  exact ⟨t, ht⟩

theorem length_chs_le (hbody : ChBody mem n chs) : chs.length ≤ n := by
  obtain ⟨-, l, hlist, rfl⟩ := chBody_iff.1 hbody
  exact (length_chans_of_read hlist).trans (Nat.sub_le n 3)

theorem length_common_le (x : NegoCtl) (chs : List UInt8) : (x.common chs).length ≤ chs.length :=
  chInclusionFrom_sublist.length_le.trans (List.length_filter_le _ chs)

/-- What is compared of two ways to leave an element. -/
def outcome {Γ : Type} (ctl : NegoCur → Γ) : Round NegoCur NegoCur → Round Γ Unit
  | .next c => .next (ctl c)
  | .stop _ => .stop ()

def NegoCur.ctl (c : NegoCur) : NegoCtl := c.wd.ctl

theorem safe_commonT (hie : 8 + ie.1 + 6 ≤ f.len.toNat) : (f.commonT ie c (c.ctl.common chs)).Safe (NegoObj.size f) ↔
    (c.ctl.common chs ≠ [] → c.ctl.MustChange chs → f.Fetches ie .operatingCh fun _ => True) := by
  unfold NegoRx.commonT
  cases hcommon : c.ctl.common chs with
  | nil => exact iff_of_true Prog.safe_pure fun hne => absurd rfl hne
  | cons ch l =>
    have hchange : c.ctl.MustChange chs ↔ c.wd.role = .go ∧ c.wd.operatingChannel ∉ ch :: l := by
      rw [← hcommon]
      rfl
    rw [imp_iff_right (List.cons_ne_nil ch l), hchange]
    dsimp only
    split
    · case isTrue h =>
      rw [imp_iff_right h, safe_attrT_bind hie]
      exact fetches_congr fun _ r _ => iff_of_true Prog.safe_pure trivial
    · case isFalse h => exact iff_of_true Prog.safe_pure fun h' => absurd h' h

theorem returns_commonT {a : Round NegoCur NegoCur} (hbody : ChBody (f.copied r fun _ => 0) r.2 chs)
    (ha : (f.commonT ie c (c.ctl.common chs)).Returns a) : f.ChansTo ie c.ctl (some r) (outcome NegoCur.ctl a) := by
  unfold NegoRx.commonT at ha
  split at ha
  · case h_1 hcommon =>
    obtain rfl := Prog.returns_pure.1 ha
    exact .stop hbody hcommon
  · case h_2 ch l hcommon =>
    have hchange : c.ctl.MustChange chs ↔ c.wd.role = .go ∧ c.wd.operatingChannel ∉ c.ctl.common chs := Iff.rfl
    split at ha
    · case isTrue h =>
      obtain ⟨r', hr', ha⟩ := Prog.returns_bind.1 ha
      obtain rfl := Prog.returns_pure.1 ha
      exact .change hbody hcommon (hchange.2 h) (returns_attrT.1 hr')
    · case isFalse h =>
      obtain rfl := Prog.returns_pure.1 ha
      refine .keep hbody ?_ (hchange.not.2 h)
      rw [hcommon]
      exact List.cons_ne_nil ch l

theorem safe_peerWalk (hn : n ≤ 100) :
    (Prog.loop (fun t => (liftM ((peerChRound mem t).onto NegoObj.chArray 0) : Prog NegoObj _))
      (peerStart n fun _ => 0)).Safe (NegoObj.size f) ↔ ∃ chs, ChBody mem n chs := by
  rw [Prog.safe_loop_lift]
  exact (forall_congr' fun t => imp_congr reaches_onto within_onto_iff).trans (peerRounds_in_iff hn)

theorem returns_peerWalk_iff {t : PeerChCur} :
    (Prog.loop (fun t => (liftM ((peerChRound mem t).onto NegoObj.chArray 0) : Prog NegoObj _))
      (peerStart n fun _ => 0)).Returns t ↔ Access.Returns (peerChRound mem) (peerStart n fun _ => 0) t := by
  rw [Prog.returns_loop_lift, returns_onto]

theorem safe_checkChListT (hie : 8 + ie.1 + 6 ≤ f.len.toNat) (hn : r.2 ≤ 100) :
    (f.checkChListT ie c (f.copied r old) r.2).Safe (NegoObj.size f) ↔ f.ChansOk ie c.ctl (some r) := by
  have hwalk : _ ↔ ∃ chs, ChBody (f.copied r old) r.2 chs := safe_peerWalk (f := f) hn
  have hrest (t : PeerChCur) (chs : List UInt8) (hbody : ChBody (f.copied r old) r.2 chs)
      (ht : Access.Returns (peerChRound (f.copied r old)) (peerStart r.2 fun _ => 0) t) :
      (do
        Prog.touch (.chArray .peerChList) 0 t.chNo.toNat
        Prog.touch .chListInclusioned 0 (rtwP2pChInclusion c.wd.channelSet t.peerChList.arr t.chNo).length
        f.commonT ie c (rtwP2pChInclusion c.wd.channelSet t.peerChList.arr t.chNo) : Prog NegoObj _).Safe
          (NegoObj.size f) ↔
      (c.ctl.common chs ≠ [] → c.ctl.MustChange chs → f.Fetches ie .operatingCh fun _ => True) := by
    obtain ⟨hno, hcommon⟩ := returns_peerWalk hn hbody ht
    have hcommon : rtwP2pChInclusion c.wd.channelSet t.peerChList.arr t.chNo = c.ctl.common chs := hcommon c.ctl
    have hlen := length_chs_le hbody
    have hle := length_common_le c.ctl chs
    rw [Prog.safe_touch, Prog.safe_touch, hcommon, hno, and_iff_right, and_iff_right, safe_commonT hie]
    · exact .inr (show 0 + (c.ctl.common chs).length ≤ 100 by omega)
    · exact .inr (show 0 + chs.length ≤ 100 by omega)
  unfold NegoRx.checkChListT
  rw [Prog.safe_bind, hwalk]
  constructor
  · rintro ⟨⟨chs, hbody⟩, hall⟩ r' hr'
    obtain rfl := Option.some.inj hr'
    obtain ⟨t, ht⟩ := exists_peerWalk hn hbody
    exact ⟨chs, chBody_copied.1 hbody, (hrest t chs hbody ht).1 (hall t (returns_peerWalk_iff.2 ht))⟩
  · intro hok
    obtain ⟨chs, hbody, hchange⟩ := hok r rfl
    have hbody : ChBody (f.copied r old) r.2 chs := chBody_copied.2 hbody
    exact ⟨⟨chs, hbody⟩, fun t ht => (hrest t chs hbody (returns_peerWalk_iff.1 ht)).2 hchange⟩

/-- On a body of entries the element is left in one of the ways of `ChansTo`. -/
theorem chansTo_of_returns {a : Round NegoCur NegoCur} (hn : r.2 ≤ 100) (hok : f.ChansOk ie c.ctl (some r))
    (ha : (f.checkChListT ie c (f.copied r old) r.2).Returns a) : f.ChansTo ie c.ctl (some r) (outcome NegoCur.ctl a) := by
  obtain ⟨chs, hbody, -⟩ := hok r rfl
  unfold NegoRx.checkChListT at ha
  obtain ⟨t, ht, ha⟩ := Prog.returns_bind.1 ha
  have hcommon : rtwP2pChInclusion c.wd.channelSet t.peerChList.arr t.chNo = c.ctl.common chs :=
    (returns_peerWalk hn (chBody_copied.2 hbody) (returns_peerWalk_iff.1 ht)).2 c.ctl
  rw [Prog.returns_touch, Prog.returns_touch, hcommon] at ha
  exact returns_commonT hbody ha

theorem returns_of_chansTo {o : Round NegoCtl Unit} (hn : r.2 ≤ 100) (h : f.ChansTo ie c.ctl (some r) o) :
    ∃ a, (f.checkChListT ie c (f.copied r old) r.2).Returns a ∧ outcome NegoCur.ctl a = o := by
  have hrun {chs : List UInt8} {a : Round NegoCur NegoCur} (hbody : ChBody (f.copied r fun _ => 0) r.2 chs)
      (ha : (f.commonT ie c (c.ctl.common chs)).Returns a) : (f.checkChListT ie c (f.copied r old) r.2).Returns a := by
    have hbody : ChBody (f.copied r old) r.2 chs := chBody_copied.2 hbody
    obtain ⟨t, ht⟩ := exists_peerWalk hn hbody
    have hcommon : rtwP2pChInclusion c.wd.channelSet t.peerChList.arr t.chNo = c.ctl.common chs :=
      (returns_peerWalk hn hbody ht).2 c.ctl
    unfold NegoRx.checkChListT
    refine Prog.returns_bind.2 ⟨t, returns_peerWalk_iff.2 ht, ?_⟩
    rw [Prog.returns_touch, Prog.returns_touch, hcommon]
    exact ha
  cases h with
  | @stop _ chs hbody hnone =>
    refine ⟨.stop { c.setState .gonegoFail with result := P2pStatus.failNoCommonCh.code }, hrun hbody ?_, rfl⟩
    unfold NegoRx.commonT
    rw [hnone]
    exact Prog.returns_pure.2 rfl
  | @keep _ chs hbody hsome hkeep =>
    refine ⟨.next c, hrun hbody ?_, rfl⟩
    unfold NegoRx.commonT
    split
    · case h_1 hcommon => exact absurd hcommon hsome
    · have hkeep : ¬ (c.wd.role = .go ∧ c.wd.operatingChannel ∉ c.ctl.common chs) := hkeep
      rw [if_neg hkeep]
      exact Prog.returns_pure.2 rfl
  | @change _ chs l ch r' hbody hsome hchange hr' =>
    refine ⟨.next (f.takeChannel c (c.ctl.common chs) ch r'), hrun hbody ?_, rfl⟩
    unfold NegoRx.commonT
    split
    · case h_1 hcommon => exact absurd (hcommon.symm.trans hsome) (List.cons_ne_nil ch l).symm
    · case h_2 ch' l' hcommon =>
      obtain ⟨rfl, -⟩ := List.cons.inj (hcommon.symm.trans hsome)
      have hchange : c.wd.role = .go ∧ c.wd.operatingChannel ∉ c.ctl.common chs := hchange
      rw [if_pos hchange]
      exact Prog.returns_bind.2 ⟨r', returns_attrT.2 hr', Prog.returns_pure.2 rfl⟩

end

end Rtw
