import Rtw.Lib.Prog
import Rtw.P2p.AttrContent
import Rtw.P2p.AttrWalk
import Rtw.P2p.ChEntries

/-!
# Attributes of negotiation frames

What the handlers of GO negotiation frames have in common: an attribute is searched for in an element of the frame, and
its content copied to a local or a field, however long it says that it is. `safe_attrContentT` says when that stays
inside the frame and the destination.
-/

namespace Rtw
open Access Traced

/-- The frame, and what the handlers write to; `chArray` are the arrays of the walk over a channel list. -/
inductive NegoObj where
  | frame
  | wpsDevicepasswordId
  | capAttr
  | attrContent
  | listenChAttr
  | p2pPeerInterfaceAddr
  | chArray (obj : ChListObj)
  | chListInclusioned
  | operatingchInfo
  | groupid
  | negoSsid
  | ssid
  | wfdIe
  | wfdAttrContent

/-- A P2P public action frame as the handlers get it: `mem` is what is in memory from `pframe` on. -/
structure NegoRx where
  mem : List UInt8
  len : UInt32

namespace NegoRx

/-- `ies`: what is behind `_PUBLIC_ACTION_IE_OFFSET_`. -/
def ies (f : NegoRx) : List UInt8 := f.mem.drop 8

/-- `ies_len` -/
def iesLen (f : NegoRx) : Nat := (f.len - 8).toNat

end NegoRx

def NegoObj.size (f : NegoRx) : NegoObj → Nat
  | frame => f.len.toNat
  | wpsDevicepasswordId | capAttr => 2
  | attrContent => 1
  | listenChAttr | operatingchInfo => 5
  | p2pPeerInterfaceAddr => 6
  | chArray obj => obj.size 100 0
  | chListInclusioned => 100
  | groupid => 38
  | negoSsid | ssid => 32
  | wfdIe => 128
  | wfdAttrContent => 10

/-- The attributes that the handlers fetch from P2P elements. -/
inductive NegoAttr where
  | status
  | capability
  | goIntent
  | listenCh
  | intentedIfAddr
  | chList
  | groupId
  | operatingCh
  deriving DecidableEq

namespace NegoAttr

def id : NegoAttr → Nat
  | status => 0
  | capability => 2
  | goIntent => 4
  | listenCh => 6
  | intentedIfAddr => 9
  | chList => 11
  | groupId => 15
  | operatingCh => 17

/-- Where the content is copied to. -/
def dest : NegoAttr → NegoObj
  | status | goIntent => .attrContent
  | capability => .capAttr
  | listenCh => .listenChAttr
  | intentedIfAddr => .p2pPeerInterfaceAddr
  | chList => .chArray .chContent
  | groupId => .groupid
  | operatingCh => .operatingchInfo

end NegoAttr

/-- `attr_len - 3` or `attr_len - 4` with 32 bits. -/
def AttrKind.contentLen (k : AttrKind) (attrLen : Nat) : Nat := (attrLen + (2 ^ 32 - k.hdr)) % 2 ^ 32

namespace NegoRx
variable (f : NegoRx)

/-- `rtw_get_wps_ie` -/
def wpsIeT : Traced NegoObj (Option (Nat × Nat)) := (rtwGetWpsIeT f.ies f.iesLen false true).onto (fun _ => .frame) 8

/-- `rtw_get_p2p_ie` for the elements from `pos` on: a limit that is negative as an `int` is refused. -/
def p2pIeT (pos : Nat) : Traced NegoObj (Option (Nat × Nat)) :=
  if f.iesLen ≥ 2 ^ 31 then return none
  else do
    let r ← (rtwGetP2pIeT (f.ies.drop pos) (f.iesLen - pos) false true).onto (fun _ => .frame) (8 + pos)
    return r.map fun r => (pos + r.1, r.2)

section
variable (k : AttrKind) (ie : Nat × Nat) (targetAttrId : Nat)

/-- A round of `rtw_get_wps_attr` or `rtw_get_p2p_attr`, with the header that it reads. -/
def attrRoundT (attrPtr : Nat) : Traced NegoObj (Round Nat (Option (Nat × Nat))) := do
  touchIf (attrPtr < ie.2) .frame (8 + ie.1 + attrPtr : Nat) k.hdr
  match attrRound k (f.ies.drop ie.1) ie.2 targetAttrId attrPtr with
  | .stop r => return .stop r
  | .next attrPtr => return .next attrPtr

/-- `rtw_get_wps_attr_content` or `rtw_get_p2p_attr_content`: where the content is, and its length. -/
def attrContentT (buf : NegoObj) : Prog NegoObj (Option (Nat × Nat)) := do
  Prog.touch .frame (8 + ie.1) 1
  Prog.touchIf (byteAt (f.ies.drop ie.1) 0 = 221) .frame (8 + ie.1 + 2) 4
  if AttrHeader k (f.ies.drop ie.1) then do
    match ← Prog.loop (fun attrPtr => liftM (f.attrRoundT k ie targetAttrId attrPtr)) 6 with
    | none => return none
    | some (attrPtr, attrLen) =>
      if attrLen = 0 then return none
      else do
        Prog.touch .frame (8 + ie.1 + attrPtr + k.hdr) (k.contentLen attrLen)
        Prog.touch buf 0 (k.contentLen attrLen)
        return some (ie.1 + attrPtr + k.hdr, k.contentLen attrLen)
  else return none

end

def attrT (ie : Nat × Nat) (a : NegoAttr) : Prog NegoObj (Option (Nat × Nat)) :=
  f.attrContentT .p2p ie a.id a.dest

/-- Byte `i` of a buffer to which the content `c` has been copied. -/
def copied (c : Nat × Nat) (old : Nat → UInt8) (i : Nat) : UInt8 := if i < c.2 then f.ies.getD (c.1 + i) 0 else old i

/-- The first P2P element from `pos` on: where it is behind `ies`, and its length. -/
def p2pIe (pos : Nat) : Option (Nat × Nat) := if f.iesLen ≥ 2 ^ 31 then none else p2pIeFrom f.ies f.iesLen pos

/-! ### What the search comes to -/

section
variable (k : AttrKind) (ie : Nat × Nat) (targetAttrId : Nat)

/-- The attributes that the search visits in the element `ie`. -/
def AttrAt (pos : Nat) : Prop := ∃ n, attrCursor k (f.ies.drop ie.1) ie.2 targetAttrId n = some pos

/-- The search ends, with the content at a place and of a length, or with nothing. -/
inductive AttrIs : Option (Nat × Nat) → Prop where
  | noHeader (h : ¬ AttrHeader k (f.ies.drop ie.1)) : AttrIs none
  | absent {pos : Nat} (h : f.AttrAt k ie targetAttrId pos) (hend : ie.2 ≤ pos) : AttrIs none
  | present {pos : Nat} (h : f.AttrAt k ie targetAttrId pos) (hlt : pos < ie.2)
      (hid : k.attrId (f.ies.drop ie.1) pos = targetAttrId) (hlen : k.attrSize (f.ies.drop ie.1) pos % 2 ^ 16 ≠ 0) :
      AttrIs (some (ie.1 + pos + k.hdr, k.contentLen (k.attrSize (f.ies.drop ie.1) pos % 2 ^ 16)))
  | empty {pos : Nat} (h : f.AttrAt k ie targetAttrId pos) (hlt : pos < ie.2)
      (hid : k.attrId (f.ies.drop ie.1) pos = targetAttrId) (hlen : k.attrSize (f.ies.drop ie.1) pos % 2 ^ 16 = 0) :
      AttrIs none

/-- The headers that the search reads are in the frame, and what it finds is, too, and fits into the destination. -/
structure FetchOk (buf : NegoObj) : Prop where
  headers : ∀ pos, f.AttrAt k ie targetAttrId pos → pos < ie.2 → 8 + ie.1 + pos + k.hdr ≤ f.len.toNat
  content : ∀ pos n, f.AttrIs k ie targetAttrId (some (pos, n)) → 8 + pos + n ≤ f.len.toNat ∧ n ≤ buf.size f

end

/-- What the search for an attribute in a P2P element comes to, if it ends. -/
def Says (ie : Nat × Nat) (a : NegoAttr) (r : Option (Nat × Nat)) : Prop := f.AttrIs .p2p ie a.id r

/-- The attribute is fetched, and `P` holds of what the search comes to if it ends. -/
def Fetches (ie : Nat × Nat) (a : NegoAttr) (P : Option (Nat × Nat) → Prop) : Prop :=
  f.FetchOk .p2p ie a.id a.dest ∧ ∀ r, f.Says ie a r → P r

end NegoRx

/-! ### The elements -/

section
variable {f : NegoRx} {pos : Nat} {ie : Nat × Nat}

theorem iesLen_add (h : 8 ≤ f.len.toNat) : 8 + f.iesLen = f.len.toNat := by
  have height : (8 : UInt32).toNat = 8 := rfl
  have hlt := f.len.toNat_lt
  rw [NegoRx.iesLen, UInt32.toNat_sub, height]
  omega

/-- The length of a frame that is too short wraps. -/
theorem iesLen_of_short (h : f.len.toNat < 8) : 2 ^ 31 ≤ f.iesLen := by
  have height : (8 : UInt32).toNat = 8 := rfl
  rw [NegoRx.iesLen, UInt32.toNat_sub, height]
  omega

theorem val_p2pIeT : (f.p2pIeT pos).val = f.p2pIe pos := by
  unfold NegoRx.p2pIeT NegoRx.p2pIe
  split
  · rfl
  · exact congrArg (Option.map _) val_vendorIeLoopT

theorem within_p2pIeT : Within (NegoObj.size f) (f.p2pIeT pos) := by
  unfold NegoRx.p2pIeT
  split
  · exact within_pure
  · case isFalse hpos =>
    refine within_bind.2 ⟨?_, within_pure⟩
    have hadd := iesLen_add (f := f) (Nat.not_lt.1 fun hshort => hpos (iesLen_of_short hshort))
    by_cases hroom : pos ≤ f.iesLen
    · refine within_onto (fun _ => ?_) within_vendorIeLoopT
      show 8 + pos + (f.iesLen - pos) ≤ f.len.toNat
      omega
    · rw [Nat.sub_eq_zero_of_le (Nat.le_of_not_le hroom)]
      exact within_pure

/-- A P2P element that is found has its header and OUI in the frame. -/
theorem p2pIe_in (h : f.p2pIe pos = some ie) : 8 + ie.1 + 6 ≤ f.len.toNat := by
  unfold NegoRx.p2pIe at h
  split at h
  · cases h
  · case isFalse hpos =>
    have hadd := iesLen_add (f := f) (Nat.not_lt.1 fun hshort => hpos (iesLen_of_short hshort))
    have hlt := (p2pIeFrom_lt h).2.1
    omega

/-- The search for the WPS element stays in the frame exactly if the frame has all the fixed fields. -/
theorem within_wpsIeT_iff : Within (NegoObj.size f) f.wpsIeT ↔ 8 ≤ f.len.toNat := by
  constructor
  · intro h
    by_contra hshort
    have hlong := iesLen_of_short (f := f) (Nat.not_le.1 hshort)
    have hfirst : ⟨.frame, ((8 : Nat) : Int) + ((0 : Nat) : Int), 1⟩ ∈ f.wpsIeT.spans := by
      unfold NegoRx.wpsIeT rtwGetWpsIeT
      obtain ⟨n, hn⟩ := Nat.exists_eq_succ_of_ne_zero (show f.iesLen ≠ 0 by omega)
      rw [hn]
      unfold vendorIeLoopT
      rw [if_pos (by omega)]
      exact List.mem_cons_self
    rcases h _ hfirst with hzero | ⟨-, hin⟩
    · cases hzero
    · have hin : ((8 : Nat) : Int) + ((0 : Nat) : Int) + (1 : Nat) ≤ f.len.toNat := hin
      omega
  · intro h
    refine within_onto (fun _ => ?_) within_vendorIeLoopT
    exact Nat.le_of_eq (iesLen_add h)

theorem wpsIeT_in (h : f.wpsIeT.val = some ie) (hlen : 8 ≤ f.len.toNat) : 8 + ie.1 + 6 ≤ f.len.toNat := by
  have hlt := vendorIeLoopT_lt h
  have hadd := iesLen_add hlen
  omega

end

/-! ### The attributes -/

section
variable {f : NegoRx} {k : AttrKind} {ie : Nat × Nat} {targetAttrId pos : Nat} {buf : NegoObj}

theorem attrRound_eq_stop {mem : List UInt8} {ielen : Nat} {r : Option (Nat × Nat)} :
    attrRound k mem ielen targetAttrId pos = .stop r ↔ ielen ≤ pos ∧ r = none ∨
      pos < ielen ∧ k.attrId mem pos = targetAttrId ∧ r = some (pos, k.attrSize mem pos % 2 ^ 16) := by
  unfold attrRound AttrKind.attrSize
  by_cases hlt : pos < ielen
  · by_cases hid : k.attrId mem pos = targetAttrId
    · simp [hlt, hid, Nat.not_le.2 hlt, eq_comm]
    · simp [hlt, hid, Nat.not_le.2 hlt]
  · simp [hlt, Nat.not_lt.1 hlt, eq_comm]

theorem attrRoundT_next {pos' : Nat} : (f.attrRoundT k ie targetAttrId pos).val = .next pos' ↔
    attrRound k (f.ies.drop ie.1) ie.2 targetAttrId pos = .next pos' := by
  unfold NegoRx.attrRoundT
  rw [val_bind]
  cases attrRound k (f.ies.drop ie.1) ie.2 targetAttrId pos <;> simp

theorem attrRoundT_stop {r : Option (Nat × Nat)} : (f.attrRoundT k ie targetAttrId pos).val = .stop r ↔
    attrRound k (f.ies.drop ie.1) ie.2 targetAttrId pos = .stop r := by
  unfold NegoRx.attrRoundT
  rw [val_bind]
  cases attrRound k (f.ies.drop ie.1) ie.2 targetAttrId pos <;> simp

theorem within_attrRoundT : Within (NegoObj.size f) (f.attrRoundT k ie targetAttrId pos) ↔
    (pos < ie.2 → 8 + ie.1 + pos + k.hdr ≤ f.len.toNat) := by
  unfold NegoRx.attrRoundT
  rw [within_bind, within_touchIf, within_touch_pos (Nat.ne_of_gt k.hdr_pos)]
  refine and_iff_left ?_
  split <;> exact within_pure

theorem not_attrAt (h : ¬ AttrHeader k (f.ies.drop ie.1)) : ¬ f.AttrAt k ie targetAttrId pos := by
  rintro ⟨n, hn⟩
  rw [attrCursor_of_not_header h n] at hn
  cases hn

/-- The rounds of the search visit the attributes. -/
theorem reaches_attrRoundT (h : AttrHeader k (f.ies.drop ie.1)) :
    Access.Reaches (f.attrRoundT k ie targetAttrId) 6 pos ↔ f.AttrAt k ie targetAttrId pos := by
  constructor
  · intro hr
    refine hr.invariant ⟨0, if_pos h⟩ ?_
    rintro t u ⟨n, hn⟩ hu
    exact ⟨n + 1, attrCursor_succ.2 ⟨t, hn, attrRound_eq_next.1 (attrRoundT_next.1 hu)⟩⟩
  · rintro ⟨n, hn⟩
    induction n generalizing pos with
    | zero =>
      rw [attrCursor, if_pos h] at hn
      obtain rfl := Option.some.inj hn
      exact .start
    | succ n ih =>
      obtain ⟨t, ht, hnext⟩ := attrCursor_succ.1 hn
      exact (ih ht).next (attrRoundT_next.2 (attrRound_eq_next.2 hnext))

theorem returns_attrLoop (h : AttrHeader k (f.ies.drop ie.1)) {r : Option (Nat × Nat)} :
    (Prog.loop (fun attrPtr => (liftM (f.attrRoundT k ie targetAttrId attrPtr) : Prog NegoObj _)) 6).Returns r ↔
      ∃ pos, f.AttrAt k ie targetAttrId pos ∧ (ie.2 ≤ pos ∧ r = none ∨ pos < ie.2 ∧
        k.attrId (f.ies.drop ie.1) pos = targetAttrId ∧ r = some (pos, k.attrSize (f.ies.drop ie.1) pos % 2 ^ 16)) := by
  rw [Prog.returns_loop_lift, returns_iff]
  exact exists_congr fun pos => and_congr (reaches_attrRoundT h) (attrRoundT_stop.trans attrRound_eq_stop)

theorem returns_attrContentT {r : Option (Nat × Nat)} :
    (f.attrContentT k ie targetAttrId buf).Returns r ↔ f.AttrIs k ie targetAttrId r := by
  unfold NegoRx.attrContentT
  rw [Prog.returns_touch, Prog.returns_touchIf]
  split
  · case isTrue hhdr =>
    rw [Prog.returns_bind]
    constructor
    · rintro ⟨res, hres, hr⟩
      obtain ⟨pos, hpos, ⟨hend, rfl⟩ | ⟨hlt, hid, rfl⟩⟩ := (returns_attrLoop hhdr).1 hres
      · obtain rfl := Prog.returns_pure.1 hr
        exact .absent hpos hend
      · dsimp only at hr
        split at hr
        · case isTrue hlen =>
          obtain rfl := Prog.returns_pure.1 hr
          exact .empty hpos hlt hid hlen
        · case isFalse hlen =>
          rw [Prog.returns_touch, Prog.returns_touch] at hr
          obtain rfl := Prog.returns_pure.1 hr
          exact .present hpos hlt hid hlen
    · intro h
      cases h with
      | noHeader h => exact absurd hhdr h
      | absent hpos hend => exact ⟨none, (returns_attrLoop hhdr).2 ⟨_, hpos, .inl ⟨hend, rfl⟩⟩, Prog.returns_pure.2 rfl⟩
      | present hpos hlt hid hlen =>
        refine ⟨_, (returns_attrLoop hhdr).2 ⟨_, hpos, .inr ⟨hlt, hid, rfl⟩⟩, ?_⟩
        dsimp only
        rw [if_neg hlen, Prog.returns_touch, Prog.returns_touch]
        exact Prog.returns_pure.2 rfl
      | empty hpos hlt hid hlen =>
        refine ⟨_, (returns_attrLoop hhdr).2 ⟨_, hpos, .inr ⟨hlt, hid, rfl⟩⟩, ?_⟩
        dsimp only
        rw [if_pos hlen]
        exact Prog.returns_pure.2 rfl
  · case isFalse hhdr =>
    rw [Prog.returns_pure]
    constructor
    · rintro rfl
      exact .noHeader hhdr
    · intro h
      cases h with
      | noHeader _ => rfl
      | absent hpos _ => exact absurd hpos (not_attrAt hhdr)
      | present hpos _ _ _ => exact absurd hpos (not_attrAt hhdr)
      | empty hpos _ _ _ => exact absurd hpos (not_attrAt hhdr)

theorem safe_attrContentT (hie : 8 + ie.1 + 6 ≤ f.len.toNat) :
    (f.attrContentT k ie targetAttrId buf).Safe (NegoObj.size f) ↔ f.FetchOk k ie targetAttrId buf := by
  have hfirst : 1 = 0 ∨ 8 + ie.1 + 1 ≤ NegoObj.size f .frame := .inr (show 8 + ie.1 + 1 ≤ f.len.toNat by omega)
  have houi : 4 = 0 ∨ 8 + ie.1 + 2 + 4 ≤ NegoObj.size f .frame := .inr (show 8 + ie.1 + 2 + 4 ≤ f.len.toNat by omega)
  unfold NegoRx.attrContentT
  rw [Prog.safe_touch, and_iff_right hfirst, Prog.safe_touchIf, and_iff_right fun _ => houi]
  split
  · case isTrue hhdr =>
    have hheaders : (Prog.loop (fun attrPtr => (liftM (f.attrRoundT k ie targetAttrId attrPtr) : Prog NegoObj _)) 6).Safe
        (NegoObj.size f) ↔
          ∀ pos, f.AttrAt k ie targetAttrId pos → pos < ie.2 → 8 + ie.1 + pos + k.hdr ≤ f.len.toNat := by
      rw [Prog.safe_loop_lift]
      exact forall_congr' fun pos => imp_congr (reaches_attrRoundT hhdr) within_attrRoundT
    rw [Prog.safe_bind, hheaders]
    constructor
    · rintro ⟨hheaders, hcontent⟩
      refine ⟨hheaders, fun pos n h => ?_⟩
      cases h with
      | present hpos hlt hid hlen =>
        have hsafe := hcontent _ ((returns_attrLoop hhdr).2 ⟨_, hpos, .inr ⟨hlt, hid, rfl⟩⟩)
        have hhdr' := hheaders _ hpos hlt
        dsimp only at hsafe
        rw [if_neg hlen, Prog.safe_touch, Prog.safe_touch] at hsafe
        obtain ⟨hread, hwrite, -⟩ := hsafe
        have hread : _ ∨ _ ≤ f.len.toNat := hread
        rw [Nat.zero_add] at hwrite
        omega
    · rintro ⟨hheaders, hcontent⟩
      refine ⟨hheaders, fun res hres => ?_⟩
      obtain ⟨pos, hpos, ⟨hend, rfl⟩ | ⟨hlt, hid, rfl⟩⟩ := (returns_attrLoop hhdr).1 hres
      · exact Prog.safe_pure
      · dsimp only
        split
        · exact Prog.safe_pure
        · case isFalse hlen =>
          obtain ⟨hread, hwrite⟩ := hcontent _ _ (.present hpos hlt hid hlen)
          rw [Prog.safe_touch, Prog.safe_touch, Nat.zero_add]
          refine ⟨.inr ?_, .inr hwrite, Prog.safe_pure⟩
          show _ ≤ f.len.toNat
          omega
  · case isFalse hhdr =>
    refine iff_of_true Prog.safe_pure ⟨fun pos hpos => absurd hpos (not_attrAt hhdr), fun pos n h => ?_⟩
    cases h with
    | present hpos _ _ _ => exact absurd hpos (not_attrAt hhdr)

variable {a : NegoAttr} {r : Option (Nat × Nat)}

@[simp] theorem returns_attrT : (f.attrT ie a).Returns r ↔ f.Says ie a r := returns_attrContentT

theorem safe_attrT (hie : 8 + ie.1 + 6 ≤ f.len.toNat) :
    (f.attrT ie a).Safe (NegoObj.size f) ↔ f.FetchOk .p2p ie a.id a.dest := safe_attrContentT hie

theorem safe_attrT_bind {α : Type} {g : Option (Nat × Nat) → Prog NegoObj α} (hie : 8 + ie.1 + 6 ≤ f.len.toNat) :
    (f.attrT ie a >>= g).Safe (NegoObj.size f) ↔ f.Fetches ie a fun r => (g r).Safe (NegoObj.size f) := by
  rw [Prog.safe_bind, safe_attrT hie]
  exact and_congr_right fun _ => forall_congr' fun r => imp_congr_left returns_attrT

theorem fetches_congr {P Q : Option (Nat × Nat) → Prop}
    (h : f.FetchOk .p2p ie a.id a.dest → ∀ r, f.Says ie a r → (P r ↔ Q r)) : f.Fetches ie a P ↔ f.Fetches ie a Q :=
  and_congr_right fun hok => forall_congr' fun r => imp_congr_right fun hr => h hok r hr

theorem Says.unique {r' : Option (Nat × Nat)} (h : f.Says ie a r) (h' : f.Says ie a r') : r = r' :=
  (returns_attrT.2 h).unique (returns_attrT.2 h')

end

end Rtw
