import Rtw.Mlme.JoinReads

/-!
# The builders of the block

Each builder appends elements at the end of what there is: `Builds` says which, and when it stays inside its objects. Two of
them, one behind the other, make a builder again. The ones for WMM, HT, VHT and the extended capabilities are put together
in `builds_joinHtVht`.
-/

namespace Rtw
open Access Traced Splice Tlv
open Scan (maxIeSz)

section
variable {o o' o'' : OutIes} {app app' : List Ie} {size : JoinObj → Nat} {val val' : OutIes → OutIes}
  {W W' : OutIes → Prop} {R R' : Prop} {n : Nat}

/-- The element with the body `data`, as far as an element has room for it. -/
def ieOf (tag : UInt8) (data : List UInt8) : Ie :=
  ⟨tag, data.take 255, Nat.lt_succ_of_le (List.length_take_le _ _)⟩

/-- In `o'` the elements are behind what `o` has. -/
def OutIes.Appends (o : OutIes) (app : List Ie) (o' : OutIes) : Prop :=
  o'.len = o.len + BitVec.ofNat 32 (bytes app).length ∧ (o.len.toNat + (bytes app).length ≤ maxIeSz →
    At o'.mem o.len.toNat (bytes app) ∧ ∀ i < o.len.toNat, o'.mem i = o.mem i)

/-- There is room for `n` bytes behind the fixed fields. -/
def OutIes.Room (o : OutIes) (n : Nat) : Prop := 12 ≤ o.len.toNat ∧ o.len.toNat + n ≤ maxIeSz

/-- A builder with the result `val` appends `app`. `W` says that it stays inside the objects: with room for the elements
it does so exactly if `R` holds. -/
structure Builds (val : OutIes → OutIes) (W : OutIes → Prop) (app : List Ie) (R : Prop) : Prop where
  appends : ∀ o : OutIes, o.Appends app (val o)
  reads : ∀ o, W o → R
  within : ∀ o : OutIes, R → o.Room (bytes app).length → W o

/-- A builder as a computation. -/
abbrev BuildsT (size : JoinObj → Nat) (f : OutIes → Traced JoinObj OutIes) (app : List Ie) (R : Prop) : Prop :=
  Builds (fun o => (f o).val) (fun o => Within size (f o)) app R

theorem length_bytes_append (l m : List Ie) : (bytes (l ++ m)).length = (bytes l).length + (bytes m).length := by
  rw [bytes_append, List.length_append]

theorem OutIes.Appends.refl : o.Appends [] o := ⟨(BitVec.add_zero _).symm, fun _ => ⟨trivial, fun _ _ => rfl⟩⟩

theorem OutIes.Appends.len (h : o.Appends app o') (hroom : o.len.toNat + (bytes app).length ≤ maxIeSz) :
    o'.len.toNat = o.len.toNat + (bytes app).length := by
  have hmax : maxIeSz = 768 := rfl
  rw [h.1, BitVec.toNat_add, BitVec.toNat_ofNat, Nat.add_mod_mod]
  exact Nat.mod_eq_of_lt (by omega)

theorem OutIes.Appends.trans (h : o.Appends app o') (h' : o'.Appends app' o'') : o.Appends (app ++ app') o'' := by
  have hsum := length_bytes_append app app'
  refine ⟨?_, fun hroom => ?_⟩
  · rw [h'.1, h.1, hsum, BitVec.ofNat_add, BitVec.add_assoc]
  · rw [hsum] at hroom
    have hlen := h.len (by omega)
    obtain ⟨hat, hsame⟩ := h.2 (by omega)
    obtain ⟨hat', hsame'⟩ := h'.2 (by omega)
    rw [bytes_append]
    refine ⟨at_append.2 ⟨hat.congr fun i _ hi => hsame' i (by omega), hlen ▸ hat'⟩, fun i hi => ?_⟩
    rw [hsame' i (by omega), hsame i hi]

theorem Builds.comp (h : Builds val W app R) (h' : Builds val' W' app' R') :
    Builds (fun o => val' (val o)) (fun o => W o ∧ W' (val o)) (app ++ app') (R ∧ R') where
  appends o := (h.appends o).trans (h'.appends _)
  reads o hw := ⟨h.reads o hw.1, h'.reads _ hw.2⟩
  within o hr hroom := by
    obtain ⟨hlow, hhigh⟩ := hroom
    rw [length_bytes_append] at hhigh
    have hlen := (h.appends o).len (by omega)
    exact ⟨h.within o hr.1 ⟨hlow, by omega⟩, h'.within _ hr.2 ⟨by omega, by omega⟩⟩

theorem Builds.pure : Builds (fun o => o) (fun _ => True) [] True where
  appends _ := .refl
  reads _ _ := trivial
  within _ _ _ := trivial

/-- Something is read first. -/
theorem Builds.after (Q : Prop) (h : Builds val W app R) : Builds val (fun o => Q ∧ W o) app (Q ∧ R) where
  appends := h.appends
  reads o hw := ⟨hw.1, h.reads o hw.2⟩
  within o hr hroom := ⟨hr.1, h.within o hr.2 hroom⟩

theorem Builds.ite {c : Prop} [Decidable c] (h : c → Builds val W app R) :
    Builds (fun o => if c then val o else o) (fun o => c → W o) (if c then app else []) (c → R) := by
  by_cases hc : c
  · simp only [hc, if_true, true_implies]
    exact h hc
  · simp only [hc, if_false, false_implies]
    exact .pure

theorem Builds.congr (h : Builds val W app R) (hval : ∀ o, val' o = val o) (hw : ∀ o, W' o ↔ W o) (hr : R' ↔ R) :
    Builds val' W' app R' where
  appends o := (hval o).symm ▸ h.appends o
  reads o h' := hr.2 (h.reads o ((hw o).1 h'))
  within o h' hroom := (hw o).2 (h.within o (hr.1 h') hroom)

theorem OutIes.append (index : UInt8) {data : List UInt8} (h : data.length ≤ 255) :
    o.Appends [ieOf index data] (rtwSetIe index data o).val := by
  have htake : data.take 255 = data := List.take_of_length_le h
  have hbytes : bytes [ieOf index data] = index :: UInt8.ofNat data.length :: data := by
    rw [bytes_cons, bytes_nil, List.append_nil, ie_bytes]
    show index :: UInt8.ofNat (data.take 255).length :: data.take 255 = _
    rw [htake]
  unfold OutIes.Appends
  rw [hbytes]
  exact ⟨rfl, fun _ => ⟨at_copy, fun i hi => copy_of_lt hi⟩⟩

theorem builds_rtwSetIe (index : UInt8) {data : List UInt8} (h : data.length ≤ 255)
    (hsize : size .elements = maxIeSz - 12) : BuildsT size (rtwSetIe index data) [ieOf index data] True where
  appends _ := OutIes.append index h
  reads _ _ := trivial
  within o _ hroom := by
    obtain ⟨hlow, hhigh⟩ := hroom
    have hlen : (bytes [ieOf index data]).length = 2 + data.length := by
      rw [length_bytes_cons, ieOf, List.length_take, Nat.min_eq_right h]
      rfl
    have hmax : maxIeSz = 768 := rfl
    rw [hlen] at hhigh
    unfold rtwSetIe
    rw [within_bind, within_touch, and_iff_left within_pure]
    exact .inr ⟨by omega, by omega⟩

end

/-! ### The WMM element -/

section
variable {inIe : Nat → UInt8} {inLen fuel i j : Nat} {o : OutIes} {size : JoinObj → Nat}

/-- The element that `rtw_restruct_wmm_ie` makes. -/
def wmmElement (version : UInt8) : Ie := ieOf 0xdd [0x00, 0x50, 0xf2, 0x02, 0x00, version, 0x00]

theorem at_of_wmmLoop (h : (wmmLoopT inIe inLen fuel i).val = some j) : inIe j = 0xdd ∧ At inIe (j + 2) wmmOui := by
  induction fuel generalizing i with
  | zero => cases h
  | succ fuel ih =>
    rw [wmmLoopT] at h
    split at h
    · rw [val_bind, val_bind] at h
      split at h
      · case isTrue hhit =>
        obtain rfl := Option.some.inj h
        have hcmp := hhit.1
        unfold isWmmT at hcmp
        split at hcmp
        · case isTrue hdd => exact ⟨hdd, val_compareT.1 hcmp⟩
        · cases hcmp
      · exact ih h
    · cases h

theorem wmmLoop_none (h : inLen ≤ i) : (wmmLoopT inIe inLen fuel i).val = none := by
  cases fuel with
  | zero => rfl
  | succ fuel => rw [wmmLoopT, if_neg (Nat.not_lt.2 h), val_pure]

theorem read_nine (hdd : inIe j = 0xdd) (houi : At inIe (j + 2) wmmOui) :
    read inIe j 9 = [0xdd, inIe (j + 1), 0x00, 0x50, 0xf2, 0x02, inIe (j + 6), inIe (j + 7), inIe (j + 8)] := by
  obtain ⟨h0, h1, h2, h3, -⟩ := houi
  simp only [Nat.add_assoc, Nat.reduceAdd] at h0 h1 h2 h3
  simp [Splice.read, List.range_succ, hdd, h0, h1, h2, h3]

theorem wmm_appends (h : (wmmLoopT inIe inLen inLen 12).val = some j) :
    o.Appends [wmmElement (inIe (j + 7))] (rtwRestructWmmIe inIe inLen o).val := by
  obtain ⟨hdd, houi⟩ := at_of_wmmLoop h
  have hbytes : bytes [wmmElement (inIe (j + 7))] = [0xdd, 7, 0x00, 0x50, 0xf2, 0x02, 0x00, inIe (j + 7), 0x00] := rfl
  have hmax : maxIeSz = 768 := rfl
  unfold OutIes.Appends rtwRestructWmmIe
  rw [val_bind, h, hbytes]
  refine ⟨rfl, fun hroom => ?_⟩
  have hroom : o.len.toNat + 9 ≤ maxIeSz := hroom
  have hlen (k : Nat) (hk : k < 9) : (o.len + BitVec.ofNat 32 k).toNat = o.len.toNat + k := by
    rw [BitVec.toNat_add, BitVec.toNat_ofNat, Nat.add_mod_mod]
    exact Nat.mod_eq_of_lt (by omega)
  have h1 : (o.len + 1).toNat = o.len.toNat + 1 := hlen 1 (by omega)
  have h6 : (o.len + 6).toNat = o.len.toNat + 6 := hlen 6 (by omega)
  have h8 : (o.len + 8).toNat = o.len.toNat + 8 := hlen 8 (by omega)
  simp only [val_bind, val_pure, h1, h6, h8, read_nine hdd houi]
  constructor
  · simp [At, copy, Nat.add_assoc]
  · intro i hi
    rw [Function.update_of_ne (by omega), Function.update_of_ne (by omega), Function.update_of_ne (by omega),
      copy_of_lt hi]

theorem builds_wmm (hin : 12 < inLen) (hsize : size .elements = maxIeSz - 12) (hsize' : size .network = inLen) :
    BuildsT size (rtwRestructWmmIe inIe inLen)
      ((wmmLoopT inIe inLen inLen 12).val.elim [] fun j => [wmmElement (inIe (j + 7))])
      (WmmIn size inLen (wmmLoopT inIe inLen inLen 12)) := by
  have hmax : maxIeSz = 768 := rfl
  cases h : (wmmLoopT inIe inLen inLen 12).val with
  | none =>
    have hstay (o : OutIes) : (rtwRestructWmmIe inIe inLen o).val = o := by
      unfold rtwRestructWmmIe
      rw [val_bind, h, if_pos hin]
      rfl
    have hw (o : OutIes) : Within size (rtwRestructWmmIe inIe inLen o) ↔ WmmIn size inLen (wmmLoopT inIe inLen inLen 12) := by
      unfold rtwRestructWmmIe WmmIn
      rw [within_bind, h]
      exact and_congr_right fun _ => iff_of_true within_pure fun j hj => by cases hj
    refine ⟨fun o => ?_, fun o => (hw o).1, fun o hr _ => (hw o).2 hr⟩
    rw [hstay]
    exact .refl
  | some j =>
    have hw (o : OutIes) : Within size (rtwRestructWmmIe inIe inLen o) ↔
        WmmIn size inLen (wmmLoopT inIe inLen inLen 12) ∧
          Within size (touch .elements (o.len.toNat - 12 : Int) 9) := by
      unfold rtwRestructWmmIe WmmIn
      rw [within_bind, h, within_bind, within_touch_pos (Nat.succ_ne_zero 8), within_bind, hsize', and_assoc]
      refine and_congr_right fun _ => ?_
      simp only [Option.some.injEq, forall_eq', within_pure, and_true]
    refine ⟨fun o => wmm_appends h, fun o hwo => ((hw o).1 hwo).1, fun o hr hroom => (hw o).2 ⟨hr, ?_⟩⟩
    obtain ⟨hlow, hhigh⟩ := hroom
    have hhigh : o.len.toNat + 9 ≤ maxIeSz := hhigh
    rw [within_touch]
    exact .inr ⟨by omega, by omega⟩

end

/-! ### The HT and VHT elements -/

section
variable {α : Type} {size : JoinObj → Nat} {app app' : List Ie} {R R' : Prop} {f g : OutIes → Traced JoinObj OutIes}

theorem BuildsT.pure : BuildsT size Pure.pure [] True :=
  Builds.pure.congr (fun _ => rfl) (fun _ => iff_of_true within_pure trivial) Iff.rfl

theorem BuildsT.bind (hf : BuildsT size f app R) (hg : BuildsT size g app' R') :
    BuildsT size (fun o => f o >>= g) (app ++ app') (R ∧ R') :=
  (hf.comp hg).congr (fun _ => rfl) (fun _ => within_bind) Iff.rfl

theorem BuildsT.read {m : Traced JoinObj α} {f : α → OutIes → Traced JoinObj OutIes} (h : BuildsT size (f m.val) app R) :
    BuildsT size (fun o => m >>= fun a => f a o) app (Within size m ∧ R) :=
  (h.after _).congr (fun _ => rfl) (fun _ => within_bind) Iff.rfl

theorem BuildsT.elim {a : Option α} {f : α → OutIes → Traced JoinObj OutIes} {app : α → List Ie} {R : α → Prop}
    (h : ∀ y, a = some y → BuildsT size (f y) (app y) (R y)) :
    BuildsT size (fun o => a.elim (Pure.pure o) fun y => f y o) (a.elim [] app) (∀ y, a = some y → R y) := by
  cases a with
  | none => exact BuildsT.pure.congr (fun _ => rfl) (fun _ => Iff.rfl) (iff_of_true (fun _ h => by cases h) trivial)
  | some y =>
    refine (h y rfl).congr (fun _ => rfl) (fun _ => Iff.rfl) ⟨fun hr => hr y rfl, fun hr z hz => ?_⟩
    obtain rfl := Option.some.inj hz
    exact hr

theorem BuildsT.ite {c : Prop} [Decidable c] (h : c → BuildsT size f app R) :
    BuildsT size (fun o => if c then f o else Pure.pure o) (if c then app else []) (c → R) := by
  refine (Builds.ite h).congr (fun o => ?_) (fun o => ?_) Iff.rfl
  · split
    · rfl
    · rfl
  · split
    · case isTrue hc => exact ⟨fun hw _ => hw, fun hw => hw hc⟩
    · case isFalse hc => exact iff_of_true within_pure fun h => absurd h hc

end

namespace JoinIn
variable (x : JoinIn)

/-- What `rtw_get_ie` finds. -/
def find (index : Nat) : Option (Nat × Nat) := rtwGetIe ((x.ies ++ x.behind).drop 12) index (x.ies.length - 12)

/-- The same without elements that are empty. -/
def findBody (index : Nat) : Option (Nat × Nat) := (x.find index).filter fun e => 0 < e.2

def htInfo : Option Nat := ((x.find 61).filter fun e => e.2 = 22).map Prod.fst

def htOption : Bool := x.htEnable ∧ (x.findBody 45).isSome ∧ x.legacyPrivacy = false

def vhtOption : Bool := (x.htOption ∧ x.vhtEnable) ∧ (x.findBody 191).isSome

def wmmIes : List Ie :=
  if x.wmmEnable then (wmmLoopT x.inIe x.ies.length x.ies.length 12).val.elim [] fun j => [wmmElement (x.inIe (j + 7))] else []

def htInfoIes : List Ie := x.htInfo.elim [] fun p => [ieOf 61 (read x.inIe (12 + p + 2) 22)]

def htCapIe : Ie := ieOf 45 (x.caps.htCapie (x.caps.cbw40Enable && x.htOperationBw40.val)).toList

/-- `qosOption` tells whether there is a WMM element. -/
def htIes (qosOption : Bool) : List Ie :=
  if x.htOption then (if qosOption then [] else [wmmElement 1]) ++ ([x.htCapIe] ++ x.htInfoIes) else []

def vhtOperationIes : List Ie := (x.findBody 192).elim [] fun p => [ieOf 192 (read x.inIe (12 + p.1 + 2) p.2)]

/-- `operation_bw` with the VHT capabilities at `p`. -/
def operationBw (p : Nat) : Nat :=
  (x.findBody 192).elim x.htBw.val fun q => (x.vhtBw (x.supportedChnlWidth p) x.htBw.val q.1).val

def vhtIes : List Ie :=
  if x.htOption ∧ x.vhtEnable then (x.findBody 191).elim [] fun p => [ieOf 191 x.caps.vhtCap.toList] ++
    (x.vhtOperationIes ++ [ieOf 199 [x.opMode (min x.caps.largestBw (x.operationBw p.1))]])
  else []

def extCapIes : List Ie :=
  let capContent := capContent (if x.htOption then x.wifiSpec else x.bssCoexist) x.vhtOption
  if capContent = List.replicate 8 0 then [] else [ieOf 127 capContent]

/-- What the builders append to the security element. -/
def appended : List Ie := x.wmmIes ++ (x.htIes (x.wmmIes ≠ []) ++ (x.vhtIes ++ x.extCapIes))

theorem val_getIe (index : Nat) : (x.getIe index).val = x.find index := val_rtwGetIeT

theorem val_getIeBody (index : Nat) : (x.getIeBody index).val = x.findBody index := by
  rw [getIeBody, val_bind, val_getIe]
  rfl

theorem val_getHtInfo : x.getHtInfo.val = x.htInfo := by
  rw [getHtInfo, val_bind, val_getIe]
  rfl

theorem within_getIeBody {size : JoinObj → Nat} (index : Nat) :
    Within size (x.getIeBody index) ↔ Within size (x.getIe index) := by
  rw [getIeBody, within_bind, and_iff_left within_pure]

theorem within_getHtInfo {size : JoinObj → Nat} : Within size x.getHtInfo ↔ Within size (x.getIe 61) := by
  rw [getHtInfo, within_bind, and_iff_left within_pure]

/-- The objects of a join. -/
abbrev size : JoinObj → Nat := JoinObj.size x.ies.length

/-- `n` bytes from `p` on in the elements are read. -/
def Has (p n : Nat) : Prop := 12 + p + n ≤ x.ies.length

theorem within_network {p n : Nat} (hn : n ≠ 0) : Within x.size (touch .network (p : Nat) n) ↔ p + n ≤ x.ies.length :=
  within_touch_pos hn

theorem within_htInfos {p : Nat} : Within x.size (x.htInfos p) ↔ x.Has p 4 := by
  unfold htInfos
  rw [within_bind, within_network _ Nat.one_ne_zero]
  exact and_iff_left within_pure

theorem within_vhtBw {s : UInt8} {bw p : Nat} : Within x.size (x.vhtBw s bw p) ↔ x.Has p 3 := by
  unfold vhtBw
  rw [within_bind, within_network _ Nat.one_ne_zero]
  exact and_iff_left within_pure

theorem builds_copyIe (index : UInt8) (p : Nat) {n : Nat} (hn : n ≠ 0) (hsmall : n ≤ 255) :
    BuildsT x.size (x.copyIe index p n) [ieOf index (read x.inIe (12 + p + 2) n)] (x.Has p (2 + n)) := by
  refine (BuildsT.read (m := touch .network (12 + p + 2 : Nat) n)
    (f := fun _ => rtwSetIe index (read x.inIe (12 + p + 2) n))
    (builds_rtwSetIe index (by simpa using hsmall) rfl)).congr (fun _ => rfl) (fun _ => Iff.rfl) ?_
  rw [within_network _ hn, and_true, Has, Nat.add_assoc (12 + p)]

theorem builds_copyHtInfo : BuildsT x.size x.copyHtInfo x.htInfoIes
    (Within x.size (x.getIe 61) ∧ ∀ p, x.htInfo = some p → x.Has p 24) := by
  rw [htInfoIes, ← val_getHtInfo, ← within_getHtInfo]
  exact BuildsT.read (m := x.getHtInfo) (f := fun p o => p.elim (pure o) fun p => x.copyIe 61 p 22 o)
    (BuildsT.elim fun p _ => x.builds_copyIe 61 p (by simp) (by simp))

theorem within_htOperationBw40 : Within x.size x.htOperationBw40 ↔
    Within x.size (x.getIe 61) ∧ ∀ p, x.htInfo = some p → x.Has p 4 := by
  unfold htOperationBw40
  rw [within_bind, within_getHtInfo, val_getHtInfo]
  cases x.htInfo with
  | none => simp
  | some p =>
    simp only [Option.elim_some, Option.some.injEq, forall_eq', within_bind, within_pure, and_true, within_htInfos]

theorem builds_ht : BuildsT x.size x.rtwRestructureHtIe ([x.htCapIe] ++ x.htInfoIes)
    (Within x.size (x.getIe 61) ∧ ∀ p, x.htInfo = some p → x.Has p 24) := by
  have hset : BuildsT x.size (rtwSetIe 45 (x.caps.htCapie (x.caps.cbw40Enable && x.htOperationBw40.val)).toList)
      [x.htCapIe] True := builds_rtwSetIe 45 (by simp) rfl
  refine (BuildsT.read (m := x.htOperationBw40) (f := fun bw40 o =>
    rtwSetIe 45 (x.caps.htCapie (x.caps.cbw40Enable && bw40)).toList o >>= x.copyHtInfo)
    (hset.bind x.builds_copyHtInfo)).congr (fun _ => rfl) (fun _ => Iff.rfl) ?_
  rw [within_htOperationBw40]
  constructor
  · rintro ⟨hget, hhas⟩
    refine ⟨⟨hget, fun p hp => ?_⟩, trivial, hget, hhas⟩
    have := hhas p hp
    unfold Has at this ⊢
    omega
  · exact fun h => h.2.2

theorem builds_wmmHt (qosOption : Bool) :
    BuildsT x.size (rtwBuildWmmIeHt qosOption) (if qosOption then [] else [wmmElement 1]) True := by
  cases qosOption with
  | true => exact BuildsT.pure
  | false => exact builds_rtwSetIe 0xdd (by decide) rfl

theorem builds_joinHt (qosOption : Bool) : BuildsT x.size (x.joinHt x.htOption qosOption) (x.htIes qosOption)
    (x.htOption → Within x.size (x.getIe 61) ∧ ∀ p, x.htInfo = some p → x.Has p 24) := by
  refine (BuildsT.ite fun _ => (x.builds_wmmHt qosOption).bind x.builds_ht).congr (fun _ => rfl) (fun _ => Iff.rfl) ?_
  simp only [true_and]

theorem within_htBw : Within x.size x.htBw ↔
    Within x.size (x.getIe 61) ∧ ∀ p, x.findBody 61 = some p → x.Has p.1 4 := by
  unfold htBw
  rw [within_bind, within_getIeBody, val_getIeBody]
  cases x.findBody 61 with
  | none => simp
  | some p =>
    simp only [Option.elim_some, Option.some.injEq, forall_eq', within_bind, within_pure, and_true, within_htInfos]

theorem findBody_bounds {index : Nat} {p : Nat × Nat} (h : x.findBody index = some p) : p.2 ≠ 0 ∧ p.2 ≤ 255 := by
  have hloop (pbuf : List UInt8) (limit fuel i : Nat) (q : Nat × Nat) (hq : rtwGetIeLoop pbuf index limit fuel i = some q) :
      q.2 ≤ 255 := by
    induction fuel generalizing i with
    | zero => cases hq
    | succ fuel ih =>
      rw [rtwGetIeLoop] at hq
      split at hq
      · obtain rfl := Option.some.inj hq
        exact Nat.le_of_lt_succ (UInt8.toNat_lt _)
      · dsimp only at hq
        split at hq
        · cases hq
        · exact ih _ hq
  obtain ⟨hfind, hpos⟩ := Option.filter_eq_some_iff.1 h
  refine ⟨Nat.ne_of_gt (of_decide_eq_true hpos), ?_⟩
  unfold find rtwGetIe at hfind
  split at hfind
  · cases hfind
  · exact hloop _ _ _ _ p hfind

/-- What `rtw_restructure_vht_ie` reads behind the capabilities. -/
def VhtReads : Prop :=
  (Within x.size (x.getIe 61) ∧ ∀ p, x.findBody 61 = some p → x.Has p.1 4) ∧
    Within x.size (x.getIe 192) ∧ ∀ p, x.findBody 192 = some p → x.Has p.1 (2 + p.2)

theorem builds_vhtOperation (p : Nat) : BuildsT x.size (x.buildVhtOperation (x.supportedChnlWidth p))
    (x.vhtOperationIes ++ [ieOf 199 [x.opMode (min x.caps.largestBw (x.operationBw p))]]) x.VhtReads := by
  have hcopy : BuildsT x.size (fun o => (x.findBody 192).elim (pure o) fun p => x.copyIe 192 p.1 p.2 o) x.vhtOperationIes
      (∀ p, x.findBody 192 = some p → x.Has p.1 (2 + p.2)) :=
    BuildsT.elim fun p hp => x.builds_copyIe 192 p.1 (x.findBody_bounds hp).1 (x.findBody_bounds hp).2
  have hmode : BuildsT x.size (rtwSetIe 199 [x.opMode (min x.caps.largestBw (x.operationBw p))])
      [ieOf 199 [x.opMode (min x.caps.largestBw (x.operationBw p))]] True := builds_rtwSetIe 199 (by simp) rfl
  have hbwVal : ((x.findBody 192).elim (pure x.htBw.val) fun q =>
      x.vhtBw (x.supportedChnlWidth p) x.htBw.val q.1).val = x.operationBw p := by
    unfold operationBw
    cases x.findBody 192 with
    | none => rfl
    | some q => rfl
  have hbw : Within x.size ((x.findBody 192).elim (pure x.htBw.val) fun q =>
      x.vhtBw (x.supportedChnlWidth p) x.htBw.val q.1) ↔ ∀ q, x.findBody 192 = some q → x.Has q.1 3 := by
    cases x.findBody 192 with
    | none => simp
    | some q =>
      simp only [Option.elim_some, Option.some.injEq, forall_eq', within_vhtBw]
  refine ((((hcopy.bind hmode).after (∀ q, x.findBody 192 = some q → x.Has q.1 3)).after
    (Within x.size (x.getIe 192))).after (Within x.size x.htBw)).congr (fun o => ?_) (fun o => ?_) ?_
  · unfold buildVhtOperation
    rw [val_bind, val_bind, val_bind, val_getIeBody, hbwVal]
  · unfold buildVhtOperation
    rw [within_bind, within_bind, within_bind, within_getIeBody, val_getIeBody, hbwVal, hbw]
  · unfold VhtReads
    rw [within_htBw]
    constructor
    · rintro ⟨h61, h192, hhas⟩
      refine ⟨h61, h192, fun q hq => ?_, hhas, trivial⟩
      have hpos := (x.findBody_bounds hq).1
      have := hhas q hq
      unfold Has at this ⊢
      omega
    · exact fun h => ⟨h.1, h.2.1, h.2.2.2.1⟩

theorem val_joinVht (o : OutIes) : (x.joinVht x.htOption o).val.1 = x.vhtOption := by
  unfold joinVht vhtOption
  by_cases h : x.htOption ∧ x.vhtEnable
  · rw [if_pos h, rtwRestructureVhtIe, val_bind, val_getIeBody]
    simp only [h, true_and]
    cases x.findBody 191 with
    | none => rfl
    | some p => rfl
  · rw [if_neg h]
    simp only [h, false_and, decide_false]
    rfl

theorem builds_vht : Builds (fun o => (x.rtwRestructureVhtIe o).val.2) (fun o => Within x.size (x.rtwRestructureVhtIe o))
    ((x.findBody 191).elim [] fun p => [ieOf 191 x.caps.vhtCap.toList] ++
      (x.vhtOperationIes ++ [ieOf 199 [x.opMode (min x.caps.largestBw (x.operationBw p.1))]]))
    (Within x.size (x.getIe 191) ∧ ∀ p, x.findBody 191 = some p → x.Has p.1 3 ∧ x.VhtReads) := by
  have hset : BuildsT x.size (rtwSetIe 191 x.caps.vhtCap.toList) [ieOf 191 x.caps.vhtCap.toList] True :=
    builds_rtwSetIe 191 (by simp) rfl
  cases h : x.findBody 191 with
  | none =>
    refine (Builds.pure.after (Within x.size (x.getIe 191))).congr (fun o => ?_) (fun o => ?_) ?_
    · rw [rtwRestructureVhtIe, val_bind, val_getIeBody, h]
      rfl
    · rw [rtwRestructureVhtIe, within_bind, within_getIeBody, val_getIeBody, h]
      exact and_congr_right fun _ => iff_of_true within_pure trivial
    · exact and_congr_right fun _ => iff_of_true (fun _ hp => by cases hp) trivial
  | some p =>
    refine (((hset.bind (x.builds_vhtOperation p.1)).after (x.Has p.1 3)).after (Within x.size (x.getIe 191))).congr
      (fun o => ?_) (fun o => ?_) ?_
    · rw [rtwRestructureVhtIe, val_bind, val_getIeBody, h]
      rfl
    · rw [rtwRestructureVhtIe, within_bind, within_getIeBody, val_getIeBody, h]
      have hhas : Within x.size (touch .network (12 + p.1 + 2 : Nat) 1) ↔ x.Has p.1 3 := within_network _ Nat.one_ne_zero
      simp only [Option.elim_some, within_bind, hhas, within_pure]
      simp
    · simp

theorem builds_joinVht : Builds (fun o => (x.joinVht x.htOption o).val.2) (fun o => Within x.size (x.joinVht x.htOption o))
    x.vhtIes (x.htOption ∧ x.vhtEnable →
      Within x.size (x.getIe 191) ∧ ∀ p, x.findBody 191 = some p → x.Has p.1 3 ∧ x.VhtReads) := by
  refine (Builds.ite fun _ => x.builds_vht).congr (fun o => ?_) (fun o => ?_) Iff.rfl
  · unfold joinVht
    split
    · rfl
    · rfl
  · unfold joinVht
    split
    · case isTrue hc => exact ⟨fun hw _ => hw, fun hw => hw hc⟩
    · case isFalse hc => exact iff_of_true within_pure fun h => absurd h hc

theorem builds_extCap : BuildsT x.size
    (rtwAppendExentedCap (if x.htOption then x.wifiSpec else x.bssCoexist) x.vhtOption) x.extCapIes True := by
  unfold extCapIes
  dsimp only
  by_cases h : capContent (if x.htOption then x.wifiSpec else x.bssCoexist) x.vhtOption = List.replicate 8 0
  · rw [if_pos h]
    exact BuildsT.pure.congr (fun o => by rw [rtwAppendExentedCap, if_pos h])
      (fun o => by rw [rtwAppendExentedCap, if_pos h]) Iff.rfl
  · rw [if_neg h]
    exact (builds_rtwSetIe 127 (by simp [capContent]) rfl).congr (fun o => by rw [rtwAppendExentedCap, if_neg h])
      (fun o => by rw [rtwAppendExentedCap, if_neg h]) Iff.rfl

/-- What is read of the network behind the WMM element. -/
structure HtVhtReads : Prop where
  htCap : Within x.size (x.getIe 45)
  ht : x.htOption → Within x.size (x.getIe 61) ∧ ∀ p, x.htInfo = some p → x.Has p 24
  vht : x.htOption ∧ x.vhtEnable → Within x.size (x.getIe 191) ∧ ∀ p, x.findBody 191 = some p → x.Has p.1 3 ∧ x.VhtReads

theorem builds_joinHtVht (qosOption : Bool) : BuildsT x.size (x.joinHtVht qosOption)
    (x.htIes qosOption ++ (x.vhtIes ++ x.extCapIes)) x.HtVhtReads := by
  refine (((x.builds_joinHt qosOption).comp (x.builds_joinVht.comp x.builds_extCap)).after
    (Within x.size (x.getIe 45))).congr (fun o => ?_) (fun o => ?_) ?_
  · unfold joinHtVht
    rw [val_bind, val_getIeBody, ← x.val_joinVht]
    rfl
  · unfold joinHtVht
    rw [within_bind, within_getIeBody, val_getIeBody, within_bind, within_bind,
      ← x.val_joinVht (x.joinHt x.htOption qosOption o).val]
    rfl
  · exact ⟨fun h => ⟨h.htCap, h.ht, h.vht, trivial⟩, fun h => ⟨h.1, h.2.1, h.2.2.1⟩⟩

end JoinIn

end Rtw
