import Rtw.P2p.NegoElements

/-!
# Negotiation frames that do no harm

`negoSafe_iff`: a handler reads inside the frame and writes inside its destinations exactly if every P2P element that it
comes to is as it has to be, and so are the WPS element of a request and the WFD element behind the loop, if the handler
comes to these.
-/

namespace Rtw
open Access Traced Splice

namespace NegoRx
variable (f : NegoRx)

section
variable {Γ : Type} (Ok : Nat × Nat → Γ → Prop) (To : Nat × Nat → Γ → Round Γ Unit → Prop)

/-- The elements that the loop comes to, with what decides there. -/
inductive NegoAt (ie₀ : Nat × Nat) (x₀ : Γ) : Nat × Nat → Γ → Prop where
  | first : NegoAt ie₀ x₀ ie₀ x₀
  | behind {ie ie' : Nat × Nat} {x x' : Γ} (h : NegoAt ie₀ x₀ ie x) (hto : To ie x (.next x'))
      (hie : f.p2pIe (ie.1 + ie.2) = some ie') : NegoAt ie₀ x₀ ie' x'

/-- The loop ends with a `break`, or because there is no further element. -/
def LoopEnds (ie₀ : Nat × Nat) (x₀ : Γ) : Prop := ∃ ie x, f.NegoAt To ie₀ x₀ ie x ∧
  (To ie x (.stop ()) ∨ ∃ x', To ie x (.next x') ∧ f.p2pIe (ie.1 + ie.2) = none)

def ElementsOk (x₀ : Γ) : Prop := ∀ ie₀, f.p2pIe 0 = some ie₀ → ∀ ie x, f.NegoAt To ie₀ x₀ ie x → Ok ie x

def ElementsEnd (x₀ : Γ) : Prop := ∀ ie₀, f.p2pIe 0 = some ie₀ → f.LoopEnds To ie₀ x₀

end

/-- The elements that the search for a WFD element visits. -/
inductive WfdAt : Nat → Prop where
  | first : WfdAt 0
  | behind {cnt : Nat} (h : WfdAt cnt) (hlt : cnt < f.iesLen) (hno : ¬ f.IsWfd cnt) :
      WfdAt (cnt + (byteAt f.ies (cnt + 1) + 2))

/-- The attributes that the search for the device information visits. -/
inductive WfdAttrAt (wfdIe : Nat → UInt8) (wfdIelen : Nat) : Nat → Prop where
  | first : WfdAttrAt wfdIe wfdIelen 6
  | behind {cnt : Nat} (h : WfdAttrAt wfdIe wfdIelen cnt) (hlt : cnt < wfdIelen) (hno : wfdIe cnt ≠ 0) :
      WfdAttrAt wfdIe wfdIelen (cnt + (wfdAttrLen wfdIe cnt + 3))

/-- The device information is in the buffer, and fits. -/
structure WfdAttrsOk (wfdIe : Nat → UInt8) (wfdIelen : Nat) : Prop where
  headers : ∀ cnt, WfdAttrAt wfdIe wfdIelen cnt → cnt < wfdIelen → cnt + 3 ≤ 128
  content : ∀ cnt, WfdAttrAt wfdIe wfdIelen cnt → cnt < wfdIelen → wfdIe cnt = 0 →
    cnt + 3 + wfdAttrLen wfdIe cnt ≤ 128 ∧ wfdAttrLen wfdIe cnt ≤ 10

/-- The elements up to a WFD element have their headers in the frame; that one is in the frame, and fits. -/
structure WfdOk : Prop where
  headers : ∀ cnt, f.WfdAt cnt → cnt < f.iesLen →
    cnt + 2 ≤ f.iesLen ∧ (byteAt f.ies cnt = 221 → cnt + 6 ≤ f.iesLen)
  element : ∀ cnt, f.WfdAt cnt → cnt < f.iesLen → f.IsWfd cnt →
    cnt + (byteAt f.ies (cnt + 1) + 2) ≤ f.iesLen ∧ byteAt f.ies (cnt + 1) + 2 ≤ 128
  attrs : ∀ cnt, f.WfdAt cnt → cnt < f.iesLen → f.IsWfd cnt →
    let wfdIe := f.copied (cnt, byteAt f.ies (cnt + 1) + 2) fun _ => 0
    WfdHeader wfdIe → WfdAttrsOk wfdIe (byteAt f.ies (cnt + 1) + 2)

/-- The search for a WFD element does no harm, if it is made. -/
def WfdSafe : Prop := f.iesLen < 2 ^ 31 → f.WfdOk

def wpsIe : Option (Nat × Nat) := f.wpsIeT.val

section
variable (s : NegoWd)

/-- The id of the device password fits, if it is fetched. -/
def PwidOk (wpsie : Nat × Nat) : Prop :=
  s.strconfigMethodDesc = ['0', '0', '0'] → f.FetchOk .wps wpsie wpsAttrDevicePwid .wpsDevicepasswordId

/-- The search for it ends, if it is made. -/
def PwidEnds (wpsie : Nat × Nat) : Prop :=
  s.strconfigMethodDesc = ['0', '0', '0'] → ∃ r, f.AttrIs .wps wpsie wpsAttrDevicePwid r

/-- A frame that the handler of its subtype can take. -/
def NegoOk : GoNegoSubtype → Prop
  | .req => 8 ≤ f.len.toNat ∧ ∀ wpsie, f.wpsIe = some wpsie → f.PwidOk s wpsie ∧ (f.PwidEnds s wpsie →
      f.ElementsOk f.ReqIeOk f.ReqIeTo s.ctl ∧
      (f.ElementsEnd f.ReqIeTo s.ctl → s.uiGotWpsInfo ≠ .noWpsinfo → f.WfdSafe))
  | .resp => 8 ≤ f.len.toNat ∧ f.ElementsOk f.RespIeOk f.RespIeTo s.ctl ∧
      (f.ElementsEnd f.RespIeTo s.ctl → f.WfdSafe)
  | .conf => f.ElementsOk (fun ie _ => f.ConfIeOk ie) (fun ie _ => f.ConfIeTo ie) ()

end

end NegoRx

/-! ### The loop -/

section
variable {Γ : Type} {f : NegoRx} {body : Nat × Nat → NegoCur → Prog NegoObj (Round NegoCur NegoCur)}
  {ctl : NegoCur → Γ} {Ok : Nat × Nat → Γ → Prop} {To : Nat × Nat → Γ → Round Γ Unit → Prop}
  {ie ie' ie₀ : Nat × Nat} {c c' c₀ : NegoCur} {x x₀ : Γ} {a : Round NegoCur NegoCur}

theorem safe_nextElement : (f.nextElement ie a).Safe (NegoObj.size f) := by
  unfold NegoRx.nextElement
  cases a with
  | stop c => exact Prog.safe_pure
  | next c =>
    refine Prog.safe_bind.2 ⟨Prog.safe_lift.2 within_p2pIeT, fun r _ => ?_⟩
    cases r with
    | none => exact Prog.safe_pure
    | some ie' => exact Prog.safe_pure

theorem returns_nextElement_next : (f.nextElement ie a).Returns (.next (ie', c')) ↔
    a = .next c' ∧ f.p2pIe (ie.1 + ie.2) = some ie' := by
  unfold NegoRx.nextElement
  cases a with
  | stop c => simp
  | next c =>
    simp only [Prog.returns_bind, Prog.returns_lift, exists_eq_left, val_p2pIeT, Round.next.injEq]
    cases f.p2pIe (ie.1 + ie.2) <;> simp [and_comm, eq_comm]

theorem returns_nextElement_stop : (f.nextElement ie a).Returns (.stop c') ↔
    a = .stop c' ∨ a = .next c' ∧ f.p2pIe (ie.1 + ie.2) = none := by
  unfold NegoRx.nextElement
  cases a with
  | stop c => simp [eq_comm]
  | next c =>
    simp only [Prog.returns_bind, Prog.returns_lift, exists_eq_left, val_p2pIeT, Round.next.injEq]
    cases f.p2pIe (ie.1 + ie.2) <;> simp [eq_comm]

/-- An element that the loop comes to has its header in the frame. -/
theorem elementIn (h : Prog.Reaches (fun t => do f.nextElement t.1 (← body t.1 t.2)) (ie₀, c₀) (ie, c))
    (hie₀ : f.p2pIe 0 = some ie₀) : 8 + ie.1 + 6 ≤ f.len.toNat := by
  generalize ht : (ie, c) = t at h
  cases h with
  | start =>
    cases ht
    exact p2pIe_in hie₀
  | next _ hu =>
    subst ht
    obtain ⟨a, -, hnext⟩ := Prog.returns_bind.1 hu
    exact p2pIe_in (returns_nextElement_next.1 hnext).2

theorem safe_round_iff (hspec : ElementSpec f body ctl Ok To) (hie : 8 + ie.1 + 6 ≤ f.len.toNat) :
    (do f.nextElement ie (← body ie c) : Prog NegoObj _).Safe (NegoObj.size f) ↔ Ok ie (ctl c) := by
  rw [Prog.safe_bind, and_iff_left fun _ _ => safe_nextElement, hspec.safe ie c hie]

/-- If the elements are all right, the loop comes to those of `NegoAt` only. -/
theorem negoAt_of_reaches (hspec : ElementSpec f body ctl Ok To)
    (hok : ∀ ie x, f.NegoAt To ie₀ (ctl c₀) ie x → Ok ie x)
    (h : Prog.Reaches (fun t => do f.nextElement t.1 (← body t.1 t.2)) (ie₀, c₀) (ie, c)) :
    f.NegoAt To ie₀ (ctl c₀) ie (ctl c) := by
  generalize ht : (ie, c) = t at h
  induction h generalizing ie c with
  | start =>
    cases ht
    exact .first
  | @next t u _ hu ih =>
    subst ht
    obtain ⟨a, ha, hnext⟩ := Prog.returns_bind.1 hu
    obtain ⟨rfl, hie⟩ := returns_nextElement_next.1 hnext
    have hat := @ih t.1 t.2 rfl
    exact .behind hat (hspec.leaves _ _ _ (hok _ _ hat) ha) hie

/-- As far as the elements are all right, the loop comes to those of `NegoAt`. -/
theorem reaches_of_negoAt (hspec : ElementSpec f body ctl Ok To) (hie₀ : f.p2pIe 0 = some ie₀)
    (hsafe : (f.elementsT body ie₀ c₀).Safe (NegoObj.size f)) (h : f.NegoAt To ie₀ (ctl c₀) ie x) :
    ∃ c, ctl c = x ∧ Prog.Reaches (fun t => do f.nextElement t.1 (← body t.1 t.2)) (ie₀, c₀) (ie, c) := by
  induction h with
  | first => exact ⟨c₀, rfl, .start⟩
  | @behind ie ie' x x' _ hto hie ih =>
    obtain ⟨c, rfl, hc⟩ := ih
    have hok := (safe_round_iff hspec (elementIn hc hie₀)).1 (Prog.safe_loop.1 hsafe _ hc)
    obtain ⟨a, ha, hout⟩ := hspec.returns ie c _ hok hto
    cases a with
    | stop c' => cases hout
    | next c' =>
      refine ⟨c', Round.next.inj hout, hc.next (Prog.returns_bind.2 ⟨_, ha, ?_⟩)⟩
      exact returns_nextElement_next.2 ⟨rfl, hie⟩

theorem safe_elementsT (hspec : ElementSpec f body ctl Ok To) (hie₀ : f.p2pIe 0 = some ie₀) :
    (f.elementsT body ie₀ c₀).Safe (NegoObj.size f) ↔ ∀ ie x, f.NegoAt To ie₀ (ctl c₀) ie x → Ok ie x := by
  constructor
  · intro hsafe ie x hat
    obtain ⟨c, rfl, hc⟩ := reaches_of_negoAt hspec hie₀ hsafe hat
    exact (safe_round_iff hspec (elementIn hc hie₀)).1 (Prog.safe_loop.1 hsafe _ hc)
  · intro hok
    refine Prog.safe_loop.2 ?_
    rintro ⟨ie, c⟩ ht
    exact (safe_round_iff hspec (elementIn ht hie₀)).2 (hok ie _ (negoAt_of_reaches hspec hok ht))

theorem elementsT_returns (hspec : ElementSpec f body ctl Ok To) (hie₀ : f.p2pIe 0 = some ie₀)
    (hok : ∀ ie x, f.NegoAt To ie₀ (ctl c₀) ie x → Ok ie x) :
    (∃ c, (f.elementsT body ie₀ c₀).Returns c) ↔ f.LoopEnds To ie₀ (ctl c₀) := by
  constructor
  · rintro ⟨c', h⟩
    obtain ⟨⟨ie, c⟩, hc, hstop⟩ := Prog.returns_loop.1 h
    obtain ⟨a, ha, hstop⟩ := Prog.returns_bind.1 hstop
    have hat := negoAt_of_reaches hspec hok hc
    have hto := hspec.leaves ie c a (hok _ _ hat) ha
    rcases returns_nextElement_stop.1 hstop with rfl | ⟨rfl, hend⟩
    · exact ⟨ie, _, hat, .inl hto⟩
    · exact ⟨ie, _, hat, .inr ⟨_, hto, hend⟩⟩
  · rintro ⟨ie, x, hat, hstop⟩
    obtain ⟨c, rfl, hc⟩ := reaches_of_negoAt hspec hie₀ ((safe_elementsT hspec hie₀).2 hok) hat
    have hreturns {a : Round NegoCur NegoCur} {c' : NegoCur} (ha : (body ie c).Returns a)
        (hnext : (f.nextElement ie a).Returns (.stop c')) : ∃ c, (f.elementsT body ie₀ c₀).Returns c :=
      ⟨c', Prog.returns_loop.2 ⟨(ie, c), hc, Prog.returns_bind.2 ⟨a, ha, hnext⟩⟩⟩
    rcases hstop with hto | ⟨x', hto, hend⟩
    · obtain ⟨a, ha, hout⟩ := hspec.returns ie c _ (hok _ _ hat) hto
      cases a with
      | stop c' => exact hreturns ha (returns_nextElement_stop.2 (.inl rfl))
      | next c' => cases hout
    · obtain ⟨a, ha, hout⟩ := hspec.returns ie c _ (hok _ _ hat) hto
      cases a with
      | stop c' => cases hout
      | next c' => exact hreturns ha (returns_nextElement_stop.2 (.inr ⟨rfl, hend⟩))

end

/-! ### The WFD element -/

section
variable {f : NegoRx} {cnt cnt' wfdIelen : Nat} {r : Option (Nat × Nat)} {wfdIe : Nat → UInt8} {c : NegoCur}

theorem wfdIeRound_next : (f.wfdIeRound cnt).Returns (.next cnt') ↔
    cnt < f.iesLen ∧ ¬ f.IsWfd cnt ∧ cnt' = cnt + (byteAt f.ies (cnt + 1) + 2) := by
  unfold NegoRx.wfdIeRound
  split
  · case isTrue hlt =>
    rw [Prog.returns_touch, Prog.returns_touchIf, Prog.returns_touch]
    split
    · case isTrue hwfd =>
      rw [Prog.returns_touch, Prog.returns_touch]
      simp [hwfd]
    · case isFalse hwfd => simp [hlt, hwfd]
  · case isFalse hlt => simp [hlt]

theorem wfdIeRound_stop : (f.wfdIeRound cnt).Returns (.stop r) ↔ f.iesLen ≤ cnt ∧ r = none ∨
    cnt < f.iesLen ∧ f.IsWfd cnt ∧ r = some (cnt, byteAt f.ies (cnt + 1) + 2) := by
  unfold NegoRx.wfdIeRound
  split
  · case isTrue hlt =>
    rw [Prog.returns_touch, Prog.returns_touchIf, Prog.returns_touch]
    split
    · case isTrue hwfd =>
      rw [Prog.returns_touch, Prog.returns_touch]
      simp [hwfd, hlt, Nat.not_le.2 hlt]
    · case isFalse hwfd => simp [hwfd, Nat.not_le.2 hlt]
  · case isFalse hlt => simp [hlt, Nat.not_lt.1 hlt]

theorem safe_wfdIeRound (hlen : 8 ≤ f.len.toNat) : (f.wfdIeRound cnt).Safe (NegoObj.size f) ↔ (cnt < f.iesLen →
    (cnt + 2 ≤ f.iesLen ∧ (byteAt f.ies cnt = 221 → cnt + 6 ≤ f.iesLen)) ∧
    (f.IsWfd cnt → cnt + (byteAt f.ies (cnt + 1) + 2) ≤ f.iesLen ∧ byteAt f.ies (cnt + 1) + 2 ≤ 128)) := by
  have hadd := iesLen_add hlen
  have hsize : NegoObj.size f .frame = f.len.toNat := rfl
  have hbuf : NegoObj.size f .wfdIe = 128 := rfl
  unfold NegoRx.wfdIeRound
  split
  · case isTrue hlt =>
    rw [Prog.safe_touch, Prog.safe_touchIf, Prog.safe_touch, imp_iff_right hlt, hsize, ← hadd]
    split
    · case isTrue hwfd =>
      rw [Prog.safe_touch, Prog.safe_touch, hsize, hbuf, imp_iff_right hwfd, and_iff_left Prog.safe_pure, ← hadd]
      constructor
      · rintro ⟨-, houi, hsize, helem, hfit⟩
        refine ⟨⟨by omega, fun h => ?_⟩, by omega⟩
        have := houi h
        omega
      · rintro ⟨⟨hhdr, houi⟩, helem, hfit⟩
        refine ⟨by omega, fun h => ?_, by omega, by omega, by omega⟩
        have := houi h
        omega
    · case isFalse hwfd =>
      rw [and_iff_left Prog.safe_pure, and_iff_left fun h => absurd h hwfd]
      constructor
      · rintro ⟨-, houi, hsize⟩
        refine ⟨by omega, fun h => ?_⟩
        have := houi h
        omega
      · rintro ⟨hhdr, houi⟩
        refine ⟨by omega, fun h => ?_, by omega⟩
        have := houi h
        omega
  · case isFalse hlt => exact iff_of_true Prog.safe_pure fun h => absurd h hlt

theorem reaches_wfdIeRound : Prog.Reaches f.wfdIeRound 0 cnt ↔ f.WfdAt cnt := by
  constructor
  · intro h
    induction h with
    | start => exact .first
    | next _ hu ih =>
      obtain ⟨hlt, hno, rfl⟩ := wfdIeRound_next.1 hu
      exact .behind ih hlt hno
  · intro h
    induction h with
    | first => exact .start
    | behind _ hlt hno ih => exact .next ih (wfdIeRound_next.2 ⟨hlt, hno, rfl⟩)

theorem wfdAttrRound_next : (NegoRx.wfdAttrRound wfdIe wfdIelen cnt).Returns (.next cnt') ↔
    cnt < wfdIelen ∧ wfdIe cnt ≠ 0 ∧ cnt' = cnt + (NegoRx.wfdAttrLen wfdIe cnt + 3) := by
  unfold NegoRx.wfdAttrRound
  split
  · case isTrue hlt =>
    rw [Prog.returns_touch]
    split
    · case isTrue hid =>
      rw [Prog.returns_touch, Prog.returns_touch]
      simp [hid]
    · case isFalse hid => simp [hlt, hid]
  · case isFalse hlt => simp [hlt]

theorem safe_wfdAttrRound : (NegoRx.wfdAttrRound wfdIe wfdIelen cnt).Safe (NegoObj.size f) ↔ (cnt < wfdIelen →
    cnt + 3 ≤ 128 ∧ (wfdIe cnt = 0 → cnt + 3 + NegoRx.wfdAttrLen wfdIe cnt ≤ 128 ∧ NegoRx.wfdAttrLen wfdIe cnt ≤ 10)) := by
  have hbuf : NegoObj.size f .wfdIe = 128 := rfl
  have hcontent : NegoObj.size f .wfdAttrContent = 10 := rfl
  unfold NegoRx.wfdAttrRound
  split
  · case isTrue hlt =>
    rw [Prog.safe_touch, hbuf, imp_iff_right hlt]
    split
    · case isTrue hid =>
      rw [Prog.safe_touch, Prog.safe_touch, hbuf, hcontent, imp_iff_right hid, and_iff_left Prog.safe_pure]
      omega
    · case isFalse hid =>
      rw [and_iff_left Prog.safe_pure, and_iff_left fun h => absurd h hid]
      omega
  · case isFalse hlt => exact iff_of_true Prog.safe_pure fun h => absurd h hlt

theorem reaches_wfdAttrRound :
    Prog.Reaches (NegoRx.wfdAttrRound wfdIe wfdIelen) 6 cnt ↔ NegoRx.WfdAttrAt wfdIe wfdIelen cnt := by
  constructor
  · intro h
    induction h with
    | start => exact .first
    | next _ hu ih =>
      obtain ⟨hlt, hno, rfl⟩ := wfdAttrRound_next.1 hu
      exact .behind ih hlt hno
  · intro h
    induction h with
    | first => exact .start
    | behind _ hlt hno ih => exact .next ih (wfdAttrRound_next.2 ⟨hlt, hno, rfl⟩)

theorem safe_wfdAttrT : (NegoRx.wfdAttrT wfdIe wfdIelen).Safe (NegoObj.size f) ↔
    (NegoRx.WfdHeader wfdIe → NegoRx.WfdAttrsOk wfdIe wfdIelen) := by
  have hbuf : NegoObj.size f .wfdIe = 128 := rfl
  unfold NegoRx.wfdAttrT
  rw [Prog.safe_touch, Prog.safe_touchIf, hbuf, and_iff_right (.inr (by omega)), and_iff_right fun _ => .inr (by omega)]
  split
  · case isTrue hhdr =>
    rw [imp_iff_right hhdr, Prog.safe_loop]
    constructor
    · intro h
      have hround (cnt : Nat) (hat : NegoRx.WfdAttrAt wfdIe wfdIelen cnt) :=
        safe_wfdAttrRound.1 (h cnt (reaches_wfdAttrRound.2 hat))
      exact ⟨fun cnt hat hlt => (hround cnt hat hlt).1, fun cnt hat hlt => (hround cnt hat hlt).2⟩
    · intro h cnt hat
      have hat := reaches_wfdAttrRound.1 hat
      exact safe_wfdAttrRound.2 fun hlt => ⟨h.headers cnt hat hlt, h.content cnt hat hlt⟩
  · case isFalse hhdr => exact iff_of_true Prog.safe_pure fun h => absurd h hhdr

theorem safe_wfdT (hlen : 8 ≤ f.len.toNat) : (f.wfdT c).Safe (NegoObj.size f) ↔ f.WfdSafe := by
  unfold NegoRx.wfdT NegoRx.wfdIeT NegoRx.WfdSafe
  split
  · case isTrue hneg =>
    refine iff_of_true ?_ fun h => by omega
    refine Prog.safe_bind.2 ⟨Prog.safe_pure, fun r hr => ?_⟩
    obtain rfl := Prog.returns_pure.1 hr
    exact Prog.safe_pure
  · case isFalse hneg =>
    rw [imp_iff_right (Nat.not_le.1 hneg), Prog.safe_bind, Prog.safe_loop]
    constructor
    · rintro ⟨hrounds, hrest⟩
      have hround (cnt : Nat) (hat : f.WfdAt cnt) := (safe_wfdIeRound hlen).1 (hrounds cnt (reaches_wfdIeRound.2 hat))
      refine ⟨fun cnt hat hlt => (hround cnt hat hlt).1, fun cnt hat hlt => (hround cnt hat hlt).2, ?_⟩
      intro cnt hat hlt hwfd
      have hfound := Prog.returns_loop.2 ⟨cnt, reaches_wfdIeRound.2 hat, wfdIeRound_stop.2 (.inr ⟨hlt, hwfd, rfl⟩)⟩
      exact safe_wfdAttrT.1 (Prog.safe_bind.1 (hrest _ hfound)).1
    · intro h
      refine ⟨fun cnt hat => ?_, fun r hr => ?_⟩
      · have hat := reaches_wfdIeRound.1 hat
        exact (safe_wfdIeRound hlen).2 fun hlt => ⟨h.headers cnt hat hlt, h.element cnt hat hlt⟩
      · obtain ⟨cnt, hat, hstop⟩ := Prog.returns_loop.1 hr
        rcases wfdIeRound_stop.1 hstop with ⟨-, rfl⟩ | ⟨hlt, hwfd, rfl⟩
        · exact Prog.safe_pure
        · have hattrs := h.attrs cnt (reaches_wfdIeRound.1 hat) hlt hwfd
          exact Prog.safe_bind.2 ⟨safe_wfdAttrT.2 hattrs, fun _ _ => Prog.safe_pure⟩

end

/-! ### The handlers -/

/-- The fields as they are left. -/
def leftBy : Round NegoCur NegoCur → NegoCur
  | .next c => c
  | .stop c => c

section
variable {f : NegoRx} {ie ie₀ wpsie : Nat × Nat} {c c' : NegoCur} {a : Round NegoCur NegoCur} {s : NegoWd}

theorem gotWps_commonT {common : List UInt8} (h : (f.commonT ie c common).Returns a) :
    (leftBy a).wd.uiGotWpsInfo = c.wd.uiGotWpsInfo := by
  unfold NegoRx.commonT at h
  split at h
  · obtain rfl := Prog.returns_pure.1 h
    rfl
  · split at h
    · obtain ⟨r, -, h⟩ := Prog.returns_bind.1 h
      obtain rfl := Prog.returns_pure.1 h
      rfl
    · obtain rfl := Prog.returns_pure.1 h
      rfl

theorem gotWps_chListT {old : Nat → UInt8} {r : Option (Nat × Nat)} (h : (f.chListT ie c old r).Returns a) :
    (leftBy a).wd.uiGotWpsInfo = c.wd.uiGotWpsInfo := by
  cases r with
  | none =>
    obtain rfl := Prog.returns_pure.1 h
    rfl
  | some r =>
    obtain ⟨t, -, h⟩ := Prog.returns_bind.1 h
    rw [Prog.returns_touch, Prog.returns_touch] at h
    exact gotWps_commonT h

theorem gotWps_reqIeT (h : (f.reqIeT ie c).Returns a) : (leftBy a).wd.uiGotWpsInfo = c.wd.uiGotWpsInfo := by
  obtain ⟨r₁, -, h⟩ := Prog.returns_bind.1 h
  obtain ⟨c', hc', h⟩ := Prog.returns_bind.1 h
  obtain ⟨r₂, -, hctl⟩ := returns_intentT takesRole_reqIntent hc'
  obtain ⟨r₃, -, h⟩ := Prog.returns_bind.1 h
  obtain ⟨r₄, -, h⟩ := Prog.returns_bind.1 h
  obtain ⟨r₅, -, h⟩ := Prog.returns_bind.1 h
  have hwps : c'.ctl.uiGotWpsInfo = c.wd.uiGotWpsInfo := by
    rw [hctl]
    cases r₂ <;> rfl
  rw [gotWps_chListT h, ← hwps]
  exact congrArg NegoCtl.uiGotWpsInfo (ctl_takeIfAddr.trans ctl_takeListenCh)

/-- Whether the user has given the WPS information does not change. -/
theorem gotWps_elementsT (h : (f.elementsT f.reqIeT ie₀ c).Returns c') : c'.wd.uiGotWpsInfo = c.wd.uiGotWpsInfo := by
  obtain ⟨⟨ie, c₁⟩, hc₁, hstop⟩ := Prog.returns_loop.1 h
  have hkeep : c₁.wd.uiGotWpsInfo = c.wd.uiGotWpsInfo := by
    clear hstop
    generalize ht : (ie, c₁) = t at hc₁
    induction hc₁ generalizing ie c₁ with
    | start =>
      cases ht
      rfl
    | @next t u _ hu ih =>
      subst ht
      obtain ⟨a, ha, hnext⟩ := Prog.returns_bind.1 hu
      obtain ⟨rfl, -⟩ := returns_nextElement_next.1 hnext
      exact (gotWps_reqIeT ha).trans (ih t.1 t.2 rfl)
  obtain ⟨a, ha, hstop⟩ := Prog.returns_bind.1 hstop
  rw [← hkeep, ← gotWps_reqIeT ha]
  rcases returns_nextElement_stop.1 hstop with rfl | ⟨rfl, -⟩ <;> rfl

theorem safe_devicePwidT (hie : 8 + wpsie.1 + 6 ≤ f.len.toNat) :
    (f.devicePwidT wpsie c).Safe (NegoObj.size f) ↔ f.PwidOk c.wd wpsie := by
  unfold NegoRx.devicePwidT NegoRx.PwidOk
  split
  · case isTrue h =>
    rw [Prog.safe_bind, and_iff_left fun _ _ => Prog.safe_pure, safe_attrContentT hie, imp_iff_right h]
  · case isFalse h => exact iff_of_true Prog.safe_pure fun h' => absurd h' h

/-- It comes to an end if the search does, and changes nothing else. -/
theorem returns_devicePwidT (h : (f.devicePwidT wpsie c).Returns c') :
    f.PwidEnds c.wd wpsie ∧ c'.ctl = c.ctl := by
  unfold NegoRx.devicePwidT at h
  split at h
  · obtain ⟨r, hr, h⟩ := Prog.returns_bind.1 h
    obtain rfl := Prog.returns_pure.1 h
    exact ⟨fun _ => ⟨r, returns_attrContentT.1 hr⟩, rfl⟩
  · case isFalse hdesc =>
    obtain rfl := Prog.returns_pure.1 h
    exact ⟨fun h => absurd h hdesc, rfl⟩

theorem devicePwidT_returns (h : f.PwidEnds c.wd wpsie) : ∃ c', (f.devicePwidT wpsie c).Returns c' := by
  unfold NegoRx.devicePwidT
  split
  · case isTrue hdesc =>
    obtain ⟨r, hr⟩ := h hdesc
    exact ⟨_, Prog.returns_bind.2 ⟨r, returns_attrContentT.2 hr, Prog.returns_pure.2 rfl⟩⟩
  · exact ⟨c, Prog.returns_pure.2 rfl⟩

theorem safe_reqEndT (hlen : 8 ≤ f.len.toNat) : (f.reqEndT c).Safe (NegoObj.size f) ↔
    (c.wd.uiGotWpsInfo ≠ .noWpsinfo → f.WfdSafe) := by
  unfold NegoRx.reqEndT
  split
  · case isTrue h => exact iff_of_true Prog.safe_pure fun hno => absurd h hno
  · case isFalse h => rw [safe_wfdT hlen, imp_iff_right h]

section
variable {Γ : Type} {body : Nat × Nat → NegoCur → Prog NegoObj (Round NegoCur NegoCur)} {ctl : NegoCur → Γ}
  {Ok : Nat × Nat → Γ → Prop} {To : Nat × Nat → Γ → Round Γ Unit → Prop} {g : NegoCur → Prog NegoObj NegoCur} {x : Γ}

theorem elementsOk_some (hie₀ : f.p2pIe 0 = some ie₀) :
    f.ElementsOk Ok To x ↔ ∀ ie x', f.NegoAt To ie₀ x ie x' → Ok ie x' := by
  constructor
  · exact fun h => h ie₀ hie₀
  · rintro h ie₁ hie₁
    rwa [← Option.some.inj (hie₀.symm.trans hie₁)]

theorem elementsEnd_some (hie₀ : f.p2pIe 0 = some ie₀) : f.ElementsEnd To x ↔ f.LoopEnds To ie₀ x := by
  constructor
  · exact fun h => h ie₀ hie₀
  · rintro h ie₁ hie₁
    rwa [← Option.some.inj (hie₀.symm.trans hie₁)]

theorem elements_none (Ok : Nat × Nat → Γ → Prop) (To : Nat × Nat → Γ → Round Γ Unit → Prop) (x : Γ)
    (h : f.p2pIe 0 = none) : f.ElementsOk Ok To x ∧ f.ElementsEnd To x := by
  constructor
  · rintro ie₀ hie₀
    cases h.symm.trans hie₀
  · rintro ie₀ hie₀
    cases h.symm.trans hie₀

/-- The loop over the elements, and what comes behind it. -/
theorem safe_elements_bind {P : Prop} (hspec : ElementSpec f body ctl Ok To) (hie₀ : f.p2pIe 0 = some ie₀)
    (hg : ∀ c', (f.elementsT body ie₀ c).Returns c' → ((g c').Safe (NegoObj.size f) ↔ P)) :
    (f.elementsT body ie₀ c >>= g).Safe (NegoObj.size f) ↔
      f.ElementsOk Ok To (ctl c) ∧ (f.ElementsEnd To (ctl c) → P) := by
  rw [Prog.safe_bind, safe_elementsT hspec hie₀, elementsOk_some hie₀, elementsEnd_some hie₀]
  refine and_congr_right fun hall => ?_
  rw [← elementsT_returns hspec hie₀ hall, forall_exists_index]
  exact forall₂_congr fun c' hc' => hg c' hc'

end

theorem safe_processConfirm : (f.processConfirm s).Safe (NegoObj.size f) ↔ f.NegoOk s .conf := by
  unfold NegoRx.processConfirm NegoRx.NegoOk
  simp only [Prog.safe_bind, Prog.safe_lift, within_p2pIeT, true_and, Prog.returns_lift, forall_eq, val_p2pIeT]
  cases hie₀ : f.p2pIe 0 with
  | none => exact iff_of_true Prog.safe_pure (elements_none _ _ _ hie₀).1
  | some ie₀ => exact (safe_elementsT (confIeT_spec f) hie₀).trans (elementsOk_some hie₀).symm

theorem safe_processResp : (f.processResp s).Safe (NegoObj.size f) ↔ f.NegoOk s .resp := by
  unfold NegoRx.processResp NegoRx.NegoOk
  rw [Prog.safe_bind, Prog.safe_lift, within_wpsIeT_iff]
  refine and_congr_right fun hlen => ?_
  simp only [Prog.safe_bind, Prog.safe_lift, within_p2pIeT, true_and, Prog.returns_lift, forall_eq, val_p2pIeT]
  cases hie₀ : f.p2pIe 0 with
  | none =>
    obtain ⟨hok, hend⟩ := elements_none f.RespIeOk f.RespIeTo s.ctl hie₀
    rw [and_iff_right hok, imp_iff_right hend]
    exact safe_wfdT hlen
  | some ie₀ =>
    refine (safe_elements_bind (respIeT_spec f) hie₀ fun _ _ => safe_wfdT hlen).trans ?_
    split
    · exact Iff.rfl
    · exact Iff.rfl

theorem safe_reqElementsT (hlen : 8 ≤ f.len.toNat) (hctl : c.ctl = s.ctl) :
    (f.reqElementsT c).Safe (NegoObj.size f) ↔ f.ElementsOk f.ReqIeOk f.ReqIeTo s.ctl ∧
      (f.ElementsEnd f.ReqIeTo s.ctl → s.uiGotWpsInfo ≠ .noWpsinfo → f.WfdSafe) := by
  have hwps : c.wd.uiGotWpsInfo = s.uiGotWpsInfo := congrArg NegoCtl.uiGotWpsInfo hctl
  rw [← hctl, ← hwps]
  unfold NegoRx.reqElementsT
  simp only [Prog.safe_bind, Prog.safe_lift, within_p2pIeT, true_and, Prog.returns_lift, forall_eq, val_p2pIeT]
  cases hie₀ : f.p2pIe 0 with
  | none =>
    obtain ⟨hok, hend⟩ := elements_none f.ReqIeOk f.ReqIeTo c.ctl hie₀
    rw [and_iff_right hok, imp_iff_right hend]
    exact safe_reqEndT hlen
  | some ie₀ =>
    refine safe_elements_bind (reqIeT_spec f) hie₀ fun c' hc' => ?_
    rw [safe_reqEndT hlen, gotWps_elementsT hc']

theorem safe_processReq : (f.processReq s).Safe (NegoObj.size f) ↔ f.NegoOk s .req := by
  unfold NegoRx.processReq NegoRx.NegoOk
  rw [Prog.safe_bind, Prog.safe_lift, within_wpsIeT_iff]
  refine and_congr_right fun hlen => ?_
  simp only [Prog.returns_lift, forall_eq]
  cases hwps : f.wpsIeT.val with
  | none => exact iff_of_true Prog.safe_pure fun _ h => absurd (hwps.symm.trans h).symm (Option.some_ne_none _)
  | some wpsie =>
    have hone (P : Nat × Nat → Prop) : (∀ w, f.wpsIe = some w → P w) ↔ P wpsie := by
      constructor
      · exact fun h => h wpsie hwps
      · rintro h w hw
        rwa [← Option.some.inj (hwps.symm.trans hw)]
    rw [hone, Prog.safe_bind, safe_devicePwidT (wpsIeT_in hwps hlen)]
    refine and_congr_right fun _ => ⟨?_, ?_⟩
    · intro h hends
      obtain ⟨c', hc'⟩ := devicePwidT_returns (c := ⟨s, P2pStatus.success.code, fun _ => 0⟩) hends
      exact (safe_reqElementsT hlen (returns_devicePwidT hc').2).1 (h c' hc')
    · intro h c' hc'
      obtain ⟨hends, hctl⟩ := returns_devicePwidT hc'
      exact (safe_reqElementsT hlen hctl).2 (h hends)

/-- A handler does no harm exactly if the frame is one that it can take. -/
theorem negoSafe_iff (f : NegoRx) (s : NegoWd) (sub : GoNegoSubtype) :
    (f.processNego s sub).Safe (NegoObj.size f) ↔ f.NegoOk s sub := by
  cases sub with
  | req => exact safe_processReq
  | resp => exact safe_processResp
  | conf => exact safe_processConfirm

/-- The status attribute of a confirm has five bytes of content. -/
theorem not_negoSafe : ¬ ∀ (f : NegoRx) (s : NegoWd) (sub : GoNegoSubtype), (f.processNego s sub).Safe (NegoObj.size f) := by
  intro h
  let f : NegoRx := ⟨[4, 9, 0x50, 0x6F, 0x9A, 9, 2, 1, 221, 12, 0x50, 0x6F, 0x9A, 9, 0, 5, 0, 0, 0, 0, 0, 0], 22⟩
  let s : NegoWd :=
    { p2pState := .gonegoIng, preP2pState := .gonegoIng, role := .device, intent := 7, peerIntent := 7,
      operatingChannel := 6, peerOperatingCh := 6, peerCh := 6, p2pPeerInterfaceAddr := fun _ => 0,
      deviceAddr := fun _ => 2, goDeviceAddr := fun _ => 0, ssid := fun _ => 0, negoSsid := fun _ => 0,
      negoSsidlen := 0, channelListAttr := fun _ => 0, channelListAttrLen := 0, channelSet := [1, 6, 11],
      uiGotWpsInfo := .pbc, strconfigMethodDesc := ['p', 'b', 'c'], peerRtspCtrlport := 0,
      negotiationDialogToken := 1, restoreTimer := false }
  exact absurd (h f s .conf 2) (by decide +kernel)

end

end Rtw
