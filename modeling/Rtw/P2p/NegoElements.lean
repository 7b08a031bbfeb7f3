import Rtw.P2p.NegoBounds

/-!
# The elements of negotiation frames

What a handler does with one element, in terms of what it fetches: `reqIeT_spec`, `respIeT_spec`, `confIeT_spec`.
-/

namespace Rtw
open Access Traced Splice

section
variable {f : NegoRx} {ie : Nat × Nat} {c c' : NegoCur} {take : NegoCur → UInt8 → NegoCur} {r : Option (Nat × Nat)}

theorem safe_ownGroupT : (NegoRx.ownGroupT c).Safe (NegoObj.size f) ↔ (c.ctl.role = .go → c.ctl.negoSsidlen.toNat ≤ 32) := by
  have hroom : c.wd.negoSsidlen.toNat = 0 ∨ 0 + c.wd.negoSsidlen.toNat ≤ 32 ↔ c.ctl.negoSsidlen.toNat ≤ 32 := by
    show _ ↔ c.wd.negoSsidlen.toNat ≤ 32
    omega
  unfold NegoRx.ownGroupT
  split
  · case isTrue hgo =>
    rw [Prog.safe_touch, Prog.safe_touch, imp_iff_right (show c.ctl.role = .go from hgo)]
    exact (and_congr hroom ((and_iff_left Prog.safe_pure).trans hroom)).trans and_self_iff
  · case isFalse hgo => exact iff_of_true Prog.safe_pure fun h => absurd h hgo

theorem returns_ownGroupT : ∃ c', (NegoRx.ownGroupT c).Returns c' ∧ c'.ctl = c.ctl := by
  unfold NegoRx.ownGroupT
  split
  · refine ⟨NegoRx.takeOwnGroup c, ?_, rfl⟩
    rw [Prog.returns_touch, Prog.returns_touch]
    exact Prog.returns_pure.2 rfl
  · exact ⟨c, Prog.returns_pure.2 rfl, rfl⟩

/-- What an intent attribute does to the fields that decide. -/
def TakesRole (take : NegoCur → UInt8 → NegoCur) : Prop :=
  ∀ c attr, (take c attr).ctl = { c.ctl with role := negoRole c.wd.intent.toNat attr.toNat }

theorem takesRole_reqIntent : TakesRole NegoRx.reqIntent := fun _ _ => rfl

theorem takesRole_respIntent : TakesRole NegoRx.respIntent := by
  intro c attr
  unfold NegoRx.respIntent
  dsimp only
  split <;> rfl

theorem safe_intentT (hie : 8 + ie.1 + 6 ≤ f.len.toNat) (htake : TakesRole take) :
    (f.intentT ie c take).Safe (NegoObj.size f) ↔
      f.Fetches ie .goIntent fun r => NegoRx.OwnSsidOk (f.afterIntent c.ctl r) r := by
  unfold NegoRx.intentT
  rw [safe_attrT_bind hie]
  refine fetches_congr fun _ r _ => ?_
  cases r with
  | none => exact iff_of_true Prog.safe_pure fun h => absurd h Bool.false_ne_true
  | some r =>
    rw [safe_ownGroupT, htake]
    exact (imp_iff_right (a := Option.isSome (some r)) rfl).symm

theorem intentT_returns (htake : TakesRole take) (hr : f.Says ie .goIntent r) :
    ∃ c', (f.intentT ie c take).Returns c' ∧ c'.ctl = f.afterIntent c.ctl r := by
  unfold NegoRx.intentT
  cases r with
  | none => exact ⟨c, Prog.returns_bind.2 ⟨none, returns_attrT.2 hr, Prog.returns_pure.2 rfl⟩, rfl⟩
  | some r =>
    obtain ⟨c', hc', hctl⟩ := returns_ownGroupT (c := take c (f.copied r (fun _ => 0) 0))
    exact ⟨c', Prog.returns_bind.2 ⟨some r, returns_attrT.2 hr, hc'⟩, hctl.trans (htake c _)⟩

theorem returns_intentT (htake : TakesRole take) (h : (f.intentT ie c take).Returns c') :
    ∃ r, f.Says ie .goIntent r ∧ c'.ctl = f.afterIntent c.ctl r := by
  obtain ⟨r, hr, -⟩ := Prog.returns_bind.1 h
  obtain ⟨c'', hc'', hctl⟩ := intentT_returns (c := c) htake (returns_attrT.1 hr)
  exact ⟨r, returns_attrT.1 hr, by rw [h.unique hc'', hctl]⟩

theorem safe_intentT_bind {α : Type} {g : NegoCur → Prog NegoObj α} {P : NegoCtl → Prop}
    (hie : 8 + ie.1 + 6 ≤ f.len.toNat) (htake : TakesRole take) (hg : ∀ c', (g c').Safe (NegoObj.size f) ↔ P c'.ctl) :
    (f.intentT ie c take >>= g).Safe (NegoObj.size f) ↔
      f.Fetches ie .goIntent fun r => NegoRx.OwnSsidOk (f.afterIntent c.ctl r) r ∧ P (f.afterIntent c.ctl r) := by
  rw [Prog.safe_bind, safe_intentT hie htake]
  constructor
  · rintro ⟨⟨hok, hown⟩, hrest⟩
    refine ⟨hok, fun r hr => ⟨hown r hr, ?_⟩⟩
    obtain ⟨c', hc', hctl⟩ := intentT_returns htake hr
    rw [← hctl]
    exact (hg c').1 (hrest c' hc')
  · rintro ⟨hok, hall⟩
    refine ⟨⟨hok, fun r hr => (hall r hr).1⟩, fun c' hc' => (hg c').2 ?_⟩
    obtain ⟨r, hr, hctl⟩ := returns_intentT htake hc'
    rw [hctl]
    exact (hall r hr).2

@[simp] theorem ctl_takeListenCh : (f.takeListenCh c r).ctl = c.ctl := by
  unfold NegoRx.takeListenCh
  split
  · rfl
  · split <;> rfl

@[simp] theorem ctl_takeIfAddr : (f.takeIfAddr c r).ctl = c.ctl := by
  unfold NegoRx.takeIfAddr
  split <;> rfl

@[simp] theorem ctl_takeOperatingCh : (f.takeOperatingCh c r).ctl = c.ctl := by
  unfold NegoRx.takeOperatingCh
  split <;> rfl

/-- The SSID of a group id fits if the group id does, and has an address. -/
theorem ssidLen_fits {n : Nat} (hn : n ≤ 38) : (ssidLen n = 0 ∨ 6 + ssidLen n ≤ 38) ∧
    (ssidLen n = 0 ∨ 0 + ssidLen n ≤ 32) ↔ 6 ≤ n := by
  unfold ssidLen
  omega

theorem safe_groupIdT (hie : 8 + ie.1 + 6 ≤ f.len.toNat) :
    (f.groupIdT ie c).Safe (NegoObj.size f) ↔ f.Fetches ie .groupId NegoRx.GroupIdOk := by
  unfold NegoRx.groupIdT
  rw [safe_attrT_bind hie]
  refine fetches_congr fun hok r hr => ?_
  cases r with
  | none => exact iff_of_true Prog.safe_pure fun c h => absurd h.symm (Option.some_ne_none c)
  | some r =>
    have hfits := ssidLen_fits (hok.content r.1 r.2 hr).2
    rw [Prog.safe_touch, Prog.safe_touch, ← and_assoc, and_iff_left Prog.safe_pure]
    refine hfits.trans ⟨fun h c hc => ?_, fun h => h r rfl⟩
    rwa [← Option.some.inj hc]

theorem groupIdT_returns (hr : f.Says ie .groupId r) : ∃ c', (f.groupIdT ie c).Returns c' ∧ c'.ctl = c.ctl := by
  unfold NegoRx.groupIdT
  cases r with
  | none => exact ⟨c, Prog.returns_bind.2 ⟨none, returns_attrT.2 hr, Prog.returns_pure.2 rfl⟩, rfl⟩
  | some r =>
    refine ⟨f.takeGroupId c r, Prog.returns_bind.2 ⟨some r, returns_attrT.2 hr, ?_⟩, rfl⟩
    dsimp only
    rw [Prog.returns_touch, Prog.returns_touch]
    exact Prog.returns_pure.2 rfl

theorem returns_groupIdT (h : (f.groupIdT ie c).Returns c') : c'.ctl = c.ctl ∧ ∃ r, f.Says ie .groupId r := by
  obtain ⟨r, hr, -⟩ := Prog.returns_bind.1 h
  obtain ⟨c'', hc'', hctl⟩ := groupIdT_returns (c := c) (returns_attrT.1 hr)
  exact ⟨by rw [h.unique hc'', hctl], r, returns_attrT.1 hr⟩

variable {old : Nat → UInt8} {a : Round NegoCur NegoCur} {o : Round NegoCtl Unit} {x : NegoCtl}

theorem safe_chListT (hie : 8 + ie.1 + 6 ≤ f.len.toNat) (hctl : c.ctl = x)
    (hok : f.FetchOk .p2p ie NegoAttr.chList.id NegoAttr.chList.dest) (hr : f.Says ie .chList r) :
    (f.chListT ie c old r).Safe (NegoObj.size f) ↔ f.ChansOk ie x r := by
  subst hctl
  cases r with
  | none => exact iff_of_true Prog.safe_pure fun c h => absurd h.symm (Option.some_ne_none c)
  | some r => exact safe_checkChListT hie (hok.content r.1 r.2 hr).2

theorem chListT_leaves (hctl : c.ctl = x) (hok : f.FetchOk .p2p ie NegoAttr.chList.id NegoAttr.chList.dest)
    (hch : f.ChansOk ie x r) (hr : f.Says ie .chList r) (ha : (f.chListT ie c old r).Returns a) :
    f.ChansTo ie x r (outcome NegoCur.ctl a) := by
  subst hctl
  cases r with
  | none =>
    obtain rfl := Prog.returns_pure.1 ha
    exact .absent
  | some r => exact chansTo_of_returns (hok.content r.1 r.2 hr).2 hch ha

theorem chListT_returns (hctl : c.ctl = x) (hok : f.FetchOk .p2p ie NegoAttr.chList.id NegoAttr.chList.dest)
    (hr : f.Says ie .chList r) (h : f.ChansTo ie x r o) :
    ∃ a, (f.chListT ie c old r).Returns a ∧ outcome NegoCur.ctl a = o := by
  subst hctl
  cases r with
  | none =>
    cases h
    exact ⟨.next c, Prog.returns_pure.2 rfl, rfl⟩
  | some r => exact returns_of_chansTo (hok.content r.1 r.2 hr).2 h

/-- What a handler does with an element, in terms of what it fetches. -/
structure ElementSpec {Γ : Type} (f : NegoRx) (body : Nat × Nat → NegoCur → Prog NegoObj (Round NegoCur NegoCur))
    (ctl : NegoCur → Γ) (Ok : Nat × Nat → Γ → Prop) (To : Nat × Nat → Γ → Round Γ Unit → Prop) : Prop where
  safe : ∀ ie c, 8 + ie.1 + 6 ≤ f.len.toNat → ((body ie c).Safe (NegoObj.size f) ↔ Ok ie (ctl c))
  leaves : ∀ ie c a, Ok ie (ctl c) → (body ie c).Returns a → To ie (ctl c) (outcome ctl a)
  returns : ∀ ie c o, Ok ie (ctl c) → To ie (ctl c) o → ∃ a, (body ie c).Returns a ∧ outcome ctl a = o

theorem reqIeT_spec (f : NegoRx) : ElementSpec f f.reqIeT NegoCur.ctl f.ReqIeOk f.ReqIeTo where
  safe ie c hie := by
    refine (safe_attrT_bind hie).trans (fetches_congr fun _ _ _ => ?_)
    refine safe_intentT_bind (P := fun x => f.Fetches ie .listenCh fun _ => f.Fetches ie .intentedIfAddr fun _ =>
      f.Fetches ie .chList fun r' => f.ChansOk ie x r') hie takesRole_reqIntent fun c' => ?_
    refine (safe_attrT_bind hie).trans (fetches_congr fun _ _ _ => ?_)
    refine (safe_attrT_bind hie).trans (fetches_congr fun _ _ _ => ?_)
    refine (safe_attrT_bind hie).trans (fetches_congr fun hok _ hr => ?_)
    exact safe_chListT hie (ctl_takeIfAddr.trans ctl_takeListenCh) hok hr
  leaves ie c a hok ha := by
    obtain ⟨r₁, hr₁, ha⟩ := Prog.returns_bind.1 ha
    obtain ⟨c', hc', ha⟩ := Prog.returns_bind.1 ha
    obtain ⟨r₂, hr₂, hctl⟩ := returns_intentT takesRole_reqIntent hc'
    obtain ⟨r₃, hr₃, ha⟩ := Prog.returns_bind.1 ha
    obtain ⟨r₄, hr₄, ha⟩ := Prog.returns_bind.1 ha
    obtain ⟨r₅, hr₅, ha⟩ := Prog.returns_bind.1 ha
    rw [returns_attrT] at hr₁ hr₃ hr₄ hr₅
    have hch := ((((hok.2 r₁ hr₁).2 r₂ hr₂).2.2 r₃ hr₃).2 r₄ hr₄)
    exact ⟨r₁, hr₁, r₂, hr₂, r₃, hr₃, r₄, hr₄, r₅, hr₅,
      chListT_leaves (ctl_takeIfAddr.trans (ctl_takeListenCh.trans hctl)) hch.1 (hch.2 r₅ hr₅) hr₅ ha⟩
  returns ie c o hok h := by
    obtain ⟨r₁, hr₁, r₂, hr₂, r₃, hr₃, r₄, hr₄, r₅, hr₅, ho⟩ := h
    obtain ⟨c', hc', hctl⟩ := intentT_returns (c := c.setState .gonegoIng) takesRole_reqIntent hr₂
    have hch := ((((hok.2 r₁ hr₁).2 r₂ hr₂).2.2 r₃ hr₃).2 r₄ hr₄)
    obtain ⟨a, ha, hout⟩ := chListT_returns (ctl_takeIfAddr.trans (ctl_takeListenCh.trans hctl)) hch.1 hr₅ ho
    refine ⟨a, ?_, hout⟩
    rw [← returns_attrT] at hr₁ hr₃ hr₄ hr₅
    exact Prog.returns_bind.2 ⟨r₁, hr₁, Prog.returns_bind.2 ⟨c', hc', Prog.returns_bind.2 ⟨r₃, hr₃,
      Prog.returns_bind.2 ⟨r₄, hr₄, Prog.returns_bind.2 ⟨r₅, hr₅, ha⟩⟩⟩⟩⟩

theorem safe_respGroupT (hie : 8 + ie.1 + 6 ≤ f.len.toNat) : (f.respGroupT ie (.next c)).Safe (NegoObj.size f) ↔
    f.Fetches ie .groupId NegoRx.GroupIdOk := by
  unfold NegoRx.respGroupT
  rw [Prog.safe_bind, and_iff_left fun _ _ => Prog.safe_pure, safe_groupIdT hie]

theorem returns_respGroupT (ha : (f.respGroupT ie (.next c)).Returns a) :
    outcome NegoCur.ctl a = .next c.ctl ∧ ∃ r, f.Says ie .groupId r := by
  obtain ⟨c', hc', ha⟩ := Prog.returns_bind.1 ha
  obtain rfl := Prog.returns_pure.1 ha
  obtain ⟨hctl, hr⟩ := returns_groupIdT hc'
  exact ⟨congrArg Round.next hctl, hr⟩

theorem respGroupT_returns (hr : f.Says ie .groupId r) :
    ∃ a, (f.respGroupT ie (.next c)).Returns a ∧ outcome NegoCur.ctl a = .next c.ctl := by
  obtain ⟨c', hc', hctl⟩ := groupIdT_returns (c := c) hr
  exact ⟨.next c', Prog.returns_bind.2 ⟨c', hc', Prog.returns_pure.2 rfl⟩, congrArg Round.next hctl⟩

theorem safe_respAcceptT (hie : 8 + ie.1 + 6 ≤ f.len.toNat) :
    (f.respAcceptT ie c).Safe (NegoObj.size f) ↔ f.RespAcceptOk ie c.ctl := by
  refine (safe_attrT_bind hie).trans (fetches_congr fun _ r₁ _ => ?_)
  rw [← ctl_takeIfAddr (f := f) (c := c) (r := r₁)]
  refine safe_intentT_bind (P := fun x => f.Fetches ie .operatingCh fun _ => f.Fetches ie .chList fun r' =>
    f.ChansOk ie x r' ∧ ((∃ x', f.ChansTo ie x r' (.next x')) → f.Fetches ie .groupId NegoRx.GroupIdOk)) hie
    takesRole_respIntent fun c' => ?_
  refine (safe_attrT_bind hie).trans (fetches_congr fun _ r₃ _ => ?_)
  refine (safe_attrT_bind hie).trans (fetches_congr fun hok r hr => ?_)
  have hctl : (f.takeChList (f.takeOperatingCh c' r₃) r).ctl = c'.ctl := ctl_takeOperatingCh
  rw [Prog.safe_bind, safe_chListT hie hctl hok hr]
  refine and_congr_right fun hch => ⟨?_, ?_⟩
  · rintro hall ⟨x', hx'⟩
    obtain ⟨a, ha, hout⟩ := chListT_returns hctl hok hr hx'
    cases a with
    | stop _ => cases hout
    | next c'' => exact (safe_respGroupT hie).1 (hall _ ha)
  · intro hgroup a ha
    have hout := chListT_leaves hctl hok hch hr ha
    cases a with
    | stop _ => exact Prog.safe_pure
    | next c'' => exact (safe_respGroupT hie).2 (hgroup ⟨_, hout⟩)

theorem respAcceptT_leaves (hok : f.RespAcceptOk ie c.ctl) (ha : (f.respAcceptT ie c).Returns a) :
    f.RespAcceptTo ie c.ctl (outcome NegoCur.ctl a) := by
  obtain ⟨r₁, hr₁, ha⟩ := Prog.returns_bind.1 ha
  obtain ⟨c', hc', ha⟩ := Prog.returns_bind.1 ha
  obtain ⟨r₂, hr₂, hctl⟩ := returns_intentT takesRole_respIntent hc'
  obtain ⟨r₃, hr₃, ha⟩ := Prog.returns_bind.1 ha
  obtain ⟨r₄, hr₄, ha⟩ := Prog.returns_bind.1 ha
  obtain ⟨b, hb, ha⟩ := Prog.returns_bind.1 ha
  rw [returns_attrT] at hr₁ hr₃ hr₄
  rw [ctl_takeIfAddr] at hctl
  have hch := ((hok.2 r₁ hr₁).2 r₂ hr₂).2.2 r₃ hr₃
  have hout := chListT_leaves (c := f.takeChList (f.takeOperatingCh c' r₃) r₄)
    (ctl_takeOperatingCh.trans hctl) hch.1 (hch.2 r₄ hr₄).1 hr₄ hb
  refine ⟨r₁, hr₁, r₂, hr₂, r₃, hr₃, r₄, hr₄, ?_⟩
  cases b with
  | stop c'' =>
    obtain rfl := Prog.returns_pure.1 ha
    exact ⟨hout, fun h => absurd rfl h⟩
  | next c'' =>
    obtain ⟨hnext, r₅, hr₅⟩ := returns_respGroupT ha
    rw [hnext]
    exact ⟨hout, fun _ => ⟨r₅, hr₅, trivial⟩⟩

theorem respAcceptT_returns (hok : f.RespAcceptOk ie c.ctl) (h : f.RespAcceptTo ie c.ctl o) :
    ∃ a, (f.respAcceptT ie c).Returns a ∧ outcome NegoCur.ctl a = o := by
  obtain ⟨r₁, hr₁, r₂, hr₂, r₃, hr₃, r₄, hr₄, ho, hgroup⟩ := h
  obtain ⟨c', hc', hctl⟩ := intentT_returns (c := f.takeIfAddr c r₁) takesRole_respIntent hr₂
  rw [ctl_takeIfAddr] at hctl
  have hch := ((hok.2 r₁ hr₁).2 r₂ hr₂).2.2 r₃ hr₃
  let c₂ := f.takeOperatingCh c' r₃
  obtain ⟨b, hb, hout⟩ := chListT_returns (c := f.takeChList c₂ r₄) (ctl_takeOperatingCh.trans hctl) hch.1 hr₄ ho
  rw [← returns_attrT] at hr₁ hr₃ hr₄
  have hrun {a : Round NegoCur NegoCur} (ha : (f.respGroupT ie b).Returns a) : (f.respAcceptT ie c).Returns a :=
    Prog.returns_bind.2 ⟨r₁, hr₁, Prog.returns_bind.2 ⟨c', hc', Prog.returns_bind.2 ⟨r₃, hr₃,
      Prog.returns_bind.2 ⟨r₄, hr₄, Prog.returns_bind.2 ⟨b, hb, ha⟩⟩⟩⟩⟩
  cases b with
  | stop c'' => exact ⟨.stop c'', hrun (Prog.returns_pure.2 rfl), hout⟩
  | next c'' =>
    subst hout
    obtain ⟨r₅, hr₅, -⟩ := hgroup fun h => by cases h
    obtain ⟨a, ha, hout⟩ := respGroupT_returns (c := c'') hr₅
    exact ⟨a, hrun ha, hout⟩

theorem respStatusT_accepted (h : f.Accepted r) : f.respStatusT ie c (f.statusOf r) = f.respAcceptT ie c := by
  rcases h with h | h
  · rw [h]
    rfl
  · rw [h]
    unfold NegoRx.respStatusT
    exact if_pos rfl

theorem respStatusT_refused (h : ¬ f.Accepted r) : ∃ c', f.respStatusT ie c (f.statusOf r) = return .stop c' := by
  unfold NegoRx.Accepted at h
  cases hs : f.statusOf r with
  | none => exact absurd (.inl hs) h
  | some status => exact ⟨_, if_neg fun hzero => h (.inr (by rw [hs, hzero]))⟩

theorem respIeT_spec (f : NegoRx) : ElementSpec f f.respIeT NegoCur.ctl f.RespIeOk f.RespIeTo where
  safe ie c hie := by
    refine (safe_attrT_bind hie).trans (fetches_congr fun _ _ _ => ?_)
    refine (safe_attrT_bind hie).trans (fetches_congr fun _ r _ => ?_)
    by_cases hacc : f.Accepted r
    · rw [respStatusT_accepted hacc, safe_respAcceptT hie, imp_iff_right hacc]
    · obtain ⟨c', hc'⟩ := respStatusT_refused (c := c) hacc
      rw [hc']
      exact iff_of_true Prog.safe_pure fun h => absurd h hacc
  leaves ie c a hok ha := by
    obtain ⟨r₁, hr₁, ha⟩ := Prog.returns_bind.1 ha
    obtain ⟨r, hr, ha⟩ := Prog.returns_bind.1 ha
    rw [returns_attrT] at hr₁ hr
    refine ⟨r₁, hr₁, r, hr, ?_⟩
    by_cases hacc : f.Accepted r
    · rw [respStatusT_accepted hacc] at ha
      have hto := respAcceptT_leaves ((hok.2 r₁ hr₁).2 r hr hacc) ha
      simpa only [if_pos hacc] using hto
    · obtain ⟨c', hc'⟩ := respStatusT_refused (c := c) hacc
      rw [hc'] at ha
      obtain rfl := Prog.returns_pure.1 ha
      simp only [if_neg hacc, outcome]
  returns ie c o hok h := by
    obtain ⟨r₁, hr₁, r, hr, ho⟩ := h
    have hrun {a : Round NegoCur NegoCur} (ha : (f.respStatusT ie c (f.statusOf r)).Returns a) :
        (f.respIeT ie c).Returns a :=
      Prog.returns_bind.2 ⟨r₁, returns_attrT.2 hr₁, Prog.returns_bind.2 ⟨r, returns_attrT.2 hr, ha⟩⟩
    by_cases hacc : f.Accepted r
    · simp only [if_pos hacc] at ho
      rw [respStatusT_accepted hacc] at hrun
      obtain ⟨a, ha, hout⟩ := respAcceptT_returns ((hok.2 r₁ hr₁).2 r hr hacc) ho
      exact ⟨a, hrun ha, hout⟩
    · simp only [if_neg hacc] at ho
      obtain ⟨c', hc'⟩ := respStatusT_refused (c := c) hacc
      rw [hc'] at hrun
      exact ⟨.stop c', hrun (Prog.returns_pure.2 rfl), ho.symm⟩

theorem confStatusT_accepted (h : f.Accepted r) : ∃ c', f.confStatusT ie c (f.statusOf r) = f.confRestT ie c' := by
  rcases h with h | h
  · rw [h]
    exact ⟨c, rfl⟩
  · rw [h]
    unfold NegoRx.confStatusT
    exact ⟨NegoRx.confOk c, if_pos rfl⟩

theorem confStatusT_refused (h : ¬ f.Accepted r) : ∃ c', f.confStatusT ie c (f.statusOf r) = return .stop c' := by
  unfold NegoRx.Accepted at h
  cases hs : f.statusOf r with
  | none => exact absurd (.inl hs) h
  | some status => exact ⟨_, if_neg fun hzero => h (.inr (by rw [hs, hzero]))⟩

theorem safe_confRestT (hie : 8 + ie.1 + 6 ≤ f.len.toNat) : (f.confRestT ie c).Safe (NegoObj.size f) ↔
    f.Fetches ie .groupId fun r => NegoRx.GroupIdOk r ∧ f.Fetches ie .operatingCh fun _ => True := by
  have hch (c : NegoCur) :
      (do return .next (f.takeOperatingCh c (← f.attrT ie .operatingCh)) : Prog NegoObj (Round NegoCur NegoCur)).Safe
        (NegoObj.size f) ↔ f.Fetches ie .operatingCh fun _ => True :=
    (safe_attrT_bind hie).trans (fetches_congr fun _ _ _ => iff_of_true Prog.safe_pure trivial)
  unfold NegoRx.confRestT
  rw [Prog.safe_bind, safe_groupIdT hie]
  constructor
  · rintro ⟨⟨hok, hgroup⟩, hrest⟩
    refine ⟨hok, fun r hr => ⟨hgroup r hr, ?_⟩⟩
    obtain ⟨c', hc', -⟩ := groupIdT_returns hr
    exact (hch c').1 (hrest c' hc')
  · rintro ⟨hok, hall⟩
    refine ⟨⟨hok, fun r hr => (hall r hr).1⟩, fun c' hc' => (hch c').2 ?_⟩
    obtain ⟨-, r, hr⟩ := returns_groupIdT hc'
    exact (hall r hr).2

theorem returns_confRestT (ha : (f.confRestT ie c).Returns a) : (∃ c', a = .next c') ∧
    f.Comes ie .groupId fun _ => f.Comes ie .operatingCh fun _ => True := by
  obtain ⟨c', hc', ha⟩ := Prog.returns_bind.1 ha
  obtain ⟨-, r, hr⟩ := returns_groupIdT hc'
  obtain ⟨r', hr', ha⟩ := Prog.returns_bind.1 ha
  exact ⟨⟨_, Prog.returns_pure.1 ha⟩, r, hr, r', returns_attrT.1 hr', trivial⟩

theorem confRestT_returns (h : f.Comes ie .groupId fun _ => f.Comes ie .operatingCh fun _ => True) :
    ∃ c', (f.confRestT ie c).Returns (.next c') := by
  obtain ⟨r, hr, r', hr', -⟩ := h
  obtain ⟨c', hc', -⟩ := groupIdT_returns (c := c) hr
  refine ⟨f.takeOperatingCh c' r', Prog.returns_bind.2 ⟨c', hc', ?_⟩⟩
  exact Prog.returns_bind.2 ⟨r', returns_attrT.2 hr', Prog.returns_pure.2 rfl⟩

theorem confIeT_spec (f : NegoRx) : ElementSpec f f.confIeT (fun _ => ()) (fun ie _ => f.ConfIeOk ie)
    (fun ie _ => f.ConfIeTo ie) where
  safe ie c hie := by
    refine (safe_attrT_bind hie).trans (fetches_congr fun _ r _ => ?_)
    by_cases hacc : f.Accepted r
    · obtain ⟨c', hc'⟩ := confStatusT_accepted hacc
      rw [hc', safe_confRestT hie, imp_iff_right hacc]
    · obtain ⟨c', hc'⟩ := confStatusT_refused hacc
      rw [hc']
      exact iff_of_true Prog.safe_pure fun h => absurd h hacc
  leaves ie c a hok ha := by
    obtain ⟨r, hr, ha⟩ := Prog.returns_bind.1 ha
    rw [returns_attrT] at hr
    refine ⟨r, hr, ?_⟩
    by_cases hacc : f.Accepted r
    · obtain ⟨c', hc'⟩ := confStatusT_accepted hacc
      rw [hc'] at ha
      obtain ⟨⟨c'', rfl⟩, r₁, hr₁, r₂, hr₂, -⟩ := returns_confRestT ha
      simp only [if_pos hacc]
      exact ⟨r₁, hr₁, r₂, hr₂, rfl⟩
    · obtain ⟨c', hc'⟩ := confStatusT_refused hacc
      rw [hc'] at ha
      obtain rfl := Prog.returns_pure.1 ha
      simp only [if_neg hacc, outcome]
  returns ie c o hok h := by
    obtain ⟨r, hr, ho⟩ := h
    by_cases hacc : f.Accepted r
    · simp only [if_pos hacc] at ho
      obtain ⟨r₁, hr₁, r₂, hr₂, rfl⟩ := ho
      obtain ⟨c', hc'⟩ := confStatusT_accepted hacc
      obtain ⟨c'', hc''⟩ := confRestT_returns ⟨r₁, hr₁, r₂, hr₂, trivial⟩
      refine ⟨.next c'', Prog.returns_bind.2 ⟨r, returns_attrT.2 hr, ?_⟩, rfl⟩
      rw [hc']
      exact hc''
    · simp only [if_neg hacc] at ho
      obtain ⟨c', hc'⟩ := confStatusT_refused hacc
      refine ⟨.stop c', Prog.returns_bind.2 ⟨r, returns_attrT.2 hr, ?_⟩, ho.symm⟩
      rw [hc']
      exact Prog.returns_pure.2 rfl

end

end Rtw
