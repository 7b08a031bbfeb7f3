import Rtw.Scan.Survey

/-!
# The radio over the runs of a site survey

`RadioInv` and `AnncInv` hold between any two passes of the switch: the radio is on another channel only under
"no link" and the site survey bit, and an interface that is associated has told its access point to hold the
frames back exactly while it is not `awake`. `HomeInv` is what is written back: where nothing else moves the
device (`Steady`), each return to the operating channel and each end of a scan leave the radio as it was.
-/

namespace Rtw.Scan
namespace SiteSurvey

open Machine

variable {n : Nat} {s : SiteSurvey n} {i : Fin n} {stayed sparse : Bool} {a : UInt32}

/-! ### What the parts of a pass leave alone -/

section Frame

variable (s : SiteSurvey n) (w : WdInfo) (c : UInt8) (i : Fin n) (ps enter : Bool) (set : ChSetting)

@[simp] theorem setWd_hw : (s.setWd w).hw = s.hw := rfl
@[simp] theorem setWd_state : (s.setWd w).state = s.state := rfl
@[simp] theorem setWd_nextState : (s.setWd w).nextState = s.nextState := rfl
@[simp] theorem setWd_self : (s.setWd w).self = s.self := rfl
@[simp] theorem setWd_backopFlags : (s.setWd w).backopFlags = s.backopFlags := rfl
@[simp] theorem setWd_bkSupportAbility : (s.setWd w).bkSupportAbility = s.bkSupportAbility := rfl

@[simp] theorem surveyDone_mlmeSitesurvey : (s.surveyDone set).hw.mlmeSitesurvey = false := rfl
@[simp] theorem surveyDone_ch : (s.surveyDone set).hw.ch = set := rfl
@[simp] theorem surveyDone_msr : (s.surveyDone set).hw.msr = s.ownMsr := rfl
@[simp] theorem surveyDone_self : (s.surveyDone set).self = s.self := rfl
@[simp] theorem surveyDone_ifaces : (s.surveyDone set).ifaces = s.ifaces := rfl
@[simp] theorem surveyDone_backopFlags : (s.surveyDone set).backopFlags = s.backopFlags := rfl
@[simp] theorem surveyDone_bkSupportAbility : (s.surveyDone set).bkSupportAbility = s.bkSupportAbility := rfl

theorem setWd_ifaces : (s.setWd w).ifaces i = if i = s.self then { s.ifaces i with wd := w } else s.ifaces i := by
  by_cases h : i = s.self
  · subst h
    simp [setWd]
  · simp [setWd, h]

theorem setWd_self_eq : s.setWd s.wd = s := by
  simp [setWd, wd]

@[simp] theorem setWd_isClientAssociatedToAp :
    ((s.setWd w).ifaces i).isClientAssociatedToAp = (s.ifaces i).isClientAssociatedToAp := by
  rw [setWd_ifaces]
  split <;> rfl

@[simp] theorem setWd_psAnnounced : ((s.setWd w).ifaces i).psAnnounced = (s.ifaces i).psAnnounced := by
  rw [setWd_ifaces]
  split <;> rfl

/-- An abort moves the index, and with P2P on the counter of the find phases; nothing else. -/
theorem scanAbortHdl_eq : ∃ w idx ab, s.scanAbortHdl = { s.setWd w with channelIdx := idx, scanAbort := ab } := by
  unfold scanAbortHdl
  split
  · split
    · exact ⟨_, _, _, rfl⟩
    · exact ⟨s.wd, s.ch.length, false, by rw [setWd_self_eq]⟩
  · exact ⟨s.wd, s.channelIdx, s.scanAbort, by rw [setWd_self_eq]⟩

@[simp] theorem scanAbortHdl_hw : s.scanAbortHdl.hw = s.hw := by
  obtain ⟨w, idx, ab, h⟩ := scanAbortHdl_eq s
  simp [h]

@[simp] theorem scanAbortHdl_state : s.scanAbortHdl.state = s.state := by
  obtain ⟨w, idx, ab, h⟩ := scanAbortHdl_eq s
  simp [h]

@[simp] theorem scanAbortHdl_nextState : s.scanAbortHdl.nextState = s.nextState := by
  obtain ⟨w, idx, ab, h⟩ := scanAbortHdl_eq s
  simp [h]

@[simp] theorem scanAbortHdl_bkSupportAbility : s.scanAbortHdl.bkSupportAbility = s.bkSupportAbility := by
  obtain ⟨w, idx, ab, h⟩ := scanAbortHdl_eq s
  simp [h]

@[simp] theorem scanAbortHdl_isClientAssociatedToAp :
    (s.scanAbortHdl.ifaces i).isClientAssociatedToAp = (s.ifaces i).isClientAssociatedToAp := by
  obtain ⟨w, idx, ab, h⟩ := scanAbortHdl_eq s
  simp [h]

@[simp] theorem scanAbortHdl_psAnnounced : (s.scanAbortHdl.ifaces i).psAnnounced = (s.ifaces i).psAnnounced := by
  obtain ⟨w, idx, ab, h⟩ := scanAbortHdl_eq s
  simp [h]

/-- The states that a pass in `SCAN_PROCESS` may go on in. -/
theorem pickBehavior_fst : (s.pickBehavior c).1 = .process ∨ (s.pickBehavior c).1 = .backingOp ∨
    (s.pickBehavior c).1 = .toP2pListen ∨ (s.pickBehavior c).1 = .complete := by
  unfold pickBehavior
  repeat' split
  all_goals simp

/-- The choice of what to do next writes the counter and the flags of the return. -/
theorem pickBehavior_snd : ∃ cnt flags, (s.pickBehavior c).2 = { s with scanCnt := cnt, backopFlags := flags } := by
  unfold pickBehavior
  repeat' split
  all_goals exact ⟨_, _, rfl⟩

@[simp] theorem pickBehavior_hw : (s.pickBehavior c).2.hw = s.hw := by
  obtain ⟨cnt, flags, h⟩ := pickBehavior_snd s c
  rw [h]

@[simp] theorem pickBehavior_ifaces : (s.pickBehavior c).2.ifaces = s.ifaces := by
  obtain ⟨cnt, flags, h⟩ := pickBehavior_snd s c
  rw [h]

@[simp] theorem pickBehavior_state : (s.pickBehavior c).2.state = s.state := by
  obtain ⟨cnt, flags, h⟩ := pickBehavior_snd s c
  rw [h]

@[simp] theorem pickBehavior_nextState : (s.pickBehavior c).2.nextState = s.nextState := by
  obtain ⟨cnt, flags, h⟩ := pickBehavior_snd s c
  rw [h]

@[simp] theorem pickBehavior_bkSupportAbility : (s.pickBehavior c).2.bkSupportAbility = s.bkSupportAbility := by
  obtain ⟨cnt, flags, h⟩ := pickBehavior_snd s c
  rw [h]

@[simp] theorem sitesurveySetIgi_ch : (s.sitesurveySetIgi enter).hw.ch = s.hw.ch := rfl
@[simp] theorem sitesurveySetIgi_msr : (s.sitesurveySetIgi enter).hw.msr = s.hw.msr := rfl
@[simp] theorem sitesurveySetIgi_supportAbility :
    (s.sitesurveySetIgi enter).hw.supportAbility = s.hw.supportAbility := rfl
theorem sitesurveySetIgi_igi : (s.sitesurveySetIgi false).hw.igi = 0xff := rfl
@[simp] theorem sitesurveySetIgi_self : (s.sitesurveySetIgi enter).self = s.self := rfl
@[simp] theorem sitesurveySetIgi_ifaces : (s.sitesurveySetIgi enter).ifaces = s.ifaces := rfl
@[simp] theorem sitesurveySetIgi_backopFlags : (s.sitesurveySetIgi enter).backopFlags = s.backopFlags := rfl
@[simp] theorem sitesurveySetIgi_bkSupportAbility :
    (s.sitesurveySetIgi enter).bkSupportAbility = s.bkSupportAbility := rfl

@[simp] theorem sitesurveyPsAnnc_hw : (s.sitesurveyPsAnnc ps).hw = s.hw := rfl
@[simp] theorem sitesurveyPsAnnc_backopFlags : (s.sitesurveyPsAnnc ps).backopFlags = s.backopFlags := rfl
@[simp] theorem sitesurveyPsAnnc_bkSupportAbility :
    (s.sitesurveyPsAnnc ps).bkSupportAbility = s.bkSupportAbility := rfl

@[simp] theorem sitesurveyPsAnnc_isClientAssociatedToAp :
    ((s.sitesurveyPsAnnc ps).ifaces i).isClientAssociatedToAp = (s.ifaces i).isClientAssociatedToAp := by
  simp only [sitesurveyPsAnnc]
  split <;> rfl

theorem sitesurveyPsAnnc_psAnnounced (h : (s.ifaces i).isClientAssociatedToAp = true) :
    ((s.sitesurveyPsAnnc ps).ifaces i).psAnnounced = ps := by
  simp [sitesurveyPsAnnc, h]

end Frame

/-! ### The radio -/

/-- The states in which the radio may be on another channel. -/
def Away : ScanState → Prop
  | .process | .backingOp | .toP2pListen | .p2pListen | .complete => True
  | _ => False

instance : ∀ st, Decidable (Away st)
  | .process | .backingOp | .toP2pListen | .p2pListen | .complete => isTrue trivial
  | .disable | .start | .psAnncWait | .enter | .backOp | .leavingOp | .leaveOp => isFalse id

structure RadioInv (s : SiteSurvey n) : Prop where
  next : s.nextState = s.state ∨ s.state = .psAnncWait ∧ (s.nextState = .enter ∨ s.nextState = .leaveOp)
  away : Away s.state → s.hw.msr = .nolink ∧ s.hw.mlmeSitesurvey = true
  home : ¬ Away s.state → s.hw.mlmeSitesurvey = false

theorem operation_radioInv (h : s.RadioInv) : (s.operation stayed sparse).RadioInv := by
  obtain ⟨hn, ha, hh⟩ := h
  cases hs : s.state with
  | disable =>
    simp only [operation, hs]
    constructor <;> simp [sitesurveyResReset, Away, hh, hs]
  | start =>
    simp only [operation, hs]
    split <;> constructor <;> simp [sitesurveyPsAnnc, Away, hh, hs]
  | psAnncWait =>
    simp only [operation, hs]
    exact ⟨hn, ha, hh⟩
  | enter =>
    simp only [operation, hs]
    constructor <;> simp [sitesurveySetIgi, Away]
  | process =>
    have ha' := ha (by simp [hs, Away])
    simp only [operation, hs]
    rcases pickBehavior_fst s.scanAbortHdl s.scanAbortHdl.scanCh.1 with hp | hp | hp | hp <;>
      simp only [hp] <;> constructor <;> simp [siteSurvey, Away, ha', hs]
    simpa [hs] using hn
  | backingOp =>
    simp only [operation, hs]
    split <;> constructor <;> simp [sitesurveySetIgi, sitesurveyPsAnnc, Away]
  | backOp =>
    simp only [operation, hs]
    split <;> constructor <;> simp [Away, hs, hh]
    simpa [hs] using hn
  | leavingOp =>
    simp only [operation, hs]
    repeat' split
    all_goals constructor <;> simp [sitesurveyPsAnnc, Away, hs, hh]
  | leaveOp =>
    simp only [operation, hs]
    split <;> constructor <;> simp [sitesurveySetIgi, Away]
  | toP2pListen =>
    have ha' := ha (by simp [hs, Away])
    simp only [operation, hs]
    constructor <;> simp [sitesurveySetIgi, Away, ha']
  | p2pListen =>
    have ha' := ha (by simp [hs, Away])
    simp only [operation, hs]
    constructor <;> simp [Away, ha']
  | complete =>
    simp only [operation, hs]
    split <;> constructor <;> simp [sitesurveySetIgi, sitesurveyPsAnnc, Away]

/-! ### The events between two passes -/

/-- What the events other than a pass leave alone: a command starts in the state that the last one chose. -/
structure Between (s s' : SiteSurvey n) : Prop where
  hw : s'.hw = s.hw
  backopFlags : s'.backopFlags = s.backopFlags
  bkSupportAbility : s'.bkSupportAbility = s.bkSupportAbility
  nextState : s'.nextState = s.nextState
  state : s'.state = s.state ∨ s'.state = s.nextState

theorem Between.refl (s : SiteSurvey n) : Between s s := ⟨rfl, rfl, rfl, rfl, .inl rfl⟩

theorem takeCmd_between (s : SiteSurvey n) : Between s s.takeCmd := by
  unfold takeCmd
  split
  · exact .refl s
  · split
    · exact .refl s
    · unfold begin
      split <;> exact ⟨rfl, rfl, rfl, rfl, .inr rfl⟩
    · exact ⟨rfl, rfl, rfl, rfl, .inl rfl⟩

theorem next_between (e : SurveyEvent n) (he : ∀ stayed sparse, e ≠ .operation stayed sparse) :
    Between s (s.next e) := by
  cases e with
  | rtwSitesurveyCmd parm => exact ⟨rfl, rfl, rfl, rfl, .inl rfl⟩
  | cmdThread => exact takeCmd_between s
  | operation stayed sparse => exact absurd rfl (he stayed sparse)
  | surveyTimer mem =>
    simp only [next, surveyTimerHdl]
    repeat' split
    all_goals exact ⟨rfl, rfl, rfl, rfl, .inl rfl⟩
  | findPhaseTimer mem =>
    simp only [next, findPhaseTimerProcess]
    repeat' split
    all_goals exact ⟨rfl, rfl, rfl, rfl, .inl rfl⟩
  | scanAbort abort => exact ⟨rfl, rfl, rfl, rfl, .inl rfl⟩
  | iface i f => exact ⟨rfl, rfl, rfl, rfl, .inl rfl⟩
  | backopPolicy sta ap scanCntMax => exact ⟨rfl, rfl, rfl, rfl, .inl rfl⟩

/-- Any event is a pass of the switch, does nothing, or acts between two passes. -/
theorem next_cases (s : SiteSurvey n) (e : SurveyEvent n) :
    (∃ stayed sparse, s.busy = true ∧ s.next e = s.operation stayed sparse) ∨ s.next e = s ∨
      ∀ stayed sparse, e ≠ .operation stayed sparse := by
  cases e with
  | operation stayed sparse =>
    by_cases hb : s.busy = true
    · exact .inl ⟨stayed, sparse, hb, if_pos hb⟩
    · exact .inr (.inl (if_neg hb))
  | _ => exact .inr (.inr (by simp))

/-- The state that a command starts in is of the same kind as the one it finds. -/
theorem Between.state_iff {s' : SiteSurvey n} (hb : Between s s') (h : s.RadioInv) :
    s'.state = s.state ∨ s.state = .psAnncWait ∧ (s'.state = .enter ∨ s'.state = .leaveOp) := by
  rcases hb.state with hs | hs
  · exact .inl hs
  · rcases h.next with hn | hn
    · exact .inl (hs.trans hn)
    · rw [hs]
      exact .inr hn

theorem Between.away_iff {s' : SiteSurvey n} (hb : Between s s') (h : s.RadioInv) :
    Away s'.state ↔ Away s.state := by
  rcases hb.state_iff h with hs | ⟨hw, hs | hs⟩
  · rw [hs]
  · simp [hs, hw, Away]
  · simp [hs, hw, Away]

theorem Between.radioInv {s' : SiteSurvey n} (hb : Between s s') (h : s.RadioInv) : s'.RadioInv := by
  constructor
  · rw [hb.nextState]
    rcases hb.state with hs | hs
    · rw [hs]
      exact h.next
    · exact .inl hs.symm
  · rw [hb.away_iff h, hb.hw]
    exact h.away
  · rw [hb.away_iff h, hb.hw]
    exact h.home

theorem next_radioInv (h : s.RadioInv) (e : SurveyEvent n) : (s.next e).RadioInv := by
  rcases next_cases s e with ⟨stayed, sparse, -, he⟩ | he | he
  · rw [he]
    exact operation_radioInv h
  · rwa [he]
  · exact (next_between e he).radioInv h

/-! ### The announcements -/

/-- The access points are told to send: before a scan, and on the way through the operating channel where the
policy asks for it. -/
def awake (s : SiteSurvey n) : Bool :=
  decide (s.state = .disable) || decide (s.state = .start) ||
    ((decide (s.state = .backOp) || decide (s.state = .leavingOp)) && s.chkBackopFlags ssBackopPsAnnc)

def AnncInv (s : SiteSurvey n) (i : Fin n) : Prop :=
  (s.ifaces i).isClientAssociatedToAp = true → (s.ifaces i).psAnnounced = !s.awake

/-- An interface joins a network only while the access points are told to send. -/
def JoinOk (i : Fin n) (s : SiteSurvey n) : SurveyEvent n → Prop
  | .iface j f => j = i → f.isClientAssociatedToAp = true →
      (s.ifaces i).isClientAssociatedToAp = true ∨ s.awake = true
  | _ => True

theorem psAnncDoing_of_associated (h : (s.ifaces i).isClientAssociatedToAp = true) : s.psAnncDoing = true := by
  simp only [psAnncDoing, all, List.any_eq_true, List.mem_ofFn]
  exact ⟨_, ⟨i, rfl⟩, h⟩

theorem operation_anncInv (h : s.AnncInv i) : (s.operation stayed sparse).AnncInv i := by
  unfold AnncInv at h ⊢
  cases hs : s.state with
  | disable => simpa [operation, hs, sitesurveyResReset, awake] using h
  | start =>
    simp only [operation, hs]
    split
    · intro ha
      have ha' : (s.ifaces i).isClientAssociatedToAp = true := by simpa using ha
      simp [awake, sitesurveyPsAnnc_psAnnounced, ha']
    · rename_i hd
      intro ha
      exact absurd (psAnncDoing_of_associated (by simpa using ha)) hd
  | psAnncWait => simpa [operation, hs, awake] using h
  | enter => simpa [operation, hs, awake] using h
  | process =>
    simp only [operation, hs]
    rcases pickBehavior_fst s.scanAbortHdl s.scanAbortHdl.scanCh.1 with hp | hp | hp | hp <;>
      simpa [hp, hs, awake, siteSurvey] using h
  | backingOp =>
    simp only [operation, hs]
    split
    · rename_i hc
      intro ha
      have ha' : (s.ifaces i).isClientAssociatedToAp = true := by simpa using ha
      have hc' : s.backopFlags &&& ssBackopPsAnnc ≠ 0 := by simpa [chkBackopFlags] using hc
      simp [awake, chkBackopFlags, sitesurveyPsAnnc_psAnnounced, ha', hc']
    · rename_i hc
      have hc' : s.backopFlags &&& ssBackopPsAnnc = 0 := by simpa [chkBackopFlags] using hc
      simpa [awake, chkBackopFlags, hc', hs] using h
  | backOp =>
    simp only [operation, hs]
    split <;> simpa [hs, awake, chkBackopFlags] using h
  | leavingOp =>
    simp only [operation, hs]
    split
    · split
      · intro ha
        have ha' : (s.ifaces i).isClientAssociatedToAp = true := by simpa using ha
        simp [awake, sitesurveyPsAnnc_psAnnounced, ha']
      · rename_i hd
        intro ha
        exact absurd (psAnncDoing_of_associated (by simpa using ha)) hd
    · rename_i hc
      simpa [awake, hc, hs] using h
  | leaveOp =>
    simp only [operation, hs]
    split <;> simpa [hs, awake] using h
  | toP2pListen => simpa [operation, hs, awake] using h
  | p2pListen => simpa [operation, hs, awake] using h
  | complete =>
    simp only [operation, hs]
    intro ha
    have ha' : (s.ifaces i).isClientAssociatedToAp = true := by
      split at ha <;> simpa using ha
    split <;> simp [awake, sitesurveyPsAnnc_psAnnounced, ha']

theorem Between.awake {s' : SiteSurvey n} (hb : Between s s') (h : s.RadioInv) : s'.awake = s.awake := by
  have hc : s'.chkBackopFlags ssBackopPsAnnc = s.chkBackopFlags ssBackopPsAnnc := by
    rw [chkBackopFlags, hb.backopFlags, chkBackopFlags]
  simp only [SiteSurvey.awake, hc]
  rcases hb.state_iff h with hs | ⟨hw, hs | hs⟩
  · rw [hs]
  · simp [hs, hw]
  · simp [hs, hw]

/-- The events between two passes that are not a change of `i` leave its association and its power bit. -/
theorem next_ifaces (e : SurveyEvent n) (he : ∀ stayed sparse, e ≠ .operation stayed sparse)
    (hi : ∀ f, e ≠ .iface i f) :
    ((s.next e).ifaces i).isClientAssociatedToAp = (s.ifaces i).isClientAssociatedToAp ∧
      ((s.next e).ifaces i).psAnnounced = (s.ifaces i).psAnnounced := by
  cases e with
  | rtwSitesurveyCmd parm => exact ⟨rfl, rfl⟩
  | cmdThread =>
    simp only [next, takeCmd, begin, findPhaseHandler]
    repeat' split
    all_goals simp
  | operation stayed sparse => exact absurd rfl (he stayed sparse)
  | surveyTimer mem =>
    simp only [next, surveyTimerHdl]
    repeat' split
    all_goals exact ⟨rfl, rfl⟩
  | findPhaseTimer mem =>
    simp only [next, findPhaseTimerProcess]
    repeat' split
    all_goals simp
  | scanAbort abort => exact ⟨rfl, rfl⟩
  | iface j f =>
    have hj : i ≠ j := fun h => hi f (h ▸ rfl)
    simp [next, setIface, hj]
  | backopPolicy sta ap scanCntMax => exact ⟨rfl, rfl⟩

theorem next_anncInv (hr : s.RadioInv) (h : s.AnncInv i) (e : SurveyEvent n) (hok : JoinOk i s e) :
    (s.next e).AnncInv i := by
  rcases next_cases s e with ⟨stayed, sparse, -, he⟩ | he | he
  · rw [he]
    exact operation_anncInv h
  · rwa [he]
  · have haw := (next_between (s := s) e he).awake hr
    intro ha
    by_cases hi : ∃ f, e = .iface i f
    · obtain ⟨f, rfl⟩ := hi
      have hf : f.isClientAssociatedToAp = true := by
        simpa [next, setIface, Iface.isClientAssociatedToAp] using ha
      rw [haw]
      cases ho : (s.ifaces i).isClientAssociatedToAp with
      | true => simp [next, setIface, hf, ho, h ho]
      | false =>
        rcases hok rfl hf with hold | hawake
        · simp [ho] at hold
        · simp [next, setIface, ho, hawake]
    · obtain ⟨has, hps⟩ := next_ifaces (s := s) (i := i) e he fun f hf => hi ⟨f, hf⟩
      rw [haw, hps]
      exact h (has ▸ ha)

/-! ### The way back -/

/-- An interface after `sitesurvey_ps_annc`. -/
def told (ps : Bool) (f : Iface) : Iface :=
  if f.isClientAssociatedToAp then { f with psAnnounced := ps } else f

theorem all_sitesurveyPsAnnc (s : SiteSurvey n) (ps : Bool) : (s.sitesurveyPsAnnc ps).all = s.all.map (told ps) := by
  simp only [all, List.map_ofFn]
  rfl

@[simp] theorem told_operating (ps : Bool) (f : Iface) : (told ps f).operating = f.operating := by
  unfold told
  split <;> rfl

@[simp] theorem told_cur (ps : Bool) (f : Iface) : (told ps f).cur = f.cur := by
  unfold told
  split <;> rfl

@[simp] theorem told_wd (ps : Bool) (f : Iface) : (told ps f).wd = f.wd := by
  unfold told
  split <;> rfl

@[simp] theorem told_msr (ps : Bool) (f : Iface) : (told ps f).msr = f.msr := by
  unfold told
  split <;> rfl

@[simp] theorem told_listens (ps : Bool) (f : Iface) : (told ps f).listens = f.listens := by
  simp [Iface.listens]

theorem ifaces_sitesurveyPsAnnc (s : SiteSurvey n) (ps : Bool) (i : Fin n) :
    (s.sitesurveyPsAnnc ps).ifaces i = told ps (s.ifaces i) := rfl

@[simp] theorem ownMsr_sitesurveyPsAnnc (s : SiteSurvey n) (ps : Bool) :
    (s.sitesurveyPsAnnc ps).ownMsr = s.ownMsr := by
  rw [ownMsr, ifaces_sitesurveyPsAnnc, told_msr]
  rfl

@[simp] theorem union_sitesurveyPsAnnc (s : SiteSurvey n) (ps : Bool) :
    rtwGetChSettingUnion (s.sitesurveyPsAnnc ps).all = rtwGetChSettingUnion s.all := by
  rw [all_sitesurveyPsAnnc]
  simp [rtwGetChSettingUnion, List.filter_map, Function.comp_def]

@[simp] theorem doneSetting_sitesurveyPsAnnc (s : SiteSurvey n) (ps : Bool) :
    (s.sitesurveyPsAnnc ps).doneSetting = s.doneSetting := by
  unfold doneSetting
  rw [union_sitesurveyPsAnnc, all_sitesurveyPsAnnc]
  have hself : ((s.sitesurveyPsAnnc ps).ifaces (s.sitesurveyPsAnnc ps).self).cur = (s.ifaces s.self).cur := by
    rw [ifaces_sitesurveyPsAnnc, told_cur]
    rfl
  cases rtwGetChSettingUnion s.all with
  | some c => rfl
  | none =>
    have hl : (Iface.listens ∘ told ps) = Iface.listens := by
      funext f
      simp
    simp only [List.find?_map, hl, hself]
    cases s.all.find? Iface.listens with
    | none => rfl
    | some f => simp

theorem all_congr {s' : SiteSurvey n} (hi : s'.ifaces = s.ifaces) : s'.all = s.all := by
  rw [all, hi, all]

theorem doneSetting_congr {s' : SiteSurvey n} (hs : s'.self = s.self) (hi : s'.ifaces = s.ifaces) :
    s'.doneSetting = s.doneSetting := by
  rw [doneSetting, all_congr hi, hs, hi, doneSetting]

/-- The radio as it is outside a scan, with the abilities `a`. -/
structure AtHome (a : UInt32) (s : SiteSurvey n) : Prop where
  ch : s.hw.ch = s.doneSetting
  msr : s.hw.msr = s.ownMsr
  igi : s.hw.igi = 0xff
  supportAbility : s.hw.supportAbility = a

/-- The radio on the operating channel, in the middle of a scan. -/
structure Back (s : SiteSurvey n) : Prop where
  ch : s.hw.ch = (rtwGetChSettingUnion s.all).getD (.width20 0)
  msr : s.hw.msr = s.ownMsr

theorem AtHome.congr {s' : SiteSurvey n} (h : s.AtHome a) (hh : s'.hw = s.hw) (hd : s'.doneSetting = s.doneSetting)
    (ho : s'.ownMsr = s.ownMsr) : s'.AtHome a := by
  constructor
  · rw [hh, hd]
    exact h.ch
  · rw [hh, ho]
    exact h.msr
  · rw [hh]
    exact h.igi
  · rw [hh]
    exact h.supportAbility

theorem Back.congr {s' : SiteSurvey n} (h : s.Back) (hc : s'.hw.ch = s.hw.ch) (hm : s'.hw.msr = s.hw.msr)
    (hu : rtwGetChSettingUnion s'.all = rtwGetChSettingUnion s.all) (ho : s'.ownMsr = s.ownMsr) : s'.Back := by
  constructor
  · rw [hc, hu]
    exact h.ch
  · rw [hm, ho]
    exact h.msr

theorem AtHome.keep {s' : SiteSurvey n} (h : s.AtHome a) (hh : s'.hw = s.hw) (hs : s'.self = s.self)
    (hi : s'.ifaces = s.ifaces) : s'.AtHome a :=
  h.congr hh (doneSetting_congr hs hi) (by rw [ownMsr, hs, hi, ownMsr])

theorem Back.keep {s' : SiteSurvey n} (h : s.Back) (hc : s'.hw.ch = s.hw.ch) (hm : s'.hw.msr = s.hw.msr)
    (hs : s'.self = s.self) (hi : s'.ifaces = s.ifaces) : s'.Back :=
  h.congr hc hm (by rw [all_congr hi]) (by rw [ownMsr, hs, hi, ownMsr])

theorem AtHome.psAnnc (h : s.AtHome a) (ps : Bool) : (s.sitesurveyPsAnnc ps).AtHome a :=
  h.congr rfl (doneSetting_sitesurveyPsAnnc s ps) (ownMsr_sitesurveyPsAnnc s ps)

theorem Back.psAnnc (h : s.Back) (ps : Bool) : (s.sitesurveyPsAnnc ps).Back :=
  h.congr rfl rfl (union_sitesurveyPsAnnc s ps) (ownMsr_sitesurveyPsAnnc s ps)

theorem surveyDone_back {c : ChSetting} (hc : (rtwGetChSettingUnion s.all).getD (.width20 0) = c) :
    (s.surveyDone c).Back := by
  have hall : (s.surveyDone c).all = s.all := all_congr rfl
  constructor
  · rw [hall, hc]
    rfl
  · rfl

/-- `SCAN_COMPLETE` from the channel on. -/
theorem surveyDone_atHome {c : ChSetting} (hc : s.doneSetting = c) (h : s.bkSupportAbility = a) :
    ((s.surveyDone c).phydmAbilityRestore.sitesurveySetIgi false).AtHome a := by
  have hd : ((s.surveyDone c).phydmAbilityRestore.sitesurveySetIgi false).doneSetting = s.doneSetting :=
    doneSetting_congr (by simp) (by simp)
  constructor
  · rw [hd, hc]
    simp
  · simp
  · exact sitesurveySetIgi_igi _
  · simpa using h

/-- A scan has not left the operating channel yet. -/
def Starting (s : SiteSurvey n) : Prop :=
  s.state = .disable ∨ s.state = .start ∨ s.state = .enter ∨ s.state = .psAnncWait ∧ s.nextState = .enter

/-- A scan is back on the operating channel. -/
def Returned (s : SiteSurvey n) : Prop :=
  s.state = .backOp ∨ s.state = .leavingOp ∨ s.state = .leaveOp ∨ s.state = .psAnncWait ∧ s.nextState = .leaveOp

structure HomeInv (a : UInt32) (s : SiteSurvey n) : Prop where
  starting : s.Starting → s.AtHome a
  returned : s.Returned → s.Back
  saved : ¬ s.Starting → s.bkSupportAbility = a

/-- What is not a pass of the switch leaves the channels of the device and the state of its adapter. -/
def Steady (s : SiteSurvey n) (e : SurveyEvent n) : Prop :=
  e.isOperation = true ∨
    (s.next e).doneSetting = s.doneSetting ∧
      rtwGetChSettingUnion (s.next e).all = rtwGetChSettingUnion s.all ∧ (s.next e).ownMsr = s.ownMsr

instance (s : SiteSurvey n) (e : SurveyEvent n) : Decidable (s.Steady e) :=
  inferInstanceAs (Decidable (_ ∨ _ ∧ _ ∧ _))

theorem operation_homeInv (h : s.HomeInv a) : (s.operation stayed sparse).HomeInv a := by
  obtain ⟨hst, hre, hsv⟩ := h
  cases hs : s.state with
  | disable =>
    simp only [operation, hs]
    exact ⟨fun _ => (hst (.inl hs)).keep rfl rfl rfl, by simp [Returned], by simp [Starting]⟩
  | start =>
    have hst' := (hst (.inr (.inl hs))).psAnnc true
    simp only [operation, hs]
    split <;> exact ⟨fun _ => hst'.keep rfl rfl rfl, by simp [Returned], by simp [Starting]⟩
  | psAnncWait =>
    simp only [operation, hs]
    exact ⟨fun h => (hst h).keep rfl rfl rfl, fun h => (hre h).keep rfl rfl rfl rfl, hsv⟩
  | enter =>
    have ha := (hst (.inr (.inr (.inl hs)))).supportAbility
    simp only [operation, hs]
    exact ⟨by simp [Starting], by simp [Returned], fun _ => by simpa [sitesurveySetIgi] using ha⟩
  | process =>
    have ha := hsv (by simp [Starting, hs])
    simp only [operation, hs]
    rcases pickBehavior_fst s.scanAbortHdl s.scanAbortHdl.scanCh.1 with hp | hp | hp | hp <;>
      simp only [hp] <;>
      exact ⟨by simp [Starting, siteSurvey, hs], by simp [Returned, siteSurvey, hs],
        fun _ => by simpa [siteSurvey] using ha⟩
  | backingOp =>
    have ha := hsv (by simp [Starting, hs])
    simp only [operation, hs]
    generalize hc : (rtwGetChSettingUnion s.all).getD (.width20 0) = c
    have hb := surveyDone_back hc
    split
    · exact ⟨by simp [Starting], fun _ => ((hb.keep rfl rfl rfl rfl).psAnnc false).keep rfl rfl rfl rfl,
        fun _ => by simpa using ha⟩
    · exact ⟨by simp [Starting], fun _ => hb.keep rfl rfl rfl rfl, fun _ => by simpa using ha⟩
  | backOp =>
    have ha := hsv (by simp [Starting, hs])
    have hre' := hre (.inl hs)
    simp only [operation, hs]
    split
    · exact ⟨by simp [Starting], fun _ => hre'.keep rfl rfl rfl rfl, fun _ => by simpa using ha⟩
    · exact ⟨by simp [Starting, hs], fun _ => hre'.keep rfl rfl rfl rfl, fun _ => by simpa using ha⟩
  | leavingOp =>
    have ha := hsv (by simp [Starting, hs])
    have hre' := hre (.inr (.inl hs))
    simp only [operation, hs]
    repeat' split
    · exact ⟨by simp [Starting], fun _ => (hre'.psAnnc true).keep rfl rfl rfl rfl, fun _ => by simpa using ha⟩
    · exact ⟨by simp [Starting], fun _ => (hre'.psAnnc true).keep rfl rfl rfl rfl, fun _ => by simpa using ha⟩
    · exact ⟨by simp [Starting], fun _ => hre'.keep rfl rfl rfl rfl, fun _ => by simpa using ha⟩
  | leaveOp =>
    have ha := hsv (by simp [Starting, hs])
    simp only [operation, hs]
    split <;> exact ⟨by simp [Starting], by simp [Returned], fun _ => by simpa using ha⟩
  | toP2pListen =>
    have ha := hsv (by simp [Starting, hs])
    simp only [operation, hs]
    exact ⟨by simp [Starting], by simp [Returned], fun _ => by simpa using ha⟩
  | p2pListen =>
    have ha := hsv (by simp [Starting, hs])
    simp only [operation, hs]
    exact ⟨by simp [Starting], by simp [Returned], fun _ => by simpa using ha⟩
  | complete =>
    have ha := hsv (by simp [Starting, hs])
    simp only [operation, hs]
    generalize ht : SiteSurvey.setWd _ _ = t
    have hta : t.bkSupportAbility = a := by
      rw [← ht]
      split <;> simpa using ha
    generalize hc : t.doneSetting = c
    have hd := (surveyDone_atHome hc hta).psAnnc false
    exact ⟨fun _ => hd.keep rfl rfl rfl, by simp [Returned], by simp [Starting]⟩

theorem Between.starting_iff {s' : SiteSurvey n} (hb : Between s s') (h : s.RadioInv) :
    s'.Starting ↔ s.Starting := by
  rcases hb.state with hs | hs
  · simp [Starting, hs, hb.nextState]
  · rcases h.next with hn | ⟨hw, hn | hn⟩
    · simp [Starting, hs, hn, hb.nextState]
    · simp [Starting, hs, hn, hw]
    · simp [Starting, hs, hn, hw]

theorem Between.returned_iff {s' : SiteSurvey n} (hb : Between s s') (h : s.RadioInv) :
    s'.Returned ↔ s.Returned := by
  rcases hb.state with hs | hs
  · simp [Returned, hs, hb.nextState]
  · rcases h.next with hn | ⟨hw, hn | hn⟩
    · simp [Returned, hs, hn, hb.nextState]
    · simp [Returned, hs, hn, hw]
    · simp [Returned, hs, hn, hw]

theorem next_homeInv (hr : s.RadioInv) (h : s.HomeInv a) (e : SurveyEvent n) (hok : s.Steady e) :
    (s.next e).HomeInv a := by
  rcases next_cases s e with ⟨stayed, sparse, -, he⟩ | he | he
  · rw [he]
    exact operation_homeInv h
  · rwa [he]
  · have hb := next_between (s := s) e he
    rcases hok with hop | ⟨hd, hu, ho⟩
    · cases e with
      | operation stayed sparse => exact absurd rfl (he stayed sparse)
      | _ => simp [SurveyEvent.isOperation] at hop
    · constructor
      · rw [hb.starting_iff hr]
        exact fun hst => (h.starting hst).congr hb.hw hd ho
      · rw [hb.returned_iff hr]
        exact fun hre => (h.returned hre).congr (by rw [hb.hw]) (by rw [hb.hw]) hu ho
      · rw [hb.starting_iff hr, hb.bkSupportAbility]
        exact h.saved

/-! ### Whole runs -/

/-- No scan is on, and none has been left half done. -/
structure Ready (s : SiteSurvey n) : Prop where
  state : s.state = .disable
  nextState : s.nextState = .disable
  mlmeSitesurvey : s.hw.mlmeSitesurvey = false
  psAnnounced : ∀ i, (s.ifaces i).psAnnounced = false

/-- What a scan owes to the interface `i`. -/
structure OffChannel (i : Fin n) (s : SiteSurvey n) : Prop where
  blocked : s.rtwXmitAcBlocked = false → s.hw.mlmeSitesurvey = false
  nolink : s.hw.mlmeSitesurvey = true → s.hw.msr = .nolink
  held : s.hw.mlmeSitesurvey = true → (s.ifaces i).isClientAssociatedToAp = true → (s.ifaces i).psAnnounced = true
  woken : s.awake = true → (s.ifaces i).isClientAssociatedToAp = true → (s.ifaces i).psAnnounced = false

/-- What a scan owes to the device: its abilities are `a`. -/
structure OnChannel (a : UInt32) (s : SiteSurvey n) : Prop where
  sends : s.rtwXmitAcBlocked = false → ∀ c, rtwGetChSettingUnion s.all = some c →
    s.hw.ch = c ∧ s.hw.msr = s.ownMsr ∧ s.hw.mlmeSitesurvey = false
  restored : s.state = .disable → s.hw = ⟨s.doneSetting, s.ownMsr, false, 0xff, a⟩

theorem Ready.radioInv (h : s.Ready) : s.RadioInv := by
  refine ⟨.inl (h.nextState.trans h.state.symm), ?_, fun _ => h.mlmeSitesurvey⟩
  rw [h.state]
  exact fun ha => ha.elim

theorem Ready.anncInv (h : s.Ready) (i : Fin n) : s.AnncInv i := by
  intro _
  simp [h.psAnnounced, awake, h.state]

theorem RadioInv.away_of_site (h : s.RadioInv) (hs : s.hw.mlmeSitesurvey = true) : Away s.state := by
  by_contra ha
  simp [h.home ha] at hs

theorem RadioInv.home_of_sends (h : s.RadioInv) (hs : s.rtwXmitAcBlocked = false) :
    s.hw.mlmeSitesurvey = false ∧ (s.state = .disable ∨ s.state = .backOp) := by
  have hst : s.state = .disable ∨ s.state = .backOp := by
    simp only [rtwXmitAcBlocked, Bool.or_eq_false_iff, Bool.and_eq_false_iff] at hs
    simpa using hs.1
  refine ⟨h.home ?_, hst⟩
  rcases hst with hst | hst <;> simp [hst, Away]

theorem offChannel_of_inv (hr : s.RadioInv) (h : s.AnncInv i) : s.OffChannel i := by
  constructor
  · exact fun hs => (hr.home_of_sends hs).1
  · exact fun hs => (hr.away (hr.away_of_site hs)).1
  · intro hs ha
    have haway := hr.away_of_site hs
    rw [h ha]
    cases hst : s.state <;> simp_all [Away, awake]
  · intro hs ha
    rw [h ha, hs]
    rfl

theorem onChannel_of_inv (hr : s.RadioInv) (h : s.HomeInv a) : s.OnChannel a := by
  constructor
  · intro hs c hc
    obtain ⟨hsite, hst | hst⟩ := hr.home_of_sends hs
    · obtain ⟨hch, hmsr, -, -⟩ := h.starting (.inl hst)
      refine ⟨?_, hmsr, hsite⟩
      rw [hch, doneSetting, hc]
    · obtain ⟨hch, hmsr⟩ := h.returned (.inl hst)
      refine ⟨?_, hmsr, hsite⟩
      rw [hch, hc]
      rfl
  · intro hst
    obtain ⟨hch, hmsr, higi, hab⟩ := h.starting (.inl hst)
    have hsite := hr.home (by simp [hst, Away])
    rw [← hch, ← hmsr, ← hsite, ← higi, ← hab]

/-- Off the channel, no data frame goes out and the access point of each interface holds its frames back, over
all the ways in which scans, aborts, timers and the other interfaces interleave. -/
theorem survey_offChannel (hs : s.Ready) (evs : List (SurveyEvent n)) (hok : RunOk next (JoinOk i) s evs) :
    (run next s evs).OffChannel i := by
  have h : (run next s evs).RadioInv ∧ (run next s evs).AnncInv i := by
    refine run_invariant_of_ok (I := fun t => t.RadioInv ∧ t.AnncInv i) (fun t e h he => ?_)
      ⟨hs.radioInv, hs.anncInv i⟩ hok
    exact ⟨next_radioInv h.1 e, next_anncInv h.1 h.2 e he⟩
  exact offChannel_of_inv h.1 h.2

theorem survey_onChannel (hs : s.Ready) (hhome : s.AtHome a) (evs : List (SurveyEvent n))
    (hok : RunOk next Steady s evs) : (run next s evs).OnChannel a := by
  have h0 : s.HomeInv a := by
    have hst : s.Starting := .inl hs.state
    refine ⟨fun _ => hhome, fun hre => ?_, fun hn => absurd hst hn⟩
    simp [Returned, hs.state] at hre
  have h : (run next s evs).RadioInv ∧ (run next s evs).HomeInv a := by
    refine run_invariant_of_ok (I := fun t => t.RadioInv ∧ t.HomeInv a) (fun t e h he => ?_)
      ⟨hs.radioInv, h0⟩ hok
    exact ⟨next_radioInv h.1 e, next_homeInv h.1 h.2 e he⟩
  exact onChannel_of_inv h.1 h.2

/-! ### A station and an access point on channel 6 -/

def noP2p : WdInfo where
  state := .none
  preState := .none
  findPhaseStateExchangeCnt := 0
  listenChannel := 0
  inviteScanOpChOnly := false
  inviteOperationCh := []
  scanOpChOnly := false
  operationCh := []
  cfg80211 := true
  p2pEnabled := false

def onSix (i : Fin 2) : Iface where
  linked := true
  underLinking := false
  opChSwitching := false
  msr := if i.val = 0 then .station else .ap
  assocSuccess := i.val = 0
  asocStaCount := 3
  cur := .width20 6
  wd := noP2p
  psAnnounced := false

def idleOnSix : SiteSurvey 2 where
  cfg := ⟨[⟨1, .active⟩, ⟨6, .active⟩, ⟨11, .active⟩, ⟨36, .passive⟩], .auto, .active, false, false⟩
  self := ⟨0, Nat.zero_lt_two⟩
  ifaces := onSix
  state := .disable
  nextState := .disable
  channelIdx := 0
  scanMode := .active
  ssid := []
  ch := []
  backopFlagsSta := ssBackopPsAnnc ||| ssBackopTxResume
  backopFlagsAp := ssBackopEn ||| ssBackopPsAnnc ||| ssBackopTxResume
  backopFlags := 0
  scanCnt := 0
  scanCntMax := 2
  scanAbort := false
  token := 255
  parm := .zero
  busy := false
  cmds := []
  surveyTimer := false
  findPhaseTimer := false
  hw := ⟨.width20 6, .station, false, 0xff, 0x1f⟩
  bkSupportAbility := 0
  surveyed := []
  surveydone := 0

/-- A command of `k` passes, and the timer that queues the next one. -/
def cmdRound (k : Nat) : List (SurveyEvent 2) :=
  .cmdThread :: List.replicate k (.operation true false) ++ [.surveyTimer true]

/-- A scan up to the second channel. -/
def toSecond : List (SurveyEvent 2) :=
  .rtwSitesurveyCmd ⟨.active, [], []⟩ :: (cmdRound 2 ++ cmdRound 2 ++ cmdRound 1)

/-- From there over a return to channel 6 to the end. -/
def toEnd : List (SurveyEvent 2) :=
  cmdRound 4 ++ cmdRound 2 ++ cmdRound 1 ++ [.cmdThread, .operation true false, .operation true false]

theorem idleOnSix_ready : idleOnSix.Ready := ⟨rfl, rfl, rfl, fun _ => rfl⟩

theorem survey_offChannel_toSecond :
    (run next idleOnSix toSecond).OffChannel 0 ∧ (run next idleOnSix toSecond).hw.mlmeSitesurvey = true :=
  ⟨survey_offChannel idleOnSix_ready toSecond (by simp [toSecond, cmdRound, JoinOk]), by decide +kernel⟩

theorem survey_onChannel_toEnd : (run next idleOnSix (toSecond ++ toEnd)).OnChannel 0x1f ∧
    (run next idleOnSix (toSecond ++ toEnd)).state = .disable :=
  ⟨survey_onChannel idleOnSix_ready ⟨by decide, rfl, rfl, rfl⟩ (toSecond ++ toEnd) (by decide +kernel),
    by decide +kernel⟩

end SiteSurvey
end Rtw.Scan
