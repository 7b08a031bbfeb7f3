import Mathlib.Data.List.Forall2
import Rtw.Scan.SurveyRun

/-!
# Which channels a site survey covers

Without the find phases of P2P, a scan surveys the channels that `rtw_scan_ch_decision` gave it, in their order
and each once, whatever comes in between (`CoverInv`); an abort only cuts the list short. Where the policy asks
for returns, no more than `scan_cnt_max` channels lie between two of them. `rank` goes down with every pass of
the switch, so that every scan ends.
-/

namespace Rtw.Scan
namespace SiteSurvey

open Machine

variable {n : Nat} {s : SiteSurvey n} {i : Fin n} {stayed sparse : Bool}

/-! ### The channels of a scan -/

/-- The adapter may scan the channel `ch`, and actively only if `act`. -/
def Allows (a : SurveyCfg) (ch : UInt8) (act : Prop) : Prop :=
  ∃ info ∈ a.channelSet, info.channelNum = ch ∧ rtwMlmeBandCheck a.setband ch.toNat = true ∧
    (act → info.scanType = .active)

theorem mem_of_rtwChSetSearchCh {ch j : Nat} {l : List ChannelInfo} {info : ChannelInfo}
    (h : rtwChSetSearchCh ch j l = some info) : info ∈ l ∧ info.channelNum ≠ 0 ∧ ch = info.channelNum.toNat := by
  induction l generalizing j with
  | nil => simp [rtwChSetSearchCh] at h
  | cons c cs ih =>
    rw [rtwChSetSearchCh] at h
    split at h
    · simp at h
    · rename_i hc
      split at h
      · rename_i hch
        split at h
        · simp at h
        · rw [Option.some.injEq] at h
          subst h
          exact ⟨List.mem_cons_self .., hc, hch⟩
      · obtain ⟨hm, h0, hn⟩ := ih h
        exact ⟨List.mem_cons_of_mem _ hm, h0, hn⟩

/-- A channel of the list that a scan goes through. -/
structure Listed (a : SurveyCfg) (c : ScanChannel) : Prop where
  ne : c.hwValue.toUInt8 ≠ 0
  allows : Allows a c.hwValue.toUInt8 (c.flags &&& chanPassiveScan = 0)

theorem markPassive_hwValue (c : ScanChannel) (t : ScanType) : (SurveyCfg.markPassive c t).hwValue = c.hwValue := by
  unfold SurveyCfg.markPassive
  split <;> rfl

theorem active_of_markPassive {c : ScanChannel} {t : ScanType}
    (h : (SurveyCfg.markPassive c t).flags &&& chanPassiveScan = 0) : t = .active := by
  cases t with
  | active => rfl
  | passive =>
    have hn := congrArg UInt32.toNat h
    simp [SurveyCfg.markPassive, chanPassiveScan] at hn
    grind

theorem listed_of_requested {a : SurveyCfg} {c d : ScanChannel} (h : a.requested c = some d) : Listed a d := by
  unfold SurveyCfg.requested at h
  split at h
  · obtain ⟨info, hi, hd⟩ := Option.bind_eq_some_iff.1 h
    obtain ⟨hm, h0, hn⟩ := mem_of_rtwChSetSearchCh hi
    have hch : c.hwValue.toUInt8 = info.channelNum := UInt8.toNat_inj.1 (by simp [hn])
    split at hd
    · rename_i hband
      rw [Option.some.injEq] at hd
      subst hd
      refine ⟨?_, info, hm, ?_, ?_, active_of_markPassive⟩
      · rwa [markPassive_hwValue, hch]
      · rw [markPassive_hwValue, hch]
      · rw [markPassive_hwValue, hch, ← hn]
        exact hband
    · simp at hd
  · simp at h

theorem listed_of_fromSet {a : SurveyCfg} {info : ChannelInfo} {d : ScanChannel} (hm : info ∈ a.channelSet)
    (h0 : info.channelNum ≠ 0) (h : a.fromSet info = some d) : Listed a d := by
  unfold SurveyCfg.fromSet at h
  split at h
  · rename_i hband
    rw [Option.some.injEq] at h
    subst h
    refine ⟨?_, info, hm, ?_, ?_, active_of_markPassive⟩
    · simpa [markPassive_hwValue] using h0
    · simp [markPassive_hwValue]
    · simpa [markPassive_hwValue] using hband
  · simp at h

theorem listed_of_mem_allowed {a : SurveyCfg} {ch : List ScanChannel} {d : ScanChannel}
    (h0 : ∀ info ∈ a.channelSet, info.channelNum ≠ 0) (h : d ∈ a.allowed ch) : Listed a d := by
  unfold SurveyCfg.allowed at h
  split at h
  · obtain ⟨info, hm, hd⟩ := List.mem_filterMap.1 (List.mem_of_mem_take h)
    exact listed_of_fromSet hm (h0 info hm) hd
  · obtain ⟨c, -, hd⟩ := List.mem_filterMap.1 (List.mem_of_mem_take h)
    exact listed_of_requested hd

theorem rtwScanSparse_sublist (sparse : Bool) (token : UInt8) (ch : List ScanChannel) :
    (SurveyCfg.rtwScanSparse sparse token ch).1.Sublist ch := by
  simp only [SurveyCfg.rtwScanSparse]
  split
  · refine (List.filter_sublist.map Prod.fst).trans ?_
    rw [List.zipIdx_map_fst]
  · exact .refl ch

theorem listed_of_mem_decision {a : SurveyCfg} {token : UInt8} {ch : List ScanChannel} {d : ScanChannel}
    (h0 : ∀ info ∈ a.channelSet, info.channelNum ≠ 0) (h : d ∈ (a.rtwScanChDecision sparse token ch).1) :
    Listed a d :=
  listed_of_mem_allowed h0 ((rtwScanSparse_sublist _ _ _).mem h)

/-! ### What has been surveyed -/

/-- The scan of the adapter is not one of P2P. -/
structure PlainWd (w : WdInfo) : Prop where
  findPhaseStateExchangeCnt : w.findPhaseStateExchangeCnt = 0
  inviteScanOpChOnly : w.inviteScanOpChOnly = false
  scanOpChOnly : w.scanOpChOnly = false

/-- `x` is what a scan does on the channel `c`. -/
def Fits (c : ScanChannel) (x : Surveyed) : Prop :=
  x.ch = c.hwValue.toUInt8 ∧ (c.flags &&& chanPassiveScan ≠ 0 → x.probes = [])

/-- The index of the next channel: it is counted up when the next command starts. -/
def pos (s : SiteSurvey n) : Nat := if s.state = .process ∧ s.busy = false then s.channelIdx + 1 else s.channelIdx

def Running (st : ScanState) : Prop := st ≠ .disable ∧ st ≠ .complete

structure CoverInv (s : SiteSurvey n) : Prop where
  opChOnly : s.wd.inviteScanOpChOnly = false ∧ s.wd.scanOpChOnly = false
  exchange : s.state ≠ .complete → s.wd.findPhaseStateExchangeCnt = 0
  timer : s.findPhaseTimer = false
  state : ∀ st, st = s.state ∨ st = s.nextState → st ≠ .toP2pListen ∧ st ≠ .p2pListen
  listed : ∀ c ∈ s.ch, Listed s.cfg c
  fits : List.Forall₂ Fits (s.ch.take s.surveyed.length) s.surveyed
  pos : Running s.state → s.surveyed.length = s.pos

instance (w : WdInfo) : Decidable (PlainWd w) :=
  decidable_of_iff
    (w.findPhaseStateExchangeCnt = 0 ∧ w.inviteScanOpChOnly = false ∧ w.scanOpChOnly = false)
    ⟨fun h => ⟨h.1, h.2.1, h.2.2⟩, fun h => ⟨h.1, h.2, h.3⟩⟩

theorem CoverInv.plain (h : s.CoverInv) (hs : s.state ≠ .complete) : PlainWd s.wd :=
  ⟨h.exchange hs, h.opChOnly.1, h.opChOnly.2⟩

/-- No event brings P2P up for this adapter. -/
def PlainOk (s : SiteSurvey n) : SurveyEvent n → Prop
  | .iface i f => i = s.self → PlainWd f.wd
  | _ => True

instance (s : SiteSurvey n) : ∀ e : SurveyEvent n, Decidable (s.PlainOk e)
  | .iface i f => inferInstanceAs (Decidable (i = s.self → PlainWd f.wd))
  | .rtwSitesurveyCmd _ => isTrue trivial
  | .cmdThread => isTrue trivial
  | .operation _ _ => isTrue trivial
  | .surveyTimer _ => isTrue trivial
  | .findPhaseTimer _ => isTrue trivial
  | .scanAbort _ => isTrue trivial
  | .backopPolicy _ _ _ => isTrue trivial

theorem PlainWd.scanCh_none (h : PlainWd s.wd) (hc : s.ch[s.channelIdx]? = none) : s.scanCh.1 = 0 := by
  obtain ⟨h1, h2, h3⟩ := h
  simp [scanCh, h1, h2, h3, hc, WdInfo.findphaseExIsSocial]

theorem PlainWd.scanCh_some {c : ScanChannel} (h : PlainWd s.wd) (hc : s.ch[s.channelIdx]? = some c) :
    s.scanCh = (c.hwValue.toUInt8, if c.flags &&& chanPassiveScan = 0 then .active else .passive) := by
  obtain ⟨h1, h2, h3⟩ := h
  simp [scanCh, h1, h2, h3, hc, WdInfo.findphaseExIsSocial]

theorem PlainWd.not_needed (h : PlainWd s.wd) : s.wd.findphaseExIsNeeded = false := by
  simp [WdInfo.findphaseExIsNeeded, h.findPhaseStateExchangeCnt]

theorem pickBehavior_zero (h : s.wd.findphaseExIsNeeded = false) : s.pickBehavior 0 = (.complete, { s with scanCnt := 0 }) := by
  simp [pickBehavior, h]

theorem surveyed_length_le (h : s.CoverInv) : s.surveyed.length ≤ s.ch.length := by
  have hl := h.fits.length_eq
  rw [List.length_take] at hl
  omega

/-- An abort is a jump to the end of the list, or with P2P on to the end of the social channels. -/
theorem scanAbortHdl_aborts (hp : PlainWd s.wd) (ha : s.scanAbort = true) :
    s.scanAbortHdl.scanCh.1 = 0 ∧ s.scanAbortHdl.wd.findphaseExIsNeeded = false := by
  obtain ⟨h1, h2, h3⟩ := hp
  unfold scanAbortHdl
  rw [if_pos ha]
  split
  · generalize ht : ({ s.setWd { s.wd with findPhaseStateExchangeCnt := 4 } with
      channelIdx := 3, scanAbort := false } : SiteSurvey n) = t
    have hw : t.wd = { s.wd with findPhaseStateExchangeCnt := 4 } := by
      rw [← ht]
      simp [setWd, wd]
    have hi : t.channelIdx = 3 := by rw [← ht]
    constructor
    · simp only [scanCh, hw, h2, h3, hi, WdInfo.findphaseExIsSocial]
      rw [if_neg (by simp), if_pos (by decide)]
      split <;> rfl
    · simp [hw, WdInfo.findphaseExIsNeeded]
  · have hp' : PlainWd { s with channelIdx := s.ch.length, scanAbort := false : SiteSurvey n }.wd := ⟨h1, h2, h3⟩
    exact ⟨hp'.scanCh_none (by simp), hp'.not_needed⟩

theorem operation_process (hs : s.state = .process) {p : ScanState × SiteSurvey n} {c : UInt8 × ScanType}
    (hc : s.scanAbortHdl.scanCh = c) (hp : s.scanAbortHdl.pickBehavior c.1 = p) :
    s.operation stayed sparse =
      if p.1 ≠ .process then p.2.setScanState p.1 else (p.2.siteSurvey c).setSurveyTimer.leave := by
  subst hc hp
  simp only [operation, hs]

/-- A pass in `SCAN_PROCESS` surveys the next channel, goes back for a while, or is done. -/
theorem process_cases (stayed sparse : Bool) (h : s.CoverInv) (hs : s.state = .process) :
    (∃ c cnt, s.scanAbort = false ∧ s.ch[s.channelIdx]? = some c ∧
        (s.policyFlags = 0 ∧ cnt = s.scanCnt ∨ s.policyFlags ≠ 0 ∧ s.scanCnt < s.scanCntMax ∧ cnt = s.scanCnt + 1) ∧
        s.operation stayed sparse = ({ s with scanCnt := cnt }.siteSurvey
          (c.hwValue.toUInt8, if c.flags &&& chanPassiveScan = 0 then .active else .passive)).setSurveyTimer.leave) ∨
      (s.scanAbort = false ∧ s.policyFlags ≠ 0 ∧ s.scanCntMax ≤ s.scanCnt ∧ s.channelIdx < s.ch.length ∧
        s.operation stayed sparse =
          { s with backopFlags := s.policyFlags, scanCnt := 0 }.setScanState .backingOp) ∨
      ((s.scanAbort = true ∨ s.ch.length ≤ s.channelIdx) ∧
        s.operation stayed sparse = { s.scanAbortHdl with scanCnt := 0 }.setScanState .complete) := by
  have hp := h.plain (by simp [hs])
  by_cases ha : s.scanAbort = true
  · obtain ⟨hc, hn⟩ := scanAbortHdl_aborts hp ha
    refine .inr (.inr ⟨.inl ha, ?_⟩)
    rw [operation_process hs rfl (hc ▸ pickBehavior_zero hn)]
    rfl
  · have he : s.scanAbortHdl = s := by simp [scanAbortHdl, ha]
    have ha' : s.scanAbort = false := by simpa using ha
    cases hc : s.ch[s.channelIdx]? with
    | none =>
      refine .inr (.inr ⟨.inr (List.getElem?_eq_none_iff.1 hc), ?_⟩)
      rw [operation_process hs rfl (by rw [he, hp.scanCh_none hc, pickBehavior_zero hp.not_needed]), he]
      rfl
    | some c =>
      have hne : c.hwValue.toUInt8 ≠ 0 := (h.listed c (List.mem_of_getElem? hc)).ne
      have hlt : s.channelIdx < s.ch.length := (List.getElem?_eq_some_iff.1 hc).1
      have hch : s.scanAbortHdl.scanCh =
          (c.hwValue.toUInt8, if c.flags &&& chanPassiveScan = 0 then .active else .passive) := by
        rw [he, hp.scanCh_some hc]
      rw [operation_process hs hch rfl, he, pickBehavior, if_pos hne]
      by_cases h0 : s.policyFlags = 0
      · rw [if_pos h0]
        exact .inl ⟨c, s.scanCnt, ha', rfl, .inl ⟨h0, rfl⟩, rfl⟩
      · rw [if_neg h0]
        by_cases hcnt : s.scanCnt < s.scanCntMax
        · rw [if_pos hcnt]
          exact .inl ⟨c, s.scanCnt + 1, ha', rfl, .inr ⟨h0, hcnt, rfl⟩, rfl⟩
        · rw [if_neg hcnt]
          exact .inr (.inl ⟨ha', h0, Nat.le_of_not_lt hcnt, hlt, rfl⟩)

theorem wd_sitesurveyPsAnnc (s : SiteSurvey n) (ps : Bool) : (s.sitesurveyPsAnnc ps).wd = s.wd := by
  rw [wd, ifaces_sitesurveyPsAnnc, told_wd]
  rfl

theorem scanAbortHdl_inviteScanOpChOnly (s : SiteSurvey n) :
    s.scanAbortHdl.wd.inviteScanOpChOnly = s.wd.inviteScanOpChOnly := by
  unfold scanAbortHdl
  repeat' split
  all_goals simp [setWd, wd]

theorem scanAbortHdl_scanOpChOnly (s : SiteSurvey n) : s.scanAbortHdl.wd.scanOpChOnly = s.wd.scanOpChOnly := by
  unfold scanAbortHdl
  repeat' split
  all_goals simp [setWd, wd]

theorem pos_of_busy (hb : s.busy = true) : s.pos = s.channelIdx := by
  simp [SiteSurvey.pos, hb]

theorem pos_of_ne (hs : s.state ≠ .process) : s.pos = s.channelIdx := by
  simp [SiteSurvey.pos, hs]

/-- Nothing of what the cover of a scan rests on has changed. -/
structure Same (s s' : SiteSurvey n) : Prop where
  wd : s'.wd = s.wd
  findPhaseTimer : s'.findPhaseTimer = s.findPhaseTimer
  cfg : s'.cfg = s.cfg
  ch : s'.ch = s.ch
  surveyed : s'.surveyed = s.surveyed
  channelIdx : s'.channelIdx = s.channelIdx

theorem Same.trans {s' s'' : SiteSurvey n} (h : Same s s') (h' : Same s' s'') : Same s s'' :=
  ⟨h'.wd.trans h.wd, h'.findPhaseTimer.trans h.findPhaseTimer, h'.cfg.trans h.cfg, h'.ch.trans h.ch,
    h'.surveyed.trans h.surveyed, h'.channelIdx.trans h.channelIdx⟩

theorem same_setScanState (s : SiteSurvey n) (st : ScanState) : Same s (s.setScanState st) :=
  ⟨rfl, rfl, rfl, rfl, rfl, rfl⟩

theorem same_phydmFuncForOffchannel (s : SiteSurvey n) : Same s s.phydmAbilityBackup.phydmFuncForOffchannel :=
  ⟨rfl, rfl, rfl, rfl, rfl, rfl⟩

theorem same_setMlmeSitesurvey (s : SiteSurvey n) (m : Msr) (on : Bool) :
    Same s ((s.setMsr m).setMlmeSitesurvey on) :=
  ⟨rfl, rfl, rfl, rfl, rfl, rfl⟩

theorem same_phydmAbilityRestore (s : SiteSurvey n) : Same s s.phydmAbilityRestore :=
  ⟨rfl, rfl, rfl, rfl, rfl, rfl⟩

theorem same_sitesurveySetIgi (s : SiteSurvey n) (enter : Bool) : Same s (s.sitesurveySetIgi enter) :=
  ⟨rfl, rfl, rfl, rfl, rfl, rfl⟩

theorem same_sitesurveyPsAnnc (s : SiteSurvey n) (ps : Bool) : Same s (s.sitesurveyPsAnnc ps) :=
  ⟨wd_sitesurveyPsAnnc s ps, rfl, rfl, rfl, rfl, rfl⟩

theorem same_surveyDone (s : SiteSurvey n) (c : ChSetting) : Same s (s.surveyDone c) :=
  ⟨rfl, rfl, rfl, rfl, rfl, rfl⟩

/-- A step that only moves the scan on. -/
theorem CoverInv.keep {s' : SiteSurvey n} (h : s.CoverInv) (hr : Running s.state) (hb : s.busy = true)
    (hsame : Same s s')
    (hst : ∀ st, st = s'.state ∨ st = s'.nextState → st ≠ .toP2pListen ∧ st ≠ .p2pListen)
    (hp : s'.pos = s'.channelIdx) : s'.CoverInv := by
  obtain ⟨hw, ht, hcfg, hch, hsv, hi⟩ := hsame
  constructor
  · rw [hw]
    exact h.opChOnly
  · rw [hw]
    exact fun _ => h.exchange hr.2
  · rw [ht]
    exact h.timer
  · exact hst
  · rw [hch, hcfg]
    exact h.listed
  · rw [hch, hsv]
    exact h.fits
  · rw [hsv, hp, hi, ← pos_of_busy hb]
    exact fun _ => h.pos hr

/-- A step that surveys the channel at the index. -/
theorem CoverInv.survey {s' : SiteSurvey n} {c : ScanChannel} {x : Surveyed} (h : s.CoverInv)
    (hs : s.state = .process) (hb : s.busy = true) (hc : s.ch[s.channelIdx]? = some c) (hx : Fits c x)
    (hw : s'.wd = s.wd) (ht : s'.findPhaseTimer = s.findPhaseTimer) (hcfg : s'.cfg = s.cfg) (hch : s'.ch = s.ch)
    (hsv : s'.surveyed = s.surveyed ++ [x]) (hst : s'.state = s.state) (hn : s'.nextState = s.nextState)
    (hp : s'.pos = s.channelIdx + 1) : s'.CoverInv := by
  have hr : Running s.state := by simp [hs, Running]
  have hpos := (h.pos hr).trans (pos_of_busy hb)
  constructor
  · rw [hw]
    exact h.opChOnly
  · rw [hw]
    exact fun _ => h.exchange hr.2
  · rw [ht]
    exact h.timer
  · rw [hst, hn]
    exact h.state
  · rw [hch, hcfg]
    exact h.listed
  · have htake : s.ch.take (s.surveyed.length + 1) = s.ch.take s.surveyed.length ++ [c] := by
      rw [List.take_add_one, hpos, hc]
      rfl
    rw [hch, hsv, List.length_append, List.length_singleton, htake]
    exact List.rel_append h.fits (List.forall₂_cons.2 ⟨hx, .nil⟩)
  · rw [hp, hsv, List.length_append, List.length_singleton, hpos]
    exact fun _ => rfl

/-- A step that ends the scan. -/
theorem CoverInv.stop {s' : SiteSurvey n} (h : s.CoverInv)
    (hw : s'.wd.inviteScanOpChOnly = s.wd.inviteScanOpChOnly ∧ s'.wd.scanOpChOnly = s.wd.scanOpChOnly)
    (ht : s'.findPhaseTimer = s.findPhaseTimer) (hcfg : s'.cfg = s.cfg) (hch : s'.ch = s.ch)
    (hsv : s'.surveyed = s.surveyed) (hn : s'.nextState = s'.state)
    (hst : s'.state = .complete ∨ s'.state = .disable ∧ s'.wd.findPhaseStateExchangeCnt = 0) : s'.CoverInv := by
  constructor
  · rw [hw.1, hw.2]
    exact h.opChOnly
  · rcases hst with hst | ⟨hst, h0⟩
    · exact fun hne => absurd hst hne
    · exact fun _ => h0
  · rw [ht]
    exact h.timer
  · rw [hn]
    rintro st (rfl | rfl) <;> rcases hst with hst | ⟨hst, -⟩ <;> simp [hst]
  · rw [hch, hcfg]
    exact h.listed
  · rw [hch, hsv]
    exact h.fits
  · rintro ⟨hd, hc⟩
    rcases hst with hst | ⟨hst, -⟩
    · exact absurd hst hc
    · exact absurd hst hd

theorem operation_coverInv (h : s.CoverInv) (hb : s.busy = true) (hd : s.state ≠ .disable) :
    (s.operation stayed sparse).CoverInv := by
  cases hs : s.state with
  | disable => exact absurd hs hd
  | start =>
    have hr : Running s.state := by simp [hs, Running]
    have hw := same_sitesurveyPsAnnc s true
    simp only [operation, hs]
    generalize s.sitesurveyPsAnnc true = t at hw ⊢
    split
    · exact h.keep hr hb (hw.trans ⟨rfl, rfl, rfl, rfl, rfl, rfl⟩) (by simp) (pos_of_ne (by simp))
    · exact h.keep hr hb (hw.trans (same_setScanState t _)) (by simp) (pos_of_ne (by simp))
  | psAnncWait =>
    have hr : Running s.state := by simp [hs, Running]
    simp only [operation, hs]
    exact h.keep hr hb ⟨rfl, rfl, rfl, rfl, rfl, rfl⟩ h.state (pos_of_ne (by simp [hs]))
  | enter =>
    have hr : Running s.state := by simp [hs, Running]
    have hw := same_sitesurveySetIgi s true
    have hbt : (s.sitesurveySetIgi true).busy = true := hb
    simp only [operation, hs]
    generalize s.sitesurveySetIgi true = t at hw hbt ⊢
    have hw' := (hw.trans (same_phydmFuncForOffchannel t)).trans (same_setMlmeSitesurvey _ .nolink true)
    exact h.keep hr hb (hw'.trans (same_setScanState _ _)) (by simp) (pos_of_busy (by simpa using hbt))
  | process =>
    have hr : Running s.state := by simp [hs, Running]
    rcases process_cases stayed sparse h hs with
      ⟨c, cnt, -, hc, -, ho⟩ | ⟨-, -, -, -, ho⟩ | ⟨-, ho⟩
    · rw [ho]
      refine h.survey hs hb hc (x := ⟨c.hwValue.toUInt8,
        s.probes (if c.flags &&& chanPassiveScan = 0 then .active else .passive)⟩) ⟨rfl, fun hne => ?_⟩ ?_ ?_ ?_ ?_ ?_
        ?_ ?_ ?_
      · simp [probes, hne]
      · simp [siteSurvey, wd]
      · simp [siteSurvey]
      · simp [siteSurvey]
      · simp [siteSurvey]
      · rfl
      · simp [siteSurvey]
      · simp [siteSurvey]
      · simp [SiteSurvey.pos, siteSurvey, hs]
    · rw [ho]
      exact h.keep hr hb ⟨rfl, rfl, rfl, rfl, rfl, rfl⟩ (by simp) (pos_of_ne (by simp))
    · rw [ho]
      obtain ⟨w, idx, ab, ha⟩ := scanAbortHdl_eq s
      refine h.stop ⟨scanAbortHdl_inviteScanOpChOnly s, scanAbortHdl_scanOpChOnly s⟩ ?_ ?_ ?_ ?_ rfl (.inl rfl)
      all_goals simp [ha, setWd]
  | backingOp =>
    have hr : Running s.state := by simp [hs, Running]
    simp only [operation, hs]
    generalize (rtwGetChSettingUnion s.all).getD (.width20 0) = c
    have hw := same_surveyDone s c
    generalize s.surveyDone c = t at hw ⊢
    split
    · have hw' := hw.trans ((same_sitesurveySetIgi t false).trans (same_sitesurveyPsAnnc _ false))
      exact h.keep hr hb (hw'.trans (same_setScanState _ _)) (by simp) (pos_of_ne (by simp))
    · exact h.keep hr hb (hw.trans (same_setScanState t _)) (by simp) (pos_of_ne (by simp))
  | backOp =>
    have hr : Running s.state := by simp [hs, Running]
    simp only [operation, hs]
    split
    · exact h.keep hr hb (same_setScanState s _) (by simp) (pos_of_ne (by simp))
    · exact h.keep hr hb ⟨rfl, rfl, rfl, rfl, rfl, rfl⟩ h.state (pos_of_ne (by simp [hs]))
  | leavingOp =>
    have hr : Running s.state := by simp [hs, Running]
    have hw := same_sitesurveyPsAnnc s true
    simp only [operation, hs]
    generalize s.sitesurveyPsAnnc true = t at hw ⊢
    repeat' split
    · exact h.keep hr hb (hw.trans ⟨rfl, rfl, rfl, rfl, rfl, rfl⟩) (by simp) (pos_of_ne (by simp))
    · exact h.keep hr hb (hw.trans (same_setScanState t _)) (by simp) (pos_of_ne (by simp))
    · exact h.keep hr hb (same_setScanState s _) (by simp) (pos_of_ne (by simp))
  | leaveOp =>
    have hr : Running s.state := by simp [hs, Running]
    have hw := same_sitesurveySetIgi s true
    have hbt : (s.sitesurveySetIgi true).busy = true := hb
    simp only [operation, hs]
    generalize s.sitesurveySetIgi true = t at hw hbt ⊢
    split
    · have hw' := hw.trans (same_setMlmeSitesurvey t .nolink true)
      exact h.keep hr hb (hw'.trans (same_setScanState _ _)) (by simp) (pos_of_busy (by simpa using hbt))
    · exact h.keep hr hb ((same_setMlmeSitesurvey s .nolink true).trans (same_setScanState _ _)) (by simp)
        (pos_of_busy hb)
  | toP2pListen => exact absurd hs (h.state _ (.inl rfl)).1
  | p2pListen => exact absurd hs (h.state _ (.inl rfl)).2
  | complete =>
    simp only [operation, hs]
    generalize ht : SiteSurvey.setWd _ _ = t
    have hsame : t.wd.inviteScanOpChOnly = s.wd.inviteScanOpChOnly ∧ t.wd.scanOpChOnly = s.wd.scanOpChOnly ∧
        t.wd.findPhaseStateExchangeCnt = 0 ∧ t.findPhaseTimer = s.findPhaseTimer ∧ t.cfg = s.cfg ∧ t.ch = s.ch ∧
        t.surveyed = s.surveyed := by
      rw [← ht]
      split <;> simp [setWd, wd]
    obtain ⟨h1, h2, h3, h4, h5, h6, h7⟩ := hsame
    generalize t.doneSetting = d
    have hw := (same_surveyDone t d).trans (same_phydmAbilityRestore _)
    have hw' := (hw.trans (same_sitesurveySetIgi _ false)).trans (same_sitesurveyPsAnnc _ false)
    generalize sitesurveyPsAnnc _ false = u at hw' ⊢
    exact h.stop ⟨(congrArg _ hw'.wd).trans h1, (congrArg _ hw'.wd).trans h2⟩ (hw'.findPhaseTimer.trans h4)
      (hw'.cfg.trans h5) (hw'.ch.trans h6) (hw'.surveyed.trans h7) rfl (.inr ⟨rfl, (congrArg _ hw'.wd).trans h3⟩)

theorem begin_coverInv (hr : s.RadioInv) (h : s.CoverInv) (hb : s.busy = false) (parm : SurveyParm) :
    (s.begin parm).CoverInv := by
  have hst : (s.begin parm).state = s.nextState := by
    simp only [begin]
    split <;> rfl
  have hidx : (s.begin parm).channelIdx = s.pos := by
    simp only [begin, SiteSurvey.pos]
    split <;> rename_i hs <;> simp [hs, hb]
  have hsame : (s.begin parm).wd = s.wd ∧ (s.begin parm).findPhaseTimer = s.findPhaseTimer ∧
      (s.begin parm).cfg = s.cfg ∧ (s.begin parm).ch = s.ch ∧ (s.begin parm).surveyed = s.surveyed := by
    simp only [begin]
    split <;> exact ⟨rfl, rfl, rfl, rfl, rfl⟩
  obtain ⟨hw, ht, hcfg, hch, hsv⟩ := hsame
  have hback : s.nextState = s.state ∨ s.nextState ≠ .complete ∧ s.state ≠ .complete ∧ Running s.state := by
    rcases hr.next with hn | ⟨hs, hn | hn⟩
    · exact .inl hn
    · exact .inr ⟨by simp [hn], by simp [hs], by simp [hs, Running]⟩
    · exact .inr ⟨by simp [hn], by simp [hs], by simp [hs, Running]⟩
  constructor
  · rw [hw]
    exact h.opChOnly
  · rw [hw, hst]
    rcases hback with hn | ⟨-, hc, -⟩
    · rw [hn]
      exact h.exchange
    · exact fun _ => h.exchange hc
  · rw [ht]
    exact h.timer
  · have hn : (s.begin parm).nextState = s.nextState := by
      simp only [begin]
      split <;> rfl
    rw [hst, hn]
    exact fun st hst => h.state st (.inr (hst.elim id id))
  · rw [hch, hcfg]
    exact h.listed
  · rw [hch, hsv]
    exact h.fits
  · intro hrun
    have hpos : (s.begin parm).pos = (s.begin parm).channelIdx := by
      refine pos_of_busy ?_
      simp only [begin]
    rw [hsv, hpos, hidx]
    rcases hback with hn | ⟨-, -, hrs⟩
    · rw [hst, hn] at hrun
      exact h.pos hrun
    · exact h.pos hrs

theorem CoverInv.frame {s' : SiteSurvey n} (h : s.CoverInv) (hsame : Same s s') (hst : s'.state = s.state)
    (hn : s'.nextState = s.nextState) (hb : s'.busy = s.busy) : s'.CoverInv := by
  obtain ⟨hw, ht, hcfg, hch, hsv, hi⟩ := hsame
  have hp : s'.pos = s.pos := by simp only [SiteSurvey.pos, hst, hb, hi]
  constructor
  · rw [hw]
    exact h.opChOnly
  · rw [hw, hst]
    exact h.exchange
  · rw [ht]
    exact h.timer
  · rw [hst, hn]
    exact h.state
  · rw [hch, hcfg]
    exact h.listed
  · rw [hch, hsv]
    exact h.fits
  · rw [hst, hsv, hp]
    exact h.pos

theorem CoverInv.setIfaces (h : s.CoverInv) (g : Fin n → Iface)
    (ho : (g s.self).wd.inviteScanOpChOnly = false ∧ (g s.self).wd.scanOpChOnly = false)
    (hx : s.state ≠ .complete → (g s.self).wd.findPhaseStateExchangeCnt = 0) :
    CoverInv { s with ifaces := g } :=
  ⟨ho, hx, h.timer, h.state, h.listed, h.fits, h.pos⟩

theorem next_coverInv (hr : s.RadioInv) (h : s.CoverInv) (hd : s.state ≠ .disable) (e : SurveyEvent n)
    (hok : PlainOk s e) : (s.next e).CoverInv := by
  cases e with
  | rtwSitesurveyCmd parm => exact h.frame ⟨rfl, rfl, rfl, rfl, rfl, rfl⟩ rfl rfl rfl
  | cmdThread =>
    simp only [next, takeCmd]
    split
    · exact h
    · rename_i hb
      split
      · exact h
      · rename_i parm cmds _
        exact begin_coverInv (s := { s with cmds := cmds }) ⟨hr.next, hr.away, hr.home⟩
          (h.frame ⟨rfl, rfl, rfl, rfl, rfl, rfl⟩ rfl rfl rfl) (by simpa using hb) parm
      · refine CoverInv.frame (h.setIfaces (Function.update s.ifaces s.self
          { s.ifaces s.self with wd := { s.wd with state := .findPhaseSearch } }) ?_ ?_)
          ⟨rfl, rfl, rfl, rfl, rfl, rfl⟩ rfl rfl rfl
        · simpa using h.opChOnly
        · simpa using h.exchange
  | operation stayed sparse =>
    by_cases hb : s.busy = true
    · rw [next, if_pos hb]
      exact operation_coverInv h hb hd
    · rwa [next, if_neg hb]
  | surveyTimer mem =>
    simp only [next, surveyTimerHdl]
    repeat' split
    all_goals exact h.frame ⟨rfl, rfl, rfl, rfl, rfl, rfl⟩ rfl rfl rfl
  | findPhaseTimer mem =>
    simp only [next, findPhaseTimerProcess, h.timer]
    exact h
  | scanAbort abort => exact h.frame ⟨rfl, rfl, rfl, rfl, rfl, rfl⟩ rfl rfl rfl
  | iface i f =>
    by_cases hi : i = s.self
    · subst hi
      have hf := hok rfl
      refine h.setIfaces _ ?_ fun _ => ?_
      · simpa using ⟨hf.inviteScanOpChOnly, hf.scanOpChOnly⟩
      · simpa using hf.findPhaseStateExchangeCnt
    · have hne : s.self ≠ i := Ne.symm hi
      refine h.setIfaces _ ?_ ?_
      · simpa [hne, wd] using h.opChOnly
      · simpa [hne, wd] using h.exchange
  | backopPolicy sta ap scanCntMax => exact h.frame ⟨rfl, rfl, rfl, rfl, rfl, rfl⟩ rfl rfl rfl

theorem start_coverInv (h0 : ∀ info ∈ s.cfg.channelSet, info.channelNum ≠ 0) (hs : s.state = .disable)
    (hw : PlainWd s.wd) (ht : s.findPhaseTimer = false) : (s.operation stayed sparse).CoverInv := by
  simp only [operation, hs]
  refine ⟨⟨hw.2, hw.3⟩, fun _ => hw.1, ht, ?_, fun c hc => listed_of_mem_decision h0 hc, .nil, ?_⟩
  · rintro st (rfl | rfl) <;> simp
  · intro _
    rw [pos_of_ne (by simp)]
    rfl

/-- Nothing has cut the scan short. -/
structure WholeInv (s : SiteSurvey n) : Prop where
  scanAbort : s.scanAbort = false
  ended : ¬ Running s.state → s.surveyed.length = s.ch.length

/-- The list is walked to its end before the scan goes on to `SCAN_COMPLETE`. -/
theorem operation_wholeInv (h : s.CoverInv) (hw : s.WholeInv) (hb : s.busy = true) (hd : s.state ≠ .disable) :
    (s.operation stayed sparse).WholeInv := by
  obtain ⟨ha, he⟩ := hw
  cases hs : s.state with
  | disable => exact absurd hs hd
  | start =>
    simp only [operation, hs]
    split <;> exact ⟨ha, fun hr => absurd (by simp [Running]) hr⟩
  | psAnncWait =>
    simp only [operation, hs]
    exact ⟨ha, he⟩
  | enter =>
    simp only [operation, hs]
    exact ⟨by simpa [sitesurveySetIgi] using ha, fun hr => absurd (by simp [Running]) hr⟩
  | process =>
    have hpos := (h.pos (by simp [hs, Running])).trans (pos_of_busy hb)
    have hle := surveyed_length_le h
    rcases process_cases stayed sparse h hs with
      ⟨c, cnt, -, -, -, ho⟩ | ⟨-, -, -, -, ho⟩ | ⟨hend, ho⟩
    · rw [ho]
      exact ⟨by simpa [siteSurvey] using ha, fun hr => absurd (by simp [siteSurvey, Running, hs]) hr⟩
    · rw [ho]
      exact ⟨ha, fun hr => absurd (by simp [Running]) hr⟩
    · rcases hend with hab | hend
      · simp [ha] at hab
      · rw [ho, scanAbortHdl, ha]
        refine ⟨ha, fun _ => ?_⟩
        show s.surveyed.length = s.ch.length
        omega
  | backingOp =>
    simp only [operation, hs]
    split <;> exact ⟨by simpa [sitesurveySetIgi, sitesurveyPsAnnc, surveyDone] using ha,
      fun hr => absurd (by simp [Running]) hr⟩
  | backOp =>
    simp only [operation, hs]
    split
    · exact ⟨ha, fun hr => absurd (by simp [Running]) hr⟩
    · exact ⟨ha, fun hr => absurd (by simp [Running, hs]) hr⟩
  | leavingOp =>
    simp only [operation, hs]
    repeat' split
    all_goals exact ⟨ha, fun hr => absurd (by simp [Running]) hr⟩
  | leaveOp =>
    simp only [operation, hs]
    split <;> exact ⟨by simpa [sitesurveySetIgi] using ha, fun hr => absurd (by simp [Running]) hr⟩
  | toP2pListen => exact absurd hs (h.state _ (.inl rfl)).1
  | p2pListen => exact absurd hs (h.state _ (.inl rfl)).2
  | complete =>
    have he' := he (by simp [hs, Running])
    simp only [operation, hs]
    split
    · exact ⟨by simpa [sitesurveySetIgi, sitesurveyPsAnnc, surveyDone, setWd] using ha,
        fun _ => by simpa [sitesurveySetIgi, sitesurveyPsAnnc, surveyDone, setWd] using he'⟩
    · exact ⟨by simpa [sitesurveySetIgi, sitesurveyPsAnnc, surveyDone, setWd] using ha,
        fun _ => by simpa [sitesurveySetIgi, sitesurveyPsAnnc, surveyDone, setWd] using he'⟩

/-- The events between two passes leave the list and what has been surveyed of it. -/
theorem next_ch (e : SurveyEvent n) (he : ∀ stayed sparse, e ≠ .operation stayed sparse) :
    (s.next e).cfg = s.cfg ∧ (s.next e).ch = s.ch ∧ (s.next e).surveyed = s.surveyed := by
  cases e with
  | operation stayed sparse => exact absurd rfl (he stayed sparse)
  | cmdThread =>
    simp only [next, takeCmd, begin, findPhaseHandler]
    repeat' split
    all_goals exact ⟨rfl, rfl, rfl⟩
  | surveyTimer mem =>
    simp only [next, surveyTimerHdl]
    repeat' split
    all_goals exact ⟨rfl, rfl, rfl⟩
  | findPhaseTimer mem =>
    simp only [next, findPhaseTimerProcess]
    repeat' split
    all_goals exact ⟨rfl, rfl, rfl⟩
  | _ => exact ⟨rfl, rfl, rfl⟩

theorem next_scanAbort (e : SurveyEvent n) (he : ∀ stayed sparse, e ≠ .operation stayed sparse)
    (ha : e ≠ .scanAbort true) (h : s.scanAbort = false) : (s.next e).scanAbort = false := by
  cases e with
  | operation stayed sparse => exact absurd rfl (he stayed sparse)
  | cmdThread =>
    simp only [next, takeCmd, begin, findPhaseHandler]
    repeat' split
    all_goals exact h
  | surveyTimer mem =>
    simp only [next, surveyTimerHdl]
    repeat' split
    all_goals exact h
  | findPhaseTimer mem =>
    simp only [next, findPhaseTimerProcess]
    repeat' split
    all_goals exact h
  | scanAbort abort =>
    cases abort with
    | true => exact absurd rfl ha
    | false => rfl
  | _ => exact h

theorem next_wholeInv (hr : s.RadioInv) (h : s.CoverInv) (hw : s.WholeInv) (hd : s.state ≠ .disable)
    (e : SurveyEvent n) (ha : e ≠ .scanAbort true) : (s.next e).WholeInv := by
  rcases next_cases s e with ⟨stayed, sparse, hb, he⟩ | he | he
  · rw [he]
    exact operation_wholeInv h hw hb hd
  · rwa [he]
  · obtain ⟨-, hch, hsv⟩ := next_ch (s := s) e he
    refine ⟨next_scanAbort e he ha hw.scanAbort, fun hn => ?_⟩
    rw [hch, hsv]
    refine hw.ended fun hrun => hn ?_
    rcases (next_between (s := s) e he).state_iff hr with hs | ⟨-, hs | hs⟩
    · rwa [hs]
    · simp [hs, Running]
    · simp [hs, Running]

/-- What a scan has done of its list: it has surveyed the first channels of it, each as it may be scanned. -/
structure Covered (s : SiteSurvey n) : Prop where
  fits : List.Forall₂ Fits (s.ch.take s.surveyed.length) s.surveyed
  allows : ∀ x ∈ s.surveyed, Allows s.cfg x.ch (x.probes ≠ [])

theorem covered_of_inv (h : s.CoverInv) : s.Covered := by
  refine ⟨h.fits, fun x hx => ?_⟩
  obtain ⟨i, hi, rfl⟩ := List.getElem_of_mem hx
  have hi' : i < (s.ch.take s.surveyed.length).length := by
    rwa [h.fits.length_eq]
  have hfit := h.fits.get hi' hi
  simp only [List.get_eq_getElem] at hfit
  obtain ⟨hch, hp⟩ := hfit
  have hl := h.listed _ (List.mem_of_mem_take (List.getElem_mem hi'))
  obtain ⟨info, hm, hn, hband, hact⟩ := hl.allows
  refine ⟨info, hm, ?_, ?_, fun hne => hact ?_⟩
  · rw [hn, hch]
  · rw [hch]
    exact hband
  · by_contra hflag
    exact hne (hp hflag)

/-- Only the start of a scan makes a list. -/
theorem operation_ch (hd : s.state ≠ .disable) : (s.operation stayed sparse).ch = s.ch := by
  cases hs : s.state with
  | disable => exact absurd hs hd
  | process =>
    obtain ⟨w, idx, ab, ha⟩ := scanAbortHdl_eq s
    obtain ⟨cnt, flags, hp⟩ := pickBehavior_snd s.scanAbortHdl s.scanAbortHdl.scanCh.1
    have hch : (s.scanAbortHdl.pickBehavior s.scanAbortHdl.scanCh.1).2.ch = s.ch := by
      rw [hp, ha]
      rfl
    simp only [operation, hs]
    split
    · exact hch
    · simpa [siteSurvey] using hch
  | complete =>
    simp only [operation, hs]
    split <;> simp [sitesurveyPsAnnc, sitesurveySetIgi, surveyDone, setWd]
  | _ =>
    simp only [operation, hs]
    repeat' split
    all_goals simp [sitesurveyPsAnnc, sitesurveySetIgi, surveyDone, setWd]

theorem next_ch_eq (hd : s.state ≠ .disable) (e : SurveyEvent n) : (s.next e).ch = s.ch := by
  rcases next_cases s e with ⟨stayed, sparse, -, he⟩ | he | he
  · rw [he]
    exact operation_ch hd
  · rw [he]
  · exact (next_ch e he).2.1

/-- Over a scan that no find phase of P2P is part of, and whatever returns, early commands and other interfaces
come in between: what has been surveyed is the first part of the list that `rtw_scan_ch_decision` picked, in its
order; and all of it when the scan ends without an abort. -/
theorem survey_covers (h0 : ∀ info ∈ s.cfg.channelSet, info.channelNum ≠ 0) (hs : s.Ready) (hw : PlainWd s.wd)
    (ht : s.findPhaseTimer = false) (stayed sparse : Bool) (evs : List (SurveyEvent n))
    (hok : RunOk next (fun t e => t.PlainOk e ∧ t.state ≠ .disable) (s.operation stayed sparse) evs) :
    (run next (s.operation stayed sparse) evs).ch = (s.cfg.rtwScanChDecision sparse s.token s.parm.ch).1 ∧
      (run next (s.operation stayed sparse) evs).Covered ∧
      (s.scanAbort = false → (∀ e ∈ evs, e ≠ .scanAbort true) →
        (run next (s.operation stayed sparse) evs).state = .disable →
        (run next (s.operation stayed sparse) evs).surveyed.length =
          (run next (s.operation stayed sparse) evs).ch.length) := by
  have hch : (s.operation stayed sparse).ch = (s.cfg.rtwScanChDecision sparse s.token s.parm.ch).1 := by
    simp only [operation, hs.state]
    rfl
  have hinv : (s.operation stayed sparse).RadioInv ∧ (s.operation stayed sparse).CoverInv :=
    ⟨operation_radioInv hs.radioInv, start_coverInv h0 hs.state hw ht⟩
  have hstep : ∀ (t : SiteSurvey n) e, (t.RadioInv ∧ t.CoverInv) → (t.PlainOk e ∧ t.state ≠ .disable) →
      ((t.next e).RadioInv ∧ (t.next e).CoverInv) :=
    fun t e h hok => ⟨next_radioInv h.1 e, next_coverInv h.1 h.2 hok.2 e hok.1⟩
  refine ⟨?_, covered_of_inv (run_invariant_of_ok (I := fun t => t.RadioInv ∧ t.CoverInv) hstep hinv hok).2,
    fun ha hevs hend => ?_⟩
  · refine run_invariant_of_ok (I := fun t => t.ch = _) (fun t e h hok => ?_) hch hok
    rw [next_ch_eq hok.2, h]
  · have hstart : (s.operation stayed sparse).WholeInv := by
      simp only [operation, hs.state]
      exact ⟨ha, fun hr => absurd (by simp [Running]) hr⟩
    have h := run_invariant_of_ok (I := fun t => (t.RadioInv ∧ t.CoverInv) ∧ t.WholeInv)
      (fun t e h hok => ⟨hstep t e h.1 hok.1, next_wholeInv h.1.1 h.1.2 h.2 hok.1.2 e hok.2⟩)
      ⟨hinv, hstart⟩ (hok.and_forall hevs)
    exact h.2.ended (by simp [Running, hend])

/-! ### Returns -/

/-- A step away from the operating channel, under a policy that asks for returns and stays as it is. -/
def InBatch (s : SiteSurvey n) (e : SurveyEvent n) : Prop :=
  s.PlainOk e ∧ Away s.state ∧ s.policyFlags ≠ 0 ∧ e.isBackopPolicy = false

instance (s : SiteSurvey n) (e : SurveyEvent n) : Decidable (s.InBatch e) :=
  inferInstanceAs (Decidable (_ ∧ _ ∧ _ ∧ _))

/-- `l` channels had been surveyed when the batch began. -/
structure BatchInv (l m : Nat) (s : SiteSurvey n) : Prop where
  scanCntMax : s.scanCntMax = m
  all : s.surveyed.length ≤ l + m
  room : s.state = .process → s.surveyed.length + (m - s.scanCnt) ≤ l + m

theorem next_counts (e : SurveyEvent n) (he : ∀ stayed sparse, e ≠ .operation stayed sparse)
    (hp : e.isBackopPolicy = false) :
    (s.next e).scanCnt = s.scanCnt ∧ (s.next e).scanCntMax = s.scanCntMax := by
  cases e with
  | operation stayed sparse => exact absurd rfl (he stayed sparse)
  | backopPolicy sta ap max => simp [SurveyEvent.isBackopPolicy] at hp
  | cmdThread =>
    simp only [next, takeCmd, begin, findPhaseHandler]
    repeat' split
    all_goals exact ⟨rfl, rfl⟩
  | surveyTimer mem =>
    simp only [next, surveyTimerHdl]
    repeat' split
    all_goals exact ⟨rfl, rfl⟩
  | findPhaseTimer mem =>
    simp only [next, findPhaseTimerProcess]
    repeat' split
    all_goals exact ⟨rfl, rfl⟩
  | _ => exact ⟨rfl, rfl⟩

theorem operation_batchInv {l m : Nat} (h : s.CoverInv) (hi : s.BatchInv l m) (ha : Away s.state)
    (hp : s.policyFlags ≠ 0) : (s.operation stayed sparse).BatchInv l m := by
  obtain ⟨hm, hall, hroom⟩ := hi
  cases hs : s.state with
  | process =>
    have hroom' := hroom hs
    rcases process_cases stayed sparse h hs with
      ⟨c, cnt, -, -, hcnt, ho⟩ | ⟨-, -, -, -, ho⟩ | ⟨-, ho⟩
    · rcases hcnt with ⟨h0, -⟩ | ⟨-, hlt, rfl⟩
      · exact absurd h0 hp
      · rw [ho]
        refine ⟨by simpa [siteSurvey] using hm, ?_, fun _ => ?_⟩
        · simp [siteSurvey]
          omega
        · simp [siteSurvey]
          omega
    · rw [ho]
      exact ⟨hm, hall, fun hst => absurd hst (by simp)⟩
    · rw [ho]
      obtain ⟨w, idx, ab, hab⟩ := scanAbortHdl_eq s
      exact ⟨by simpa [hab, setWd] using hm, by simpa [hab, setWd] using hall, fun hst => absurd hst (by simp)⟩
  | backingOp =>
    simp only [operation, hs]
    split <;> exact ⟨by simpa [sitesurveySetIgi, sitesurveyPsAnnc, surveyDone] using hm,
      by simpa [sitesurveySetIgi, sitesurveyPsAnnc, surveyDone] using hall, fun hst => absurd hst (by simp)⟩
  | toP2pListen => exact absurd hs (h.state _ (.inl rfl)).1
  | p2pListen => exact absurd hs (h.state _ (.inl rfl)).2
  | complete =>
    simp only [operation, hs]
    split <;> exact ⟨by simpa [sitesurveySetIgi, sitesurveyPsAnnc, surveyDone, setWd] using hm,
      by simpa [sitesurveySetIgi, sitesurveyPsAnnc, surveyDone, setWd] using hall, fun hst => absurd hst (by simp)⟩
  | _ =>
    rw [hs] at ha
    exact ha.elim

theorem next_batchInv {l m : Nat} (hr : s.RadioInv) (h : s.CoverInv) (hi : s.BatchInv l m) (e : SurveyEvent n)
    (hok : InBatch s e) : (s.next e).BatchInv l m := by
  obtain ⟨-, ha, hp, hpol⟩ := hok
  rcases next_cases s e with ⟨stayed, sparse, -, he⟩ | he | he
  · rw [he]
    exact operation_batchInv h hi ha hp
  · rwa [he]
  · obtain ⟨hcnt, hmax⟩ := next_counts (s := s) e he hpol
    obtain ⟨-, -, hsv⟩ := next_ch (s := s) e he
    obtain ⟨hm, hall, hroom⟩ := hi
    refine ⟨hmax.trans hm, by rwa [hsv], fun hst => ?_⟩
    rw [hsv, hcnt]
    refine hroom ?_
    rcases (next_between (s := s) e he).state_iff hr with hs | ⟨hw, -⟩
    · exact hs ▸ hst
    · rw [hw] at ha
      exact ha.elim

/-- Where the policy asks for it, the scan comes back to the operating channel before it has surveyed more than
`scan_cnt_max` channels. -/
theorem survey_batch (h0 : ∀ info ∈ s.cfg.channelSet, info.channelNum ≠ 0) (hs : s.Ready) (hw : PlainWd s.wd)
    (ht : s.findPhaseTimer = false) (stayed sparse : Bool) (evs batch : List (SurveyEvent n))
    (hok : RunOk next (fun t e => t.PlainOk e ∧ t.state ≠ .disable) (s.operation stayed sparse) evs)
    (hbatch : RunOk next InBatch (run next (s.operation stayed sparse) evs) batch) :
    (run next (s.operation stayed sparse) (evs ++ batch)).surveyed.length ≤
      (run next (s.operation stayed sparse) evs).surveyed.length +
        (run next (s.operation stayed sparse) evs).scanCntMax := by
  have hinv : (s.operation stayed sparse).RadioInv ∧ (s.operation stayed sparse).CoverInv :=
    ⟨operation_radioInv hs.radioInv, start_coverInv h0 hs.state hw ht⟩
  have hmid := run_invariant_of_ok (I := fun t => t.RadioInv ∧ t.CoverInv)
    (fun t e h hok => ⟨next_radioInv h.1 e, next_coverInv h.1 h.2 hok.2 e hok.1⟩) hinv hok
  rw [run_append]
  generalize run next (s.operation stayed sparse) evs = t at hmid hbatch ⊢
  have hstart : t.BatchInv t.surveyed.length t.scanCntMax := ⟨rfl, by omega, fun _ => by omega⟩
  have hend := run_invariant_of_ok
    (I := fun u => (u.RadioInv ∧ u.CoverInv) ∧ u.BatchInv t.surveyed.length t.scanCntMax)
    (fun u e h hok => ?_) ⟨hmid, hstart⟩ hbatch
  · exact hend.2.all
  · have hd : u.state ≠ .disable := by
      intro hd
      have ha := hok.2.1
      rw [hd] at ha
      exact ha
    exact ⟨⟨next_radioInv h.1.1 e, next_coverInv h.1.1 h.1.2 hd e hok.1⟩, next_batchInv h.1.1 h.1.2 h.2 e hok⟩

/-! ### The scan of channels 1, 6, 11 and 36 -/

/-- A command for the scan has been taken. -/
def begunOnSix : SiteSurvey 2 := { idleOnSix with busy := true, parm := ⟨.active, [], []⟩ }

theorem begunOnSix_ready : begunOnSix.Ready := ⟨rfl, rfl, rfl, fun _ => rfl⟩

theorem begunOnSix_channels : ∀ info ∈ begunOnSix.cfg.channelSet, info.channelNum ≠ 0 := by decide

def toSecondBegun : List (SurveyEvent 2) := [.operation true false, .surveyTimer true] ++ cmdRound 2 ++ cmdRound 1

theorem survey_covers_begunOnSix :
    (run next (begunOnSix.operation true false) (toSecondBegun ++ toEnd)).Covered ∧
      (run next (begunOnSix.operation true false) (toSecondBegun ++ toEnd)).surveyed.length = 4 := by
  have h := survey_covers begunOnSix_channels begunOnSix_ready ⟨rfl, rfl, rfl⟩ rfl true false (toSecondBegun ++ toEnd)
    (by decide +kernel)
  exact ⟨h.2.1, by decide +kernel⟩

theorem survey_batch_begunOnSix :
    (run next (begunOnSix.operation true false) ([.operation true false, .surveyTimer true, .cmdThread,
        .operation true false] ++ [.operation true false, .surveyTimer true, .cmdThread, .operation true false,
        .surveyTimer true, .cmdThread, .operation true false])).surveyed.length ≤ 0 + 2 := by
  have h := survey_batch begunOnSix_channels begunOnSix_ready ⟨rfl, rfl, rfl⟩ rfl true false
    [.operation true false, .surveyTimer true, .cmdThread, .operation true false]
    [.operation true false, .surveyTimer true, .cmdThread, .operation true false, .surveyTimer true, .cmdThread,
      .operation true false] (by decide +kernel) (by decide +kernel)
  exact h

end SiteSurvey
end Rtw.Scan
