import Rtw.Scan.SurveyCover

/-!
# A site survey ends

Each pass of the switch lowers `rank`, but for those that find the time on the operating channel not over, so
that a scan takes a number of passes that its list bounds. Nor does it get stuck between two passes: the
command thread is in the switch, the timer is armed or its command is queued (`Pending`).
-/

namespace Rtw.Scan
namespace SiteSurvey

open Machine

variable {n : Nat} {s : SiteSurvey n} {stayed sparse : Bool}

/-! ### The rank of a scan -/

def rank (s : SiteSurvey n) : Nat :=
  let left := 12 * (s.ch.length - s.channelIdx)
  match s.state with
  | .disable => 0
  | .start => left + 14
  | .psAnncWait => if s.nextState = .enter then left + 13 else left + 6
  | .enter => left + 12
  | .process => if s.busy then (if s.scanCnt = 0 then left + 2 else left + 10) else left + 1
  | .backingOp => left + 9
  | .backOp => left + 8
  | .leavingOp => left + 7
  | .leaveOp => left + 5
  | .toP2pListen => 0
  | .p2pListen => 0
  | .complete => 1

/-- The channels surveyed since the last return are not counted on the way through it. -/
structure EndInv (s : SiteSurvey n) : Prop where
  awaited : s.busy = true → s.state ≠ .psAnncWait
  waits : s.state = .psAnncWait → s.nextState = .enter ∨ s.nextState = .leaveOp
  counted : s.state = .backingOp ∨ s.state = .backOp ∨ s.state = .leavingOp ∨ s.state = .leaveOp ∨
    s.state = .psAnncWait ∧ s.nextState = .leaveOp → s.scanCnt = 0
  scanCntMax : 1 ≤ s.scanCntMax

/-- A pass of the switch. -/
def isPass (s : SiteSurvey n) : SurveyEvent n → Nat
  | .operation _ _ => if s.busy then 1 else 0
  | _ => 0

/-- A pass that finds the time on the operating channel not over. -/
def isWait (s : SiteSurvey n) : SurveyEvent n → Nat
  | .operation stayed _ => if s.busy ∧ s.state = .backOp ∧ stayed = false ∧ s.scanAbort = false then 1 else 0
  | _ => 0

/-- The policy asks for no return, or lets at least one channel be surveyed before it. -/
def EndOk (s : SiteSurvey n) (e : SurveyEvent n) : Prop :=
  (s.PlainOk e ∧ s.state ≠ .disable) ∧ 1 ≤ (e.scanCntMax s.scanCntMax)

instance (s : SiteSurvey n) (e : SurveyEvent n) : Decidable (s.EndOk e) :=
  inferInstanceAs (Decidable ((_ ∧ _) ∧ _))

theorem operation_endInv (h : s.CoverInv) (hi : s.EndInv) (hb : s.busy = true) (hd : s.state ≠ .disable) :
    (s.operation stayed sparse).EndInv := by
  obtain ⟨haw, hwt, hcnt, hmax⟩ := hi
  cases hs : s.state with
  | disable => exact absurd hs hd
  | start =>
    simp only [operation, hs]
    split <;> exact ⟨by simp, by simp, by simp, by simpa [sitesurveyPsAnnc] using hmax⟩
  | psAnncWait => exact absurd hs (haw hb)
  | enter =>
    simp only [operation, hs]
    exact ⟨by simp, by simp, by simp, by simpa [sitesurveySetIgi] using hmax⟩
  | process =>
    rcases process_cases stayed sparse h hs with
      ⟨c, cnt, -, -, -, ho⟩ | ⟨-, -, -, -, ho⟩ | ⟨-, ho⟩
    · rw [ho]
      exact ⟨by simp [siteSurvey, hs], by simp [siteSurvey, hs], by simp [siteSurvey, hs], by simpa [siteSurvey] using hmax⟩
    · rw [ho]
      exact ⟨by simp, by simp, by simp, hmax⟩
    · rw [ho]
      obtain ⟨w, idx, ab, hab⟩ := scanAbortHdl_eq s
      exact ⟨by simp, by simp, by simp, by simpa [hab, setWd] using hmax⟩
  | backingOp =>
    have h0 := hcnt (.inl hs)
    simp only [operation, hs]
    split <;> exact ⟨by simp, by simp, by simpa [sitesurveySetIgi, sitesurveyPsAnnc, surveyDone] using h0,
      by simpa [sitesurveySetIgi, sitesurveyPsAnnc, surveyDone] using hmax⟩
  | backOp =>
    have h0 := hcnt (.inr (.inl hs))
    simp only [operation, hs]
    split
    · exact ⟨by simp, by simp, fun _ => h0, hmax⟩
    · exact ⟨by simp, by simp [hs], fun _ => h0, hmax⟩
  | leavingOp =>
    have h0 := hcnt (.inr (.inr (.inl hs)))
    simp only [operation, hs]
    repeat' split
    all_goals exact ⟨by simp, by simp, fun _ => h0, hmax⟩
  | leaveOp =>
    have h0 := hcnt (.inr (.inr (.inr (.inl hs))))
    simp only [operation, hs]
    split <;> exact ⟨by simp, by simp, by simp, by simpa [sitesurveySetIgi] using hmax⟩
  | toP2pListen => exact absurd hs (h.state _ (.inl rfl)).1
  | p2pListen => exact absurd hs (h.state _ (.inl rfl)).2
  | complete =>
    simp only [operation, hs]
    split <;> exact ⟨by simp, by simp, by simp, by simpa [sitesurveySetIgi, sitesurveyPsAnnc, surveyDone, setWd] using hmax⟩

theorem operation_rank (h : s.CoverInv) (hi : s.EndInv) (hb : s.busy = true) (hd : s.state ≠ .disable) :
    (s.operation stayed sparse).rank + 1 ≤ s.rank + s.isWait (.operation stayed sparse) := by
  obtain ⟨haw, -, hcnt, hmax⟩ := hi
  cases hs : s.state with
  | disable => exact absurd hs hd
  | start =>
    simp only [operation, hs]
    split
    · simp [rank, hs, sitesurveyPsAnnc]
    · simp [rank, hs, sitesurveyPsAnnc]
      omega
  | psAnncWait => exact absurd hs (haw hb)
  | enter =>
    simp only [operation, hs]
    simp only [rank, hs]
    simp [sitesurveySetIgi, hb]
    split <;> omega
  | process =>
    rcases process_cases stayed sparse h hs with
      ⟨c, cnt, -, -, -, ho⟩ | ⟨-, -, hle, -, ho⟩ | ⟨-, ho⟩
    · rw [ho]
      simp [rank, hs, hb, siteSurvey]
      split <;> omega
    · have hne : s.scanCnt ≠ 0 := by omega
      rw [ho]
      simp [rank, hs, hb, hne]
    · rw [ho]
      simp [rank, hs, hb]
      split <;> omega
  | backingOp =>
    simp only [operation, hs]
    split <;> simp [rank, hs, sitesurveySetIgi, sitesurveyPsAnnc, surveyDone]
  | backOp =>
    simp only [operation, hs]
    split
    · simp [rank, hs]
    · rename_i hw
      simp only [Bool.or_eq_true, not_or, Bool.not_eq_true] at hw
      simp [rank, hs, isWait, hb, hw]
  | leavingOp =>
    simp only [operation, hs]
    repeat' split
    all_goals simp [rank, hs, sitesurveyPsAnnc] <;> omega
  | leaveOp =>
    have h0 := hcnt (.inr (.inr (.inr (.inl hs))))
    simp only [operation, hs]
    split <;> simp [rank, hs, sitesurveySetIgi, hb, h0] <;> omega
  | toP2pListen => exact absurd hs (h.state _ (.inl rfl)).1
  | p2pListen => exact absurd hs (h.state _ (.inl rfl)).2
  | complete =>
    simp only [operation, hs]
    split <;> simp [rank, hs]

theorem begin_rank (hr : s.RadioInv) (h : s.CoverInv) (hb : s.busy = false) (parm : SurveyParm) :
    (s.begin parm).rank ≤ s.rank := by
  have hle := surveyed_length_le h
  rcases hr.next with hn | ⟨hs, hn | hn⟩
  · cases hs : s.state with
    | process =>
      have hpos := h.pos (by simp [hs, Running])
      rw [SiteSurvey.pos, if_pos ⟨hs, hb⟩] at hpos
      simp [begin, rank, hs, hn, hb]
      split <;> omega
    | _ => simp [begin, rank, hs, hn]
  · simp [begin, rank, hs, hn]
  · simp [begin, rank, hs, hn]

theorem begin_endInv (hr : s.RadioInv) (hi : s.EndInv) (parm : SurveyParm) : (s.begin parm).EndInv := by
  obtain ⟨-, hwt, hcnt, hmax⟩ := hi
  have hst : (s.begin parm).state = s.nextState := by
    simp only [begin]
    split <;> rfl
  have hcnt' : (s.begin parm).scanCnt = s.scanCnt := by
    simp only [begin]
    split <;> rfl
  have hne : s.nextState ≠ .psAnncWait := by
    intro hn
    rcases hr.next with hs | ⟨-, hs | hs⟩
    · rcases hwt (hs ▸ hn) with hw | hw <;> simp [hn] at hw
    · simp [hn] at hs
    · simp [hn] at hs
  constructor
  · rw [hst]
    exact fun _ => hne
  · rw [hst]
    exact fun hs => absurd hs hne
  · rw [hst, hcnt']
    intro hs
    rcases hr.next with hn | ⟨hw, hn | hn⟩
    · refine hcnt ?_
      rw [← hn]
      rcases hs with hs | hs | hs | hs | hs
      · exact .inl hs
      · exact .inr (.inl hs)
      · exact .inr (.inr (.inl hs))
      · exact .inr (.inr (.inr (.inl hs)))
      · exact absurd hs.1 hne
    · simp [hn] at hs
    · exact hcnt (by simp [hw, hn])
  · simp only [begin]
    split <;> exact hmax

/-- What only the command thread and a pass of the switch change. -/
structure Still (s s' : SiteSurvey n) : Prop where
  state : s'.state = s.state
  nextState : s'.nextState = s.nextState
  busy : s'.busy = s.busy
  channelIdx : s'.channelIdx = s.channelIdx
  ch : s'.ch = s.ch
  scanCnt : s'.scanCnt = s.scanCnt

theorem Still.rank {s' : SiteSurvey n} (h : Still s s') : s'.rank = s.rank := by
  obtain ⟨h1, h2, h3, h4, h5, h6⟩ := h
  simp only [SiteSurvey.rank, h1, h2, h3, h4, h5, h6]

theorem Still.endInv {s' : SiteSurvey n} (h : Still s s') (hi : s.EndInv) (hmax : 1 ≤ s'.scanCntMax) :
    s'.EndInv := by
  obtain ⟨h1, h2, h3, -, -, h6⟩ := h
  constructor
  · rw [h1, h3]
    exact hi.awaited
  · rw [h1, h2]
    exact hi.waits
  · rw [h1, h2, h6]
    exact hi.counted
  · exact hmax

theorem next_still (e : SurveyEvent n) (he : ∀ stayed sparse, e ≠ .operation stayed sparse) (hc : e ≠ .cmdThread) :
    Still s (s.next e) := by
  cases e with
  | operation stayed sparse => exact absurd rfl (he stayed sparse)
  | cmdThread => exact absurd rfl hc
  | surveyTimer mem =>
    simp only [next, surveyTimerHdl]
    repeat' split
    all_goals exact ⟨rfl, rfl, rfl, rfl, rfl, rfl⟩
  | findPhaseTimer mem =>
    simp only [next, findPhaseTimerProcess]
    repeat' split
    all_goals exact ⟨rfl, rfl, rfl, rfl, rfl, rfl⟩
  | _ => exact ⟨rfl, rfl, rfl, rfl, rfl, rfl⟩

theorem next_scanCntMax (e : SurveyEvent n) (he : ∀ stayed sparse, e ≠ .operation stayed sparse) :
    (s.next e).scanCntMax = e.scanCntMax s.scanCntMax := by
  cases hp : e.isBackopPolicy with
  | true =>
    cases e with
    | backopPolicy sta ap max => rfl
    | _ => simp [SurveyEvent.isBackopPolicy] at hp
  | false =>
    rw [(next_counts e he hp).2]
    cases e with
    | backopPolicy sta ap max => simp [SurveyEvent.isBackopPolicy] at hp
    | _ => rfl

theorem takeCmd_end (hr : s.RadioInv) (h : s.CoverInv) (hi : s.EndInv) :
    s.takeCmd.EndInv ∧ s.takeCmd.rank ≤ s.rank := by
  unfold takeCmd
  split
  · exact ⟨hi, Nat.le_refl _⟩
  · rename_i hb
    split
    · exact ⟨hi, Nat.le_refl _⟩
    · rename_i parm cmds _
      have hstill : Still s { s with cmds := cmds } := ⟨rfl, rfl, rfl, rfl, rfl, rfl⟩
      have hr' : RadioInv { s with cmds := cmds } := ⟨hr.next, hr.away, hr.home⟩
      have hi' : EndInv { s with cmds := cmds } := hstill.endInv hi hi.scanCntMax
      refine ⟨begin_endInv hr' hi' parm, ?_⟩
      rw [← hstill.rank]
      exact begin_rank hr' (h.frame ⟨rfl, rfl, rfl, rfl, rfl, rfl⟩ rfl rfl rfl) (by simpa using hb) parm
    · rename_i cmds _
      have hstill : Still s ({ s with cmds := cmds } : SiteSurvey n).findPhaseHandler :=
        ⟨rfl, rfl, rfl, rfl, rfl, rfl⟩
      exact ⟨hstill.endInv hi hi.scanCntMax, Nat.le_of_eq hstill.rank⟩

theorem next_rank (hr : s.RadioInv) (h : s.CoverInv) (hi : s.EndInv) (e : SurveyEvent n) (hok : EndOk s e) :
    (s.next e).EndInv ∧ (s.next e).rank + s.isPass e ≤ s.rank + s.isWait e := by
  obtain ⟨⟨-, hd⟩, hmax⟩ := hok
  by_cases he : ∃ stayed sparse, e = .operation stayed sparse
  · obtain ⟨stayed, sparse, rfl⟩ := he
    by_cases hb : s.busy = true
    · simp only [next, isPass, if_pos hb]
      exact ⟨operation_endInv h hi hb hd, operation_rank h hi hb hd⟩
    · simp only [next, isPass, if_neg hb]
      exact ⟨hi, by omega⟩
  · have he' : ∀ stayed sparse, e ≠ .operation stayed sparse := fun stayed sparse h => he ⟨stayed, sparse, h⟩
    have hpass : s.isPass e = 0 := by
      cases e with
      | operation stayed sparse => exact absurd rfl (he' stayed sparse)
      | _ => rfl
    have hle : (s.next e).EndInv ∧ (s.next e).rank ≤ s.rank := by
      by_cases hc : e = .cmdThread
      · rw [hc]
        exact takeCmd_end hr h hi
      · have hs := next_still (s := s) e he' hc
        exact ⟨hs.endInv hi (by rwa [next_scanCntMax e he']), Nat.le_of_eq hs.rank⟩
    exact ⟨hle.1, by omega⟩

/-! ### Nothing is lost between two passes -/

/-- The scan goes on by itself. -/
def Pending (s : SiteSurvey n) : Prop :=
  s.busy = true ∨ s.surveyTimer = true ∨ ∃ parm, SurveyCmd.siteSurvey parm ∈ s.cmds

/-- There is memory for the command of the survey timer. -/
def MemOk : SurveyEvent n → Prop
  | .surveyTimer mem => mem = true
  | _ => True

theorem operation_pending (h : s.CoverInv) (hi : s.EndInv) (hb : s.busy = true) (hd : s.state ≠ .disable)
    (hd' : (s.operation stayed sparse).state ≠ .disable) : (s.operation stayed sparse).Pending := by
  cases hs : s.state with
  | disable => exact absurd hs hd
  | start =>
    simp only [operation, hs]
    split
    · exact .inr (.inl rfl)
    · exact .inl hb
  | psAnncWait => exact absurd hs (hi.awaited hb)
  | enter =>
    simp only [operation, hs]
    exact .inl (by simpa [sitesurveySetIgi] using hb)
  | process =>
    rcases process_cases stayed sparse h hs with
      ⟨c, cnt, -, -, -, ho⟩ | ⟨-, -, -, -, ho⟩ | ⟨-, ho⟩
    · rw [ho]
      exact .inr (.inl rfl)
    · rw [ho]
      exact .inl hb
    · rw [ho]
      obtain ⟨w, idx, ab, hab⟩ := scanAbortHdl_eq s
      exact .inl (by simpa [hab, setWd] using hb)
  | backingOp =>
    simp only [operation, hs]
    split <;> exact .inl (by simpa [sitesurveySetIgi, sitesurveyPsAnnc, surveyDone] using hb)
  | backOp =>
    simp only [operation, hs]
    split
    · exact .inl hb
    · exact .inr (.inl rfl)
  | leavingOp =>
    simp only [operation, hs]
    repeat' split
    · exact .inr (.inl rfl)
    · exact .inl hb
    · exact .inl hb
  | leaveOp =>
    simp only [operation, hs]
    split <;> exact .inl (by simpa [sitesurveySetIgi] using hb)
  | toP2pListen => exact absurd hs (h.state _ (.inl rfl)).1
  | p2pListen => exact absurd hs (h.state _ (.inl rfl)).2
  | complete =>
    refine absurd ?_ hd'
    simp only [operation, hs]
    rfl

theorem takeCmd_pending (h : s.Pending) : s.takeCmd.Pending := by
  unfold takeCmd
  split
  · exact h
  · rename_i hb
    split
    · exact h
    · exact .inl rfl
    · exact .inr (.inr ⟨_, List.mem_append_right _ (List.mem_cons_self ..)⟩)

theorem next_pending (h : s.CoverInv) (hi : s.EndInv) (hp : s.Pending) (hd : s.state ≠ .disable)
    (e : SurveyEvent n) (hmem : MemOk e) (hd' : (s.next e).state ≠ .disable) : (s.next e).Pending := by
  cases e with
  | rtwSitesurveyCmd parm => exact .inr (.inr ⟨parm, by simp [next]⟩)
  | cmdThread => exact takeCmd_pending hp
  | operation stayed sparse =>
    by_cases hb : s.busy = true
    · rw [next, if_pos hb] at hd' ⊢
      exact operation_pending h hi hb hd hd'
    · rwa [next, if_neg hb]
  | surveyTimer mem =>
    simp only [next, surveyTimerHdl]
    split
    · rw [if_pos ⟨hd, hmem⟩]
      exact .inr (.inr ⟨.zero, by simp⟩)
    · exact hp
  | findPhaseTimer mem =>
    simp only [next, findPhaseTimerProcess, h.timer]
    exact hp
  | scanAbort abort => exact hp
  | iface i f => exact hp
  | backopPolicy sta ap max => exact hp

end SiteSurvey
end Rtw.Scan
