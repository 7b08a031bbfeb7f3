import Rtw.Mlme.JoinShake

/-!
# The driver and its MLME on whether there is a connection

`fw_state` follows `mlmext_info` through reports and queued events, so the two differ for a while. They do not stay
apart (`LevelInv`): where `_FW_LINKED` is set without an association to that network, `assoc_timer` is running, or
a command that settles it is queued. `Settled` is what the functions that try to join leave behind.
-/

namespace Rtw.Join
open Machine

variable {s : Clnt} {e : Event} {c : Cmd} {bss : Bss}

/-- No disconnect command waits that would end a connection made, or being made, after it was queued. -/
def QueueInv (cmds : List Cmd) : Prop :=
  ∀ pre post, cmds = pre ++ Cmd.disConnect :: post → ∃ bss, Cmd.joinBss bss ∈ post

/-- What will settle a difference. -/
def Pending (s : Clnt) : Prop :=
  s.assocTimer = true ∨ (∃ bss, Cmd.joinBss bss ∈ s.cmds) ∨ ∃ macaddr reason, Cmd.delSta macaddr reason ∈ s.cmds

structure LevelInv (s : Clnt) : Prop where
  timer : s.underLinking = true → s.assocTimer = true
  roam : s.linked = true → s.toRoam = 0
  level : s.linked = true →
    Pending s ∨ s.info.state.assocSuccess = true ∧ s.curNetwork = s.info.network.macAddress
  queue : s.linked = true ∨ s.underLinking = true → QueueInv s.cmds

/-- Neither connected nor connecting; or connecting by a join command that has just been queued. -/
inductive Settled (s : Clnt) : Prop
  | off (hl : s.linked = false) (hu : s.underLinking = false)
  | connecting (hl : s.linked = false) (ht : s.assocTimer = true) (cs : List Cmd) (bss : Bss)
      (hc : s.cmds = cs ++ [.joinBss bss])

theorem QueueInv.append_joinBss (cs : List Cmd) (bss : Bss) : QueueInv (cs ++ [.joinBss bss]) := by
  intro pre post h
  rcases List.eq_nil_or_concat post with rfl | ⟨post, c, rfl⟩
  · have := congrArg List.getLast? h
    simp at this
  · have h' : cs ++ [.joinBss bss] = (pre ++ .disConnect :: post) ++ [c] := by simpa using h
    obtain ⟨-, hc⟩ := List.append_inj' h' rfl
    exact ⟨bss, by simp [List.singleton_inj.1 hc]⟩

theorem QueueInv.tail {cs : List Cmd} (h : QueueInv (c :: cs)) : QueueInv cs := by
  rintro pre post rfl
  exact h (c :: pre) post rfl

theorem QueueInv.append {cs : List Cmd} (h : QueueInv cs) (hc : c ≠ .disConnect) : QueueInv (cs ++ [c]) := by
  intro pre post he
  rcases List.eq_nil_or_concat post with rfl | ⟨post, c', rfl⟩
  · have := congrArg List.getLast? he
    simp at this
    exact absurd this hc
  · have he' : cs ++ [c] = (pre ++ .disConnect :: post) ++ [c'] := by simpa using he
    obtain ⟨h1, -⟩ := List.append_inj' he' rfl
    obtain ⟨bss, hb⟩ := h pre post h1
    exact ⟨bss, by simp [hb]⟩

theorem Settled.inv (h : Settled s) : LevelInv s := by
  cases h with
  | off hl hu => exact ⟨by simp [hu], by simp [hl], by simp [hl], by simp [hl, hu]⟩
  | connecting hl ht cs bss hc =>
    refine ⟨fun _ => ht, by simp [hl], by simp [hl], fun _ => ?_⟩
    rw [hc]
    exact QueueInv.append_joinBss cs bss

/-- While `assoc_timer` is running, nothing more is asked of the association. -/
theorem LevelInv.of_assocTimer (ht : s.assocTimer = true) (hr : s.linked = true → s.toRoam = 0)
    (hq : s.linked = true ∨ s.underLinking = true → QueueInv s.cmds) : LevelInv s :=
  ⟨fun _ => ht, hr, fun _ => .inl (.inl ht), hq⟩

/-! ### The functions that try to join -/

namespace Clnt

theorem surveyFirst_settled (h : s.linked = false) (env : DoJoinEnv) : Settled (s.surveyFirst env).1 := .off h rfl

theorem rtwSelectAndJoinFromScannedQueue_cases (s : Clnt) (env : DoJoinEnv) :
    (s.rtwSelectAndJoinFromScannedQueue env).2 = false ∧
        ((s.rtwSelectAndJoinFromScannedQueue env).1 = s ∨ (s.rtwSelectAndJoinFromScannedQueue env).1.linked = false) ∨
      (s.rtwSelectAndJoinFromScannedQueue env).1.linked = false ∧
        ∃ cs bss, (s.rtwSelectAndJoinFromScannedQueue env).1.cmds = cs ++ [.joinBss bss] := by
  unfold rtwSelectAndJoinFromScannedQueue
  split
  · exact .inl ⟨rfl, .inl rfl⟩
  · rename_i bss _
    have hl : (if s.linked then (s.enqueue .disConnect env.disassocOk).rtwIndicateDisconnect else s).linked =
        false := by
      split
      · rfl
      · simp_all
    dsimp only
    cases env.joinOk with
    | false => exact .inl ⟨rfl, .inr hl⟩
    | true => exact .inr ⟨hl, _, bss, rfl⟩

/-- Without a connection, every try leaves the driver settled. -/
theorem rtwDoJoin_settled (h : s.linked = false) (env : DoJoinEnv) : Settled (s.rtwDoJoin env).1 := by
  have hl := rtwSelectAndJoinFromScannedQueue_linked env (s := { s with underLinking := true, toJoin := true }) h
  unfold rtwDoJoin
  dsimp only
  split
  · exact surveyFirst_settled h env
  rcases rtwSelectAndJoinFromScannedQueue_cases { s with underLinking := true, toJoin := true } env with
    ⟨hf, -⟩ | ⟨-, cs, bss, hc⟩
  · rw [hf, if_neg (by simp)]
    exact surveyFirst_settled hl env
  · split
    · exact .connecting hl rfl cs bss hc
    · exact surveyFirst_settled hl env

theorem roamTries_settled (env : Nat → DoJoinEnv) (h : s.linked = false) (k : Nat) :
    Settled (roamTries env (k + 1) s) := by
  induction k generalizing s with
  | zero => exact .off rfl rfl
  | succ k ih =>
    have hj := rtwDoJoin_settled (s := { s with toRoam := k + 1 }) h (env (k + 1))
    simp only [roamTries]
    split
    · exact hj
    · exact ih (rtwDoJoin_linked _ h)

theorem rtwRoaming_settled (env : Nat → DoJoinEnv) (h : Settled s) (hl : s.linked = false) :
    Settled (s.rtwRoaming env) := by
  unfold rtwRoaming
  split
  · rename_i hr
    dsimp only
    split
    · exact rtwDoJoin_settled hl _
    · obtain ⟨k, hk⟩ := Nat.exists_eq_add_of_lt hr
      rw [show s.toRoam = k + 1 by omega]
      exact roamTries_settled env (rtwDoJoin_linked _ hl) k
  · exact h

theorem rtwStadelEventCallback_settled (s : Clnt) (reason : Nat) (ib : Bool) (env : Nat → DoJoinEnv) :
    Settled (s.rtwStadelEventCallback reason ib env) :=
  rtwRoaming_settled env (.off rfl rfl) rfl

theorem rtwJoinTimeoutHandler_settled (env : Nat → DoJoinEnv) (h : s.linked = true → s.toRoam = 0) :
    Settled (s.rtwJoinTimeoutHandler env) := by
  unfold rtwJoinTimeoutHandler
  split
  · rename_i hr
    have hl : s.linked = false := by
      by_contra hc
      have := h (by simpa using hc)
      omega
    obtain ⟨k, hk⟩ := Nat.exists_eq_add_of_lt hr
    rw [show s.toRoam = k + 1 by omega]
    exact roamTries_settled env hl k
  · exact .off rfl rfl

end Clnt

/-! ### The handlers of the MLME -/

/-- What the handlers leave of an association, where they report nothing; and what a success means. -/
structure Keeps (m : MlmeInfo) (r : MlmeInfo × Option Report) : Prop where
  network : r.1.network = m.network
  silent : r.2 = none → m.state.assocSuccess = true → r.1.state.assocSuccess = true
  success : ∀ res, r.2 = some (.joinRes res) → 0 < res → m.state.assocSuccess = false ∧ r.1.state.assocSuccess = true

theorem LevelInv.enqueue (h : LevelInv s) (hc : c ≠ .disConnect) : LevelInv (s.enqueue c true) := by
  refine ⟨h.timer, h.roam, fun hl => ?_, fun hlu => (h.queue hlu).append hc⟩
  rcases h.level hl with (ht | ⟨bss, hb⟩ | ⟨macaddr, reason, hd⟩) | ha
  · exact .inl (.inl ht)
  · exact .inl (.inr (.inl ⟨bss, List.mem_append_left _ hb⟩))
  · exact .inl (.inr (.inr ⟨macaddr, reason, List.mem_append_left _ hd⟩))
  · exact .inr ha

theorem LevelInv.prehandle {m : MlmeInfo} {res : Int} {env : ReportEnv} (h : LevelInv s)
    (hs : 0 < res → s.info.state.assocSuccess = false ∧ m.state.assocSuccess = true) :
    LevelInv (({ s with info := m } : Clnt).rtwJoinbssEventPrehandle res env) := by
  have hsame : 0 < res → LevelInv { s with info := m } := by
    intro hres
    refine ⟨h.timer, h.roam, fun hl => ?_, h.queue⟩
    rcases h.level hl with hp | ⟨ha, -⟩
    · exact .inl hp
    · simp [hs hres] at ha
  unfold Clnt.rtwJoinbssEventPrehandle
  split
  · rename_i hres
    split
    · rename_i hu
      split
      · dsimp only
        split
        · exact ⟨by simp [Clnt.rtwIndicateConnect, Clnt.setToRoam], fun _ => rfl,
            fun _ => .inr ⟨(hs hres).2, rfl⟩, fun _ => h.queue (.inr hu)⟩
        · exact (Settled.off rfl rfl).inv
      · exact hsame hres
    · exact hsame hres
  · exact .of_assocTimer rfl h.roam fun hl => h.queue (.inl (hl.resolve_right (by simp)))

theorem LevelInv.handle {r : MlmeInfo × Option Report} (h : LevelInv s) (hr : Keeps s.info r) {env : ReportEnv}
    (hm : env.mem = true) : LevelInv (s.handle r env) := by
  obtain ⟨m, rep⟩ := r
  obtain ⟨hnet, hsil, hsuc⟩ := hr
  rcases rep with _ | ⟨res⟩ | ⟨macaddr, reason⟩ | _
  · refine ⟨h.timer, h.roam, fun hl => ?_, h.queue⟩
    rcases h.level hl with hp | ⟨ha, hcur⟩
    · exact .inl hp
    · exact .inr ⟨hsil rfl ha, by rw [← hnet] at hcur; exact hcur⟩
  · simp only [Clnt.handle, Clnt.report, Clnt.reportJoinRes, if_pos hm]
    exact (h.prehandle (hsuc res rfl)).enqueue (by simp)
  · simp only [Clnt.handle, Clnt.report, Clnt.reportDelStaEvent, hm]
    -- the event that is queued settles whatever the handler has made of the association
    refine ⟨h.timer, h.roam, fun _ => .inl (.inr (.inr ⟨macaddr, reason, ?_⟩)),
      fun hlu => (h.queue hlu).append (by simp)⟩
    exact List.mem_append_right _ (List.mem_singleton_self _)
  · exact .of_assocTimer rfl h.roam h.queue

namespace MlmeInfo

variable (m : MlmeInfo)

theorem Keeps.refl : Keeps m (m, none) := ⟨rfl, fun _ h => h, by simp⟩

theorem receiveDisconnect_keeps (macAddr : MacAddr) (reason : Nat) :
    Keeps m (m.receiveDisconnect macAddr reason) := by
  unfold receiveDisconnect
  repeat' split
  all_goals exact ⟨rfl, by simp, by simp⟩

theorem onBeacon_keeps (a3 : MacAddr) (known bcnOk : Bool) : Keeps m (m.onBeacon a3 known bcnOk) := by
  unfold onBeacon
  repeat' split
  · exact ⟨rfl, fun _ h => h, by simp⟩
  · exact m.receiveDisconnect_keeps _ _
  all_goals exact Keeps.refl m

theorem onAuthClient_keeps (toMe : Bool) (seq status : Nat) (chgTxt : Bool) :
    Keeps m (m.onAuthClient toMe seq status chgTxt, none) := by
  refine ⟨m.onAuthClient_network toMe seq status chgTxt, fun _ h => ?_, by simp⟩
  rcases m.onAuthClient_cases toMe seq status chgTxt with hs | ⟨-, -, -, -, hgo⟩
  · simpa [hs.state] using h
  · simpa [hgo, startClntAssoc] using h

theorem onAssocRsp_keeps (toMe : Bool) (status aid : Nat) : Keeps m (m.onAssocRsp toMe status aid) := by
  refine ⟨m.onAssocRsp_network toMe status aid, ?_, ?_⟩
  all_goals
    unfold onAssocRsp
    repeat' split
    all_goals simp_all

theorem onDeAuth_keeps (a2 a3 : MacAddr) (reason : Nat) : Keeps m (m.onDeAuth a2 a3 reason) := by
  unfold onDeAuth
  repeat' split
  · exact Keeps.refl m
  · exact Keeps.refl m
  · exact m.receiveDisconnect_keeps a2 reason

theorem onDisassoc_keeps (a2 a3 : MacAddr) (reason : Nat) : Keeps m (m.onDisassoc a2 a3 reason) := by
  unfold onDisassoc
  split
  · exact Keeps.refl m
  · exact m.receiveDisconnect_keeps a2 reason

theorem linkTimerHdl_keeps : Keeps m ({ m with linkTimer := false } : MlmeInfo).linkTimerHdl := by
  refine ⟨by simp, ?_, fun res hr hpos => absurd (linkTimerHdl_fails _ res hr) (by omega)⟩
  unfold linkTimerHdl
  repeat' split
  all_goals simp

/-- What a join command comes to: an error for its callback, a refusal, or an attempt with `assoc_timer` set. -/
theorem joinCmdHdl_snd (bss : Bss) (chOk : Bool) (hess : bss.ess = true) :
    (m.joinCmdHdl bss chOk).2 = (none, false) ∨ (m.joinCmdHdl bss chOk).2 = (some (.joinRes (-4)), true) ∨
      (m.joinCmdHdl bss chOk).2 = (some .assocTimer, true) := by
  have hj : ({ m.leaveAndCopy bss with linkTimer := false } : MlmeInfo).startClntJoin.2 = some .assocTimer := by
    rw [startClntJoin_of_ess hess]
  unfold joinCmdHdl
  dsimp only
  split
  · exact .inl rfl
  split
  · exact .inr (.inl rfl)
  split
  · exact .inr (.inl rfl)
  · exact .inr (.inr (by rw [hj]))

end MlmeInfo

/-! ### A step and a run -/

/-- There is memory for the commands that report to the driver. -/
def reportsMem : Event → Bool
  | .surveyDone _ _ mem => mem
  | .cmdThread env => env.report.mem
  | .beacon _ _ _ _ env | .assocRsp _ _ _ env | .deauth _ _ _ env | .disassoc _ _ _ env | .expired env
  | .linkTimer env => env.mem
  | _ => true

theorem LevelInv.doJoin (h : LevelInv s) (env : DoJoinEnv) : LevelInv (s.rtwDoJoin env).1 := by
  cases hl : s.linked with
  | false => exact (Clnt.rtwDoJoin_settled hl env).inv
  | true =>
    have hkeep : ∀ t, t = ({ s with underLinking := true, toJoin := true } : Clnt) →
        LevelInv (t.surveyFirst env).1 := by
      rintro t rfl
      exact ⟨by simp [Clnt.surveyFirst], h.roam, h.level,
        fun hlu => h.queue (hlu.imp_right (by simp [Clnt.surveyFirst]))⟩
    unfold Clnt.rtwDoJoin
    dsimp only
    split
    · exact hkeep _ rfl
    rcases Clnt.rtwSelectAndJoinFromScannedQueue_cases { s with underLinking := true, toJoin := true } env with
      ⟨hf, hsame | hoff⟩ | ⟨hoff, cs, bss, hc⟩
    · rw [hf, if_neg (by simp)]
      exact hkeep _ hsame
    · rw [hf, if_neg (by simp)]
      exact (Clnt.surveyFirst_settled hoff env).inv
    · split
      · refine Settled.inv (.connecting ?_ rfl cs bss ?_)
        · exact hoff
        · exact hc
      · exact (Clnt.surveyFirst_settled hoff env).inv

theorem surveyDone_level (h : LevelInv s) (env : DoJoinEnv) (roamTo : Bool) :
    LevelInv (s.rtwSurveydoneEventCallback env roamTo true) := by
  unfold Clnt.rtwSurveydoneEventCallback
  split
  · dsimp only
    rcases Clnt.rtwSelectAndJoinFromScannedQueue_cases { s with underLinking := true, toJoin := false } env with
      ⟨hf, hsame⟩ | ⟨hoff, cs, bss, hc⟩
    · rw [hf, if_neg (by simp)]
      refine (Settled.off ?_ rfl).inv
      split
      · split
        · rfl
        · rename_i hr _
          rcases hsame with hsame | hoff
          · rw [hsame] at hr ⊢
            cases hl : s.linked with
            | false => rfl
            | true => exact absurd (h.roam hl) hr
          · exact hoff
      · rfl
    · split
      · refine Settled.inv (.connecting ?_ rfl cs bss ?_)
        · exact hoff
        · exact hc
      · refine (Settled.off ?_ rfl).inv
        repeat' split
        all_goals first | rfl | exact hoff
  · split
    · exact h.handle (s.info.receiveDisconnect_keeps _ _) rfl
    · exact h

theorem cmdThread_level (h : LevelInv s) {env : Clnt.CmdEnv} (hess : JoinsEss s (.cmdThread env))
    (hm : env.report.mem = true) : LevelInv (s.cmdThread env) := by
  unfold Clnt.cmdThread
  split
  · exact h
  rename_i c cs hc
  have hq : s.linked = true ∨ s.underLinking = true → QueueInv cs := fun hlu => (hc ▸ h.queue hlu).tail
  cases c with
  | joinBss bss =>
    have hess' : bss.ess = true := hess bss (by simp [joinTaken, hc])
    simp only [Clnt.runCmd, Clnt.handle]
    rcases s.info.joinCmdHdl_snd bss env.chOk hess' with hr | hr | hr
    · rw [hr, if_neg (by simp)]
      exact .of_assocTimer rfl h.roam hq
    · rw [hr, if_pos rfl]
      simp only [Clnt.report, Clnt.reportJoinRes, if_pos hm]
      have hfail : LevelInv { s with
          cmds := cs, info := (s.info.joinCmdHdl bss env.chOk).1, assocTimer := true, underLinking := false } :=
        .of_assocTimer rfl h.roam fun hl => hq (.inl (hl.resolve_right (by simp)))
      exact hfail.enqueue (by simp)
    · rw [hr, if_pos rfl]
      exact .of_assocTimer rfl h.roam hq
  | disConnect =>
    refine ⟨h.timer, h.roam, fun hl => .inl (.inr (.inl ?_)), hq⟩
    exact h.queue (.inl hl) [] cs hc
  | joinBssEvent res =>
    refine ⟨h.timer, h.roam, fun hl => ?_, hq⟩
    rcases h.level hl with (ht | ⟨bss, hb⟩ | ⟨macaddr, reason, hd⟩) | ha
    · exact .inl (.inl ht)
    · exact .inl (.inr (.inl ⟨bss, show _ ∈ cs by simpa [hc] using hb⟩))
    · exact .inl (.inr (.inr ⟨macaddr, reason, show _ ∈ cs by simpa [hc] using hd⟩))
    · exact .inr ha
  | delSta macaddr reason => exact (Clnt.rtwStadelEventCallback_settled _ reason env.ibssEmpty env.join).inv

theorem LevelInv.next (s : Clnt) (e : Event) (h : LevelInv s) (hok : JoinsEss s e ∧ reportsMem e = true) :
    LevelInv (s.next e) := by
  obtain ⟨hess, hm⟩ := hok
  cases e with
  | doJoin env => exact h.doJoin env
  | disassociate ok =>
    simp only [Clnt.next, Clnt.rtwSet80211Disassociate]
    split
    · exact (Settled.off rfl rfl).inv
    · exact h
  | saQueryTimeout ok => exact (Settled.off rfl rfl).inv
  | disconnect mem => exact (Settled.off rfl rfl).inv
  | surveyDone env roamTo mem =>
    obtain rfl : mem = true := hm
    exact surveyDone_level h env roamTo
  | setAuth mode =>
    have hk : Keeps s.info (s.info.setauthHdl mode, none) := by
      refine ⟨s.info.setauthHdl_network mode, fun _ ha => ?_, by simp⟩
      simp only [MlmeInfo.setauthHdl]
      split <;> exact ha
    have hmem : (ReportEnv.mk true true true).mem = true := rfl
    exact h.handle hk hmem
  | cmdThread env => exact cmdThread_level h hess hm
  | beacon a3 scanning known bcnOk env =>
    cases scanning with
    | true => exact h
    | false => exact h.handle (s.info.onBeacon_keeps a3 known bcnOk) hm
  | auth toMe seq status chgTxt =>
    have hmem : (ReportEnv.mk true true true).mem = true := rfl
    exact h.handle (s.info.onAuthClient_keeps toMe seq status chgTxt) hmem
  | assocRsp toMe status aid env => exact h.handle (s.info.onAssocRsp_keeps toMe status aid) hm
  | deauth a2 a3 reason env => exact h.handle (s.info.onDeAuth_keeps a2 a3 reason) hm
  | disassoc a2 a3 reason env => exact h.handle (s.info.onDisassoc_keeps a2 a3 reason) hm
  | expired env =>
    simp only [Clnt.next]
    split
    · exact h.handle (s.info.receiveDisconnect_keeps _ _) hm
    · exact h
  | linkTimer env =>
    simp only [Clnt.next]
    split
    · exact h.handle s.info.linkTimerHdl_keeps hm
    · exact h
  | assocTimer env =>
    simp only [Clnt.next]
    split
    · exact (Clnt.rtwJoinTimeoutHandler_settled (s := { s with assocTimer := false }) env h.roam).inv
    · exact h

/-- Neither connected nor connecting. -/
structure Idle (s : Clnt) : Prop where
  state : s.info.state = .null
  underLinking : s.underLinking = false
  linked : s.linked = false

/-- The driver takes itself for connected only while it is associated to that network, or while what ends the
difference is still to come; and for connecting only while `assoc_timer` is running. -/
theorem levels_agree {evs : List Event} (h0 : Idle s)
    (hok : RunOk Clnt.next (fun s e => JoinsEss s e ∧ reportsMem e = true) s evs) :
    ((run Clnt.next s evs).underLinking = true → (run Clnt.next s evs).assocTimer = true) ∧
      ((run Clnt.next s evs).linked = true → (run Clnt.next s evs).toRoam = 0 ∧
        ((run Clnt.next s evs).info.attempt = .associated ∧
            (run Clnt.next s evs).curNetwork = (run Clnt.next s evs).info.network.macAddress ∨
          (run Clnt.next s evs).assocTimer = true ∨ (∃ bss, Cmd.joinBss bss ∈ (run Clnt.next s evs).cmds) ∨
          ∃ macaddr reason, Cmd.delSta macaddr reason ∈ (run Clnt.next s evs).cmds)) := by
  have hatt : AttemptInv (run Clnt.next s evs) :=
    run_invariant_of_ok (fun t e ht hok => ht.next t e hok.1) (.of_null h0.state) hok
  have hlev : LevelInv (run Clnt.next s evs) :=
    run_invariant_of_ok LevelInv.next (Settled.off h0.linked h0.underLinking).inv hok
  refine ⟨hlev.timer, fun hl => ⟨hlev.roam hl, ?_⟩⟩
  rcases hlev.level hl with hp | ⟨ha, hcur⟩
  · exact .inr hp
  · exact .inl ⟨Attempt.Of.associated hatt ha, hcur⟩

def homeDeauthed : List Event :=
  homeAccepts ++ [homeAssocRsp, .deauth homeBss.macAddress homeBss.macAddress 7 ⟨true, true, true⟩]

/-- The deauthentication that ended the association has still to reach the driver. -/
theorem levels_agree_deauthed : (run Clnt.next idleClnt homeDeauthed).linked = true ∧
    (run Clnt.next idleClnt homeDeauthed).info.attempt ≠ .associated ∧
      ((run Clnt.next idleClnt homeDeauthed).assocTimer = true ∨
        (∃ bss, Cmd.joinBss bss ∈ (run Clnt.next idleClnt homeDeauthed).cmds) ∨
        ∃ macaddr reason, Cmd.delSta macaddr reason ∈ (run Clnt.next idleClnt homeDeauthed).cmds) := by
  have hl : (run Clnt.next idleClnt homeDeauthed).linked = true := by decide +kernel
  have hn : (run Clnt.next idleClnt homeDeauthed).info.attempt ≠ .associated := by decide +kernel
  have hok : RunOk Clnt.next (fun s e => JoinsEss s e ∧ reportsMem e = true) idleClnt homeDeauthed := by
    decide +kernel
  have h := (levels_agree ⟨rfl, rfl, rfl⟩ hok).2 hl
  exact ⟨hl, hn, h.2.resolve_left fun ha => hn ha.1⟩

end Rtw.Join
