import Rtw.Mlme.JoinTries

/-!
# How a network comes to be connected

`_FW_LINKED` is set in one way only: a join command was started, the network's beacon was heard, it accepted the
authentication and then the association (`Handshake`), each after the one before, with no other attempt started
in between.
-/

namespace Rtw.Join
open Machine

variable {a a' : Attempt} {m : MlmeInfo} {s : Clnt} {e : Event} {r : Nat} {bss : Bss}

/-! ### The network -/

namespace MlmeInfo

@[simp] theorem receiveDisconnect_network (m : MlmeInfo) (macAddr : MacAddr) (reason : Nat) :
    (m.receiveDisconnect macAddr reason).1.network = m.network := by
  rcases m.receiveDisconnect_fst macAddr reason with h | h <;> rw [h]

@[simp] theorem onBeacon_network (m : MlmeInfo) (a3 : MacAddr) (known bcnOk : Bool) :
    (m.onBeacon a3 known bcnOk).1.network = m.network := by
  unfold onBeacon
  repeat' split
  all_goals simp [startClntAuth]

@[simp] theorem onAuthClient_network (m : MlmeInfo) (toMe : Bool) (seq status : Nat) (chgTxt : Bool) :
    (m.onAuthClient toMe seq status chgTxt).network = m.network := by
  unfold onAuthClient
  repeat' split
  all_goals rfl

@[simp] theorem onAssocRsp_network (m : MlmeInfo) (toMe : Bool) (status aid : Nat) :
    (m.onAssocRsp toMe status aid).1.network = m.network := by
  unfold onAssocRsp
  repeat' split
  all_goals rfl

@[simp] theorem onDeAuth_network (m : MlmeInfo) (a2 a3 : MacAddr) (reason : Nat) :
    (m.onDeAuth a2 a3 reason).1.network = m.network := by
  unfold onDeAuth
  repeat' split
  all_goals simp

@[simp] theorem onDisassoc_network (m : MlmeInfo) (a2 a3 : MacAddr) (reason : Nat) :
    (m.onDisassoc a2 a3 reason).1.network = m.network := by
  unfold onDisassoc
  split <;> simp

@[simp] theorem linkTimerHdl_network (m : MlmeInfo) : m.linkTimerHdl.1.network = m.network := by
  unfold linkTimerHdl
  repeat' split
  all_goals rfl

@[simp] theorem disconnectHdl_network (m : MlmeInfo) : m.disconnectHdl.network = m.network := by
  unfold disconnectHdl
  split <;> rfl

@[simp] theorem mlmeextStaDelEventCallback_network (m : MlmeInfo) (ib : Bool) :
    (m.mlmeextStaDelEventCallback ib).network = m.network := by
  unfold mlmeextStaDelEventCallback
  split <;> rfl

@[simp] theorem setauthHdl_network (m : MlmeInfo) (mode : AuthAlgo) : (m.setauthHdl mode).network = m.network := by
  unfold setauthHdl
  split <;> rfl

end MlmeInfo

/-- Only a join command changes the network. -/
theorem next_network (h : joinTaken s e = none) : (s.next e).info.network = s.info.network := by
  cases e with
  | cmdThread env =>
    cases hc : s.cmds with
    | nil => simp [Clnt.next, Clnt.cmdThread, hc]
    | cons c cs =>
      have he : (s.next (.cmdThread env)).info = (({ s with cmds := cs } : Clnt).runCmd env c).info := by
        simp [Clnt.next, Clnt.cmdThread, hc]
      rw [he, Clnt.runCmd_info]
      cases c with
      | joinBss bss => simp [joinTaken, hc] at h
      | _ => simp
  | disconnect mem =>
    have he := Clnt.cfg80211RtwDisconnect_info s mem
    cases mem <;> simp [Clnt.next, he]
  | surveyDone env roamTo mem =>
    rcases Clnt.rtwSurveydoneEventCallback_info s env roamTo mem with he | he <;> simp [Clnt.next, he]
  | beacon a3 scanning known bcnOk env => cases scanning <;> simp [Clnt.next]
  | expired env =>
    simp only [Clnt.next]
    split <;> simp
  | linkTimer env =>
    simp only [Clnt.next]
    split <;> simp
  | assocTimer env =>
    simp only [Clnt.next]
    split <;> simp
  | _ => simp [Clnt.next]

theorem run_network {evs : List Event} (h : RunOk Clnt.next (fun s e => joinTaken s e = none) s evs) :
    (run Clnt.next s evs).info.network = s.info.network :=
  run_invariant_of_ok (I := fun t => t.info.network = s.info.network) (fun _ _ ht hn => (next_network hn).trans ht)
    rfl h

theorem Starts.info (h : Starts s e bss) : (s.next e).info =
    ({ s.info.leaveAndCopy bss with linkTimer := false } : MlmeInfo).startClntJoin.1 := by
  obtain ⟨cs, env, hc, rfl, hess, hmin, hmax, hch⟩ := h
  have he : (s.next (.cmdThread env)).info = (s.info.joinCmdHdl bss env.chOk).1 := by
    simp [Clnt.next, Clnt.cmdThread, hc, Clnt.runCmd_info]
  rw [he, MlmeInfo.joinCmdHdl]
  simp [Nat.not_lt.2 hmax, Nat.not_lt.2 hmin, hch]

theorem Starts.attempt (h : Starts s e bss) : (s.next e).info.attempt = .waiting := by
  rw [h.info, MlmeInfo.startClntJoin_of_ess]
  · rfl
  · obtain ⟨cs, env, hc, rfl, hess, -⟩ := h
    exact hess

theorem Starts.network (h : Starts s e bss) : (s.next e).info.network = bss := by
  rw [h.info, MlmeInfo.startClntJoin_of_ess]
  · rfl
  · obtain ⟨cs, env, hc, rfl, hess, -⟩ := h
    exact hess

/-! ### What sets `_FW_LINKED` -/

namespace Clnt

section Linked

variable (c : Cmd) (ok : Bool) (res : Int) (env : ReportEnv) (je : DoJoinEnv) (jes : Nat → DoJoinEnv)

@[simp] theorem rtwIndicateDisconnect_linked (s : Clnt) : s.rtwIndicateDisconnect.linked = false := rfl

@[simp] theorem enqueue_linked (s : Clnt) : (s.enqueue c ok).linked = s.linked := by
  cases ok <;> rfl

@[simp] theorem surveyFirst_linked (s : Clnt) : (s.surveyFirst je).1.linked = s.linked := rfl

theorem rtwSelectAndJoinFromScannedQueue_linked (h : s.linked = false) :
    (s.rtwSelectAndJoinFromScannedQueue je).1.linked = false := by
  unfold rtwSelectAndJoinFromScannedQueue
  split
  · exact h
  · simp [h]

theorem rtwDoJoin_linked (h : s.linked = false) : (s.rtwDoJoin je).1.linked = false := by
  have hsel : (({ s with
      underLinking := true, toJoin := true } : Clnt).rtwSelectAndJoinFromScannedQueue je).1.linked = false := rtwSelectAndJoinFromScannedQueue_linked je h
  unfold rtwDoJoin
  dsimp only
  repeat' split
  · exact h
  all_goals exact hsel

theorem roamTries_linked (h : s.linked = false) (k : Nat) : (roamTries jes k s).linked = false := by
  induction k generalizing s with
  | zero => exact h
  | succ k ih =>
    cases k with
    | zero => rfl
    | succ k =>
      have hj : (({ s with toRoam := k + 1 } : Clnt).rtwDoJoin (jes (k + 1))).1.linked = false :=
        rtwDoJoin_linked (jes (k + 1)) h
      simp only [roamTries]
      split
      · exact hj
      · exact ih hj

theorem rtwRoaming_linked (h : s.linked = false) : (s.rtwRoaming jes).linked = false := by
  unfold rtwRoaming
  dsimp only
  repeat' split
  · exact rtwDoJoin_linked _ h
  · exact roamTries_linked jes (rtwDoJoin_linked _ h) s.toRoam
  · exact h

theorem rtwStadelEventCallback_linked (s : Clnt) (reason : Nat) (ib : Bool) :
    (s.rtwStadelEventCallback reason ib jes).linked = false :=
  rtwRoaming_linked jes rfl

theorem rtwJoinTimeoutHandler_linked (h : s.linked = false) : (s.rtwJoinTimeoutHandler jes).linked = false := by
  unfold rtwJoinTimeoutHandler
  split
  · exact roamTries_linked jes h s.toRoam
  · rfl

theorem rtwJoinbssEventPrehandle_linked (h : s.linked = false)
    (h' : (s.rtwJoinbssEventPrehandle res env).linked = true) :
    0 < res ∧ s.underLinking = true ∧
      (s.rtwJoinbssEventPrehandle res env).curNetwork = s.info.network.macAddress := by
  unfold rtwJoinbssEventPrehandle at h' ⊢
  split at h'
  · rename_i hres
    split at h'
    · rename_i hu
      refine ⟨hres, hu, ?_⟩
      rw [if_pos hres, if_pos hu]
      split at h'
      · rename_i hf
        rw [if_pos hf]
        split <;> rfl
      · simp [h] at h'
    · simp [h] at h'
  · simp [h] at h'

/-- Only a join that has succeeded is reported so. -/
theorem report_linked {rep : Option Report} (h : s.linked = false) (h' : (s.report rep env).linked = true) :
    ∃ res, rep = some (.joinRes res) ∧ 0 < res ∧ s.underLinking = true ∧
      (s.report rep env).curNetwork = s.info.network.macAddress := by
  rcases rep with _ | ⟨res⟩ | ⟨macaddr, reason⟩ | _
  · simp [report, h] at h'
  · simp only [report, reportJoinRes] at h' ⊢
    split at h'
    · rename_i hm
      rw [if_pos hm]
      obtain ⟨h1, h2, h3⟩ := rtwJoinbssEventPrehandle_linked res env h (by simpa using h')
      exact ⟨res, rfl, h1, h2, h3⟩
    · simp [h] at h'
  · simp [report, reportDelStaEvent, h] at h'
  · simp [report, h] at h'

end Linked

end Clnt

/-- The report, if it is one on a join, is a failure. -/
def Fails (rep : Option Report) : Prop := ∀ res, rep = some (.joinRes res) → res ≤ 0

theorem handle_linked {r : MlmeInfo × Option Report} {env : ReportEnv} (h : s.linked = false) (hr : Fails r.2) :
    (s.handle r env).linked = false := by
  by_contra hc
  obtain ⟨res, hres, hpos, -⟩ := Clnt.report_linked env (s := { s with info := r.1 }) h
    (by simpa [Clnt.handle] using hc)
  have := hr res hres
  omega

namespace MlmeInfo

theorem receiveDisconnect_fails (m : MlmeInfo) (macAddr : MacAddr) (reason : Nat) :
    Fails (m.receiveDisconnect macAddr reason).2 := by
  unfold receiveDisconnect
  repeat' split
  all_goals simp [Fails]

theorem onBeacon_fails (m : MlmeInfo) (a3 : MacAddr) (known bcnOk : Bool) : Fails (m.onBeacon a3 known bcnOk).2 := by
  unfold onBeacon
  repeat' split
  all_goals first | exact m.receiveDisconnect_fails _ _ | simp [Fails]

theorem onDeAuth_fails (m : MlmeInfo) (a2 a3 : MacAddr) (reason : Nat) : Fails (m.onDeAuth a2 a3 reason).2 := by
  unfold onDeAuth
  repeat' split
  all_goals first | exact m.receiveDisconnect_fails _ _ | simp [Fails]

theorem onDisassoc_fails (m : MlmeInfo) (a2 a3 : MacAddr) (reason : Nat) : Fails (m.onDisassoc a2 a3 reason).2 := by
  unfold onDisassoc
  split
  · simp [Fails]
  · exact m.receiveDisconnect_fails a2 reason

theorem linkTimerHdl_fails (m : MlmeInfo) : Fails m.linkTimerHdl.2 := by
  unfold linkTimerHdl
  repeat' split
  all_goals simp [Fails]

theorem joinCmdHdl_fails (m : MlmeInfo) (bss : Bss) (chOk : Bool) : Fails (m.joinCmdHdl bss chOk).2.1 := by
  unfold joinCmdHdl startClntJoin
  dsimp only
  repeat' split
  all_goals simp [Fails]

/-- A join succeeds by an association response with an AID. -/
theorem onAssocRsp_joinRes {toMe : Bool} {status aid : Nat} {res : Int} (hm : a.Of m)
    (h : (m.onAssocRsp toMe status aid).2 = some (.joinRes res)) (hres : 0 < res) :
    toMe = true ∧ status = 0 ∧ 0 < aid &&& 0x3fff ∧ ∃ k, a = .associng k := by
  unfold onAssocRsp at h
  split at h
  · simp at h
  rename_i hme
  split at h
  · simp at h
  rename_i hst
  split at h
  · simp at h
  rename_i hsucc
  split at h
  · simp at h
    omega
  · rename_i h0
    simp at h
    refine ⟨by simpa using hme, by omega, by omega, ?_⟩
    cases a <;> simp [hm.1, Attempt.state, MlmeState.null] at hst hsucc ⊢

end MlmeInfo

/-- What sets `_FW_LINKED`: the association response to an attempt, with an AID, while the driver is connecting. -/
structure Links (s : Clnt) (e : Event) : Prop where
  rsp : ∃ aid, Associated e aid ∧ 0 < aid &&& 0x3fff
  associng : ∃ k, s.info.attempt = .associng k
  underLinking : s.underLinking = true
  curNetwork : (s.next e).curNetwork = s.info.network.macAddress

theorem next_linked (hs : AttemptInv s) (h : s.linked = false) (h' : (s.next e).linked = true) : Links s e := by
  cases e with
  | assocRsp toMe status aid env =>
    obtain ⟨res, hr, hres, hu, hcur⟩ := Clnt.report_linked env
      (s := { s with info := (s.info.onAssocRsp toMe status aid).1 }) h h'
    obtain ⟨rfl, rfl, haid, hk⟩ := MlmeInfo.onAssocRsp_joinRes hs hr hres
    exact ⟨⟨aid, ⟨env, rfl⟩, haid⟩, hk.imp fun k hk => hk, hu,
      hcur.trans (congrArg Bss.macAddress (s.info.onAssocRsp_network true 0 aid))⟩
  | doJoin env => simp [Clnt.next, Clnt.rtwDoJoin_linked env h] at h'
  | disassociate ok => simp [Clnt.next, Clnt.rtwSet80211Disassociate, h] at h'
  | saQueryTimeout ok => simp [Clnt.next, Clnt.clntSaQueryTimeout] at h'
  | disconnect mem => simp [Clnt.next, Clnt.cfg80211RtwDisconnect] at h'
  | surveyDone env roamTo mem =>
    have hsel : ∀ t : Clnt, t.linked = false → (t.rtwSelectAndJoinFromScannedQueue env).1.linked = false :=
      fun t ht => Clnt.rtwSelectAndJoinFromScannedQueue_linked env ht
    simp only [Clnt.next, Clnt.rtwSurveydoneEventCallback] at h'
    split at h'
    · have := hsel { s with underLinking := true, toJoin := false } h
      repeat' split at h'
      all_goals simp_all
    · rw [if_neg (by simp [h])] at h'
      simp [h] at h'
  | setAuth mode => simp [Clnt.next, h] at h'
  | auth toMe seq status chgTxt => simp [Clnt.next, h] at h'
  | cmdThread env =>
    cases hc : s.cmds with
    | nil => simp [Clnt.next, Clnt.cmdThread, hc, h] at h'
    | cons c cs =>
      simp only [Clnt.next, Clnt.cmdThread, hc] at h'
      cases c with
      | joinBss bss =>
        have hj : ∀ rep, (({ s with cmds := cs } : Clnt).handle ((s.info.joinCmdHdl bss env.chOk).1,
            (s.info.joinCmdHdl bss env.chOk).2.1) rep).linked = false := fun rep =>
          handle_linked (s := { s with cmds := cs }) h
          (r := ((s.info.joinCmdHdl bss env.chOk).1, (s.info.joinCmdHdl bss env.chOk).2.1))
          (s.info.joinCmdHdl_fails bss env.chOk)
        simp only [Clnt.runCmd] at h'
        split at h' <;> simp [hj] at h'
      | disConnect => simp [Clnt.runCmd, h] at h'
      | joinBssEvent res => simp [Clnt.runCmd, h] at h'
      | delSta macaddr reason => simp [Clnt.runCmd, Clnt.rtwStadelEventCallback_linked] at h'
  | beacon a3 scanning known bcnOk env =>
    cases scanning with
    | true => simp [Clnt.next, h] at h'
    | false => simp [Clnt.next, handle_linked h (s.info.onBeacon_fails a3 known bcnOk)] at h'
  | deauth a2 a3 reason env => simp [Clnt.next, handle_linked h (s.info.onDeAuth_fails a2 a3 reason)] at h'
  | disassoc a2 a3 reason env => simp [Clnt.next, handle_linked h (s.info.onDisassoc_fails a2 a3 reason)] at h'
  | expired env =>
    simp only [Clnt.next] at h'
    split at h'
    · simp [handle_linked h (s.info.receiveDisconnect_fails _ _)] at h'
    · simp [h] at h'
  | linkTimer env =>
    simp only [Clnt.next] at h'
    split at h'
    · simp [handle_linked h (MlmeInfo.linkTimerHdl_fails _)] at h'
    · simp [h] at h'
  | assocTimer env =>
    simp only [Clnt.next] at h'
    split at h'
    · simp [Clnt.rtwJoinTimeoutHandler_linked env (s := { s with assocTimer := false }) h] at h'
    · simp [h] at h'

/-! ### The handshake -/

theorem starts_of_waiting (hs : AttemptInv s) (hess : JoinsEss s e) (h : (s.next e).info.attempt = .waiting) :
    (∃ bss, Starts s e bss) ∨ s.info.attempt = .waiting := by
  obtain ⟨r, hm, -⟩ := hs.moves hess
  rw [h] at hm
  generalize s.info.attempt = a at hm
  cases hm with
  | stay => exact .inr rfl
  | start _ hst => exact .inl ⟨_, hst⟩

theorem hears_of_authing (hs : AttemptInv s) (hess : JoinsEss s e) {k : Nat}
    (h : (s.next e).info.attempt = .authing k) :
    Hears s e ∧ s.info.attempt = .waiting ∨ ∃ k, s.info.attempt = .authing k := by
  obtain ⟨r, hm, -⟩ := hs.moves hess
  rw [h] at hm
  generalize s.info.attempt = a at hm
  cases hm with
  | stay => exact .inr ⟨k, rfl⟩
  | beacon hb => exact .inl ⟨hb, rfl⟩
  | reauth k => exact .inr ⟨k, rfl⟩

theorem authenticated_of_associng (hs : AttemptInv s) (hess : JoinsEss s e) {k : Nat}
    (h : (s.next e).info.attempt = .associng k) :
    Authenticated s e ∧ (∃ k, s.info.attempt = .authing k) ∨ ∃ k, s.info.attempt = .associng k := by
  obtain ⟨r, hm, -⟩ := hs.moves hess
  rw [h] at hm
  generalize s.info.attempt = a at hm
  cases hm with
  | stay => exact .inr ⟨k, rfl⟩
  | authed k ha => exact .inl ⟨ha, k, rfl⟩
  | reassoc k => exact .inr ⟨k, rfl⟩

/-- In the run `pre`, `e₁`, `mid₁`, `e₂`, `mid₂`, `e₃`, `mid₃`, the attempt that `e₁` starts on `bss` is heard of in
`e₂` and authenticated in `e₃`; no other attempt is started after `e₁`. -/
structure Handshake (s : Clnt) (bss : Bss) (pre mid₁ mid₂ mid₃ : List Event) (e₁ e₂ e₃ : Event) : Prop where
  starts : Starts (run Clnt.next s pre) e₁ bss
  hears : Hears (run Clnt.next s (pre ++ e₁ :: mid₁)) e₂
  authenticated : Authenticated (run Clnt.next s (pre ++ e₁ :: mid₁ ++ e₂ :: mid₂)) e₃
  noStart : RunOk Clnt.next NoStart (run Clnt.next s (pre ++ [e₁])) (mid₁ ++ e₂ :: (mid₂ ++ e₃ :: mid₃))

theorem noStart_of_attempt (h : (s.next e).info.attempt ≠ .waiting) : NoStart s e :=
  fun _ hst => h hst.attempt

theorem Hears.noStart (h : Hears s e) : NoStart s e := by
  obtain ⟨known, bcnOk, env, rfl⟩ := h
  rintro bss ⟨cs, env', -, he, -⟩
  simp at he

theorem Authenticated.noStart (h : Authenticated s e) : NoStart s e := by
  obtain ⟨chgTxt, rfl⟩ := h
  rintro bss ⟨cs, env', -, he, -⟩
  simp at he

theorem handshake {evs : List Event} (h0 : s.info.state = .null) (hok : RunOk Clnt.next JoinsEss s evs) {k : Nat}
    (hk : (run Clnt.next s evs).info.attempt = .associng k) :
    ∃ bss pre mid₁ mid₂ mid₃ e₁ e₂ e₃, evs = pre ++ e₁ :: (mid₁ ++ e₂ :: (mid₂ ++ e₃ :: mid₃)) ∧
      Handshake s bss pre mid₁ mid₂ mid₃ e₁ e₂ e₃ := by
  have hidle : s.info.attempt = .idle := (Attempt.of_idle h0).attempt_eq
  -- from the end of the run back: the authentication, the beacon, the start
  obtain ⟨pre₃, e₃, mid₃, rfl, ⟨ha, k₂, hk₂⟩, hmid₃⟩ := exists_last
    (P := fun t => ∃ k, t.info.attempt = .associng k)
    (A := fun t e => Authenticated t e ∧ ∃ k, t.info.attempt = .authing k) AttemptInv.next
    (fun t e ht hess ⟨k, hk⟩ => authenticated_of_associng ht hess hk) (.of_null h0) hok (by simp [hidle]) ⟨k, hk⟩
  obtain ⟨hok₃, -⟩ := (runOk_append _ _ _).1 hok
  obtain ⟨pre₂, e₂, mid₂, rfl, ⟨hb, hw⟩, hmid₂⟩ := exists_last
    (P := fun t => ∃ k, t.info.attempt = .authing k)
    (A := fun t e => Hears t e ∧ t.info.attempt = .waiting) AttemptInv.next
    (fun t e ht hess ⟨k, hk⟩ => hears_of_authing ht hess hk) (.of_null h0) hok₃ (by simp [hidle]) ⟨k₂, hk₂⟩
  obtain ⟨hok₂, -⟩ := (runOk_append _ _ _).1 hok₃
  obtain ⟨pre, e₁, mid₁, rfl, ⟨bss, hs⟩, hmid₁⟩ := exists_last
    (P := fun t => t.info.attempt = .waiting)
    (A := fun t e => ∃ bss, Starts t e bss) AttemptInv.next
    (fun t e ht hess hk => starts_of_waiting ht hess hk) (.of_null h0) hok₂ (by simp [hidle]) hw
  refine ⟨bss, pre, mid₁, mid₂, mid₃, e₁, e₂, e₃, by simp, hs, hb, ha, ?_⟩
  have h₁ : RunOk Clnt.next NoStart (run Clnt.next s (pre ++ [e₁])) mid₁ := by
    rw [run_append]
    exact hmid₁.imp fun t e h bss hst => h.2.2 ⟨bss, hst⟩
  have h₂ : RunOk Clnt.next NoStart ((run Clnt.next s (pre ++ e₁ :: mid₁)).next e₂) mid₂ :=
    hmid₂.imp fun t e ⟨_, ⟨k, hk⟩, _⟩ => noStart_of_attempt (by simp [hk])
  have h₃ : RunOk Clnt.next NoStart ((run Clnt.next s (pre ++ e₁ :: mid₁ ++ e₂ :: mid₂)).next e₃) mid₃ :=
    hmid₃.imp fun t e ⟨_, ⟨k, hk⟩, _⟩ => noStart_of_attempt (by simp [hk])
  have hb' := hb.noStart
  have ha' := ha.noStart
  simp only [run_append, run_cons, run_nil, List.append_assoc, List.cons_append] at h₁ h₂ h₃ hb' ha' ⊢
  exact (runOk_append _ _ _).2 ⟨h₁, hb', (runOk_append _ _ _).2 ⟨h₂, ha', h₃⟩⟩

/-- Where the driver turns connected, the network it has connected to was joined by a whole handshake; and where no
other join command was taken since its start, that is the network of the command. -/
theorem linked_handshake {evs : List Event} (h0 : s.info.state = .null)
    (hok : RunOk Clnt.next JoinsEss s (evs ++ [e])) (h : (run Clnt.next s evs).linked = false) (h' : (run Clnt.next s (evs ++ [e])).linked = true) :
    (run Clnt.next s evs).underLinking = true ∧ (∃ aid, Associated e aid ∧ 0 < aid &&& 0x3fff) ∧
      ∃ bss pre mid₁ mid₂ mid₃ e₁ e₂ e₃, evs = pre ++ e₁ :: (mid₁ ++ e₂ :: (mid₂ ++ e₃ :: mid₃)) ∧
        Handshake s bss pre mid₁ mid₂ mid₃ e₁ e₂ e₃ ∧
        (RunOk Clnt.next (fun s e => joinTaken s e = none) (run Clnt.next s (pre ++ [e₁]))
            (mid₁ ++ e₂ :: (mid₂ ++ e₃ :: mid₃)) →
          (∃ known bcnOk env, e₂ = .beacon bss.macAddress false known bcnOk env) ∧
          (run Clnt.next s (evs ++ [e])).curNetwork = bss.macAddress) := by
  obtain ⟨hevs, -, -⟩ := (runOk_append _ _ _).1 hok
  have hinv : AttemptInv (run Clnt.next s evs) := run_invariant_of_ok AttemptInv.next (.of_null h0) hevs
  rw [run_append, run_cons, run_nil] at h'
  obtain ⟨haid, ⟨k, hk⟩, hu, hcur⟩ := next_linked hinv h h'
  obtain ⟨bss, pre, mid₁, mid₂, mid₃, e₁, e₂, e₃, rfl, hsh⟩ := handshake h0 hevs hk
  refine ⟨hu, haid, bss, pre, mid₁, mid₂, mid₃, e₁, e₂, e₃, rfl, hsh, fun hnone => ?_⟩
  have hnet : (run Clnt.next s (pre ++ [e₁])).info.network = bss := by
    rw [run_append]
    exact hsh.starts.network
  have hmid₁ : (run Clnt.next s (pre ++ e₁ :: mid₁)).info.network = bss := by
    rw [← hnet, ← run_network ((runOk_append _ _ _).1 hnone).1, ← run_append]
    simp
  obtain ⟨known, bcnOk, env, he₂⟩ := hsh.hears
  refine ⟨⟨known, bcnOk, env, ?_⟩, ?_⟩
  · rw [he₂, hmid₁]
  · have hend := run_network hnone
    rw [hnet, ← run_append] at hend
    rw [run_append, run_cons, run_nil, hcur, ← hend]
    simp

def homeAccepts : List Event :=
  homeStart ++ [.beacon homeBss.macAddress false false true ⟨true, true, true⟩, .auth true 2 0 false]

def homeAssocRsp : Event := .assocRsp true 0 0xc001 ⟨true, true, true⟩

theorem linked_handshake_home : (run Clnt.next idleClnt (homeAccepts ++ [homeAssocRsp])).linked = true ∧
    ∃ bss pre mid₁ mid₂ mid₃ e₁ e₂ e₃, homeAccepts = pre ++ e₁ :: (mid₁ ++ e₂ :: (mid₂ ++ e₃ :: mid₃)) ∧
      Handshake idleClnt bss pre mid₁ mid₂ mid₃ e₁ e₂ e₃ := by
  have hlinked : (run Clnt.next idleClnt (homeAccepts ++ [homeAssocRsp])).linked = true := by decide +kernel
  have h := linked_handshake rfl (by decide +kernel) (by decide +kernel) hlinked
  obtain ⟨-, -, bss, pre, mid₁, mid₂, mid₃, e₁, e₂, e₃, he, hsh, -⟩ := h
  exact ⟨hlinked, bss, pre, mid₁, mid₂, mid₃, e₁, e₂, e₃, he, hsh⟩

end Rtw.Join
