import Rtw.Mlme.Join

/-!
# An attempt to join, over the runs of the driver

`attempt` reads `state` and the two counters as the phase an attempt is in; `Moves` says what a step may do to it
and `next_moves` that every step of the driver does one of these things. A network is connected only by way of
all of them (`Handshake`).
-/

namespace Rtw.Join
open Machine

/-- An attempt: the beacon is waited for, the authentication or the association is under way with so many requests
repeated, or it is over. -/
inductive Attempt where
  | idle
  | waiting
  | authing (reauth : Nat)
  | associng (reassoc : Nat)
  | associated
  deriving DecidableEq

namespace Attempt

def state : Attempt → MlmeState
  | idle => .null
  | waiting => ⟨true, true, false, false, false, false⟩
  | authing _ => ⟨true, false, true, false, false, false⟩
  | associng _ => ⟨true, false, false, true, true, false⟩
  | associated => ⟨true, false, false, true, false, true⟩

/-- What the counters say of the attempt; and while it is under way, `link_timer` is running. -/
def Counts (m : MlmeInfo) : Attempt → Prop
  | waiting => m.linkTimer = true
  | authing k => m.linkTimer = true ∧ m.reauthCount = k ∧ k ≤ reauthLimit ∧ m.reassocCount = 0
  | associng k => m.linkTimer = true ∧ m.reassocCount = k ∧ k ≤ reassocLimit
  | _ => True

def Of (a : Attempt) (m : MlmeInfo) : Prop := m.state = a.state ∧ a.Counts m

end Attempt

namespace MlmeInfo

def attempt (m : MlmeInfo) : Attempt :=
  if m.state.authNull then .waiting
  else if m.state.authState then .authing m.reauthCount
  else if m.state.assocState then .associng m.reassocCount
  else if m.state.assocSuccess then .associated
  else .idle

/-- The authentications begun and the association requests, with their repetitions. -/
def requests (m : MlmeInfo) : Nat :=
  m.issued.countP fun f => match f with
    | .auth _ _ seq => seq = 1
    | .assocReq _ => true
    | .deauth _ => false

end MlmeInfo

variable {a : Attempt} {m m' : MlmeInfo} {s : Clnt} {e : Event}

namespace Attempt

theorem Of.attempt_eq (h : a.Of m) : m.attempt = a := by
  obtain ⟨hs, hc⟩ := h
  cases a with
  | authing k =>
    obtain ⟨-, rfl, -⟩ := hc
    simp [MlmeInfo.attempt, hs, state]
  | associng k =>
    obtain ⟨-, rfl, -⟩ := hc
    simp [MlmeInfo.attempt, hs, state]
  | _ => simp [MlmeInfo.attempt, hs, state, MlmeState.null]

theorem Of.waiting (h : a.Of m) (hs : m.state.authNull = true) : a = .waiting := by
  cases a <;> simp [h.1, state, MlmeState.null] at hs ⊢

theorem Of.authing (h : a.Of m) (hs : m.state.authState = true) : ∃ k, a = .authing k := by
  cases a <;> simp [h.1, state, MlmeState.null] at hs ⊢

theorem Of.associng (h : a.Of m) (hs : m.state.assocState = true) : ∃ k, a = .associng k := by
  cases a <;> simp [h.1, state, MlmeState.null] at hs ⊢

theorem Of.associated (h : a.Of m) (hs : m.state.assocSuccess = true) : a = .associated := by
  cases a <;> simp [h.1, state, MlmeState.null] at hs ⊢

theorem of_idle (h : m.state = .null) : idle.Of m := ⟨h, trivial⟩

end Attempt

namespace MlmeInfo

@[simp] theorem issue_state (f : Mgnt) : (m.issue f).state = m.state := rfl
@[simp] theorem issue_network (f : Mgnt) : (m.issue f).network = m.network := rfl
@[simp] theorem issue_linkTimer (f : Mgnt) : (m.issue f).linkTimer = m.linkTimer := rfl
@[simp] theorem issue_reauthCount (f : Mgnt) : (m.issue f).reauthCount = m.reauthCount := rfl
@[simp] theorem issue_reassocCount (f : Mgnt) : (m.issue f).reassocCount = m.reassocCount := rfl
@[simp] theorem issueAuth_state : m.issueAuth.state = m.state := rfl
@[simp] theorem issueAuth_network : m.issueAuth.network = m.network := rfl
@[simp] theorem issueAuth_reauthCount : m.issueAuth.reauthCount = m.reauthCount := rfl
@[simp] theorem issueAuth_reassocCount : m.issueAuth.reassocCount = m.reassocCount := rfl
@[simp] theorem issueAssocreq_state : m.issueAssocreq.state = m.state := rfl
@[simp] theorem issueAssocreq_network : m.issueAssocreq.network = m.network := rfl
@[simp] theorem issueAssocreq_reassocCount : m.issueAssocreq.reassocCount = m.reassocCount := rfl
@[simp] theorem setLinkTimer_state : m.setLinkTimer.state = m.state := rfl
@[simp] theorem setLinkTimer_network : m.setLinkTimer.network = m.network := rfl
@[simp] theorem setLinkTimer_linkTimer : m.setLinkTimer.linkTimer = true := rfl
@[simp] theorem setLinkTimer_reauthCount : m.setLinkTimer.reauthCount = m.reauthCount := rfl
@[simp] theorem setLinkTimer_reassocCount : m.setLinkTimer.reassocCount = m.reassocCount := rfl
@[simp] theorem setLinkTimer_requests : m.setLinkTimer.requests = m.requests := rfl

theorem requests_congr (h : m'.issued = m.issued) : m'.requests = m.requests := by
  simp [requests, h]

@[simp] theorem issue_deauth_requests (ra : MacAddr) : (m.issue (.deauth ra)).requests = m.requests := by
  simp [requests, issue]

/-- As far as an attempt goes, `m'` is `m`. -/
structure Same (m m' : MlmeInfo) : Prop where
  state : m'.state = m.state
  linkTimer : m.linkTimer = true → m'.linkTimer = true
  reauthCount : m'.reauthCount = m.reauthCount
  reassocCount : m'.reassocCount = m.reassocCount
  requests : m'.requests = m.requests

theorem Same.refl (m : MlmeInfo) : m.Same m := ⟨rfl, id, rfl, rfl, rfl⟩

theorem Same.trans {m'' : MlmeInfo} (h : m.Same m') (h' : m'.Same m'') : m.Same m'' :=
  ⟨h'.state.trans h.state, h'.linkTimer ∘ h.linkTimer, h'.reauthCount.trans h.reauthCount,
    h'.reassocCount.trans h.reassocCount, h'.requests.trans h.requests⟩

theorem Same.of (h : a.Of m) (hs : m.Same m') : a.Of m' := by
  refine ⟨hs.state.trans h.1, ?_⟩
  have hc := h.2
  cases a with
  | waiting => exact hs.linkTimer hc
  | authing k =>
    obtain ⟨hl, hk, hkl, h0⟩ := hc
    exact ⟨hs.linkTimer hl, hs.reauthCount.trans hk, hkl, hs.reassocCount.trans h0⟩
  | associng k =>
    obtain ⟨hl, hk, hkl⟩ := hc
    exact ⟨hs.linkTimer hl, hs.reassocCount.trans hk, hkl⟩
  | _ => trivial

@[simp] theorem issueAssocreq_requests : m.issueAssocreq.requests = m.requests + 1 := by
  simp [requests, issueAssocreq, issue]

theorem issueAuth_requests (h : m.authSeq = 1) : m.issueAuth.requests = m.requests + 1 := by
  simp [requests, issueAuth, issue, h]

theorem issueAuth_requests_answer (h : m.authSeq ≠ 1) : m.issueAuth.requests = m.requests := by
  simp [requests, issueAuth, issue, h]

end MlmeInfo

/-! ### The driver's own functions leave `mlmext_info` alone -/

namespace Clnt

section Info

variable (s : Clnt) (n : Nat) (c : Cmd) (ok : Bool) (res : Int) (env : ReportEnv) (je : DoJoinEnv)
  (jes : Nat → DoJoinEnv)

@[simp] theorem setToRoam_info : (s.setToRoam n).info = s.info := rfl
@[simp] theorem rtwIndicateDisconnect_info : s.rtwIndicateDisconnect.info = s.info := rfl

@[simp] theorem enqueue_info : (s.enqueue c ok).info = s.info := by
  cases ok <;> rfl

@[simp] theorem rtwJoinbssEventPrehandle_info : (s.rtwJoinbssEventPrehandle res env).info = s.info := by
  unfold rtwJoinbssEventPrehandle
  repeat' split
  all_goals rfl

@[simp] theorem report_info (r : Option Report) : (s.report r env).info = s.info := by
  rcases r with _ | ⟨res⟩ | ⟨macaddr, reason⟩ | _
  · rfl
  · simp only [report, reportJoinRes]
    split <;> simp
  · simp [report, reportDelStaEvent]
  · rfl

@[simp] theorem handle_info (r : MlmeInfo × Option Report) : (s.handle r env).info = r.1 := by
  simp [handle]

@[simp] theorem rtwSelectAndJoinFromScannedQueue_info :
    (s.rtwSelectAndJoinFromScannedQueue je).1.info = s.info := by
  unfold rtwSelectAndJoinFromScannedQueue
  split
  · rfl
  · split <;> simp

@[simp] theorem surveyFirst_info : (s.surveyFirst je).1.info = s.info := rfl

@[simp] theorem rtwDoJoin_info : (s.rtwDoJoin je).1.info = s.info := by
  unfold rtwDoJoin
  dsimp only
  repeat' split
  all_goals simp

@[simp] theorem roamTries_info (k : Nat) : (roamTries jes k s).info = s.info := by
  induction k generalizing s with
  | zero => rfl
  | succ k ih =>
    cases k with
    | zero => rfl
    | succ k =>
      simp only [roamTries]
      split
      · simp
      · rw [ih]
        simp

@[simp] theorem rtwRoaming_info : (s.rtwRoaming jes).info = s.info := by
  unfold rtwRoaming
  dsimp only
  repeat' split
  all_goals simp

@[simp] theorem rtwJoinTimeoutHandler_info : (s.rtwJoinTimeoutHandler jes).info = s.info := by
  unfold rtwJoinTimeoutHandler
  split <;> simp

@[simp] theorem rtwStadelEventCallback_info (reason : Nat) (ib : Bool) :
    (s.rtwStadelEventCallback reason ib jes).info = s.info.mlmeextStaDelEventCallback ib := by
  unfold rtwStadelEventCallback
  dsimp only
  repeat' split
  all_goals simp

@[simp] theorem rtwDisassocCmd_info : (s.rtwDisassocCmd ok).info = s.info := by
  simp [rtwDisassocCmd]

@[simp] theorem rtwSet80211Disassociate_info : (s.rtwSet80211Disassociate ok).info = s.info := by
  unfold rtwSet80211Disassociate
  split <;> simp

@[simp] theorem clntSaQueryTimeout_info : (s.clntSaQueryTimeout ok).info = s.info := by
  simp [clntSaQueryTimeout]

theorem cfg80211RtwDisconnect_info :
    (s.cfg80211RtwDisconnect ok).info = if ok then s.info.disconnectHdl else s.info := by
  unfold cfg80211RtwDisconnect
  cases ok <;> rfl

theorem rtwSurveydoneEventCallback_info (roamTo mem : Bool) :
    (s.rtwSurveydoneEventCallback je roamTo mem).info = s.info ∨
      (s.rtwSurveydoneEventCallback je roamTo mem).info =
        (s.info.receiveDisconnect s.curNetwork reasonActiveRoam).1 := by
  unfold rtwSurveydoneEventCallback
  dsimp only
  repeat' split
  all_goals simp

theorem runCmd_info (ce : CmdEnv) : (s.runCmd ce c).info = match c with
    | .joinBss bss => (s.info.joinCmdHdl bss ce.chOk).1
    | .disConnect => s.info.disconnectHdl
    | .joinBssEvent _ => s.info
    | .delSta _ _ => s.info.mlmeextStaDelEventCallback ce.ibssEmpty := by
  cases c with
  | joinBss bss =>
    simp only [runCmd]
    split <;> simp
  | delSta macaddr reason => simp [runCmd]
  | _ => rfl

end Info

end Clnt

/-! ### What a step does to an attempt -/

/-- The command thread takes a join command, and starts an attempt. -/
def Starts (s : Clnt) (e : Event) (bss : Bss) : Prop :=
  ∃ cs env, s.cmds = .joinBss bss :: cs ∧ e = .cmdThread env ∧ bss.ess = true ∧ 2 ≤ bss.ieLength ∧
    bss.ieLength ≤ maxIeSz ∧ env.chOk = true

/-- The network of the join command that the command thread takes in this step. -/
def joinTaken (s : Clnt) : Event → Option Bss
  | .cmdThread _ => match s.cmds with
    | .joinBss bss :: _ => some bss
    | _ => none
  | _ => none

/-- The networks that are joined have `cap_ESS`. -/
def JoinsEss (s : Clnt) (e : Event) : Prop := ∀ bss ∈ joinTaken s e, bss.ess = true

instance : Decidable (JoinsEss s e) := inferInstanceAs (Decidable (∀ bss ∈ joinTaken s e, bss.ess = true))

def Hears (s : Clnt) (e : Event) : Prop :=
  ∃ known bcnOk env, e = .beacon s.info.network.macAddress false known bcnOk env

/-- The last frame of the authentication: the second, or the fourth with a shared key. -/
def Authenticated (s : Clnt) (e : Event) : Prop :=
  ∃ chgTxt, e = .auth true (if s.info.authAlgo = .shared then 4 else 2) 0 chgTxt

def Associated (e : Event) (aid : Nat) : Prop := ∃ env, e = .assocRsp true 0 aid env

def TimesOut (s : Clnt) (e : Event) : Prop := s.info.linkTimer = true ∧ ∃ env, e = .linkTimer env

/-- What a step may do to an attempt, and how many requests it sends. -/
inductive Moves (s : Clnt) (e : Event) : Attempt → Attempt → Nat → Prop
  | stay (a : Attempt) (h : TimesOut s e → a = .idle ∨ a = .associated) : Moves s e a a 0
  | start (a : Attempt) {bss : Bss} (h : Starts s e bss) : Moves s e a .waiting 0
  | beacon (h : Hears s e) : Moves s e .waiting (.authing 0) 1
  | reauth (k : Nat) (h : TimesOut s e) (hk : k < reauthLimit) : Moves s e (.authing k) (.authing (k + 1)) 1
  | authed (k : Nat) (h : Authenticated s e) : Moves s e (.authing k) (.associng 0) 1
  | reassoc (k : Nat) (h : TimesOut s e) (hk : k < reassocLimit) : Moves s e (.associng k) (.associng (k + 1)) 1
  | assoced (k : Nat) {aid : Nat} (h : Associated e aid) : Moves s e (.associng k) .associated 0
  | ends (a : Attempt) : Moves s e a .idle 0

/-- The step is one of `Moves`, with the state and the requests as it says. -/
def Moved (s : Clnt) (e : Event) : Prop :=
  ∃ r, Moves s e s.info.attempt (s.next e).info.attempt r ∧ (s.next e).info.attempt.Of (s.next e).info ∧
    (s.next e).info.requests = s.info.requests + r

variable {a' : Attempt} {r : Nat}

theorem Moves.moved (hm : Moves s e a a' r) (h : a.Of s.info) (h' : a'.Of (s.next e).info)
    (hr : (s.next e).info.requests = s.info.requests + r) : Moved s e := by
  refine ⟨r, ?_, ?_, hr⟩
  · rw [h.attempt_eq, h'.attempt_eq]
    exact hm
  · rw [h'.attempt_eq]
    exact h'

theorem Moved.of_same (h : a.Of s.info) (ht : ¬ TimesOut s e) (hs : s.info.Same (s.next e).info) : Moved s e :=
  (Moves.stay a fun h' => absurd h' ht).moved h (hs.of h) hs.requests

theorem Moved.of_info_eq (h : a.Of s.info) (ht : ¬ TimesOut s e) (he : (s.next e).info = s.info) : Moved s e :=
  .of_same h ht (he ▸ .refl s.info)

theorem Moved.of_null (h : a.Of s.info) (hs : (s.next e).info.state = .null)
    (hr : (s.next e).info.requests = s.info.requests) : Moved s e :=
  (Moves.ends a).moved h (Attempt.of_idle hs) hr

namespace MlmeInfo

theorem receiveDisconnect_fst (m : MlmeInfo) (macAddr : MacAddr) (reason : Nat) :
    (m.receiveDisconnect macAddr reason).1 = m ∨
      (m.receiveDisconnect macAddr reason).1 = { m with state := .null } := by
  unfold receiveDisconnect
  repeat' split
  all_goals simp

@[simp] theorem disconnectHdl_state : m.disconnectHdl.state = .null := rfl

@[simp] theorem disconnectHdl_requests : m.disconnectHdl.requests = m.requests := by
  unfold disconnectHdl rtwMlmeextDisconnect
  split
  · exact issue_deauth_requests m.network.macAddress
  · rfl

theorem leaveAndCopy_requests (bss : Bss) : (m.leaveAndCopy bss).requests = m.requests := by
  unfold leaveAndCopy
  dsimp only
  repeat' split
  · exact issue_deauth_requests m.network.macAddress
  all_goals rfl

end MlmeInfo

theorem not_timesOut_of {s : Clnt} (h : ∀ env, e ≠ .linkTimer env) : ¬ TimesOut s e := by
  rintro ⟨-, env, rfl⟩
  exact h env rfl

/-- Where the handler is `receive_disconnect`, or nothing. -/
theorem Moved.of_receiveDisconnect (macAddr : MacAddr) (reason : Nat) (h : a.Of s.info) (ht : ¬ TimesOut s e)
    (he : (s.next e).info = s.info ∨ (s.next e).info = (s.info.receiveDisconnect macAddr reason).1) :
    Moved s e := by
  rcases he with he | he
  · exact .of_info_eq h ht he
  · rcases s.info.receiveDisconnect_fst macAddr reason with hr | hr
    · exact .of_info_eq h ht (he.trans hr)
    · rw [hr] at he
      exact .of_null h (by rw [he]) (by rw [he]; rfl)

theorem beacon_moved (h : a.Of s.info) (a3 : MacAddr) (scanning known bcnOk : Bool) (env : ReportEnv) :
    Moved s (.beacon a3 scanning known bcnOk env) := by
  have ht : ¬ TimesOut s (.beacon a3 scanning known bcnOk env) := not_timesOut_of (by simp)
  cases scanning with
  | true => exact .of_info_eq h ht (by simp [Clnt.next])
  | false =>
    have he : (s.next (.beacon a3 false known bcnOk env)).info = (s.info.onBeacon a3 known bcnOk).1 := by
      simp [Clnt.next]
    by_cases ha : a = .waiting ∧ a3 = s.info.network.macAddress
    · obtain ⟨rfl, rfl⟩ := ha
      have hb : s.info.onBeacon s.info.network.macAddress known bcnOk = (s.info.startClntAuth, none) := by
        simp [MlmeInfo.onBeacon, h.1, Attempt.state]
      rw [hb] at he
      refine (Moves.beacon ⟨known, bcnOk, env, rfl⟩).moved h ?_ ?_
      · rw [he]
        simp [Attempt.Of, Attempt.Counts, MlmeInfo.startClntAuth, h.1, Attempt.state]
      · rw [he]
        exact MlmeInfo.issueAuth_requests rfl
    · refine .of_receiveDisconnect s.info.network.macAddress 0 h ht ?_
      rw [he]
      unfold MlmeInfo.onBeacon
      split
      · rename_i h3
        rw [if_neg fun hn => ha ⟨h.waiting hn, h3⟩]
        repeat' split
        all_goals simp
      · simp

namespace MlmeInfo

theorem onAuthClient_cases (m : MlmeInfo) (toMe : Bool) (seq status : Nat) (chgTxt : Bool) :
    m.Same (m.onAuthClient toMe seq status chgTxt) ∨
      toMe = true ∧ m.state.authState = true ∧ status = 0 ∧ (seq = if m.authAlgo = .shared then 4 else 2) ∧
        m.onAuthClient toMe seq status chgTxt = m.startClntAssoc := by
  unfold onAuthClient
  split
  · exact .inl (.refl m)
  rename_i hme
  split
  · exact .inl (.refl m)
  rename_i hst
  split
  · exact .inl ⟨rfl, fun _ => rfl, rfl, rfl, requests_congr rfl⟩
  rename_i h0
  have hgo : toMe = true ∧ m.state.authState = true ∧ status = 0 := by
    refine ⟨by simpa using hme, by simpa using hst, by simpa using h0⟩
  split
  · rename_i h2
    split
    · split
      · exact .inl ⟨rfl, fun _ => rfl, rfl, rfl,
          issueAuth_requests_answer (m := { m with authSeq := 3 }) (show 3 ≠ 1 by decide)⟩
      · exact .inl (.refl m)
    · exact .inr ⟨hgo.1, hgo.2.1, hgo.2.2, h2, rfl⟩
  · split
    · rename_i h4
      split
      · exact .inr ⟨hgo.1, hgo.2.1, hgo.2.2, h4, rfl⟩
      · exact .inl (.refl m)
    · exact .inl (.refl m)

end MlmeInfo

theorem auth_moved (h : a.Of s.info) (toMe : Bool) (seq status : Nat) (chgTxt : Bool) :
    Moved s (.auth toMe seq status chgTxt) := by
  have ht : ¬ TimesOut s (.auth toMe seq status chgTxt) := not_timesOut_of (by simp)
  rcases s.info.onAuthClient_cases toMe seq status chgTxt with hs | ⟨rfl, hst, rfl, rfl, hgo⟩
  · exact .of_same h ht hs
  · have he : (s.next (.auth true (if s.info.authAlgo = .shared then 4 else 2) 0 chgTxt)).info =
        s.info.startClntAssoc := hgo
    obtain ⟨k, rfl⟩ := h.authing hst
    refine (Moves.authed k ⟨chgTxt, rfl⟩).moved h ?_ ?_
    · rw [he]
      simp [Attempt.Of, Attempt.Counts, MlmeInfo.startClntAssoc, h.1, Attempt.state, h.2.2.2.2]
    · rw [he]
      exact MlmeInfo.issueAssocreq_requests

theorem assocRsp_moved (h : a.Of s.info) (toMe : Bool) (status aid : Nat) (env : ReportEnv) :
    Moved s (.assocRsp toMe status aid env) := by
  have ht : ¬ TimesOut s (.assocRsp toMe status aid env) := not_timesOut_of (by simp)
  have he : (s.next (.assocRsp toMe status aid env)).info = (s.info.onAssocRsp toMe status aid).1 := by
    simp [Clnt.next]
  unfold MlmeInfo.onAssocRsp at he
  split at he
  · exact .of_info_eq h ht he
  rename_i hme
  split at he
  · exact .of_info_eq h ht he
  rename_i hst
  split at he
  · exact .of_info_eq h ht he
  rename_i hsucc
  split at he
  · exact .of_null h (by rw [he]) (by rw [he]; rfl)
  · rename_i h0
    obtain ⟨k, rfl⟩ : ∃ k, a = .associng k := by
      cases a <;> simp [h.1, Attempt.state, MlmeState.null] at hst hsucc ⊢
    obtain rfl : toMe = true := by simpa using hme
    obtain rfl : status = 0 := by omega
    refine (Moves.assoced k ⟨env, rfl⟩).moved h ?_ ?_
    · rw [he]
      simp [Attempt.Of, Attempt.Counts, h.1, Attempt.state]
    · rw [he]
      rfl

theorem linkTimer_moved (h : a.Of s.info) (env : ReportEnv) : Moved s (.linkTimer env) := by
  cases hl : s.info.linkTimer with
  | false =>
    refine .of_info_eq h ?_ (by simp [Clnt.next, hl])
    rintro ⟨ht, -⟩
    simp [hl] at ht
  | true =>
    have ht : TimesOut s (.linkTimer env) := ⟨hl, env, rfl⟩
    have he : (s.next (.linkTimer env)).info = ({ s.info with linkTimer := false } : MlmeInfo).linkTimerHdl.1 := by
      simp [Clnt.next, hl]
    cases a with
    | idle =>
      have hn : s.info.state = .null := h.1
      have he' : (s.next (.linkTimer env)).info = { s.info with linkTimer := false } := by
        rw [he]
        simp [MlmeInfo.linkTimerHdl, hn, MlmeState.null]
      exact .of_null h (by rw [he', hn]) (by rw [he']; rfl)
    | associated =>
      have he' : (s.next (.linkTimer env)).info = { s.info with linkTimer := false } := by
        rw [he]
        simp [MlmeInfo.linkTimerHdl, h.1, Attempt.state]
      exact (Moves.stay .associated fun _ => .inr rfl).moved h ⟨by rw [he', ← h.1], trivial⟩ (by rw [he']; rfl)
    | waiting =>
      have he' : (s.next (.linkTimer env)).info = { s.info with linkTimer := false, state := .null } := by
        rw [he]
        simp [MlmeInfo.linkTimerHdl, h.1, Attempt.state]
      exact .of_null h (by rw [he']) (by rw [he']; rfl)
    | authing k =>
      obtain ⟨hs, -, hk, hkl, h0⟩ := h
      by_cases hlt : k < reauthLimit
      · have he' : (s.next (.linkTimer env)).info = ({ s.info with
            linkTimer := false
            reauthCount := s.info.reauthCount + 1
            authSeq := 1 } : MlmeInfo).issueAuth.setLinkTimer := by
          rw [he]
          have hle : ¬ k + 1 > reauthLimit := by omega
          simp [MlmeInfo.linkTimerHdl, hs, Attempt.state, hk, hle]
        refine (Moves.reauth k ht hlt).moved ⟨hs, hl, hk, hkl, h0⟩ ?_ ?_
        · rw [he']
          exact ⟨hs, rfl, by simp [hk], hlt, h0⟩
        · rw [he']
          exact MlmeInfo.issueAuth_requests rfl
      · refine .of_null ⟨hs, hl, hk, hkl, h0⟩ ?_ ?_
        all_goals
          have hgt : k + 1 > reauthLimit := by omega
          rw [he]
          simp [MlmeInfo.linkTimerHdl, hs, Attempt.state, hk, hgt]
        exact MlmeInfo.requests_congr rfl
    | associng k =>
      obtain ⟨hs, -, hk, hkl⟩ := h
      by_cases hlt : k < reassocLimit
      · have he' : (s.next (.linkTimer env)).info = ({ s.info with
            linkTimer := false, reassocCount := s.info.reassocCount + 1 } : MlmeInfo).issueAssocreq.setLinkTimer := by
          rw [he]
          have hle : ¬ k + 1 > reassocLimit := by omega
          simp [MlmeInfo.linkTimerHdl, hs, Attempt.state, hk, hle]
        refine (Moves.reassoc k ht hlt).moved ⟨hs, hl, hk, hkl⟩ ?_ ?_
        · rw [he']
          exact ⟨hs, rfl, by simp [hk], hlt⟩
        · rw [he']
          exact MlmeInfo.issueAssocreq_requests
      · refine .of_null ⟨hs, hl, hk, hkl⟩ ?_ ?_
        all_goals
          have hgt : k + 1 > reassocLimit := by omega
          rw [he]
          simp [MlmeInfo.linkTimerHdl, hs, Attempt.state, hk, hgt]
        exact MlmeInfo.requests_congr rfl

namespace MlmeInfo

theorem leaveAndCopy_cases (m : MlmeInfo) (bss : Bss) :
    m.Same (m.leaveAndCopy bss) ∨ (m.leaveAndCopy bss).state = .null := by
  unfold leaveAndCopy
  dsimp only
  split
  · exact .inr rfl
  · exact .inl ⟨rfl, id, rfl, rfl, rfl⟩

@[simp] theorem leaveAndCopy_network (m : MlmeInfo) (bss : Bss) : (m.leaveAndCopy bss).network = bss := rfl

theorem startClntJoin_of_ess (h : m.network.ess = true) : m.startClntJoin =
    ({ m.setLinkTimer with state := { MlmeState.null with station := true, authNull := true } }, some .assocTimer) :=
  if_pos h

/-- A join command that is not refused before `start_clnt_join`. -/
theorem joinCmdHdl_fst (m : MlmeInfo) (bss : Bss) (chOk : Bool) :
    (m.joinCmdHdl bss chOk).1 = m.leaveAndCopy bss ∨
      2 ≤ bss.ieLength ∧ bss.ieLength ≤ maxIeSz ∧ chOk = true ∧
        (m.joinCmdHdl bss chOk).1 = ({ m.leaveAndCopy bss with linkTimer := false } : MlmeInfo).startClntJoin.1 := by
  unfold joinCmdHdl
  dsimp only
  split
  · exact .inl rfl
  rename_i hmax
  split
  · exact .inl rfl
  rename_i hmin
  split
  · exact .inl rfl
  rename_i hch
  exact .inr ⟨by omega, by omega, by simpa using hch, rfl⟩

end MlmeInfo

/-- Without a start, a join command may only end an association. -/
theorem Moved.of_leave (bss : Bss) (h : a.Of s.info) (ht : ¬ TimesOut s e)
    (he : (s.info.leaveAndCopy bss).Same (s.next e).info) : Moved s e := by
  rcases s.info.leaveAndCopy_cases bss with hs | hs
  · exact .of_same h ht (hs.trans he)
  · exact .of_null h (he.state.trans hs) (he.requests.trans (MlmeInfo.leaveAndCopy_requests bss))

theorem joinBss_moved {bss : Bss} {cs : List Cmd} (h : a.Of s.info) (hc : s.cmds = .joinBss bss :: cs)
    (hess : bss.ess = true) (env : Clnt.CmdEnv) : Moved s (.cmdThread env) := by
  have ht : ¬ TimesOut s (.cmdThread env) := not_timesOut_of (by simp)
  have he : (s.next (.cmdThread env)).info = (s.info.joinCmdHdl bss env.chOk).1 := by
    simp [Clnt.next, Clnt.cmdThread, hc, Clnt.runCmd_info]
  rcases s.info.joinCmdHdl_fst bss env.chOk with hj | ⟨hmin, hmax, hch, hj⟩
  · refine .of_leave bss h ht ?_
    rw [he, hj]
    exact .refl (s.info.leaveAndCopy bss)
  · rw [hj] at he
    rw [MlmeInfo.startClntJoin_of_ess hess] at he
    refine (Moves.start a ⟨cs, env, hc, rfl, hess, hmin, hmax, hch⟩).moved h ?_ ?_
    · rw [he]
      exact ⟨rfl, rfl⟩
    · rw [he]
      exact MlmeInfo.leaveAndCopy_requests bss

theorem cmdThread_moved (h : a.Of s.info) (env : Clnt.CmdEnv) (hess : JoinsEss s (.cmdThread env)) :
    Moved s (.cmdThread env) := by
  have ht : ¬ TimesOut s (.cmdThread env) := not_timesOut_of (by simp)
  have hcmd : ∀ c cs, s.cmds = c :: cs → (s.next (.cmdThread env)).info =
      (({ s with cmds := cs } : Clnt).runCmd env c).info := by
    intro c cs hc
    simp [Clnt.next, Clnt.cmdThread, hc]
  cases hc : s.cmds with
  | nil => exact .of_info_eq h ht (by simp [Clnt.next, Clnt.cmdThread, hc])
  | cons c cs =>
    have he := (hcmd c cs hc).trans (Clnt.runCmd_info _ _ _)
    cases c with
    | joinBss bss => exact joinBss_moved h hc (hess bss (by simp [joinTaken, hc])) env
    | disConnect => exact .of_null h (by rw [he]; rfl) (by rw [he]; simp)
    | joinBssEvent res => exact .of_info_eq h ht he
    | delSta macaddr reason =>
      simp only [MlmeInfo.mlmeextStaDelEventCallback] at he
      split at he
      · exact .of_null h (by rw [he]; rfl) (by rw [he]; rfl)
      · exact .of_info_eq h ht he

/-- Every step of the driver does one of `Moves` to the attempt. -/
theorem next_moved (h : a.Of s.info) (hess : JoinsEss s e) : Moved s e := by
  cases e with
  | doJoin env => exact .of_info_eq h (not_timesOut_of (by simp)) (by simp [Clnt.next])
  | disassociate ok => exact .of_info_eq h (not_timesOut_of (by simp)) (by simp [Clnt.next])
  | saQueryTimeout ok => exact .of_info_eq h (not_timesOut_of (by simp)) (by simp [Clnt.next])
  | disconnect mem =>
    have he : (s.next (.disconnect mem)).info = if mem then s.info.disconnectHdl else s.info :=
      Clnt.cfg80211RtwDisconnect_info s mem
    cases mem with
    | true => exact .of_null h (by rw [he]; rfl) (by rw [he]; simp)
    | false => exact .of_info_eq h (not_timesOut_of (by simp)) he
  | surveyDone env roamTo mem =>
    exact .of_receiveDisconnect s.curNetwork reasonActiveRoam h (not_timesOut_of (by simp))
      (Clnt.rtwSurveydoneEventCallback_info s env roamTo mem)
  | setAuth mode =>
    refine .of_same h (not_timesOut_of (by simp)) ?_
    simp only [Clnt.next, MlmeInfo.setauthHdl]
    split
    · exact .refl s.info
    · exact ⟨rfl, id, rfl, rfl, rfl⟩
  | cmdThread env => exact cmdThread_moved h env hess
  | beacon a3 scanning known bcnOk env => exact beacon_moved h a3 scanning known bcnOk env
  | auth toMe seq status chgTxt => exact auth_moved h toMe seq status chgTxt
  | assocRsp toMe status aid env => exact assocRsp_moved h toMe status aid env
  | deauth a2 a3 reason env =>
    refine .of_receiveDisconnect a2 reason h (not_timesOut_of (by simp)) ?_
    simp only [Clnt.next, Clnt.handle_info, MlmeInfo.onDeAuth]
    repeat' split
    all_goals simp
  | disassoc a2 a3 reason env =>
    refine .of_receiveDisconnect a2 reason h (not_timesOut_of (by simp)) ?_
    simp only [Clnt.next, Clnt.handle_info, MlmeInfo.onDisassoc]
    split <;> simp
  | expired env =>
    refine .of_receiveDisconnect s.info.network.macAddress reasonExpirationChk h
      (not_timesOut_of (by simp)) ?_
    simp only [Clnt.next]
    split <;> simp
  | linkTimer env => exact linkTimer_moved h env
  | assocTimer env =>
    refine .of_info_eq h (not_timesOut_of (by simp)) ?_
    simp only [Clnt.next]
    split <;> simp

/-- The state, the counters and `link_timer` are those of one attempt. -/
def AttemptInv (s : Clnt) : Prop := s.info.attempt.Of s.info

theorem AttemptInv.of_null (h : s.info.state = .null) : AttemptInv s := by
  have ho := Attempt.of_idle h
  rw [AttemptInv, ho.attempt_eq]
  exact ho

theorem AttemptInv.next (s : Clnt) (e : Event) (h : AttemptInv s) (hess : JoinsEss s e) : AttemptInv (s.next e) := by
  obtain ⟨r, -, hof, -⟩ := next_moved h hess
  exact hof

theorem AttemptInv.moves (h : AttemptInv s) (hess : JoinsEss s e) :
    ∃ r, Moves s e s.info.attempt (s.next e).info.attempt r ∧ (s.next e).info.requests = s.info.requests + r := by
  obtain ⟨r, hm, -, hr⟩ := next_moved h hess
  exact ⟨r, hm, hr⟩

end Rtw.Join
