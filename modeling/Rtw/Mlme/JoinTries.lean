import Rtw.Mlme.JoinRun

/-!
# How long an attempt lasts

`link_timer` is running while an attempt is under way, and each time it expires a request is repeated, or the
attempt ends. The limits bound both: `expirations` and `requests` are what an attempt has left.
-/

namespace Rtw.Join
open Machine

variable {a a' : Attempt} {m : MlmeInfo} {s : Clnt} {e : Event} {r : Nat}

namespace Attempt

def underWay : Attempt → Bool
  | idle | associated => false
  | waiting | authing _ | associng _ => true

/-- How often `link_timer` may still expire, unless another attempt is started. -/
def expirations : Attempt → Nat
  | idle | associated => 0
  | waiting => reauthLimit + reassocLimit + 1
  | authing k => reauthLimit + reassocLimit + 1 - k
  | associng k => reassocLimit + 1 - k

/-- How many requests may still be sent. -/
def requests : Attempt → Nat
  | idle | associated => 0
  | waiting => reauthLimit + reassocLimit + 2
  | authing k => reauthLimit + reassocLimit + 1 - k
  | associng k => reassocLimit - k

theorem expirations_le : a.expirations ≤ reauthLimit + reassocLimit + 1 := by
  cases a with
  | associng k =>
    simp only [expirations, reauthLimit, reassocLimit]
    omega
  | _ => simp [expirations]

theorem requests_le : a.requests ≤ reauthLimit + reassocLimit + 2 := by
  cases a with
  | idle => exact Nat.zero_le _
  | associated => exact Nat.zero_le _
  | waiting => exact Nat.le_refl _
  | _ =>
    simp only [requests, reauthLimit, reassocLimit]
    omega

end Attempt

def isLinkTimer : Event → Bool
  | .linkTimer _ => true
  | _ => false

/-- No attempt is started in this step. -/
def NoStart (s : Clnt) (e : Event) : Prop := ∀ bss, ¬ Starts s e bss

theorem Moves.requests_add (hm : Moves s e a a' r) (h : a.Of s.info) (hn : NoStart s e) :
    a'.requests + r ≤ a.requests := by
  have hc := h.2
  cases hm with
  | stay => simp
  | start _ hst => exact absurd hst (hn _)
  | beacon => decide
  | ends => simp [Attempt.requests]
  | assoced => simp [Attempt.requests]
  | reauth k ht hk =>
    simp only [Attempt.requests, reauthLimit, reassocLimit] at hk ⊢
    omega
  | reassoc k ht hk =>
    simp only [Attempt.requests, reassocLimit] at hk ⊢
    omega
  | authed k ha =>
    have hk : k ≤ reauthLimit := hc.2.2.1
    simp only [Attempt.requests, reauthLimit, reassocLimit] at hk ⊢
    omega

theorem Moves.underWay (hm : Moves s e a a' r) (hn : NoStart s e) (hu : a'.underWay = true) : a.underWay = true := by
  cases hm with
  | stay => exact hu
  | start _ hst => exact absurd hst (hn _)
  | ends => simp [Attempt.underWay] at hu
  | assoced => simp [Attempt.underWay] at hu
  | _ => rfl

theorem Attempt.Of.linkTimer (h : a.Of m) (hu : a.underWay = true) : m.linkTimer = true := by
  cases a with
  | idle => simp [Attempt.underWay] at hu
  | associated => simp [Attempt.underWay] at hu
  | waiting => exact h.2
  | authing k => exact h.2.1
  | associng k => exact h.2.1

theorem Moves.expirations_add (hm : Moves s e a a' r) (h : a.Of s.info) (hn : NoStart s e)
    (hu : a'.underWay = true) : a'.expirations + (isLinkTimer e).toNat ≤ a.expirations := by
  have hc := h.2
  have hl := h.linkTimer (hm.underWay hn hu)
  cases hm with
  | stay _ ht =>
    cases hlt : isLinkTimer e with
    | false => simp
    | true =>
      obtain ⟨env, rfl⟩ : ∃ env, e = .linkTimer env := by
        cases e <;> simp [isLinkTimer] at hlt ⊢
      rcases ht ⟨hl, env, rfl⟩ with rfl | rfl <;> simp [Attempt.underWay] at hu
  | start _ hst => exact absurd hst (hn _)
  | beacon hb =>
    obtain ⟨known, bcnOk, env, rfl⟩ := hb
    simp [Attempt.expirations, isLinkTimer]
  | ends => simp [Attempt.underWay] at hu
  | assoced => simp [Attempt.underWay] at hu
  | reauth k ht hk =>
    have := Bool.toNat_le (isLinkTimer e)
    simp only [Attempt.expirations, reauthLimit, reassocLimit] at hk ⊢
    omega
  | reassoc k ht hk =>
    have := Bool.toNat_le (isLinkTimer e)
    simp only [Attempt.expirations, reassocLimit] at hk ⊢
    omega
  | authed k ha =>
    obtain ⟨chgTxt, rfl⟩ := ha
    have hk : k ≤ reauthLimit := hc.2.2.1
    simp only [Attempt.expirations, isLinkTimer, reauthLimit, reassocLimit, Bool.toNat_false] at hk ⊢
    omega

/-- A step on an ESS network that starts no attempt. -/
def Goes (s : Clnt) (e : Event) : Prop := JoinsEss s e ∧ NoStart s e

theorem requests_run {evs : List Event} (hs : AttemptInv s) (hok : RunOk Clnt.next Goes s evs) :
    (run Clnt.next s evs).info.requests ≤ s.info.requests + s.info.attempt.requests := by
  have hstep : ∀ t e, AttemptInv t ∧ t.info.requests + t.info.attempt.requests ≤
        s.info.requests + s.info.attempt.requests → Goes t e →
      AttemptInv (t.next e) ∧ (t.next e).info.requests + (t.next e).info.attempt.requests ≤
        s.info.requests + s.info.attempt.requests := by
    rintro t e ⟨ht, hle⟩ ⟨hess, hn⟩
    obtain ⟨r, hm, hr⟩ := AttemptInv.moves ht hess
    have hadd := hm.requests_add ht hn
    exact ⟨ht.next t e hess, by omega⟩
  have hinv := (run_invariant_of_ok hstep ⟨hs, Nat.le_refl _⟩ hok).2
  omega

theorem expirations_run {evs : List Event} (hs : AttemptInv s) (hok : RunOk Clnt.next Goes s evs)
    (hu : (run Clnt.next s evs).info.attempt.underWay = true) :
    s.info.attempt.underWay = true ∧ evs.countP isLinkTimer ≤ s.info.attempt.expirations := by
  induction evs generalizing s with
  | nil => exact ⟨hu, Nat.zero_le _⟩
  | cons e evs ih =>
    obtain ⟨⟨hess, hn⟩, hok⟩ := hok
    obtain ⟨r, hm, -⟩ := hs.moves hess
    obtain ⟨hu', hle⟩ := ih (hs.next s e hess) hok hu
    have hadd := hm.expirations_add hs hn hu'
    refine ⟨hm.underWay hn hu', ?_⟩
    rw [List.countP_cons]
    cases hlt : isLinkTimer e <;> simp [hlt] at hadd ⊢ <;> omega

/-- An attempt sends at most ten requests, and ends with the tenth expiration of its timer at the latest. -/
theorem attempt_bounded {evs pre : List Event} (h0 : s.info.state = .null) (hpre : RunOk Clnt.next JoinsEss s pre)
    (hevs : RunOk Clnt.next Goes (run Clnt.next s pre) evs) :
    (run Clnt.next s (pre ++ evs)).info.requests ≤ (run Clnt.next s pre).info.requests + 10 ∧
      ((run Clnt.next s (pre ++ evs)).info.attempt.underWay = true →
        (run Clnt.next s (pre ++ evs)).info.linkTimer = true ∧ evs.countP isLinkTimer ≤ 9) := by
  have hinv : AttemptInv (run Clnt.next s pre) := run_invariant_of_ok AttemptInv.next (.of_null h0) hpre
  rw [run_append]
  refine ⟨?_, fun hu => ?_⟩
  · have hr := requests_run hinv hevs
    have hle : (run Clnt.next s pre).info.attempt.requests ≤ 10 := Attempt.requests_le
    omega
  · have hend : AttemptInv (run Clnt.next (run Clnt.next s pre) evs) :=
      run_invariant_of_ok (fun t e ht hok => ht.next t e hok.1) hinv hevs
    have hle : (run Clnt.next s pre).info.attempt.expirations ≤ 9 := Attempt.expirations_le
    exact ⟨Attempt.Of.linkTimer hend hu, Nat.le_trans (expirations_run hinv hevs hu).2 hle⟩

/-- An interface that has not joined a network yet. -/
def idleClnt : Clnt where
  cfg := ⟨false, 3, true, true⟩
  info := ⟨.null, ⟨Vector.replicate 6 0, true, 0⟩, false, .openSystem, 0, 0, 0, []⟩
  underLinking := false
  linked := false
  assocTimer := false
  toJoin := false
  toRoam := 0
  curNetwork := Vector.replicate 6 0
  cmds := []

def homeBss : Bss := ⟨Vector.replicate 6 0x10, true, 60⟩

def homeJoin : DoJoinEnv := ⟨false, false, some homeBss, true, true, true⟩

/-- The join command is queued and taken. -/
def homeStart : List Event :=
  [.doJoin homeJoin, .cmdThread ⟨true, false, ⟨true, true, true⟩, fun _ => homeJoin⟩]

/-- The beacon is heard, and the network does not answer. -/
def homeSilent : List Event :=
  .beacon homeBss.macAddress false false true ⟨true, true, true⟩ :: List.replicate 3 (.linkTimer ⟨true, true, true⟩)

theorem attempt_bounded_silent :
    RunOk Clnt.next JoinsEss idleClnt homeStart ∧
      (run Clnt.next idleClnt (homeStart ++ homeSilent)).info.attempt = .authing 3 ∧
      (run Clnt.next idleClnt (homeStart ++ homeSilent)).info.requests ≤
        (run Clnt.next idleClnt homeStart).info.requests + 10 := by
  have hstart : RunOk Clnt.next JoinsEss idleClnt homeStart := by decide +kernel
  have hgoes : RunOk Clnt.next Goes (run Clnt.next idleClnt homeStart) homeSilent := by
    have hev : ∀ e ∈ homeSilent, ∀ env, e ≠ .cmdThread env := by
      simp [homeSilent]
    refine (runOk_of_forall hev).imp fun t e he => ⟨?_, fun bss hst => ?_⟩
    · cases e <;> simp_all [JoinsEss, joinTaken]
    · obtain ⟨cs, env, -, rfl, -⟩ := hst
      exact he env rfl
  exact ⟨hstart, by decide +kernel, (attempt_bounded rfl hstart hgoes).1⟩

end Rtw.Join
