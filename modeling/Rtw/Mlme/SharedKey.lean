import Rtw.Mlme.AidInv
import Rtw.Security.Wep

/-!
# Shared-key authentication

`OnAuth` while the AP asks for the shared key. The frame is decrypted when its privacy bit is set, but
neither that bit nor the ICV decides anything, and the challenge is compared whatever the length of its
element. `answered_run`: a station is authenticated without a valid answer exactly by a frame that
passes the comparison and lacks one of these.
-/

namespace Rtw

/-- The challenge text, which is the same for every station. -/
def challengeText : List UInt8 := .replicate 128 78

/-- The frame after `rtw_wep_decrypt`. -/
def MgmtFrame.decrypted (keys : DefKeys) (f : MgmtFrame) : MgmtFrame :=
  if f.privacy then { f with body := (rtwWepDecrypt keys f.body).1 } else f

/-- The cleartext of an encrypted frame, without IV and ICV. -/
def MgmtFrame.cleartext (keys : DefKeys) (f : MgmtFrame) : List UInt8 :=
  let payload := (rtwWepDecrypt keys f.body).1.drop 4
  payload.take (payload.length - 4)

/-- The contents of the challenge element of an authentication frame. -/
def challengeElem (cleartext : List UInt8) : Option (List UInt8) :=
  let ies := cleartext.drop 6
  (rtwGetIe ies 16 ies.length).map fun (p, len) => (ies.drop (p + 2)).take len

/-- The frame answers the challenge. -/
structure IsAnswer (keys : DefKeys) (f : MgmtFrame) : Prop where
  privacy : f.privacy
  icv : (rtwWepDecrypt keys f.body).2
  seq : (f.decrypted keys).authSeq = 3
  text : challengeElem (f.cleartext keys) = some challengeText

/-- The frame asks for a challenge. -/
def AsksForChallenge (keys : DefKeys) (f : MgmtFrame) : Prop :=
  (f.decrypted keys).authAlg ≠ 0 ∧ (f.decrypted keys).authSeq = 1

/-- Frames from one station: the last one answers the challenge that an earlier one asked for. -/
def Answered (keys : DefKeys) (log : List MgmtFrame) : Prop :=
  ∃ before f, log = before ++ [f] ∧ IsAnswer keys f ∧ ∃ g ∈ before, AsksForChallenge keys g

/-- An authentication frame for an AP that asks for the shared key. -/
structure AuthRx where
  cfg : ApCfg
  shared : cfg.dot11AuthAlgrthm = 1
  f : MgmtFrame

inductive SharedEvent where
  | auth (e : AuthRx)
  | assocReq (cfg : ApCfg) (f : MgmtFrame)
  | freeSta (i : StaId)

/-- The stations, the frames that each sent since it has its entry, and a copy of these from each moment
at which one reached `WIFI_FW_AUTH_SUCCESS`. -/
structure SharedRun where
  priv : StaPriv
  log : StaId → List MgmtFrame
  reached : List (List MgmtFrame)

/-- The entry of the station that sent `f`, which may be a new one. -/
def sender (s : StaPriv) (f : MgmtFrame) : Option StaId :=
  match rtwGetStainfo s f.sa with
  | some i => some i
  | none => (rtwAllocStainfo s f.sa).map (·.2)

def StaPriv.AuthSuccess (s : StaPriv) (i : StaId) : Prop := i ∈ s.staHash ∧ (s.sta i).state.authSuccess

instance (s : StaPriv) (i : StaId) : Decidable (s.AuthSuccess i) := inferInstanceAs (Decidable (_ ∧ _))

/-- The frame gets as far as the comparison of the challenge, and passes it. -/
structure Passes (keys : DefKeys) (s : StaPriv) (e : AuthRx) (i : StaId) : Prop where
  apState : e.cfg.apState
  acl : rtwAccessCtrl e.cfg.aclList e.f.sa
  found : rtwGetStainfo s e.f.sa = some i
  waiting : (s.sta i).authSeq = 2
  alg : (e.f.decrypted keys).authAlg ≠ 0
  seq : (e.f.decrypted keys).authSeq = 3
  text : challengeMatches (e.f.decrypted keys).body (s.sta i).chgTxt = .ok ()

/-! ### What `OnAuth` does -/

section
variable {keys : DefKeys} {s t : StaPriv} {e : AuthRx} {i j : StaId} {p q : StaInfo} {f : MgmtFrame}

theorem decrypted_sa : (f.decrypted keys).sa = f.sa := by
  unfold MgmtFrame.decrypted
  split <;> rfl

theorem authMode_shared (e : AuthRx) : authMode e.cfg = 1 := by
  unfold authMode
  rw [if_neg (by rw [e.shared]; omega), e.shared]

/-- In shared-key mode a frame of sequence 1 is answered with a challenge, and one of sequence 3 needs
the challenge text. -/
theorem authStep_shared {alg seq : Nat} {body : List UInt8} (halg : alg ≠ 0)
    (h : authStep e.cfg alg seq body p = .ok q) :
    (seq = 1 ∧ q.chgTxt = challengeText ∧ q.state.authSuccess = p.state.authSuccess ∧
        (q.authSeq = 2 → q.state.authSuccess = false)) ∨
      seq = 3 ∧ p.authSeq = 2 ∧ challengeMatches body p.chgTxt = .ok () ∧ q.state.authSuccess ∧ q.authSeq = 0 := by
  unfold authStep at h
  simp only [halg, false_and, if_false] at h
  split at h
  · cases h
  rename_i hseq
  split at h
  · rename_i h1
    cases h
    refine .inl ⟨h1, rfl, rfl, fun h2 => ?_⟩
    dsimp only at h2 ⊢
    split at h2
    · cases h2
    · rename_i hor
      rw [Bool.or_eq_true, not_or] at hor
      simpa using hor.1
  split at h
  · rename_i h3
    cases hc : challengeMatches body p.chgTxt with
    | error err => rw [hc] at h; cases h
    | ok u => rw [hc] at h; cases h; exact .inr ⟨h3, by omega, rfl, rfl, by simp⟩
  · cases h

theorem onAuth_of_passes (h : Passes keys s e i) :
    ∃ q, q.state.authSuccess ∧ (onAuth e.cfg (e.f.decrypted keys) s).1 = s.modify i fun _ => q := by
  have hstep : ∃ q, q.state.authSuccess ∧
      authStep e.cfg (e.f.decrypted keys).authAlg (e.f.decrypted keys).authSeq (e.f.decrypted keys).body (s.sta i) =
        .ok q := by
    unfold authStep
    simp only [h.waiting, h.seq, h.alg, h.text, false_and, if_false]
    exact ⟨_, rfl, rfl⟩
  obtain ⟨q, hq, hstep⟩ := hstep
  refine ⟨q, hq, ?_⟩
  unfold onAuth
  dsimp only
  rw [← MgmtFrame.authAlg, ← MgmtFrame.authSeq, decrypted_sa, h.apState, h.acl, h.found, if_neg (by simp),
    if_neg (by simp [authMode_shared, h.alg]), if_neg (by simp)]
  dsimp only
  rw [hstep]

/-- Freeing an entry leaves the authentication of every station alone. -/
theorem rtwFreeStainfo_auth : ((rtwFreeStainfo s i).sta j).state = (s.sta j).state ∧
    ((rtwFreeStainfo s i).sta j).authSeq = (s.sta j).authSeq ∧
    ((rtwFreeStainfo s i).sta j).chgTxt = (s.sta j).chgTxt := by
  unfold rtwFreeStainfo
  dsimp only
  split
  · split
    · rcases eq_or_ne j i with rfl | hj
      · exact ⟨by simp [StaPriv.modify], by simp [StaPriv.modify], by simp [StaPriv.modify]⟩
      · exact ⟨by simp [StaPriv.modify, hj], by simp [StaPriv.modify, hj], by simp [StaPriv.modify, hj]⟩
    · exact ⟨rfl, rfl, rfl⟩
  · exact ⟨rfl, rfl, rfl⟩

end

/-! ### Association requests -/

/-- `t` has the stations of `s`, and authentication has not moved on. -/
structure AuthLe (s t : StaPriv) : Prop where
  staHash : t.staHash = s.staHash
  freeStaQueue : t.freeStaQueue = s.freeStaQueue
  success : ∀ j, (t.sta j).state.authSuccess → (s.sta j).state.authSuccess
  authSeq : ∀ j, (t.sta j).authSeq = (s.sta j).authSeq
  chgTxt : ∀ j, (t.sta j).chgTxt = (s.sta j).chgTxt

namespace AuthLe
variable {s t u : StaPriv} {i : StaId} {f : StaInfo → StaInfo}

theorem refl (s : StaPriv) : AuthLe s s := ⟨rfl, rfl, fun _ h => h, fun _ => rfl, fun _ => rfl⟩

theorem trans (h : AuthLe s t) (h' : AuthLe t u) : AuthLe s u where
  staHash := h'.staHash.trans h.staHash
  freeStaQueue := h'.freeStaQueue.trans h.freeStaQueue
  success j hj := h.success j (h'.success j hj)
  authSeq j := (h'.authSeq j).trans (h.authSeq j)
  chgTxt j := (h'.chgTxt j).trans (h.chgTxt j)

theorem modify (hs : (f (s.sta i)).state.authSuccess → (s.sta i).state.authSuccess)
    (hq : (f (s.sta i)).authSeq = (s.sta i).authSeq) (hc : (f (s.sta i)).chgTxt = (s.sta i).chgTxt) :
    AuthLe s (s.modify i f) := by
  refine ⟨rfl, rfl, fun j => ?_, fun j => ?_, fun j => ?_⟩ <;> rcases eq_or_ne j i with rfl | hj
  · rwa [StaPriv.modify_sta_self]
  · rw [StaPriv.modify_sta_of_ne hj]; exact id
  · rwa [StaPriv.modify_sta_self]
  · rw [StaPriv.modify_sta_of_ne hj]
  · rwa [StaPriv.modify_sta_self]
  · rw [StaPriv.modify_sta_of_ne hj]

theorem getUniqueAid (h : getUniqueAid s i = some t) : AuthLe s t := by
  rcases getUniqueAid_cases h with ⟨-, rfl⟩ | ⟨-, ⟨k, -, -, rfl⟩ | ⟨-, rfl⟩⟩
  · exact refl _
  · have hm := modify (s := s) (i := i) (f := fun p => { p with aid := k + 1 }) id rfl rfl
    exact ⟨rfl, rfl, hm.success, hm.authSeq, hm.chgTxt⟩
  · exact modify id rfl rfl

theorem onAssocReq (cfg : ApCfg) (f : MgmtFrame) (s : StaPriv) : AuthLe s (onAssocReq cfg f s).1 := by
  rcases onAssocReq_cases cfg f s with he | ⟨i, st, t, hi, hst, rfl, hres⟩
  · rw [he]
    exact refl s
  have hsucc : st.authSuccess → (s.sta i).state.authSuccess := by
    intro h
    unfold FwState.onAssocReq at hst
    split at hst
    · split at hst <;> cases hst
      exact h
    · cases hst
      cases h
  have hm : AuthLe s (s.modify i fun p => { p with state := st }) := modify hsucc rfl rfl
  rcases hres with ⟨-, he⟩ | ⟨u, hu, he⟩
  · rw [he]
    exact hm.trans (modify id rfl rfl)
  · rw [he]
    exact (hm.trans (getUniqueAid hu)).trans (modify id rfl rfl)

end AuthLe

/-! ### Runs -/

namespace SharedRun
variable {keys : DefKeys} {s : SharedRun} {e : AuthRx} {i j : StaId} {t : StaPriv}

def start (maxNumSta : Nat) : SharedRun := ⟨.start maxNumSta, fun _ => [], []⟩

/-- The frames of the entry `i`, with `f` behind them; a new entry starts with `f`. -/
def logWith (s : SharedRun) (f : MgmtFrame) (i : StaId) : List MgmtFrame :=
  (if i ∈ s.priv.staHash then s.log i else []) ++ [f]

/-- `OnAuth` on a frame that is decrypted if need be. -/
def auth (keys : DefKeys) (s : SharedRun) (e : AuthRx) : SharedRun :=
  let priv := (onAuth e.cfg (e.f.decrypted keys) s.priv).1
  match sender s.priv e.f with
  | none => { s with priv }
  | some i =>
    { priv
      log := Function.update s.log i (s.logWith e.f i)
      reached :=
        if priv.AuthSuccess i ∧ ¬ s.priv.AuthSuccess i then s.reached ++ [s.logWith e.f i] else s.reached }

def next (keys : DefKeys) (s : SharedRun) : SharedEvent → SharedRun
  | .auth e => s.auth keys e
  | .assocReq cfg f => { s with priv := (onAssocReq cfg f s.priv).1 }
  | .freeSta i => if i ∈ s.priv.staHash then { s with priv := rtwFreeStainfo s.priv i } else s

/-- Every station that has reached `WIFI_FW_AUTH_SUCCESS` had answered its challenge. -/
structure AllAnswered (keys : DefKeys) (s : SharedRun) : Prop where
  /-- A station is authenticated by one of the recorded moments. -/
  reached : ∀ i, s.priv.AuthSuccess i → ∃ l ∈ s.reached, l <+: s.log i
  answered : ∀ l ∈ s.reached, Answered keys l

/-- A frame that passes the comparison is a WEP frame with a right ICV and the whole challenge text. -/
def StepOk (keys : DefKeys) (s : SharedRun) : SharedEvent → Prop
  | .auth e => ∀ i, Passes keys s.priv e i → IsAnswer keys e.f
  | _ => True

structure Inv (keys : DefKeys) (s : SharedRun) : Prop where
  nodup : (s.priv.staHash ++ s.priv.freeStaQueue).Nodup
  /-- A station from which sequence 3 is expected has been sent the challenge. -/
  waiting : ∀ i ∈ s.priv.staHash, (s.priv.sta i).authSeq = 2 → (s.priv.sta i).state.authSuccess = false ∧
    (s.priv.sta i).chgTxt = challengeText ∧ ∃ g ∈ s.log i, AsksForChallenge keys g
  reached : ∀ i, s.priv.AuthSuccess i → ∃ l ∈ s.reached, l <+: s.log i

theorem Inv.of_authLe (h : s.Inv keys) (hle : AuthLe s.priv t) : Inv keys { s with priv := t } where
  nodup := by
    rw [hle.staHash, hle.freeStaQueue]
    exact h.nodup
  waiting i hi hq := by
    rw [hle.staHash] at hi
    rw [hle.authSeq] at hq
    obtain ⟨hs, hc, hg⟩ := h.waiting i hi hq
    refine ⟨?_, (hle.chgTxt i).trans hc, hg⟩
    cases ht : (t.sta i).state.authSuccess
    · rfl
    · rw [hle.success i ht] at hs
      cases hs
  reached i hi := h.reached i ⟨hle.staHash ▸ hi.1, hle.success i hi.2⟩

theorem Inv.free (h : s.Inv keys) (hi : i ∈ s.priv.staHash) :
    Inv keys { s with priv := rtwFreeStainfo s.priv i } := by
  have hsub : ∀ j, j ∈ (rtwFreeStainfo s.priv i).staHash → j ∈ s.priv.staHash := fun j hj => by
    rw [StaPriv.rtwFreeStainfo_lists.1] at hj
    exact List.mem_of_mem_erase hj
  refine ⟨StaPriv.nodup_free h.nodup hi, fun j hj hq => ?_, fun j hj => ?_⟩
  · obtain ⟨hst, hseq, hchg⟩ := rtwFreeStainfo_auth (s := s.priv) (i := i) (j := j)
    rw [hseq] at hq
    obtain ⟨hs, hc, hg⟩ := h.waiting j (hsub j hj) hq
    exact ⟨by rw [hst]; exact hs, hchg.trans hc, hg⟩
  · obtain ⟨hst, -⟩ := rtwFreeStainfo_auth (s := s.priv) (i := i) (j := j)
    refine h.reached j ⟨hsub j hj.1, ?_⟩
    rw [← hst]
    exact hj.2

theorem Inv.logged {f : MgmtFrame} (h : s.Inv keys) :
    Inv keys { s with log := Function.update s.log i (s.logWith f i) } := by
  have hpre : ∀ j ∈ s.priv.staHash, s.log j <+: Function.update s.log i (s.logWith f i) j := by
    intro j hj
    rcases eq_or_ne j i with rfl | hne
    · rw [Function.update_self, logWith, if_pos hj]
      exact List.prefix_append ..
    · rw [Function.update_of_ne hne]
  refine ⟨h.nodup, fun j hj hq => ?_, fun j hj => ?_⟩
  · obtain ⟨hs, hc, g, hg, hask⟩ := h.waiting j hj hq
    exact ⟨hs, hc, g, (hpre j hj).subset hg, hask⟩
  · obtain ⟨l, hl, hlog⟩ := h.reached j hj
    exact ⟨l, hl, hlog.trans (hpre j hj.1)⟩

/-- The sender has its entry, and a new one waits for nothing. -/
theorem Inv.found {f : MgmtFrame} (h : s.Inv keys) (hf : FoundIn f s.priv t i) (g : MgmtFrame) :
    Inv keys { s with priv := t, log := Function.update s.log i (s.logWith g i) } ∧ i ∈ t.staHash ∧
      ((t.sta i).authSeq = 2 → rtwGetStainfo s.priv f.sa = some i ∧ t = s.priv) ∧
      ((t.sta i).state.authSuccess → s.priv.AuthSuccess i) := by
  rcases hf with ⟨hi, rfl⟩ | ⟨-, u, hu, rfl⟩
  · have hmem := rtwGetStainfo_mem hi
    exact ⟨h.logged, hmem, fun _ => ⟨hi, rfl⟩, fun hs => ⟨hmem, hs⟩⟩
  · obtain ⟨hnd, hni⟩ := StaPriv.nodup_alloc h.nodup hu
    obtain ⟨-, hu⟩ := rtwAllocStainfo_eq_some hu
    have hlog := h.logged (i := i) (f := g)
    have hmem : ∀ j, j ∈ u.staHash → j ≠ i → j ∈ s.priv.staHash ∧ u.sta j = s.priv.sta j := by
      intro j hj hne
      rw [hu] at hj ⊢
      exact ⟨by simpa [hne] using hj, by simp [hne]⟩
    refine ⟨⟨hnd, fun j hj hq => ?_, fun j hj => ?_⟩, by rw [hu]; simp, fun hq => ?_, fun hs => ?_⟩
    · rcases eq_or_ne j i with rfl | hne
      · simp at hq
      · rw [StaPriv.modify_sta_of_ne hne] at hq ⊢
        obtain ⟨hl, hsta⟩ := hmem j hj hne
        rw [hsta] at hq ⊢
        exact hlog.waiting j hl hq
    · obtain ⟨hj, hs⟩ := hj
      rcases eq_or_ne j i with rfl | hne
      · simp at hs
      · rw [StaPriv.modify_sta_of_ne hne] at hs
        obtain ⟨hl, hsta⟩ := hmem j hj hne
        rw [hsta] at hs
        exact hlog.reached j ⟨hl, hs⟩
    · simp at hq
    · simp at hs

theorem Inv.modify {q : StaInfo} {r : List (List MgmtFrame)} (h : s.Inv keys) (hr : s.reached ⊆ r)
    (hw : q.authSeq = 2 →
      q.state.authSuccess = false ∧ q.chgTxt = challengeText ∧ ∃ g ∈ s.log i, AsksForChallenge keys g)
    (hs : q.state.authSuccess → ∃ l ∈ r, l <+: s.log i) :
    Inv keys { s with priv := s.priv.modify i fun _ => q, reached := r } := by
  refine ⟨h.nodup, fun j hj hq => ?_, fun j hj => ?_⟩
  · rcases eq_or_ne j i with rfl | hne
    · rw [StaPriv.modify_sta_self] at hq ⊢
      exact hw hq
    · rw [StaPriv.modify_sta_of_ne hne] at hq ⊢
      exact h.waiting j hj hq
  · obtain ⟨hl, hst⟩ := hj
    rcases eq_or_ne j i with rfl | hne
    · rw [StaPriv.modify_sta_self] at hst
      exact hs hst
    · rw [StaPriv.modify_sta_of_ne hne] at hst
      obtain ⟨l, hlr, hlog⟩ := h.reached j ⟨hl, hst⟩
      exact ⟨l, hr hlr, hlog⟩

theorem sender_of_found (h : FoundIn (e.f.decrypted keys) s.priv t i) : sender s.priv e.f = some i := by
  unfold sender
  rcases h with ⟨hi, -⟩ | ⟨hnone, u, hu, -⟩
  · rw [decrypted_sa] at hi
    rw [hi]
  · rw [decrypted_sa] at hnone hu
    rw [hnone, hu]
    rfl

/-- A station gets to `WIFI_FW_AUTH_SUCCESS` with a frame that passes, and with no other. -/
theorem Inv.passes_iff (h : s.Inv keys) : Passes keys s.priv e i ↔ sender s.priv e.f = some i ∧
    (onAuth e.cfg (e.f.decrypted keys) s.priv).1.AuthSuccess i ∧ ¬ s.priv.AuthSuccess i := by
  constructor
  · intro hp
    have hmem := rtwGetStainfo_mem hp.found
    obtain ⟨q, hq, he⟩ := onAuth_of_passes hp
    refine ⟨by rw [sender, hp.found], ?_, fun hs => ?_⟩
    · rw [he]
      exact ⟨hmem, by rwa [StaPriv.modify_sta_self]⟩
    · have hst := hs.2
      rw [(h.waiting i hmem hp.waiting).1] at hst
      cases hst
  · rintro ⟨hsend, hafter, hbefore⟩
    rcases onAuth_cases e.cfg (e.f.decrypted keys) s.priv with he | ⟨t, k, hfound, ⟨hap, halg, hacl⟩, hres⟩
    · rw [he] at hafter
      exact absurd hafter hbefore
    obtain rfl : i = k := Option.some.inj (hsend.symm.trans (sender_of_found hfound))
    obtain ⟨-, -, hold, hsucc⟩ := h.found hfound e.f
    rcases hres with he | ⟨q, hq, he⟩
    · rw [he] at hafter
      have hst := hafter.2
      rw [rtwFreeStainfo_auth.1] at hst
      exact absurd (hsucc hst) hbefore
    · rw [he] at hafter
      have hst := hafter.2
      rw [StaPriv.modify_sta_self] at hst
      have halg : (e.f.decrypted keys).authAlg ≠ 0 := fun h0 => halg ⟨h0, authMode_shared e⟩
      rcases authStep_shared halg hq with ⟨-, -, hsame, -⟩ | ⟨hseq, hwait, htext, -, -⟩
      · rw [hsame] at hst
        exact absurd (hsucc hst) hbefore
      · obtain ⟨hget, rfl⟩ := hold hwait
        rw [decrypted_sa] at hget hacl
        exact ⟨hap, hacl, hget, hwait, halg, hseq, htext⟩

theorem Inv.auth (h : s.Inv keys) (e : AuthRx) : (s.auth keys e).Inv keys := by
  unfold SharedRun.auth
  dsimp only
  rcases onAuth_cases e.cfg (e.f.decrypted keys) s.priv with he | ⟨t, i, hfound, ⟨-, halg, -⟩, hres⟩
  · rw [he]
    split
    · exact h
    · rw [if_neg (fun hi => hi.2 hi.1)]
      exact h.logged
  obtain ⟨hinv, hi, hold, hsucc⟩ := h.found hfound e.f
  rw [sender_of_found hfound]
  dsimp only
  rcases hres with he | ⟨q, hq, he⟩
  · have hnot : ¬ ((rtwFreeStainfo t i).AuthSuccess i ∧ ¬ s.priv.AuthSuccess i) := by
      rintro ⟨hafter, hbefore⟩
      have hst := hafter.2
      rw [rtwFreeStainfo_auth.1] at hst
      exact hbefore (hsucc hst)
    rw [he, if_neg hnot]
    exact hinv.free hi
  · have halg : (e.f.decrypted keys).authAlg ≠ 0 := fun h0 => halg ⟨h0, authMode_shared e⟩
    have hlast : e.f ∈ s.logWith e.f i := by simp [logWith]
    rw [he]
    refine hinv.modify ?_ (fun hq2 => ?_) (fun hst => ?_)
    · split
      · exact List.subset_append_left ..
      · exact List.Subset.refl _
    · rcases authStep_shared halg hq with ⟨hseq, hc, -, hs⟩ | ⟨-, -, -, -, hq0⟩
      · exact ⟨hs hq2, hc, e.f, by dsimp only; rwa [Function.update_self], halg, hseq⟩
      · rw [hq0] at hq2
        cases hq2
    · dsimp only
      rw [Function.update_self]
      by_cases hbefore : s.priv.AuthSuccess i
      · obtain ⟨l, hl, hpre⟩ := h.reached i hbefore
        rw [if_neg (fun hc => hc.2 hbefore), logWith, if_pos hbefore.1]
        exact ⟨l, hl, hpre.trans (List.prefix_append ..)⟩
      · rw [if_pos ⟨⟨hi, by rwa [StaPriv.modify_sta_self]⟩, hbefore⟩]
        exact ⟨_, List.mem_append_right _ (List.mem_singleton_self _), List.prefix_refl _⟩

theorem Inv.next (h : s.Inv keys) (ev : SharedEvent) : (s.next keys ev).Inv keys := by
  cases ev with
  | auth e => exact h.auth e
  | assocReq cfg f => exact h.of_authLe (AuthLe.onAssocReq cfg f s.priv)
  | freeSta i =>
    unfold SharedRun.next
    dsimp only
    split
    · rename_i hi
      exact h.free hi
    · exact h

theorem Inv.start (maxNumSta : Nat) : (start maxNumSta).Inv keys := by
  have hnew : ∀ i, ((StaPriv.start maxNumSta).sta i).authSeq = 0 ∧
      ((StaPriv.start maxNumSta).sta i).state.authSuccess = false := by
    intro i
    unfold StaPriv.start
    cases ha : rtwAllocStainfo (StaPriv.init maxNumSta) bcAddr with
    | none => exact ⟨rfl, rfl⟩
    | some r =>
      obtain ⟨-, ht⟩ := rtwAllocStainfo_eq_some (t := r.1) (i := r.2) ha
      show (r.1.sta i).authSeq = 0 ∧ (r.1.sta i).state.authSuccess = false
      rw [ht]
      rcases eq_or_ne i r.2 with rfl | hi
      · simp [rtwInitStainfo]
      · simp [hi, StaPriv.init, rtwInitStainfo]
  refine ⟨(StaPriv.Inv.start maxNumSta).nodup, fun i hi hq => ?_, fun i hi => ?_⟩
  · rw [SharedRun.start, (hnew i).1] at hq
    cases hq
  · have hst := hi.2
    rw [SharedRun.start, (hnew i).2] at hst
    cases hst

/-- What is recorded in one step: nothing, unless a frame passes. -/
theorem Inv.reached_auth (h : s.Inv keys) : (∀ i, ¬ Passes keys s.priv e i) ∧ (s.auth keys e).reached = s.reached ∨
    ∃ i, Passes keys s.priv e i ∧ (s.auth keys e).reached = s.reached ++ [s.log i ++ [e.f]] := by
  unfold SharedRun.auth
  dsimp only
  split
  · rename_i hnone
    refine .inl ⟨fun i hp => ?_, rfl⟩
    rw [(h.passes_iff.1 hp).1] at hnone
    cases hnone
  · rename_i i hsome
    split
    · rename_i hgrows
      have hp := h.passes_iff.2 ⟨hsome, hgrows⟩
      refine .inr ⟨i, hp, ?_⟩
      rw [logWith, if_pos (rtwGetStainfo_mem hp.found)]
    · rename_i hsame
      refine .inl ⟨fun j hp => ?_, rfl⟩
      obtain ⟨hj, hgrows⟩ := h.passes_iff.1 hp
      obtain rfl : i = j := Option.some.inj (hsome.symm.trans hj)
      exact hsame hgrows

theorem answered_append {log : List MgmtFrame} {f : MgmtFrame} (hask : ∃ g ∈ log, AsksForChallenge keys g) :
    Answered keys (log ++ [f]) ↔ IsAnswer keys f := by
  constructor
  · rintro ⟨before, g, heq, hg, -⟩
    obtain ⟨-, h⟩ := List.append_inj' heq rfl
    obtain rfl : f = g := by simpa using h
    exact hg
  · intro hf
    exact ⟨log, f, rfl, hf, hask⟩

theorem Inv.answered_next (h : s.Inv keys) (hs : ∀ l ∈ s.reached, Answered keys l) (ev : SharedEvent) :
    (∀ l ∈ (s.next keys ev).reached, Answered keys l) ↔ s.StepOk keys ev := by
  have hother : ∀ ev', (s.next keys ev').reached = s.reached → s.StepOk keys ev' →
      ((∀ l ∈ (s.next keys ev').reached, Answered keys l) ↔ s.StepOk keys ev') := by
    intro ev' hsame hok
    rw [hsame]
    exact iff_of_true hs hok
  cases ev with
  | assocReq cfg f => exact hother _ rfl trivial
  | freeSta i =>
    refine hother _ ?_ trivial
    unfold SharedRun.next
    dsimp only
    split <;> rfl
  | auth e =>
    rcases h.reached_auth (e := e) with ⟨hno, hsame⟩ | ⟨i, hp, hgrows⟩
    · exact hother _ hsame fun i hp => absurd hp (hno i)
    · obtain ⟨-, -, hask⟩ := h.waiting i (rtwGetStainfo_mem hp.found) hp.waiting
      show (∀ l ∈ (s.auth keys e).reached, _) ↔ _
      rw [hgrows]
      constructor
      · intro hall j _
        exact (answered_append hask).1 (hall _ (by simp))
      · intro hok l hl
        rcases List.mem_append.1 hl with hl | hl
        · exact hs l hl
        · rw [List.mem_singleton.1 hl]
          exact (answered_append hask).2 (hok i hp)

theorem reached_subset (ev : SharedEvent) : s.reached ⊆ (s.next keys ev).reached := by
  cases ev with
  | assocReq cfg f => exact List.Subset.refl _
  | freeSta i =>
    unfold SharedRun.next
    dsimp only
    split <;> exact List.Subset.refl _
  | auth e =>
    show s.reached ⊆ (s.auth keys e).reached
    unfold SharedRun.auth
    dsimp only
    split
    · exact List.Subset.refl _
    · dsimp only
      split
      · exact List.subset_append_left ..
      · exact List.Subset.refl _

/-- Whatever frames arrive in whatever order: every station that has been authenticated had answered its
challenge, exactly when no frame passed the comparison without being a WEP frame with a right ICV and
the whole challenge text. -/
theorem answered_run (keys : DefKeys) (maxNumSta : Nat) (evs : List SharedEvent) :
    (Machine.run (next keys) (start maxNumSta) evs).AllAnswered keys ↔
      Machine.RunOk (next keys) (StepOk keys) (start maxNumSta) evs := by
  have hinv : Inv keys (Machine.run (next keys) (start maxNumSta) evs) :=
    Machine.run_invariant (fun _ ev h => h.next ev) (Inv.start maxNumSta) evs
  have hiff : (Machine.run (next keys) (start maxNumSta) evs).AllAnswered keys ↔
      ∀ l ∈ (Machine.run (next keys) (start maxNumSta) evs).reached, Answered keys l := by
    constructor
    · exact AllAnswered.answered
    · exact fun h => ⟨hinv.reached, h⟩
  rw [hiff]
  exact Machine.run_iff_runOk (P := fun s => ∀ l ∈ s.reached, Answered keys l) (fun _ ev h => h.next ev)
    (fun _ ev h hs => h.answered_next hs ev) (fun _ ev h l hl => h l (reached_subset ev hl))
    (Inv.start maxNumSta) (fun l hl => absurd hl (by simp [start])) evs

/-- An AP that asks for the shared key. -/
def sharedAp : ApCfg := { StaPriv.openAp with dot11AuthAlgrthm := 1, dot11PrivacyAlgrthm := .wep40 }

/-- A frame of algorithm 1 in the clear. -/
def clearAuth (seq : UInt8) (rest : List UInt8) : MgmtFrame :=
  ⟨StaPriv.staAddr 1, false, false, [1, 0, seq, 0, 0, 0] ++ rest⟩

/-- Four bytes take the place of the IV, and the challenge text follows in the clear. -/
def clearAnswer : MgmtFrame := clearAuth 3 ([0, 0, 0, 0, 16, 128] ++ challengeText)

/-- A station that knows no key authenticates with two frames in the clear. -/
theorem not_allAnswered_clear : ¬ (Machine.run (next fun _ => [1, 2, 3, 4, 5]) (start 32)
    [.auth ⟨sharedAp, rfl, clearAuth 1 []⟩, .auth ⟨sharedAp, rfl, clearAnswer⟩]).AllAnswered
      fun _ => [1, 2, 3, 4, 5] := by
  intro h
  obtain ⟨before, g, heq, hg, -⟩ := h.answered ([clearAuth 1 []] ++ [clearAnswer]) (by decide +kernel)
  obtain ⟨-, hlast⟩ := List.append_inj' heq rfl
  obtain rfl : clearAnswer = g := by simpa using hlast
  have hpriv := hg.privacy
  cases hpriv

end SharedRun

/-! ### Honest stations -/

/-- The third frame of a station that has the key. -/
def honestAnswer (keys : DefKeys) (sa : MacAddr) (iv : List UInt8) : MgmtFrame :=
  ⟨sa, false, true, rtwWepEncryptBody keys iv ([1, 0, 3, 0, 0, 0, 16, 128] ++ challengeText)⟩

theorem cleartext_encrypt {keys : DefKeys} {f : MgmtFrame} {iv payload : List UInt8} (hiv : iv.length = 4)
    (hf : f.body = rtwWepEncryptBody keys iv payload) : f.cleartext keys = payload := by
  unfold MgmtFrame.cleartext
  rw [hf, rtwWepDecrypt_encrypt keys _ hiv]
  have hlen : (crcBytes (getcrc32 payload)).length = 4 := rfl
  dsimp only
  rw [List.drop_left' hiv, List.length_append, hlen, Nat.add_sub_cancel, List.take_left' rfl]

theorem challengeMatches_append {before text behind : List UInt8} (hb : before.length = 10)
    (ht : text.length = 128) : challengeMatches (before ++ 16 :: 128 :: (text ++ behind)) text = .ok () := by
  have hie : rtwGetIe (16 :: 128 :: (text ++ behind)) 16 ((before ++ 16 :: 128 :: (text ++ behind)).length - 10) =
      some (0, 128) := by
    rw [List.length_append, hb, Nat.add_sub_cancel_left, List.length_cons, rtwGetIe, if_neg (by omega),
      rtwGetIeLoop]
    rfl
  unfold challengeMatches
  rw [List.drop_left' hb, hie]
  dsimp only
  rw [if_neg (by decide), if_pos]
  rw [List.all_eq_true]
  intro i hi
  rw [List.mem_range] at hi
  rw [decide_eq_true_iff, byteAt, byteAt, List.getElem?_append_right (by omega), hb,
    show 10 + 0 + 2 + i - 10 = i + 2 by omega]
  simp only [List.getElem?_cons_succ]
  rw [List.getElem?_append_left (by omega)]

/-- A station that has the key answers the challenge, and passes. -/
theorem isAnswer_honestAnswer (keys : DefKeys) (sa : MacAddr) {iv : List UInt8} (hiv : iv.length = 4) :
    IsAnswer keys (honestAnswer keys sa iv) ∧
      challengeMatches ((honestAnswer keys sa iv).decrypted keys).body challengeText = .ok () := by
  have hdec := rtwWepDecrypt_encrypt keys ([1, 0, 3, 0, 0, 0, 16, 128] ++ challengeText) hiv
  have hbody : ((honestAnswer keys sa iv).decrypted keys).body = iv ++ ([1, 0, 3, 0, 0, 0, 16, 128] ++ challengeText ++
      crcBytes (getcrc32 ([1, 0, 3, 0, 0, 0, 16, 128] ++ challengeText))) := congrArg Prod.fst hdec
  refine ⟨⟨rfl, congrArg Prod.snd hdec, ?_, ?_⟩, ?_⟩
  · obtain ⟨a, b, c, d, rfl⟩ := List.length_eq_four.1 hiv
    rw [MgmtFrame.authSeq, hbody]
    rfl
  · rw [cleartext_encrypt (f := honestAnswer keys sa iv) hiv rfl]
    decide +kernel
  · have hsplit : ∀ crc : List UInt8, iv ++ ([1, 0, 3, 0, 0, 0, 16, 128] ++ challengeText ++ crc) =
        (iv ++ [1, 0, 3, 0, 0, 0]) ++ 16 :: 128 :: (challengeText ++ crc) := by
      intro crc
      simp
    have htext : challengeText.length = 128 := List.length_replicate
    rw [hbody, hsplit]
    exact challengeMatches_append (by rw [List.length_append, hiv]; rfl) htext

end Rtw
