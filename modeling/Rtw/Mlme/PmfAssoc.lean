import Rtw.Lib.Run
import Rtw.Mlme.ApLists
import Rtw.Security.Bip

/-!
# Forged management frames

Frames that carry the address of an associated station and are not protected, against a build with
`CONFIG_IEEE80211W` and the BIP key installed. `validate_80211w_mgmt` drops deauthentication, disassociation
and robust action frames; authentication and association requests reach their handlers. An authentication
frame that is refused frees the station, and an association request that is refused, or that says something
new, takes the association away or writes over what is recorded. `MlmeAp.survives_run_iff` says that nothing
else harms it.
-/

namespace Rtw
open Ccm

/-- A received management frame: the bytes, the body that `rtw_wep_decrypt` leaves of a frame with the
privacy bit, and whether `decryptor` gives it back. -/
structure MgmtRx extends BipFrame where
  cleartext : List UInt8
  decrypts : Bool

/-- The subtypes that the station's own handlers are for, by the bits of `GetFrameSubType`. -/
inductive MgmtSubtype where
  | assocReq | reassocReq | disassoc | auth | deauth | action | other
  deriving DecidableEq

namespace MgmtRx
variable (f : MgmtRx)

def subtype : MgmtSubtype :=
  match byteAt f.pframe 0 &&& 0xfc with
  | 0x00 => .assocReq
  | 0x20 => .reassocReq
  | 0xa0 => .disassoc
  | 0xb0 => .auth
  | 0xc0 => .deauth
  | 0xd0 => .action
  | _ => .other

def addr (off : Nat) : MacAddr := .ofFn fun i => f.pframe.getD (off + i) 0

/-- `GetPrivacy` -/
def privacy : Bool := (byteAt f.pframe 1).testBit 6

/-- `GetRetry` -/
def retry : Bool := (byteAt f.pframe 1).testBit 3

/-- `GetSequence` -/
def sequence : Nat := (byteAt f.pframe 22 + 256 * byteAt f.pframe 23) / 16

/-- The category of an action frame. -/
def category : Nat := byteAt f.pframe 24

/-- The frame as `OnAuth` finds it. -/
def authFrame : MgmtFrame := ⟨f.addr 10, false, f.privacy, if f.privacy then f.cleartext else f.body⟩

/-- The frame as `OnAssocReq` finds it. -/
def assocFrame : MgmtFrame := ⟨f.addr 10, decide (f.subtype = .reassocReq), f.privacy, f.body⟩

end MgmtRx

/-- The categories of action frames that are not robust: public, HT, unprotected WNM, self protected and
P2P. -/
def notRobust : List Nat := [4, 7, 11, 15, 0x7f]

/-- The configuration of the access point: its addresses, the key for group management frames and the last
packet number under it. -/
structure PmfCfg extends BssCfg, StaTimeouts where
  myid : MacAddr
  bssid : MacAddr
  igtk : Igtk
  ipnRx : Nat

namespace MlmeAp

section
variable (E : AesKey → Block → Block) (cfg : PmfCfg)

/-- `validate_80211w_mgmt` with the BIP key installed. -/
def validate80211wMgmt (a : MlmeAp) (f : MgmtRx) : Bool :=
  let mcast := (f.addr 4).isMcast
  let leave := f.subtype = .deauth || f.subtype = .disassoc
  if f.privacy && !mcast && (leave || f.subtype = .action) then f.decrypts
  else if mcast && leave then (rtwBipVerify E cfg.igtk cfg.ipnRx f.toBipFrame).1 = .success
  else if f.subtype = .action && (rtwGetStainfo a.pool (f.addr 10)).any a.bpairwiseKeyInstalled then
    decide (f.category ∈ notRobust)
  else !leave

/-- `mgt_dispatcher` sees the frame as a duplicate. -/
def isDuplicate (a : MlmeAp) (f : MgmtRx) : Bool :=
  (rtwGetStainfo a.pool (f.addr 10)).any fun i => f.retry && decide (f.sequence = a.rxMgmtFrameSeqNum i)

/-- The frame gets to its handler. -/
def Reaches (a : MlmeAp) (f : MgmtRx) : Prop :=
  a.validate80211wMgmt E cfg f ∧ (f.addr 4 = cfg.myid ∨ f.addr 4 = bcAddr) ∧ ¬ a.isDuplicate f

instance (a : MlmeAp) (f : MgmtRx) : Decidable (a.Reaches E cfg f) := inferInstanceAs (Decidable (_ ∧ _ ∧ _))

/-- `mgt_dispatcher` remembers the sequence number of a known station's frame. -/
def noteSequence (a : MlmeAp) (f : MgmtRx) : MlmeAp :=
  match rtwGetStainfo a.pool (f.addr 10) with
  | none => a
  | some i => { a with rxMgmtFrameSeqNum := Function.update a.rxMgmtFrameSeqNum i f.sequence }

/-- The handlers of `mlme_sta_tbl`; those of other subtypes, and of the action frames that get through, are
not modelled. -/
def handle (a : MlmeAp) (f : MgmtRx) : MlmeAp :=
  match f.subtype with
  | .auth => a.onAuth true cfg.toApCfg cfg.toStaTimeouts f.authFrame
  | .assocReq | .reassocReq => a.onAssocReq true cfg.toBssCfg cfg.toStaTimeouts f.assocFrame
  | .deauth | .disassoc => a.onDeAuth (f.addr 16 = cfg.bssid) (f.addr 10)
  | .action | .other => a

/-- `validate_80211w_mgmt`, then `mgt_dispatcher`. -/
def recvMgmt (a : MlmeAp) (f : MgmtRx) : MlmeAp :=
  if a.Reaches E cfg f then (a.noteSequence f).handle cfg f else a

end

/-- The station `i` with the address `addr` is associated and has its pairwise key. -/
structure Protected (addr : MacAddr) (i : StaId) (a : MlmeAp) : Prop where
  found : rtwGetStainfo a.pool addr = some i
  nodup : a.pool.staHash.Nodup
  key : a.bpairwiseKeyInstalled i = true
  assocSuccess : (a.pool.sta i).state.assocSuccess = true
  aid : 1 ≤ (a.pool.sta i).aid
  onList : i ∈ a.asocList

/-- The association that `i` had in `a` is there in `b`, with all that is recorded. -/
structure Survives (i : StaId) (a b : MlmeAp) : Prop where
  live : i ∈ b.pool.staHash
  aid : (b.pool.sta i).aid = (a.pool.sta i).aid
  onList : i ∈ b.asocList
  assocSuccess : (b.pool.sta i).state.assocSuccess = true
  cap : b.cap i = a.cap i
  assoc : b.assoc i = a.assoc i

/-- A frame with the transmitter address `addr` that nothing protects. -/
structure Forged (addr : MacAddr) (f : MgmtRx) : Prop where
  sender : f.addr 10 = addr
  subtype : f.subtype ≠ .other
  unprotected : f.subtype = .deauth ∨ f.subtype = .disassoc ∨ f.subtype = .action →
    f.privacy = false ∧ f.mme = none
  robust : f.subtype = .action → f.category ∉ notRobust

/-- What a frame that gets to a handler of its subtype does not do: an authentication frame is refused
before the station is looked up, or accepted; an association request is too short, or it passes every check
and repeats what is recorded. -/
def HarmlessAs (cfg : PmfCfg) (i : StaId) (a : MlmeAp) (f : MgmtRx) : MgmtSubtype → Prop
  | .auth => Ap.AuthConsidered cfg.toApCfg f.authFrame → ¬ AuthRejected cfg.toApCfg f.authFrame (a.pool.sta i)
  | .assocReq | .reassocReq => cfg.apState → f.assocFrame.ieOffset ≤ f.body.length →
    assocReqStatus cfg.toApCfg f.assocFrame.ies = statsSuccessful ∧
      assocReqCap cfg.toBssCfg f.assocFrame (a.cap i) = a.cap i ∧
      assocReqAssoc cfg.toApCfg f.assocFrame (a.assoc i) = a.assoc i
  | .deauth | .disassoc | .action | .other => True

/-- A frame that is dropped is harmless. -/
def ForgeOk (E : AesKey → Block → Block) (cfg : PmfCfg) (i : StaId) (a : MlmeAp) (f : MgmtRx) : Prop :=
  a.Reaches E cfg f → HarmlessAs cfg i a f f.subtype

instance (cfg : PmfCfg) (i : StaId) (a : MlmeAp) (f : MgmtRx) : (s : MgmtSubtype) → Decidable (HarmlessAs cfg i a f s)
  | .auth => inferInstanceAs (Decidable (_ → ¬ _))
  | .assocReq | .reassocReq => inferInstanceAs (Decidable (_ → _ → _ ∧ _ ∧ _))
  | .deauth | .disassoc | .action | .other => .isTrue trivial

instance (E : AesKey → Block → Block) (cfg : PmfCfg) (i : StaId) (a : MlmeAp) (f : MgmtRx) :
    Decidable (ForgeOk E cfg i a f) := inferInstanceAs (Decidable (_ → _))

section
variable {E : AesKey → Block → Block} {cfg : PmfCfg} {addr : MacAddr} {a b : MlmeAp} {i : StaId} {f : MgmtRx}

/-- The filter stops what asks the station to leave, and robust action frames. -/
theorem not_reaches (h : Protected addr i a) (hf : Forged addr f)
    (hs : f.subtype = .deauth ∨ f.subtype = .disassoc ∨ f.subtype = .action) : ¬ a.Reaches E cfg f := by
  obtain ⟨hpriv, hmme⟩ := hf.unprotected hs
  have hbip : (rtwBipVerify E cfg.igtk cfg.ipnRx f.toBipFrame).1 ≠ .success := by
    unfold rtwBipVerify
    rw [hmme]
    split
    · simp
    · simp
  rintro ⟨hval, -, -⟩
  unfold validate80211wMgmt at hval
  dsimp only at hval
  rw [hpriv, if_neg (by simp), hf.sender, h.found] at hval
  rcases hs with hs | hs | hs
  · rw [hs] at hval
    split at hval
    · exact hbip (by simpa using hval)
    · simp at hval
  · rw [hs] at hval
    split at hval
    · exact hbip (by simpa using hval)
    · simp at hval
  · rw [hs, if_neg (by simp), if_pos (by simp [h.key])] at hval
    exact hf.robust hs (by simpa using hval)

theorem Protected.locked (h : Protected addr i a) : a.locked true i = true := by
  unfold MlmeAp.locked
  rw [h.key]
  rfl

theorem Protected.congr (h : Protected addr i a) (he : SameEntries a.pool b.pool)
    (hk : b.bpairwiseKeyInstalled = a.bpairwiseKeyInstalled) (hl : b.asocList = a.asocList)
    (hst : (b.pool.sta i).state.assocSuccess = true) (haid : 1 ≤ (b.pool.sta i).aid) : Protected addr i b := by
  refine ⟨?_, ?_, ?_, hst, haid, ?_⟩
  · rw [← h.found]
    unfold rtwGetStainfo
    rw [he.staHash]
    simp only [he.hwaddr]
  · rw [he.staHash]
    exact h.nodup
  · rw [hk]
    exact h.key
  · rw [hl]
    exact h.onList

theorem Survives.trans {c : MlmeAp} (h : Survives i a b) : Survives i a c ↔ Survives i b c := by
  constructor
  · exact fun hc => ⟨hc.live, hc.aid.trans h.aid.symm, hc.onList, hc.assocSuccess, hc.cap.trans h.cap.symm,
      hc.assoc.trans h.assoc.symm⟩
  · exact fun hc => ⟨hc.live, hc.aid.trans h.aid, hc.onList, hc.assocSuccess, hc.cap.trans h.cap,
      hc.assoc.trans h.assoc⟩

theorem Protected.survives (h : Protected addr i a) : Survives i a a :=
  ⟨rtwGetStainfo_mem h.found, rfl, h.onList, h.assocSuccess, rfl, rfl⟩

/-! ### The two handlers that a forged frame gets to -/

theorem onAuth_survives {c : ApCfg} {t : StaTimeouts} {g : MgmtFrame} (h : Protected addr i a) (hsa : g.sa = addr) :
    (Survives i a (a.onAuth true c t g) →
        Ap.AuthConsidered c g → ¬ AuthRejected c g (a.pool.sta i)) ∧
      ((Ap.AuthConsidered c g → ¬ AuthRejected c g (a.pool.sta i)) →
        Protected addr i (a.onAuth true c t g) ∧ Survives i a (a.onAuth true c t g)) := by
  have hg : rtwGetStainfo a.pool g.sa = some i := hsa ▸ h.found
  by_cases hcons : Ap.AuthConsidered c g
  · by_cases hrej : AuthRejected c g (a.pool.sta i)
    · obtain ⟨age, he⟩ := onAuth_of_rejected (t := t) hg h.locked hcons hrej
      refine ⟨fun hs => ?_, fun hn => absurd hrej (hn hcons)⟩
      rw [he] at hs
      have hlive : i ∈ a.pool.staHash.erase i := by
        rw [← StaPriv.rtwFreeStainfo_lists.1]
        exact hs.live
      exact absurd hlive h.nodup.not_mem_erase
    · refine ⟨fun _ _ => hrej, fun _ => ?_⟩
      obtain ⟨age, p, he, hw, haid, hst⟩ := onAuth_of_accepted (t := t) hg h.locked hcons hrej
      rw [he]
      have hself : (a.pool.modify i fun _ => p).sta i = p := StaPriv.modify_sta_self
      have hassoc : p.state.assocSuccess = true := by
        rw [hst]
        exact h.assocSuccess
      have hent : SameEntries a.pool (a.pool.modify i fun _ => p) := .modify hw
      have hlive : i ∈ a.pool.staHash := rtwGetStainfo_mem h.found
      refine ⟨h.congr hent rfl rfl ?_ ?_, hlive, ?_, h.onList, ?_, rfl, rfl⟩
      · rw [hself]
        exact hassoc
      · rw [hself, haid]
        exact h.aid
      · rw [hself]
        exact haid
      · rw [hself]
        exact hassoc
  · rw [onAuth_eq, if_neg hcons]
    exact ⟨fun _ hc => absurd hc hcons, fun _ => ⟨h, h.survives⟩⟩

theorem getUniqueAid_of_pos {s : StaPriv} (h : 1 ≤ (s.sta i).aid) : getUniqueAid s i = some s := if_pos h

theorem onAssocReq_survives {c : BssCfg} {t : StaTimeouts} {g : MgmtFrame} (h : Protected addr i a)
    (hsa : g.sa = addr) :
    (Survives i a (a.onAssocReq true c t g) → c.apState → g.ieOffset ≤ g.body.length →
        assocReqStatus c.toApCfg g.ies = statsSuccessful ∧ assocReqCap c g (a.cap i) = a.cap i ∧
          assocReqAssoc c.toApCfg g (a.assoc i) = a.assoc i) ∧
      ((c.apState → g.ieOffset ≤ g.body.length →
        assocReqStatus c.toApCfg g.ies = statsSuccessful ∧ assocReqCap c g (a.cap i) = a.cap i ∧
          assocReqAssoc c.toApCfg g (a.assoc i) = a.assoc i) →
        Protected addr i (a.onAssocReq true c t g) ∧ Survives i a (a.onAssocReq true c t g)) := by
  have hg : rtwGetStainfo a.pool g.sa = some i := hsa ▸ h.found
  by_cases hlook : c.apState ∧ g.ieOffset ≤ g.body.length
  · have hsta : assocReqSta c.toApCfg g a.pool = some i := by
      unfold assocReqSta
      rw [if_neg (by simp [hlook.1]), if_neg (Nat.not_lt.2 hlook.2), hg, Option.filter_some, if_pos]
      unfold FwState.onAssocReq
      rw [h.assocSuccess]
      split <;> rfl
    rw [onAssocReq_of_key hsta (by simp [h.key])]
    obtain ⟨-, st, u, -, rfl, ⟨hacc, -, he⟩ | ⟨hacc, -, v, hv, he⟩⟩ := onAssocReq_of_sta hsta
    · refine ⟨fun hs => ?_, fun hn => ?_⟩
      · have haid := hs.aid
        dsimp only at haid
        rw [he, StaPriv.modify_sta_self] at haid
        have := h.aid
        dsimp only at haid
        omega
      · refine absurd ⟨(hn hlook.1 hlook.2).1, ?_⟩ hacc
        rw [getUniqueAid_of_pos h.aid]
        simp
    · have haid : v = a.pool.modify i fun p => { p with state := st } := by
        rw [getUniqueAid_of_pos (by rw [StaPriv.modify_sta_self]; exact h.aid)] at hv
        exact (Option.some.inj hv).symm
      refine ⟨fun hs _ _ => ⟨hacc.1, ?_, ?_⟩, fun hn => ?_⟩
      · have hcap := hs.cap
        dsimp only at hcap
        rwa [Function.update_self] at hcap
      · have hassoc := hs.assoc
        dsimp only at hassoc
        rwa [Function.update_self] at hassoc
      · obtain ⟨-, hcap, hassoc⟩ := hn hlook.1 hlook.2
        have hent := onAssocReq_entries c.toApCfg g a.pool
        have hself : (Rtw.onAssocReq c.toApCfg g a.pool).1.sta i =
            { a.pool.sta i with state := { st with assocState := false, assocSuccess := true } } := by
          rw [he, StaPriv.modify_sta_self, haid, StaPriv.modify_sta_self]
        refine ⟨h.congr hent rfl rfl ?_ ?_, ?_, ?_, h.onList, ?_, ?_, ?_⟩
        · dsimp only
          rw [hself]
        · dsimp only
          rw [hself]
          exact h.aid
        · dsimp only
          rw [hent.staHash]
          exact rtwGetStainfo_mem h.found
        · dsimp only
          rw [hself]
        · dsimp only
          rw [hself]
        · dsimp only
          rw [Function.update_self, hcap]
        · dsimp only
          rw [Function.update_self, hassoc]
  · have hsta : assocReqSta c.toApCfg g a.pool = none := by
      unfold assocReqSta
      by_cases hap : c.apState = true
      · rw [if_neg (by simp [hap]), if_pos (Nat.not_le.1 fun hle => hlook ⟨hap, hle⟩)]
      · rw [if_pos (by simpa using hap)]
    unfold MlmeAp.onAssocReq
    rw [hsta]
    exact ⟨fun _ h1 h2 => absurd ⟨h1, h2⟩ hlook, fun _ => ⟨h, h.survives⟩⟩

/-! ### Runs -/

theorem noteSequence_eq (a : MlmeAp) (f : MgmtRx) :
    ∃ rxMgmtFrameSeqNum, a.noteSequence f = { a with rxMgmtFrameSeqNum } := by
  unfold noteSequence
  split
  · exact ⟨_, rfl⟩
  · exact ⟨_, rfl⟩

/-- The association survives a frame exactly if the frame is harmless. -/
theorem recvMgmt_survives (h : Protected addr i a) (hf : Forged addr f) :
    (Survives i a (a.recvMgmt E cfg f) → ForgeOk E cfg i a f) ∧
      (ForgeOk E cfg i a f → Protected addr i (a.recvMgmt E cfg f) ∧ Survives i a (a.recvMgmt E cfg f)) := by
  unfold recvMgmt ForgeOk
  by_cases hr : a.Reaches E cfg f
  · rw [if_pos hr]
    obtain ⟨r, hr'⟩ := noteSequence_eq a f
    rw [hr']
    have hb : Protected addr i { a with rxMgmtFrameSeqNum := r } :=
      h.congr (.refl _) rfl rfl h.assocSuccess h.aid
    have hsurv : ∀ c, Survives i { a with rxMgmtFrameSeqNum := r } c ↔ Survives i a c :=
      fun c => (Survives.trans (a := a) (b := { a with rxMgmtFrameSeqNum := r })
        ⟨rtwGetStainfo_mem h.found, rfl, h.onList, h.assocSuccess, rfl, rfl⟩).symm
    unfold handle
    cases hs : f.subtype with
    | auth =>
      have hauth := onAuth_survives (c := cfg.toApCfg) (t := cfg.toStaTimeouts) (g := f.authFrame) hb hf.sender
      rw [hsurv] at hauth
      exact ⟨fun hsv _ => hauth.1 hsv, fun hok => hauth.2 (hok hr)⟩
    | assocReq =>
      have hassoc := onAssocReq_survives (c := cfg.toBssCfg) (t := cfg.toStaTimeouts) (g := f.assocFrame) hb hf.sender
      rw [hsurv] at hassoc
      exact ⟨fun hsv _ => hassoc.1 hsv, fun hok => hassoc.2 (hok hr)⟩
    | reassocReq =>
      have hassoc := onAssocReq_survives (c := cfg.toBssCfg) (t := cfg.toStaTimeouts) (g := f.assocFrame) hb hf.sender
      rw [hsurv] at hassoc
      exact ⟨fun hsv _ => hassoc.1 hsv, fun hok => hassoc.2 (hok hr)⟩
    | deauth => exact absurd hr (not_reaches h hf (.inl hs))
    | disassoc => exact absurd hr (not_reaches h hf (.inr (.inl hs)))
    | action => exact absurd hr (not_reaches h hf (.inr (.inr hs)))
    | other => exact absurd hs hf.subtype
  · rw [if_neg hr]
    exact ⟨fun _ hn => absurd hn hr, fun _ => ⟨h, h.survives⟩⟩

/-- Frames of the station `02:00:00:00:00:01` for the access point `02:00:00:00:00:00`. -/
def forgedFrame (fc : UInt8) (body : List UInt8) : MgmtRx where
  pframe := [fc, 0, 0, 0, 2, 0, 0, 0, 0, 0] ++ (StaPriv.staAddr 1).toList ++ [2, 0, 0, 0, 0, 0, 0, 0] ++ body
  aadAlloc := true
  ctxAlloc := true
  cleartext := []
  decrypts := false

/-- An open access point. -/
def openPmf : PmfCfg where
  toBssCfg := { StaPriv.openAp with qosOption := true }
  toStaTimeouts := ⟨3, 3, 60⟩
  myid := #v[2, 0, 0, 0, 0, 0]
  bssid := #v[2, 0, 0, 0, 0, 0]
  igtk := ⟨4, .replicate 16 0⟩
  ipnRx := 0

/-- A request for the SSID of `openPmf` with the rate 1 Mb/s. -/
def openReq : MgmtRx := forgedFrame 0 [1, 0, 10, 0, 0, 2, 0x61, 0x70, 1, 1, 0x82]

/-- The station authenticates and associates, and its key is installed. -/
def protectedAp : MlmeAp :=
  Machine.run (next true) (start 32)
    [.auth openPmf.toApCfg openPmf.toStaTimeouts (forgedFrame 0xb0 [0, 0, 1, 0, 0, 0]).authFrame,
      .assocReq openPmf.toBssCfg openPmf.toStaTimeouts openReq.assocFrame, .installKey 1]

theorem protected_protectedAp : Protected (StaPriv.staAddr 1) 1 protectedAp :=
  ⟨by decide +kernel, by decide +kernel, by decide +kernel, by decide +kernel, by decide +kernel, by decide +kernel⟩

end

end MlmeAp

end Rtw
