import Mathlib.Data.List.TakeWhile
import Rtw.P2p.GoNego

/-!
# Agreement on the group owner

Both devices of a `P2pNet` derive their roles from the frames alone, so unequal intents always agree, and
two intents of 15 never get to `P2P_STATE_GONEGO_OK`. Two things go wrong. With equal intents each response
tells the other device that it lost, so when both answer a request both become clients. And a device that
negotiates again out of `P2P_STATE_GONEGO_OK`, and is timed out, comes back to that state as a mere device.
`P2pNet.agreed_run` says that nothing else does.
-/

namespace Rtw

theorem mem_chInclusion {channelSet peer : List Nat} {ch : Nat} (h : ch ∈ chInclusion channelSet peer) :
    ch ∈ channelSet ∧ ch ∈ peer := by
  induction peer generalizing channelSet with
  | nil => simp [chInclusion] at h
  | cons c peer ih =>
    rw [chInclusion] at h
    cases hd : channelSet.dropWhile (· != c) with
    | nil =>
      rw [hd] at h
      exact ⟨(ih h).1, List.mem_cons_of_mem _ (ih h).2⟩
    | cons d rest =>
      have hsub : ∀ x ∈ d :: rest, x ∈ channelSet := fun x hx => (List.dropWhile_sublist _).mem (hd ▸ hx)
      have hdc : d = c := by
        have hhead := List.head?_dropWhile_not (fun x => x != c) channelSet
        simpa [hd] using hhead
      rw [hd] at h
      rcases List.mem_cons.1 h with rfl | h
      · exact ⟨hsub _ (hdc ▸ List.mem_cons_self), List.mem_cons_self⟩
      · exact ⟨hsub _ (ih h).1, List.mem_cons_of_mem _ (ih h).2⟩

/-- The first common channel is found: until then the search starts at the first entry. -/
theorem chInclusion_eq_nil_iff {channelSet peer : List Nat} :
    chInclusion channelSet peer = [] ↔ ∀ ch ∈ peer, ch ∉ channelSet := by
  induction peer with
  | nil => simp [chInclusion]
  | cons c peer ih =>
    have hc : channelSet.dropWhile (· != c) = [] ↔ c ∉ channelSet := by
      rw [List.dropWhile_eq_nil_iff]
      exact ⟨fun h hm => by simpa using h c hm, fun h x hx => by simp; rintro rfl; exact h hx⟩
    rw [chInclusion, List.forall_mem_cons, ← hc, ← ih]
    cases hd : channelSet.dropWhile (· != c) with
    | nil => simp
    | cons d rest => simp

namespace P2pCfg
variable (cfg : P2pCfg)

/-- The channels of a device's channel list. -/
def chans : List Nat := peerChList cfg.channelList

/-- Every class of 40 MHz channels lies inside a class of 20 MHz channels, which no setting leaves out. -/
theorem exists_oper20 : ∀ o ∈ p2pOperClasses, ∀ ch ∈ o.channels,
    ∃ o' ∈ p2pOperClasses, ch ∈ o'.channels ∧ o'.inc ≠ 8 ∧ o'.bw40 = false := by
  decide

theorem mem_chans {ch : Nat} :
    ch ∈ cfg.chans ↔ ch ∈ cfg.channelSet ∧ ∃ o ∈ p2pOperClasses, ch ∈ o.channels := by
  constructor
  · intro h
    obtain ⟨r, hr, hch⟩ := List.mem_flatMap.1 h
    obtain ⟨o, ho, hor⟩ := List.mem_filterMap.1 hr
    cases hf : o.channels.filter (· ∈ cfg.channelSet) with
    | nil => simp [hf] at hor
    | cons c cs =>
      rw [hf] at hor
      dsimp only at hor
      split at hor
      · exact nomatch hor
      · cases hor
        obtain ⟨hmem, hset⟩ := List.mem_filter.1 (hf ▸ hch)
        exact ⟨of_decide_eq_true hset, o, ho, hmem⟩
  · rintro ⟨hset, o, ho, hmem⟩
    obtain ⟨o', ho', hmem', hinc, hbw⟩ := exists_oper20 o ho ch hmem
    have hf : ch ∈ o'.channels.filter (· ∈ cfg.channelSet) :=
      List.mem_filter.2 ⟨hmem', decide_eq_true hset⟩
    refine List.mem_flatMap.2 ⟨⟨o'.opClass, o'.channels.filter (· ∈ cfg.channelSet)⟩, ?_, hf⟩
    refine List.mem_filterMap.2 ⟨o', ho', ?_⟩
    cases hcs : o'.channels.filter (· ∈ cfg.channelSet) with
    | nil => simp [hcs] at hf
    | cons c cs => simp only [hinc, hbw, decide_false, Bool.and_false, Bool.or_false, Bool.false_eq_true, if_false]

end P2pCfg

section
variable (cfg : P2pSide → P2pCfg)

/-- `ch` is in both channel lists. -/
def CommonCh (ch : Nat) : Prop := ∀ s, ch ∈ (cfg s).chans

/-- The negotiation can succeed: there is a common channel and not both intents are 15. -/
def Agreeable : Prop := (∃ ch, CommonCh cfg ch) ∧ ¬ ∀ s, (cfg s).intent = p2pMaxIntent

variable {cfg}

theorem CommonCh.of_sides {s : P2pSide} {ch : Nat} (h : ch ∈ (cfg s).chans) (hp : ch ∈ (cfg s.peer).chans) :
    CommonCh cfg ch := fun t => by
  rcases P2pSide.eq_or_eq_peer s t with rfl | rfl
  · exact h
  · exact hp

/-- What `rtw_p2p_ch_inclusion` lets through is common to both devices: a device finds the peer's channel in
its channel set, and its own list has every channel of the set that some list can have. -/
theorem commonCh_of_mem {s : P2pSide} {ch : Nat}
    (h : ch ∈ chInclusion (cfg s).channelSet (cfg s.peer).chans) : CommonCh cfg ch := by
  obtain ⟨hset, hpeer⟩ := mem_chInclusion h
  exact .of_sides ((cfg s).mem_chans.2 ⟨hset, ((cfg s.peer).mem_chans.1 hpeer).2⟩) hpeer

theorem chInclusion_ne_nil {s : P2pSide} (h : ∃ ch, CommonCh cfg ch) :
    chInclusion (cfg s).channelSet (cfg s.peer).chans ≠ [] := by
  obtain ⟨ch, hch⟩ := h
  intro hnil
  exact chInclusion_eq_nil_iff.1 hnil ch (hch s.peer) ((cfg s).mem_chans.1 (hch s)).1

theorem intents_max_iff {s : P2pSide} :
    (∀ t, (cfg t).intent = p2pMaxIntent) ↔
      (cfg s).intent = (cfg s.peer).intent ∧ (cfg s).intent = p2pMaxIntent := by
  constructor
  · exact fun h => ⟨(h s).trans (h s.peer).symm, h s⟩
  · rintro ⟨heq, h⟩ t
    rcases P2pSide.eq_or_eq_peer s t with rfl | rfl
    · exact h
    · exact heq ▸ h

/-! ### What the devices send -/

/-- A frame of `s`; `ansP` says that the peer has answered a request with success. -/
def FrameOk (cfg : P2pSide → P2pCfg) (s : P2pSide) (ansP : Prop) (f : GoNegoFrame) : Prop :=
  match f.subtype with
  | .req =>
    f.ie.wpsIe ∧ f.ie.goIntent = some (2 * (cfg s).intent) ∧ f.ie.chList = some (cfg s).channelList
  | .resp =>
    f.ie.wpsIe ∧ f.ie.goIntent = some (2 * (cfg s).intent + 1) ∧ f.ie.chList = some (cfg s).channelList ∧
      ∃ r, f.ie.status = some r ∧ (r = .success ↔ Agreeable cfg)
  | .conf => ∃ r, f.ie.status = some r ∧ (r = .success → ansP)

theorem FrameOk.mono {s : P2pSide} {p q : Prop} {f : GoNegoFrame} (h : FrameOk cfg s p f) (hpq : p → q) :
    FrameOk cfg s q f := by
  obtain ⟨sub, ie⟩ := f
  cases sub with
  | req => exact h
  | resp => exact h
  | conf =>
    obtain ⟨r, hr, hp⟩ := h
    exact ⟨r, hr, fun hs => hpq (hp hs)⟩

theorem intent_lt (s : P2pSide) : 2 * (cfg s).intent + 1 < 256 := by
  have := (cfg s).intent_le
  simp only [p2pMaxIntent] at this
  omega

theorem frameOk_goRequest (s : P2pSide) (p : Prop) (d : WifiDirect) : FrameOk cfg s p (d.goRequest (cfg s)) := by
  have hlt : 2 * (cfg s).intent + 1 < 256 := intent_lt s
  refine ⟨rfl, ?_, rfl⟩
  simp only [WifiDirect.goRequest]
  rw [Nat.mod_eq_of_lt (by omega)]

/-- A response answers a request, whose tie breaker is 0. -/
theorem frameOk_goResponse (s : P2pSide) (p : Prop) {d : WifiDirect} {r : P2pStatus}
    (htie : d.peerIntent % 2 = 0) (hr : r = .success ↔ Agreeable cfg) :
    FrameOk cfg s p (d.goResponse (cfg s) r) := by
  have hlt : 2 * (cfg s).intent + 1 < 256 := intent_lt s
  refine ⟨rfl, ?_, rfl, r, rfl, hr⟩
  simp only [WifiDirect.goResponse, htie]
  rw [if_neg (by omega), Nat.mod_eq_of_lt hlt]

theorem frameOk_goConfirm (s : P2pSide) {p : Prop} {d : WifiDirect} {r : P2pStatus} (hr : r = .success → p) :
    FrameOk cfg s p (d.goConfirm r) :=
  ⟨r, rfl, hr⟩

/-! ### What the handlers do -/

namespace WifiDirect
variable {s : P2pSide} {d : WifiDirect} {ie : P2pIe} {r : P2pStatus}

/-- With a common channel the channel check changes nothing but the operating channel, and a group owner's is
common afterwards. -/
theorem checkChList_of_common (hl : ie.chList = some (cfg s.peer).channelList) (h : ∃ ch, CommonCh cfg ch) :
    ∃ op, d.checkChList (cfg s) ie r = ({ d with operatingChannel := op }, r) ∧
      (d.role = .go → CommonCh cfg op) := by
  have hne := chInclusion_ne_nil (s := s) h
  have hmem : ∀ c ∈ chInclusion (cfg s).channelSet (cfg s.peer).chans, CommonCh cfg c := fun c =>
    commonCh_of_mem
  rw [P2pCfg.chans] at hne hmem
  simp only [checkChList, hl]
  cases hinc : chInclusion (cfg s).channelSet (peerChList (cfg s.peer).channelList) with
  | nil => exact absurd hinc hne
  | cons ch chs =>
    rw [hinc] at hmem
    dsimp only
    split_ifs with hgo hpeer
    · exact ⟨_, rfl, fun _ => hmem _ hpeer⟩
    · exact ⟨_, rfl, fun _ => hmem _ List.mem_cons_self⟩
    · exact ⟨d.operatingChannel, rfl, fun hrole => hmem _ (by_contra fun hn => hgo ⟨hrole, hn⟩)⟩

theorem checkChList_of_not_common (hl : ie.chList = some (cfg s.peer).channelList)
    (h : ¬ ∃ ch, CommonCh cfg ch) :
    d.checkChList (cfg s) ie r = ({ d with p2pState := .gonegoFail }, .failNoCommonCh) := by
  simp only [checkChList, hl]
  cases hinc : chInclusion (cfg s).channelSet (peerChList (cfg s.peer).channelList) with
  | nil => rfl
  | cons ch chs => exact absurd ⟨ch, commonCh_of_mem (by rw [P2pCfg.chans, hinc]; exact List.mem_cons_self)⟩ h

/-- A request that can succeed. -/
theorem processReq_of_agreeable (hw : (cfg s).uiGotWpsInfo ≠ .noWpsinfo) {p : Prop}
    (hf : FrameOk cfg s.peer p ⟨.req, ie⟩) (h : Agreeable cfg) :
    ∃ op, processReq (cfg s) d ie =
        ({ d with
            p2pState := .gonegoIng
            peerIntent := 2 * (cfg s.peer).intent
            role := if (cfg s).intent < (cfg s.peer).intent then .client else .go
            operatingChannel := op }, .success) ∧
      ((cfg s.peer).intent ≤ (cfg s).intent → CommonCh cfg op) := by
  obtain ⟨hwps, hi, hl⟩ := hf
  have hmax : ¬ ((cfg s).intent = (cfg s.peer).intent ∧ (cfg s).intent = p2pMaxIntent) := fun hm =>
    h.2 (intents_max_iff.2 hm)
  have hrole : negoRole (cfg s).intent (2 * (cfg s.peer).intent) =
      if (cfg s).intent < (cfg s.peer).intent then .client else .go := by
    simp only [negoRole, Nat.mul_div_cancel_left _ (Nat.zero_lt_two), Nat.mul_mod_right]
    split_ifs <;> first | rfl | omega
  obtain ⟨op, hop, hgo⟩ := checkChList_of_common (s := s) (r := .success)
    (d := ({ d with
      p2pState := .gonegoIng
      peerIntent := 2 * (cfg s.peer).intent
      role := if (cfg s).intent < (cfg s.peer).intent then .client else .go })) hl h.1
  refine ⟨op, ?_, fun hle => hgo (if_neg (by omega))⟩
  simp only at hwps hi
  simp only [processReq, hwps, if_true, reqIntent, hi, hrole, Nat.mul_div_cancel_left _ (Nat.zero_lt_two),
    if_neg hmax, hop, if_neg hw]

/-- A request that cannot succeed. -/
theorem processReq_of_not_agreeable (hw : (cfg s).uiGotWpsInfo ≠ .noWpsinfo) {p : Prop}
    (hf : FrameOk cfg s.peer p ⟨.req, ie⟩) (h : ¬ Agreeable cfg) :
    ∃ d' r, processReq (cfg s) d ie = (d', r) ∧ r ≠ .success ∧ d'.p2pState ≠ .gonegoOk ∧
      d'.preP2pState = d.preP2pState ∧ d'.peerIntent % 2 = 0 := by
  obtain ⟨hwps, hi, hl⟩ := hf
  simp only at hwps hi
  simp only [processReq, hwps, if_true, reqIntent, hi, Nat.mul_div_cancel_left _ (Nat.zero_lt_two), if_neg hw]
  by_cases hcom : ∃ ch, CommonCh cfg ch
  · have hmax : (cfg s).intent = (cfg s.peer).intent ∧ (cfg s).intent = p2pMaxIntent :=
      intents_max_iff.1 (by_contra fun hm => h ⟨hcom, hm⟩)
    obtain ⟨op, hop, -⟩ := checkChList_of_common (s := s) (r := .failBothGointent15)
      (d := ({ d with
        p2pState := .gonegoIng
        peerIntent := 2 * (cfg s.peer).intent
        role := negoRole (cfg s).intent (2 * (cfg s.peer).intent) })) hl hcom
    rw [if_pos hmax, hop]
    exact ⟨_, _, rfl, nofun, nofun, rfl, Nat.mul_mod_right ..⟩
  · rw [checkChList_of_not_common hl hcom]
    exact ⟨_, _, rfl, nofun, nofun, rfl, Nat.mul_mod_right ..⟩

/-- A response that can succeed: the tie breaker in it makes the receiver a client. -/
theorem processResp_of_agreeable {p : Prop} (hf : FrameOk cfg s.peer p ⟨.resp, ie⟩) (h : Agreeable cfg) :
    ∃ op, processResp (cfg s) d ie =
        ({ d with
            p2pState := .gonegoOk
            preP2pState := .gonegoOk
            peerIntent := 2 * (cfg s.peer).intent + 1
            role := if (cfg s.peer).intent < (cfg s).intent then .go else .client
            peerOperatingCh := ie.operatingCh.getD d.peerOperatingCh
            operatingChannel := op }, .success) ∧
      ((cfg s.peer).intent < (cfg s).intent → CommonCh cfg op) := by
  obtain ⟨hwps, hi, hl, r, hstatus, hr⟩ := hf
  have hmax : ¬ ((cfg s).intent = (cfg s.peer).intent ∧ (cfg s).intent = p2pMaxIntent) := fun hm =>
    h.2 (intents_max_iff.2 hm)
  have hdiv : (2 * (cfg s.peer).intent + 1) / 2 = (cfg s.peer).intent := by omega
  have hrole : negoRole (cfg s).intent (2 * (cfg s.peer).intent + 1) =
      if (cfg s.peer).intent < (cfg s).intent then .go else .client := by
    simp only [negoRole, hdiv, Nat.mul_add_mod]
    split_ifs <;> first | rfl | omega
  obtain ⟨op, hop, hgo⟩ := checkChList_of_common (s := s) (r := .success)
    (d := ({ d with
      p2pState := .gonegoOk
      preP2pState := .gonegoOk
      peerIntent := 2 * (cfg s.peer).intent + 1
      role := if (cfg s.peer).intent < (cfg s).intent then .go else .client
      peerOperatingCh := ie.operatingCh.getD d.peerOperatingCh })) hl h.1
  refine ⟨op, ?_, fun hlt => hgo (if_pos hlt)⟩
  simp only at hwps hi hstatus
  obtain rfl := hr.2 h
  simp only [processResp, hwps, if_true, hstatus, respAccept, respIntent, hi, hrole, hdiv, if_neg hmax, hop]

theorem processResp_of_not_agreeable {p : Prop} (hf : FrameOk cfg s.peer p ⟨.resp, ie⟩)
    (h : ¬ Agreeable cfg) :
    ∃ d' r, processResp (cfg s) d ie = (d', r) ∧ r ≠ .success ∧ d'.p2pState ≠ .gonegoOk ∧
      d'.preP2pState = d.preP2pState := by
  obtain ⟨hwps, hi, hl, r, hstatus, hr⟩ := hf
  have hrs : r ≠ .success := fun hs => h (hr.1 hs)
  simp only at hwps hstatus
  simp only [processResp, hwps, if_true, hstatus]
  cases r with
  | success => exact absurd rfl hrs
  | failInfoUnavailable => exact ⟨_, _, rfl, nofun, nofun, rfl⟩
  | failIncompatibleParam => exact ⟨_, _, rfl, nofun, nofun, rfl⟩
  | failNoCommonCh => exact ⟨_, _, rfl, nofun, nofun, rfl⟩
  | failBothGointent15 => exact ⟨_, _, rfl, nofun, nofun, rfl⟩

end WifiDirect

/-! ### One device -/

/-- `s` is to be the group owner: its intent is larger, or it has answered a request of the same intent. -/
def Owns (cfg : P2pSide → P2pCfg) (s : P2pSide) (ans : Prop) : Prop :=
  (cfg s.peer).intent < (cfg s).intent ∨ (cfg s).intent = (cfg s.peer).intent ∧ ans

/-- What holds of the device of `s`; `ans` and `ansP` say that it and its peer have answered a request with
success. -/
structure SideOk (cfg : P2pSide → P2pCfg) (s : P2pSide) (ans ansP : Prop) (d : WifiDirect) : Prop where
  agreeable : ans ∨ d.p2pState = .gonegoOk ∨ d.preP2pState = .gonegoOk → Agreeable cfg
  pre : d.p2pState = .gonegoOk → d.preP2pState = .gonegoOk
  back : d.preP2pState = .gonegoOk →
    d.p2pState = .gonegoOk ∨ d.p2pState = .gonegoIng ∨ d.p2pState = .gonegoFail
  answered : d.p2pState = .gonegoOk → ans ∨ ansP
  peerIntent : ans → d.peerIntent / 2 = (cfg s.peer).intent ∧
    ((cfg s).intent = (cfg s.peer).intent → d.peerIntent % 2 = 0)
  role : d.p2pState = .gonegoOk → (Owns cfg s ans → d.role = .go) ∧ (¬ Owns cfg s ans → d.role = .client)
  channel : ans ∨ d.p2pState = .gonegoOk → Owns cfg s ans → CommonCh cfg d.operatingChannel

namespace SideOk
variable {s : P2pSide} {ans ansP : Prop} {d d' : WifiDirect}

theorem mono (h : SideOk cfg s ans ansP d) {q : Prop} (hq : ansP → q) : SideOk cfg s ans q d :=
  { h with answered := fun hs => (h.answered hs).imp_right hq }

theorem of_not_answered (hans : ¬ ans) (hs : d.p2pState ≠ .gonegoOk) (hpre : d.preP2pState ≠ .gonegoOk) :
    SideOk cfg s ans ansP d where
  agreeable := by
    rintro (h | h | h)
    · exact absurd h hans
    · exact absurd h hs
    · exact absurd h hpre
  pre h := absurd h hs
  back h := absurd h hpre
  answered h := absurd h hs
  peerIntent h := absurd h hans
  role h := absurd h hs
  channel h := absurd h (not_or.2 ⟨hans, hs⟩)

/-- Without an agreement in reach a device has neither answered nor succeeded. -/
theorem not_success (h : SideOk cfg s ans ansP d) (hag : ¬ Agreeable cfg) :
    ¬ ans ∧ d.p2pState ≠ .gonegoOk ∧ d.preP2pState ≠ .gonegoOk :=
  ⟨fun ha => hag (h.agreeable (.inl ha)), fun hs => hag (h.agreeable (.inr (.inl hs))),
    fun hp => hag (h.agreeable (.inr (.inr hp)))⟩

/-- A step that leaves `P2P_STATE_GONEGO_OK`, or never was there, and keeps the peer's intent and the channel. -/
theorem of_left (h : SideOk cfg s ans ansP d) (hstate : d'.p2pState ≠ .gonegoOk)
    (hpre : d'.preP2pState = .gonegoOk →
      (d.p2pState = .gonegoOk ∨ d.preP2pState = .gonegoOk) ∧
        (d'.p2pState = .gonegoIng ∨ d'.p2pState = .gonegoFail))
    (hpeer : d'.peerIntent = d.peerIntent) (hop : d'.operatingChannel = d.operatingChannel) :
    SideOk cfg s ans ansP d' where
  agreeable := by
    rintro (ha | hs | hp)
    · exact h.agreeable (.inl ha)
    · exact absurd hs hstate
    · exact h.agreeable (.inr (hpre hp).1)
  pre hs := absurd hs hstate
  back hp := .inr (hpre hp).2
  answered hs := absurd hs hstate
  peerIntent ha := by
    rw [hpeer]
    exact h.peerIntent ha
  role hs := absurd hs hstate
  channel := by
    rintro (ha | hs) ho
    · rw [hop]
      exact h.channel (.inl ha) ho
    · exact absurd hs hstate

theorem congr (h : SideOk cfg s ans ansP d) (hstate : d'.p2pState = d.p2pState)
    (hpre : d'.preP2pState = d.preP2pState) (hrole : d'.role = d.role) (hpeer : d'.peerIntent = d.peerIntent)
    (hop : d'.operatingChannel = d.operatingChannel) : SideOk cfg s ans ansP d' := by
  obtain ⟨h1, h2, h3, h4, h5, h6, h7⟩ := h
  constructor <;> simp only [hstate, hpre, hrole, hpeer, hop] <;> assumption

theorem connect (h : SideOk cfg s ans ansP d) : SideOk cfg s ans ansP (d.connect (cfg s)) := by
  rw [WifiDirect.connect]
  split
  · exact h
  · refine h.of_left nofun (fun hp => ⟨.inl ?_, .inl rfl⟩) rfl rfl
    by_contra hs
    exact absurd ((if_neg hs).symm.trans hp) nofun

theorem onProbeRsp (h : SideOk cfg s ans ansP d) : SideOk cfg s ans ansP (d.onProbeRsp (cfg s)).1 := by
  rw [WifiDirect.onProbeRsp]
  split
  · exact h.congr rfl rfl rfl rfl rfl
  · exact h

theorem restoreTimerProcess (h : SideOk cfg s ans ansP d) : SideOk cfg s ans ansP d.restoreTimerProcess := by
  rw [WifiDirect.restoreTimerProcess]
  split
  · exact h.congr rfl rfl rfl rfl rfl
  · exact h

/-- The timer handler keeps the agreement unless it brings back a state of success. -/
theorem restoreHandler (h : SideOk cfg s ans ansP d)
    (hok : d.preP2pState = .gonegoOk → d.p2pState ≠ .gonegoIng ∧ d.p2pState ≠ .gonegoFail) :
    SideOk cfg s ans ansP d.restoreHandler := by
  rw [WifiDirect.restoreHandler]
  cases d.restoreWk with
  | zero => exact h
  | succ k =>
    by_cases hp : d.preP2pState = .gonegoOk
    · obtain ⟨hi, hf⟩ := hok hp
      have hs : d.p2pState = .gonegoOk := by
        rcases h.back hp with hs | hs | hs
        · exact hs
        · exact absurd hs hi
        · exact absurd hs hf
      exact h.congr (hp.trans hs.symm) rfl (if_neg (not_or.2 ⟨hi, hf⟩)) rfl rfl
    · exact h.of_left hp (fun hp' => absurd hp' hp) rfl rfl

/-- A confirmation of success is for a device that has answered, with the intent it answered. -/
theorem processConf {ie : P2pIe} (h : SideOk cfg s ans ansP d)
    (hf : FrameOk cfg s.peer ans ⟨.conf, ie⟩) : SideOk cfg s ans ansP (d.processConf (cfg s) ie) := by
  obtain ⟨r, hr, hans⟩ := hf
  simp only at hr
  by_cases hrs : r = .success
  · obtain rfl := hrs
    have ha := hans rfl
    obtain ⟨hdiv, htie⟩ := h.peerIntent ha
    simp only [WifiDirect.processConf, hr, hdiv]
    exact {
      agreeable := fun _ => h.agreeable (.inl ha)
      pre := fun _ => rfl
      back := fun _ => .inl rfl
      answered := fun _ => .inl ha
      peerIntent := fun _ => ⟨hdiv, htie⟩
      role := fun _ => by
        rcases Nat.lt_trichotomy (cfg s).intent (cfg s.peer).intent with hlt | heq | hgt
        · refine ⟨fun ho => ?_, fun _ => by rw [if_neg (by omega), if_pos hlt]⟩
          rcases ho with ho | ho <;> omega
        · have hgo : (cfg s).intent = (cfg s.peer).intent ∧ ans := ⟨heq, ha⟩
          refine ⟨fun _ => ?_, fun ho => absurd (.inr hgo) ho⟩
          rw [if_neg (by omega), if_neg (by omega), if_neg (by rw [htie heq]; omega)]
        · exact ⟨fun _ => if_pos hgt, fun ho => absurd (.inl hgt) ho⟩
      channel := fun _ => h.channel (.inl ha) }
  · have hfail : d.processConf (cfg s) ie = { d with role := .device, p2pState := .gonegoFail } := by
      rw [WifiDirect.processConf, hr]
      cases r with
      | success => exact absurd rfl hrs
      | failInfoUnavailable | failIncompatibleParam | failNoCommonCh | failBothGointent15 => rfl
    rw [hfail]
    exact h.of_left nofun (fun hp => ⟨.inr hp, .inr rfl⟩) rfl rfl

end SideOk

/-- `f` answers a request with success. -/
def SuccessResp (f : GoNegoFrame) : Prop := f.subtype = .resp ∧ f.ie.status = some .success

/-- What a handler leaves: the new device, and the frames it sends. -/
structure Handled (cfg : P2pSide → P2pCfg) (s : P2pSide) (ans ansP : Prop)
    (r : WifiDirect × List GoNegoFrame) : Prop where
  side : SideOk cfg s (ans ∨ ∃ f ∈ r.2, SuccessResp f) ansP r.1
  frames : ∀ f ∈ r.2, FrameOk cfg s ansP f
  excl : (cfg s).intent = (cfg s.peer).intent → (∃ f ∈ r.2, SuccessResp f) → ¬ ansP

namespace Handled
variable {s : P2pSide} {ans ansP : Prop} {d : WifiDirect} {ie : P2pIe} {p : Prop}

/-- A handler that sends no success in answer to a request. -/
theorem of_not_success {r : WifiDirect × List GoNegoFrame} (h : SideOk cfg s ans ansP r.1)
    (hf : ∀ f ∈ r.2, FrameOk cfg s ansP f ∧ ¬ SuccessResp f) : Handled cfg s ans ansP r := by
  have hno : ¬ ∃ f ∈ r.2, SuccessResp f := fun ⟨f, hm, hs⟩ => (hf f hm).2 hs
  refine ⟨?_, fun f hm => (hf f hm).1, fun _ hs => absurd hs hno⟩
  rwa [propext (or_iff_left hno)]

theorem silent (h : SideOk cfg s ans ansP d) : Handled cfg s ans ansP (d, []) :=
  of_not_success h (by simp)

theorem rememberState_pre (h : d.rememberState.preP2pState = .gonegoOk) :
    d.p2pState = .gonegoOk ∨ d.preP2pState = .gonegoOk := by
  revert h
  simp only [WifiDirect.rememberState]
  split_ifs <;> simp_all

/-- A request: the device answers it with success exactly if an agreement is in reach. -/
theorem onNegoReq (hw : (cfg s).uiGotWpsInfo ≠ .noWpsinfo) (h : SideOk cfg s ans ansP d)
    (hf : FrameOk cfg s.peer p ⟨.req, ie⟩) (hex : (cfg s).intent = (cfg s.peer).intent → ¬ ansP) :
    Handled cfg s ans ansP (d.onNegoReq (cfg s) ie) := by
  by_cases hag : Agreeable cfg
  · obtain ⟨op, hreq, hop⟩ := WifiDirect.processReq_of_agreeable (d := d.rememberState) hw hf hag
    simp only [WifiDirect.onNegoReq, hreq]
    have htie : (2 * (cfg s.peer).intent) % 2 = 0 := Nat.mul_mod_right ..
    refine ⟨?_, ?_, fun heq _ => hex heq⟩
    · exact {
        agreeable := fun _ => hag
        pre := nofun
        back := fun _ => .inr (.inl rfl)
        answered := nofun
        peerIntent := fun _ => ⟨Nat.mul_div_cancel_left _ Nat.zero_lt_two, fun _ => htie⟩
        role := nofun
        channel := fun _ ho => hop (by rcases ho with ho | ho <;> omega) }
    · simp only [List.mem_singleton, forall_eq]
      exact frameOk_goResponse s ansP htie (iff_of_true rfl hag)
  · obtain ⟨hans, hs, hpre⟩ := h.not_success hag
    obtain ⟨d', r, hreq, hr, hs', hpre', htie⟩ :=
      WifiDirect.processReq_of_not_agreeable (d := d.rememberState) hw hf hag
    simp only [WifiDirect.onNegoReq, hreq]
    refine of_not_success (.of_not_answered hans hs' fun hp => ?_) ?_
    · exact (rememberState_pre (hpre' ▸ hp)).elim hs hpre
    · simp only [List.mem_singleton, forall_eq]
      refine ⟨frameOk_goResponse s ansP htie (iff_of_false hr hag), fun hsucc => hr ?_⟩
      exact Option.some.inj hsucc.2

/-- A response: success makes the device the group owner only if its intent is larger. -/
theorem onNegoResp (h : SideOk cfg s ans ansP d) (hf : FrameOk cfg s.peer p ⟨.resp, ie⟩)
    (hansP : SuccessResp ⟨.resp, ie⟩ → ansP)
    (hex : (cfg s).intent = (cfg s.peer).intent → ansP → ¬ ans) :
    Handled cfg s ans ansP (d.onNegoResp (cfg s) ie) := by
  by_cases hing : d.p2pState = .gonegoIng
  swap
  · rw [WifiDirect.onNegoResp, if_neg hing]
    exact silent h
  have hconf : ∀ (d' : WifiDirect) r, ¬ SuccessResp (d'.goConfirm r) := fun _ _ hs => nomatch hs.1
  by_cases hag : Agreeable cfg
  · have hp : ansP := by
      obtain ⟨-, -, -, r, hr, hrs⟩ := hf
      exact hansP ⟨rfl, hr.trans (congrArg some (hrs.2 hag))⟩
    obtain ⟨op, hresp, hop⟩ := WifiDirect.processResp_of_agreeable
      (d := { d with restoreTimer := false, benable := false }) hf hag
    simp only [WifiDirect.onNegoResp, if_pos hing, hresp]
    have hown : Owns cfg s ans ↔ (cfg s.peer).intent < (cfg s).intent :=
      or_iff_left fun ⟨heq, ha⟩ => hex heq hp ha
    have hdiv : (2 * (cfg s.peer).intent + 1) / 2 = (cfg s.peer).intent := by omega
    refine of_not_success ?_ (by simp [hconf, frameOk_goConfirm s (fun _ => hp)])
    exact {
      agreeable := fun _ => hag
      pre := fun _ => rfl
      back := fun _ => .inl rfl
      answered := fun _ => .inr hp
      peerIntent := fun ha => ⟨hdiv, fun heq => absurd ha (hex heq hp)⟩
      role := fun _ => ⟨fun ho => if_pos (hown.1 ho), fun ho => if_neg fun hlt => ho (hown.2 hlt)⟩
      channel := fun _ ho => hop (hown.1 ho) }
  · obtain ⟨hans, hs, hpre⟩ := h.not_success hag
    obtain ⟨d', r, hresp, hr, hs', hpre'⟩ := WifiDirect.processResp_of_not_agreeable
      (d := { d with restoreTimer := false, benable := false }) hf hag
    simp only [WifiDirect.onNegoResp, if_pos hing, hresp]
    refine of_not_success (.of_not_answered hans hs' (hpre' ▸ hpre)) ?_
    simp [hconf, frameOk_goConfirm s (fun h => absurd h hr)]

theorem onActionPublicP2p {f : GoNegoFrame} (hw : (cfg s).uiGotWpsInfo ≠ .noWpsinfo)
    (h : SideOk cfg s ans ansP d) (hf : FrameOk cfg s.peer ans f) (hansP : SuccessResp f → ansP)
    (hex : (cfg s).intent = (cfg s.peer).intent → ansP → ¬ ans)
    (hok : d.p2pState ≠ .none → d.p2pState ≠ .idle → f.subtype = .req →
      (cfg s).intent = (cfg s.peer).intent → ¬ ansP) :
    Handled cfg s ans ansP (d.onActionPublicP2p (cfg s) f) := by
  by_cases hon : d.p2pState = .none ∨ d.p2pState = .idle
  · rw [WifiDirect.onActionPublicP2p, if_pos hon]
    exact silent h
  · obtain ⟨hnone, hidle⟩ := not_or.1 hon
    obtain ⟨sub, ie⟩ := f
    rw [WifiDirect.onActionPublicP2p, if_neg hon]
    cases sub with
    | req => exact onNegoReq hw h hf (hok hnone hidle rfl)
    | resp => exact onNegoResp h hf hansP hex
    | conf => exact silent (h.processConf hf)

end Handled

end

/-! ### Both devices -/

namespace P2pNet
variable (cfg : P2pSide → P2pCfg)

/-- `s` has answered a request with success. -/
def Answered (n : P2pNet) (s : P2pSide) : Prop := ∃ f ∈ n.sent s, SuccessResp f

instance (f : GoNegoFrame) : Decidable (SuccessResp f) := inferInstanceAs (Decidable (_ ∧ _))

instance (n : P2pNet) (s : P2pSide) : Decidable (n.Answered s) := inferInstanceAs (Decidable (∃ f ∈ _, _))

/-- Whenever both devices have negotiated with success, one is the group owner, on a channel of both channel
lists, and the other the client; and not both intents are 15. -/
def Agreed (n : P2pNet) : Prop :=
  (∀ s, (n.dev s).p2pState = .gonegoOk) →
    (∃ s, (n.dev s).role = .go ∧ (n.dev s.peer).role = .client ∧ CommonCh cfg (n.dev s).operatingChannel) ∧
      ¬ ∀ s, (cfg s).intent = p2pMaxIntent

/-- A step that cannot break the agreement: with equal intents a device answers no request once its peer has
answered one, and the restore timer brings no device back to `P2P_STATE_GONEGO_OK` from another state. -/
def StepOk (n : P2pNet) : P2pEvent → Prop
  | .deliver s f =>
    f ∈ n.sent s.peer → (n.dev s).p2pState ≠ .none → (n.dev s).p2pState ≠ .idle → f.subtype = .req →
      (cfg s).intent = (cfg s.peer).intent → ¬ n.Answered s.peer
  | .restore s =>
    (n.dev s).preP2pState = .gonegoOk → (n.dev s).p2pState ≠ .gonegoIng ∧ (n.dev s).p2pState ≠ .gonegoFail
  | _ => True

instance (n : P2pNet) : (e : P2pEvent) → Decidable (n.StepOk cfg e)
  | .connect _ | .probeRsp _ | .restoreTimeout _ => .isTrue trivial
  | .deliver .. => inferInstanceAs (Decidable (_ ∈ n.sent _ → _ ≠ _ → _ ≠ _ → _ = _ → _ = _ → ¬ n.Answered _))
  | .restore _ => inferInstanceAs (Decidable (_ = _ → _ ≠ _ ∧ _ ≠ _))

structure Inv (n : P2pNet) : Prop where
  side : ∀ s, SideOk cfg s (n.Answered s) (n.Answered s.peer) (n.dev s)
  frames : ∀ s, ∀ f ∈ n.sent s, FrameOk cfg s (n.Answered s.peer) f
  excl : ∀ s, (cfg s).intent = (cfg s.peer).intent → n.Answered s → ¬ n.Answered s.peer

variable {cfg} {n : P2pNet}

theorem answered_act_self (n : P2pNet) (s : P2pSide) (r : WifiDirect × List GoNegoFrame) :
    (n.act s r).Answered s ↔ n.Answered s ∨ ∃ f ∈ r.2, SuccessResp f := by
  simp only [Answered, act, Function.update_self, List.mem_append]
  constructor
  · rintro ⟨f, hm | hm, hs⟩
    · exact .inr ⟨f, hm, hs⟩
    · exact .inl ⟨f, hm, hs⟩
  · rintro (⟨f, hm, hs⟩ | ⟨f, hm, hs⟩)
    · exact ⟨f, .inr hm, hs⟩
    · exact ⟨f, .inl hm, hs⟩

theorem answered_act_peer (n : P2pNet) (s : P2pSide) (r : WifiDirect × List GoNegoFrame) :
    (n.act s r).Answered s.peer ↔ n.Answered s.peer := by
  simp only [Answered, act, Function.update_of_ne s.peer_ne]

/-- The invariant needs to be checked for the device that acts. -/
theorem Inv.act (h : Inv cfg n) (s : P2pSide) {r : WifiDirect × List GoNegoFrame}
    (hr : Handled cfg s (n.Answered s) (n.Answered s.peer) r) : Inv cfg (n.act s r) where
  side t := by
    rcases P2pSide.eq_or_eq_peer s t with rfl | rfl
    · rw [propext (answered_act_self ..), propext (answered_act_peer ..)]
      simpa only [P2pNet.act, Function.update_self] using hr.side
    · rw [P2pSide.peer_peer, propext (answered_act_peer ..), propext (answered_act_self ..)]
      have hside := h.side s.peer
      rw [P2pSide.peer_peer] at hside
      simpa only [P2pNet.act, Function.update_of_ne s.peer_ne] using hside.mono .inl
  frames t f hf := by
    rcases P2pSide.eq_or_eq_peer s t with rfl | rfl
    · rw [propext (answered_act_peer ..)]
      simp only [P2pNet.act, Function.update_self, List.mem_append] at hf
      exact hf.elim (hr.frames f) (h.frames _ f)
    · rw [P2pSide.peer_peer, propext (answered_act_self ..)]
      simp only [P2pNet.act, Function.update_of_ne s.peer_ne] at hf
      have hframe := h.frames s.peer f hf
      rw [P2pSide.peer_peer] at hframe
      exact hframe.mono .inl
  excl t heq ht hp := by
    have hboth : n.Answered s ∨ (∃ f ∈ r.2, SuccessResp f) → ¬ n.Answered s.peer := by
      have heq' : (cfg s).intent = (cfg s.peer).intent := by
        rcases P2pSide.eq_or_eq_peer s t with rfl | rfl
        · exact heq
        · rw [P2pSide.peer_peer] at heq
          exact heq.symm
      exact fun h' => h'.elim (h.excl s heq') (hr.excl heq')
    rcases P2pSide.eq_or_eq_peer s t with rfl | rfl
    · exact hboth ((answered_act_self ..).1 ht) ((answered_act_peer ..).1 hp)
    · rw [P2pSide.peer_peer] at hp
      exact hboth ((answered_act_self ..).1 hp) ((answered_act_peer ..).1 ht)

theorem Inv.start (h : n.Start) : Inv cfg n := by
  have hno : ∀ s, ¬ n.Answered s := fun s ⟨f, hf, _⟩ => by
    rw [(h s).1] at hf
    exact nomatch hf
  exact {
    side := fun s => .of_not_answered (hno s) (h s).2.1 (h s).2.2
    frames := fun s f hf => by
      rw [(h s).1] at hf
      exact nomatch hf
    excl := fun s _ hs => absurd hs (hno s) }

theorem Inv.next (hw : ∀ s, (cfg s).uiGotWpsInfo ≠ .noWpsinfo) (h : Inv cfg n) {e : P2pEvent}
    (hok : n.StepOk cfg e) : Inv cfg (n.next cfg e) := by
  cases e with
  | connect s => exact h.act s (.silent (h.side s).connect)
  | probeRsp s =>
    refine h.act s (.of_not_success (h.side s).onProbeRsp ?_)
    rw [WifiDirect.onProbeRsp]
    split
    · simp only [List.mem_singleton, forall_eq]
      exact ⟨frameOk_goRequest .., fun hs => nomatch hs.1⟩
    · simp
  | deliver s f =>
    rw [P2pNet.next]
    split
    case isTrue hf =>
      have hframe := h.frames s.peer f hf
      rw [P2pSide.peer_peer] at hframe
      exact h.act s (.onActionPublicP2p (hw s) (h.side s) hframe (fun hs => ⟨f, hf, hs⟩)
        (fun heq hp ha => h.excl s heq ha hp) (hok hf))
    case isFalse => exact h
  | restoreTimeout s => exact h.act s (.silent (h.side s).restoreTimerProcess)
  | restore s => exact h.act s (.silent ((h.side s).restoreHandler hok))

theorem Inv.agreed (h : Inv cfg n) : n.Agreed cfg := by
  intro hs
  refine ⟨?_, ((h.side .a).agreeable (.inr (.inl (hs .a)))).2⟩
  -- the owner is the side with the larger intent, or the one that has answered
  have key : ∃ s, Owns cfg s (n.Answered s) ∧ ¬ Owns cfg s.peer (n.Answered s.peer) := by
    simp only [Owns, P2pSide.peer_peer]
    rcases Nat.lt_trichotomy (cfg .a).intent (cfg .b).intent with hlt | heq | hgt
    · exact ⟨.b, .inl hlt, by rintro (h | h) <;> simp only [P2pSide.peer] at h <;> omega⟩
    · rcases (h.side .a).answered (hs .a) with ha | hb
      · exact ⟨.a, .inr ⟨heq, ha⟩, by
          rintro (hlt | ⟨-, hb⟩)
          · exact absurd hlt (by simp only [P2pSide.peer]; omega)
          · exact h.excl .a heq ha hb⟩
      · exact ⟨.b, .inr ⟨heq.symm, hb⟩, by
          rintro (hlt | ⟨-, ha⟩)
          · exact absurd hlt (by simp only [P2pSide.peer]; omega)
          · exact h.excl .b heq.symm hb ha⟩
    · exact ⟨.a, .inl hgt, by rintro (h | h) <;> simp only [P2pSide.peer] at h <;> omega⟩
  obtain ⟨s, ho, hno⟩ := key
  exact ⟨s, ((h.side s).role (hs s)).1 ho, ((h.side s.peer).role (hs s.peer)).2 hno,
    (h.side s).channel (.inr (hs s)) ho⟩

/-- Over every run of steps that meet the condition the devices agree. -/
theorem agreed_run (hw : ∀ s, (cfg s).uiGotWpsInfo ≠ .noWpsinfo) (hn : n.Start) {evs : List P2pEvent}
    (hok : Machine.RunOk (next cfg) (StepOk cfg) n evs) : (Machine.run (next cfg) n evs).Agreed cfg :=
  (Machine.run_invariant_of_ok (fun _ _ h => h.next hw) (Inv.start hn) hok).agreed

/-- Two devices of intent 7 on channels 1, 6 and 11. -/
def pairCfg : P2pCfg := ⟨7, by decide, .pbc, [1, 6, 11], true, true⟩

def listening : WifiDirect := ⟨.listen, .listen, .device, 0, 6, 0, false, false, 0⟩

def pairNet : P2pNet := ⟨fun _ => listening, fun _ => []⟩

theorem pairNet_start : pairNet.Start := fun _ => ⟨rfl, nofun, nofun⟩

/-- One device asks, the other answers. -/
theorem agreed_run_handshake :
    (Machine.run (next fun _ => pairCfg) pairNet
      [.connect .a, .probeRsp .a, .deliver .b (listening.goRequest pairCfg),
        .deliver .a ({ listening with peerIntent := 14 }.goResponse pairCfg .success),
        .deliver .b ({ listening with role := .client, peerOperatingCh := 6 }.goConfirm .success)]).Agreed
      fun _ => pairCfg :=
  agreed_run (fun _ => by decide) pairNet_start (by decide)

/-- Both devices ask, both answer, and each response makes its receiver a client. -/
theorem not_agreed_crossing : ¬ ∀ (cfg : P2pSide → P2pCfg) (n : P2pNet),
    (∀ s, (cfg s).uiGotWpsInfo ≠ .noWpsinfo) → n.Start → ∀ evs, (Machine.run (next cfg) n evs).Agreed cfg := by
  intro h
  have hrun := h (fun _ => pairCfg) pairNet (fun _ => by decide) pairNet_start
    [.connect .a, .connect .b, .probeRsp .a, .probeRsp .b, .deliver .b (listening.goRequest pairCfg),
      .deliver .a (listening.goRequest pairCfg),
      .deliver .a ({ listening with peerIntent := 14 }.goResponse pairCfg .success),
      .deliver .b ({ listening with peerIntent := 14 }.goResponse pairCfg .success)]
  obtain ⟨⟨s, hgo, -⟩, -⟩ := hrun (fun s => by cases s <;> decide)
  cases s <;> exact absurd hgo (by decide)

end P2pNet

end Rtw
