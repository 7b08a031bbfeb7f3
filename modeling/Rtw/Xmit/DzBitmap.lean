import Rtw.Mlme.ApWf
import Rtw.Xmit.SleepQueue

/-!
# The bitmaps of sleeping stations

`sta_dz_bitmap` and `tim_bitmap` have 16 bits, and `OnAssocReq` hands out AIDs up to `NUM_STA`: a station
with an AID from 16 on loses its bits. Other runs on which the bitmaps go wrong are a station that sleeps
before it has an AID, a sleeping station that is refused, and one whose request turns a waiting frame
into one that the beacon must announce. In a run without these the bitmaps say what the queues hold
(`Ap.dzOk_run`).
-/

namespace Rtw

theorem getLsbD_setBit (x : BitVec 16) (n m : Nat) :
    (x ||| bit n).getLsbD m = (x.getLsbD m || decide (m = n ∧ m < 16)) := by
  rw [BitVec.getLsbD_or, bit, BitVec.getLsbD_shiftLeft, BitVec.getLsbD_one]
  congr 1
  rw [Bool.eq_iff_iff]
  simp
  omega

theorem getLsbD_clearBit (x : BitVec 16) (n m : Nat) :
    (x &&& ~~~ bit n).getLsbD m = (x.getLsbD m && decide (m ≠ n)) := by
  rcases Nat.lt_or_ge m 16 with hm | hm
  · rw [BitVec.getLsbD_and, BitVec.getLsbD_not, bit, BitVec.getLsbD_shiftLeft, BitVec.getLsbD_one]
    congr 1
    rw [Bool.eq_iff_iff]
    simp
    omega
  · rw [BitVec.getLsbD_of_ge _ _ hm, BitVec.getLsbD_of_ge _ _ hm, Bool.false_and]

namespace Ap

/-- What the two bitmaps promise. -/
structure DzOk (a : Ap) : Prop where
  dozes : ∀ i ∈ a.pool.staHash, (a.ps i).sleep → a.staDzBitmap.getLsbD (a.pool.sta i).aid
  /-- A frame for a sleeping station that is not an answer to its trigger waits. -/
  queued : ∀ i ∈ a.pool.staHash, (a.ps i).sleep → ∀ f : XmitFrame, f.psta = i →
    rtwGetStainfo a.pool f.ra = some i → ¬ f.ra.isMcast → ¬ f.triggered →
      (a.xmitframeEnqueueForSleepingSta f).2 ∧
        ((a.xmitframeEnqueueForSleepingSta f).1.ps i).sleepQ = (a.ps i).sleepQ ++ [f]
  pending : ∀ i ∈ a.pool.staHash, (a.ps i).sleep → ∀ ac, ∀ f ∈ (a.ps i).pending ac, f.triggered
  tim : ∀ i ∈ a.pool.staHash, (a.cap i).hasLegacyAc →
    (∃ f ∈ (a.ps i).sleepQ, (a.cap i).wmmpsAc f.priority 1 = false) → a.timBitmap.getLsbD (a.pool.sta i).aid
  unowned : ∀ aid, 1 ≤ aid → (∀ i ∈ a.pool.staHash, (a.pool.sta i).aid ≠ aid) →
    a.staDzBitmap.getLsbD aid = false ∧ a.timBitmap.getLsbD aid = false

/-- A station that goes to sleep has an AID that the bitmaps have a bit for. A request is not from a group
address; one from a sleeping station passes the checks; and it leaves no frame of an access category that
is not trigger enabled behind without an announcement. -/
def DzStepOk (a : Ap) : PsEvent → Prop
  | .pwrbit src pwrbit => pwrbit → ∀ i, rtwGetStainfo a.pool src = some i → (a.ps i).sleep = false →
    1 ≤ (a.pool.sta i).aid ∧ (a.pool.sta i).aid ≤ 15
  | .assocReq cfg f => ∀ i, assocReqSta cfg.toApCfg f a.pool = some i →
    ¬ f.sa.isMcast ∧ ((a.ps i).sleep → assocReqStatus cfg.toApCfg f.ies = statsSuccessful) ∧
      ((assocReqCap cfg f (a.cap i)).hasLegacyAc →
        (∃ g ∈ (a.ps i).sleepQ, (assocReqCap cfg f (a.cap i)).wmmpsAc g.priority 1 = false) →
          a.timBitmap.getLsbD (a.pool.sta i).aid)
  | _ => True

/-- The frame is for the station `i` with the address `hwaddr`. -/
structure FrameFor (i : StaId) (hwaddr : MacAddr) (f : XmitFrame) : Prop where
  psta : f.psta = i
  isMcast : f.ra.isMcast = hwaddr.isMcast
  ra : ¬ f.ra.isMcast → f.ra = hwaddr

/-- One live station and its bits. -/
structure StaOk (dz tim : BitVec 16) (i : StaId) (q : StaInfo) (c : StaCap) (p : PsSta) : Prop where
  len : p.sleepqLen = p.sleepQ.length
  bits : ∀ ac, (c.uapsd ac).testBit 1 = (c.uapsd ac).testBit 0
  linked : q.aid ≠ 0 → p.linked
  group : q.hwaddr.isMcast → q.aid = 0 ∧ c.hasLegacyAc = false
  sleepy : p.sleep → 1 ≤ q.aid ∧ q.aid ≤ 15 ∧ dz.getLsbD q.aid
  awake : ¬ p.sleep → ¬ q.hwaddr.isMcast → p.sleepQ = [] ∧
    (1 ≤ q.aid → dz.getLsbD q.aid = false ∧ tim.getLsbD q.aid = false)
  tim : 1 ≤ q.aid → c.hasLegacyAc → (∃ f ∈ p.sleepQ, c.wmmpsAc f.priority 1 = false) → tim.getLsbD q.aid
  waiting : ∀ f ∈ p.sleepQ, FrameFor i q.hwaddr f
  pending : ∀ ac, ∀ f ∈ p.pending ac, FrameFor i q.hwaddr f

/-- No station has untriggered frames in the pending queues while it sleeps. -/
def Triggered (p : PsSta) : Prop := p.sleep → ∀ ac, ∀ f ∈ p.pending ac, f.triggered

/-- All stations and their bits. -/
structure DzCore (a : Ap) : Prop where
  wf : a.Wf
  sta : ∀ i ∈ a.pool.staHash, StaOk a.staDzBitmap a.timBitmap i (a.pool.sta i) (a.cap i) (a.ps i)
  unowned : ∀ aid, 1 ≤ aid → (∀ i ∈ a.pool.staHash, (a.pool.sta i).aid ≠ aid) →
    a.staDzBitmap.getLsbD aid = false ∧ a.timBitmap.getLsbD aid = false

structure DzInv (a : Ap) : Prop extends DzCore a where
  triggered : ∀ i ∈ a.pool.staHash, Triggered (a.ps i)

section
variable {a b c : Ap} {i j : StaId} {p : PsSta} {q r : StaInfo} {f g : XmitFrame} {dz tim dz' tim' : BitVec 16}
  {cap : StaCap} {l : List XmitFrame} {addr : MacAddr}

/-! ### One station -/

theorem StaOk.congr_bits (h : StaOk dz tim i q cap p)
    (hb : 1 ≤ q.aid → dz'.getLsbD q.aid = dz.getLsbD q.aid ∧ tim'.getLsbD q.aid = tim.getLsbD q.aid) :
    StaOk dz' tim' i q cap p where
  len := h.len
  bits := h.bits
  linked := h.linked
  group := h.group
  sleepy hs := by
    obtain ⟨h1, h15, hdz⟩ := h.sleepy hs
    exact ⟨h1, h15, by rw [(hb h1).1]; exact hdz⟩
  awake hs hm := by
    obtain ⟨hq, hbits⟩ := h.awake hs hm
    refine ⟨hq, fun h1 => ?_⟩
    rw [(hb h1).1, (hb h1).2]
    exact hbits h1
  tim h1 hl hf := by
    rw [(hb h1).2]
    exact h.tim h1 hl hf
  waiting := h.waiting
  pending := h.pending

/-- Of the station's entry only the address and the AID matter. -/
theorem StaOk.congr_sta (h : StaOk dz tim i q cap p) (hw : r.hwaddr = q.hwaddr) (ha : r.aid = q.aid) :
    StaOk dz tim i r cap p := by
  obtain ⟨h1, h2, h3, h4, h5, h6, h7, h8, h9⟩ := h
  rw [← hw] at h4 h6 h8 h9
  rw [← ha] at h3 h4 h5 h6 h7
  exact ⟨h1, h2, h3, h4, h5, h6, h7, h8, h9⟩

theorem StaOk.announced (h : StaOk dz tim i q cap p) (hl : cap.hasLegacyAc)
    (hf : ∃ f ∈ p.sleepQ, cap.wmmpsAc f.priority 1 = false) : tim.getLsbD q.aid := by
  rcases Nat.eq_zero_or_pos q.aid with h0 | h1
  · exfalso
    obtain ⟨f, hf, -⟩ := hf
    by_cases hm : q.hwaddr.isMcast
    · rw [(h.group hm).2] at hl
      cases hl
    by_cases hs : p.sleep
    · have := (h.sleepy hs).1
      omega
    · rw [(h.awake hs hm).1] at hf
      cases hf
  · exact h.tim h1 hl hf

theorem StaOk.shrink (h : StaOk dz tim i q cap p) {p' : PsSta} (hq : ∀ f ∈ p'.sleepQ, f ∈ p.sleepQ)
    (hlen : p'.sleepqLen = p'.sleepQ.length) (hlink : p'.linked = p.linked) (hs : p'.sleep = p.sleep)
    (hp : p'.pending = p.pending) : StaOk dz tim i q cap p' where
  len := hlen
  bits := h.bits
  linked h0 := by
    rw [hlink]
    exact h.linked h0
  group := h.group
  sleepy hsl := h.sleepy (hs ▸ hsl)
  awake hsl hm := by
    rw [hs] at hsl
    obtain ⟨hnil, hbits⟩ := h.awake hsl hm
    refine ⟨?_, hbits⟩
    rw [hnil] at hq
    exact List.eq_nil_iff_forall_not_mem.2 fun f hf => List.not_mem_nil (hq f hf)
  tim h1 hl hf := by
    obtain ⟨f, hf, hac⟩ := hf
    exact h.tim h1 hl ⟨f, hq f hf, hac⟩
  waiting f hf := h.waiting f (hq f hf)
  pending := by
    rw [hp]
    exact h.pending

theorem StaOk.setPending (h : StaOk dz tim i q cap p) {pending : Ac → List XmitFrame}
    (hp : ∀ ac, ∀ f ∈ pending ac, FrameFor i q.hwaddr f) : StaOk dz tim i q cap { p with pending } :=
  ⟨h.len, h.bits, h.linked, h.group, h.sleepy, h.awake, h.tim, h.waiting, hp⟩

/-! ### A step that is local to one station -/

/-- Only the power save state of `i` and the bitmaps may differ. -/
structure Local (i : StaId) (a b : Ap) : Prop where
  pool : b.pool = a.pool
  cap : b.cap = a.cap
  authList : b.authList = a.authList
  asocList : b.asocList = a.asocList
  others : ∀ j, j ≠ i → b.ps j = a.ps j

theorem Local.refl (i : StaId) (a : Ap) : Local i a a := ⟨rfl, rfl, rfl, rfl, fun _ _ => rfl⟩

theorem Local.trans (h : Local i a b) (h' : Local i b c) : Local i a c :=
  ⟨h'.pool.trans h.pool, h'.cap.trans h.cap, h'.authList.trans h.authList, h'.asocList.trans h.asocList,
    fun j hj => (h'.others j hj).trans (h.others j hj)⟩

theorem local_setPs (a : Ap) (i : StaId) (p : PsSta) : Local i a (a.setPs i p) :=
  ⟨rfl, rfl, rfl, rfl, fun _ hj => setPs_ps_of_ne hj⟩

theorem Local.bitmaps (h : Local i a b) : Local i a { b with staDzBitmap := dz, timBitmap := tim } :=
  ⟨h.pool, h.cap, h.authList, h.asocList, h.others⟩

/-- Only the bits of `n` may differ, or those of group frames. -/
def BitsOf (n : Nat) (a b : Ap) : Prop := ∀ m, 1 ≤ m → m ≠ n →
  b.staDzBitmap.getLsbD m = a.staDzBitmap.getLsbD m ∧ b.timBitmap.getLsbD m = a.timBitmap.getLsbD m

theorem DzCore.step (h : a.DzCore) (hi : i ∈ a.pool.staHash) (hl : Local i a b)
    (hb : BitsOf (a.pool.sta i).aid a b)
    (hok : StaOk b.staDzBitmap b.timBitmap i (a.pool.sta i) (a.cap i) (b.ps i)) : b.DzCore := by
  refine ⟨h.wf.congr hl.pool hl.authList hl.asocList, fun j hj => ?_, fun n h1 hn => ?_⟩
  · rw [hl.pool] at hj
    rw [hl.pool, hl.cap]
    rcases eq_or_ne j i with rfl | hne
    · exact hok
    rw [hl.others j hne]
    refine (h.sta j hj).congr_bits fun h1 => ?_
    by_cases he : (a.pool.sta j).aid = (a.pool.sta i).aid
    · -- AIDs are shared only behind the table, where there are no bits
      have hbig : numSta < (a.pool.sta j).aid := by
        by_contra hle
        exact hne (h.wf.pool.aid_inj hj hi he h1 (by omega))
      have h16 : 16 ≤ (a.pool.sta j).aid := Nat.le_trans (by decide) (Nat.le_of_lt hbig)
      simp only [BitVec.getLsbD_of_ge _ _ h16, and_self]
    · exact hb _ h1 he
  · rw [hl.pool] at hn
    obtain ⟨hdz, htim⟩ := h.unowned n h1 hn
    obtain ⟨hdz', htim'⟩ := hb n h1 fun he => hn i hi he.symm
    exact ⟨hdz'.trans hdz, htim'.trans htim⟩

theorem DzInv.step (h : a.DzInv) (hi : i ∈ a.pool.staHash) (hl : Local i a b)
    (hb : BitsOf (a.pool.sta i).aid a b)
    (hok : StaOk b.staDzBitmap b.timBitmap i (a.pool.sta i) (a.cap i) (b.ps i)) (ht : Triggered (b.ps i)) :
    b.DzInv := by
  refine ⟨h.toDzCore.step hi hl hb hok, fun j hj => ?_⟩
  rw [hl.pool] at hj
  rcases eq_or_ne j i with rfl | hne
  · exact ht
  · rw [hl.others j hne]
    exact h.triggered j hj

theorem bitsOf_refl (n : Nat) : BitsOf n a a := fun _ _ _ => ⟨rfl, rfl⟩

theorem DzCore.groupBits (h : a.DzCore) (hb : BitsOf 0 a { a with staDzBitmap := dz, timBitmap := tim }) :
    DzCore { a with staDzBitmap := dz, timBitmap := tim } := by
  refine ⟨h.wf.congr rfl rfl rfl, fun j hj => (h.sta j hj).congr_bits fun h1 => hb _ h1 (by omega), fun n h1 hn => ?_⟩
  obtain ⟨hdz, htim⟩ := h.unowned n h1 hn
  obtain ⟨hdz', htim'⟩ := hb n h1 (by omega)
  exact ⟨hdz'.trans hdz, htim'.trans htim⟩

theorem DzInv.clearGroupBits (h : a.DzInv) : (a.clearBits 0).DzInv := by
  refine ⟨h.toDzCore.groupBits fun m h1 _ => ?_, h.triggered⟩
  have hm : m ≠ 0 := by omega
  dsimp only
  rw [getLsbD_clearBit, getLsbD_clearBit, decide_eq_true hm, Bool.and_true, Bool.and_true]
  exact ⟨rfl, rfl⟩

/-! ### Frames that move -/

theorem FrameFor.congr (h : FrameFor i addr f) (hpsta : g.psta = f.psta) (hra : g.ra = f.ra) :
    FrameFor i addr g := by
  obtain ⟨h1, h2, h3⟩ := h
  rw [← hpsta] at h1
  rw [← hra] at h2 h3
  exact ⟨h1, h2, h3⟩

theorem local_hal (hf : f.psta = i) : Local i a (a.rtwHalXmitframeEnqueue f) ∧
    (a.rtwHalXmitframeEnqueue f).staDzBitmap = a.staDzBitmap ∧
    (a.rtwHalXmitframeEnqueue f).timBitmap = a.timBitmap ∧
    (a.rtwHalXmitframeEnqueue f).ps i =
      { a.ps i with pending := ((a.rtwHalXmitframeEnqueue f).ps i).pending } ∧
    ∀ ac, ∀ g ∈ ((a.rtwHalXmitframeEnqueue f).ps i).pending ac, g = f ∨ g ∈ (a.ps i).pending ac := by
  subst hf
  unfold rtwHalXmitframeEnqueue
  dsimp only
  split
  · refine ⟨local_setPs .., rfl, rfl, by simp, fun ac g hg => ?_⟩
    rw [setPs_ps_self] at hg
    dsimp only at hg
    rcases eq_or_ne ac (acOf f.priority) with rfl | hac
    · rw [Function.update_self] at hg
      rcases List.mem_append.1 hg with hg | hg
      · exact .inr hg
      · exact .inl (List.mem_singleton.1 hg)
    · rw [Function.update_of_ne hac] at hg
      exact .inr hg
  · exact ⟨.refl .., rfl, rfl, rfl, fun _ _ hg => .inr hg⟩

/-- A frame for a station goes to the hardware: triggered, or the station is awake. -/
theorem DzInv.hal (h : a.DzInv) (hi : i ∈ a.pool.staHash) (hf : FrameFor i (a.pool.sta i).hwaddr f)
    (ht : f.triggered ∨ (a.ps i).sleep = false) :
    (a.rtwHalXmitframeEnqueue f).DzInv ∧ Local i a (a.rtwHalXmitframeEnqueue f) ∧
      ((a.rtwHalXmitframeEnqueue f).ps i).sleepQ = (a.ps i).sleepQ ∧
      ((a.rtwHalXmitframeEnqueue f).ps i).sleepqLen = (a.ps i).sleepqLen ∧
      ((a.rtwHalXmitframeEnqueue f).ps i).sleep = (a.ps i).sleep := by
  obtain ⟨hl, hdz, htim, hps, hpend⟩ := local_hal (a := a) hf.psta
  have hok := h.sta i hi
  refine ⟨h.step hi hl (fun m _ _ => by rw [hdz, htim]; exact ⟨rfl, rfl⟩) ?_ ?_, hl, by rw [hps], by rw [hps],
    by rw [hps]⟩
  · rw [hps, hdz, htim]
    refine hok.setPending fun ac g hg => ?_
    rcases hpend ac g hg with rfl | hg
    · exact hf
    · exact hok.pending ac g hg
  · rw [hps]
    intro hs ac g hg
    rcases hpend ac g hg with rfl | hg
    · rcases ht with ht | ht
      · exact ht
      · have : (a.ps i).sleep = true := hs
        rw [ht] at this
        cases this
    · exact h.triggered i hi hs ac g hg

/-- What the enqueueing of a frame does to its station. -/
structure Enqueued (i : StaId) (f : XmitFrame) (a : Ap) (r : Ap × Bool) : Prop where
  core : r.1.DzCore
  loc : Local i a r.1
  pending : (r.1.ps i).pending = (a.ps i).pending
  sleep : (r.1.ps i).sleep = (a.ps i).sleep
  /-- It succeeds when the station sleeps. -/
  success : (a.ps i).sleep → ¬ f.ra.isMcast → ¬ f.triggered →
    r.2 ∧ (r.1.ps i).sleepQ = (a.ps i).sleepQ ++ [f]

theorem DzCore.lookup (h : a.DzCore) (hi : i ∈ a.pool.staHash) (hf : FrameFor i (a.pool.sta i).hwaddr f)
    (hm : ¬ f.ra.isMcast) : rtwGetStainfo a.pool f.ra = some i := by
  rw [hf.ra hm]
  exact h.wf.pool.rtwGetStainfo_self hi (by rw [← hf.isMcast]; exact hm)

theorem forall_frameFor_append {w : MacAddr} (h : ∀ g ∈ l, FrameFor i w g) (hf : FrameFor i w f) :
    ∀ g ∈ l ++ [f], FrameFor i w g :=
  List.forall_mem_append.2 ⟨h, List.forall_mem_singleton.2 hf⟩

/-- A frame is put into the queue for group frames, whose station has no AID and does not sleep. -/
theorem StaOk.enqueueGroup (h : StaOk dz tim i q cap p) (hm : q.hwaddr.isMcast) (hf : FrameFor i q.hwaddr f) :
    StaOk dz' tim' i q cap { p with sleepQ := p.sleepQ ++ [f], sleepqLen := p.sleepqLen + 1 } := by
  obtain ⟨h0, hleg⟩ := h.group hm
  refine ⟨by simp [h.len], h.bits, h.linked, h.group, fun hs => ?_, fun _ hmc => absurd hm hmc, fun h1 => ?_,
    forall_frameFor_append h.waiting hf, h.pending⟩
  · have := (h.sleepy hs).1
    omega
  · omega

/-- A frame is put into the queue of a sleeping station, and announced if it needs that. -/
theorem StaOk.enqueue {n : Nat} (h : StaOk dz tim i q cap p) (hs : p.sleep) (hf : FrameFor i q.hwaddr f)
    (hmono : tim.getLsbD q.aid → tim'.getLsbD q.aid)
    (hset : cap.hasLegacyAc → cap.wmmpsAc f.priority 0 = false → tim'.getLsbD q.aid) :
    StaOk dz tim' i q cap
      { p with sleepQ := p.sleepQ ++ [f], sleepqLen := p.sleepqLen + 1, sleepqAcLen := n } := by
  refine ⟨by simp [h.len], h.bits, h.linked, h.group, h.sleepy, fun hn => absurd hs hn, fun h1 hleg hex => ?_,
    forall_frameFor_append h.waiting hf, h.pending⟩
  obtain ⟨g, hg, hac⟩ := hex
  rcases List.mem_append.1 hg with hg | hg
  · exact hmono (h.tim h1 hleg ⟨g, hg, hac⟩)
  · rw [List.mem_singleton.1 hg] at hac
    exact hset hleg ((h.bits _).symm.trans hac)

theorem DzCore.enqueue (h : a.DzCore) (hi : i ∈ a.pool.staHash) (hf : FrameFor i (a.pool.sta i).hwaddr f) :
    Enqueued i f a (a.xmitframeEnqueueForSleepingSta f) := by
  have hok := h.sta i hi
  -- a frame that is not taken although its station sleeps contradicts `StaOk`
  have hstay : ¬ ((a.ps i).sleep ∧ ¬ f.ra.isMcast ∧ ¬ f.triggered) → Enqueued i f a (a, false) := by
    intro hno
    exact ⟨h, .refl .., rfl, rfl, fun hs hm ht => absurd ⟨hs, hm, ht⟩ hno⟩
  obtain rfl := hf.psta
  unfold xmitframeEnqueueForSleepingSta
  dsimp only
  split
  · rename_i hg
    exact hstay fun ⟨_, hm, _⟩ => hg (h.lookup hi hf hm)
  split
  · rename_i hlink
    refine hstay fun ⟨hs, _, _⟩ => ?_
    have h1 := (hok.sleepy hs).1
    rw [hok.linked (by omega)] at hlink
    cases hlink
  split
  · rename_i ht
    exact hstay fun ⟨_, _, hn⟩ => hn ht
  rename_i ht
  split
  · rename_i hm
    split
    · have hl : Local f.psta a { a.setPs f.psta { a.ps f.psta with
            sleepQ := (a.ps f.psta).sleepQ ++ [f], sleepqLen := (a.ps f.psta).sleepqLen + 1 } with
          timBitmap := a.timBitmap ||| bit 0, staDzBitmap := a.staDzBitmap ||| bit 0 } :=
        (local_setPs ..).bitmaps
      refine ⟨h.step hi hl ?_ ?_, hl, by simp, by simp, fun _ hn => absurd hm hn⟩
      · intro m h1 _
        have hm0 : ¬ (m = 0 ∧ m < 16) := by omega
        dsimp only
        rw [getLsbD_setBit, getLsbD_setBit, decide_eq_false hm0, Bool.or_false, Bool.or_false]
        exact ⟨rfl, rfl⟩
      · dsimp only
        rw [setPs_ps_self]
        exact hok.enqueueGroup (by rw [← hf.isMcast]; exact hm) hf
    · exact hstay fun ⟨_, hn, _⟩ => hn hm
  rename_i hm
  split
  · rename_i hs
    rw [Bool.and_eq_true] at hs
    obtain ⟨h1, h15, -⟩ := hok.sleepy hs.1
    generalize htim : (if ((a.cap f.psta).hasLegacyAc && !(a.cap f.psta).wmmpsAc f.priority 0 ||
        !(a.cap f.psta).hasLegacyAc && (a.cap f.psta).wmmpsAc f.priority 0) = true then
        a.timBitmap ||| bit (a.pool.sta f.psta).aid else a.timBitmap) = tim
    generalize hacl : (if (a.cap f.psta).wmmpsAc f.priority 0 = true then (a.ps f.psta).sleepqAcLen + 1
        else (a.ps f.psta).sleepqAcLen) = acLen
    have hl : Local f.psta a { a.setPs f.psta { a.ps f.psta with
          sleepQ := (a.ps f.psta).sleepQ ++ [f], sleepqLen := (a.ps f.psta).sleepqLen + 1
          sleepqAcLen := acLen } with timBitmap := tim } := (local_setPs ..).bitmaps
    have htim_of_ne : ∀ m, m ≠ (a.pool.sta f.psta).aid → tim.getLsbD m = a.timBitmap.getLsbD m := by
      intro m hne
      rw [← htim]
      split
      · rw [getLsbD_setBit, decide_eq_false fun he => hne he.1, Bool.or_false]
      · rfl
    have htim_mono : a.timBitmap.getLsbD (a.pool.sta f.psta).aid → tim.getLsbD (a.pool.sta f.psta).aid := by
      intro hset
      rw [← htim]
      split
      · rw [getLsbD_setBit, hset, Bool.true_or]
      · exact hset
    refine ⟨h.step hi hl (fun m _ hne => ⟨rfl, htim_of_ne m hne⟩) ?_, hl, by simp, by simp, ?_⟩
    · dsimp only
      rw [setPs_ps_self]
      refine hok.enqueue hs.1 hf htim_mono fun hleg hac0 => ?_
      have hbit : (a.pool.sta f.psta).aid = (a.pool.sta f.psta).aid ∧ (a.pool.sta f.psta).aid < 16 := ⟨rfl, by omega⟩
      rw [← htim, if_pos (by simp [hleg, hac0]), getLsbD_setBit, decide_eq_true hbit, Bool.or_true]
    · intro _ _ _
      exact ⟨rfl, by simp⟩
  · rename_i hs
    refine hstay fun ⟨hsl, _, _⟩ => hs ?_
    rw [Bool.and_eq_true]
    exact ⟨hsl, (hok.sleepy hsl).2.2⟩

/-! ### Going to sleep -/

/-- A frame of a pending queue is moved to the sleeping queue or put back. -/
theorem DzCore.dequeueOne (h : a.DzCore) (hi : i ∈ a.pool.staHash) (ac : Ac)
    (hf : FrameFor i (a.pool.sta i).hwaddr f) :
    (dequeueXmitframe i ac a f).DzCore ∧ Local i a (dequeueXmitframe i ac a f) ∧
      ((dequeueXmitframe i ac a f).ps i).sleep = (a.ps i).sleep ∧
      ((a.ps i).sleep → ¬ (a.pool.sta i).hwaddr.isMcast →
        ((dequeueXmitframe i ac a f).ps i).pending = (a.ps i).pending) := by
  have hf' : FrameFor i (a.pool.sta i).hwaddr { f with triggered := false } := hf.congr rfl rfl
  have hq := h.enqueue hi hf'
  unfold dequeueXmitframe
  dsimp only
  split
  · rename_i b hb
    rw [hb] at hq
    exact ⟨hq.core, hq.loc, hq.sleep, fun _ _ => hq.pending⟩
  · rename_i b hb
    rw [hb] at hq
    have hpool : b.pool = a.pool := hq.loc.pool
    have hcap : b.cap = a.cap := hq.loc.cap
    have hib : i ∈ b.pool.staHash := by
      rw [hpool]
      exact hi
    have hok := hq.core.sta i hib
    refine ⟨hq.core.step hib (local_setPs ..) (bitsOf_refl _) ?_, hq.loc.trans (local_setPs ..), ?_, ?_⟩
    · rw [setPs_ps_self]
      refine hok.setPending fun ac' g hg => ?_
      rcases eq_or_ne ac' ac with rfl | hne
      · rw [Function.update_self] at hg
        rcases List.mem_append.1 hg with hg | hg
        · exact hok.pending _ g hg
        · rw [List.mem_singleton.1 hg, hpool]
          exact hf'
      · rw [Function.update_of_ne hne] at hg
        exact hok.pending ac' g hg
    · rw [setPs_ps_self]
      exact hq.sleep
    · intro hs hm
      rw [← hf'.isMcast] at hm
      have := (hq.success hs hm (by simp)).1
      cases this

theorem DzCore.dequeueAll (h : a.DzCore) (hi : i ∈ a.pool.staHash) (ac : Ac) :
    (a.dequeueXmitframesToSleepingQueue i ac).DzCore ∧ Local i a (a.dequeueXmitframesToSleepingQueue i ac) ∧
      ((a.dequeueXmitframesToSleepingQueue i ac).ps i).sleep = (a.ps i).sleep ∧
      ((a.ps i).sleep → ¬ (a.pool.sta i).hwaddr.isMcast →
        ((a.dequeueXmitframesToSleepingQueue i ac).ps i).pending =
          Function.update (a.ps i).pending ac []) := by
  have hok := h.sta i hi
  have hloop : ∀ (l : List XmitFrame) (b : Ap), (∀ f ∈ l, FrameFor i (a.pool.sta i).hwaddr f) → b.DzCore →
      b.pool = a.pool → (l.foldl (dequeueXmitframe i ac) b).DzCore ∧
        Local i b (l.foldl (dequeueXmitframe i ac) b) ∧
        ((l.foldl (dequeueXmitframe i ac) b).ps i).sleep = (b.ps i).sleep ∧
        ((b.ps i).sleep → ¬ (a.pool.sta i).hwaddr.isMcast →
          ((l.foldl (dequeueXmitframe i ac) b).ps i).pending = (b.ps i).pending) := by
    intro l
    induction l with
    | nil => exact fun b _ hb _ => ⟨hb, .refl .., rfl, fun _ _ => rfl⟩
    | cons f l ih =>
      intro b hall hb hpool
      have hib : i ∈ b.pool.staHash := by
        rw [hpool]
        exact hi
      have hf : FrameFor i (b.pool.sta i).hwaddr f := by
        rw [hpool]
        exact hall f (List.mem_cons_self ..)
      obtain ⟨h1, h2, h3, h4⟩ := hb.dequeueOne hib ac hf
      rw [hpool] at h4
      obtain ⟨k1, k2, k3, k4⟩ := ih (dequeueXmitframe i ac b f) (fun g hg => hall g (List.mem_cons_of_mem _ hg)) h1
        (h2.pool.trans hpool)
      rw [List.foldl_cons]
      refine ⟨k1, h2.trans k2, k3.trans h3, fun hs hm => ?_⟩
      rw [k4 (h3.trans hs) hm, h4 hs hm]
  have hempty : DzCore (a.setPs i { a.ps i with pending := Function.update (a.ps i).pending ac [] }) := by
    refine h.step hi (local_setPs ..) (bitsOf_refl _) ?_
    rw [setPs_ps_self]
    refine hok.setPending fun ac' g hg => ?_
    rcases eq_or_ne ac' ac with rfl | hne
    · rw [Function.update_self] at hg
      cases hg
    · rw [Function.update_of_ne hne] at hg
      exact hok.pending ac' g hg
  obtain ⟨k1, k2, k3, k4⟩ := hloop ((a.ps i).pending ac) _ (hok.pending ac) hempty rfl
  rw [setPs_ps_self] at k3 k4
  exact ⟨k1, (local_setPs ..).trans k2, k3, k4⟩

/-- The first half of `stop_sta_xmit`: the station sleeps, and has its bit. -/
theorem DzCore.fallAsleep (h : a.DzCore) (hi : i ∈ a.pool.staHash) (h1 : 1 ≤ (a.pool.sta i).aid)
    (h15 : (a.pool.sta i).aid ≤ 15) : DzCore { a.setPs i { a.ps i with sleep := true } with
      staDzBitmap := a.staDzBitmap ||| bit (a.pool.sta i).aid } := by
  have hok := h.sta i hi
  have hset : (a.staDzBitmap ||| bit (a.pool.sta i).aid).getLsbD (a.pool.sta i).aid := by
    have hbit : (a.pool.sta i).aid = (a.pool.sta i).aid ∧ (a.pool.sta i).aid < 16 := ⟨rfl, by omega⟩
    rw [getLsbD_setBit, decide_eq_true hbit, Bool.or_true]
  refine h.step hi (local_setPs ..).bitmaps (fun m _ hne => ⟨?_, rfl⟩) ?_
  · dsimp only
    rw [getLsbD_setBit, decide_eq_false fun he => hne he.1, Bool.or_false]
  · dsimp only
    rw [setPs_ps_self]
    exact ⟨hok.len, hok.bits, hok.linked, hok.group, fun _ => ⟨h1, h15, hset⟩, fun hs => absurd rfl hs, hok.tim,
      hok.waiting, hok.pending⟩

theorem DzInv.stop (h : a.DzInv) (hi : i ∈ a.pool.staHash) (h1 : 1 ≤ (a.pool.sta i).aid)
    (h15 : (a.pool.sta i).aid ≤ 15) : (a.stopStaXmit i).DzInv := by
  have hok := h.sta i hi
  have hm : ¬ (a.pool.sta i).hwaddr.isMcast := fun hm => by
    have := (hok.group hm).1
    omega
  have hl0 : Local i a { a.setPs i { a.ps i with sleep := true } with
      staDzBitmap := a.staDzBitmap ||| bit (a.pool.sta i).aid } := (local_setPs ..).bitmaps
  have c0 := h.toDzCore.fallAsleep hi h1 h15
  generalize hb0 : ({ a.setPs i { a.ps i with sleep := true } with
      staDzBitmap := a.staDzBitmap ||| bit (a.pool.sta i).aid } : Ap) = b0 at hl0 c0
  have hs0 : (b0.ps i).sleep = true := by
    rw [← hb0]
    dsimp only
    rw [setPs_ps_self]
  -- the four queues of the station, one after the other
  have hqueue : ∀ (b : Ap) (ac : Ac), b.DzCore → Local i a b → (b.ps i).sleep = true →
      (b.dequeueXmitframesToSleepingQueue i ac).DzCore ∧ Local i a (b.dequeueXmitframesToSleepingQueue i ac) ∧
        ((b.dequeueXmitframesToSleepingQueue i ac).ps i).sleep = true ∧
        ((b.dequeueXmitframesToSleepingQueue i ac).ps i).pending = Function.update (b.ps i).pending ac [] := by
    intro b ac hb hlb hs
    obtain ⟨k1, k2, k3, k4⟩ := hb.dequeueAll (i := i) (by rw [hlb.pool]; exact hi) ac
    exact ⟨k1, hlb.trans k2, k3.trans hs, k4 hs (by rw [hlb.pool]; exact hm)⟩
  obtain ⟨c1, l1, s1, p1⟩ := hqueue b0 .vo c0 hl0 hs0
  obtain ⟨c2, l2, s2, p2⟩ := hqueue _ .vi c1 l1 s1
  obtain ⟨c3, l3, s3, p3⟩ := hqueue _ .be c2 l2 s2
  obtain ⟨c4, l4, s4, p4⟩ := hqueue _ .bk c3 l3 s3
  have hpend : ∀ ac, ((((((b0.dequeueXmitframesToSleepingQueue i .vo).dequeueXmitframesToSleepingQueue i
      .vi).dequeueXmitframesToSleepingQueue i .be).dequeueXmitframesToSleepingQueue i .bk).ps i).pending ac) = [] := by
    intro ac
    rw [p4, p3, p2, p1]
    cases ac <;> rfl
  unfold stopStaXmit
  dsimp only
  rw [hb0]
  generalize ((((b0.dequeueXmitframesToSleepingQueue i .vo).dequeueXmitframesToSleepingQueue i
    .vi).dequeueXmitframesToSleepingQueue i .be).dequeueXmitframesToSleepingQueue i .bk) = b at c4 l4 s4 hpend ⊢
  have hb : b.DzInv := by
    refine ⟨c4, fun j hj => ?_⟩
    rw [l4.pool] at hj
    rcases eq_or_ne j i with rfl | hne
    · intro _ ac f hf
      rw [hpend ac] at hf
      cases hf
    · rw [l4.others j hne]
      exact h.triggered j hj
  split
  · exact hb
  · rename_i bmc hbmc
    have hbi : bmc ∈ b.pool.staHash := rtwGetStainfo_mem hbmc
    obtain ⟨k1, k2, k3, -⟩ := hb.toDzCore.dequeueAll hbi .be
    refine ⟨k1, fun j hj => ?_⟩
    rw [k2.pool] at hj
    rcases eq_or_ne j bmc with rfl | hne
    · intro hs
      rw [k3] at hs
      have hbok := hb.sta j hbi
      have hgroup := (hbok.group (by rw [rtwGetStainfo_isMcast hbmc]; decide)).1
      have := (hbok.sleepy hs).1
      omega
    · rw [k2.others j hne]
      exact hb.triggered j hj

/-! ### Leaving the queue -/

/-- A frame of the queue leaves it for the hardware. -/
theorem DzInv.popTo (h : a.DzInv) (hi : i ∈ a.pool.staHash) (sleepQ : List XmitFrame) (sleepqAcLen : Nat)
    (hsub : ∀ g ∈ sleepQ, g ∈ (a.ps i).sleepQ) (hlen : (a.ps i).sleepQ.length = sleepQ.length + 1)
    (hf : FrameFor i (a.pool.sta i).hwaddr f) (ht : f.triggered) :
    let b := (a.setPs i { a.ps i with
      sleepQ, sleepqLen := dec (a.ps i).sleepqLen, sleepqAcLen }).rtwHalXmitframeEnqueue f
    b.DzInv ∧ Local i a b ∧ (b.ps i).sleepQ = sleepQ ∧ (b.ps i).sleepqLen = sleepQ.length ∧
      (b.ps i).sleep = (a.ps i).sleep := by
  have hok := h.sta i hi
  have hdec : dec (a.ps i).sleepqLen = sleepQ.length := by rw [hok.len, hlen, dec_succ]
  have hset : DzInv (a.setPs i { a.ps i with
      sleepQ, sleepqLen := dec (a.ps i).sleepqLen, sleepqAcLen }) := by
    refine h.step hi (local_setPs ..) (bitsOf_refl _) ?_ ?_
    · rw [setPs_ps_self]
      exact hok.shrink hsub hdec rfl rfl rfl
    · rw [setPs_ps_self]
      exact h.triggered i hi
  obtain ⟨k1, k2, k3, k4, k5⟩ := hset.hal (f := f) hi hf (.inl ht)
  rw [setPs_ps_self] at k3 k4 k5
  exact ⟨k1, (local_setPs ..).trans k2, k3, k4.trans hdec, k5⟩

theorem DzInv.wakeupFrame (h : a.DzInv) (hi : i ∈ a.pool.staHash) (hq : (a.ps i).sleepQ = f :: l) :
    (wakeupFrame i a f).DzInv ∧ Local i a (wakeupFrame i a f) ∧ ((wakeupFrame i a f).ps i).sleepQ = l := by
  have hwait := (h.sta i hi).waiting f (by rw [hq]; exact List.mem_cons_self ..)
  obtain ⟨k1, k2, k3, -, -⟩ := h.popTo hi (a.ps i).sleepQ.tail
    (if (a.cap i).wmmpsAc f.priority 1 then dec (a.ps i).sleepqAcLen else (a.ps i).sleepqAcLen)
    (fun g hg => List.mem_of_mem_tail hg) (by rw [hq]; rfl)
    (f := { f with
      mdata := if (a.cap i).wmmpsAc f.priority 1 then
          decide ((if (a.cap i).wmmpsAc f.priority 1 then dec (a.ps i).sleepqAcLen else (a.ps i).sleepqAcLen) > 0)
        else decide (dec (a.ps i).sleepqLen > 0)
      eosp := if (a.cap i).wmmpsAc f.priority 1 then
          decide ((if (a.cap i).wmmpsAc f.priority 1 then dec (a.ps i).sleepqAcLen else (a.ps i).sleepqAcLen) = 0)
        else f.eosp
      triggered := true }) (hwait.congr rfl rfl) rfl
  refine ⟨k1, k2, ?_⟩
  rw [hq, List.tail_cons] at k3
  unfold Ap.wakeupFrame
  dsimp only
  rw [hq, List.tail_cons]
  exact k3

theorem DzInv.popFrame (h : a.DzInv) (more : Bool) (hi : i ∈ a.pool.staHash) (hq : (a.ps i).sleepQ = f :: l) :
    (popFrame i more a f).DzInv ∧ Local i a (popFrame i more a f) ∧ ((popFrame i more a f).ps i).sleepQ = l ∧
      ((popFrame i more a f).ps i).sleepqLen = l.length ∧ ((popFrame i more a f).ps i).sleep = (a.ps i).sleep := by
  have hwait := (h.sta i hi).waiting f (by rw [hq]; exact List.mem_cons_self ..)
  have hpop := h.popTo hi (a.ps i).sleepQ.tail (a.ps i).sleepqAcLen
    (fun g hg => List.mem_of_mem_tail hg) (by rw [hq]; rfl)
    (f := { f with mdata := more && decide (dec (a.ps i).sleepqLen > 0), triggered := true })
    (hwait.congr rfl rfl) rfl
  unfold Ap.popFrame
  dsimp only at hpop ⊢
  rw [hq, List.tail_cons] at hpop ⊢
  exact hpop

/-- The frames at the front of the queue of `i` leave it one by one. -/
theorem DzInv.popAll (step : Ap → XmitFrame → Ap) {rest : List XmitFrame}
    (hstep : ∀ (b : Ap) f l, b.DzInv → i ∈ b.pool.staHash → (b.ps i).sleepQ = f :: l →
      (step b f).DzInv ∧ Local i b (step b f) ∧ ((step b f).ps i).sleepQ = l) (h : a.DzInv)
    (hi : i ∈ a.pool.staHash) (hq : (a.ps i).sleepQ = l ++ rest) :
    (l.foldl step a).DzInv ∧ Local i a (l.foldl step a) ∧ ((l.foldl step a).ps i).sleepQ = rest := by
  have hall := Ap.popAll step (fun b => b.DzInv ∧ Local i a b) (i := i)
    (fun b f l hb hq => ?_) ⟨h, .refl ..⟩ hq
  · exact ⟨hall.1.1, hall.1.2, hall.2⟩
  · obtain ⟨hinv, hloc⟩ := hb
    obtain ⟨k1, k2, k3⟩ := hstep b f l hinv (by rw [hloc.pool]; exact hi) hq
    exact ⟨⟨k1, hloc.trans k2⟩, k3⟩

theorem DzInv.wakeup (h : a.DzInv) (hi : i ∈ a.pool.staHash) : (a.wakeupStaToXmit i).DzInv := by
  obtain ⟨h1, hl, hq⟩ := DzInv.popAll (Ap.wakeupFrame i) (fun b f l hb hib hq => hb.wakeupFrame hib hq) h hi
    (List.append_nil _).symm
  unfold wakeupStaToXmit
  dsimp only
  generalize (a.ps i).sleepQ.foldl (Ap.wakeupFrame i) a = b at h1 hl hq ⊢
  have hib : i ∈ b.pool.staHash := by
    rw [hl.pool]
    exact hi
  have hok := h1.sta i hib
  have hlen : (b.ps i).sleepqLen = 0 := by rw [hok.len, hq]; rfl
  have h2 : DzInv ((b.setPs i { b.ps i with sleep := false, aliveChk := false }).clearBits (b.pool.sta i).aid) := by
    refine h1.step hib ⟨rfl, rfl, rfl, rfl, fun j hj => setPs_ps_of_ne hj⟩ (fun m _ hne => ?_) ?_ ?_
    · unfold clearBits
      dsimp only
      rw [getLsbD_clearBit, getLsbD_clearBit, decide_eq_true hne, Bool.and_true, Bool.and_true]
      exact ⟨rfl, rfl⟩
    · unfold clearBits
      dsimp only
      rw [setPs_ps_self]
      refine ⟨hok.len, hok.bits, hok.linked, hok.group, fun hs => absurd hs (by simp), fun _ _ => ⟨hq, fun _ => ?_⟩,
        fun _ _ hf => ?_, hok.waiting, hok.pending⟩
      · rw [getLsbD_clearBit, getLsbD_clearBit]
        simp
      · obtain ⟨f, hf, -⟩ := hf
        dsimp only at hf
        rw [hq] at hf
        cases hf
    · unfold clearBits
      dsimp only
      rw [setPs_ps_self]
      intro hs
      cases hs
  rw [if_pos hlen]
  split
  · exact h2
  rename_i bmc hbmc
  split
  · obtain ⟨h3, -, -⟩ := DzInv.popAll (Ap.popFrame bmc true) (fun b f l hb hib hq => by
      obtain ⟨k1, k2, k3, -, -⟩ := hb.popFrame true hib hq
      exact ⟨k1, k2, k3⟩) h2 (rtwGetStainfo_mem hbmc) (List.append_nil _).symm
    split
    · exact h3.clearGroupBits
    · exact h3
  · exact h2

theorem DzInv.deliverLoop {kept : List XmitFrame} (h : a.DzInv) (hi : i ∈ a.pool.staHash)
    (hq : (a.ps i).sleepQ = kept ++ l) : (deliverLoop i kept l a).DzInv := by
  induction l generalizing a kept with
  | nil => exact h
  | cons f rest ih =>
    unfold Ap.deliverLoop
    split
    · exact ih h hi (by rw [hq, List.append_assoc]; rfl)
    dsimp only
    have hwait := (h.sta i hi).waiting f (by rw [hq]; simp)
    obtain ⟨k1, k2, k3, -, -⟩ := h.popTo hi (kept ++ rest) (dec (a.ps i).sleepqAcLen)
      (fun g hg => by
        rw [hq]
        rcases List.mem_append.1 hg with hg | hg
        · exact List.mem_append_left _ hg
        · exact List.mem_append_right _ (List.mem_cons_of_mem _ hg))
      (by rw [hq, List.length_append, List.length_cons, List.length_append, ← Nat.add_assoc])
      (f := { f with
        mdata := decide (dec (a.ps i).sleepqAcLen > 0), eosp := decide (dec (a.ps i).sleepqAcLen = 0)
        triggered := true }) (hwait.congr rfl rfl) rfl
    generalize Ap.rtwHalXmitframeEnqueue (a.setPs i { a.ps i with
        sleepQ := kept ++ rest, sleepqLen := dec (a.ps i).sleepqLen, sleepqAcLen := dec (a.ps i).sleepqAcLen })
      { f with
        mdata := decide (dec (a.ps i).sleepqAcLen > 0), eosp := decide (dec (a.ps i).sleepqAcLen = 0)
        triggered := true } = b at k1 k2 k3 ⊢
    have hib : i ∈ b.pool.staHash := by
      rw [k2.pool]
      exact hi
    split
    · rename_i hclear
      -- without a legacy access category nothing has to be announced
      have hleg : (b.cap i).hasLegacyAc = false := by simpa using hclear.2
      have hok := k1.sta i hib
      refine ih (a := { b with timBitmap := b.timBitmap &&& ~~~ bit (b.pool.sta i).aid }) ?_ hib k3
      refine k1.step hib ⟨rfl, rfl, rfl, rfl, fun _ _ => rfl⟩ (fun m _ hne => ⟨rfl, ?_⟩) ?_ (k1.triggered i hib)
      · dsimp only
        rw [getLsbD_clearBit, decide_eq_true hne, Bool.and_true]
      · refine ⟨hok.len, hok.bits, hok.linked, hok.group, hok.sleepy, fun hs hm => ?_, fun _ hl => ?_, hok.waiting,
          hok.pending⟩
        · obtain ⟨hnil, hbits⟩ := hok.awake hs hm
          refine ⟨hnil, fun h1 => ⟨(hbits h1).1, ?_⟩⟩
          dsimp only
          rw [getLsbD_clearBit]
          simp
        · rw [hleg] at hl
          cases hl
    · exact ih k1 hib k3

/-- The announcement ends when nothing waits. -/
theorem DzInv.clearTim (h : a.DzInv) (hi : i ∈ a.pool.staHash) (hs : (a.ps i).sleep) (hnil : (a.ps i).sleepQ = []) :
    DzInv { a with timBitmap := a.timBitmap &&& ~~~ bit (a.pool.sta i).aid } := by
  have hok := h.sta i hi
  refine h.step hi ⟨rfl, rfl, rfl, rfl, fun _ _ => rfl⟩ (fun m _ hne => ⟨rfl, ?_⟩) ?_ (h.triggered i hi)
  · dsimp only
    rw [getLsbD_clearBit, decide_eq_true hne, Bool.and_true]
  · refine ⟨hok.len, hok.bits, hok.linked, hok.group, hok.sleepy, fun hn => absurd hs hn, fun _ _ hf => ?_,
      hok.waiting, hok.pending⟩
    obtain ⟨f, hf, -⟩ := hf
    dsimp only at hf
    rw [hnil] at hf
    cases hf

theorem DzInv.psPoll {ta : MacAddr} {aid priority : Nat} (h : a.DzInv) :
    (a.validateRecvCtrlFrame ta aid priority).DzInv := by
  unfold validateRecvCtrlFrame
  split
  · exact h
  rename_i i hi
  split
  · exact h
  rename_i haid
  obtain rfl := not_not.1 haid
  split
  · exact h
  dsimp only
  have hmem := rtwGetStainfo_mem hi
  have hok := h.sta i hmem
  have h1 : DzInv (a.setPs i { a.ps i with aliveChk := false }) := by
    refine h.step hmem (local_setPs ..) (bitsOf_refl _) ?_ ?_
    · rw [setPs_ps_self]
      exact hok.shrink (fun _ hf => hf) hok.len rfl rfl rfl
    · rw [setPs_ps_self]
      exact h.triggered i hmem
  generalize hb : a.setPs i { a.ps i with aliveChk := false } = b at h1
  have hpool : b.pool = a.pool := by
    rw [← hb]
    rfl
  have hmemb : i ∈ b.pool.staHash := by
    rw [hpool]
    exact hmem
  split
  · rename_i hs
    rw [Bool.and_eq_true] at hs
    split
    · rename_i f l hq
      obtain ⟨k1, k2, k3, k4, k5⟩ := h1.popFrame true hmemb hq
      split
      · rename_i hz
        have hpop := k2.pool.trans hpool
        rw [← hpop]
        refine k1.clearTim (by rw [hpop]; exact hmem) (k5.trans hs.1) ?_
        rw [k4] at hz
        rw [k3]
        exact List.eq_nil_of_length_eq_zero hz
      · exact k1
    · rename_i hq
      split
      · have hbok := h1.sta i hmemb
        have h2 : DzInv (b.setPs i { b.ps i with sleepqLen := 0 }) := by
          refine h1.step hmemb (local_setPs ..) (bitsOf_refl _) ?_ ?_
          · rw [setPs_ps_self]
            exact hbok.shrink (fun _ hf => hf) (by dsimp only; rw [hq]; rfl) rfl rfl rfl
          · rw [setPs_ps_self]
            exact h1.triggered i hmemb
        rw [← hpool]
        exact h2.clearTim hmemb (by rw [setPs_ps_self]; exact hs.1) (by rw [setPs_ps_self]; exact hq)
      · exact h1
  · exact h1

/-! ### Stations that come and go -/

/-- A new station waits for nothing and has no AID. -/
theorem DzInv.found {f : MgmtFrame} (h : a.DzInv) (hf : Found f a b i) : b.DzInv := by
  obtain ⟨hwf, hi, -, -⟩ := h.wf.found hf
  obtain ⟨c, ⟨-, rfl⟩ | ⟨-, d, hd, rfl⟩, rfl⟩ := hf
  · exact ⟨⟨hwf, h.sta, h.unowned⟩, h.triggered⟩
  obtain ⟨pool, hpool, rfl⟩ := rtwAllocStainfo_eq_some hd
  obtain ⟨-, ht⟩ := Rtw.rtwAllocStainfo_eq_some hpool
  have hmem : ∀ j, j ∈ pool.staHash ↔ j ∈ a.pool.staHash ∨ j = i := by
    intro j
    rw [ht]
    simp
  have hself : pool.sta i = { rtwInitStainfo with hwaddr := f.sa } := by
    rw [ht]
    exact Function.update_self ..
  have hother : ∀ j, j ≠ i → pool.sta j = a.pool.sta j := by
    intro j hj
    rw [ht]
    exact Function.update_of_ne hj _ _
  refine ⟨⟨hwf, fun j hj => ?_, fun n h1 hn => ?_⟩, fun j hj => ?_⟩
  · dsimp only
    rcases eq_or_ne j i with rfl | hne
    · rw [StaPriv.modify_sta_self, hself, Function.update_self, Function.update_self]
      refine ⟨rfl, fun ac => ?_, fun h0 => absurd rfl h0, fun _ => ⟨rfl, rfl⟩, fun hs => absurd hs (by simp),
        fun _ _ => ⟨rfl, fun h1 => absurd h1 (by simp [rtwInitStainfo])⟩,
        fun h1 => absurd h1 (by simp [rtwInitStainfo]),
        fun g hg => absurd hg (by simp), fun ac g hg => absurd hg (by simp)⟩
      cases ac <;> simp [StaCap.uapsd]
    · rw [StaPriv.modify_sta_of_ne hne, hother j hne, Function.update_of_ne hne, Function.update_of_ne hne]
      exact h.sta j (((hmem j).1 hj).resolve_right hne)
  · refine h.unowned n h1 fun j hj => ?_
    rcases eq_or_ne j i with rfl | hne
    · have hnew := (StaPriv.nodup_alloc h.wf.pool.nodup hpool).2
      exact absurd hj hnew
    · have := hn j ((hmem j).2 (.inl hj))
      dsimp only at this
      rw [StaPriv.modify_sta_of_ne hne, hother j hne] at this
      exact this
  · dsimp only
    rcases eq_or_ne j i with rfl | hne
    · rw [Function.update_self]
      intro hs
      cases hs
    · rw [Function.update_of_ne hne]
      exact h.triggered j (((hmem j).1 hj).resolve_right hne)

theorem DzInv.free (h : a.DzInv) (hi : i ∈ a.pool.staHash) (hwf : (b.rtwFreeStainfo i).Wf)
    (hpool : b.pool = a.pool) (hcap : b.cap = a.cap) (hps : ∀ j, j ≠ i → b.ps j = a.ps j)
    (hdz : b.staDzBitmap = a.staDzBitmap) (htim : b.timBitmap = a.timBitmap) : (b.rtwFreeStainfo i).DzInv := by
  have hmem : ∀ j, j ∈ (b.rtwFreeStainfo i).pool.staHash ↔ j ≠ i ∧ j ∈ a.pool.staHash := by
    intro j
    show j ∈ (Rtw.rtwFreeStainfo b.pool i).staHash ↔ _
    rw [hpool]
    exact h.wf.pool.mem_free
  have hsta : ∀ j, j ≠ i → (b.rtwFreeStainfo i).pool.sta j = a.pool.sta j := by
    intro j hj
    show (Rtw.rtwFreeStainfo b.pool i).sta j = _
    rw [hpool]
    exact StaPriv.rtwFreeStainfo_sta_of_ne hj
  have hbits : ∀ n, n ≠ (a.pool.sta i).aid →
      (b.rtwFreeStainfo i).staDzBitmap.getLsbD n = a.staDzBitmap.getLsbD n ∧
        (b.rtwFreeStainfo i).timBitmap.getLsbD n = a.timBitmap.getLsbD n := by
    intro n hne
    unfold rtwFreeStainfo
    dsimp only
    rw [hpool, hdz, htim, getLsbD_clearBit, getLsbD_clearBit, decide_eq_true hne, Bool.and_true, Bool.and_true]
    exact ⟨rfl, rfl⟩
  have hfreePs : ∀ j, j ≠ i → (b.rtwFreeStainfo i).ps j = a.ps j := by
    intro j hj
    unfold rtwFreeStainfo
    dsimp only
    rw [Function.update_of_ne hj, hps j hj]
  refine ⟨⟨hwf, fun j hj => ?_, fun n h1 hn => ?_⟩, fun j hj => ?_⟩
  · obtain ⟨hne, hj⟩ := (hmem j).1 hj
    have hfreeCap : (b.rtwFreeStainfo i).cap j = a.cap j := by
      unfold rtwFreeStainfo
      dsimp only
      rw [Function.update_of_ne hne, hcap]
    rw [hsta j hne, hfreeCap, hfreePs j hne]
    refine (h.sta j hj).congr_bits fun h1 => ?_
    by_cases he : (a.pool.sta j).aid = (a.pool.sta i).aid
    · have hbig : numSta < (a.pool.sta j).aid := by
        by_contra hle
        exact hne (h.wf.pool.aid_inj hj hi he h1 (by omega))
      have h16 : 16 ≤ (a.pool.sta j).aid := Nat.le_trans (by decide) (Nat.le_of_lt hbig)
      simp only [BitVec.getLsbD_of_ge _ _ h16, and_self]
    · exact hbits _ he
  · by_cases he : n = (a.pool.sta i).aid
    · unfold rtwFreeStainfo
      dsimp only
      rw [hpool, he, getLsbD_clearBit, getLsbD_clearBit]
      simp
    · rw [(hbits n he).1, (hbits n he).2]
      refine h.unowned n h1 fun j hj => ?_
      rcases eq_or_ne j i with rfl | hne
      · exact fun hj => he hj.symm
      · rw [← hsta j hne]
        exact hn j ((hmem j).2 ⟨hne, hj⟩)
  · obtain ⟨hne, hj⟩ := (hmem j).1 hj
    rw [hfreePs j hne]
    exact h.triggered j hj

theorem DzInv.onAuth (h : a.DzInv) (cfg : ApCfg) (f : MgmtFrame) : (a.onAuth cfg f).DzInv := by
  rcases onAuth_cases cfg f a with he | ⟨b, i, hfound, -, ⟨e, -, he⟩ | ⟨p, hp, he⟩⟩
  · rw [he]
    exact h
  · obtain ⟨hb, hi, -, hni⟩ := h.wf.found hfound
    rw [he]
    exact (h.found hfound).free hi (hb.free hi hni) rfl rfl (fun _ _ => rfl) rfl rfl
  · have hb := h.found hfound
    have haid := (authStep_ok hp).1
    have hw := authStep_hwaddr hp
    have hwf : Wf { b with pool := b.pool.modify i fun _ => p } := by
      have := h.wf.onAuth cfg f
      rw [he] at this
      exact this
    rw [he]
    refine ⟨⟨hwf, fun j hj => ?_, fun n h1 hn => ?_⟩, hb.triggered⟩
    · dsimp only
      rcases eq_or_ne j i with rfl | hne
      · rw [StaPriv.modify_sta_self]
        exact (hb.sta j hj).congr_sta hw haid
      · rw [StaPriv.modify_sta_of_ne hne]
        exact hb.sta j hj
    · refine hb.unowned n h1 fun j hj => ?_
      have := hn j hj
      dsimp only at this
      rcases eq_or_ne j i with rfl | hne
      · rw [StaPriv.modify_sta_self, haid] at this
        exact this
      · rw [StaPriv.modify_sta_of_ne hne] at this
        exact this

theorem DzInv.asocExpire (h : a.DzInv) (i : StaId) : (a.asocExpire i).DzInv := by
  have hwf := h.wf.asocExpire i
  unfold Ap.asocExpire apFreeSta at hwf ⊢
  dsimp only at hwf ⊢
  split
  · rename_i hi
    rw [if_pos hi] at hwf
    generalize hb : bssCapUpdateOnStaLeave _ i = b at hwf ⊢
    have hleave : OnlyCounts { a with
        asocList := a.asocList.erase i, ps := Function.update a.ps i { a.ps i with linked := false } } b := by
      rw [← hb]
      exact onlyCounts_leave _ i
    have hps : ∀ j, j ≠ i → b.ps j = a.ps j := by
      intro j hj
      rw [hleave]
      exact Function.update_of_ne hj _ _
    refine h.free (h.wf.live i (List.mem_append_right _ hi)) hwf ?_ ?_ hps ?_ ?_
    all_goals rw [hleave]
  · exact h

theorem DzInv.authExpire (h : a.DzInv) (i : StaId) : (a.authExpire i).DzInv := by
  have hwf := h.wf.authExpire i
  unfold Ap.authExpire at hwf ⊢
  split
  · rename_i hi
    rw [if_pos hi] at hwf
    exact h.free (h.wf.live i (List.mem_append_left _ hi)) hwf rfl rfl (fun _ _ => rfl) rfl rfl
  · exact h

/-- A request changes the AID, the capabilities and the link state of its station. -/
theorem DzInv.assoc (h : a.DzInv) (hwf : b.Wf) (hhash : b.pool.staHash = a.pool.staHash)
    (hsta : ∀ j, j ≠ i → b.pool.sta j = a.pool.sta j) (hcap : ∀ j, j ≠ i → b.cap j = a.cap j)
    (hps : ∀ j, j ≠ i → b.ps j = a.ps j) (hdz : b.staDzBitmap = a.staDzBitmap) (htim : b.timBitmap = a.timBitmap)
    (hold : (b.pool.sta i).aid ≠ (a.pool.sta i).aid → 1 ≤ (a.pool.sta i).aid →
      a.staDzBitmap.getLsbD (a.pool.sta i).aid = false ∧ a.timBitmap.getLsbD (a.pool.sta i).aid = false)
    (hok : StaOk a.staDzBitmap a.timBitmap i (b.pool.sta i) (b.cap i) (b.ps i)) (ht : Triggered (b.ps i)) :
    b.DzInv := by
  refine ⟨⟨hwf, fun j hj => ?_, fun n h1 hn => ?_⟩, fun j hj => ?_⟩
  · rw [hdz, htim]
    rcases eq_or_ne j i with rfl | hne
    · exact hok
    · rw [hsta j hne, hcap j hne, hps j hne]
      exact h.sta j (hhash ▸ hj)
  · rw [hdz, htim]
    rw [hhash] at hn
    by_cases he : (a.pool.sta i).aid = n ∧ i ∈ a.pool.staHash
    · rw [← he.1]
      exact hold (by rw [he.1]; exact hn i he.2) (by rw [he.1]; exact h1)
    · refine h.unowned n h1 fun j hj => ?_
      rcases eq_or_ne j i with rfl | hne
      · exact fun hj' => he ⟨hj', hj⟩
      · rw [← hsta j hne]
        exact hn j hj
  · rcases eq_or_ne j i with rfl | hne
    · exact ht
    · rw [hps j hne]
      exact h.triggered j (hhash ▸ hj)

theorem StaOk.congr_cap {c d : StaCap} (h : StaOk dz tim i q c p) (hu : d.uapsd = c.uapsd)
    (hl : d.hasLegacyAc = c.hasLegacyAc) : StaOk dz tim i q d p := by
  have hac : ∀ priority bit, d.wmmpsAc priority bit = c.wmmpsAc priority bit := by
    intro priority bit
    unfold StaCap.wmmpsAc
    rw [hu]
  obtain ⟨h1, h2, h3, h4, h5, h6, h7, h8, h9⟩ := h
  refine ⟨h1, by rw [hu]; exact h2, h3, by rw [hl]; exact h4, h5, h6, fun ha hleg hf => ?_, h8, h9⟩
  rw [hl] at hleg
  obtain ⟨f, hf, hz⟩ := hf
  exact h7 ha hleg ⟨f, hf, by rw [← hac]; exact hz⟩

theorem staInfoUpdate_cap (cfg : BssCfg) (a : Ap) (i : StaId) :
    ((a.staInfoUpdate cfg i).cap i).uapsd = (a.cap i).uapsd ∧
      ((a.staInfoUpdate cfg i).cap i).hasLegacyAc = (a.cap i).hasLegacyAc := by
  unfold staInfoUpdate
  dsimp only
  rw [Function.update_self]
  refine ⟨?_, rfl⟩
  funext ac
  cases ac <;> rfl

/-- What a request stores, for a station with any AID of which the bits are right. -/
theorem StaOk.request {cfg : BssCfg} {f : MgmtFrame} {p' : PsSta} (h : StaOk dz tim i q cap p)
    (hm : ¬ q.hwaddr.isMcast)
    (hannounce : (assocReqCap cfg f cap).hasLegacyAc →
      (∃ g ∈ p.sleepQ, (assocReqCap cfg f cap).wmmpsAc g.priority 1 = false) → tim.getLsbD q.aid)
    (hw : r.hwaddr = q.hwaddr) (hlink : r.aid ≠ 0 → p'.linked) (hq : p'.sleepQ = p.sleepQ)
    (hl : p'.sleepqLen = p.sleepqLen) (hs : p'.sleep = p.sleep) (hp : p'.pending = p.pending)
    (haid : p.sleep → r.aid = q.aid)
    (hbits : ¬ p.sleep → 1 ≤ r.aid → dz.getLsbD r.aid = false ∧ tim.getLsbD r.aid = false) :
    StaOk dz tim i r (assocReqCap cfg f cap) p' := by
  refine ⟨by rw [hq, hl]; exact h.len, fun ac => assocReqCap_bits cfg f h.bits ac, hlink, fun hmc => ?_,
    fun hsl => ?_, fun hsl _ => ?_, fun h1 hleg hf => ?_, by rw [hq, hw]; exact h.waiting,
    by rw [hp, hw]; exact h.pending⟩
  · rw [hw] at hmc
    exact absurd hmc hm
  · rw [hs] at hsl
    rw [haid hsl]
    exact h.sleepy hsl
  · rw [hs] at hsl
    rw [hq]
    exact ⟨(h.awake hsl hm).1, hbits hsl⟩
  · rw [hq] at hf
    by_cases hsl : p.sleep
    · rw [haid hsl]
      exact hannounce hleg hf
    · rw [(h.awake hsl hm).1] at hf
      obtain ⟨g, hg, -⟩ := hf
      cases hg

/-- The bits of an AID that no live station has, or one behind the table. -/
theorem DzCore.bits_fresh (h : a.DzCore) {aid : Nat} (h1 : 1 ≤ aid)
    (hfresh : ∀ j ∈ a.pool.staHash, aid ≤ numSta → (a.pool.sta j).aid ≠ aid) :
    a.staDzBitmap.getLsbD aid = false ∧ a.timBitmap.getLsbD aid = false := by
  rcases Nat.lt_or_ge numSta aid with hbig | hle
  · have h16 : 16 ≤ aid := Nat.le_trans (by decide) (Nat.le_of_lt hbig)
    exact ⟨BitVec.getLsbD_of_ge _ _ h16, BitVec.getLsbD_of_ge _ _ h16⟩
  · exact h.unowned _ h1 fun j hj => hfresh j hj hle

theorem DzInv.onAssocReq {cfg : BssCfg} {f : MgmtFrame} (h : a.DzInv)
    (hok : a.DzStepOk (.assocReq cfg f)) : (a.onAssocReq cfg f).DzInv := by
  have hwf := h.wf.onAssocReq cfg f
  unfold Ap.onAssocReq at hwf ⊢
  split
  · exact h
  rename_i i hi
  rw [hi] at hwf
  dsimp only at hwf ⊢
  obtain ⟨hgroup, hsleep, hannounce⟩ := hok i hi
  obtain ⟨hget, st, t, -, rfl, hres⟩ := onAssocReq_of_sta hi
  have hmem := rtwGetStainfo_mem hget
  have hentries := onAssocReq_entries cfg.toApCfg f a.pool
  have hsta := h.sta i hmem
  have hm : ¬ (a.pool.sta i).hwaddr.isMcast := by
    rw [rtwGetStainfo_isMcast hget]
    exact hgroup
  rcases hres with ⟨hno, hfalse, he⟩ | ⟨-, htrue, u, hu, he⟩
  · -- a refused station does not sleep: its request passes the checks, and with an AID it is accepted
    have hawake : ¬ (a.ps i).sleep := by
      intro hs
      refine hno ⟨hsleep hs, fun hnone => ?_⟩
      have h0 := getUniqueAid_eq_none hnone
      have h1 := (hsta.sleepy hs).1
      omega
    rw [hfalse] at hwf ⊢
    refine h.assoc (i := i) hwf hentries.staHash (fun j hj => ?_) (fun j hj => Function.update_of_ne hj _ _)
      (fun _ _ => rfl) rfl rfl (fun _ h1 => (hsta.awake hawake hm).2 h1) ?_ (h.triggered i hmem)
    · show ((Rtw.onAssocReq cfg.toApCfg f a.pool).1).sta j = _
      rw [he, StaPriv.modify_sta_of_ne hj, StaPriv.modify_sta_of_ne hj]
    · show StaOk _ _ i (((Rtw.onAssocReq cfg.toApCfg f a.pool).1).sta i) (Function.update a.cap i _ i) _
      rw [Function.update_self, he, StaPriv.modify_sta_self, StaPriv.modify_sta_self]
      exact hsta.request hm hannounce rfl (fun h0 => absurd rfl h0) rfl rfl rfl rfl (fun hs => absurd hs hawake)
        fun _ h1 => absurd h1 (by simp)
  · obtain ⟨-, huother, huaid⟩ := (h.wf.pool.modify (i := i) (f := fun p => { p with state := st }) rfl
      (.inl rfl)).getUniqueAid hu
    rw [StaPriv.modify_sta_self] at huaid
    dsimp only at huaid
    rw [htrue] at hwf ⊢
    rw [if_pos rfl] at hwf ⊢
    have hjoin := onlyCounts_join (toAsocList { a with
      pool := (Rtw.onAssocReq cfg.toApCfg f a.pool).1
      cap := Function.update a.cap i (assocReqCap cfg f (a.cap i)) } i) i
    generalize hj : (toAsocList { a with
      pool := (Rtw.onAssocReq cfg.toApCfg f a.pool).1
      cap := Function.update a.cap i (assocReqCap cfg f (a.cap i)) } i).bssCapUpdateOnStaJoin i = b at hjoin hwf ⊢
    have hbpool : b.pool = (Rtw.onAssocReq cfg.toApCfg f a.pool).1 := congrArg Ap.pool hjoin
    have hbcap : b.cap = Function.update a.cap i (assocReqCap cfg f (a.cap i)) := congrArg Ap.cap hjoin
    have hbps : b.ps = a.ps := by
      rw [hjoin]
      rfl
    have hbdz : b.staDzBitmap = a.staDzBitmap := by
      rw [hjoin]
      rfl
    have hbtim : b.timBitmap = a.timBitmap := by
      rw [hjoin]
      rfl
    have hsta' : ∀ j, j ≠ i → b.pool.sta j = a.pool.sta j := by
      intro j hne
      rw [hbpool, he, StaPriv.modify_sta_of_ne hne, huother j hne, StaPriv.modify_sta_of_ne hne]
    have haid' : (b.pool.sta i).aid = (u.sta i).aid := by rw [hbpool, he, StaPriv.modify_sta_self]
    refine h.assoc (i := i) hwf ?_ hsta' (fun j hne => ?_) (fun j hne => ?_) hbdz hbtim (fun hne h1 => ?_) ?_ ?_
    · show b.pool.staHash = _
      rw [hbpool]
      exact hentries.staHash
    · show Function.update b.cap i _ j = _
      rw [Function.update_of_ne hne, hbcap, Function.update_of_ne hne]
    · show Function.update b.ps i _ j = _
      rw [Function.update_of_ne hne, hbps]
    · -- the AID of a station that has one stays
      have hne : (b.pool.sta i).aid ≠ (a.pool.sta i).aid := hne
      rw [haid'] at hne
      rcases huaid with ⟨hsame, -⟩ | ⟨h0, -⟩
      · exact absurd hsame hne
      · omega
    · obtain ⟨hcu, hcl⟩ := staInfoUpdate_cap cfg b i
      refine StaOk.congr_cap (c := assocReqCap cfg f (a.cap i)) ?_ (by rw [hcu, hbcap, Function.update_self])
        (by rw [hcl, hbcap, Function.update_self])
      show StaOk _ _ i (b.pool.sta i) _ (Function.update b.ps i _ i)
      rw [Function.update_self, hbps]
      refine hsta.request hm hannounce ?_ (fun _ => rfl) rfl rfl rfl rfl (fun hs => ?_) fun hns h1 => ?_
      · rw [hbpool]
        exact hentries.hwaddr i
      · rw [haid']
        rcases huaid with ⟨hsame, -⟩ | ⟨h0, -⟩
        · exact hsame
        · have := (hsta.sleepy hs).1
          omega
      · rw [haid'] at h1 ⊢
        rcases huaid with ⟨hsame, -⟩ | ⟨h0, -, hfresh⟩
        · rw [hsame] at h1 ⊢
          exact (hsta.awake hns hm).2 h1
        · refine h.bits_fresh h1 fun j hj hle => ?_
          rcases eq_or_ne j i with rfl | hne
          · omega
          · have := hfresh j hj hle
            rw [StaPriv.modify_sta_of_ne hne] at this
            exact this
    · show Triggered (Function.update b.ps i _ i)
      rw [Function.update_self, hbps]
      exact h.triggered i hmem

theorem DzInv.onDeAuth (h : a.DzInv) (sa : MacAddr) : (a.onDeAuth sa).DzInv := by
  unfold Ap.onDeAuth
  split
  · exact h
  · exact h.asocExpire _

/-! ### Every run -/

theorem Enqueued.inv {s : Ap × Bool} (h : Enqueued i f a s) (ha : a.DzInv) : s.1.DzInv := by
  refine ⟨h.core, fun j hj => ?_⟩
  rw [h.loc.pool] at hj
  rcases eq_or_ne j i with rfl | hne
  · intro hs
    rw [h.pending]
    exact ha.triggered j hj (h.sleep.symm.trans hs)
  · rw [h.loc.others j hne]
    exact ha.triggered j hj

theorem frameFor_of_rtwGetStainfo (hr : rtwGetStainfo a.pool f.ra = some i) (hp : f.psta = i) :
    FrameFor i (a.pool.sta i).hwaddr f := by
  refine ⟨hp, (rtwGetStainfo_isMcast hr).symm, fun hm => ?_⟩
  have haddr : (a.pool.sta i).hwaddr = if f.ra.isMcast then bcAddr else f.ra := by
    simpa using List.find?_some hr
  rw [haddr, if_neg hm]

theorem DzInv.xmit {priority : Nat} {direct : Bool} (h : a.DzInv) (ra : MacAddr) :
    (a.rtwXmit ra priority direct).DzInv := by
  unfold rtwXmit
  split
  · exact h
  rename_i i hi
  split
  · exact h
  have hmem := rtwGetStainfo_mem hi
  have hf : FrameFor i (a.pool.sta i).hwaddr { ra, psta := i, priority } := frameFor_of_rtwGetStainfo hi rfl
  have hq := h.enqueue hmem hf
  split
  · rename_i b hb
    rw [hb] at hq
    exact hq.inv h
  · rename_i b hb
    rw [hb] at hq
    have hinv : b.DzInv := hq.inv h
    have hpool : b.pool = a.pool := hq.loc.pool
    split
    · exact hinv
    -- a frame that does not wait is for a station that is awake
    have hawake : (b.ps i).sleep = false := by
      by_contra hs
      have hs : (a.ps i).sleep = true := by rw [← hq.sleep]; simpa using hs
      by_cases hm : ra.isMcast
      · have hgroup := ((h.sta i hmem).group (by rw [rtwGetStainfo_isMcast hi]; exact hm)).1
        have := ((h.sta i hmem).sleepy hs).1
        omega
      · have := (hq.success hs hm (by simp)).1
        cases this
    exact (hinv.hal (by rw [hpool]; exact hmem) (by rw [hpool]; exact hf) (.inr hawake)).1

/-- The frames at the front of the queue for group frames are sent. -/
theorem DzInv.groupFrames {rest : List XmitFrame} (h : a.DzInv) (more : Bool) (hi : i ∈ a.pool.staHash)
    (hq : (a.ps i).sleepQ = l ++ rest) :
    (l.foldl (Ap.popFrame i more) a).DzInv ∧ Local i a (l.foldl (Ap.popFrame i more) a) ∧
      ((l.foldl (Ap.popFrame i more) a).ps i).sleepQ = rest := by
  refine DzInv.popAll _ (fun b f l hb hib hq => ?_) h hi hq
  obtain ⟨k1, k2, k3, -, -⟩ := hb.popFrame more hib hq
  exact ⟨k1, k2, k3⟩

theorem DzInv.chkBmcSleepq (h : a.DzInv) : a.chkBmcSleepqHdl.DzInv := by
  unfold chkBmcSleepqHdl
  split
  · exact h
  rename_i bmc hbmc
  split
  · exact (h.groupFrames true (rtwGetStainfo_mem hbmc) (List.append_nil _).symm).1
  · exact h

theorem DzInv.bmcFrames (h : a.DzInv) : a.rtwApBmcFramesHdl.DzInv := by
  unfold rtwApBmcFramesHdl
  split
  · exact h
  rename_i bmc hbmc
  have hi := rtwGetStainfo_mem hbmc
  split
  · dsimp only
    obtain ⟨h1, hl, hq⟩ := h.groupFrames true hi
      (List.take_append_drop (hiqXmitCounts - 1) (a.ps bmc).sleepQ).symm
    exact (h1.groupFrames false (by rw [hl.pool]; exact hi) 
      (hq.trans (List.take_append_drop 1 ((a.ps bmc).sleepQ.drop (hiqXmitCounts - 1))).symm)).1
  split
  · exact h.clearGroupBits
  · exact h

theorem DzInv.chkHiQueue (h : a.DzInv) : a.rtwChkHiQueueHdl.DzInv := by
  unfold rtwChkHiQueueHdl
  split
  · exact h
  split
  · exact h.clearGroupBits
  · exact h

theorem DzInv.aliveChk (h : a.DzInv) (i : StaId) : (a.aliveChk i).DzInv := by
  unfold Ap.aliveChk
  split
  · rename_i hc
    obtain ⟨hlist, hs, -⟩ := hc
    have hi := h.wf.live i (List.mem_append_right _ hlist)
    have hok := h.sta i hi
    refine h.step hi (local_setPs ..).bitmaps (fun m _ hne => ⟨rfl, ?_⟩) ?_ ?_
    · dsimp only
      rw [getLsbD_setBit, decide_eq_false fun he => hne he.1, Bool.or_false]
    · dsimp only
      rw [setPs_ps_self]
      refine ⟨hok.len, hok.bits, hok.linked, hok.group, hok.sleepy, fun hn => absurd hs hn, fun h1 hl hf => ?_,
        hok.waiting, hok.pending⟩
      rw [getLsbD_setBit, hok.tim h1 hl hf, Bool.true_or]
    · dsimp only
      rw [setPs_ps_self]
      exact h.triggered i hi
  · exact h

theorem DzInv.clearSleepQ (h : a.DzInv) (i : StaId) : (a.clearSleepQ i).DzInv := by
  unfold Ap.clearSleepQ
  split
  · rename_i hi
    exact h.wakeup (h.wf.live i (List.mem_append_right _ hi))
  · exact h

theorem DzInv.dequeue (h : a.DzInv) (i : StaId) (ac : Ac) : (a.rtwDequeueXframe i ac).DzInv := by
  have hsub : ∀ ac', ∀ f ∈ Function.update (a.ps i).pending ac ((a.ps i).pending ac).tail ac',
      f ∈ (a.ps i).pending ac' := by
    intro ac' f hf
    rcases eq_or_ne ac' ac with rfl | hne
    · rw [Function.update_self] at hf
      exact List.mem_of_mem_tail hf
    · rw [Function.update_of_ne hne] at hf
      exact hf
  by_cases hi : i ∈ a.pool.staHash
  · unfold rtwDequeueXframe
    refine h.step hi (local_setPs ..) (bitsOf_refl _) ?_ ?_
    · rw [setPs_ps_self]
      exact (h.sta i hi).setPending fun ac' f hf => (h.sta i hi).pending ac' f (hsub ac' f hf)
    · rw [setPs_ps_self]
      exact fun hs ac' f hf => h.triggered i hi hs ac' f (hsub ac' f hf)
  · have hother : ∀ j ∈ a.pool.staHash, (a.rtwDequeueXframe i ac).ps j = a.ps j :=
      fun j hj => setPs_ps_of_ne fun he => hi (he ▸ hj)
    refine ⟨⟨h.wf.congr rfl rfl rfl, fun j hj => ?_, h.unowned⟩, fun j hj => ?_⟩
    · rw [hother j hj]
      exact h.sta j hj
    · rw [hother j hj]
      exact h.triggered j hj

theorem DzInv.wmmps (h : a.DzInv) (src : MacAddr) (priority : Nat) : (a.processWmmpsData src priority).DzInv := by
  unfold processWmmpsData
  split
  · exact h
  rename_i i hi
  dsimp only
  split
  · exact h
  split
  · exact h
  split
  · exact h.deliverLoop (rtwGetStainfo_mem hi) (List.nil_append _).symm
  · exact h

theorem DzInv.pwrbit {src : MacAddr} {pwrbit : Bool} (h : a.DzInv) (hok : a.DzStepOk (.pwrbit src pwrbit)) :
    (a.processPwrbitData src pwrbit).DzInv := by
  unfold processPwrbitData
  split
  · exact h
  rename_i i hi
  have hmem := rtwGetStainfo_mem hi
  split
  · rename_i hp
    split
    · rename_i hs
      obtain ⟨h1, h15⟩ := hok hp i hi (by simpa using hs)
      exact h.stop hmem h1 h15
    · exact h
  · split
    · exact h.wakeup hmem
    · exact h

theorem DzInv.next (h : a.DzInv) (e : PsEvent) (hok : a.DzStepOk e) : (a.psNext e).DzInv := by
  cases e with
  | auth cfg f => exact h.onAuth cfg f
  | assocReq cfg f => exact h.onAssocReq hok
  | deAuth sa => exact h.onDeAuth sa
  | authExpire i => exact h.authExpire i
  | asocExpire i => exact h.asocExpire i
  | xmit ra priority direct => exact h.xmit ra
  | dequeue i ac => exact h.dequeue i ac
  | pwrbit src pwrbit => exact h.pwrbit hok
  | wmmps src priority => exact h.wmmps src priority
  | psPoll ta aid priority => exact h.psPoll
  | aliveChk i => exact h.aliveChk i
  | clearSleepQ i => exact h.clearSleepQ i
  | chkBmcSleepq => exact h.chkBmcSleepq
  | bmcFrames => exact h.bmcFrames
  | chkHiQueue => exact h.chkHiQueue

theorem DzInv.start (maxNumSta : Nat) : (start maxNumSta).DzInv := by
  have hnew : ∀ i ∈ (StaPriv.start maxNumSta).staHash, ((StaPriv.start maxNumSta).sta i).aid = 0 := by
    unfold StaPriv.start
    cases ha : Rtw.rtwAllocStainfo (StaPriv.init maxNumSta) bcAddr with
    | none => exact fun i hi => absurd hi List.not_mem_nil
    | some r =>
      obtain ⟨-, ht⟩ := Rtw.rtwAllocStainfo_eq_some (t := r.1) (i := r.2) ha
      intro i hi
      simp only [Option.map_some, Option.getD_some] at hi ⊢
      rw [ht] at hi ⊢
      obtain rfl : i = r.2 := by simpa [StaPriv.init] using hi
      dsimp only
      rw [Function.update_self]
      rfl
  refine ⟨⟨.start maxNumSta, fun i hi => ?_, fun aid _ _ => ⟨BitVec.getLsbD_zero, BitVec.getLsbD_zero⟩⟩,
    fun i _ hs => Bool.noConfusion hs⟩
  have h0 : ((Ap.start maxNumSta).pool.sta i).aid = 0 := hnew i hi
  have hpos : ¬ 1 ≤ ((Ap.start maxNumSta).pool.sta i).aid := by omega
  exact ⟨rfl, (QueueInv.start maxNumSta).bits i, fun hne => absurd h0 hne, fun _ => ⟨h0, rfl⟩,
    fun hs => Bool.noConfusion hs, fun _ _ => ⟨rfl, fun h1 => absurd h1 hpos⟩, fun h1 => absurd h1 hpos,
    fun f hf => absurd hf List.not_mem_nil, fun ac f hf => absurd hf List.not_mem_nil⟩

theorem DzInv.dzOk (h : a.DzInv) : a.DzOk where
  dozes i hi hs := ((h.sta i hi).sleepy hs).2.2
  queued i hi hs f hp hr hm ht := by
    exact (h.enqueue hi (frameFor_of_rtwGetStainfo hr hp)).success hs hm ht
  pending i hi hs ac f hf := h.triggered i hi hs ac f hf
  tim i hi hl hf := (h.sta i hi).announced hl hf
  unowned := h.unowned

/-- In every run in which only stations with an AID up to 15 go to sleep, and the requests of sleeping
stations are accepted and need no new announcement, the bitmaps say what the queues hold. -/
theorem dzOk_run (maxNumSta : Nat) (evs : List PsEvent)
    (hok : Machine.RunOk psNext DzStepOk (start maxNumSta) evs) :
    (Machine.run psNext (start maxNumSta) evs).DzOk :=
  (Machine.run_invariant_of_ok (fun _ e h hok => h.next e hok) (DzInv.start maxNumSta) hok).dzOk

end

instance (a : Ap) : (e : PsEvent) → Decidable (a.DzStepOk e)
  | .pwrbit src pwrbit => inferInstanceAs (Decidable (pwrbit → ∀ i, rtwGetStainfo a.pool src = some i →
    (a.ps i).sleep = false → 1 ≤ (a.pool.sta i).aid ∧ (a.pool.sta i).aid ≤ 15))
  | .assocReq cfg f => inferInstanceAs (Decidable (∀ i, assocReqSta cfg.toApCfg f a.pool = some i →
    ¬ f.sa.isMcast ∧ ((a.ps i).sleep → assocReqStatus cfg.toApCfg f.ies = statsSuccessful) ∧
      ((assocReqCap cfg f (a.cap i)).hasLegacyAc →
        (∃ g ∈ (a.ps i).sleepQ, (assocReqCap cfg f (a.cap i)).wmmpsAc g.priority 1 = false) →
          a.timBitmap.getLsbD (a.pool.sta i).aid)))
  | .auth .. | .deAuth _ | .authExpire _ | .asocExpire _ | .xmit .. | .dequeue .. | .wmmps .. | .psPoll ..
  | .aliveChk _ | .clearSleepQ _ | .chkBmcSleepq | .bmcFrames | .chkHiQueue => .isTrue trivial

/-- A station with U-APSD for video sleeps, gets frames of both kinds and its best-effort frame, asks for
the others and wakes up; another one leaves while it sleeps. -/
theorem dzOk_run_wmm : (Machine.run psNext (start 32) (joinWmm 1 2 ++ joinWmm 2 0 ++
    [.pwrbit (StaPriv.staAddr 1) true, .xmit (StaPriv.staAddr 1) 0 false, .xmit (StaPriv.staAddr 1) 5 false,
      .psPoll (StaPriv.staAddr 1) 1 0, .wmmps (StaPriv.staAddr 1) 5, .pwrbit (StaPriv.staAddr 1) false,
      .pwrbit (StaPriv.staAddr 2) true, .xmit (StaPriv.staAddr 2) 0 false, .deAuth (StaPriv.staAddr 2)])).DzOk :=
  dzOk_run 32 _ (by decide +kernel)

/-- The station with the AID 16 sleeps, and no bitmap says so. -/
theorem not_dzOk_aid16 : ¬ (Machine.run psNext (start 32) ((List.range 16).flatMap
    (fun n => joinWmm (UInt8.ofNat (n + 1)) 0) ++ [.pwrbit (StaPriv.staAddr 16) true])).DzOk := by
  intro h
  have hdozes := h.dozes 16 (by decide +kernel) (by decide +kernel)
  revert hdozes
  decide +kernel

end Ap

end Rtw
