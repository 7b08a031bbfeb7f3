import Rtw.Lib.Run
import Rtw.Recv.RecvFunc

/-!
# No received frame is lost or freed twice

`Sound s h`: in `s` and all its earlier states every frame of the pool is in one place, and the call
holds `h`. Each function of the receive path has one lemma that says what it does to `h`. The ways in
which frames go astray are the clauses of `StepOk`; `poolConserved_run` is about the runs without them.
-/

namespace Rtw

open RecvPriv

namespace RecvRun

/-- Frames have been conserved up to now, and the running call holds `h`. -/
structure Sound (s : RecvRun) (h : List Nat) : Prop where
  inv : s.now.Inv
  past : ∀ p ∈ s.past, p.Conserved
  held : s.now.held = h

/-- What the frees and the defragmentation leave alone. -/
def side (s : RecvRun) : (StaId → Fin 16 → RecvReorderCtrl) × (Nat → StaId × Fin 16) × StaPriv :=
  (s.now.recvreorderCtrl, s.now.preorderCtrl, s.now.stapriv)

variable {env : RecvEnv} {s s' : RecvRun} {p : RecvPriv} {h h' : List Nat} {id : Nat} {f g : RecvFrame}
  {i : StaId} {tid : Fin 16} {l : List RecvFrame}

namespace Sound

theorem step (hs : s.Sound h) (hp : p.Inv) (hh : p.held = h') : (s.step p).Sound h' where
  inv := hp
  past q hq := by
    rcases List.mem_append.1 hq with hq | hq
    · exact hs.past q hq
    · rw [List.mem_singleton.1 hq]; exact hp.conserved
  held := hh

theorem step_congr (hs : s.Sound h) (hplace : ∀ q, p.place q = s.now.place q)
    (hcnt : p.freeRecvframeCnt = s.now.freeRecvframeCnt) : (s.step p).Sound h :=
  hs.step (hs.inv.congr hplace hcnt) ((hplace .held).trans hs.held)

theorem mem_held (hs : s.Sound h) (hid : id ∈ h) : id ∈ s.now.place .held := by
  rw [place, hs.held]; exact hid

theorem lt_of_mem_place {q : Place} (hs : s.Sound h) (hid : id ∈ s.now.place q) : id < nrRecvframe :=
  hs.inv.conserved.fromPool q id hid

theorem mem_place_defragQ (hf : f ∈ s.now.defragQ i) : f.id ∈ s.now.place (.defragQ i) := List.mem_map_of_mem hf

theorem free (hs : s.Sound h) {q : Place} (hid : id ∈ s.now.place q) (hq : q ≠ .freeRecvQueue) :
    (s.rtwFreeRecvframe id).Sound (h.filter (· ≠ id)) :=
  hs.step (hs.inv.rtwFreeRecvframe (hs.lt_of_mem_place hid) (hs.inv.notMem hid hq.symm))
    (by rw [← hs.held]; rfl)

theorem free_held (hs : s.Sound (id :: h)) : (s.rtwFreeRecvframe id).Sound h := by
  have hmem := hs.mem_held (List.mem_cons_self ..)
  have hnd : (id :: h).Nodup := hs.held ▸ hs.inv.conserved.nodup .held
  have hkeep : (id :: h).filter (· ≠ id) = h := by
    rw [List.filter_cons_of_neg (by simp), List.filter_eq_self]
    intro a ha
    exact decide_eq_true fun he => (List.nodup_cons.1 hnd).1 (he ▸ ha)
  rw [← hkeep]
  exact hs.free hmem (by simp)

theorem free_queued (hs : s.Sound h) (hf : f ∈ s.now.defragQ i) : (s.rtwFreeRecvframe f.id).Sound h := by
  have hmem := mem_place_defragQ hf
  have hkeep : h.filter (· ≠ f.id) = h := by
    rw [List.filter_eq_self, ← hs.held]
    intro a ha
    exact decide_eq_true fun he => hs.inv.notMem (q := .held) hmem (by simp) (he ▸ ha)
  rw [← hkeep]
  exact hs.free hmem (by simp)

end Sound

/-- Freeing a frame that is in no pending queue changes nothing but the queues it leaves and joins. -/
theorem side_free (hs : s.Sound h) {q : Place} (hid : id ∈ s.now.place q)
    (hq : ∀ j t, q ≠ .pendingRecvframeQueue j t) : (s.rtwFreeRecvframe id).side = s.side := by
  have hkeep : (s.now.rtwFreeRecvframe id).recvreorderCtrl = s.now.recvreorderCtrl := by
    funext j t
    have hfilter : (s.now.recvreorderCtrl j t).pending.filter (·.id ≠ id) = (s.now.recvreorderCtrl j t).pending := by
      rw [List.filter_eq_self]
      intro a ha
      refine decide_eq_true fun he => hs.inv.notMem hid (hq j t).symm ?_
      rw [← he]; exact List.mem_map_of_mem ha
    simp only [RecvPriv.rtwFreeRecvframe, listDelete, hfilter]
  exact congrArg (·, s.now.preorderCtrl, s.now.stapriv) hkeep

theorem side_free_held (hs : s.Sound (id :: h)) : (s.rtwFreeRecvframe id).side = s.side :=
  side_free hs (hs.mem_held (List.mem_cons_self ..)) (by simp)

theorem side_free_queued (hs : s.Sound h) (hf : f ∈ s.now.defragQ i) : (s.rtwFreeRecvframe f.id).side = s.side :=
  side_free hs (Sound.mem_place_defragQ hf) (by simp)

/-! ### The functions of the receive path -/

theorem Sound.freeQueue_aux (hs : s.Sound h) (hl : l ⊆ s.now.defragQ i) (hnd : (l.map (·.id)).Nodup) :
    (l.foldl (fun s f => s.rtwFreeRecvframe f.id) s).Sound h ∧
      (l.foldl (fun s f => s.rtwFreeRecvframe f.id) s).side = s.side := by
  induction l generalizing s with
  | nil => exact ⟨hs, rfl⟩
  | cons f l ih =>
    have hf : f ∈ s.now.defragQ i := hl (List.mem_cons_self ..)
    rw [List.map_cons, List.nodup_cons] at hnd
    -- the frames behind `f` stay in the queue
    have hl' : l ⊆ (s.rtwFreeRecvframe f.id).now.defragQ i := by
      intro g hg
      refine List.mem_filter.2 ⟨hl (List.mem_cons_of_mem _ hg), decide_eq_true fun he => hnd.1 ?_⟩
      rw [← he]; exact List.mem_map_of_mem hg
    obtain ⟨hsound, hside⟩ := ih (hs.free_queued hf) hl' hnd.2
    exact ⟨hsound, hside.trans (side_free_queued hs hf)⟩

theorem Sound.freeQueue (hs : s.Sound h) :
    (s.rtwFreeRecvframeQueue i).Sound h ∧ (s.rtwFreeRecvframeQueue i).side = s.side :=
  hs.freeQueue_aux (List.Subset.refl _) (hs.inv.conserved.nodup (.defragQ i))

theorem recvframeDefrag_ret : (s.recvframeDefrag i).2 = (Rtw.recvframeDefrag (s.now.defragQ i)).ret := by
  unfold RecvRun.recvframeDefrag
  cases hq : s.now.defragQ i with
  | nil => rfl
  | cons prframe l => dsimp only; split <;> simp [*]

/-- The frame that a function passes on is what the call holds afterwards. -/
def ids (f? : Option RecvFrame) : List Nat := (f?.map (·.id)).toList

@[simp] theorem ids_none : ids none = [] := rfl
@[simp] theorem ids_some : ids (some f) = [f.id] := rfl

theorem Sound.recvframeDefrag (hs : s.Sound h) :
    (s.recvframeDefrag i).1.Sound (ids (s.recvframeDefrag i).2 ++ h) ∧ (s.recvframeDefrag i).1.side = s.side := by
  unfold RecvRun.recvframeDefrag
  cases hq : s.now.defragQ i with
  | nil => exact ⟨hs, rfl⟩
  | cons prframe l =>
    have htake : (s.step (s.now.takeDefrag i prframe)).Sound (prframe.id :: h) :=
      hs.step (hs.inv.takeDefrag hq) (by rw [← hs.held]; rfl)
    dsimp only
    cases hr : (Rtw.recvframeDefrag (prframe :: l)).ret with
    | none =>
      obtain ⟨hsound, hside⟩ := htake.free_held.freeQueue
      exact ⟨hsound, hside.trans (side_free_held htake)⟩
    | some g =>
      obtain ⟨hsound, hside⟩ := htake.freeQueue
      refine ⟨?_, hside⟩
      obtain ⟨first, rest, hl, -, hloop⟩ := DefragRun.recvframeDefrag_eq_some hr
      obtain ⟨rfl, rfl⟩ := List.cons.inj hl
      simpa [defragLoop_id hloop] using hsound

theorem Sound.chkDefragQueue (hs : s.Sound (f.id :: h)) :
    (s.chkDefragQueue f).1.Sound (ids (s.chkDefragQueue f).2 ++ h) ∧ (s.chkDefragQueue f).1.side = s.side := by
  have hinsert {t : RecvRun} (ht : t.Sound (f.id :: h)) (i : StaId) : (t.step (t.now.insertDefrag i f)).Sound h :=
    ht.step (ht.inv.insertDefrag ht.held) (by rw [insertDefrag, ht.held, List.erase_cons_head])
  unfold RecvRun.chkDefragQueue
  split
  · exact ⟨hs, rfl⟩
  · cases s.now.defragSta f with
    | none => exact ⟨hs.free_held, side_free_held hs⟩
    | some i =>
      dsimp only
      split
      · split
        · exact ⟨hinsert hs.freeQueue.1 i, hs.freeQueue.2⟩
        · exact ⟨hinsert hs i, rfl⟩
      · exact (hinsert hs i).recvframeDefrag

theorem chkDefragQueue_ret (s : RecvRun) (f : RecvFrame) : (s.chkDefragQueue f).2 =
    (Rtw.chkDefragQueue ((s.now.defragSta f).map s.now.defragQ) f).ret := by
  unfold RecvRun.chkDefragQueue Rtw.chkDefragQueue
  split
  · rfl
  · cases s.now.defragSta f with
    | none => rfl
    | some i =>
      simp only [Option.map_some]
      split
      · split <;> rfl
      · rw [recvframeDefrag_ret]; simp [step, insertDefrag]

theorem recvframeChkmic_id (micErr : RecvFrame → Bool) (f : RecvFrame) : (recvframeChkmic micErr f).1.id = f.id := by
  unfold recvframeChkmic; split <;> simp

theorem Sound.recvframeChkDefrag (hs : s.Sound (f.id :: h)) (env : RecvEnv) :
    (s.recvframeChkDefrag env f).1.Sound (ids (s.recvframeChkDefrag env f).2 ++ h) ∧
      (s.recvframeChkDefrag env f).1.side = s.side := by
  obtain ⟨hsound, hside⟩ := hs.chkDefragQueue
  unfold RecvRun.recvframeChkDefrag
  rcases hq : s.chkDefragQueue f with ⟨t, _ | g⟩
  · rw [hq] at hsound hside; exact ⟨hsound, hside⟩
  · rw [hq] at hsound hside
    dsimp only
    split
    · rcases hm : recvframeChkmic env.micErr g with ⟨g', ok⟩
      have hid : g'.id = g.id := by
        rw [← recvframeChkmic_id env.micErr g, hm]
      have hheld : t.Sound (g'.id :: h) := by rw [hid]; exact hsound
      cases ok with
      | false => exact ⟨hheld.free_held, (side_free_held hheld).trans hside⟩
      | true => exact ⟨hheld, hside⟩
    · exact ⟨hsound, hside⟩

theorem recvframeChkDefrag_ret (env : RecvEnv) (s : RecvRun) (f : RecvFrame) : (s.recvframeChkDefrag env f).2 =
    (Rtw.recvframeChkDefrag env.micErr ((s.now.defragSta f).map s.now.defragQ) f).ret := by
  have hret := chkDefragQueue_ret s f
  unfold RecvRun.recvframeChkDefrag Rtw.recvframeChkDefrag
  generalize Rtw.chkDefragQueue ((s.now.defragSta f).map s.now.defragQ) f = r at hret ⊢
  rcases hq : s.chkDefragQueue f with ⟨t, g?⟩
  rw [hq] at hret
  obtain rfl : g? = r.ret := hret
  dsimp only
  cases hg : r.ret with
  | none => exact hg.symm
  | some g =>
    dsimp only
    split
    · rcases recvframeChkmic env.micErr g with ⟨g', _ | _⟩ <;> rfl
    · exact hg.symm

/-! ### Handing up -/

/-- Frames come off the front of a pending queue and go back to the free queue. -/
theorem Sound.indicate {stop : Bool} {out : List Indication} {rest : List RecvFrame} (hs : s.Sound h)
    (hflow : out ++ rest.map (indicateQueued stop) =
      (s.now.recvreorderCtrl i tid).pending.map (indicateQueued stop))
    (hstop : ∀ x ∈ out, x ≠ .stopped x.frame) : (s.indicate i tid out).Sound h := by
  induction out generalizing s with
  | nil => exact hs
  | cons x out ih =>
    obtain ⟨f, l, hl, hx, htail⟩ := List.map_eq_cons_iff.1 hflow.symm
    have hx : x = .inOrder f := by
      have hne := hstop x (List.mem_cons_self ..)
      unfold indicateQueued at hx
      split at hx
      · exact absurd (hx ▸ rfl) hne
      · exact hx.symm
    subst hx
    have htake : (s.step (s.now.takePending i tid f)).Sound (f.id :: h) :=
      hs.step (hs.inv.takePending hl) (by rw [← hs.held]; rfl)
    refine ih htake.free_held ?_ fun y hy => hstop y (List.mem_cons_of_mem _ hy)
    have hctrl : ((s.step (s.now.takePending i tid f)).rtwFreeRecvframe f.id).now.recvreorderCtrl i tid =
        (s.now.takePending i tid f).recvreorderCtrl i tid :=
      congrArg (fun c => c.1 i tid) (side_free_held htake)
    rw [hctrl, takePending, setPending_pending_self, hl]
    exact htail.symm

/-- The reorder buffer takes a frame over, at once or into the queue. -/
def taken? (env : RecvEnv) (ctrl : RecvReorderCtrl) (f : RecvFrame) : Bool :=
  (direct? env.cannotRun env.mpState ctrl f).isSome || (accepted? env.mpState ctrl f).isSome

theorem recvIndicatepktReorder_eq_success (env : RecvEnv) (s : RecvRun) (f : RecvFrame) :
    (s.recvIndicatepktReorder env f).2 = .success ↔ taken? env (s.now.reorderCtrl f) f = true := by
  unfold RecvRun.recvIndicatepktReorder taken? RecvPriv.reorderCtrl
  dsimp only
  rw [recvIndicatepktReorder_ret]
  split <;> simp [*]

/-- A frame that is refused stays with the call, any other does not. -/
theorem Sound.recvIndicatepktReorder (hs : s.Sound (f.id :: h))
    (hstop : ∀ x ∈ (Rtw.recvIndicatepktReorder env.cannotRun env.mpState (s.now.reorderCtrl f) f).out,
      x ≠ .stopped x.frame) :
    (s.recvIndicatepktReorder env f).1.Sound (if taken? env (s.now.reorderCtrl f) f then h else f.id :: h) := by
  unfold RecvRun.recvIndicatepktReorder taken?
  unfold RecvPriv.reorderCtrl at hstop ⊢
  generalize s.now.preorderCtrl f.id = c at hstop ⊢
  obtain ⟨i, tid⟩ := c
  dsimp only at hstop ⊢
  have hctrl {t : RecvRun} {k : List Nat} {c : RecvReorderCtrl} (ht : t.Sound k) :
      (t.step (t.now.setReorderCtrl i tid c)).Sound k :=
    ht.step_congr (fun _ => place_setReorderCtrl) rfl
  rcases recvIndicatepktReorder_cases env.cannotRun env.mpState (s.now.recvreorderCtrl i tid) f with
    ⟨g, hdirect, hacc, hid, hout, -⟩ | ⟨hdirect, hacc, hout, -⟩ | ⟨g, l, hacc, hid, hl, hflow⟩
  · rw [hout, hacc, hdirect]
    rw [← hid] at hs
    exact hctrl hs.free_held
  · rw [hout, hacc, hdirect]
    exact hctrl hs
  · rw [hacc]
    simp only [Option.bind_some, hl, Option.map_some, Option.isSome_some, Bool.or_true, if_true]
    rw [← hid] at hs
    have hin : (s.step (s.now.insertPending i tid l g)).Sound h :=
      hs.step (hs.inv.insertPending hs.held (enqueue_perm hl))
        (by rw [insertPending, setPending, hs.held, List.erase_cons_head])
    refine hctrl (hin.indicate (hflow.trans ?_) hstop)
    rw [RecvRun.step, insertPending, setPending_pending_self]

/-- The condition on a frame that comes to `process_recv_indicatepkts`: one that was put together from
fragments is not refused, and while the driver stops, the reorder buffer neither refuses a frame nor
drops one that it takes off its queue. -/
def IndicateOk (env : RecvEnv) (s : RecvPriv) (f : RecvFrame) (reassembled : Bool) : Prop :=
  if env.htOption then
    (reassembled || env.cannotRun → taken? env (s.reorderCtrl f) f) ∧
      (env.cannotRun → ∀ x ∈ (Rtw.recvIndicatepktReorder true env.mpState (s.reorderCtrl f) f).out,
        x ≠ .stopped x.frame)
  else reassembled → env.cannotRun = false ∧ (wlanhdrToEthhdr env.mpState f).isSome

instance (s : RecvPriv) (b : Bool) : Decidable (IndicateOk env s f b) := by unfold IndicateOk; infer_instance

theorem not_stopped_of_running {mp : Bool} {ctrl : RecvReorderCtrl} :
    ∀ x ∈ (Rtw.recvIndicatepktReorder false mp ctrl f).out, x ≠ .stopped x.frame := by
  intro x hx
  rcases recvIndicatepktReorder_cases false mp ctrl f with
    ⟨g, -, -, -, hout, -⟩ | ⟨-, -, hout, -⟩ | ⟨g, l, -, -, -, hflow⟩
  · rw [hout] at hx; rw [List.mem_singleton.1 hx]; simp
  · rw [hout] at hx; cases hx
  · have hx : x ∈ l.map (indicateQueued false) := hflow ▸ List.mem_append_left _ hx
    obtain ⟨y, -, rfl⟩ := List.mem_map.1 hx
    rw [indicateQueued_false]; simp

/-- What the call holds when a function has returned `ret`: only on success it has disposed of the frame. -/
def left (ret : Ret) (f : RecvFrame) (h : List Nat) : List Nat :=
  match ret with
  | .success => h
  | _ => f.id :: h

theorem Sound.processRecvIndicatepkts {b : Bool} (hs : s.Sound (f.id :: h)) (hok : IndicateOk env s.now f b) :
    (s.processRecvIndicatepkts env f).1.Sound (left (s.processRecvIndicatepkts env f).2 f h) ∧
      (b = true → (s.processRecvIndicatepkts env f).2 = .success) := by
  unfold IndicateOk at hok
  unfold RecvRun.processRecvIndicatepkts
  split at hok
  case isTrue hht =>
    have hstop : ∀ x ∈ (Rtw.recvIndicatepktReorder env.cannotRun env.mpState (s.now.reorderCtrl f) f).out,
        x ≠ .stopped x.frame := by
      cases hrun : env.cannotRun with
      | true => exact hok.2 hrun
      | false => exact not_stopped_of_running
    have hsound := hs.recvIndicatepktReorder hstop
    have hret := recvIndicatepktReorder_eq_success env s f
    rw [if_pos hht]
    generalize s.recvIndicatepktReorder env f = r at hsound hret ⊢
    obtain ⟨t, ret⟩ := r
    dsimp only at hsound hret ⊢
    cases htaken : taken? env (s.now.reorderCtrl f) f with
    | true =>
      rw [htaken, if_pos rfl] at hsound
      rw [hret.2 htaken]
      exact ⟨hsound, fun _ => rfl⟩
    | false =>
      have hrun : b = false ∧ env.cannotRun = false := by
        have := mt hok.1
        simpa [htaken] using this
      have hne : ret ≠ .success := fun he => by simp [hret.1 he] at htaken
      rw [htaken, if_neg (by simp)] at hsound
      rw [if_pos (by simp [hne, hrun.2]), hrun.1]
      exact ⟨hsound, by simp⟩
  case isFalse hht =>
    rw [if_neg hht]
    cases hconv : wlanhdrToEthhdr env.mpState f with
    | none => exact ⟨hs, fun hb => by simpa [hconv] using (hok hb).2⟩
    | some g =>
      dsimp only
      cases hrun : env.cannotRun with
      | true => exact ⟨hs, fun hb => by simpa [hrun] using (hok hb).1⟩
      | false =>
        rw [← (wlanhdrToEthhdr_eq_some hconv).1] at hs
        exact ⟨hs.free_held, fun _ => rfl⟩

/-! ### Data frames -/

/-- The condition on a data frame that comes to `recv_func_posthandle`. -/
def PosthandleOk (env : RecvEnv) (s : RecvPriv) (prframe : RecvFrame) : Prop :=
  ∀ f ∈ decrypted env prframe,
    ∀ g ∈ (Rtw.recvframeChkDefrag env.micErr ((s.defragSta f).map s.defragQ) f).ret,
      ∀ g' ∈ portctrl env.dot11AuthAlgrthm ((rtwGetStainfo s.stapriv g.attrib.ta).map env.ieee8021xBlocked) g,
        IndicateOk env s g' (f.attrib.fragNum ≠ 0)

instance (s : RecvPriv) : Decidable (PosthandleOk env s f) := by unfold PosthandleOk; infer_instance

theorem byte_memcpy {off k : Nat} {bs : List UInt8} (hk : k < off) : (f.memcpy off bs).byte k = f.byte k := by
  unfold RecvFrame.byte
  rw [RecvFrame.mem_memcpy]
  by_cases hlen : k < f.mem.length
  · rw [getElem?_memcpyAt _ _ _ _ hlen, if_neg (by omega)]
  · rw [List.getElem?_eq_none (by rw [length_memcpyAt]; omega), List.getElem?_eq_none (by omega)]

theorem decrypted_eq_some (hd : decrypted env f = some g) : g.id = f.id ∧
    g.attrib = { f.attrib with bdecrypted := true } ∧ ∀ k < f.attrib.hdrlen, g.byte k = f.byte k := by
  unfold decrypted at hd
  split at hd
  · obtain rfl := Option.some.inj hd
    exact ⟨rfl, rfl, fun k hk => byte_memcpy hk⟩
  · cases hd

theorem portctrl_eq_some {authAlg : Nat} {blocked : Option Bool} (hp : portctrl authAlg blocked f = some g) :
    g = f := by
  unfold portctrl at hp
  repeat' split at hp
  all_goals first | cases hp; done | exact (Option.some.inj hp).symm

/-- A frame without a fragment number that gets through is itself. -/
theorem chkDefrag_id {micErr : RecvFrame → Bool} {q : Option (List RecvFrame)} (hf : f.attrib.fragNum = 0)
    (hr : (Rtw.recvframeChkDefrag micErr q f).ret = some g) : g.id = f.id := by
  have hqueue : ∀ x, (Rtw.chkDefragQueue q f).ret = some x → x = f := by
    intro x hx
    unfold Rtw.chkDefragQueue at hx
    cases hm : f.attrib.mfrag with
    | false => simpa [hm, hf] using hx.symm
    | true => cases q <;> simp [hm, hf] at hx
  unfold Rtw.recvframeChkDefrag at hr
  dsimp only at hr
  cases hx : (Rtw.chkDefragQueue q f).ret with
  | none => rw [hx] at hr; dsimp only at hr; rw [hx] at hr; cases hr
  | some x =>
    obtain rfl := hqueue x hx
    rw [hx] at hr
    dsimp only at hr
    split at hr
    · rcases hm : recvframeChkmic micErr x with ⟨y, _ | _⟩
      · rw [hm] at hr; cases hr
      · rw [hm] at hr
        rw [← Option.some.inj hr, ← recvframeChkmic_id micErr x, hm]
    · rw [hx] at hr; rw [← Option.some.inj hr]

theorem Sound.recvFuncPosthandle (hs : s.Sound (f.id :: h)) (hok : PosthandleOk env s.now f) :
    (s.recvFuncPosthandle env f).1.Sound h := by
  unfold RecvRun.recvFuncPosthandle decryptor
  cases hd : decrypted env f with
  | none => exact hs.free_held
  | some d =>
    have hdid := (decrypted_eq_some hd).1
    replace hok := hok d hd
    rw [← hdid] at hs ⊢
    obtain ⟨hsound, hside⟩ := hs.recvframeChkDefrag env
    have hret := recvframeChkDefrag_ret env s d
    dsimp only
    generalize s.recvframeChkDefrag env d = r at hsound hside hret ⊢
    obtain ⟨t, _ | g⟩ := r
    · exact hsound
    · replace hok := hok g hret.symm
      replace hsound : t.Sound (g.id :: h) := hsound
      have hsta : t.now.stapriv = s.now.stapriv := congrArg (fun c => c.2.2) hside
      have hctrl : t.now.reorderCtrl g = s.now.reorderCtrl g :=
        congrArg (fun c => c.1 (c.2.1 g.id).1 (c.2.1 g.id).2) hside
      dsimp only
      rw [hsta]
      cases hport : portctrl env.dot11AuthAlgrthm
          ((rtwGetStainfo s.now.stapriv g.attrib.ta).map env.ieee8021xBlocked) g with
      | none => exact hsound.free_held
      | some g' =>
        obtain rfl := portctrl_eq_some hport
        replace hok : IndicateOk env t.now g' (d.attrib.fragNum ≠ 0) := by
          have := hok g' hport
          unfold IndicateOk at this ⊢
          rwa [hctrl]
        obtain ⟨hproc, hsucc⟩ := hsound.processRecvIndicatepkts hok
        dsimp only
        generalize t.processRecvIndicatepkts env g' = r at hproc hsucc ⊢
        obtain ⟨u, ret⟩ := r
        -- a frame that is refused is the one that came in
        have hid (hne : ret ≠ .success) : g'.id = d.id := by
          refine chkDefrag_id ?_ hret.symm
          by_contra hfrag
          exact hne (hsucc (decide_eq_true hfrag))
        cases ret with
        | success => exact hproc
        | fail => rw [← hid (by simp)]; exact hproc.free_held
        | rxHandled => rw [← hid (by simp)]; exact hproc.free_held

/-! ### Stations and management frames -/

/-- The condition on the other operations: a station entry that is taken into use has no frames left. -/
def MlmeOk (s : RecvRun) : MlmeOp → Prop
  | .allocStainfo hwaddr => ∀ r ∈ rtwAllocStainfo s.now.stapriv hwaddr,
      s.now.defragQ r.2 = [] ∧ ∀ tid, (s.now.recvreorderCtrl r.2 tid).pending = []
  | _ => True

instance : (op : MlmeOp) → Decidable (s.MlmeOk op)
  | .allocStainfo _ => by unfold MlmeOk; infer_instance
  | .freeStainfo _ | .freeUcSwdecPendingQueue | .actionBack .. | .sendDelba .. => .isTrue trivial

theorem Sound.rtwFreeUcSwdecPendingQueue (hs : s.Sound h) : s.rtwFreeUcSwdecPendingQueue.Sound h := by
  unfold RecvRun.rtwFreeUcSwdecPendingQueue
  generalize s.now.ucSwdecPendingQueue = l
  induction l generalizing s with
  | nil => exact hs
  | cons x l ih =>
    refine ih ?_
    dsimp only
    cases hd : s.now.dequeueUcSwdec with
    | none => exact hs
    | some r =>
      obtain ⟨p, f⟩ := r
      obtain ⟨hinv, hheld⟩ := hs.inv.dequeueUcSwdec hd
      exact (hs.step hinv (hheld.trans (by rw [hs.held]))).free_held

theorem Sound.rtwFreeStainfo (hs : s.Sound h) : (s.rtwFreeStainfo i).Sound h := by
  unfold RecvRun.rtwFreeStainfo
  generalize List.finRange 16 = tids
  suffices hflush : (tids.foldl (fun s tid =>
      s.indicate i tid ((s.now.recvreorderCtrl i tid).pending.map .inOrder)) s).Sound h from
    hflush.step_congr (fun q => by cases q <;> rfl) rfl
  induction tids generalizing s with
  | nil => exact hs
  | cons tid tids ih =>
    have hflow : (s.now.recvreorderCtrl i tid).pending.map .inOrder ++ [].map (indicateQueued false) =
        (s.now.recvreorderCtrl i tid).pending.map (indicateQueued false) := by
      rw [List.map_nil, List.append_nil]
      exact List.map_congr_left fun g _ => (indicateQueued_false g).symm
    refine ih (hs.indicate hflow fun x hx => ?_)
    obtain ⟨g, -, rfl⟩ := List.mem_map.1 hx
    simp

theorem Sound.setReorderCtrl {ctrl : RecvReorderCtrl} (hs : s.Sound h) :
    (s.step (s.now.setReorderCtrl i tid ctrl)).Sound h :=
  hs.step_congr (fun _ => place_setReorderCtrl) rfl

theorem Sound.mlmeOp {op : MlmeOp} (hs : s.Sound h) (hok : s.MlmeOk op) : (s.mlmeOp op).Sound h := by
  cases op with
  | allocStainfo hwaddr => exact hs.step_congr (fun _ => place_allocStainfo hok) freeRecvframeCnt_allocStainfo
  | freeStainfo i => exact hs.rtwFreeStainfo
  | freeUcSwdecPendingQueue => exact hs.rtwFreeUcSwdecPendingQueue
  | actionBack i tid env body =>
    unfold RecvRun.mlmeOp
    cases hc : onActionBack env tid body (s.now.recvreorderCtrl i tid) with
    | none => simpa only [hc] using hs
    | some ctrl => simpa only [hc] using hs.setReorderCtrl
  | sendDelba i tid call =>
    unfold RecvRun.mlmeOp
    cases hc : (sendDelbaStaTid call (s.now.recvreorderCtrl i tid)).2 with
    | none => simpa only [hc] using hs
    | some ctrl => simpa only [hc] using hs.setReorderCtrl

/-- The condition on a management frame: with protection on, it can be decrypted, and when it is not the
first of several fragments, it is no fragment at all and its MIC is right. -/
def MgmtOk (env : RecvEnv) (s : RecvRun) (f : RecvFrame) : Prop :=
  (env.binstallBIPkey → isProtectedMgmt f → env.zmallocOk → (decrypted env (protectedMgmt f)).isSome) ∧
    ∀ g ∈ (s.validate80211wMgmt env f).2, g.attrib.mfrag = false →
      g.attrib.fragNum = 0 ∧ (g.attrib.privacy → (recvframeChkmic env.micErr g).2) ∧
        Machine.RunOk mlmeOp MlmeOk s env.mgtDispatcher

instance : Decidable (MgmtOk env s f) := by unfold MgmtOk; infer_instance

/-- A frame that `validate_80211w_mgmt` passes on is the one that came in. -/
theorem validate80211wMgmt_eq
    (hok : env.binstallBIPkey → isProtectedMgmt f → env.zmallocOk → (decrypted env (protectedMgmt f)).isSome) :
    (s.validate80211wMgmt env f).1 = s ∧
      ∀ g ∈ (s.validate80211wMgmt env f).2, g.id = f.id ∧ g.frameType = f.frameType := by
  unfold validate80211wMgmt
  split
  case isFalse => exact ⟨rfl, by rintro _ ⟨⟩; exact ⟨rfl, rfl⟩⟩
  case isTrue hbip =>
    split
    case isTrue hprot =>
      split
      · exact ⟨rfl, by simp⟩
      case isFalse hmem =>
        obtain ⟨d, hd⟩ := Option.isSome_iff_exists.1 (hok hbip hprot (by simpa using hmem))
        simp only [decryptor, hd]
        refine ⟨trivial, ?_⟩
        rintro _ ⟨⟩
        obtain ⟨hid, hattr, hbyte⟩ := decrypted_eq_some hd
        have hhdr : d.attrib.hdrlen = 24 := by rw [hattr]; rfl
        refine ⟨hid, ?_⟩
        unfold RecvFrame.frameType
        rw [byte_memcpy (by omega), hbyte 0 (by simp [protectedMgmt])]
        rfl
    · split
      · exact ⟨rfl, by rintro _ ⟨⟩; exact ⟨rfl, rfl⟩⟩
      · exact ⟨rfl, by simp⟩

theorem defragSta_isSome (hty : f.frameType = wifiMgtType) : (s.now.defragSta f).isSome = true := by
  unfold defragSta
  split
  · rfl
  · rw [if_pos (by rw [hty]; decide)]; rfl

theorem Sound.mlmeOps {ops : List MlmeOp} (hs : s.Sound h) (hok : Machine.RunOk RecvRun.mlmeOp MlmeOk s ops) :
    (ops.foldl RecvRun.mlmeOp s).Sound h :=
  Machine.run_invariant_of_ok (I := fun s => s.Sound h) (fun _ _ hs hok => hs.mlmeOp hok) hs hok

/-- The caller frees a management frame, be it in its hands or in the queue to which it went. -/
theorem Sound.validateRecvMgntFrame (hs : s.Sound (f.id :: h)) (hty : f.frameType = wifiMgtType)
    (hok : f.attrib.mfrag = false → f.attrib.fragNum = 0 ∧
      (f.attrib.privacy → (recvframeChkmic env.micErr f).2) ∧
      Machine.RunOk RecvRun.mlmeOp MlmeOk s env.mgtDispatcher) :
    ((s.validateRecvMgntFrame env f).rtwFreeRecvframe f.id).Sound h := by
  unfold RecvRun.validateRecvMgntFrame
  cases hm : f.attrib.mfrag with
  | true =>
    obtain ⟨i, hi⟩ := Option.isSome_iff_exists.1 (defragSta_isSome (s := s) hty)
    have hqueue : ∃ t : RecvRun, s.chkDefragQueue f = (t.step (t.now.insertDefrag i f), none) ∧
        t.Sound (f.id :: h) := by
      unfold RecvRun.chkDefragQueue
      simp only [hm, hi, Bool.not_true, Bool.false_and, Bool.false_eq_true, if_false, if_true]
      by_cases hf : f.attrib.fragNum = 0
      · rw [if_pos hf]; exact ⟨_, rfl, hs.freeQueue.1⟩
      · rw [if_neg hf]; exact ⟨_, rfl, hs⟩
    obtain ⟨t, ht, hsound⟩ := hqueue
    have hin : (t.step (t.now.insertDefrag i f)).Sound h :=
      hsound.step (hsound.inv.insertDefrag hsound.held) (by rw [insertDefrag, hsound.held, List.erase_cons_head])
    rw [RecvRun.recvframeChkDefrag, ht]
    exact hin.free_queued (i := i) (by simp [RecvRun.step, insertDefrag])
  | false =>
    obtain ⟨hf, hmic, hops⟩ := hok hm
    have hdone := (hs.mlmeOps hops).free_held
    have hpass : ∃ g, s.recvframeChkDefrag env f = (s, some g) := by
      unfold RecvRun.recvframeChkDefrag RecvRun.chkDefragQueue
      simp only [hm, hf, Bool.not_false, decide_true, Bool.and_self, if_true]
      cases hp : f.attrib.privacy with
      | false => exact ⟨f, rfl⟩
      | true =>
        replace hmic := hmic hp
        generalize recvframeChkmic env.micErr f = r at hmic ⊢
        obtain ⟨g, ok⟩ := r
        obtain rfl : ok = true := hmic
        exact ⟨g, rfl⟩
    obtain ⟨g, hg⟩ := hpass
    rw [hg]
    exact hdone

/-! ### `recv_func` -/

/-- The condition on a frame that comes to `recv_func_prehandle`: in MP mode it is not handed up, and a
management frame is as it should be. -/
def PrehandleOk (env : RecvEnv) (s : RecvRun) (f : RecvFrame) : Prop :=
  if env.mpMode then (env.fwLinked && env.rxBindicatePkt && f.frameType == wifiDataType && !env.cannotRun) = false
  else f.byte 0 &&& 0x03 = 0 → f.frameType = wifiMgtType → MgmtOk env s f.parseHeader

instance : Decidable (PrehandleOk env s f) := by unfold PrehandleOk; infer_instance

/-- A frame that `recv_func_prehandle` does not pass on is free afterwards. -/
theorem Sound.recvFuncPrehandle (hs : s.Sound (f.id :: h)) (hok : PrehandleOk env s f) :
    (s.recvFuncPrehandle env f).2.1.id = f.id ∧
      ((s.recvFuncPrehandle env f).2.2 = .success → (s.recvFuncPrehandle env f).1.Sound (f.id :: h)) ∧
      ((s.recvFuncPrehandle env f).2.2 ≠ .success → (s.recvFuncPrehandle env f).1.Sound h) := by
  unfold PrehandleOk at hok
  unfold RecvRun.recvFuncPrehandle
  split at hok
  case isTrue hmp =>
    rw [if_pos hmp, mpRecvFrame, hok]
    exact ⟨rfl, by simp, fun _ => hs.free_held⟩
  case isFalse hmp =>
    rw [if_neg hmp]
    unfold RecvRun.validateRecvFrame
    by_cases hver : f.byte 0 &&& 0x03 = 0
    · rw [if_neg (by simp [hver])]
      have hty : f.parseHeader.frameType = f.frameType := rfl
      by_cases hmgt : f.frameType = wifiMgtType
      · obtain ⟨hprot, hmgmt⟩ := hok hver hmgt
        obtain ⟨hstay, hsame⟩ := validate80211wMgmt_eq (s := s) hprot
        simp only [hty, hmgt, if_true]
        generalize s.validate80211wMgmt env f.parseHeader = r at hstay hsame hmgmt ⊢
        obtain ⟨t, _ | g⟩ := r
        · obtain rfl : t = s := hstay
          exact ⟨rfl, by simp, fun _ => hs.free_held⟩
        · obtain rfl : t = s := hstay
          obtain ⟨hid, hgty⟩ := hsame g rfl
          replace hid : g.id = f.id := hid
          refine ⟨rfl, by simp, fun _ => ?_⟩
          rw [← hid] at hs
          have := Sound.validateRecvMgntFrame hs (hgty.trans (hty.trans hmgt)) (hmgmt g rfl)
          rwa [hid] at this
      · simp only [hty, hmgt, if_false]
        by_cases hdata : f.frameType = wifiDataType
        · have hset : (s.validateRecvDataFrame env f.parseHeader).1.Sound (f.id :: h) :=
            hs.step_congr (fun q => by cases q <;> rfl) rfl
          simp only [hdata, if_true]
          unfold RecvRun.validateRecvDataFrame at hset ⊢
          cases hret : env.dataRet with
          | success => exact ⟨rfl, fun _ => hset, by simp⟩
          | fail => exact ⟨rfl, by simp, fun _ => hset.free_held⟩
          | rxHandled => exact ⟨rfl, by simp, fun _ => hset.free_held⟩
        · simp only [hdata, if_false]
          exact ⟨rfl, by simp, fun _ => hs.free_held⟩
    · rw [if_pos (by simp [hver])]
      exact ⟨rfl, by simp, fun _ => hs.free_held⟩

/-- The condition on the frames that waited for the key. -/
def DrainOk (env : RecvEnv) : RecvRun → List RecvFrame → Prop
  | _, [] => True
  | s, _ :: l =>
    match s.now.dequeueUcSwdec with
    | none => True
    | some (p, f) => PosthandleOk env p f ∧ DrainOk env ((s.step p).recvFuncPosthandle env f).1 l

instance instDecidableDrainOk (env : RecvEnv) : (s : RecvRun) → (l : List RecvFrame) → Decidable (DrainOk env s l)
  | _, [] => .isTrue trivial
  | s, x :: l =>
    match hd : s.now.dequeueUcSwdec with
    | none => .isTrue (by simp [DrainOk, hd])
    | some (p, f) =>
      have := instDecidableDrainOk env ((s.step p).recvFuncPosthandle env f).1 l
      decidable_of_iff (PosthandleOk env p f ∧ DrainOk env ((s.step p).recvFuncPosthandle env f).1 l)
        (by simp [DrainOk, hd])

theorem Sound.drainUcSwdec (hs : s.Sound h) (hok : DrainOk env s l) : (s.drainUcSwdec env l).Sound h := by
  induction l generalizing s with
  | nil => exact hs
  | cons x l ih =>
    unfold DrainOk at hok
    unfold RecvRun.drainUcSwdec
    cases hd : s.now.dequeueUcSwdec with
    | none => exact hs
    | some r =>
      obtain ⟨p, f⟩ := r
      rw [hd] at hok
      obtain ⟨hinv, hheld⟩ := hs.inv.dequeueUcSwdec hd
      have htake : (s.step p).Sound (f.id :: h) := hs.step hinv (hheld.trans (by rw [hs.held]))
      exact ih (htake.recvFuncPosthandle hok.1) hok.2

theorem Sound.swdecPending (hs : s.Sound (f.id :: h)) (env : RecvEnv) :
    (s.swdecPending env f).1.Sound (ids (s.swdecPending env f).2 ++ h) := by
  have hmem := hs.mem_held (List.mem_cons_self ..)
  have hnd : (f.id :: h).Nodup := hs.held ▸ hs.inv.conserved.nodup .held
  have hin : (s.step (s.now.enqueueUcSwdec f)).Sound h := by
    have hfree := hs.inv.notMem (q := .freeRecvQueue) hmem (by simp)
    refine hs.step (hs.inv.enqueueUcSwdec (hs.lt_of_mem_place hmem) hfree) ?_
    change s.now.held.filter (· ≠ f.id) = h
    rw [hs.held, List.filter_cons_of_neg (by simp), List.filter_eq_self]
    intro a ha
    exact decide_eq_true fun he => (List.nodup_cons.1 hnd).1 (he ▸ ha)
  unfold RecvRun.swdecPending
  split
  · dsimp only
    split
    · cases hd : (s.step (s.now.enqueueUcSwdec f)).now.dequeueUcSwdec with
      | none => exact hin
      | some r =>
        obtain ⟨p, g⟩ := r
        obtain ⟨hinv, hheld⟩ := hin.inv.dequeueUcSwdec hd
        exact hin.step hinv (hheld.trans (by rw [hin.held]; rfl))
    · exact hin
  · exact hs

/-- The condition on a call of `recv_func`. -/
def RecvFuncOk (env : RecvEnv) (s : RecvRun) (f : RecvFrame) : Prop :=
  env.monitorState = false →
    (env.stationState && env.busetkipkey → DrainOk env s s.now.ucSwdecPendingQueue) ∧
      PrehandleOk env (s.swdecDrained env) f ∧
      let r := (s.swdecDrained env).recvFuncPrehandle env f
      r.2.2 = .success →
        ∀ g ∈ (r.1.swdecPending env r.2.1).2, PosthandleOk env (r.1.swdecPending env r.2.1).1.now g

instance : Decidable (RecvFuncOk env s f) := by unfold RecvFuncOk; infer_instance

theorem Sound.recvFunc (hs : s.Sound (f.id :: h)) (hok : RecvFuncOk env s f) : (s.recvFunc env f).Sound h := by
  unfold RecvRun.recvFunc
  split
  · unfold RecvRun.recvFrameMonitor
    repeat' split
    all_goals exact hs.free_held
  case isFalse hmon =>
    obtain ⟨hdrain, hpre, hpost⟩ := hok (by simpa using hmon)
    have hdrained : (s.swdecDrained env).Sound (f.id :: h) := by
      unfold RecvRun.swdecDrained
      split
      case isTrue hkey => exact hs.drainUcSwdec (hdrain hkey)
      case isFalse => exact hs
    obtain ⟨hid, hsucc, hfail⟩ := hdrained.recvFuncPrehandle hpre
    generalize (s.swdecDrained env).recvFuncPrehandle env f = r at hid hsucc hfail hpost ⊢
    obtain ⟨t, g, ret⟩ := r
    cases ret with
    | success =>
      have hheld : t.Sound (g.id :: h) := by
        replace hid : g.id = f.id := hid
        rw [hid]; exact hsucc rfl
      have hpend := hheld.swdecPending env
      replace hpost := hpost rfl
      dsimp only at hpost ⊢
      generalize t.swdecPending env g = r at hpend hpost ⊢
      obtain ⟨u, _ | x⟩ := r
      · exact hpend
      · exact Sound.recvFuncPosthandle hpend (hpost x rfl)
    | fail => exact hfail (by simp)
    | rxHandled => exact hfail (by simp)

/-! ### Runs -/

/-- The condition on the single step. -/
def StepOk (s : RecvRun) : RecvEvent → Prop
  | .recvbuf env usable rx => usable → ∀ r ∈ s.now.rtwAllocRecvframe,
      RecvFuncOk env (s.step r.1) { rx with id := r.2 }
  | .timeout _ _ _ => True
  | .mlme op => s.MlmeOk op

instance : (e : RecvEvent) → Decidable (s.StepOk e)
  | .recvbuf .. => by unfold StepOk; infer_instance
  | .timeout .. => .isTrue trivial
  | .mlme _ => by unfold StepOk; infer_instance

theorem Sound.timeout {stop : Bool} (hs : s.Sound h) : (s.rtwReorderingCtrlTimeoutHandler stop i tid).Sound h := by
  unfold RecvRun.rtwReorderingCtrlTimeoutHandler
  cases stop with
  | true => exact hs.setReorderCtrl
  | false =>
    have hflow := @timeout_flow false (s.now.recvreorderCtrl i tid)
    refine (hs.indicate hflow fun x hx => ?_).setReorderCtrl
    have hx : x ∈ (s.now.recvreorderCtrl i tid).pending.map (indicateQueued false) :=
      hflow ▸ List.mem_append_left _ hx
    obtain ⟨y, -, rfl⟩ := List.mem_map.1 hx
    rw [indicateQueued_false]; simp

theorem Sound.next {e : RecvEvent} (hs : s.Sound []) (hok : s.StepOk e) : (s.next e).Sound [] := by
  cases e with
  | recvbuf env usable rx =>
    unfold RecvRun.next RecvRun.recvbuf2recvframe
    cases ha : s.now.rtwAllocRecvframe with
    | none => exact hs
    | some r =>
      obtain ⟨p, id⟩ := r
      obtain ⟨hinv, hheld, -⟩ := hs.inv.rtwAllocRecvframe ha
      have halloc : (s.step p).Sound [id] := hs.step hinv (hheld.trans (by rw [hs.held]))
      dsimp only
      split
      case isTrue husable => exact Sound.recvFunc (f := { rx with id }) halloc (hok husable (p, id) ha)
      case isFalse => exact halloc.free_held
  | timeout stop i tid => exact hs.timeout
  | mlme op => exact hs.mlmeOp hok

theorem Sound.start (maxNumSta : Nat) : (start maxNumSta).Sound [] :=
  ⟨Inv.init maxNumSta, by simp [RecvRun.start], rfl⟩

/-- In a run whose steps all meet the condition the pool is conserved after every single operation, and
between the calls no frame is in anyone's hands. -/
theorem poolConserved_run (maxNumSta : Nat) (evs : List RecvEvent)
    (hok : Machine.RunOk next StepOk (start maxNumSta) evs) :
    let s := Machine.run next (start maxNumSta) evs
    (∀ p ∈ s.past, p.Conserved) ∧ s.now.Conserved ∧ s.now.held = [] :=
  have hs := Machine.run_invariant_of_ok (I := fun s => s.Sound []) (fun _ _ hs hok => hs.next hok)
    (Sound.start maxNumSta) hok
  ⟨hs.past, hs.inv.conserved, hs.held⟩

/-- A driver with HT and without keys; data frames are those of entry 1. -/
def plainEnv : RecvEnv where
  monitorState := false
  stationState := false
  mpState := false
  fwLinked := true
  cannotRun := false
  mpMode := false
  rxBindicatePkt := false
  htOption := true
  busetkipkey := false
  swDecrypt := false
  authModeWpapsk := false
  binstallBIPkey := false
  dot11AuthAlgrthm := 0
  ieee8021xBlocked _ := false
  radiotapOk := true
  dataRet := .success
  dataAttrib := (DefragRun.fragment 0 0 false []).attrib
  dataSta := 1
  decrypt _ := (true, [])
  micErr _ := false
  zmallocOk := true
  mgmtAllowed := true
  mgtDispatcher := []

/-- A received frame of 28 bytes with the given frame control and sequence control bytes. -/
def received (fc0 fc1 seqctl : UInt8) : RecvFrame :=
  { DefragRun.fragment 0 0 false [] with data := fc0 :: fc1 :: List.replicate 20 4 ++ [seqctl, 0] ++ [1, 2, 3, 4] }

/-- A beacon and the two fragments of a data frame come in; the frames are all free again. -/
theorem poolConserved_run_fragments :
    let evs := [.mlme (.allocStainfo (.replicate 6 4)), .recvbuf plainEnv true (received 0x80 0 0x10),
      .recvbuf plainEnv true (received 0x08 0x04 0x20), .recvbuf plainEnv true (received 0x08 0 0x21)]
    let s := Machine.run next (start 8) evs
    s.now.freeRecvframeCnt = nrRecvframe ∧ s.past.length = 13 ∧
      (∀ p ∈ s.past, p.Conserved) ∧ s.now.Conserved ∧ s.now.held = [] :=
  ⟨by decide +kernel, by decide +kernel, poolConserved_run 8 _ (by decide +kernel)⟩

/-- A management frame with a fragment number but no More Fragments bit is freed twice. -/
theorem not_poolConserved_mgmtFragment :
    ¬ ∀ (maxNumSta : Nat) (evs : List RecvEvent), let s := Machine.run next (start maxNumSta) evs
      (∀ p ∈ s.past, p.Conserved) ∧ s.now.Conserved ∧ s.now.held = [] := by
  intro h
  have hcnt := (h 8 [.recvbuf plainEnv true (received 0x80 0 0x01)]).2.1.cnt
  exact absurd hcnt (by decide +kernel)

end RecvRun

end Rtw
