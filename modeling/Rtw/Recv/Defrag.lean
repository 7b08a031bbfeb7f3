import Mathlib.Data.List.Chain
import Mathlib.Data.List.Range
import Rtw.Lib.Run
import Rtw.Recv.Frame

/-!
# Reassembly of fragments

`recvframe_chk_defrag` collects the fragments of a station in its `defrag_q`; the one without More
Fragments makes `recvframe_defrag` append the payloads to the first fragment. Fragment numbers are
checked when the fragments are put together, sequence numbers nowhere. `StepOk` is the condition on
an arriving fragment under which a reassembled frame is one MSDU (`assembled_run`).
-/

namespace Rtw

/-- `recvframe_chkmic`: the frame without its MIC, and whether that was right. `micErr` says whether
the group key is missing or the Michael code of the frame is another one. -/
def recvframeChkmic (micErr : RecvFrame → Bool) (f : RecvFrame) : RecvFrame × Bool :=
  if f.attrib.encrypt = .tkip then ((recvframePullTail f 8).getD f, !micErr f) else (f, true)

/-- `_rtw_memcpy` to `rx_tail`, then `recvframe_put`: the room is looked at after the copy. -/
def copyBehind (f : RecvFrame) (bs : List UInt8) : RecvFrame :=
  let f := f.memcpy f.len bs
  (recvframePut f bs.length).getD f

/-- The body of the loop of `recvframe_defrag`: the payload of `pnfhdr` goes behind that of `prframe`,
in place of its ICV. Neither pull is checked. -/
def appendFragment (prframe pnfhdr : RecvFrame) : RecvFrame :=
  let next := (recvframePull pnfhdr (pnfhdr.attrib.hdrlen + pnfhdr.attrib.ivLen)).getD pnfhdr
  let f := (recvframePullTail prframe prframe.attrib.icvLen).getD prframe
  let f := copyBehind f next.data
  { f with attrib := { f.attrib with icvLen := next.attrib.icvLen } }

/-- The loop of `recvframe_defrag`; `none` when a fragment number is out of turn. -/
def defragLoop (curfragnum : Nat) (prframe : RecvFrame) : List RecvFrame → Option RecvFrame
  | [] => some prframe
  | next :: l =>
    if curfragnum ≠ next.attrib.fragNum then none
    else defragLoop (curfragnum + 1) (appendFragment prframe next) l

/-- What a function on the `defrag_q` of a station leaves behind: the queue, the frames given back to
the free queue, and the frame that it returns. -/
structure DefragResult where
  defragQ : List RecvFrame
  freed : List RecvFrame
  ret : Option RecvFrame

/-- `recvframe_defrag`. The queue is not empty: the last fragment has just been put into it. -/
def recvframeDefrag : List RecvFrame → DefragResult
  | [] => ⟨[], [], none⟩
  | prframe :: l =>
    if prframe.attrib.fragNum ≠ 0 then ⟨[], prframe :: l, none⟩
    else
      match defragLoop 1 prframe l with
      | none => ⟨[], prframe :: l, none⟩
      | some f => ⟨[], l, some f⟩

/-- The part of `recvframe_chk_defrag` that queues fragments and reassembles them; `pdefragQ` is `none`
when the sender of a data frame is not known. -/
def chkDefragQueue (pdefragQ : Option (List RecvFrame)) (f : RecvFrame) : DefragResult :=
  if !f.attrib.mfrag && f.attrib.fragNum = 0 then ⟨pdefragQ.getD [], [], some f⟩
  else
    match pdefragQ with
    | none => ⟨[], [f], none⟩
    | some q =>
      if f.attrib.mfrag then
        if f.attrib.fragNum = 0 then ⟨[f], q, none⟩ else ⟨q ++ [f], [], none⟩
      else recvframeDefrag (q ++ [f])

def recvframeChkDefrag (micErr : RecvFrame → Bool) (pdefragQ : Option (List RecvFrame)) (f : RecvFrame) :
    DefragResult :=
  let r := chkDefragQueue pdefragQ f
  match r.ret with
  | none => r
  | some g =>
    if g.attrib.privacy then
      match recvframeChkmic micErr g with
      | (g, true) => { r with ret := some g }
      | (g, false) => { r with ret := none, freed := r.freed ++ [g] }
    else r

/-! ### What a reassembled frame should be -/

namespace RecvFrame

/-- The part of the MSDU that a frame carries: what is between the headers and the ICV. -/
def msduPart (f : RecvFrame) : List UInt8 :=
  (f.data.drop (f.attrib.hdrlen + f.attrib.ivLen)).take
    (f.len - (f.attrib.hdrlen + f.attrib.ivLen) - f.attrib.icvLen)

/-- Headers and ICV fit into the frame. -/
def Whole (f : RecvFrame) : Prop := f.attrib.hdrlen + f.attrib.ivLen + f.attrib.icvLen ≤ f.len

instance (f : RecvFrame) : Decidable f.Whole := inferInstanceAs (Decidable (_ ≤ _))

/-- The buffer of a frame from `rx_data` on. -/
def room (f : RecvFrame) : Nat := f.data.length + f.slack.length

end RecvFrame

/-- `f` is put together from all fragments of one MSDU. -/
structure Assembled (frags : List RecvFrame) (f : RecvFrame) : Prop where
  sameSeq : ∀ g ∈ frags, ∀ h ∈ frags, g.attrib.seqNum = h.attrib.seqNum
  consecutive : frags.map (fun g => (g.attrib.fragNum : Nat)) = List.range frags.length
  moreFrags : ∀ g ∈ frags.dropLast, g.attrib.mfrag = true
  payload : f.msduPart = (frags.map (·.msduPart)).flatten

/-- The fragments of `l` fit one after the other into `room` bytes of which `used` are taken. -/
def FitsIn (room used : Nat) : List RecvFrame → Prop
  | [] => True
  | g :: l => used + g.msduPart.length + g.attrib.icvLen ≤ room ∧ FitsIn room (used + g.msduPart.length) l

instance instDecidableFitsIn (room : Nat) : (used : Nat) → (l : List RecvFrame) → Decidable (FitsIn room used l)
  | _, [] => .isTrue trivial
  | used, g :: l =>
    have := instDecidableFitsIn room (used + g.msduPart.length) l
    inferInstanceAs (Decidable (_ ∧ _))

/-! ### Putting fragments together -/

section
variable {f pr next out : RecvFrame} {l : List RecvFrame} {bs : List UInt8} {cur : Nat}

theorem copyBehind_eq (h : bs.length ≤ f.slack.length) :
    copyBehind f bs = { f with data := f.data ++ bs, slack := f.slack.drop bs.length } := by
  have hmem : memcpyAt f.mem f.len bs = f.data ++ (bs ++ f.slack.drop bs.length) := by
    unfold memcpyAt RecvFrame.mem RecvFrame.len
    rw [List.take_left, List.length_append, Nat.add_sub_cancel_left, List.take_of_length_le h,
      List.drop_append, Nat.add_sub_cancel_left, List.drop_of_length_le (by omega), List.nil_append,
      List.append_assoc]
  have hf : f.memcpy f.len bs = { f with slack := bs ++ f.slack.drop bs.length } := by
    unfold RecvFrame.memcpy
    simp only [hmem]
    simp [RecvFrame.len]
  simp only [copyBehind, hf, recvframePut]
  rw [if_neg (by simp)]
  simp

theorem length_msduPart (h : f.Whole) :
    f.msduPart.length = f.len - (f.attrib.hdrlen + f.attrib.ivLen) - f.attrib.icvLen := by
  unfold RecvFrame.Whole at h
  unfold RecvFrame.msduPart
  rw [List.length_take, List.length_drop]
  unfold RecvFrame.len at *; omega

/-- With room for it, the payload of the next fragment takes the place of the ICV. -/
theorem appendFragment_eq (hpr : pr.Whole) (hnext : next.Whole)
    (hfit : pr.attrib.hdrlen + pr.attrib.ivLen + pr.msduPart.length + next.msduPart.length + next.attrib.icvLen ≤
      pr.room) :
    appendFragment pr next =
      { pr with
        attrib := { pr.attrib with icvLen := next.attrib.icvLen }
        data := pr.data.take (pr.len - pr.attrib.icvLen) ++
          next.data.drop (next.attrib.hdrlen + next.attrib.ivLen)
        slack := (pr.data.drop (pr.len - pr.attrib.icvLen) ++ pr.slack).drop
          (next.len - (next.attrib.hdrlen + next.attrib.ivLen)) } := by
  rw [length_msduPart hpr, length_msduPart hnext] at hfit
  unfold RecvFrame.Whole at hpr hnext
  unfold RecvFrame.room at hfit
  have hpull : recvframePull next (next.attrib.hdrlen + next.attrib.ivLen) = some { next with
      head := next.head ++ next.data.take (next.attrib.hdrlen + next.attrib.ivLen)
      data := next.data.drop (next.attrib.hdrlen + next.attrib.ivLen) } := if_neg (by omega)
  have htail : recvframePullTail pr pr.attrib.icvLen = some { pr with
      data := pr.data.take (pr.len - pr.attrib.icvLen)
      slack := pr.data.drop (pr.len - pr.attrib.icvLen) ++ pr.slack } := if_neg (by omega)
  unfold appendFragment
  rw [hpull, htail]
  simp only [Option.getD_some]
  rw [copyBehind_eq]
  · simp [RecvFrame.len]
  · simp only [List.length_drop, List.length_append]
    unfold RecvFrame.len at *; omega

/-- What the loop keeps of the first frame. -/
structure Grown (pr f : RecvFrame) (part : List UInt8) : Prop where
  whole : f.Whole
  room : f.room = pr.room
  off : f.attrib.hdrlen + f.attrib.ivLen = pr.attrib.hdrlen + pr.attrib.ivLen
  payload : f.msduPart = pr.msduPart ++ part

theorem grown_appendFragment (hpr : pr.Whole) (hnext : next.Whole)
    (hfit : pr.attrib.hdrlen + pr.attrib.ivLen + pr.msduPart.length + next.msduPart.length + next.attrib.icvLen ≤
      pr.room) : Grown pr (appendFragment pr next) next.msduPart := by
  have heq := appendFragment_eq hpr hnext hfit
  have hlpr := length_msduPart hpr
  have hlnext := length_msduPart hnext
  unfold RecvFrame.Whole at hpr hnext
  unfold RecvFrame.room at hfit
  have hlen : (appendFragment pr next).len = pr.len - pr.attrib.icvLen +
      (next.len - (next.attrib.hdrlen + next.attrib.ivLen)) := by
    rw [heq, RecvFrame.len, List.length_append, List.length_take, List.length_drop]
    unfold RecvFrame.len at *; omega
  refine ⟨?_, ?_, by rw [heq], ?_⟩
  · unfold RecvFrame.Whole
    rw [hlen, heq]; dsimp only; omega
  · unfold RecvFrame.room
    rw [heq]
    simp only [List.length_append, List.length_take, List.length_drop]
    unfold RecvFrame.len at *; omega
  · unfold RecvFrame.msduPart
    rw [hlen, heq]
    dsimp only
    have hoff : pr.attrib.hdrlen + pr.attrib.ivLen ≤ (pr.data.take (pr.len - pr.attrib.icvLen)).length := by
      rw [List.length_take]; unfold RecvFrame.len at *; omega
    rw [List.drop_append_of_le_length hoff, List.drop_take, List.take_append]
    congr 1
    · rw [List.take_take]; congr 1; omega
    · rw [List.length_take, List.length_drop]; congr 1; unfold RecvFrame.len at *; omega

/-- The loop hands on a frame only when the fragment numbers run on, and then, with room for all of
them, the payloads are there in order. -/
theorem defragLoop_eq_some (h : defragLoop cur pr l = some out) :
    l.map (fun g => (g.attrib.fragNum : Nat)) = List.range' cur l.length := by
  induction l generalizing cur pr with
  | nil => rfl
  | cons next l ih =>
    rw [defragLoop] at h
    split at h
    · cases h
    case isFalse hcur =>
      rw [List.map_cons, ih h, List.length_cons, List.range'_succ, not_not.1 hcur]

theorem defragLoop_id (h : defragLoop cur pr l = some out) : out.id = pr.id := by
  induction l generalizing cur pr with
  | nil => rw [Option.some.inj h]
  | cons next l ih =>
    rw [defragLoop] at h
    split at h
    · cases h
    · rw [ih h]
      simp only [appendFragment, copyBehind, recvframePut]
      split <;> simp

theorem defragLoop_payload (h : defragLoop cur pr l = some out) (hpr : pr.Whole) (hl : ∀ g ∈ l, g.Whole)
    (hfit : FitsIn pr.room (pr.attrib.hdrlen + pr.attrib.ivLen + pr.msduPart.length) l) :
    out.msduPart = pr.msduPart ++ (l.map (·.msduPart)).flatten := by
  induction l generalizing cur pr with
  | nil => obtain rfl := Option.some.inj h; simp
  | cons next l ih =>
    rw [defragLoop] at h
    split at h
    · cases h
    · have hgrown := grown_appendFragment hpr (hl next (List.mem_cons_self ..)) hfit.1
      have hrest : FitsIn (appendFragment pr next).room ((appendFragment pr next).attrib.hdrlen +
          (appendFragment pr next).attrib.ivLen + (appendFragment pr next).msduPart.length) l := by
        rw [hgrown.room, hgrown.off, hgrown.payload, List.length_append, ← Nat.add_assoc]; exact hfit.2
      rw [ih h hgrown.whole (fun g hg => hl g (List.mem_cons_of_mem _ hg)) hrest, hgrown.payload]
      simp

end

/-! ### Runs -/

/-- The `defrag_q` of a station, and the frames put together so far with their fragments. -/
structure DefragRun where
  defragQ : List RecvFrame
  assembled : List (List RecvFrame × RecvFrame)

namespace DefragRun

def start : DefragRun := ⟨[], []⟩

/-- The fragment that completes a frame. -/
def isLast (f : RecvFrame) : Bool := !f.attrib.mfrag && f.attrib.fragNum ≠ 0

/-- A frame of the station comes to `recvframe_chk_defrag`. -/
def next (micErr : RecvFrame → Bool) (s : DefragRun) (f : RecvFrame) : DefragRun where
  defragQ := (recvframeChkDefrag micErr (some s.defragQ) f).defragQ
  assembled := s.assembled ++
    if isLast f then ((recvframeDefrag (s.defragQ ++ [f])).ret.map fun g => (s.defragQ ++ [f], g)).toList else []

/-- The fragments at hand, of which `first` is the first, all fit into its buffer. -/
def AllFit : List RecvFrame → Prop
  | [] => True
  | first :: l =>
    (∀ g ∈ first :: l, g.Whole) ∧
      FitsIn first.room (first.attrib.hdrlen + first.attrib.ivLen + first.msduPart.length) l

instance : (l : List RecvFrame) → Decidable (AllFit l)
  | [] => .isTrue trivial
  | _ :: _ => inferInstanceAs (Decidable (_ ∧ _))

/-- The condition on an arriving frame: a fragment with the next number after the last one that waits
has its sequence number too, and when it completes the frame all fragments are at least as long as
their headers and ICV and fit into the buffer of the first. -/
def StepOk (s : DefragRun) (f : RecvFrame) : Prop :=
  f.attrib.fragNum ≠ 0 →
    (∀ g ∈ s.defragQ.getLast?, (f.attrib.fragNum : Nat) = g.attrib.fragNum + 1 → f.attrib.seqNum = g.attrib.seqNum) ∧
      (f.attrib.mfrag = false → AllFit (s.defragQ ++ [f]))

instance (s : DefragRun) (f : RecvFrame) : Decidable (s.StepOk f) := inferInstanceAs (Decidable (_ → _ ∧ _))

structure Inv (s : DefragRun) : Prop where
  mfrag : ∀ g ∈ s.defragQ, g.attrib.mfrag = true
  seq : s.defragQ.IsChain fun g f => (f.attrib.fragNum : Nat) = g.attrib.fragNum + 1 →
    f.attrib.seqNum = g.attrib.seqNum
  assembled : ∀ p ∈ s.assembled, Assembled p.1 p.2

section
variable {micErr : RecvFrame → Bool} {s : DefragRun} {f g : RecvFrame} {l : List RecvFrame}

theorem recvframeChkDefrag_defragQ (pdefragQ : Option (List RecvFrame)) :
    (recvframeChkDefrag micErr pdefragQ f).defragQ = (chkDefragQueue pdefragQ f).defragQ := by
  unfold recvframeChkDefrag
  dsimp only
  split
  · rfl
  · split
    · split <;> rfl
    · rfl

theorem recvframeDefrag_defragQ : (recvframeDefrag l).defragQ = [] := by
  cases l with
  | nil => rfl
  | cons first l =>
    simp only [recvframeDefrag]
    split
    · rfl
    · split <;> rfl

theorem recvframeDefrag_eq_some (h : (recvframeDefrag l).ret = some g) :
    ∃ first rest, l = first :: rest ∧ first.attrib.fragNum = 0 ∧ defragLoop 1 first rest = some g := by
  cases l with
  | nil => cases h
  | cons first rest =>
    simp only [recvframeDefrag] at h
    split at h
    · cases h
    case isFalse hfirst =>
      split at h
      · cases h
      case h_2 g' hloop =>
        obtain rfl := Option.some.inj h
        exact ⟨first, rest, rfl, not_not.1 hfirst, hloop⟩

/-- When the numbers run on, the fragments that continue each other are all of one MSDU. -/
theorem sameSeq_of_consecutive (hnum : l.map (fun g => (g.attrib.fragNum : Nat)) = List.range l.length)
    (hseq : l.IsChain fun g f => (f.attrib.fragNum : Nat) = g.attrib.fragNum + 1 →
      f.attrib.seqNum = g.attrib.seqNum) : ∀ g ∈ l, ∀ h ∈ l, g.attrib.seqNum = h.attrib.seqNum := by
  have hrun : l.IsChain fun g f => (f.attrib.fragNum : Nat) = g.attrib.fragNum + 1 := by
    have := (List.isChain_range (fun a b => b = a + 1) l.length).2 fun _ _ => rfl
    rwa [← hnum, List.isChain_map] at this
  have hsame : l.IsChain fun g f => g.attrib.seqNum = f.attrib.seqNum :=
    List.isChain_iff_getElem.2 fun i hi =>
      (List.isChain_iff_getElem.1 hseq i hi (List.isChain_iff_getElem.1 hrun i hi)).symm
  have : IsTrans RecvFrame fun g f => g.attrib.seqNum = f.attrib.seqNum := ⟨fun _ _ _ => Eq.trans⟩
  have hall := List.isChain_iff_pairwise.1 hsame
  have hsymm : Std.Symm fun g f : RecvFrame => g.attrib.seqNum = f.attrib.seqNum := ⟨fun _ _ => Eq.symm⟩
  exact fun g hg h hh => List.Pairwise.forall_of_forall
    (R := fun g f : RecvFrame => g.attrib.seqNum = f.attrib.seqNum) (fun _ _ => rfl) hall hg hh

theorem assembled_of_defrag (h : (recvframeDefrag l).ret = some g)
    (hseq : l.IsChain fun g f => (f.attrib.fragNum : Nat) = g.attrib.fragNum + 1 →
      f.attrib.seqNum = g.attrib.seqNum)
    (hmore : ∀ g ∈ l.dropLast, g.attrib.mfrag = true) (hfit : AllFit l) : Assembled l g := by
  obtain ⟨first, rest, rfl, hfirst, hloop⟩ := recvframeDefrag_eq_some h
  have hnum : (first :: rest).map (fun g => (g.attrib.fragNum : Nat)) = List.range (first :: rest).length := by
    rw [List.map_cons, defragLoop_eq_some hloop, hfirst, List.length_cons, List.range_eq_range',
      List.range'_succ]
    rfl
  refine ⟨sameSeq_of_consecutive hnum hseq, hnum, hmore, ?_⟩
  rw [defragLoop_payload hloop (hfit.1 first (List.mem_cons_self ..))
    (fun g hg => hfit.1 g (List.mem_cons_of_mem _ hg)) hfit.2]
  rfl

end

namespace Inv
variable {micErr : RecvFrame → Bool} {s : DefragRun} {f : RecvFrame}

theorem start : DefragRun.start.Inv where
  mfrag := by simp [DefragRun.start]
  seq := .nil
  assembled := by simp [DefragRun.start]

theorem next (h : s.Inv) (hok : s.StepOk f) : (s.next micErr f).Inv := by
  have hq : (s.next micErr f).defragQ = (chkDefragQueue (some s.defragQ) f).defragQ :=
    recvframeChkDefrag_defragQ _
  have hchain (hf : f.attrib.fragNum ≠ 0) : (s.defragQ ++ [f]).IsChain fun g f =>
      (f.attrib.fragNum : Nat) = g.attrib.fragNum + 1 → f.attrib.seqNum = g.attrib.seqNum := by
    refine h.seq.append (List.isChain_singleton _) fun g hg y hy => ?_
    obtain rfl : f = y := by simpa using hy
    exact (hok hf).1 g hg
  unfold chkDefragQueue at hq
  cases hm : f.attrib.mfrag with
  | true =>
    have hl : (s.next micErr f).assembled = s.assembled := by simp [DefragRun.next, isLast, hm]
    by_cases hf : f.attrib.fragNum = 0
    · simp only [hm, hf, Bool.not_true, Bool.false_and, Bool.false_eq_true, if_false, if_true] at hq
      exact ⟨by simp [hq, hm], by rw [hq]; exact List.isChain_singleton _, by rw [hl]; exact h.assembled⟩
    · simp only [hm, hf, Bool.not_true, Bool.false_and, Bool.false_eq_true, if_false, if_true] at hq
      refine ⟨fun g hg => ?_, by rw [hq]; exact hchain hf, by rw [hl]; exact h.assembled⟩
      rw [hq] at hg
      rcases List.mem_append.1 hg with hg | hg
      · exact h.mfrag g hg
      · rw [List.mem_singleton.1 hg]; exact hm
  | false =>
    by_cases hf : f.attrib.fragNum = 0
    · simp only [hm, hf, Bool.not_false, decide_true, Bool.and_self, if_true, Option.getD_some] at hq
      have hl : (s.next micErr f).assembled = s.assembled := by simp [DefragRun.next, isLast, hf]
      exact ⟨by rw [hq]; exact h.mfrag, by rw [hq]; exact h.seq, by rw [hl]; exact h.assembled⟩
    · simp only [hm, hf, Bool.not_false, decide_false, Bool.and_false, Bool.false_eq_true, if_false] at hq
      rw [recvframeDefrag_defragQ] at hq
      refine ⟨by simp [hq], by rw [hq]; exact .nil, fun p hp => ?_⟩
      have hlast : isLast f = true := by simp [isLast, hm, hf]
      simp only [DefragRun.next, hlast, if_true, List.mem_append, Option.mem_toList] at hp
      rcases hp with hp | hp
      · exact h.assembled p hp
      · obtain ⟨g, hg, rfl⟩ := Option.map_eq_some_iff.1 hp
        refine assembled_of_defrag hg (hchain hf) ?_ ((hok hf).2 hm)
        rw [List.dropLast_concat]; exact h.mfrag

end Inv

/-- In a run whose steps all meet the condition every reassembled frame is one whole MSDU. -/
theorem assembled_run (micErr : RecvFrame → Bool) (frames : List RecvFrame)
    (hok : Machine.RunOk (next micErr) StepOk start frames) :
    ∀ p ∈ (Machine.run (next micErr) start frames).assembled, Assembled p.1 p.2 :=
  (Machine.run_invariant_of_ok (fun _ _ h hok => h.next hok) Inv.start hok).assembled

/-- An unencrypted fragment with room for some bytes behind its payload. -/
def fragment (seqNum : SeqNum) (fragNum : Fin 16) (mfrag : Bool) (body : List UInt8) : RecvFrame where
  id := 0
  attrib :=
    { hdrlen := 24, toFrDs := 2, amsdu := false, qos := false, priority := 0, seqNum, fragNum, mfrag
      privacy := false, bdecrypted := false, encrypt := .noPrivacy, ivLen := 0, icvLen := 0, ethType := 0
      dst := .replicate 6 0, src := .replicate 6 2, ta := .replicate 6 4, ra := .replicate 6 0
      bssid := .replicate 6 4 }
  head := []
  data := List.replicate 24 0 ++ body
  slack := List.replicate 8 0

/-- A stray fragment of another frame comes first; the three fragments of frame 7 are put together. -/
theorem assembled_three :
    let s := Machine.run (next fun _ => false) start [fragment 6 1 true [9], fragment 7 0 true [1, 2],
      fragment 7 1 true [3], fragment 7 2 false [4, 5]]
    s.assembled.map (·.2.msduPart) = [[1, 2, 3, 4, 5]] ∧ ∀ p ∈ s.assembled, Assembled p.1 p.2 :=
  ⟨by decide, assembled_run _ _ (by decide)⟩

/-- Fragment 0 of frame 7 and fragment 1 of frame 8 make one frame. -/
theorem not_assembled_mixed :
    ¬ ∀ (micErr : RecvFrame → Bool) (frames : List RecvFrame),
      ∀ p ∈ (Machine.run (next micErr) start frames).assembled, Assembled p.1 p.2 := by
  intro h
  have hseq : ∀ p ∈ (Machine.run (next fun _ => false) start
      [fragment 7 0 true [1, 2], fragment 8 1 false [3, 4]]).assembled,
      ∀ f ∈ p.1, ∀ g ∈ p.1, f.attrib.seqNum = g.attrib.seqNum := fun p hp => (h _ _ p hp).sameSeq
  exact absurd hseq (by decide)

end DefragRun

end Rtw
