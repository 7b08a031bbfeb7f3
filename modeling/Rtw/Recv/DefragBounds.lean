import Rtw.Lib.Access
import Rtw.Recv.Defrag

/-!
# Where the fragments are copied

`recvframe_defrag` copies each payload to the tail of the first fragment and lets `recvframe_put` look at the room
afterwards, when it is too late. `defragBounded_iff` says for which queues nothing is written behind `rx_end`.
-/

namespace Rtw
open Access Traced RecvFrame

/-- The body of the loop of `recvframe_defrag`, with what it writes; offsets are from `rx_data` of the first
fragment. -/
def appendFragmentT (prframe pnfhdr : RecvFrame) : Traced Unit RecvFrame := do
  let next := (recvframePull pnfhdr (pnfhdr.attrib.hdrlen + pnfhdr.attrib.ivLen)).getD pnfhdr
  let f := (recvframePullTail prframe prframe.attrib.icvLen).getD prframe
  touch () f.len next.len
  let f := copyBehind f next.data
  return { f with attrib := { f.attrib with icvLen := next.attrib.icvLen } }

/-- The loop of `recvframe_defrag`, with what it writes. -/
def defragLoopT (curfragnum : Nat) (prframe : RecvFrame) : List RecvFrame → Traced Unit (Option RecvFrame)
  | [] => pure (some prframe)
  | next :: l =>
    if curfragnum ≠ next.attrib.fragNum then pure none
    else do
      let f ← appendFragmentT prframe next
      defragLoopT (curfragnum + 1) f l

/-- What `recvframe_defrag` returns, with what it writes. -/
def recvframeDefragT : List RecvFrame → Traced Unit (Option RecvFrame)
  | [] => pure none
  | prframe :: l => if prframe.attrib.fragNum ≠ 0 then pure none else defragLoopT 1 prframe l

/-- The buffer of the first fragment, from `rx_data` to `rx_end`. -/
def firstRoom (l : List RecvFrame) : Nat := (l.head?.map RecvFrame.room).getD 0

/-- What is left of `len` bytes when `sz` are pulled, which a shorter frame refuses. -/
def pulled (len sz : Nat) : Nat := if len < sz then len else len - sz

namespace RecvFrame

/-- The bytes of a fragment that are copied. -/
def payloadLen (f : RecvFrame) : Nat := pulled f.len (f.attrib.hdrlen + f.attrib.ivLen)

end RecvFrame

/-- The fragments, up to the first one out of turn, fit one after the other behind the `len` bytes that there are, where
each takes the place of the ICV before it. -/
def PayloadsFit (room : Nat) : Nat → Nat → Nat → List RecvFrame → Prop
  | _, _, _, [] => True
  | curfragnum, len, icvLen, next :: l => curfragnum = next.attrib.fragNum →
      pulled len icvLen + next.payloadLen ≤ room ∧
      PayloadsFit room (curfragnum + 1) (pulled len icvLen + next.payloadLen) next.attrib.icvLen l

/-- The payloads of the queue fit into the buffer of its first fragment. -/
def QueueFits : List RecvFrame → Prop
  | [] => True
  | first :: l => first.attrib.fragNum = 0 → PayloadsFit first.room 1 first.len first.attrib.icvLen l

/-- Nothing is written behind `rx_end`, and without room for a payload no frame is returned. -/
structure DefragBounded (l : List RecvFrame) : Prop where
  inside : Within (fun _ => firstRoom l) (recvframeDefragT l)
  fails : ¬ QueueFits l → (recvframeDefragT l).val = none

section
variable {f pr next : RecvFrame} {l : List RecvFrame} {bs : List UInt8} {sz cur room : Nat}

theorem len_pullTail : ((recvframePullTail f sz).getD f).len = pulled f.len sz := by
  unfold recvframePullTail pulled
  split
  · rfl
  · rw [Option.getD_some, len, List.length_take]
    exact Nat.min_eq_left (Nat.sub_le _ _)

theorem room_pullTail : ((recvframePullTail f sz).getD f).room = f.room := by
  have hsame : ((recvframePullTail f sz).getD f).mem = f.mem := recvframePullTail_getD_mem
  have hmem := congrArg List.length hsame
  rwa [length_mem, length_mem] at hmem

theorem len_pull : ((recvframePull f sz).getD f).len = pulled f.len sz := by
  unfold recvframePull pulled
  split
  · rfl
  · rw [Option.getD_some, len, List.length_drop]
    rfl

theorem room_copyBehind (f : RecvFrame) (bs : List UInt8) : (copyBehind f bs).room = f.room := by
  have hmem : (f.memcpy f.len bs).room = f.room := by
    have hlen := congrArg List.length (mem_memcpy f f.len bs)
    rwa [length_memcpyAt, length_mem, length_mem] at hlen
  unfold copyBehind recvframePut
  dsimp only
  rw [← hmem]
  split
  · rfl
  · unfold room
    simp only [Option.getD_some, List.length_append, List.length_take, List.length_drop]
    omega

theorem len_copyBehind (f : RecvFrame) (bs : List UInt8) (h : f.len + bs.length ≤ f.room) :
    (copyBehind f bs).len = f.len + bs.length := by
  unfold room len at h
  rw [copyBehind_eq (by omega), len, List.length_append]
  rfl

theorem appendFragmentT_val : (appendFragmentT pr next).val = appendFragment pr next := rfl

theorem room_appendFragment : (appendFragment pr next).room = pr.room := by
  have hcopy := room_copyBehind ((recvframePullTail pr pr.attrib.icvLen).getD pr)
    ((recvframePull next (next.attrib.hdrlen + next.attrib.ivLen)).getD next).data
  rw [room_pullTail] at hcopy
  exact hcopy

theorem len_appendFragment (h : pulled pr.len pr.attrib.icvLen + next.payloadLen ≤ pr.room) :
    (appendFragment pr next).len = pulled pr.len pr.attrib.icvLen + next.payloadLen := by
  have hnext :
      ((recvframePull next (next.attrib.hdrlen + next.attrib.ivLen)).getD next).data.length = next.payloadLen :=
    len_pull
  have hcopy := len_copyBehind ((recvframePullTail pr pr.attrib.icvLen).getD pr)
    ((recvframePull next (next.attrib.hdrlen + next.attrib.ivLen)).getD next).data
  rw [room_pullTail, len_pullTail, hnext] at hcopy
  exact hcopy h

theorem icvLen_appendFragment : (appendFragment pr next).attrib.icvLen = next.attrib.icvLen := by
  have hpull : ((recvframePull next (next.attrib.hdrlen + next.attrib.ivLen)).getD next).attrib = next.attrib := by
    unfold recvframePull
    split <;> rfl
  show ((recvframePull next (next.attrib.hdrlen + next.attrib.ivLen)).getD next).attrib.icvLen = _
  rw [hpull]

theorem defragLoopT_val : (defragLoopT cur pr l).val = defragLoop cur pr l := by
  induction l generalizing cur pr with
  | nil => rfl
  | cons next l ih =>
    unfold defragLoopT defragLoop
    split
    · rfl
    · exact ih

theorem recvframeDefragT_val : (recvframeDefragT l).val = (recvframeDefrag l).ret := by
  cases l with
  | nil => rfl
  | cons first l =>
    rw [recvframeDefragT, recvframeDefrag]
    by_cases hfirst : first.attrib.fragNum ≠ 0
    · rw [if_pos hfirst, if_pos hfirst]
      rfl
    · rw [if_neg hfirst, if_neg hfirst, defragLoopT_val]
      cases defragLoop 1 first l with
      | none => rfl
      | some f => rfl

theorem within_appendFragmentT : Within (fun _ => room) (appendFragmentT pr next) ↔
    next.payloadLen = 0 ∨ pulled pr.len pr.attrib.icvLen + next.payloadLen ≤ room := by
  unfold appendFragmentT
  simp only [within_bind, within_pure, and_true]
  rw [within_touch_nat, len_pullTail, len_pull]
  rfl

/-- The loop stays inside exactly if the fragments that it comes to fit. -/
theorem within_defragLoopT (hlen : pr.len ≤ pr.room) : Within (fun _ => pr.room) (defragLoopT cur pr l) ↔
    PayloadsFit pr.room cur pr.len pr.attrib.icvLen l := by
  induction l generalizing cur pr with
  | nil => exact iff_of_true within_pure trivial
  | cons next l ih =>
    unfold defragLoopT PayloadsFit
    by_cases hcur : cur = next.attrib.fragNum
    · rw [if_neg (not_not.2 hcur), within_bind, within_appendFragmentT, appendFragmentT_val]
      have htail : pulled pr.len pr.attrib.icvLen ≤ pr.room := by
        unfold pulled
        split <;> omega
      have hfit : next.payloadLen = 0 ∨ pulled pr.len pr.attrib.icvLen + next.payloadLen ≤ pr.room ↔
          pulled pr.len pr.attrib.icvLen + next.payloadLen ≤ pr.room := by omega
      rw [hfit, forall_prop_of_true hcur]
      refine and_congr_right fun h => ?_
      have hlen' := len_appendFragment h
      have hrest : Within (fun _ => (appendFragment pr next).room) (defragLoopT (cur + 1) (appendFragment pr next) l) ↔
          _ := ih (by rw [hlen', room_appendFragment]; exact h)
      rwa [room_appendFragment, hlen', icvLen_appendFragment] at hrest
    · rw [if_pos hcur]
      exact iff_of_true within_pure fun h => absurd h hcur

end

theorem within_recvframeDefragT (l : List RecvFrame) :
    Within (fun _ => firstRoom l) (recvframeDefragT l) ↔ QueueFits l := by
  cases l with
  | nil => exact iff_of_true within_pure trivial
  | cons first l =>
    rw [recvframeDefragT, QueueFits]
    by_cases hfirst : first.attrib.fragNum = 0
    · rw [if_neg (not_not.2 hfirst), forall_prop_of_true hfirst]
      exact within_defragLoopT (Nat.le_add_right _ _)
    · rw [if_pos hfirst]
      exact iff_of_true within_pure fun h => absurd h hfirst

/-- Of any queue of fragments nothing is written behind the buffer of the first one exactly if they fit into it. -/
theorem defragBounded_iff (l : List RecvFrame) : DefragBounded l ↔ QueueFits l :=
  ⟨fun h => (within_recvframeDefragT l).1 h.inside,
    fun h => ⟨(within_recvframeDefragT l).2 h, fun hn => absurd h hn⟩⟩

/-- A fragment of 1500 bytes, the first one in the 1656 bytes that `rtw_os_alloc_recvframe` gives it. -/
def longFragment (fragNum : Fin 16) (mfrag : Bool) : RecvFrame :=
  { DefragRun.fragment 7 fragNum mfrag (List.replicate 1500 0) with slack := List.replicate 132 0 }

/-- The second of two such fragments is written over the end. -/
theorem not_defragBounded_long : ¬ ∀ l : List RecvFrame, DefragBounded l := by
  intro h
  have hfits := (within_recvframeDefragT _).1 (h [longFragment 0 true, longFragment 1 false]).inside
  have hlen (n : Fin 16) (m : Bool) : (longFragment n m).len = 1524 := by
    show (List.replicate 24 (0 : UInt8) ++ List.replicate 1500 0).length = 1524
    rw [List.length_append, List.length_replicate, List.length_replicate]
  have hroom : (longFragment 0 true).room = 1656 := by
    have hslack : (longFragment 0 true).slack.length = 132 := List.length_replicate
    have hdata := hlen 0 true
    unfold len at hdata
    rw [room, hdata, hslack]
  have hpay : (longFragment 1 false).payloadLen = 1500 := by
    rw [payloadLen, hlen]
    rfl
  have hfirst := (hfits rfl rfl).1
  rw [hlen, hroom, hpay] at hfirst
  exact absurd hfirst (by decide)

end Rtw
