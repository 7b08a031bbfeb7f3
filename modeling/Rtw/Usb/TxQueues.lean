import Mathlib.Algebra.Order.BigOperators.Group.List
import Mathlib.Algebra.Order.Ring.Nat
import Rtw.Usb.TxFrame
import Rtw.Xmit.PowerSave

/-!
# Transmit queues

Each station has a queue for each access category, and `hwxmits` lists the stations whose queue is not
empty. Frames are dequeued from the station at the head of the first list that is not empty.
-/

namespace Rtw.Usb

def qsltHigh : Nat := 0x11

/-- The queue of a station for one access category, `struct tx_servq`. -/
abbrev TxServq := StaId × Ac

/-- `hwxmits` with the stations that wait in each, and their frames. -/
structure TxQueues where
  staQueue : Ac → List StaId
  pending : TxServq → List TxFrame

/-- The settings of the adapter. -/
structure TxEnv where
  wifiSpec : Bool
  wmmParaSeq : List Ac
  fragLen : Nat
  usbBulkOutSize : Nat
  usbTxAggDescNum : Nat
  /-- `WIFI_AP_STATE` -/
  apState : Bool
  bulk_eq : usbBulkOutSize = 64 ∨ usbBulkOutSize = 512 ∨ usbBulkOutSize = 1024

namespace TxQueues

def setPending (q : TxQueues) (servq : TxServq) (fs : List TxFrame) : TxQueues :=
  { q with pending := Function.update q.pending servq fs }

/-- `rtw_list_delete` on `tx_pending` -/
def unlink (q : TxQueues) (servq : TxServq) : TxQueues :=
  { q with staQueue := Function.update q.staQueue servq.2 ((q.staQueue servq.2).erase servq.1) }

/-- `rtw_list_insert_tail` on `tx_pending` -/
def linkTail (q : TxQueues) (servq : TxServq) : TxQueues :=
  { q with staQueue := Function.update q.staQueue servq.2 (q.staQueue servq.2 ++ [servq.1]) }

/-- The frame that `dequeue_one_xmitframe` takes from a queue. A station leaves the list with its last
frame. -/
def dequeueServq (q : TxQueues) (servq : TxServq) : Option (TxServq × TxFrame × TxQueues) :=
  match q.pending servq with
  | [] => none
  | f :: fs =>
    let q := q.setPending servq fs
    some (servq, f, if fs.isEmpty then q.unlink servq else q)

end TxQueues

namespace TxEnv

def inx (env : TxEnv) : List Ac := if env.wifiSpec then env.wmmParaSeq else [.vo, .vi, .be, .bk]

def rtwDequeueXframe (env : TxEnv) (q : TxQueues) : Option (TxServq × TxFrame × TxQueues) :=
  env.inx.findSome? fun ac => (q.staQueue ac).findSome? fun psta => q.dequeueServq (psta, ac)

/-- `rtw_hal_busagg_qsel_check` -/
def busaggQselCheck (env : TxEnv) (preQsel nextQsel : Nat) : Bool :=
  !(env.apState && (preQsel = qsltHigh || nextQsel = qsltHigh) && preQsel ≠ nextQsel)

/-- The count of the packets in one bulk transfer behind a packet that ends before `pbuf`: `descCount` and
`bulkPtr`, `none` to stop. -/
def checkBulk (env : TxEnv) (pbuf descCount bulkPtr : Nat) : Option (Nat × Nat) :=
  if pbuf < bulkPtr then
    let descCount := (descCount + 1) % 2 ^ 8
    if descCount = env.usbTxAggDescNum then none else some (descCount, bulkPtr)
  else some (0, (pbuf / env.usbBulkOutSize + 1) * env.usbBulkOutSize)

end TxEnv

namespace TxQueues

/-- The frames in the lists that `rtw_dequeue_xframe` goes through. -/
def size (q : TxQueues) (acs : List Ac) : Nat :=
  (acs.map fun ac => ((q.staQueue ac).map fun psta => (q.pending (psta, ac)).length).sum).sum

end TxQueues

section
variable {env : TxEnv} {q q' : TxQueues} {servq : TxServq} {f : TxFrame} {fs : List TxFrame}

theorem unlink_sublist (ac : Ac) : ((q.unlink servq).staQueue ac).Sublist (q.staQueue ac) := by
  unfold TxQueues.unlink
  dsimp only
  rcases eq_or_ne ac servq.2 with rfl | hne
  · rw [Function.update_self]
    exact List.erase_sublist
  · rw [Function.update_of_ne hne]

theorem dequeueServq_eq_some {servq' : TxServq} (h : q.dequeueServq servq = some (servq', f, q')) :
    servq' = servq ∧ ∃ fs, q.pending servq = f :: fs ∧ q'.pending = Function.update q.pending servq fs ∧
      ∀ ac, (q'.staQueue ac).Sublist (q.staQueue ac) := by
  unfold TxQueues.dequeueServq at h
  split at h
  · cases h
  · rename_i g gs hp
    cases h
    refine ⟨rfl, gs, hp, ?_, fun ac => ?_⟩
    · split <;> rfl
    · split
      · exact unlink_sublist ac
      · exact .refl _

/-- The next frame is the first one of a queue that is gone through. -/
theorem rtwDequeueXframe_eq_some (h : env.rtwDequeueXframe q = some (servq, f, q')) :
    servq.2 ∈ env.inx ∧ servq.1 ∈ q.staQueue servq.2 ∧ ∃ fs, q.pending servq = f :: fs ∧
      q'.pending = Function.update q.pending servq fs ∧ ∀ ac, (q'.staQueue ac).Sublist (q.staQueue ac) := by
  obtain ⟨ac, hac, h⟩ := List.exists_of_findSome?_eq_some h
  obtain ⟨psta, hpsta, h⟩ := List.exists_of_findSome?_eq_some h
  obtain ⟨rfl, hd⟩ := dequeueServq_eq_some h
  exact ⟨hac, hpsta, hd⟩

theorem size_lt (h : env.rtwDequeueXframe q = some (servq, f, q')) : q'.size env.inx < q.size env.inx := by
  obtain ⟨hac, hpsta, fs, hp, hpend, hsub⟩ := rtwDequeueXframe_eq_some h
  have hle : ∀ servq', (q'.pending servq').length ≤ (q.pending servq').length := by
    intro servq'
    rw [hpend]
    rcases eq_or_ne servq' servq with rfl | hne
    · rw [Function.update_self, hp]
      exact Nat.le_succ _
    · rw [Function.update_of_ne hne]
  have hacle : ∀ ac, ((q'.staQueue ac).map fun psta => (q'.pending (psta, ac)).length).sum ≤
      ((q.staQueue ac).map fun psta => (q'.pending (psta, ac)).length).sum :=
    fun ac => ((hsub ac).map _).sum_le_sum (fun _ _ => Nat.zero_le _)
  refine List.sum_lt_sum _ _ (fun ac _ => ?_) ⟨servq.2, hac, ?_⟩
  · exact (hacle ac).trans (List.sum_le_sum fun psta _ => hle _)
  · refine (hacle servq.2).trans_lt (List.sum_lt_sum _ _ (fun psta _ => hle _) ⟨servq.1, hpsta, ?_⟩)
    rw [hpend, Function.update_self, hp]
    exact Nat.lt_succ_self _

end

end Rtw.Usb
