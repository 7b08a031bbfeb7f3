import Mathlib.Algebra.Group.Nat.Defs
import Mathlib.Data.List.Basic

/-!
# Received frames

`RecvFrame` is a `union recv_frame`: the attributes that `validate_recv_frame` and the converters
fill in, and the buffer around the data pointers. The buffer is kept in three pieces,
`rx_head .. rx_data`, `rx_data .. rx_tail` and `rx_tail .. rx_end`, so that moving a pointer moves
bytes from one piece to the next and `len` is the length of `data`. Reads and writes through the data
pointer see `data ++ slack`: the code does not check `rx_tail` there.
-/

namespace Rtw

/-- A MAC address (`ETH_ALEN` bytes). -/
abbrev MacAddr := Vector UInt8 6

def MacAddr.isMcast (da : MacAddr) : Bool := da.head &&& 0x01 != 0

/-- A 12-bit sequence number (`GetSequence`). -/
abbrev SeqNum := Fin 4096

instance neZeroSeqNum : @NeZero Nat Zero.ofOfNat0 4096 := ⟨by decide⟩

instance neZeroFragNum : @NeZero Nat Zero.ofOfNat0 16 := ⟨by decide⟩

/-- The encryption algorithms of `rtw_security.h`. -/
inductive PrivacyAlg where
  | noPrivacy
  | wep40
  | tkip
  | tkipWtmic
  | aes
  | wep104
  | sms4
  | bip
  deriving DecidableEq, Repr

/-- The part of `struct rx_pkt_attrib` that the receive path reads. -/
structure RxPktAttrib where
  hdrlen : Nat
  toFrDs : Nat
  amsdu : Bool
  qos : Bool
  priority : Nat
  seqNum : SeqNum
  fragNum : Fin 16
  mfrag : Bool
  privacy : Bool
  bdecrypted : Bool
  encrypt : PrivacyAlg
  ivLen : Nat
  icvLen : Nat
  ethType : Nat
  dst : MacAddr
  src : MacAddr
  ta : MacAddr
  ra : MacAddr
  bssid : MacAddr
  deriving DecidableEq

/-- A received frame; `id` tells one received frame from another. -/
structure RecvFrame where
  id : Nat
  attrib : RxPktAttrib
  head : List UInt8
  data : List UInt8
  slack : List UInt8
  deriving DecidableEq

/-- Overwrite the bytes of `mem` from `off` on with `bs`; what does not fit is lost. -/
def memcpyAt (mem : List UInt8) (off : Nat) (bs : List UInt8) : List UInt8 :=
  mem.take off ++ bs.take (mem.length - off) ++ mem.drop (off + bs.length)

theorem length_memcpyAt (mem : List UInt8) (off : Nat) (bs : List UInt8) :
    (memcpyAt mem off bs).length = mem.length := by
  simp only [memcpyAt, List.length_append, List.length_take, List.length_drop]; omega

theorem getElem?_memcpyAt (mem : List UInt8) (off : Nat) (bs : List UInt8) (i : Nat) (hi : i < mem.length) :
    (memcpyAt mem off bs)[i]? = if off ≤ i ∧ i < off + bs.length then bs[i - off]? else mem[i]? := by
  unfold memcpyAt; grind

/-- A 16-bit number in network byte order (`htons`). -/
def be16 (n : Nat) : List UInt8 := [UInt8.ofNat (n / 256), UInt8.ofNat n]

/-- `RTW_GET_BE16` -/
def getBe16 (bs : List UInt8) (off : Nat) : Nat :=
  256 * (bs[off]?.getD 0).toNat + (bs[off + 1]?.getD 0).toNat

theorem getBe16_be16 (n : Nat) (bs : List UInt8) : getBe16 (be16 n ++ bs) 0 = n % 65536 := by
  unfold getBe16 be16
  simp only [List.cons_append, List.nil_append, List.getElem?_cons_zero, List.getElem?_cons_succ,
    Option.getD_some, UInt8.toNat_ofNat']
  omega

namespace RecvFrame

/-- `precvframe->u.hdr.len` -/
def len (f : RecvFrame) : Nat := f.data.length

/-- What can be read through `rx_data`. -/
def mem (f : RecvFrame) : List UInt8 := f.data ++ f.slack

/-- Write `bs` at offset `off` from `rx_data`. -/
def memcpy (f : RecvFrame) (off : Nat) (bs : List UInt8) : RecvFrame :=
  let m := memcpyAt f.mem off bs
  { f with data := m.take f.len, slack := m.drop f.len }

@[simp] theorem memcpy_id (f : RecvFrame) (off : Nat) (bs : List UInt8) : (f.memcpy off bs).id = f.id := rfl

@[simp] theorem memcpy_attrib (f : RecvFrame) (off : Nat) (bs : List UInt8) :
    (f.memcpy off bs).attrib = f.attrib := rfl

theorem length_mem (f : RecvFrame) : f.mem.length = f.data.length + f.slack.length := List.length_append

@[simp] theorem len_memcpy (f : RecvFrame) (off : Nat) (bs : List UInt8) : (f.memcpy off bs).len = f.len := by
  simp only [memcpy, len, List.length_take, length_memcpyAt, length_mem]; omega

@[simp] theorem mem_memcpy (f : RecvFrame) (off : Nat) (bs : List UInt8) :
    (f.memcpy off bs).mem = memcpyAt f.mem off bs := by
  simp only [memcpy, mem, List.take_append_drop]

theorem getElem?_mem (f : RecvFrame) {i : Nat} (hi : i < f.len) : f.mem[i]? = f.data[i]? :=
  List.getElem?_append_left hi

theorem getElem?_memcpy (f : RecvFrame) (off : Nat) (bs : List UInt8) {i : Nat} (hi : i < f.len) :
    (f.memcpy off bs).data[i]? = if off ≤ i ∧ i < off + bs.length then bs[i - off]? else f.data[i]? := by
  have hmem : i < f.mem.length := by rw [length_mem]; unfold len at hi; omega
  have hlen : i < (f.memcpy off bs).len := by rwa [len_memcpy]
  rw [← getElem?_mem _ hlen, mem_memcpy, getElem?_memcpyAt _ _ _ _ hmem, getElem?_mem _ hi]

end RecvFrame

open RecvFrame

/-- `recvframe_pull`: move `rx_data` forward, unless it would pass `rx_tail`. -/
def recvframePull (f : RecvFrame) (sz : Nat) : Option RecvFrame :=
  if f.len < sz then none
  else some { f with head := f.head ++ f.data.take sz, data := f.data.drop sz }

/-- `recvframe_pull` with a negative size: `rx_data` moves back, and nothing looks at `rx_head`. -/
def recvframePullBack (f : RecvFrame) (sz : Nat) : RecvFrame :=
  { f with
    head := f.head.take (f.head.length - sz)
    data := List.replicate (sz - f.head.length) 0 ++ f.head.drop (f.head.length - sz) ++ f.data }

/-- `recvframe_pull_tail`: move `rx_tail` back, unless it would pass `rx_data`. -/
def recvframePullTail (f : RecvFrame) (sz : Nat) : Option RecvFrame :=
  if f.len < sz then none
  else some { f with data := f.data.take (f.len - sz), slack := f.data.drop (f.len - sz) ++ f.slack }

/-- `recvframe_put`: move `rx_tail` forward, unless it would pass `rx_end`. -/
def recvframePut (f : RecvFrame) (sz : Nat) : Option RecvFrame :=
  if f.slack.length < sz then none
  else some { f with data := f.data ++ f.slack.take sz, slack := f.slack.drop sz }

section
variable {f f' : RecvFrame} {sz : Nat}

theorem recvframePull_eq_some (h : recvframePull f sz = some f') :
    sz ≤ f.len ∧ f' = { f with head := f.head ++ f.data.take sz, data := f.data.drop sz } := by
  unfold recvframePull at h
  split at h
  · cases h
  · exact ⟨by omega, (Option.some.inj h).symm⟩

theorem recvframePull_id (h : recvframePull f sz = some f') : f'.id = f.id := by
  rw [(recvframePull_eq_some h).2]

theorem recvframePull_attrib (h : recvframePull f sz = some f') : f'.attrib = f.attrib := by
  rw [(recvframePull_eq_some h).2]

@[simp] theorem recvframePullTail_getD_id : ((recvframePullTail f sz).getD f).id = f.id := by
  unfold recvframePullTail; split <;> rfl

@[simp] theorem recvframePullTail_getD_attrib : ((recvframePullTail f sz).getD f).attrib = f.attrib := by
  unfold recvframePullTail; split <;> rfl

/-- Pulling the tail moves bytes out of `data`; they can still be read. -/
@[simp] theorem recvframePullTail_getD_mem : ((recvframePullTail f sz).getD f).mem = f.mem := by
  unfold recvframePullTail; split
  · rfl
  · simp [mem, ← List.append_assoc]

end

end Rtw
