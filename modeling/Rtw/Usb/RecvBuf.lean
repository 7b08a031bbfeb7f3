import Mathlib.Data.List.Basic
import Mathlib.Logic.Relation
import Rtw.Usb.Align

/-!
# USB receive transfers

`recvbuf2recvframe` walks a transfer from unit to unit: a descriptor of 24 bytes, the driver information,
the shift and the packet, padded to 8 bytes. It takes the lengths from the descriptor. The descriptor
itself is read from however few bytes are left, the PHY status is not checked against the end of the
transfer, and the length of a packet of less than 4 bytes wraps when the FCS is taken off. `rxOk_iff` says
for which transfers nothing goes wrong.
-/

namespace Rtw.Usb

/-- A transfer, and the memory behind it. `transfer_len` is a signed number. -/
structure RxBuf where
  transfer : List UInt8
  beyond : Nat → UInt8
  lt : transfer.length < 2 ^ 31

/-- The byte at an offset from the start of the transfer. -/
def RxBuf.mem (b : RxBuf) (p : Nat) : UInt8 := (b.transfer[p]?).getD (b.beyond p)

/-- A little-endian `u32`. -/
def le32 (mem : Nat → UInt8) (p : Nat) : Nat :=
  (mem p).toNat + 256 * (mem (p + 1)).toNat + 65536 * (mem (p + 2)).toNat + 16777216 * (mem (p + 3)).toNat

def leBitsTo4byte (mem : Nat → UInt8) (p bitOffset bitLen : Nat) : Nat := le32 mem p / 2 ^ bitOffset % 2 ^ bitLen

inductive PktRptType where
  | normalRx | c2hPacket
  deriving DecidableEq

structure RxPktAttrib where
  pktLen : Nat
  crcErr : Bool
  icvErr : Bool
  drvinfoSz : Nat
  qos : Bool
  shiftSz : Nat
  physt : Bool
  mfrag : Bool
  fragNum : Nat
  pktRptType : PktRptType
  deriving DecidableEq

/-- `rtl8812_query_rx_desc_status` -/
def rtl8812QueryRxPktAttrib (mem : Nat → UInt8) (pdesc : Nat) : RxPktAttrib where
  pktLen := leBitsTo4byte mem pdesc 0 14
  crcErr := leBitsTo4byte mem pdesc 14 1 ≠ 0
  icvErr := leBitsTo4byte mem pdesc 15 1 ≠ 0
  drvinfoSz := leBitsTo4byte mem pdesc 16 4 * 8
  qos := leBitsTo4byte mem pdesc 23 1 ≠ 0
  shiftSz := leBitsTo4byte mem pdesc 24 2
  physt := leBitsTo4byte mem pdesc 26 1 ≠ 0
  mfrag := leBitsTo4byte mem (pdesc + 4) 27 1 ≠ 0
  fragNum := leBitsTo4byte mem (pdesc + 8) 12 4
  pktRptType := if leBitsTo4byte mem (pdesc + 8) 28 1 ≠ 0 then .c2hPacket else .normalRx

def rxdescSize : Nat := 24

/-- How far into the descriptor `rtl8812_query_rx_desc_status` reads: five words. -/
def rxdescRead : Nat := 20

/-- The size of `PHY_STATUS_RPT_8812_T`, of which `ODM_PhyStatusQuery` reads the last byte. -/
def phystSize : Nat := 28

/-- What the allocations for a unit give: a receive frame, the address of the data of a new `sk_buff`, a
clone of the `sk_buff` of the transfer. -/
structure RxAlloc where
  recvframe : Bool
  skb : Option Nat
  clone : Bool

namespace RxPktAttrib

/-- `pkt_offset` before it is rounded. -/
def pktOffset (a : RxPktAttrib) : Nat := rxdescSize + a.drvinfoSz + a.shiftSz + a.pktLen

/-- `pkt_len`, an `u16`, without the FCS. -/
def withoutFcs (a : RxPktAttrib) : RxPktAttrib :=
  if a.pktRptType = .normalRx then { a with pktLen := (a.pktLen + 2 ^ 16 - 4) % 2 ^ 16 } else a

def firstFrag (a : RxPktAttrib) : Bool := a.mfrag && a.fragNum = 0

/-- `rtw_os_alloc_recvframe`: the room from `rx_tail` to `rx_end`, `none` for `_FAIL`. -/
def rtwOsAllocRecvframe (a : RxPktAttrib) (al : RxAlloc) : Option Nat :=
  let allocSz := if a.firstFrag then if a.pktLen ≤ 1650 then 1664 else a.pktLen + 14 else a.pktLen + 14
  match al.skb with
  | some data => some (allocSz - (8 - data % 8) - if a.qos then 6 else 0)
  | none => if a.firstFrag then none else if al.clone then some allocSz else none

end RxPktAttrib

/-- `recvframe_put`: the length of the frame. -/
def recvframePut (room sz : Nat) : Nat := if sz > room then 0 else sz

/-- What a transfer leads to: the parts of it that are read, as offset and length, and the packets that are
passed to `rtw_recv_entry` and to `C2HPacketHandler_8812`. -/
structure RxTrace where
  reads : List (Nat × Nat)
  handed : List (List UInt8)
  c2h : List (List UInt8)

def RxTrace.read (t : RxTrace) (p len : Nat) : RxTrace := { t with reads := t.reads ++ [(p, len)] }

/-- A unit that has passed the checks, with the room that its frame has. -/
def rxUnit (mem : Nat → UInt8) (pbuf room : Nat) (a : RxPktAttrib) (t : RxTrace) : RxTrace :=
  let pdata := pbuf + a.shiftSz + a.drvinfoSz + rxdescSize
  -- the frame is a copy of these bytes, or a window on them
  let t := t.read pdata a.pktLen
  let frame := (List.range (recvframePut room a.pktLen)).map fun j => mem (pdata + j)
  match a.pktRptType with
  | .normalRx =>
    let t := if a.physt then t.read (pbuf + rxdescSize) phystSize else t
    { t with handed := t.handed ++ [frame] }
  | .c2hPacket => { t with c2h := t.c2h ++ [frame] }

/-- The loop of `recvbuf2recvframe`, at the unit number `k`. `transfer_len` is not negative where it is
compared, and `- … > 0` of it is the same on natural numbers. -/
def recvLoop (mpMode : Bool) (mem : Nat → UInt8) (alloc : Nat → RxAlloc) :
    Nat → Nat → Nat → Nat → RxTrace → Option RxTrace
  | 0, _, _, _, _ => none
  | fuel + 1, k, pbuf, transferLen, t =>
    if !(alloc k).recvframe then some t
    else
      let a := rtl8812QueryRxPktAttrib mem pbuf
      let t := t.read pbuf rxdescRead
      if !mpMode && (a.crcErr || a.icvErr) then some t
      else if a.pktLen = 0 ∨ a.pktOffset > transferLen then some t
      else
        match a.withoutFcs.rtwOsAllocRecvframe (alloc k) with
        | none => some t
        | some room =>
          let t := rxUnit mem pbuf room a.withoutFcs t
          let pktOffset := rnd8 a.pktOffset % 2 ^ 16
          if transferLen - pktOffset > 0 then
            recvLoop mpMode mem alloc fuel (k + 1) (pbuf + pktOffset) (transferLen - pktOffset) t
          else some t

/-- `recvbuf2recvframe`. `pkt_cnt` is read from the first descriptor, and decides nothing. -/
def recvbuf2recvframe (mpMode : Bool) (b : RxBuf) (alloc : Nat → RxAlloc) : Option RxTrace :=
  recvLoop mpMode b.mem alloc (b.transfer.length + 1) 0 0 b.transfer.length ⟨[(12, 4)], [], []⟩

/-! ### What is asked of a transfer -/

/-- A unit without errors: the descriptor says how long the other parts are, and the packet ends with the
FCS. -/
structure RxUnit where
  desc : List UInt8
  drvinfo : List UInt8
  shift : List UInt8
  packet : List UInt8
  pad : List UInt8
  attrib : RxPktAttrib
  attrib_eq : attrib = rtl8812QueryRxPktAttrib (fun i => desc.getD i 0) 0
  desc_length : desc.length = rxdescSize
  drvinfo_length : drvinfo.length = attrib.drvinfoSz
  shift_length : shift.length = attrib.shiftSz
  packet_length : packet.length = attrib.pktLen
  noError : attrib.crcErr = false ∧ attrib.icvErr = false
  fcs : 4 ≤ packet.length
  pad_length : pad.length = rnd8 attrib.pktOffset - attrib.pktOffset

def RxUnit.bytes (u : RxUnit) : List UInt8 := u.desc ++ u.drvinfo ++ u.shift ++ u.packet ++ u.pad

/-- The packet without the FCS. -/
def RxUnit.frame (u : RxUnit) : List UInt8 := u.packet.take (u.packet.length - 4)

/-- A part of the transfer. -/
def RxBuf.Inside (b : RxBuf) (r : Nat × Nat) : Prop := r.1 + r.2 ≤ b.transfer.length

/-- The loop ends, reads inside the transfer only, and hands on the packets of a transfer that is a row of
units without errors. -/
def RxOk (mpMode : Bool) (b : RxBuf) (alloc : Nat → RxAlloc) : Prop :=
  ∃ t, recvbuf2recvframe mpMode b alloc = some t ∧ (∀ r ∈ t.reads, b.Inside r) ∧
    ∀ us : List RxUnit, b.transfer = us.flatMap RxUnit.bytes → t.handed = us.map RxUnit.frame

/-! ### When it happens -/

section
variable (mpMode : Bool) (b : RxBuf) (alloc : Nat → RxAlloc)

/-- The unit number `k`, at `p`, passes the checks and gets its frame. -/
structure Taken (k p : Nat) : Prop where
  recvframe : (alloc k).recvframe
  noError : mpMode ∨ (rtl8812QueryRxPktAttrib b.mem p).crcErr = false ∧
    (rtl8812QueryRxPktAttrib b.mem p).icvErr = false
  pktLen : (rtl8812QueryRxPktAttrib b.mem p).pktLen ≠ 0
  pktOffset : (rtl8812QueryRxPktAttrib b.mem p).pktOffset ≤ b.transfer.length - p
  os : ((rtl8812QueryRxPktAttrib b.mem p).withoutFcs.rtwOsAllocRecvframe (alloc k)).isSome

/-- From a unit that is taken the loop goes on to the next one, if there are bytes left. -/
def UnitStep (s s' : Nat × Nat) : Prop :=
  Taken mpMode b alloc s.1 s.2 ∧ s.2 + rnd8 (rtl8812QueryRxPktAttrib b.mem s.2).pktOffset < b.transfer.length ∧
    s' = (s.1 + 1, s.2 + rnd8 (rtl8812QueryRxPktAttrib b.mem s.2).pktOffset)

/-- The words of the descriptor that are read are there; a packet of less than 4 bytes, whose length
becomes almost `2 ^ 16`, is not taken, unless there are as many bytes; and the PHY status is there. -/
structure UnitOk (k p : Nat) : Prop where
  desc : (alloc k).recvframe → p + rxdescRead ≤ b.transfer.length
  packet : Taken mpMode b alloc k p → (rtl8812QueryRxPktAttrib b.mem p).pktRptType = .normalRx →
    (rtl8812QueryRxPktAttrib b.mem p).pktLen < 4 →
      p + (rtl8812QueryRxPktAttrib b.mem p).pktOffset + (2 ^ 16 - 4) ≤ b.transfer.length
  physt : Taken mpMode b alloc k p → (rtl8812QueryRxPktAttrib b.mem p).pktRptType = .normalRx →
    (rtl8812QueryRxPktAttrib b.mem p).physt → p + rxdescSize + phystSize ≤ b.transfer.length

/-- The allocations for a packet succeed. -/
def RxAlloc.ok (al : RxAlloc) (a : RxPktAttrib) : Bool :=
  al.recvframe && (al.skb.isSome || !a.firstFrag && al.clone)

/-- The units that the loop comes to are in order, from the first word on; and a row of units without
errors has packets only, with memory for each. -/
structure RxBounds : Prop where
  pktCnt : 16 ≤ b.transfer.length
  units : ∀ s, Relation.ReflTransGen (UnitStep mpMode b alloc) (0, 0) s → UnitOk mpMode b alloc s.1 s.2

end

section
variable {mpMode : Bool} {b : RxBuf} {alloc : Nat → RxAlloc} {mem mem' : Nat → UInt8} {k p q room fuel : Nat}
  {a : RxPktAttrib} {t : RxTrace} {u : RxUnit}

theorem leBitsTo4byte_lt (mem : Nat → UInt8) (p bitOffset bitLen : Nat) :
    leBitsTo4byte mem p bitOffset bitLen < 2 ^ bitLen := Nat.mod_lt _ (Nat.two_pow_pos bitLen)

theorem pktLen_lt (mem : Nat → UInt8) (p : Nat) : (rtl8812QueryRxPktAttrib mem p).pktLen < 2 ^ 14 := by
  unfold rtl8812QueryRxPktAttrib
  exact leBitsTo4byte_lt mem p 0 14

theorem le_pktOffset (a : RxPktAttrib) : 24 + a.pktLen ≤ a.pktOffset := by
  unfold RxPktAttrib.pktOffset rxdescSize
  omega

/-- A unit is not so long that its rounded length would not fit into an `u16`. -/
theorem rnd8_pktOffset (mem : Nat → UInt8) (p : Nat) :
    rnd8 (rtl8812QueryRxPktAttrib mem p).pktOffset % 2 ^ 16 = rnd8 (rtl8812QueryRxPktAttrib mem p).pktOffset := by
  have hlen := pktLen_lt mem p
  have hdrv : (rtl8812QueryRxPktAttrib mem p).drvinfoSz < 16 * 8 :=
    Nat.mul_lt_mul_of_pos_right (leBitsTo4byte_lt mem p 16 4) (by decide)
  have hshift : (rtl8812QueryRxPktAttrib mem p).shiftSz < 4 := leBitsTo4byte_lt mem p 24 2
  have hrnd := rnd8_lt (rtl8812QueryRxPktAttrib mem p).pktOffset
  refine Nat.mod_eq_of_lt ?_
  unfold RxPktAttrib.pktOffset rxdescSize at hrnd ⊢
  omega

theorem withoutFcs_shift (a : RxPktAttrib) : a.withoutFcs.shiftSz = a.shiftSz ∧
    a.withoutFcs.drvinfoSz = a.drvinfoSz ∧ a.withoutFcs.physt = a.physt ∧
    a.withoutFcs.pktRptType = a.pktRptType ∧ a.withoutFcs.firstFrag = a.firstFrag := by
  unfold RxPktAttrib.withoutFcs RxPktAttrib.firstFrag
  split
  · exact ⟨rfl, rfl, rfl, rfl, rfl⟩
  · exact ⟨rfl, rfl, rfl, rfl, rfl⟩

theorem withoutFcs_pktLen (hn : a.pktRptType = .normalRx) (h4 : 4 ≤ a.pktLen) (hlt : a.pktLen < 2 ^ 14) :
    a.withoutFcs.pktLen = a.pktLen - 4 := by
  unfold RxPktAttrib.withoutFcs
  rw [if_pos hn]
  dsimp only
  omega

theorem withoutFcs_pktLen_wrap (hn : a.pktRptType = .normalRx) (h4 : a.pktLen < 4) :
    a.withoutFcs.pktLen = a.pktLen + (2 ^ 16 - 4) := by
  unfold RxPktAttrib.withoutFcs
  rw [if_pos hn]
  dsimp only
  omega

theorem withoutFcs_c2h (hn : a.pktRptType ≠ .normalRx) : a.withoutFcs = a := if_neg hn

/-- A frame has room for its packet, wherever the new `sk_buff` is. -/
theorem le_room {al : RxAlloc} (h : a.rtwOsAllocRecvframe al = some room) : a.pktLen ≤ room := by
  have hsz : a.pktLen + 14 ≤ if a.firstFrag then if a.pktLen ≤ 1650 then 1664 else a.pktLen + 14 else a.pktLen + 14 := by
    split_ifs <;> omega
  unfold RxPktAttrib.rtwOsAllocRecvframe at h
  dsimp only at h
  generalize (if a.firstFrag then if a.pktLen ≤ 1650 then 1664 else a.pktLen + 14 else a.pktLen + 14) = sz at h hsz
  cases hskb : al.skb with
  | some data =>
    rw [hskb] at h
    obtain rfl := Option.some.inj h
    split_ifs <;> omega
  | none =>
    rw [hskb] at h
    dsimp only at h
    split_ifs at h
    obtain rfl := Option.some.inj h
    omega

theorem isSome_rtwOsAllocRecvframe (a : RxPktAttrib) (al : RxAlloc) :
    (a.rtwOsAllocRecvframe al).isSome = (al.skb.isSome || !a.firstFrag && al.clone) := by
  unfold RxPktAttrib.rtwOsAllocRecvframe
  cases al.skb with
  | some data => rfl
  | none => cases a.firstFrag <;> cases al.clone <;> rfl

/-! ### The reads -/

/-- From a unit on, either it is the last one that the loop looks at, or the next ones follow. -/
theorem forall_units_iff (P : Nat → Nat → Prop) :
    (∀ s, Relation.ReflTransGen (UnitStep mpMode b alloc) (k, p) s → P s.1 s.2) ↔
      P k p ∧ ∀ s', UnitStep mpMode b alloc (k, p) s' →
        ∀ s, Relation.ReflTransGen (UnitStep mpMode b alloc) s' s → P s.1 s.2 := by
  constructor
  · exact fun h => ⟨h _ .refl, fun s' hs' s hs => h s (.head hs' hs)⟩
  · rintro ⟨h0, h⟩ s hs
    rcases Relation.ReflTransGen.cases_head hs with rfl | ⟨s', hs', hs⟩
    · exact h0
    · exact h s' hs' s hs

theorem forall_units_of_not_taken (P : Nat → Nat → Prop) (h : ¬ Taken mpMode b alloc k p) :
    (∀ s, Relation.ReflTransGen (UnitStep mpMode b alloc) (k, p) s → P s.1 s.2) ↔ P k p := by
  rw [forall_units_iff]
  exact and_iff_left fun s' hs' => absurd hs'.1 h

theorem unitOk_of_not_taken (h : ¬ Taken mpMode b alloc k p) :
    UnitOk mpMode b alloc k p ↔ ((alloc k).recvframe → p + rxdescRead ≤ b.transfer.length) :=
  ⟨fun hu => hu.desc, fun hd => ⟨hd, fun ht => absurd ht h, fun ht => absurd ht h⟩⟩

/-- The reads are inside the transfer. -/
def RxTrace.Inside (b : RxBuf) (t : RxTrace) : Prop := ∀ r ∈ t.reads, b.Inside r

theorem inside_read {len : Nat} : (t.read p len).Inside b ↔ t.Inside b ∧ p + len ≤ b.transfer.length := by
  unfold RxTrace.Inside RxTrace.read
  dsimp only
  rw [List.forall_mem_append, List.forall_mem_singleton]
  rfl

theorem inside_rxUnit : (rxUnit mem p room a t).Inside b ↔ t.Inside b ∧
    p + a.shiftSz + a.drvinfoSz + rxdescSize + a.pktLen ≤ b.transfer.length ∧
      (a.pktRptType = .normalRx → a.physt → p + rxdescSize + phystSize ≤ b.transfer.length) := by
  rw [← and_assoc, ← inside_read]
  unfold rxUnit
  dsimp only
  cases a.pktRptType with
  | normalRx =>
    cases a.physt with
    | true =>
      rw [if_pos rfl]
      exact inside_read.trans (and_congr_right fun _ => ⟨fun h _ _ => h, fun h => h rfl rfl⟩)
    | false => exact (and_iff_left fun _ h => absurd h Bool.false_ne_true).symm
  | c2hPacket => exact (and_iff_left fun h => nomatch h).symm

/-- Of a unit that is taken the packet bytes are there if they are not less than 4. -/
theorem packet_inside_iff (ht : Taken mpMode b alloc k p) (hp : p ≤ b.transfer.length) :
    p + (rtl8812QueryRxPktAttrib b.mem p).withoutFcs.shiftSz +
        (rtl8812QueryRxPktAttrib b.mem p).withoutFcs.drvinfoSz + rxdescSize +
        (rtl8812QueryRxPktAttrib b.mem p).withoutFcs.pktLen ≤ b.transfer.length ↔
      ((rtl8812QueryRxPktAttrib b.mem p).pktRptType = .normalRx →
        (rtl8812QueryRxPktAttrib b.mem p).pktLen < 4 →
          p + (rtl8812QueryRxPktAttrib b.mem p).pktOffset + (2 ^ 16 - 4) ≤ b.transfer.length) := by
  have hoff := ht.pktOffset
  have hlt := pktLen_lt b.mem p
  generalize rtl8812QueryRxPktAttrib b.mem p = a at hoff hlt ⊢
  obtain ⟨hshift, hdrv, -⟩ := withoutFcs_shift a
  rw [hshift, hdrv]
  by_cases hn : a.pktRptType = .normalRx
  · rcases Nat.lt_or_ge a.pktLen 4 with h4 | h4
    · have hw := withoutFcs_pktLen_wrap hn h4
      unfold RxPktAttrib.pktOffset at hoff ⊢
      constructor
      · intro h _ _
        omega
      · intro h
        have := h hn h4
        omega
    · have hw := withoutFcs_pktLen hn h4 hlt
      refine iff_of_true ?_ fun _ h => absurd h (by omega)
      unfold RxPktAttrib.pktOffset at hoff
      omega
  · refine iff_of_true ?_ fun h => absurd h hn
    rw [withoutFcs_c2h hn]
    unfold RxPktAttrib.pktOffset at hoff
    omega

/-- The loop ends, and its reads are inside the transfer exactly when all units that it comes to are in
order. -/
theorem recvLoop_inside (hp : p ≤ b.transfer.length) (hfuel : b.transfer.length - p < fuel) :
    ∃ t', recvLoop mpMode b.mem alloc fuel k p (b.transfer.length - p) t = some t' ∧
      (t'.Inside b ↔ t.Inside b ∧
        ∀ s, Relation.ReflTransGen (UnitStep mpMode b alloc) (k, p) s → UnitOk mpMode b alloc s.1 s.2) := by
  induction fuel generalizing k p t with
  | zero => omega
  | succ fuel ih =>
    unfold recvLoop
    -- the loop stops at a unit that is not taken
    have hstop : ¬ Taken mpMode b alloc k p → (alloc k).recvframe →
        ((t.read p rxdescRead).Inside b ↔ t.Inside b ∧
          ∀ s, Relation.ReflTransGen (UnitStep mpMode b alloc) (k, p) s → UnitOk mpMode b alloc s.1 s.2) := by
      intro hno hal
      rw [forall_units_of_not_taken _ hno, unitOk_of_not_taken hno, inside_read]
      exact and_congr_right fun _ => ⟨fun h _ => h, fun h => h hal⟩
    split
    · rename_i hal
      have hno : ¬ Taken mpMode b alloc k p := fun ht => by
        rw [ht.recvframe] at hal
        cases hal
      refine ⟨t, rfl, ?_⟩
      rw [forall_units_of_not_taken _ hno, unitOk_of_not_taken hno]
      exact (and_iff_left fun h => absurd h (by simpa using hal)).symm
    rename_i hal
    have hal : (alloc k).recvframe = true := by simpa using hal
    dsimp only
    split
    · rename_i herr
      refine ⟨_, rfl, hstop (fun ht => ?_) hal⟩
      rcases ht.noError with hmp | ⟨hcrc, hicv⟩
      · simp [hmp] at herr
      · simp [hcrc, hicv] at herr
    rename_i herr
    split
    · rename_i hlen
      refine ⟨_, rfl, hstop (fun ht => ?_) hal⟩
      rcases hlen with hlen | hlen
      · exact ht.pktLen hlen
      · have := ht.pktOffset
        omega
    rename_i hlen
    rw [not_or] at hlen
    split
    · rename_i hos
      refine ⟨_, rfl, hstop (fun ht => ?_) hal⟩
      have := ht.os
      rw [hos] at this
      cases this
    rename_i room hos
    have ht : Taken mpMode b alloc k p := by
      refine ⟨hal, ?_, hlen.1, by omega, by rw [hos]; rfl⟩
      cases mpMode
      · simp at herr
        exact .inr herr
      · exact .inl rfl
    have hunit : ∀ t : RxTrace, (rxUnit b.mem p room (rtl8812QueryRxPktAttrib b.mem p).withoutFcs
        (t.read p rxdescRead)).Inside b ↔ t.Inside b ∧ UnitOk mpMode b alloc k p := by
      intro t
      obtain ⟨-, -, hphyst, htype, -⟩ := withoutFcs_shift (rtl8812QueryRxPktAttrib b.mem p)
      rw [inside_rxUnit, packet_inside_iff ht hp, inside_read, htype, hphyst, and_assoc]
      exact and_congr_right fun _ => ⟨fun ⟨h1, h2, h3⟩ => ⟨fun _ => h1, fun _ => h2, fun _ => h3⟩,
        fun h => ⟨h.desc hal, h.packet ht, h.physt ht⟩⟩
    have h24 := le_pktOffset (rtl8812QueryRxPktAttrib b.mem p)
    have hrnd := le_rnd8 (rtl8812QueryRxPktAttrib b.mem p).pktOffset
    rw [rnd8_pktOffset, forall_units_iff]
    split
    · rename_i hmore
      have hmore : p + rnd8 (rtl8812QueryRxPktAttrib b.mem p).pktOffset < b.transfer.length := by omega
      obtain ⟨t', ht', hiff⟩ := ih (k := k + 1) (p := p + rnd8 (rtl8812QueryRxPktAttrib b.mem p).pktOffset)
        (t := rxUnit b.mem p room (rtl8812QueryRxPktAttrib b.mem p).withoutFcs (t.read p rxdescRead))
        (by omega) (by omega)
      refine ⟨t', by rw [Nat.sub_sub]; exact ht', ?_⟩
      rw [hiff, hunit, and_assoc]
      refine and_congr_right fun _ => and_congr_right fun _ => ⟨fun h s' hs' => ?_, fun h => h _ ⟨ht, hmore, rfl⟩⟩
      rw [hs'.2.2]
      exact h
    · rename_i hmore
      refine ⟨_, rfl, ?_⟩
      rw [hunit]
      refine and_congr_right fun _ => (and_iff_left fun s' hs' => ?_).symm
      have hnext := hs'.2.1
      dsimp only at hnext
      omega

/-! ### The packets -/

theorem le32_congr (h : ∀ i < 4, mem (p + i) = mem' (q + i)) : le32 mem p = le32 mem' q := by
  have h0 : mem p = mem' q := h 0 (by decide)
  unfold le32
  rw [h0, h 1 (by decide), h 2 (by decide), h 3 (by decide)]

theorem rtl8812QueryRxPktAttrib_congr (h : ∀ i < 24, mem (p + i) = mem' (q + i)) :
    rtl8812QueryRxPktAttrib mem p = rtl8812QueryRxPktAttrib mem' q := by
  have hword : ∀ n, n + 4 ≤ 24 → le32 mem (p + n) = le32 mem' (q + n) := by
    intro n hn
    refine le32_congr fun i hi => ?_
    rw [Nat.add_assoc, Nat.add_assoc]
    exact h (n + i) (by omega)
  have h0 : le32 mem p = le32 mem' q := hword 0 (by decide)
  unfold rtl8812QueryRxPktAttrib leBitsTo4byte
  rw [h0, hword 4 (by decide), hword 8 (by decide)]

/-- What the memory holds where the transfer goes on with `l`. -/
theorem mem_of_drop {l : List UInt8} {i : Nat} (h : b.transfer.drop p = l) (hi : i < l.length) :
    b.mem (p + i) = l[i] := by
  unfold RxBuf.mem
  rw [← List.getElem?_drop, h, List.getElem?_eq_getElem hi]
  rfl

theorem attrib_of_drop {rest : List UInt8} (h : b.transfer.drop p = u.bytes ++ rest) :
    rtl8812QueryRxPktAttrib b.mem p = u.attrib := by
  rw [u.attrib_eq]
  refine rtl8812QueryRxPktAttrib_congr fun i hi => ?_
  have hd : i < u.desc.length := by
    rw [u.desc_length]
    exact hi
  have hsplit : u.bytes ++ rest = u.desc ++ (u.drvinfo ++ u.shift ++ u.packet ++ u.pad ++ rest) := by
    unfold RxUnit.bytes
    simp only [List.append_assoc]
  rw [mem_of_drop (h.trans hsplit) (by rw [List.length_append]; omega), List.getElem_append_left hd,
    Nat.zero_add, List.getD_eq_getElem?_getD, List.getElem?_eq_getElem hd]
  rfl

theorem pktOffset_eq (u : RxUnit) : u.attrib.pktOffset =
    u.desc.length + u.drvinfo.length + u.shift.length + u.packet.length := by
  rw [u.desc_length, u.drvinfo_length, u.shift_length, u.packet_length]
  rfl

theorem length_bytes (u : RxUnit) : u.bytes.length = rnd8 u.attrib.pktOffset := by
  have hle := le_rnd8 u.attrib.pktOffset
  have hpad := u.pad_length
  have hoff := pktOffset_eq u
  unfold RxUnit.bytes
  simp only [List.length_append]
  omega

/-- The frame of a packet is its bytes without the FCS. -/
theorem frame_of_drop {rest : List UInt8} (h : b.transfer.drop p = u.bytes ++ rest) :
    (List.range (u.packet.length - 4)).map (fun j =>
      b.mem (p + u.attrib.shiftSz + u.attrib.drvinfoSz + rxdescSize + j)) = u.frame := by
  have hdrop : b.transfer.drop (p + u.attrib.shiftSz + u.attrib.drvinfoSz + rxdescSize) =
      u.packet ++ (u.pad ++ rest) := by
    have hlen : (u.desc ++ u.drvinfo ++ u.shift).length = u.attrib.shiftSz + u.attrib.drvinfoSz + rxdescSize := by
      rw [List.length_append, List.length_append, u.desc_length, u.drvinfo_length, u.shift_length]
      omega
    have hsplit : u.bytes ++ rest = (u.desc ++ u.drvinfo ++ u.shift) ++ (u.packet ++ (u.pad ++ rest)) := by
      unfold RxUnit.bytes
      simp only [List.append_assoc]
    rw [Nat.add_assoc, Nat.add_assoc, ← Nat.add_assoc u.attrib.shiftSz, ← hlen, ← List.drop_drop, h, hsplit,
      List.drop_left]
  unfold RxUnit.frame
  refine List.ext_getElem ?_ fun i h1 h2 => ?_
  · rw [List.length_map, List.length_range, List.length_take]
    omega
  · rw [List.length_map, List.length_range] at h1
    have hi : i < u.packet.length := by omega
    rw [List.getElem_map, List.getElem_range, mem_of_drop hdrop (by rw [List.length_append]; omega),
      List.getElem_append_left hi, List.getElem_take]

/-- The packets that are handed on from the unit number `k` on. -/
def handedOn (alloc : Nat → RxAlloc) : Nat → List RxUnit → List (List UInt8)
  | _, [] => []
  | k, u :: us =>
    if (alloc k).ok u.attrib then
      if u.attrib.pktRptType = .normalRx then u.frame :: handedOn alloc (k + 1) us else handedOn alloc (k + 1) us
    else []

theorem length_handedOn (us : List RxUnit) : (handedOn alloc k us).length ≤ us.length := by
  induction us generalizing k with
  | nil => exact Nat.le_refl 0
  | cons u us ih =>
    have hrest := ih (k := k + 1)
    rw [handedOn]
    split_ifs
    · rw [List.length_cons, List.length_cons]
      omega
    · rw [List.length_cons]
      omega
    · exact Nat.zero_le _

/-- Every packet is handed on exactly when there is memory for each and no unit is a report. -/
theorem handedOn_eq_iff (us : List RxUnit) : handedOn alloc k us = us.map RxUnit.frame ↔
    ∀ i u, us[i]? = some u → (alloc (k + i)).ok u.attrib ∧ u.attrib.pktRptType = .normalRx := by
  induction us generalizing k with
  | nil => exact iff_of_true rfl fun i u h => nomatch h
  | cons u us ih =>
    have hrest : (∀ i v, (u :: us)[i]? = some v → (alloc (k + i)).ok v.attrib ∧ v.attrib.pktRptType = .normalRx) ↔
        ((alloc k).ok u.attrib ∧ u.attrib.pktRptType = .normalRx) ∧
          ∀ i v, us[i]? = some v → (alloc (k + 1 + i)).ok v.attrib ∧ v.attrib.pktRptType = .normalRx := by
      constructor
      · refine fun h => ⟨h 0 u rfl, fun i v hv => ?_⟩
        rw [Nat.add_assoc, Nat.add_comm 1]
        exact h (i + 1) v hv
      · rintro ⟨h0, h⟩ i v hv
        rcases i with _ | i
        · obtain rfl := Option.some.inj hv
          exact h0
        · rw [Nat.add_comm i, ← Nat.add_assoc]
          exact h i v hv
    have hlen : (handedOn alloc (k + 1) us).length ≤ us.length := length_handedOn us
    rw [hrest, ← ih (k := k + 1), handedOn]
    split_ifs with hal hn
    · rw [List.map_cons, List.cons_inj_right]
      have hu : (alloc k).ok u.attrib = true ∧ u.attrib.pktRptType = .normalRx := ⟨hal, hn⟩
      exact (and_iff_right hu).symm
    · refine iff_of_false (fun he => ?_) fun h => hn h.1.2
      have := congrArg List.length he
      rw [List.length_map, List.length_cons] at this
      omega
    · exact iff_of_false (fun he => nomatch he) fun h => hal h.1.1

theorem recvLoop_handed {us : List RxUnit} {t' : RxTrace} (hp : p ≤ b.transfer.length)
    (hus : b.transfer.drop p = us.flatMap RxUnit.bytes)
    (h : recvLoop mpMode b.mem alloc fuel k p (b.transfer.length - p) t = some t') :
    t'.handed = t.handed ++ handedOn alloc k us := by
  induction fuel generalizing k p t us with
  | zero => cases h
  | succ fuel ih =>
    unfold recvLoop at h
    have h24 := le_pktOffset (rtl8812QueryRxPktAttrib b.mem p)
    have hlen : b.transfer.length - p = (us.flatMap RxUnit.bytes).length := by rw [← hus, List.length_drop]
    cases us with
    | nil =>
      -- nothing is left, and every unit has at least a descriptor
      have h0 : b.transfer.length - p = 0 := hlen
      rw [h0] at h
      dsimp only at h
      rw [if_pos (Or.inr (by omega : (rtl8812QueryRxPktAttrib b.mem p).pktOffset > 0))] at h
      rw [handedOn, List.append_nil]
      split_ifs at h <;> obtain rfl := Option.some.inj h <;> rfl
    | cons u us =>
      rw [List.flatMap_cons] at hus hlen
      have ha := attrib_of_drop hus
      have hbytes := length_bytes u
      have hrnd := le_rnd8 u.attrib.pktOffset
      have hsz := rnd8_pktOffset b.mem p
      have hlt := pktLen_lt b.mem p
      rw [List.length_append] at hlen
      rw [ha] at h hsz hlt
      have h4 : 4 ≤ u.attrib.pktLen := by
        rw [← u.packet_length]
        exact u.fcs
      obtain ⟨hshift, hdrv, -, htype, hfrag⟩ := withoutFcs_shift u.attrib
      have hos := isSome_rtwOsAllocRecvframe u.attrib.withoutFcs (alloc k)
      rw [hfrag] at hos
      rw [handedOn, RxAlloc.ok, ← hos]
      dsimp only at h
      rw [u.noError.1, u.noError.2, Bool.or_self, Bool.and_false, if_neg Bool.false_ne_true,
        if_neg (by omega : ¬ (u.attrib.pktLen = 0 ∨ u.attrib.pktOffset > b.transfer.length - p)), hsz] at h
      cases hal : (alloc k).recvframe with
      | false =>
        rw [hal] at h
        obtain rfl := Option.some.inj h
        rw [Bool.false_and, if_neg Bool.false_ne_true, List.append_nil]
      | true =>
        rw [hal, if_neg (by simp)] at h
        cases hroom : u.attrib.withoutFcs.rtwOsAllocRecvframe (alloc k) with
        | none =>
          rw [hroom] at h
          obtain rfl := Option.some.inj h
          rw [Option.isSome_none, Bool.and_false, if_neg Bool.false_ne_true, List.append_nil]
          rfl
        | some room =>
          rw [hroom] at h
          dsimp only at h
          rw [Option.isSome_some, Bool.and_self, if_pos rfl]
          have hunit : (rxUnit b.mem p room u.attrib.withoutFcs (t.read p rxdescRead)).handed =
              t.handed ++ if u.attrib.pktRptType = .normalRx then [u.frame] else [] := by
            unfold rxUnit
            dsimp only
            rw [htype]
            cases hn : u.attrib.pktRptType with
            | normalRx =>
              have hw := withoutFcs_pktLen hn h4 hlt
              have hput : recvframePut room u.attrib.withoutFcs.pktLen = u.packet.length - 4 := by
                unfold recvframePut
                rw [if_neg (Nat.not_lt.2 (le_room hroom)), hw, u.packet_length]
              rw [if_pos rfl, hput, hshift, hdrv, frame_of_drop hus]
              dsimp only
              split <;> rfl
            | c2hPacket => exact (List.append_nil t.handed).symm
          have hdrop : b.transfer.drop (p + rnd8 u.attrib.pktOffset) = us.flatMap RxUnit.bytes := by
            rw [← List.drop_drop, hus, ← hbytes, List.drop_left]
          have hrest : t.handed ++ (if u.attrib.pktRptType = .normalRx then
              u.frame :: handedOn alloc (k + 1) us else handedOn alloc (k + 1) us) =
              (rxUnit b.mem p room u.attrib.withoutFcs (t.read p rxdescRead)).handed ++ handedOn alloc (k + 1) us := by
            rw [hunit]
            split <;> simp
          rw [hrest]
          split at h
          · rw [Nat.sub_sub] at h
            exact ih (by omega) hdrop h
          · rename_i hmore
            obtain rfl := Option.some.inj h
            have hnil : us.flatMap RxUnit.bytes = [] := by
              rw [← hdrop]
              exact List.drop_of_length_le (by omega)
            cases us with
            | nil => rw [handedOn, List.append_nil]
            | cons v us =>
              have hv := congrArg List.length hnil
              rw [List.flatMap_cons, List.length_append, length_bytes, List.length_nil] at hv
              have h24' := le_pktOffset v.attrib
              have hrnd' := le_rnd8 v.attrib.pktOffset
              omega

/-- For every transfer, whatever the allocations give: `recvbuf2recvframe` ends, reads inside the transfer
and hands on every packet of a row of units, exactly when the units it comes to are in order and a row of
units without errors consists of packets with memory for each. -/
theorem rxOk_iff (mpMode : Bool) (b : RxBuf) (alloc : Nat → RxAlloc) :
    RxOk mpMode b alloc ↔ RxBounds mpMode b alloc ∧
      ∀ us : List RxUnit, b.transfer = us.flatMap RxUnit.bytes →
        ∀ i u, us[i]? = some u → (alloc i).ok u.attrib ∧ u.attrib.pktRptType = .normalRx := by
  obtain ⟨t, ht, hinside⟩ : ∃ t, recvbuf2recvframe mpMode b alloc = some t ∧
      (t.Inside b ↔ RxTrace.Inside b ⟨[(12, 4)], [], []⟩ ∧
        ∀ s, Relation.ReflTransGen (UnitStep mpMode b alloc) (0, 0) s → UnitOk mpMode b alloc s.1 s.2) :=
    recvLoop_inside (Nat.zero_le _) (Nat.lt_succ_self b.transfer.length)
  have hfirst : RxTrace.Inside b ⟨[(12, 4)], [], []⟩ ↔ 16 ≤ b.transfer.length := List.forall_mem_singleton
  have hbounds : t.Inside b ↔ RxBounds mpMode b alloc := by
    rw [hinside, hfirst]
    exact ⟨fun ⟨h1, h2⟩ => ⟨h1, h2⟩, fun ⟨h1, h2⟩ => ⟨h1, h2⟩⟩
  have hhanded : ∀ us : List RxUnit, b.transfer = us.flatMap RxUnit.bytes →
      (t.handed = us.map RxUnit.frame ↔
        ∀ i u, us[i]? = some u → (alloc i).ok u.attrib ∧ u.attrib.pktRptType = .normalRx) := by
    intro us hus
    rw [recvLoop_handed (Nat.zero_le _) (by rw [List.drop_zero]; exact hus) ht, List.nil_append, handedOn_eq_iff]
    simp only [Nat.zero_add]
  unfold RxOk
  constructor
  · rintro ⟨t', ht', hin, hrow⟩
    obtain rfl := Option.some.inj (ht'.symm.trans ht)
    exact ⟨hbounds.1 hin, fun us hus => (hhanded us hus).1 (hrow us hus)⟩
  · rintro ⟨hin, hrow⟩
    exact ⟨t, ht, hbounds.2 hin, fun us hus => (hhanded us hus).2 (hrow us hus)⟩

/-- A transfer of one unit, with a packet of 2 bytes. -/
def shortPacket : RxBuf := ⟨2 :: List.replicate 31 0, fun _ => 0, by decide⟩

/-- 65534 bytes are copied from a transfer of 32. -/
theorem not_rxOk_shortPacket : ¬ RxOk false shortPacket fun _ => ⟨true, some 0, true⟩ := by
  rintro ⟨t, ht, hin, -⟩
  have hreads : (recvbuf2recvframe false shortPacket fun _ => ⟨true, some 0, true⟩).map RxTrace.reads =
      some [(12, 4), (0, 20), (24, 65534)] := by
    decide +kernel
  rw [ht] at hreads
  have hread := hin (24, 65534) (by rw [Option.some.inj hreads]; simp)
  revert hread
  unfold RxBuf.Inside
  decide

end

end Rtw.Usb
