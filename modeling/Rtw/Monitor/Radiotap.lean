import Mathlib.Algebra.Group.Nat.Defs
import Rtw.Mlme.Ie

/-!
# Radiotap headers

Monitor mode puts a radiotap header in front of each received frame (`fill_radiotap_hdr`), and a frame
that is injected comes with one, which the iterator of `rtw_radiotap.c` walks for
`rtw_monitor_xmit_entry`. Offsets are relative to the start of the header.
-/

namespace Rtw

/-- `enum ieee80211_radiotap_type`, as far as the driver names it. -/
def rtapTsft : Nat := 0
def rtapFlags : Nat := 1
def rtapRate : Nat := 2
def rtapChannel : Nat := 3
def rtapDbmAntsignal : Nat := 5
def rtapLockQuality : Nat := 7
def rtapAntenna : Nat := 11
def rtapRxFlags : Nat := 14
def rtapTxFlags : Nat := 15
def rtapMcs : Nat := 19
def rtapVht : Nat := 21
def rtapRadiotapNamespace : Nat := 29
def rtapVendorNamespace : Nat := 30
def rtapExt : Nat := 31

/-- `enum MGN_RATE` -/
def mgn1M : Nat := 0x02
def mgnMcs0 : Nat := 0x80
def mgnVht1ssMcs0 : Nat := 0xa0

/-- `HwRateToMRate`; the HT and the VHT rates are in the same order on both sides. -/
def hwRateToMRate (rate : Nat) : Nat :=
  match rate with
  | 0 => mgn1M
  | 1 => 0x04
  | 2 => 0x0b
  | 3 => 0x16
  | 4 => 0x0c
  | 5 => 0x12
  | 6 => 0x18
  | 7 => 0x24
  | 8 => 0x30
  | 9 => 0x48
  | 10 => 0x60
  | 11 => 0x6c
  | _ => if rate < 84 then mgnMcs0 + (rate - 12) else mgn1M

/-! ## The header of a received frame -/

/-- What `fill_radiotap_hdr` reads: the attributes of the frame, the PHY status and the chip. -/
structure MonitorRx where
  /-- `DESC_RATE1M` to `DESC_RATEVHTSS4MCS9` -/
  dataRate : Fin 84
  /-- 0 is 20 MHz, 1 is 40 MHz, 2 is 80 MHz; the field has two bits. -/
  bw : Fin 4
  sgi : Bool
  stbc : Bool
  ldpc : Bool
  tsfl : BitVec 32
  encrypt : Nat
  mfrag : Bool
  crcErr : Bool
  physt : Bool
  recvSignalPower : UInt8
  signalQuality : UInt8
  rxPwr : Nat → UInt8
  numTotalRFPath : Fin 5
  /-- `CurrentBandType` is `BAND_ON_5G`. -/
  band5G : Bool
  /-- `rtw_get_oper_ch` -/
  operCh : Nat

/-- The bytes of a little-endian number. -/
def leBytes (len v : Nat) : List UInt8 := (List.range len).map fun i => UInt8.ofNat (v / 256 ^ i)

@[simp] theorem length_leBytes (len v : Nat) : (leBytes len v).length = len := by
  simp [leBytes]

theorem leBytes_two (v : Nat) : leBytes 2 v = [UInt8.ofNat v, UInt8.ofNat (v / 256)] := by
  simp [leBytes, List.range_succ]

def chan2freq (a : Nat) : Nat := if a < 14 then 2407 + 5 * a else 5000 + 5 * a

/-- `data_rate` of `fill_radiotap_hdr` -/
def rtapDataRate (rate : Nat) : Nat :=
  match rate with
  | 0 => 2
  | 1 => 4
  | 2 => 11
  | 3 => 22
  | 4 => 12
  | 5 => 18
  | 6 => 24
  | 7 => 36
  | 8 => 48
  | 9 => 72
  | 10 => 93
  | 11 => 108
  | _ => if rate < 44 then rate - 12 else (rate - 44) % 10

/-- `1 << i` -/
def rtapBit (i : Nat) : Nat := 2 ^ i

namespace MonitorRx

variable (r : MonitorRx)

def isLegacy : Bool := decide (r.dataRate.val < 12)
def isHt : Bool := decide (12 ≤ r.dataRate.val ∧ r.dataRate.val < 44)
def isVht : Bool := decide (44 ≤ r.dataRate.val)

/-- The antennas are told apart, each in a namespace of its own. -/
def perAntenna : Bool := r.physt && decide (0 < r.numTotalRFPath.val)

/-- `it_present`; its bits are set one by one, and no bit twice. -/
def itPresent : Nat :=
  (if r.perAntenna then rtapBit rtapExt + rtapBit rtapRadiotapNamespace else 0) +
    (if r.tsfl ≠ 0 then rtapBit rtapTsft else 0) + rtapBit rtapFlags +
    (if r.isLegacy then rtapBit rtapRate else 0) + rtapBit rtapChannel +
    (if r.physt then rtapBit rtapDbmAntsignal else 0) + rtapBit rtapLockQuality + rtapBit rtapRxFlags +
    (if r.isHt then rtapBit rtapMcs else 0) + (if r.isVht then rtapBit rtapVht else 0)

/-- The words behind `it_present`. -/
def extWords : List Nat :=
  if r.perAntenna then
    List.replicate (r.numTotalRFPath.val - 1)
      (rtapBit rtapAntenna + rtapBit rtapDbmAntsignal + rtapBit rtapExt + rtapBit rtapRadiotapNamespace) ++
      [rtapBit rtapAntenna + rtapBit rtapDbmAntsignal]
  else []

def tsft : List UInt8 := if r.tsfl ≠ 0 then leBytes 8 r.tsfl.toNat else []

def flags : UInt8 :=
  (if r.encrypt = 1 ∨ r.encrypt = 5 then 0x04 else 0) ||| (if r.mfrag then 0x08 else 0) |||
    (if r.crcErr then 0x40 else 0) ||| (if r.sgi then 0x80 else 0)

/-- The byte is there for every rate, the bit for CCK and OFDM only. -/
def rate : UInt8 := if r.isLegacy then UInt8.ofNat (rtapDataRate r.dataRate) else 0

def channelFlags : Nat :=
  (if r.band5G then 0x0100 else 0x0080) +
    (if r.dataRate.val < 12 then (if r.dataRate.val < 4 then 0x0020 else 0x0040) else 0x0400)

def antsignal : List UInt8 := if r.physt then [r.recvSignalPower, 0] else []

/-- MCS: known, flags, index. -/
def mcs : List UInt8 :=
  if r.isHt then
    [0x02 ||| 0x01 ||| 0x04 ||| 0x20,
      UInt8.ofNat (r.bw.val + 4 * r.sgi.toNat + 32 * r.stbc.toNat), UInt8.ofNat (rtapDataRate r.dataRate)]
  else []

/-- The bandwidth of a VHT rate. -/
def vhtBandwidth : UInt8 :=
  match r.bw with
  | 0 => 0
  | 1 => 1
  | 2 => 4
  | 3 => 11

/-- `mcs_nss` of user `i`. -/
def mcsNss (i : Nat) : UInt8 :=
  if 44 + 10 * i ≤ r.dataRate.val ∧ r.dataRate.val < 54 + 10 * i then
    UInt8.ofNat (i + 1 + 16 * rtapDataRate r.dataRate)
  else 0

/-- VHT: known, flags, bandwidth, `mcs_nss`, coding, group id, partial AID. -/
def vht : List UInt8 :=
  if r.isVht then
    leBytes 2 (0x0040 + 0x0080 + 0x0100 + 0x0001 + 0x0004 + 0x0010) ++
      [UInt8.ofNat (r.stbc.toNat + 4 * r.sgi.toNat + 16 * r.ldpc.toNat), r.vhtBandwidth,
        r.mcsNss 0, r.mcsNss 1, r.mcsNss 2, r.mcsNss 3, 0, 0] ++ leBytes 2 0
  else []

/-- For each path its power and its number. -/
def antennas : List UInt8 :=
  if r.physt then
    (List.range r.numTotalRFPath.val).flatMap fun i => [r.rxPwr i, UInt8.ofNat i]
  else []

/-- What is behind the present words. -/
def fields : List UInt8 :=
  r.tsft ++ ([r.flags, r.rate] ++ (leBytes 2 (chan2freq r.operCh) ++ (leBytes 2 r.channelFlags ++
    (r.antsignal ++ ([r.signalQuality, 0] ++ ([0, 0] ++ (r.mcs ++ (r.vht ++ r.antennas))))))))

/-- `rt_len` at the end -/
def rtLen : Nat := 8 + 4 * r.extWords.length + r.fields.length

/-- `it_version`, `it_pad`, `it_len` and the present words. -/
def words : List UInt8 :=
  [0, 0] ++ leBytes 2 r.rtLen ++ leBytes 4 r.itPresent ++ r.extWords.flatMap (leBytes 4)

end MonitorRx

/-- `fill_radiotap_hdr`: the packet with the header pushed in front of it. -/
def fillRadiotapHdr (r : MonitorRx) (data : List UInt8) : List UInt8 := r.words ++ r.fields ++ data

/-! ## The iterator -/

def getUnalignedLe16 (mem : List UInt8) (p : Nat) : Nat := byteAt mem p + 256 * byteAt mem (p + 1)

def getUnalignedLe32 (mem : List UInt8) (p : Nat) : BitVec 32 :=
  BitVec.ofNat 32 (getUnalignedLe16 mem p + 65536 * getUnalignedLe16 mem (p + 2))

/-- `rtap_namespace_sizes`: alignment and size; the table leaves 18 out. -/
def rtapNamespaceSizes : List (Nat × Nat) :=
  [(8, 8), (1, 1), (1, 1), (2, 4), (2, 2), (1, 1), (1, 1), (2, 2), (2, 2), (2, 2), (1, 1), (1, 1), (1, 1),
    (1, 1), (2, 2), (2, 2), (1, 1), (1, 1), (0, 0), (1, 3), (4, 8), (2, 12)]

/-- `struct ieee80211_radiotap_iterator` without vendor namespaces. -/
structure RadiotapIterator where
  maxLength : Nat
  argIndex : Nat := 0
  bitmapShifter : BitVec 32
  arg : Nat
  resetOnExt : Bool := false
  nextBitmap : Nat := 8
  /-- `current_namespace` is `radiotap_ns`; it is null otherwise. -/
  radiotapNs : Bool := true
  /-- `_next_ns_data`, once it is set. -/
  nextNsData : Option Nat := none
  deriving DecidableEq

/-- The loop over extended bitmaps of `rtw_ieee80211_radiotap_iterator_init`. -/
def skipBitmaps (mem : List UInt8) (maxLength : Nat) : Nat → Nat → Option Nat
  | 0, _ => none
  | fuel + 1, arg =>
    if (getUnalignedLe32 mem arg).getLsbD rtapExt then
      if arg + 4 + 4 > maxLength then none else skipBitmaps mem maxLength fuel (arg + 4)
    else some (arg + 4)

/-- `rtw_ieee80211_radiotap_iterator_init`; `none` is `-EINVAL`. -/
def radiotapIteratorInit (mem : List UInt8) (maxLength : Nat) : Option RadiotapIterator :=
  let itLen := getUnalignedLe16 mem 2
  let present := getUnalignedLe32 mem 4
  if maxLength < 8 ∨ byteAt mem 0 ≠ 0 ∨ maxLength < itLen then none
  else if present.getLsbD rtapExt then
    if 8 + 4 > itLen then none
    else (skipBitmaps mem itLen itLen 8).map fun arg => { maxLength := itLen, bitmapShifter := present, arg }
  else some { maxLength := itLen, bitmapShifter := present, arg := 8 }

/-- What a round of `rtw_ieee80211_radiotap_iterator_next` ends with. -/
inductive IterRound where
  /-- an error, or no more arguments -/
  | stop
  /-- the next bit -/
  | more (it : RadiotapIterator)
  /-- `this_arg_index` and `this_arg` -/
  | hit (index arg : Nat) (it : RadiotapIterator)
  deriving DecidableEq

namespace RadiotapIterator

def nextEntry (it : RadiotapIterator) : RadiotapIterator :=
  { it with
    bitmapShifter := it.bitmapShifter >>> 1
    argIndex := it.argIndex + 1 }

/-- Alignment and size of an argument; `none` where the iterator gives up. -/
def alignSize (it : RadiotapIterator) : Option (Nat × Nat) :=
  let k := it.argIndex % 32
  if k = rtapRadiotapNamespace ∨ k = rtapExt then some (1, 0)
  else if k = rtapVendorNamespace then some (2, 6)
  else if !it.radiotapNs then some (0, 0)
  else rtapNamespaceSizes[it.argIndex]?

/-- `_arg` after the padding. -/
def padded (it : RadiotapIterator) (align : Nat) : Nat :=
  let pad := it.arg % align
  if pad ≠ 0 then it.arg + (align - pad) else it.arg

/-- A round of the loop of `rtw_ieee80211_radiotap_iterator_next`; `stack` is what `_next_ns_data` holds
before it is set. -/
def next (mem : List UInt8) (stack : Nat) (it : RadiotapIterator) : IterRound :=
  let k := it.argIndex % 32
  if !it.bitmapShifter.getLsbD 0 then
    if k = rtapExt then .stop else .more it.nextEntry
  else
    match it.alignSize with
    | none => .stop
    | some (align, size) =>
      if align = 0 then
        .more { it with
          arg := it.nextNsData.getD stack
          radiotapNs := false }.nextEntry
      else
        let arg := it.padded align
        if k = rtapVendorNamespace then
          let vnslen := getUnalignedLe16 mem (arg + 4)
          if arg + size > it.maxLength ∨ arg + size + vnslen > it.maxLength then .stop
          else
            .hit rtapVendorNamespace arg { it with
              arg := arg + size + vnslen
              nextNsData := some (arg + size + vnslen)
              radiotapNs := false
              resetOnExt := true }.nextEntry
        else if arg + size > it.maxLength then .stop
        else if k = rtapRadiotapNamespace then
          .more { it with
            arg := arg + size
            resetOnExt := true
            radiotapNs := true }.nextEntry
        else if k = rtapExt then
          .more { it with
            arg := arg + size
            bitmapShifter := getUnalignedLe32 mem it.nextBitmap
            nextBitmap := it.nextBitmap + 4
            argIndex := if it.resetOnExt then 0 else it.argIndex + 1
            resetOnExt := false }
        else .hit it.argIndex arg { it with arg := arg + size }.nextEntry

end RadiotapIterator

/-! ## The frame that is injected -/

/-- What `rtw_monitor_xmit_entry` takes from the header. -/
structure MonitorSel where
  fixedRate : Nat := mgn1M
  sgi : Nat := 0
  bwidth : Nat := 0
  ldpc : Nat := 0
  stbc : Nat := 0
  txflags : Nat := 0
  deriving DecidableEq

namespace MonitorSel

/-- The case `IEEE80211_RADIOTAP_MCS`. -/
def mcs (mem : List UInt8) (arg : Nat) (s : MonitorSel) : MonitorSel :=
  let mcsHave := byteAt mem arg
  let flags := byteAt mem (arg + 1)
  let index := byteAt mem (arg + 2) % 128
  { s with
    fixedRate := if mcsHave.testBit 1 then (if index > 31 then 0 else index) + mgnMcs0 else s.fixedRate
    sgi := if mcsHave.testBit 2 && flags.testBit 2 then 1 else s.sgi
    bwidth := if mcsHave.testBit 0 && flags.testBit 0 then 1 else s.bwidth
    ldpc := if mcsHave.testBit 4 && flags.testBit 4 then 1 else s.ldpc
    stbc := if mcsHave.testBit 5 then flags / 32 % 4 else s.stbc }

/-- The case `IEEE80211_RADIOTAP_VHT`; only the first user is looked at. -/
def vht (mem : List UInt8) (arg : Nat) (s : MonitorSel) : MonitorSel :=
  let known := byteAt mem arg
  let flags := byteAt mem (arg + 2)
  let bandwidth := byteAt mem (arg + 3) % 32
  let mcs := byteAt mem (arg + 4) / 16 % 16
  let nss := byteAt mem (arg + 4) % 16
  { s with
    sgi := if known.testBit 2 && flags.testBit 2 then 1 else s.sgi
    stbc := if known.testBit 0 && flags.testBit 0 then 1 else s.stbc
    bwidth :=
      if known.testBit 6 then
        if 1 ≤ bandwidth ∧ bandwidth ≤ 3 then 1 else if 4 ≤ bandwidth ∧ bandwidth ≤ 10 then 2 else 0
      else s.bwidth
    ldpc := if (byteAt mem (arg + 8)).testBit 0 then 1 else s.ldpc
    fixedRate := if nss > 0 then mgnVht1ssMcs0 + ((min nss 4 - 1) * 10 + min mcs 9) else s.fixedRate }

/-- The `switch` of `rtw_monitor_xmit_entry`. -/
def radiotapArg (mem : List UInt8) (index arg : Nat) (s : MonitorSel) : MonitorSel :=
  if index = rtapRate then { s with fixedRate := byteAt mem arg }
  else if index = rtapTxFlags then { s with txflags := getUnalignedLe16 mem arg }
  else if index = rtapMcs then s.mcs mem arg
  else if index = rtapVht then s.vht mem arg
  else s

end MonitorSel

/-- The loop over the arguments. -/
def radiotapLoop (mem : List UInt8) (stack : Nat) : Nat → RadiotapIterator → MonitorSel → Option MonitorSel
  | 0, _, _ => none
  | fuel + 1, it, s =>
    match it.next mem stack with
    | .stop => some s
    | .more it => radiotapLoop mem stack fuel it s
    | .hit index arg it => radiotapLoop mem stack fuel it (s.radiotapArg mem index arg)

/-- The attributes that `rtw_monitor_xmit_entry` sets. -/
structure MonitorTxAttrib where
  rate : Nat
  sgi : Nat
  bwmode : Nat
  ldpc : Nat
  stbc : Nat
  retryCtrl : Bool
  /-- the frame behind the header -/
  frame : List UInt8
  deriving DecidableEq

def MonitorSel.attrib (s : MonitorSel) (frame : List UInt8) : MonitorTxAttrib where
  rate := s.fixedRate
  sgi := s.sgi
  bwmode := s.bwidth
  ldpc := s.ldpc
  stbc := s.stbc
  retryCtrl := !s.txflags.testBit 3
  frame := frame

/-- `rtw_monitor_xmit_entry` up to `dump_mgntframe`, with a frame of `monitor_alloc_mgtxmitframe`; `none`
where it drops the packet. An error of the iterator ends the loop and no more. -/
def rtwMonitorXmitEntry (stack : Nat) (skb : List UInt8) : Option MonitorTxAttrib :=
  let rtapLen := getUnalignedLe16 skb 2
  if skb.length < 8 ∨ byteAt skb 0 ≠ 0 ∨ skb.length < rtapLen then none
  else
    let sel : Option MonitorSel :=
      match radiotapIteratorInit skb skb.length with
      | none => some {}
      | some it => radiotapLoop skb stack (32 * (rtapLen + 2)) it {}
    sel.map (·.attrib (skb.drop rtapLen))

end Rtw
