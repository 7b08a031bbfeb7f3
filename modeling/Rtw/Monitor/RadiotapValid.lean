import Rtw.Lib.Layout
import Rtw.Monitor.Radiotap

/-!
# The header of a received frame as a reader sees it

A reader of a radiotap header goes over the bits of the present words and takes each field at its natural alignment.
`fillHdrBuf` puts the header together the way `fill_radiotap_hdr` does, for any rate the descriptor can report.
`rtapOk_iff` says for which frames the reader comes out at `it_len` with the values that the frame has.
-/

namespace Rtw
open Layout

/-- What `fill_radiotap_hdr` reads of a received frame, with any rate. -/
structure RxReport where
  dataRate : UInt8
  /-- The field has two bits. -/
  bw : Fin 4
  sgi : Bool
  stbc : Bool
  ldpc : Bool
  tsfl : BitVec 32
  encrypt : Nat
  mfrag : Bool
  crcErr : Bool
  physt : Bool
  recvSignalPower : UInt8
  signalQuality : UInt8
  rxPwr : Nat → UInt8
  numTotalRFPath : Fin 5
  /-- `CurrentBandType` is not `BAND_ON_2_4G`. -/
  band5G : Bool
  /-- `rtw_get_oper_ch` -/
  operCh : UInt8

/-- `it_present`, and what is behind it in `hdr_buf`. -/
structure RtapBuf where
  present : Nat
  bytes : List UInt8

namespace RtapBuf

def set (bit : Nat) (b : RtapBuf) : RtapBuf := { b with present := b.present ||| rtapBit bit }

/-- The bytes are written at `rt_len`, which goes on behind them. -/
def put (l : List UInt8) (b : RtapBuf) : RtapBuf := { b with bytes := b.bytes ++ l }

def rtLen (b : RtapBuf) : Nat := 8 + b.bytes.length

end RtapBuf

namespace RxReport
variable (r : RxReport)

def rate : Nat := r.dataRate.toNat

/-- The words behind `it_present`: with `physt` each path has its own. -/
def fillWords (b : RtapBuf) : RtapBuf :=
  if 0 < r.numTotalRFPath.val ∧ r.physt then
    let b := (b.set rtapExt).set rtapRadiotapNamespace
    let b := b.put ((List.replicate (r.numTotalRFPath.val - 1) (rtapBit rtapAntenna ||| rtapBit rtapDbmAntsignal |||
      rtapBit rtapExt ||| rtapBit rtapRadiotapNamespace)).flatMap (leBytes 4))
    b.put (leBytes 4 (rtapBit rtapAntenna ||| rtapBit rtapDbmAntsignal))
  else b

def fillTsft (b : RtapBuf) : RtapBuf :=
  if r.tsfl ≠ 0 then (b.set rtapTsft).put (leBytes 8 r.tsfl.toNat) else b

def flagsByte : UInt8 :=
  (if r.encrypt = 1 ∨ r.encrypt = 5 then 0x04 else 0) ||| (if r.mfrag then 0x08 else 0) |||
    (if r.crcErr then 0x40 else 0) ||| (if r.sgi then 0x80 else 0)

def fillFlags (b : RtapBuf) : RtapBuf := (b.set rtapFlags).put [r.flagsByte]

/-- "force padding 1 byte for aligned" -/
def fillRate (b : RtapBuf) : RtapBuf :=
  if r.rate < 12 then (b.set rtapRate).put [UInt8.ofNat (rtapDataRate r.rate)] else b.put [0]

def channelFlags : Nat :=
  (if r.band5G then 0x0100 else 0x0080) |||
    (if r.rate < 12 then (if r.rate < 4 then 0x0020 else 0x0040) else 0x0400)

def fillChannel (b : RtapBuf) : RtapBuf :=
  ((b.set rtapChannel).put (leBytes 2 (chan2freq r.operCh.toNat))).put (leBytes 2 r.channelFlags)

def fillAntsignal (b : RtapBuf) : RtapBuf :=
  if r.physt then ((b.set rtapDbmAntsignal).put [r.recvSignalPower]).put [0] else b

def fillLockQuality (b : RtapBuf) : RtapBuf := (b.set rtapLockQuality).put (leBytes 2 r.signalQuality.toNat)

def fillRxFlags (b : RtapBuf) : RtapBuf := (b.set rtapRxFlags).put [0, 0]

def fillMcs (b : RtapBuf) : RtapBuf :=
  if 12 ≤ r.rate ∧ r.rate < 44 then
    ((b.set rtapMcs).put [0x02 ||| 0x01 ||| 0x04 ||| 0x20,
      UInt8.ofNat (r.bw.val ||| r.sgi.toNat <<< 2 ||| r.stbc.toNat <<< 5)]).put [UInt8.ofNat (rtapDataRate r.rate)]
  else b

/-- `mcs_nss`, which is written for the user whose number is that of the streams. -/
def mcsNss (user : Nat) : UInt8 :=
  if 44 + 10 * user ≤ r.rate ∧ r.rate < 54 + 10 * user then
    UInt8.ofNat (user + 1) ||| UInt8.ofNat (rtapDataRate r.rate) <<< 4
  else 0

def vhtBandwidth : UInt8 := if r.bw.val = 0 then 0 else if r.bw.val = 1 then 1 else if r.bw.val = 2 then 4 else 11

def fillVht (b : RtapBuf) : RtapBuf :=
  if 44 ≤ r.rate ∧ r.rate < 84 then
    let b := (b.set rtapVht).put (leBytes 2 (0x40 ||| 0x80 ||| 0x100 ||| 0x01 ||| 0x04 ||| 0x10) ++
      [UInt8.ofNat (r.stbc.toNat ||| r.sgi.toNat <<< 2 ||| r.ldpc.toNat <<< 4)])
    let b := b.put [r.vhtBandwidth]
    ((b.put [r.mcsNss 0, r.mcsNss 1, r.mcsNss 2, r.mcsNss 3]).put [0, 0]).put (leBytes 2 0)
  else b

def fillAntennas (b : RtapBuf) : RtapBuf :=
  if r.physt then b.put ((List.range r.numTotalRFPath.val).flatMap fun i => [r.rxPwr i, UInt8.ofNat i]) else b

/-- `hdr_buf` when it is complete. -/
def fillHdrBuf : RtapBuf :=
  r.fillAntennas (r.fillVht (r.fillMcs (fillRxFlags (r.fillLockQuality (r.fillAntsignal (r.fillChannel
    (r.fillRate (r.fillFlags (r.fillTsft (r.fillWords ⟨0, []⟩))))))))))

/-- What is pushed in front of the frame. -/
def header : List UInt8 :=
  [0, 0] ++ leBytes 2 r.fillHdrBuf.rtLen ++ leBytes 4 r.fillHdrBuf.present ++ r.fillHdrBuf.bytes

end RxReport

/-! ## The reader -/

def le32At (hdr : List UInt8) (off : Nat) : Nat := getUnalignedLe16 hdr off + 65536 * getUnalignedLe16 hdr (off + 2)

/-- The present words from `off` on, and where the fields begin. -/
def presentWords (hdr : List UInt8) : Nat → Nat → Option (List Nat × Nat)
  | 0, _ => none
  | fuel + 1, off =>
    if (le32At hdr off).testBit rtapExt then
      (presentWords hdr fuel (off + 4)).map fun r => (le32At hdr off :: r.1, r.2)
    else some ([le32At hdr off], off + 4)

/-- The fields that the words announce; behind `RADIOTAP_NAMESPACE` they are counted from 0 again. -/
def fieldBits : Nat → List Nat → List Nat
  | _, [] => []
  | base, w :: ws =>
    ((List.range 31).filter fun i => w.testBit i && i != rtapRadiotapNamespace).map (base + ·) ++
      fieldBits (if w.testBit rtapRadiotapNamespace then 0 else base + 32) ws

/-- The fields of a header, and where the last one ends. -/
def readRadiotap (hdr : List UInt8) : Option (List (Nat × List UInt8) × Nat) :=
  (presentWords hdr hdr.length 4).bind fun r => walk (rtapNamespaceSizes[·]?) hdr (fieldBits 0 r.1) r.2

/-- `rtw_ch2freq` -/
def rtwCh2freq (chan : Nat) : Nat :=
  if 1 ≤ chan ∧ chan ≤ 14 then (if chan = 14 then 2484 else 2407 + chan * 5)
  else if 36 ≤ chan ∧ chan ≤ 177 then 5000 + chan * 5
  else 0

namespace RxReport
variable (r : RxReport)

/-- The fields of the frame in the order of their bits, for a rate in units of 500 kbit/s, a frequency and the
`mcs_nss` of the four users. -/
def fieldList (rate : UInt8) (freq : Nat) (nss : List UInt8) : List (Nat × List UInt8) :=
  (if r.tsfl ≠ 0 then [(rtapTsft, leBytes 8 r.tsfl.toNat)] else []) ++
  [(rtapFlags, [r.flagsByte])] ++
  (if r.rate < 12 then [(rtapRate, [rate])] else []) ++
  [(rtapChannel, leBytes 2 freq ++ leBytes 2 r.channelFlags)] ++
  (if r.physt then [(rtapDbmAntsignal, [r.recvSignalPower])] else []) ++
  [(rtapLockQuality, leBytes 2 r.signalQuality.toNat), (rtapRxFlags, [0, 0])] ++
  (if 12 ≤ r.rate ∧ r.rate < 44 then
    [(rtapMcs, [0x27, UInt8.ofNat (r.bw.val ||| r.sgi.toNat <<< 2 ||| r.stbc.toNat <<< 5), UInt8.ofNat (r.rate - 12)])]
  else []) ++
  (if 44 ≤ r.rate ∧ r.rate < 84 then
    [(rtapVht, leBytes 2 0x1d5 ++ [UInt8.ofNat (r.stbc.toNat ||| r.sgi.toNat <<< 2 ||| r.ldpc.toNat <<< 4),
      r.vhtBandwidth] ++ nss ++ [0, 0, 0, 0])]
  else []) ++
  (if r.physt then (List.range r.numTotalRFPath.val).flatMap fun i =>
    [(rtapDbmAntsignal, [r.rxPwr i]), (rtapAntenna, [UInt8.ofNat i])]
  else [])

/-- The CCK and OFDM rates in units of 500 kbit/s. -/
def meantRate : UInt8 := [2, 4, 11, 22, 12, 18, 24, 36, 48, 72, 96, 108].getD r.rate 0

/-- The frequency of the channel, as `rtw_ch2freq` has it where it knows the channel. -/
def meantFreq : Nat :=
  if rtwCh2freq r.operCh.toNat ≠ 0 then rtwCh2freq r.operCh.toNat else chan2freq r.operCh.toNat

/-- The streams and the MCS of the frame, for the first user: there is no other. -/
def meantNss : List UInt8 := [UInt8.ofNat ((r.rate - 44) / 10 + 1 + 16 * ((r.rate - 44) % 10)), 0, 0, 0]

/-- The header is valid, it fits into `hdr_buf`, and it says what is meant. -/
structure RtapOk : Prop where
  version : r.header[0]? = some 0
  itLen : getUnalignedLe16 r.header 2 = r.header.length
  room : r.header.length ≤ 64
  fields : readRadiotap r.header = some (r.fieldList r.meantRate r.meantFreq r.meantNss, r.header.length)

/-- The time stamp is not at a multiple of eight. -/
def TsftMisplaced : Prop := r.tsfl ≠ 0 ∧ r.physt = true ∧ r.numTotalRFPath.val % 2 = 1

end RxReport

/-! ## The layout -/

inductive RateKind where
  | legacy
  | ht
  | vht
  | other
  deriving DecidableEq

/-- What the layout of a header depends on. -/
structure RtapShape where
  tsft : Bool
  kind : RateKind
  physt : Bool
  paths : Fin 5

namespace RtapShape
variable (s : RtapShape)

def perPath : Bool := s.physt && decide (0 < s.paths.val)

def extWords : List Nat :=
  if s.perPath then
    List.replicate (s.paths.val - 1) (rtapBit rtapAntenna ||| rtapBit rtapDbmAntsignal ||| rtapBit rtapExt |||
      rtapBit rtapRadiotapNamespace) ++ [rtapBit rtapAntenna ||| rtapBit rtapDbmAntsignal]
  else []

def present : Nat :=
  (if s.perPath then rtapBit rtapExt ||| rtapBit rtapRadiotapNamespace else 0) |||
    (if s.tsft then rtapBit rtapTsft else 0) ||| rtapBit rtapFlags |||
    (if s.kind = .legacy then rtapBit rtapRate else 0) ||| rtapBit rtapChannel |||
    (if s.physt then rtapBit rtapDbmAntsignal else 0) ||| rtapBit rtapLockQuality ||| rtapBit rtapRxFlags |||
    (if s.kind = .ht then rtapBit rtapMcs else 0) ||| (if s.kind = .vht then rtapBit rtapVht else 0)

/-- The bit of each field, its padding and its length. -/
def sizes : List (Nat × Nat × Nat) :=
  (if s.tsft then [(rtapTsft, 0, 8)] else []) ++ [(rtapFlags, 0, 1)] ++
  (if s.kind = .legacy then [(rtapRate, 0, 1), (rtapChannel, 0, 4)] else [(rtapChannel, 1, 4)]) ++
  (if s.physt then [(rtapDbmAntsignal, 0, 1), (rtapLockQuality, 1, 2)] else [(rtapLockQuality, 0, 2)]) ++
  [(rtapRxFlags, 0, 2)] ++ (if s.kind = .ht then [(rtapMcs, 0, 3)] else []) ++
  (if s.kind = .vht then [(rtapVht, 0, 12)] else []) ++
  (if s.physt then (List.range s.paths.val).flatMap fun _ => [(rtapDbmAntsignal, 0, 1), (rtapAntenna, 0, 1)] else [])

/-- Where the fields begin. -/
def start : Nat := 8 + 4 * s.extWords.length

def misplaced : Bool := s.tsft && s.physt && s.paths.val % 2 == 1

/-- All the words but the last one say that another follows. -/
def wordsOk : List Nat → Bool
  | [] => false
  | [w] => decide (w < 2 ^ 32) && !w.testBit rtapExt
  | w :: ws => decide (w < 2 ^ 32) && w.testBit rtapExt && wordsOk ws

/-- The present words announce the fields that are there, they are where they should be but for the time stamp, and there
is room for them. -/
def Right : Prop :=
  wordsOk (s.present :: s.extWords) = true ∧ fieldBits 0 (s.present :: s.extWords) = s.sizes.map (·.1) ∧
    s.start + total s.sizes ≤ 64 ∧
    fits (rtapNamespaceSizes[·]?) s.sizes s.start = !s.misplaced ∧
    (s.misplaced = true → walkEnd (rtapNamespaceSizes[·]?) (s.sizes.map (·.1)) s.start ≠ some (s.start + total s.sizes))

instance : Decidable s.Right := inferInstanceAs (Decidable (_ ∧ _))

theorem right : s.Right := by
  obtain ⟨tsft, kind, physt, paths⟩ := s
  revert tsft physt paths
  cases kind <;> decide +kernel

end RtapShape

/-- The bits are set and the bytes are written. -/
def RtapBuf.add (bits : Nat) (l : List UInt8) (b : RtapBuf) : RtapBuf := ⟨b.present ||| bits, b.bytes ++ l⟩

theorem RtapBuf.put_eq {b : RtapBuf} {l : List UInt8} : b.put l = b.add 0 l := by
  rw [add, Nat.or_zero]
  rfl

theorem RtapBuf.add_nothing {b : RtapBuf} : b.add 0 [] = b := by
  rw [add, Nat.or_zero, List.append_nil]

theorem rtapDataRate_ht : ∀ {rate : Nat}, 12 ≤ rate → rate < 44 → rtapDataRate rate = rate - 12
  | _ + 12, _, h => if_pos h

namespace RxReport
variable (r : RxReport)

def shape : RtapShape where
  tsft := r.tsfl ≠ 0
  kind := if r.rate < 12 then .legacy else if r.rate < 44 then .ht else if r.rate < 84 then .vht else .other
  physt := r.physt
  paths := r.numTotalRFPath

/-- The fields with their padding. -/
def pieces (rate : UInt8) (freq : Nat) (nss : List UInt8) : List (Piece Nat UInt8) :=
  (if r.tsfl ≠ 0 then [⟨rtapTsft, [], leBytes 8 r.tsfl.toNat⟩] else []) ++
  [⟨rtapFlags, [], [r.flagsByte]⟩] ++
  (if r.rate < 12 then [⟨rtapRate, [], [rate]⟩] else []) ++
  [⟨rtapChannel, if r.rate < 12 then [] else [0], leBytes 2 freq ++ leBytes 2 r.channelFlags⟩] ++
  (if r.physt then [⟨rtapDbmAntsignal, [], [r.recvSignalPower]⟩] else []) ++
  [⟨rtapLockQuality, if r.physt then [0] else [], leBytes 2 r.signalQuality.toNat⟩, ⟨rtapRxFlags, [], [0, 0]⟩] ++
  (if 12 ≤ r.rate ∧ r.rate < 44 then
    [⟨rtapMcs, [], [0x27, UInt8.ofNat (r.bw.val ||| r.sgi.toNat <<< 2 ||| r.stbc.toNat <<< 5),
      UInt8.ofNat (r.rate - 12)]⟩]
  else []) ++
  (if 44 ≤ r.rate ∧ r.rate < 84 then
    [⟨rtapVht, [], leBytes 2 0x1d5 ++ [UInt8.ofNat (r.stbc.toNat ||| r.sgi.toNat <<< 2 ||| r.ldpc.toNat <<< 4),
      r.vhtBandwidth] ++ nss ++ [0, 0, 0, 0]⟩]
  else []) ++
  (if r.physt then (List.range r.numTotalRFPath.val).flatMap fun i =>
    [⟨rtapDbmAntsignal, [], [r.rxPwr i]⟩, ⟨rtapAntenna, [], [UInt8.ofNat i]⟩]
  else [])

section
variable {r : RxReport} {rate : UInt8} {freq : Nat} {nss : List UInt8} {b : RtapBuf}

theorem map_pieces : (r.pieces rate freq nss).map (fun p => (p.key, p.val)) = r.fieldList rate freq nss := by
  unfold pieces fieldList
  simp only [List.map_append, apply_ite (List.map _), List.map_cons, List.map_nil, List.map_flatMap]

theorem kind_legacy : r.shape.kind = .legacy ↔ r.rate < 12 := by
  unfold shape
  dsimp only
  split_ifs
  · exact iff_of_true rfl ‹_›
  all_goals exact iff_of_false (by decide) ‹_›

theorem kind_ht : r.shape.kind = .ht ↔ 12 ≤ r.rate ∧ r.rate < 44 := by
  unfold shape
  dsimp only
  split_ifs with hlegacy hht
  · exact iff_of_false (by decide) (by omega)
  · exact iff_of_true rfl ⟨Nat.not_lt.1 hlegacy, hht⟩
  all_goals exact iff_of_false (by decide) (by omega)

theorem kind_vht : r.shape.kind = .vht ↔ 44 ≤ r.rate ∧ r.rate < 84 := by
  unfold shape
  dsimp only
  split_ifs with hlegacy hht hvht
  · exact iff_of_false (by decide) (by omega)
  · exact iff_of_false (by decide) (by omega)
  · exact iff_of_true rfl ⟨Nat.not_lt.1 hht, hvht⟩
  · exact iff_of_false (by decide) (by omega)

theorem sizes_pieces (h : nss.length = 4) : (r.pieces rate freq nss).map Piece.sizes = r.shape.sizes := by
  have htsft : r.shape.tsft = true ↔ r.tsfl ≠ 0 := decide_eq_true_iff
  unfold pieces RtapShape.sizes
  simp only [kind_legacy, kind_ht, kind_vht, htsft, List.map_append, apply_ite (List.map _), List.map_cons, List.map_nil,
    List.map_flatMap, Piece.sizes, List.length_append, length_leBytes, h, List.length_cons, List.length_nil]
  by_cases hlegacy : r.rate < 12
  · by_cases hphy : r.physt
    · simp [hlegacy, hphy, shape]
    · simp [hlegacy, hphy, shape]
  · by_cases hphy : r.physt
    · simp [hlegacy, hphy, shape]
    · simp [hlegacy, hphy, shape]

end

/-! ### What the stages add -/

section
variable {r : RxReport} {b : RtapBuf}

theorem perPath_iff : r.shape.perPath = true ↔ 0 < r.numTotalRFPath.val ∧ r.physt := by
  unfold RtapShape.perPath shape
  rw [Bool.and_eq_true, decide_eq_true_iff, and_comm]

theorem fillWords_eq : r.fillWords b =
    b.add (if r.shape.perPath then rtapBit rtapExt ||| rtapBit rtapRadiotapNamespace else 0)
      (r.shape.extWords.flatMap (leBytes 4)) := by
  unfold fillWords RtapShape.extWords
  simp only [← perPath_iff]
  split
  · rw [List.flatMap_append, List.flatMap_singleton]
    simp only [RtapBuf.add, RtapBuf.set, RtapBuf.put, Nat.or_assoc, List.append_assoc]
    rfl
  · exact RtapBuf.add_nothing.symm

theorem fillTsft_eq : r.fillTsft b = b.add (if r.shape.tsft then rtapBit rtapTsft else 0)
    (if r.tsfl ≠ 0 then leBytes 8 r.tsfl.toNat else []) := by
  have htsft : r.shape.tsft = true ↔ r.tsfl ≠ 0 := decide_eq_true_iff
  unfold fillTsft
  simp only [htsft]
  split
  · rfl
  · exact RtapBuf.add_nothing.symm

theorem fillRate_eq : r.fillRate b = b.add (if r.shape.kind = .legacy then rtapBit rtapRate else 0)
    [if r.rate < 12 then UInt8.ofNat (rtapDataRate r.rate) else 0] := by
  unfold fillRate
  simp only [kind_legacy]
  split
  · rfl
  · exact RtapBuf.put_eq

theorem fillChannel_eq : r.fillChannel b =
    b.add (rtapBit rtapChannel) (leBytes 2 (chan2freq r.operCh.toNat) ++ leBytes 2 r.channelFlags) := by
  simp only [fillChannel, RtapBuf.add, RtapBuf.set, RtapBuf.put, List.append_assoc]

theorem fillAntsignal_eq : r.fillAntsignal b = b.add (if r.shape.physt then rtapBit rtapDbmAntsignal else 0)
    (if r.physt then [r.recvSignalPower, 0] else []) := by
  have hphy : r.shape.physt = r.physt := rfl
  unfold fillAntsignal
  rw [hphy]
  split
  · simp only [RtapBuf.add, RtapBuf.set, RtapBuf.put, List.append_assoc]
    rfl
  · exact RtapBuf.add_nothing.symm

theorem fillMcs_eq : r.fillMcs b = b.add (if r.shape.kind = .ht then rtapBit rtapMcs else 0)
    (if 12 ≤ r.rate ∧ r.rate < 44 then
      [0x27, UInt8.ofNat (r.bw.val ||| r.sgi.toNat <<< 2 ||| r.stbc.toNat <<< 5), UInt8.ofNat (r.rate - 12)]
    else []) := by
  unfold fillMcs
  simp only [kind_ht]
  split
  · case isTrue h =>
    have hrate : rtapDataRate r.rate = r.rate - 12 := rtapDataRate_ht h.1 h.2
    simp only [RtapBuf.add, RtapBuf.set, RtapBuf.put, List.append_assoc, hrate]
    rfl
  · exact RtapBuf.add_nothing.symm

theorem fillVht_eq : r.fillVht b = b.add (if r.shape.kind = .vht then rtapBit rtapVht else 0)
    (if 44 ≤ r.rate ∧ r.rate < 84 then
      leBytes 2 0x1d5 ++ [UInt8.ofNat (r.stbc.toNat ||| r.sgi.toNat <<< 2 ||| r.ldpc.toNat <<< 4), r.vhtBandwidth] ++
        [r.mcsNss 0, r.mcsNss 1, r.mcsNss 2, r.mcsNss 3] ++ [0, 0, 0, 0]
    else []) := by
  unfold fillVht
  simp only [kind_vht]
  split
  · simp only [RtapBuf.add, RtapBuf.set, RtapBuf.put, List.append_assoc]
    rfl
  · exact RtapBuf.add_nothing.symm

theorem fillAntennas_eq : r.fillAntennas b = b.add 0
    (if r.physt then (List.range r.numTotalRFPath.val).flatMap fun i => [r.rxPwr i, UInt8.ofNat i] else []) := by
  unfold fillAntennas
  split
  · exact RtapBuf.put_eq
  · exact RtapBuf.add_nothing.symm

theorem fill_present : r.fillHdrBuf.present = r.shape.present := by
  unfold fillHdrBuf RtapShape.present
  simp only [fillWords_eq, fillTsft_eq, fillRate_eq, fillChannel_eq, fillAntsignal_eq, fillMcs_eq, fillVht_eq,
    fillAntennas_eq, RtapBuf.add, Nat.zero_or, Nat.or_zero]
  rfl

theorem fill_bytes : r.fillHdrBuf.bytes = r.shape.extWords.flatMap (leBytes 4) ++
    Layout.bytes (r.pieces (UInt8.ofNat (rtapDataRate r.rate)) (chan2freq r.operCh.toNat)
      [r.mcsNss 0, r.mcsNss 1, r.mcsNss 2, r.mcsNss 3]) := by
  unfold fillHdrBuf pieces
  simp only [fillWords_eq, fillTsft_eq, fillRate_eq, fillChannel_eq, fillAntsignal_eq, fillMcs_eq, fillVht_eq,
    fillAntennas_eq, fillFlags, fillLockQuality, fillRxFlags, RtapBuf.add, RtapBuf.put, RtapBuf.set,
    List.nil_append, List.append_assoc]
  refine congrArg _ ?_
  simp only [Layout.bytes, List.flatMap_append, apply_ite (List.flatMap Piece.bytes), List.flatMap_cons, List.flatMap_nil,
    List.flatMap_assoc, Piece.bytes, List.nil_append, List.append_nil, List.append_assoc, List.cons_append]
  by_cases hlegacy : r.rate < 12
  · by_cases hphy : r.physt
    · simp [hlegacy, hphy]
    · simp [hlegacy, hphy]
  · by_cases hphy : r.physt
    · simp [hlegacy, hphy]
    · simp [hlegacy, hphy]

end

/-! ### What the reader finds -/

theorem le32At_leBytes {w : Nat} (h : w < 2 ^ 32) (pre rest : List UInt8) :
    le32At (pre ++ (leBytes 4 w ++ rest)) pre.length = w := by
  have hbytes : leBytes 4 w ++ rest = UInt8.ofNat w :: UInt8.ofNat (w / 256) :: UInt8.ofNat (w / 65536) ::
      UInt8.ofNat (w / 16777216) :: rest := by
    simp [leBytes, List.range_succ]
  have hb0 := byteAt_append_right pre (leBytes 4 w ++ rest) 0
  have hb1 := byteAt_append_right pre (leBytes 4 w ++ rest) 1
  have hb2 := byteAt_append_right pre (leBytes 4 w ++ rest) 2
  have hb3 := byteAt_append_right pre (leBytes 4 w ++ rest) 3
  unfold le32At getUnalignedLe16
  rw [Nat.add_zero] at hb0
  rw [hb0, hb1, hb2, Nat.add_assoc pre.length 2 1, hb3, hbytes]
  simp only [byteAt, List.getElem?_cons_zero, List.getElem?_cons_succ, Option.getD_some, UInt8.toNat_ofNat']
  omega

theorem presentWords_words {ws : List Nat} (h : RtapShape.wordsOk ws = true) {fuel : Nat} (hfuel : ws.length ≤ fuel)
    (pre rest : List UInt8) : presentWords (pre ++ (ws.flatMap (leBytes 4) ++ rest)) fuel pre.length =
      some (ws, pre.length + 4 * ws.length) := by
  induction ws using RtapShape.wordsOk.induct generalizing fuel pre with
  | case1 => cases h
  | case2 w =>
    obtain ⟨fuel, rfl⟩ : ∃ n, fuel = n + 1 := ⟨fuel - 1, by rw [List.length_singleton] at hfuel; omega⟩
    simp only [RtapShape.wordsOk, Bool.and_eq_true, decide_eq_true_iff, Bool.not_eq_true'] at h
    rw [presentWords, List.flatMap_singleton, le32At_leBytes h.1, h.2]
    rfl
  | case3 w ws hne ih =>
    obtain ⟨fuel, rfl⟩ : ∃ n, fuel = n + 1 := ⟨fuel - 1, by rw [List.length_cons] at hfuel; omega⟩
    rw [RtapShape.wordsOk.eq_3 _ _ hne] at h
    simp only [Bool.and_eq_true, decide_eq_true_iff] at h
    obtain ⟨⟨hlt, hext⟩, hws⟩ := h
    rw [List.length_cons] at hfuel
    have happ : pre ++ ((w :: ws).flatMap (leBytes 4) ++ rest) =
        (pre ++ leBytes 4 w) ++ (ws.flatMap (leBytes 4) ++ rest) := by
      simp only [List.flatMap_cons, List.append_assoc]
    have hlen : (pre ++ leBytes 4 w).length = pre.length + 4 := by rw [List.length_append, length_leBytes]
    have hrest := ih hws (Nat.le_of_succ_le_succ hfuel) (pre ++ leBytes 4 w)
    have hword : le32At (pre ++ ((w :: ws).flatMap (leBytes 4) ++ rest)) pre.length = w := by
      rw [List.flatMap_cons, List.append_assoc]
      exact le32At_leBytes hlt pre _
    rw [presentWords, hword, if_pos hext, happ, ← hlen, hrest, Option.map_some, hlen, List.length_cons]
    refine congrArg (fun n => some (_, n)) ?_
    omega

theorem length_header (r : RxReport) : r.header.length = 8 + r.fillHdrBuf.bytes.length := by
  unfold header
  simp only [List.length_append, length_leBytes, List.length_cons, List.length_nil]

section
variable {r : RxReport}

/-- The fields as they are written. -/
def written (r : RxReport) : List (Piece Nat UInt8) :=
  r.pieces (UInt8.ofNat (rtapDataRate r.rate)) (chan2freq r.operCh.toNat)
    [r.mcsNss 0, r.mcsNss 1, r.mcsNss 2, r.mcsNss 3]

theorem sizes_written : r.written.map Piece.sizes = r.shape.sizes := sizes_pieces rfl

theorem keys_written : r.written.map Piece.key = r.shape.sizes.map (·.1) := by
  rw [← sizes_written, List.map_map]
  rfl

theorem header_eq : r.header = ([0, 0] ++ leBytes 2 r.fillHdrBuf.rtLen) ++
    ((r.shape.present :: r.shape.extWords).flatMap (leBytes 4) ++ Layout.bytes r.written) := by
  rw [header, fill_present, fill_bytes, List.flatMap_cons]
  simp only [List.append_assoc]
  rfl

theorem length_front : (([0, 0] : List UInt8) ++ leBytes 2 r.fillHdrBuf.rtLen).length = 4 := by
  rw [List.length_append, length_leBytes]
  rfl

theorem length_words : ((r.shape.present :: r.shape.extWords).flatMap (leBytes 4)).length =
    4 + 4 * r.shape.extWords.length := by
  simp only [List.length_flatMap, length_leBytes, List.map_const', List.sum_replicate_nat, List.length_cons]
  omega

theorem length_header_eq : r.header.length = r.shape.start + total r.shape.sizes := by
  rw [header_eq, List.length_append, length_front, List.length_append, length_words, length_bytes, sizes_written,
    RtapShape.start]
  omega

/-- The reader goes over the announced fields from behind the words. -/
theorem readRadiotap_header : readRadiotap r.header =
    walk (rtapNamespaceSizes[·]?) r.header (r.shape.sizes.map (·.1)) r.shape.start := by
  obtain ⟨hwords, hbits, -⟩ := r.shape.right
  have hfuel : (r.shape.present :: r.shape.extWords).length ≤ r.header.length := by
    rw [length_header_eq, RtapShape.start, List.length_cons]
    omega
  have hread := presentWords_words hwords hfuel ([0, 0] ++ leBytes 2 r.fillHdrBuf.rtLen) (Layout.bytes r.written)
  rw [← header_eq, length_front] at hread
  rw [readRadiotap, hread, Option.bind_some, hbits, List.length_cons, RtapShape.start]
  congr 1
  omega

theorem readRadiotap_of_placed (h : r.shape.misplaced = false) : readRadiotap r.header =
    some (r.written.map fun p => (p.key, p.val), r.header.length) := by
  obtain ⟨-, -, -, hfits, -⟩ := r.shape.right
  rw [h, ← sizes_written] at hfits
  have happ : r.header = (([0, 0] ++ leBytes 2 r.fillHdrBuf.rtLen) ++
      (r.shape.present :: r.shape.extWords).flatMap (leBytes 4)) ++ (Layout.bytes r.written ++ []) := by
    rw [List.append_nil, List.append_assoc, ← header_eq]
  have hstart : (([0, 0] ++ leBytes 2 r.fillHdrBuf.rtLen) ++
      (r.shape.present :: r.shape.extWords).flatMap (leBytes 4)).length = r.shape.start := by
    rw [List.length_append, length_front, length_words, RtapShape.start]
    omega
  have hwalk := walk_pieces hfits _ [] hstart
  rw [← happ, length_bytes, sizes_written, ← length_header_eq, keys_written] at hwalk
  rw [readRadiotap_header, hwalk]

theorem readRadiotap_of_misplaced (h : r.shape.misplaced = true) {fields : List (Nat × List UInt8)} :
    readRadiotap r.header ≠ some (fields, r.header.length) := by
  obtain ⟨-, -, -, -, hend⟩ := r.shape.right
  intro hread
  rw [readRadiotap_header] at hread
  have := walkEnd_of_walk hread
  rw [length_header_eq] at this
  exact hend h this

theorem misplaced_iff : r.shape.misplaced = true ↔ r.TsftMisplaced := by
  have htsft : r.shape.tsft = true ↔ r.tsfl ≠ 0 := decide_eq_true_iff
  have hpaths : r.shape.paths = r.numTotalRFPath := rfl
  have hphy : r.shape.physt = r.physt := rfl
  rw [RtapShape.misplaced, Bool.and_eq_true, Bool.and_eq_true, htsft, beq_iff_eq, hpaths, hphy, and_assoc]
  rfl

/-! ### The values -/

/-- Two rows of fields are the same if the open values are. -/
theorem fieldList_inj {rate rate' : UInt8} {freq freq' : Nat} {nss nss' : List UInt8} :
    r.fieldList rate freq nss = r.fieldList rate' freq' nss' ↔ (r.rate < 12 → rate = rate') ∧
      leBytes 2 freq = leBytes 2 freq' ∧ (44 ≤ r.rate ∧ r.rate < 84 → nss = nss') := by
  unfold fieldList
  simp only [List.append_assoc, List.append_right_inj]
  by_cases hleg : r.rate < 12
  · have hvht : ¬ (44 ≤ r.rate ∧ r.rate < 84) := by omega
    simp [hleg, hvht]
  · by_cases hvht : 44 ≤ r.rate ∧ r.rate < 84
    · simp [hleg, hvht]
    · simp [hleg, hvht]

theorem dataRate_meant (h : r.rate < 12) : UInt8.ofNat (rtapDataRate r.rate) = r.meantRate ↔ r.rate ≠ 10 := by
  unfold meantRate
  generalize r.rate = n at h ⊢
  revert n
  decide

theorem freq_meant : leBytes 2 (chan2freq r.operCh.toNat) = leBytes 2 r.meantFreq ↔ r.operCh.toNat ≠ 14 := by
  unfold meantFreq
  have h := r.operCh.toNat_lt
  generalize r.operCh.toNat = n at h ⊢
  revert n
  decide +kernel

theorem nss_meant (h : 44 ≤ r.rate ∧ r.rate < 84) :
    [r.mcsNss 0, r.mcsNss 1, r.mcsNss 2, r.mcsNss 3] = r.meantNss ↔ r.rate < 54 := by
  obtain ⟨hle, hlt⟩ := h
  unfold mcsNss meantNss
  generalize r.rate = n at hle hlt ⊢
  obtain ⟨k, rfl⟩ := Nat.exists_eq_add_of_le hle
  have hk : k < 40 := by omega
  clear hle hlt
  revert k
  decide +kernel

theorem itLen_header : getUnalignedLe16 r.header 2 = r.header.length := by
  have hlen := length_header_eq (r := r)
  obtain ⟨-, -, hroom, -⟩ := r.shape.right
  have hrt : r.fillHdrBuf.rtLen = r.header.length := (length_header r).symm
  have h0 : r.header[2]? = some (UInt8.ofNat r.fillHdrBuf.rtLen) := by simp [header, leBytes_two]
  have h1 : r.header[2 + 1]? = some (UInt8.ofNat (r.fillHdrBuf.rtLen / 256)) := by simp [header, leBytes_two]
  unfold getUnalignedLe16 byteAt
  rw [h0, h1, hrt, Option.getD_some, Option.getD_some, UInt8.toNat_ofNat', UInt8.toNat_ofNat']
  omega

theorem fields_of_placed (h : r.shape.misplaced = false) :
    readRadiotap r.header = some (r.fieldList r.meantRate r.meantFreq r.meantNss, r.header.length) ↔
      r.rate ≠ 10 ∧ ¬ (54 ≤ r.rate ∧ r.rate < 84) ∧ r.operCh.toNat ≠ 14 := by
  rw [readRadiotap_of_placed h, written, map_pieces, Option.some.injEq, Prod.mk.injEq, and_iff_left rfl, fieldList_inj,
    freq_meant]
  constructor
  · rintro ⟨hrate, hfreq, hnss⟩
    refine ⟨fun h10 => ?_, fun hvht => ?_, hfreq⟩
    · have hlt : r.rate < 12 := by omega
      exact (dataRate_meant hlt).1 (hrate hlt) h10
    · have hvht' : 44 ≤ r.rate ∧ r.rate < 84 := by omega
      have := (nss_meant hvht').1 (hnss hvht')
      omega
  · rintro ⟨h10, hvht, hfreq⟩
    exact ⟨fun hlt => (dataRate_meant hlt).2 h10, hfreq, fun hin => (nss_meant hin).2 (by omega)⟩

end

end RxReport

/-- The frames of the round trip. -/
def MonitorRx.report (r : MonitorRx) : RxReport where
  dataRate := UInt8.ofNat r.dataRate.val
  bw := r.bw
  sgi := r.sgi
  stbc := r.stbc
  ldpc := r.ldpc
  tsfl := r.tsfl
  encrypt := r.encrypt
  mfrag := r.mfrag
  crcErr := r.crcErr
  physt := r.physt
  recvSignalPower := r.recvSignalPower
  signalQuality := r.signalQuality
  rxPwr := r.rxPwr
  numTotalRFPath := r.numTotalRFPath
  band5G := r.band5G
  operCh := UInt8.ofNat r.operCh

namespace MonitorRx
variable {r : MonitorRx}

theorem rate_report : r.report.rate = r.dataRate.val := by
  have := r.dataRate.isLt
  show (UInt8.ofNat r.dataRate.val).toNat = _
  rw [UInt8.toNat_ofNat']
  omega

theorem perPath_report : r.report.shape.perPath = r.perAntenna := rfl

/-- No bit is set twice. -/
theorem present_sum : ∀ perPath tsft legacy physt ht vht : Bool,
    (if perPath then rtapBit rtapExt ||| rtapBit rtapRadiotapNamespace else 0) |||
      (if tsft then rtapBit rtapTsft else 0) ||| rtapBit rtapFlags |||
      (if legacy then rtapBit rtapRate else 0) ||| rtapBit rtapChannel |||
      (if physt then rtapBit rtapDbmAntsignal else 0) ||| rtapBit rtapLockQuality ||| rtapBit rtapRxFlags |||
      (if ht then rtapBit rtapMcs else 0) ||| (if vht then rtapBit rtapVht else 0) =
    (if perPath then rtapBit rtapExt + rtapBit rtapRadiotapNamespace else 0) +
      (if tsft then rtapBit rtapTsft else 0) + rtapBit rtapFlags +
      (if legacy then rtapBit rtapRate else 0) + rtapBit rtapChannel +
      (if physt then rtapBit rtapDbmAntsignal else 0) + rtapBit rtapLockQuality + rtapBit rtapRxFlags +
      (if ht then rtapBit rtapMcs else 0) + (if vht then rtapBit rtapVht else 0) := by
  decide +kernel

theorem present_report : r.report.shape.present = r.itPresent := by
  have hlegacy : r.report.shape.kind = .legacy ↔ r.isLegacy = true := by
    rw [RxReport.kind_legacy, rate_report, isLegacy, decide_eq_true_iff]
  have hht : r.report.shape.kind = .ht ↔ r.isHt = true := by
    rw [RxReport.kind_ht, rate_report, isHt, decide_eq_true_iff]
  have hvht : r.report.shape.kind = .vht ↔ r.isVht = true := by
    rw [RxReport.kind_vht, rate_report, isVht, decide_eq_true_iff, and_iff_left r.dataRate.isLt]
  have htsft : r.report.shape.tsft = true ↔ r.tsfl ≠ 0 := decide_eq_true_iff
  have hphy : r.report.shape.physt = r.physt := rfl
  have hsum (tsft : Bool) := present_sum r.perAntenna tsft r.isLegacy r.physt r.isHt r.isVht
  unfold RtapShape.present itPresent
  simp only [perPath_report, htsft, hlegacy, hht, hvht, hphy]
  by_cases h : r.tsfl ≠ 0
  · simp only [if_pos h]
    exact hsum true
  · simp only [if_neg h]
    exact hsum false

theorem extWords_report : r.report.shape.extWords = r.extWords := rfl

theorem channelFlags_report : r.report.channelFlags = r.channelFlags := by
  unfold RxReport.channelFlags channelFlags
  rw [rate_report]
  have hband : r.report.band5G = r.band5G := rfl
  rw [hband]
  split_ifs <;> rfl

theorem flags_mcs : ∀ (bw : Fin 4) (sgi stbc : Bool),
    bw.val ||| sgi.toNat <<< 2 ||| stbc.toNat <<< 5 = bw.val + 4 * sgi.toNat + 32 * stbc.toNat := by
  decide

theorem flags_vht : ∀ stbc sgi ldpc : Bool,
    stbc.toNat ||| sgi.toNat <<< 2 ||| ldpc.toNat <<< 4 = stbc.toNat + 4 * sgi.toNat + 16 * ldpc.toNat := by
  decide

theorem mcsNss_report (user : Nat) (h : user < 4) : r.report.mcsNss user = r.mcsNss user := by
  unfold RxReport.mcsNss mcsNss
  rw [rate_report]
  generalize r.dataRate = rate
  revert user rate
  decide +kernel

theorem vhtBandwidth_report : r.report.vhtBandwidth = r.vhtBandwidth := by
  have hbw : r.report.bw = r.bw := rfl
  unfold RxReport.vhtBandwidth vhtBandwidth
  rw [hbw]
  generalize r.bw = bw
  revert bw
  decide

theorem rate_byte_report :
    (if r.report.rate < 12 then UInt8.ofNat (rtapDataRate r.report.rate) else 0) = r.rate := by
  rw [rate_report]
  simp only [rate, isLegacy, decide_eq_true_iff]

theorem mcs_report : (if 12 ≤ r.report.rate ∧ r.report.rate < 44 then
    [0x27, UInt8.ofNat (r.report.bw.val ||| r.report.sgi.toNat <<< 2 ||| r.report.stbc.toNat <<< 5),
      UInt8.ofNat (r.report.rate - 12)] else []) = r.mcs := by
  rw [rate_report]
  simp only [mcs, isHt, decide_eq_true_iff]
  split
  · case isTrue h =>
    rw [flags_mcs, rtapDataRate_ht h.1 h.2]
    rfl
  · rfl

theorem vht_report : (if 44 ≤ r.report.rate ∧ r.report.rate < 84 then
    leBytes 2 0x1d5 ++ [UInt8.ofNat (r.report.stbc.toNat ||| r.report.sgi.toNat <<< 2 ||| r.report.ldpc.toNat <<< 4),
      r.report.vhtBandwidth] ++ [r.report.mcsNss 0, r.report.mcsNss 1, r.report.mcsNss 2, r.report.mcsNss 3] ++
      [0, 0, 0, 0] else []) = r.vht := by
  rw [rate_report, mcsNss_report 0 (by decide), mcsNss_report 1 (by decide), mcsNss_report 2 (by decide),
    mcsNss_report 3 (by decide), vhtBandwidth_report]
  simp only [vht, isVht, decide_eq_true_iff, and_iff_left r.dataRate.isLt]
  split
  · rw [flags_vht]
    rfl
  · rfl

/-- The bytes behind `it_present` are those of the round trip. -/
theorem bytes_report (h : r.operCh < 256) : r.report.fillHdrBuf.bytes = r.extWords.flatMap (leBytes 4) ++ r.fields := by
  have hlq : leBytes 2 r.report.signalQuality.toNat = [r.signalQuality, 0] := by
    have hlt : r.report.signalQuality.toNat < 256 := r.signalQuality.toNat_lt
    rw [leBytes_two, UInt8.ofNat_toNat, Nat.div_eq_of_lt hlt]
    rfl
  have hch : r.report.operCh.toNat = r.operCh := by
    show (UInt8.ofNat r.operCh).toNat = _
    rw [UInt8.toNat_ofNat', Nat.mod_eq_of_lt h]
  unfold RxReport.fillHdrBuf fields
  rw [RxReport.fillAntennas_eq, RxReport.fillVht_eq, RxReport.fillMcs_eq, RxReport.fillAntsignal_eq,
    RxReport.fillChannel_eq, RxReport.fillRate_eq, RxReport.fillTsft_eq, RxReport.fillWords_eq, vht_report, mcs_report,
    rate_byte_report, hch, channelFlags_report, extWords_report]
  simp only [RtapBuf.add, RxReport.fillFlags, RxReport.fillLockQuality, RxReport.fillRxFlags, RtapBuf.put, RtapBuf.set,
    hlq, List.nil_append, List.append_assoc]
  rfl

theorem header_report (h : r.operCh < 256) : r.report.header = r.words ++ r.fields := by
  have hlen : r.report.fillHdrBuf.rtLen = r.rtLen := by
    rw [RtapBuf.rtLen, bytes_report h, rtLen]
    simp only [List.length_append, List.length_flatMap, length_leBytes, List.map_const', List.sum_replicate_nat]
    omega
  rw [RxReport.header, RxReport.fill_present, bytes_report h, present_report, hlen, words]
  simp only [List.append_assoc]

end MonitorRx

/-- The header is right exactly if the time stamp is at its place, and the rate, the streams and the channel are not among
those for which something else is written. -/
theorem rtapOk_iff (r : RxReport) : r.RtapOk ↔
    ¬ r.TsftMisplaced ∧ r.rate ≠ 10 ∧ ¬ (54 ≤ r.rate ∧ r.rate < 84) ∧ r.operCh.toNat ≠ 14 := by
  by_cases hplace : r.shape.misplaced = true
  · exact iff_of_false (fun h => RxReport.readRadiotap_of_misplaced hplace h.fields)
      fun h => h.1 (RxReport.misplaced_iff.1 hplace)
  · rw [and_iff_right (mt RxReport.misplaced_iff.2 hplace), ← RxReport.fields_of_placed (eq_false_of_ne_true hplace)]
    have hroom : r.header.length ≤ 64 := by
      rw [RxReport.length_header_eq]
      exact r.shape.right.2.2.1
    exact ⟨fun h => h.fields, fun h => ⟨rfl, RxReport.itLen_header, hroom, h⟩⟩

/-- A frame at 48 Mbit/s. -/
def ofdm48M : RxReport where
  dataRate := 10
  bw := (Fin.last 3).rev
  sgi := false
  stbc := false
  ldpc := false
  tsfl := 0
  encrypt := 0
  mfrag := false
  crcErr := false
  physt := true
  recvSignalPower := 0xc4
  signalQuality := 90
  rxPwr := fun _ => 0xc4
  numTotalRFPath := 2
  band5G := false
  operCh := 6

/-- 46.5 Mbit/s is read. -/
theorem not_rtapOk_48M : ¬ ofdm48M.RtapOk := by
  intro h
  exact absurd h.fields (by decide +kernel)

end Rtw
