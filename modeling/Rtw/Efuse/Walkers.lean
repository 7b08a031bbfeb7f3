import Mathlib.Logic.Function.Basic

/-!
# The walks through the efuse

The efuse is a row of packets, one behind the other from address 0: a header of one or two bytes with the
section and the words that follow, then two bytes for each word. The first 0xff in place of a header ends it.
Three functions walk through it, each on its own: `Hal_EfuseReadEFuse8812A` for the whole map,
`hal_EfusePgPacketRead_8812A` for one section, and `hal_EfuseGetCurrentSize_8812A` for the end.
-/

namespace Rtw.Efuse

/-- The byte that `efuse_OneByteRead` gives for each address. Behind `EFUSE_REAL_CONTENT_LEN_JAGUAR` it may be
any. -/
abbrev Content := Nat → UInt8

/-- `EFUSE_REAL_CONTENT_LEN_JAGUAR`, and `EFUSE_MAP_LEN_JAGUAR` -/
abbrev realContentLen : Nat := 512

/-- `EFUSE_MAX_SECTION_JAGUAR` -/
abbrev maxSection : Nat := 64

/-- `EFUSE_MAX_WORD_UNIT` -/
abbrev maxWordUnit : Nat := 4

/-- A packet's data, of `PGPKT_DATA_SIZE` bytes. -/
abbrev PgData := Fin 8 → UInt8

section
variable (header wden : UInt8)

def extHeader : Bool := header &&& 0x1F = 0x0F

def allWordsDisabled : Bool := wden &&& 0x0F = 0x0F

/-- `GET_HDR_OFFSET_2_0` -/
def hdrOffset20 : UInt8 := (header &&& 0xE0) >>> 5

/-- `!(word_en & BIT(i))` -/
def wordEnabled (i : Nat) : Bool := !wden.toNat.testBit i

/-- The number of words before word `i` that are enabled. -/
def wordsBefore (i : Nat) : Nat := (List.range i).countP (wordEnabled wden)

/-- `Efuse_CalculateWordCnts` -/
def calculateWordCnts : Nat := wordsBefore wden maxWordUnit

end

/-- `AVAILABLE_EFUSE_ADDR_8812` -/
def availableAddr (addr : Nat) : Bool := addr < realContentLen

/-! ### `Hal_EfuseReadEFuse8812A` -/

/-- `eFuse_Addr`, `efuseHeader` and `eFuseWord` -/
structure ReadState where
  addr : Nat
  header : UInt8
  word : Nat → Nat → UInt16

namespace ReadState

def setWord (s : ReadState) (offset i : Nat) (w : UInt16) : ReadState :=
  { s with word := Function.update s.word offset (Function.update (s.word offset) i w) }

/-- The words of a section. -/
def readWords (e : Content) (offset : Nat) (wden : UInt8) : List Nat → ReadState → ReadState
  | [], s => s
  | i :: is, s =>
    if wordEnabled wden i then
      let lo := (e s.addr).toUInt16
      let s := { s.setWord offset i lo with addr := s.addr + 1 }
      if !availableAddr s.addr then s
      else
        let s := { s.setWord offset i (lo ||| ((e s.addr).toUInt16 <<< 8)) with addr := s.addr + 1 }
        if !availableAddr s.addr then s else readWords e offset wden is s
    else readWords e offset wden is s

/-- The words of a section that there is not. `wden` is not shifted. -/
def skipWords (wden : UInt8) : List Nat → Nat → Nat
  | [], addr => addr
  | _ :: is, addr =>
    if wordEnabled wden 0 then
      if !availableAddr (addr + 1) then addr + 1
      else if !availableAddr (addr + 2) then addr + 2
      else skipWords wden is (addr + 2)
    else skipWords wden is addr

/-- The words of a packet, and the next header. -/
def readPacket (e : Content) (s : ReadState) (offset wden : UInt8) : ReadState :=
  let s :=
    if offset.toNat < maxSection then s.readWords e offset.toNat wden (List.range maxWordUnit)
    else { s with addr := skipWords wden (List.range maxWordUnit) s.addr }
  { s with header := e s.addr, addr := s.addr + 1 }

/-- The loop of `Hal_EfuseReadEFuse8812A`. -/
def readLoop (e : Content) : Nat → ReadState → ReadState
  | 0, s => s
  | fuel + 1, s =>
    if s.header ≠ 0xFF ∧ availableAddr s.addr then
      if extHeader s.header then
        let extHdr := e s.addr
        let offset20 := hdrOffset20 s.header
        let s := { s with addr := s.addr + 1 }
        if extHdr ≠ 0xFF then
          if allWordsDisabled extHdr then { s with header := e s.addr, addr := s.addr + 1 }
          else readLoop e fuel (s.readPacket e (((extHdr &&& 0xF0) >>> 1) ||| offset20) (extHdr &&& 0x0F))
        else s
      else readLoop e fuel (s.readPacket e ((s.header >>> 4) &&& 0x0F) (s.header &&& 0x0F))
    else s

end ReadState

/-- The walk of `Hal_EfuseReadEFuse8812A`, which looks at each address once at most. -/
def readWalk (e : Content) : ReadState := .readLoop e realContentLen ⟨1, e 0, fun _ _ => 0xFFFF⟩

def efuseTbl (word : Nat → Nat → UInt16) (k : Nat) : UInt8 :=
  let w := word (k / 8) (k % 8 / 2)
  if k % 2 = 0 then (w &&& 0xff).toUInt8 else ((w >>> 8) &&& 0xff).toUInt8

/-- `Hal_EfuseReadEFuse8812A`, with what it leaves in `pbuf` and in `EfuseUsedBytes` -/
def readEFuse (e : Content) (used offset size : Nat) (pbuf : Nat → UInt8) : (Nat → UInt8) × Nat :=
  if offset + size > realContentLen then (pbuf, used)
  else if e 0 = 0xFF then (pbuf, used)
  else (fun i => if i < size then efuseTbl (readWalk e).word (offset + i) else pbuf i, (readWalk e).addr)

/-! ### `hal_EfuseGetCurrentSize_8812A` -/

def currentSizeLoop (e : Content) : Nat → Nat → Nat
  | 0, addr => addr
  | fuel + 1, addr =>
    if addr < realContentLen then
      if e addr ≠ 0xFF then
        if extHeader (e addr) then
          if allWordsDisabled (e (addr + 1)) then currentSizeLoop e fuel (addr + 2)
          else currentSizeLoop e fuel (addr + 1 + calculateWordCnts (e (addr + 1) &&& 0x0F) * 2 + 1)
        else currentSizeLoop e fuel (addr + calculateWordCnts (e addr &&& 0x0F) * 2 + 1)
      else addr
    else addr

/-- `hal_EfuseGetCurrentSize_8812A`, from `EfuseUsedBytes`, where it leaves its result -/
def getCurrentSize (e : Content) (used : Nat) : Nat := currentSizeLoop e realContentLen used

/-! ### `hal_EfusePgPacketRead_8812A` -/

/-- `efuse_WordEnableDataRead` -/
def wordEnableDataRead (wordEn : UInt8) (sour target : PgData) : PgData := fun i =>
  if wordEnabled wordEn (i.val / 2) then sour i else target i

structure PgReadState where
  /-- `PG_STATE_DATA` -/
  stateData : Bool
  addr : Nat
  hworden : UInt8
  tmpdata : PgData
  data : PgData

namespace PgReadState

/-- What is done about a header, the last byte of which is at `addr`. -/
def readHeader (e : Content) (offset : UInt8) (s : PgReadState) (addr : Nat) (hoffset hworden : UInt8) : PgReadState :=
  let wordCnts := calculateWordCnts hworden
  if hoffset = offset then
    let s := { s with
      addr, hworden
      tmpdata := fun i => if i.val < wordCnts * 2 then e (addr + 1 + i.val) else s.tmpdata i }
    if (List.range (wordCnts * 2)).any fun i => e (addr + 1 + i) ≠ 0xFF then { s with stateData := true }
    else { s with addr := addr + wordCnts * 2 + 1 }
  else { s with addr := addr + wordCnts * 2 + 1, hworden }

def pgReadLoop (e : Content) (offset : UInt8) : Nat → PgReadState → PgReadState
  | 0, s => s
  | fuel + 1, s =>
    if s.addr < realContentLen then
      if s.stateData then
        pgReadLoop e offset fuel { s with
          stateData := false
          addr := s.addr + calculateWordCnts s.hworden * 2 + 1
          data := wordEnableDataRead s.hworden s.tmpdata s.data }
      else if e s.addr ≠ 0xFF then
        if extHeader (e s.addr) then
          if !allWordsDisabled (e (s.addr + 1)) then
            pgReadLoop e offset fuel (s.readHeader e offset (s.addr + 1)
              (hdrOffset20 (e s.addr) ||| ((e (s.addr + 1) &&& 0xF0) >>> 1)) (e (s.addr + 1) &&& 0x0F))
          else { s with addr := s.addr + 2 }
        else
          pgReadLoop e offset fuel
            (s.readHeader e offset s.addr ((e s.addr >>> 4) &&& 0x0F) (e s.addr &&& 0x0F))
      else s
    else s

end PgReadState

/-- `hal_EfusePgPacketRead_8812A`, with what it leaves in `data`. Each packet takes two rounds at most. -/
def pgPacketRead (e : Content) (offset : UInt8) (data : PgData) : PgData × Bool :=
  if offset.toNat > maxSection then (data, false)
  else
    let s := PgReadState.pgReadLoop e offset (2 * realContentLen) ⟨false, 0, 0, fun _ => 0xFF, fun _ => 0xFF⟩
    (s.data, (List.finRange 8).any fun i => s.data i ≠ 0xFF)

end Rtw.Efuse
