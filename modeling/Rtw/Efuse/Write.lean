import Rtw.Efuse.Walkers

/-!
# Writing to the efuse

`rtw_efuse_map_write` compares the new data with the map and writes for each section the words that differ, by
`hal_EfusePgPacketWrite_8812A`. That walks from address 0: a packet of the section without data yet takes the
words if it can, else they are put into a new packet, at the first free byte. Much of it is about bytes that have
not taken what was written to them, or headers that were found without words.
-/

namespace Rtw.Efuse

/-- `EFUSE_REAL_CONTENT_LEN_JAGUAR - EFUSE_OOB_PROTECT_BYTES_JAGUAR` -/
abbrev availableLen : Nat := 494

/-- `EFUSE_MAX_SECTION_BASE` -/
abbrev maxSectionBase : Nat := 16

/-- `EFUSE_REPEAT_THRESHOLD_` -/
abbrev repeatThreshold : Nat := 3

/-- What `burn old new` is read after `new` is written to a byte that is not free any more. -/
abbrev Burn := UInt8 → UInt8 → UInt8

/-- The efuse, with `EfuseUsedBytes` and the static `repeat_times` -/
structure Dev where
  content : Content
  used : Nat
  repeatTimes : Nat

/-- A word-enable mask. -/
def wordMask (enabled : Nat → Bool) : UInt8 :=
  (List.range maxWordUnit).foldl (fun mask i => if enabled i then mask &&& ~~~(1 <<< UInt8.ofNat i) else mask) 0x0F

/-- Byte `k` of the data. -/
def PgData.byte (data : PgData) (k : Nat) : UInt8 := data (Fin.ofNat 8 k)

namespace Dev
variable (burn : Burn)

/-- `efuse_OneByteWrite` -/
def oneByteWrite (d : Dev) (addr : Nat) (v : UInt8) : Dev :=
  { d with
    content := Function.update d.content addr (if d.content addr = 0xFF then v else burn (d.content addr) v) }

/-- It is tried up to `n` times. -/
def tryWrite (addr : Nat) (v : UInt8) : Nat → Dev → Dev
  | 0, d => d
  | n + 1, d =>
    let d := d.oneByteWrite burn addr v
    if d.content addr = v then d else tryWrite addr v n d

/-- `Efuse_GetCurrentSize` -/
def currentSize (d : Dev) : Dev × Nat :=
  let size := getCurrentSize d.content d.used
  ({ d with used := size }, size)

/-- The words of `Hal_EfuseWordEnableDataWrite8812A`, with `badworden` -/
def writeWords (wordEn : UInt8) (data : PgData) : List Nat → Nat → Dev → UInt8 → Dev × UInt8
  | [], _, d, bad => (d, bad)
  | i :: is, addr, d, bad =>
    if wordEnabled wordEn i then
      let d := d.oneByteWrite burn addr (data.byte (2 * i))
      let d := d.oneByteWrite burn (addr + 1) (data.byte (2 * i + 1))
      let bad :=
        if d.content addr ≠ data.byte (2 * i) ∨ d.content (addr + 1) ≠ data.byte (2 * i + 1) then
          bad &&& ~~~(1 <<< UInt8.ofNat i)
        else bad
      writeWords wordEn data is (addr + 2) d bad
    else writeWords wordEn data is addr d bad

/-- `Hal_EfuseWordEnableDataWrite8812A` -/
def wordEnableDataWrite (d : Dev) (addr : Nat) (wordEn : UInt8) (data : PgData) : Dev × UInt8 :=
  writeWords burn wordEn data (List.range maxWordUnit) addr d 0x0F

/-- While the header cannot be read it is written again, until `repeat_times` is too high. -/
def retryHeader (addr : Nat) (header : UInt8) : Nat → Dev → Dev × Bool
  | 0, d => (d, false)
  | n + 1, d =>
    if d.content addr = 0xFF then
      let d := { d with repeatTimes := d.repeatTimes + 1 }
      if d.repeatTimes > repeatThreshold then (d, false)
      else retryHeader addr header n (d.oneByteWrite burn addr header)
    else (d, true)

end Dev

/-- The loop of `hal_EfusePgPacketWrite_8812A` -/
structure PgWrite where
  dev : Dev
  /-- `PG_STATE_DATA` -/
  stateData : Bool
  addr : Nat
  /-- `target_pkt.word_en` -/
  wordEn : UInt8
  /-- `target_word_cnts` -/
  wordCnts : Nat

/-- What a round ends in: another one, or the end of the loop. -/
abbrev Round := PgWrite ⊕ Dev

namespace PgWrite

/-- `repeat_times++`, and the loop ends if that is too high. -/
def countRepeat (s : PgWrite) : Round :=
  let dev := { s.dev with repeatTimes := s.dev.repeatTimes + 1 }
  if dev.repeatTimes > repeatThreshold then .inr dev else .inl { s with dev }

section
variable (burn : Burn) (again : Dev → UInt8 → UInt8 → PgData → Option Dev) (offset : UInt8) (data : PgData)
  (s : PgWrite)

/-- An extended header without words, the second byte of which is at `addr`: it gets words if there is room. -/
def recoverExt (addr : Nat) : PgWrite :=
  if s.dev.content (addr + 1) = 0xFF ∧ s.dev.content (addr + 2) = 0xFF then
    let n := (s.dev.content s.addr &&& 0xF0) >>> 4
    let dev :=
      if n = 0x0 ∨ n = 0x2 ∨ n = 0x4 ∨ n = 0x6 ∨ n = 0x8 ∨ n = 0xA ∨ n = 0xC then s.dev.tryWrite burn addr 0x27 3
      else if n = 0xE then s.dev.tryWrite burn addr 0x17 3
      else s.dev
    let dev := (dev.oneByteWrite burn (addr + 1) 0xFF).oneByteWrite burn (addr + 2) 0xFF
    { s with dev, addr := addr + 3 }
  else { s with addr := addr + 1 }

/-- A header without words, at `s.addr`. -/
def recover : PgWrite :=
  if s.dev.content (s.addr + 1) = 0xFF then
    let dev := s.dev.tryWrite burn s.addr ((s.dev.content s.addr &&& 0xF0) ||| 0x7) 3
    let dev := (dev.oneByteWrite burn (s.addr + 1) 0xFF).oneByteWrite burn (s.addr + 2) 0xFF
    { s with dev, addr := s.addr + 2 }
  else s

/-- There is a packet; `s.addr` is where its header ends. -/
def onPacket (tmpOffset tmpWordEn : UInt8) : Option Round :=
  let tmpWordCnts := calculateWordCnts tmpWordEn
  let next : Round := .inl { s with addr := s.addr + tmpWordCnts * 2 + 1 }
  if tmpOffset ≠ offset then some next
  else if (List.range (tmpWordCnts * 2)).any fun i => s.dev.content (s.addr + 1 + i) ≠ 0xFF then some next
  else
    let matchWordEn := wordMask fun i => wordEnabled s.wordEn i && wordEnabled tmpWordEn i
    if matchWordEn &&& 0x0F ≠ 0x0F then
      let (dev, badworden) := s.dev.wordEnableDataWrite burn (s.addr + 1) tmpWordEn data
      (if badworden &&& 0x0F ≠ 0x0F then again dev offset badworden data else some dev).map fun dev =>
        let tmpWordEn := wordMask fun i => wordEnabled s.wordEn i != wordEnabled matchWordEn i
        if tmpWordEn &&& 0x0F ≠ 0x0F then
          let (dev, size) := dev.currentSize
          countRepeat { s with dev, addr := size, wordEn := tmpWordEn }
        else .inr { dev with repeatTimes := dev.repeatTimes + 1 }
    else some next

/-- The header at `s.addr` is not the one that was written: the packet that it makes gets what its section has. -/
def fixHeader (tmpOffset tmpWordEn : UInt8) : Option Round :=
  let next := s.addr + calculateWordCnts tmpWordEn * 2 + 1
  let (originaldata, found) := pgPacketRead s.dev.content tmpOffset fun _ => 0xFF
  let fixed : Option (Dev × Nat) :=
    if found then
      let (dev, badworden) := s.dev.wordEnableDataWrite burn (s.addr + 1) tmpWordEn originaldata
      if badworden &&& 0x0F ≠ 0x0F then (again dev tmpOffset badworden originaldata).map Dev.currentSize
      else some (dev, next)
    else some (s.dev, next)
  fixed.map fun (dev, addr) => countRepeat { s with dev, addr, stateData := false }

/-- There is a free byte: the header is put there. -/
def onFree : Option Round :=
  if offset.toNat ≥ maxSectionBase then
    let pgHeader := ((offset &&& 0x07) <<< 5) ||| 0x0F
    let (dev, written) := (s.dev.oneByteWrite burn s.addr pgHeader).retryHeader burn s.addr pgHeader 5
    let tmpHeader := dev.content s.addr
    if !written then some (.inr dev)
    else if tmpHeader = pgHeader then
      let addr := s.addr + 1
      let pgHeader := ((offset &&& 0x78) <<< 1) ||| s.wordEn
      let (dev, written) := (dev.oneByteWrite burn addr pgHeader).retryHeader burn addr pgHeader 5
      let tmpHeader' := dev.content addr
      if !written then some (.inr dev)
      else if tmpHeader' &&& 0x0F = 0x0F then some (countRepeat { s with dev, addr := addr + 1 })
      else if tmpHeader' = pgHeader then some (.inl { s with dev, addr, stateData := true })
      else
        fixHeader burn again { s with dev, addr } (hdrOffset20 tmpHeader ||| ((tmpHeader' &&& 0xF0) >>> 1))
          (tmpHeader' &&& 0x0F)
    else if extHeader tmpHeader then some (.inl { s with dev, addr := s.addr + 2 })
    else fixHeader burn again { s with dev } ((tmpHeader >>> 4) &&& 0x0F) (tmpHeader &&& 0x0F)
  else
    let pgHeader := ((offset <<< 4) &&& 0xF0) ||| s.wordEn
    let dev := s.dev.oneByteWrite burn s.addr pgHeader
    let tmpHeader := dev.content s.addr
    if tmpHeader = pgHeader then some (.inl { s with dev, stateData := true })
    else if tmpHeader = 0xFF then some (countRepeat { s with dev })
    else fixHeader burn again { s with dev } ((tmpHeader >>> 4) &&& 0x0F) (tmpHeader &&& 0x0F)

/-- `PG_STATE_HEADER` -/
def onHeader : Option Round :=
  let header := s.dev.content s.addr
  if header ≠ 0xFF then
    if extHeader header then
      let ext := s.dev.content (s.addr + 1)
      if ext &&& 0x0F = 0x0F then some (.inl (s.recoverExt burn (s.addr + 1)))
      else
        onPacket burn again offset data { s with addr := s.addr + 1 } (hdrOffset20 header ||| ((ext &&& 0xF0) >>> 1))
          (ext &&& 0x0F)
    else
      let tmpWordEn := header &&& 0x0F
      onPacket burn again offset data (if tmpWordEn = 0x0F then s.recover burn else s) ((header >>> 4) &&& 0x0F)
        tmpWordEn
  else onFree burn again offset s

/-- `PG_STATE_DATA` -/
def onData : Round :=
  let (dev, badworden) := s.dev.wordEnableDataWrite burn (s.addr + 1) s.wordEn data
  if badworden &&& 0x0F = 0x0F then .inr dev
  else
    countRepeat ⟨dev, false, s.addr + 2 * s.wordCnts + 1, badworden, calculateWordCnts badworden⟩

/-- The loop, of so many rounds at most. -/
def pgWriteLoop : Nat → PgWrite → Option Dev
  | 0, _ => none
  | n + 1, s =>
    if s.addr < availableLen then
      match if s.stateData then some (onData burn data s) else onHeader burn again offset data s with
      | none => none
      | some (.inl s) => pgWriteLoop n s
      | some (.inr dev) => some dev
    else some s.dev

end

end PgWrite

/-- The rounds that the loop is given: more than two for each address. -/
def maxRounds : Nat := 1024

/-- `hal_EfusePgPacketWrite_8812A`, which calls itself to a depth of `depth` at most -/
def pgPacketWrite (burn : Burn) : Nat → Dev → UInt8 → UInt8 → PgData → Option (Dev × Bool)
  | 0, _, _, _, _ => none
  | depth + 1, d, offset, wordEn, data =>
    let (d, size) := d.currentSize
    if size ≥ availableLen then some (d, false)
    else
      (PgWrite.pgWriteLoop burn (fun d offset wordEn data => (pgPacketWrite burn depth d offset wordEn data).map Prod.fst)
        offset (wordEnableDataRead wordEn data fun _ => 0xFF) maxRounds
        ⟨d, false, 0, wordEn, calculateWordCnts wordEn⟩).map fun d => (d, true)

/-! ### `rtw_efuse_map_write` -/

/-- The words of a section that are to be written. -/
structure PgRequest where
  offset : Nat
  wordEn : UInt8
  data : PgData

/-- `word_en` and `newdata` for a section, when `data` goes to the map from `addr` on -/
def sectionRequest (map : Nat → UInt8) (addr : Nat) (data : List UInt8) (offset : Nat) : PgRequest :=
  let new (i : Nat) : UInt8 :=
    let k := offset * 8 + i
    if addr ≤ k then data[k - addr]?.getD (map k) else map k
  { offset
    wordEn := wordMask fun j =>
      new (2 * j) != map (offset * 8 + 2 * j) || new (2 * j + 1) != map (offset * 8 + (2 * j + 1))
    data := fun i => new i.val }

/-- The sections that the data goes to. -/
def sections (addr cnts : Nat) : List Nat :=
  if cnts = 0 then [] else List.range' (addr / 8) ((addr + cnts - 1) / 8 + 1 - addr / 8)

/-- The loop of `rtw_efuse_map_write` -/
def writeRequests (burn : Burn) (depth : Nat) : List PgRequest → Dev → Option (Dev × Bool)
  | [], d => some (d, true)
  | r :: rs, d =>
    if r.wordEn ≠ 0x0F then
      match pgPacketWrite burn depth d (UInt8.ofNat r.offset) r.wordEn r.data with
      | none => none
      | some (d, false) => some (d, false)
      | some (d, true) => writeRequests burn depth rs d
    else writeRequests burn depth rs d

/-- `rtw_efuse_map_read`, of the whole map -/
def mapRead (d : Dev) (buf : Nat → UInt8) : Dev × (Nat → UInt8) :=
  let r := readEFuse d.content d.used 0 realContentLen buf
  ({ d with used := r.2 }, r.1)

/-- `rtw_efuse_map_write`, with no byte masked -/
def mapWrite (burn : Burn) (depth : Nat) (d : Dev) (addr : Nat) (data : List UInt8) : Option (Dev × Bool) :=
  if addr + data.length > realContentLen then some (d, false)
  else
    let (d, map) := mapRead d fun _ => 0xFF
    writeRequests burn depth ((sections addr data.length).map (sectionRequest map addr data)) d

end Rtw.Efuse
