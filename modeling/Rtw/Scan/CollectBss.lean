import Rtw.Lib.Access
import Rtw.Scan.BssInfo

/-!
# Filling a `WLAN_BSSID_EX`

`collect_bss_info` again, from the bytes of the frame, with all that it fills and every copy that it makes. The
lengths of the elements are checked before each copy into the structure. The attribute of a P2P element is not:
`rtw_get_p2p_attr_content` copies what the frame says into the five bytes of `listen_ch`, and its walk does not
end at an attribute of 65533 bytes. `collectOk_iff` says which frames are collected well.
-/

namespace Rtw.Scan
open Access Traced

/-- What `collect_bss_info` copies to: the arrays of the structure, and its own `listen_ch`. -/
inductive BssObj where
  | macAddress | ssid | supportedRates | beaconPeriod | ies | listenCh
  deriving DecidableEq

def BssObj.size : BssObj → Nat
  | .macAddress => 6
  | .ssid => ndis80211LengthSsid
  | .supportedRates => ndis80211LengthRatesEx
  | .beaconPeriod => 4
  | .ies => maxIeSz
  | .listenCh => 5

/-- `dst` with `src` copied to `off`. -/
def copyOver (dst : List UInt8) (off : Nat) (src : List UInt8) : List UInt8 :=
  dst.take off ++ src ++ dst.drop (off + src.length)

/-- `memcpy` into an object with the contents `dst`. -/
def memcpyT (obj : BssObj) (dst : List UInt8) (off : Nat) (src : List UInt8) : Traced BssObj (List UInt8) := do
  touch obj off src.length
  return copyOver dst off src

/-- `len` bytes of the memory, which is 0 behind `mem`. -/
def memBytes (mem : List UInt8) (off len : Nat) : List UInt8 := (List.range len).map fun i => mem[off + i]?.getD 0

/-- A received management frame. -/
structure MgntFrame where
  pframe : List UInt8
  recvSignalPower : Int
  signalQuality : Nat
  signalStrength : Nat

/-- What is read of the adapter. -/
structure SurveyAdapter where
  curChannel : Nat
  operCh : Nat
  wifiSpec : Nat
  bwmodeUpdated : Bool

/-- What the 20/40 coexistence check counts, in `mlme_priv`. -/
inductive CoexCount where
  | numFortyMHzIntolerant | numStaNoHt
  deriving DecidableEq

/-- `WLAN_BSSID_EX`, with its buffers. -/
structure BssidEx where
  macAddress : List UInt8
  reserved0 : Nat
  ssid : List UInt8
  ssidLength : Nat
  privacy : Nat
  rssi : Int
  beaconPeriod : Nat
  dsConfig : Nat
  infrastructureMode : InfrastructureMode
  supportedRates : List UInt8
  signalStrength : Nat
  signalQuality : Nat
  ieLength : Nat
  ies : List UInt8

/-- `_FAIL`; `_SUCCESS` with the structure and what is counted; or the loop that does not end. -/
inductive CollectRes where
  | failed
  | filled (bssid : BssidEx) (count : Option CoexCount)
  | endless

inductive AttrRes where
  | notFound
  | found (pos attrLen : Nat)
  | endless
  deriving DecidableEq

/-- The loop of `rtw_get_p2p_attr`. `attr_len` is an `u16` and may be 0. -/
def rtwGetP2pAttrLoop (p2pIe : List UInt8) (p2pIelen targetAttrId : Nat) : Nat → Nat → AttrRes
  | 0, _ => .notFound
  | fuel + 1, pos =>
    if pos < p2pIelen then
      let attrLen := (byteAt p2pIe (pos + 1) + 256 * byteAt p2pIe (pos + 2) + 3) % 2 ^ 16
      if byteAt p2pIe pos = targetAttrId then .found pos attrLen
      else if attrLen = 0 then .endless
      else rtwGetP2pAttrLoop p2pIe p2pIelen targetAttrId fuel (pos + attrLen)
    else .notFound

/-- `rtw_get_p2p_attr` on an element that `rtw_get_p2p_ie` has found. -/
def rtwGetP2pAttr (p2pIe : List UInt8) (p2pIelen targetAttrId : Nat) : AttrRes :=
  rtwGetP2pAttrLoop p2pIe p2pIelen targetAttrId p2pIelen 6

def p2pAttrListenCh : Nat := 6

/-- What `rtw_get_p2p_attr_content` copies of an attribute of `attr_len` bytes; the subtraction is one of `u32`. -/
def attrContentlen (attrLen : Nat) : Nat :=
  if attrLen = 0 then 0 else if attrLen < 3 then attrLen + 2 ^ 32 - 3 else attrLen - 3

theorem attrContentlen_fits_iff {attrLen : Nat} :
    attrContentlen attrLen = 0 ∨ 0 + attrContentlen attrLen ≤ BssObj.listenCh.size ↔
      attrLen = 0 ∨ 3 ≤ attrLen ∧ attrLen ≤ 8 := by
  have hsize : BssObj.listenCh.size = 5 := rfl
  rw [hsize]
  unfold attrContentlen
  by_cases h0 : attrLen = 0
  · simp [h0]
  · rw [if_neg h0]
    split <;> omega

namespace MgntFrame

/-- `GetFrameSubType` -/
def subtype (f : MgntFrame) : MgntSubtype :=
  match byteAt f.pframe 0 / 4 with
  | 32 => .beacon
  | 20 => .probeRsp
  | 16 => .probeReq
  | _ => .other

/-- `packet_len - sizeof(struct rtw_ieee80211_hdr_3addr)`, which wraps in a shorter frame. -/
def len (f : MgntFrame) : Nat :=
  if f.pframe.length < 24 then f.pframe.length + 2 ^ 32 - 24 else f.pframe.length - 24

/-- The memory from `IEs` on once the body has been copied, with `behind` behind the structure. -/
def mem (f : MgntFrame) (behind : List UInt8) : List UInt8 :=
  copyOver (List.replicate maxIeSz 0) 0 (memBytes f.pframe 24 f.len) ++ behind

/-- The elements, behind the fixed fields. -/
def elems (f : MgntFrame) (behind : List UInt8) : List UInt8 := (f.mem behind).drop f.subtype.ieOffset

/-- `rtw_get_ie` on the elements. -/
def ie (f : MgntFrame) (behind : List UInt8) (index : Nat) : Option (Nat × Nat) :=
  rtwGetIe (f.elems behind) index (f.len - f.subtype.ieOffset)

/-- The contents of the element that `rtw_get_ie` finds. -/
def ieBytes (f : MgntFrame) (behind : List UInt8) (index : Nat) : List UInt8 :=
  match f.ie behind index with
  | some (p, len) => memBytes (f.elems behind) (p + 2) len
  | none => []

/-- The rates of the two rate elements. -/
def rates (f : MgntFrame) (behind : List UInt8) : List UInt8 := f.ieBytes behind 1 ++ f.ieBytes behind 50

/-- The SSID: `Ssid.Ssid` and `Ssid.SsidLength`. -/
def ssidT (f : MgntFrame) (behind : List UInt8) : Traced BssObj (Option (List UInt8 × Nat)) :=
  match f.ie behind 0 with
  | none => pure none
  | some (p, len) =>
    if len > ndis80211LengthSsid then pure none
    else do
      let ssid ← memcpyT .ssid (List.replicate ndis80211LengthSsid 0) 0 (memBytes (f.elems behind) (p + 2) len)
      return some (ssid, len)

/-- `SupportedRates` -/
def ratesT (f : MgntFrame) (behind : List UInt8) : Traced BssObj (Option (List UInt8)) := do
  let rates := f.ieBytes behind 1
  if rates.length > ndis80211LengthRatesEx then return none
  else
    let supportedRates ← memcpyT .supportedRates (List.replicate ndis80211LengthRatesEx 0) 0 rates
    let i := rates.length
    let rates := f.ieBytes behind 50
    if rates.length > ndis80211LengthRatesEx - i then return none
    else
      let supportedRates ← memcpyT .supportedRates supportedRates i rates
      return some supportedRates

/-- `DSConfig` of a probe request: byte 4 of the listen channel attribute; `none` when the search does not end. -/
def listenChT (a : SurveyAdapter) (f : MgntFrame) (behind : List UInt8) : Traced BssObj (Option Nat) :=
  match rtwGetP2pIeLoop (f.mem behind) f.len f.len 0 with
  | none => pure (some a.curChannel)
  | some (cnt, p2pIelen) =>
    let p2pIe := (f.mem behind).drop cnt
    match rtwGetP2pAttr p2pIe p2pIelen p2pAttrListenCh with
    | .notFound => pure (some 0)
    | .endless => pure none
    | .found pos attrLen => do
      let listenCh ← memcpyT .listenCh (List.replicate 5 0) 0 (memBytes p2pIe (pos + 3) (attrContentlen attrLen))
      return some (byteAt listenCh 4)

/-- `DSConfig` of the other frames. -/
def dsConfig (a : SurveyAdapter) (f : MgntFrame) (behind : List UInt8) : Nat :=
  match f.ie behind 3, f.ie behind 61 with
  | some (p, _), _ => byteAt (f.elems behind) (p + 2)
  | none, some (p, _) => byteAt (f.elems behind) (p + 2)
  | none, none => a.operCh

/-- The 20/40 coexistence check. -/
def coex (a : SurveyAdapter) (f : MgntFrame) (behind : List UInt8) : Option CoexCount :=
  if a.wifiSpec = 1 ∧ !a.bwmodeUpdated then
    match f.ie behind 45 with
    | some (p, _ + 1) =>
      -- BIT(14) of the capability
      if (byteAt (f.elems behind) (p + 3)).testBit 6 then some .numFortyMHzIntolerant else none
    | _ => some .numStaNoHt
  else none

/-- `collect_bss_info` behind the rates. -/
def finishT (a : SurveyAdapter) (f : MgntFrame) (behind : List UInt8) (bssid : BssidEx) :
    Traced BssObj CollectRes := do
  if f.subtype = .probeReq then
    let listenCh ← f.listenChT a behind
    match listenCh with
    | none => return .endless
    | some dsConfig =>
      let macAddress ← memcpyT .macAddress bssid.macAddress 0 (memBytes f.pframe 10 6)
      return .filled { bssid with
        macAddress := macAddress
        privacy := 1
        dsConfig := dsConfig
        infrastructureMode := .infrastructure } none
  else if f.len < 12 then return .failed
  else
    touch .beaconPeriod 0 2
    let val16 := byteAt (f.mem behind) 10 + 256 * byteAt (f.mem behind) 11
    let infra := val16.testBit 0
    -- the BSSID of an ad-hoc network is in the third address
    let macAddress ← memcpyT .macAddress bssid.macAddress 0 (memBytes f.pframe (if infra then 10 else 16) 6)
    return .filled { bssid with
      macAddress := macAddress
      privacy := if val16.testBit 4 then 1 else 0
      beaconPeriod := byteAt (f.mem behind) 8 + 256 * byteAt (f.mem behind) 9
      dsConfig := f.dsConfig a behind
      infrastructureMode := if infra then .infrastructure else .ibss
      signalQuality := if f.dsConfig a behind ≠ a.operCh then 101 else bssid.signalQuality } (f.coex a behind)

/-- The zeroed structure with what is filled in up to the rates. -/
def bssid (f : MgntFrame) (ies ssid : List UInt8) (ssidLength : Nat) (supportedRates : List UInt8) : BssidEx where
  macAddress := List.replicate 6 0
  reserved0 := f.subtype.reserved0
  ssid := ssid
  ssidLength := ssidLength
  privacy := 0
  rssi := f.recvSignalPower
  beaconPeriod := 0
  dsConfig := 0
  infrastructureMode := .ibss
  supportedRates := supportedRates
  signalStrength := f.signalStrength
  signalQuality := f.signalQuality
  ieLength := f.len
  ies := ies

/-- `collect_bss_info`, with what it copies. `behind` is the memory behind the structure. -/
def collectBssInfoT (a : SurveyAdapter) (f : MgntFrame) (behind : List UInt8) : Traced BssObj CollectRes := do
  if f.len > maxIeSz then return .failed
  else
    let ies ← memcpyT .ies (List.replicate maxIeSz 0) 0 (memBytes f.pframe 24 f.len)
    match ← f.ssidT behind with
    | none => return .failed
    | some (ssid, ssidLength) =>
      match ← f.ratesT behind with
      | none => return .failed
      | some supportedRates =>
        f.finishT a behind (f.bssid ies ssid ssidLength supportedRates)

/-- What a filled structure holds: the body of the frame, an SSID of at most 32 bytes, and the rates of both rate
elements. -/
structure Filled (f : MgntFrame) (behind : List UInt8) (b : BssidEx) : Prop where
  ieLength : b.ieLength = (f.pframe.drop 24).length
  ieLength_le : b.ieLength ≤ maxIeSz
  ies : b.ies.take b.ieLength = f.pframe.drop 24
  ssidLength_le : b.ssidLength ≤ ndis80211LengthSsid
  supportedRates : b.supportedRates =
    f.rates behind ++ List.replicate (ndis80211LengthRatesEx - (f.rates behind).length) 0

/-- The frame is collected, or refused, and nothing is written outside the objects on the way. -/
def CollectOk (a : SurveyAdapter) (f : MgntFrame) (behind : List UInt8) : Prop :=
  Within BssObj.size (f.collectBssInfoT a behind) ∧
    match (f.collectBssInfoT a behind).val with
    | .failed => True
    | .filled bssid _ => f.Filled behind bssid
    | .endless => False

/-- The checks up to the rates: a short body, an SSID and rates that fit. -/
def Parsable (f : MgntFrame) (behind : List UInt8) : Prop :=
  f.len ≤ maxIeSz ∧ (∃ p len, f.ie behind 0 = some (p, len) ∧ len ≤ ndis80211LengthSsid) ∧
    (f.rates behind).length ≤ ndis80211LengthRatesEx

/-- The first P2P element has no listen channel attribute, or one of at most five bytes (or of 65533, which counts
as empty), and the search for it ends. -/
def ListenChOk (f : MgntFrame) (behind : List UInt8) : Prop :=
  match rtwGetP2pIeLoop (f.mem behind) f.len f.len 0 with
  | none => True
  | some (cnt, p2pIelen) =>
    match rtwGetP2pAttr ((f.mem behind).drop cnt) p2pIelen p2pAttrListenCh with
    | .notFound => True
    | .found _ attrLen => attrLen = 0 ∨ 3 ≤ attrLen ∧ attrLen ≤ 8
    | .endless => False

end MgntFrame

section
variable {a : SurveyAdapter} {f : MgntFrame} {behind : List UInt8}

@[simp] theorem length_memBytes (mem : List UInt8) (off len : Nat) : (memBytes mem off len).length = len := by
  simp [memBytes]

theorem memBytes_eq_drop {mem : List UInt8} {off len : Nat} (h : mem.length = off + len) :
    memBytes mem off len = mem.drop off := by
  refine List.ext_getElem (by simp [h]) fun i hi hi' => ?_
  rw [length_memBytes] at hi
  simp [memBytes, List.getElem?_eq_getElem (show off + i < mem.length by omega)]

theorem copyOver_append (front src : List UInt8) (n : Nat) :
    copyOver (front ++ List.replicate n 0) front.length src = front ++ src ++ List.replicate (n - src.length) 0 := by
  unfold copyOver
  rw [List.take_left, ← List.drop_drop, List.drop_left, List.drop_replicate]

theorem copyOver_zeros (src : List UInt8) (n : Nat) :
    copyOver (List.replicate n 0) 0 src = src ++ List.replicate (n - src.length) 0 :=
  copyOver_append [] src n

@[simp] theorem val_memcpyT (obj : BssObj) (dst : List UInt8) (off : Nat) (src : List UInt8) :
    (memcpyT obj dst off src).val = copyOver dst off src := rfl

theorem within_memcpyT {obj : BssObj} {dst : List UInt8} {off : Nat} {src : List UInt8} :
    Within BssObj.size (memcpyT obj dst off src) ↔ src.length = 0 ∨ off + src.length ≤ obj.size := by
  unfold memcpyT
  rw [within_bind]
  simp only [within_pure, and_true]
  exact within_touch_nat

namespace MgntFrame

/-- In a frame that is not too long the length has not wrapped. -/
theorem length_pframe (h : f.len ≤ maxIeSz) : f.pframe.length = 24 + f.len := by
  unfold len maxIeSz at *
  split at h <;> split <;> omega

theorem body_eq (h : f.len ≤ maxIeSz) : memBytes f.pframe 24 f.len = f.pframe.drop 24 :=
  memBytes_eq_drop (length_pframe h)

/-! ### Each part within its array -/

theorem ssidT_spec (f : MgntFrame) (behind : List UInt8) : Within BssObj.size (f.ssidT behind) ∧
    match (f.ssidT behind).val with
    | some (_, len) => len ≤ ndis80211LengthSsid ∧ ∃ p, f.ie behind 0 = some (p, len)
    | none => ¬ ∃ p len, f.ie behind 0 = some (p, len) ∧ len ≤ ndis80211LengthSsid := by
  unfold ssidT
  cases h : f.ie behind 0 with
  | none => exact ⟨within_pure, fun ⟨p, len, hie, _⟩ => by cases hie⟩
  | some e =>
    obtain ⟨p, len⟩ := e
    by_cases hlen : len > ndis80211LengthSsid
    · simp only [hlen, if_true]
      refine ⟨within_pure, ?_⟩
      rintro ⟨p', len', hie, hle⟩
      obtain ⟨rfl, rfl⟩ := Prod.mk.inj (Option.some.inj hie)
      exact absurd hle (Nat.not_le.2 hlen)
    · simp only [hlen, if_false]
      refine ⟨within_bind.2 ⟨within_memcpyT.2 (.inr ?_), within_pure⟩, Nat.not_lt.1 hlen, p, rfl⟩
      rw [length_memBytes, Nat.zero_add]
      exact Nat.not_lt.1 hlen

/-- Both copies fit, and leave the rates of the two elements one behind the other. -/
theorem ratesT_spec (f : MgntFrame) (behind : List UInt8) : Within BssObj.size (f.ratesT behind) ∧
    match (f.ratesT behind).val with
    | some supportedRates => (f.rates behind).length ≤ ndis80211LengthRatesEx ∧ supportedRates =
      f.rates behind ++ List.replicate (ndis80211LengthRatesEx - (f.rates behind).length) 0
    | none => ndis80211LengthRatesEx < (f.rates behind).length := by
  unfold ratesT rates
  rw [List.length_append]
  by_cases h1 : (f.ieBytes behind 1).length > ndis80211LengthRatesEx
  · simp only [h1, if_true]
    exact ⟨within_pure, by show _ < _; omega⟩
  simp only [h1, if_false, within_bind, val_bind, val_memcpyT, copyOver_zeros]
  have hw1 : Within BssObj.size (memcpyT .supportedRates (List.replicate ndis80211LengthRatesEx 0) 0
      (f.ieBytes behind 1)) := by
    refine within_memcpyT.2 (.inr ?_)
    rw [Nat.zero_add]
    exact Nat.not_lt.1 h1
  by_cases h2 : (f.ieBytes behind 50).length > ndis80211LengthRatesEx - (f.ieBytes behind 1).length
  · simp only [h2, if_true]
    exact ⟨⟨hw1, within_pure⟩, by show _ < _; omega⟩
  simp only [h2, if_false, within_bind, val_bind, val_memcpyT, copyOver_append, val_pure]
  have hle : (f.ieBytes behind 1).length + (f.ieBytes behind 50).length ≤ ndis80211LengthRatesEx := by omega
  refine ⟨⟨hw1, within_memcpyT.2 (.inr hle), within_pure⟩, hle, ?_⟩
  rw [Nat.sub_sub]

/-- The copy of the listen channel is the one that the frame decides on. -/
theorem listenChT_ok_iff (a : SurveyAdapter) (f : MgntFrame) (behind : List UInt8) :
    Within BssObj.size (f.listenChT a behind) ∧ (f.listenChT a behind).val ≠ none ↔ f.ListenChOk behind := by
  unfold listenChT ListenChOk
  cases rtwGetP2pIeLoop (f.mem behind) f.len f.len 0 with
  | none => exact iff_of_true ⟨within_pure, nofun⟩ trivial
  | some e =>
    obtain ⟨cnt, p2pIelen⟩ := e
    dsimp only
    cases rtwGetP2pAttr ((f.mem behind).drop cnt) p2pIelen p2pAttrListenCh with
    | notFound => exact iff_of_true ⟨within_pure, nofun⟩ trivial
    | endless => exact iff_of_false (fun h => h.2 rfl) id
    | found pos attrLen =>
      dsimp only
      rw [within_bind, within_memcpyT, length_memBytes]
      simp only [within_pure, and_true, val_bind, val_pure, ne_eq, reduceCtorEq, not_false_eq_true]
      exact attrContentlen_fits_iff

/-- Behind the rates only the listen channel can go wrong, and what has been filled stays. -/
theorem finishT_ok_iff (a : SurveyAdapter) {bssid : BssidEx} (hb : f.Filled behind bssid) :
    (Within BssObj.size (f.finishT a behind bssid) ∧
      match (f.finishT a behind bssid).val with
      | .failed => True
      | .filled b _ => f.Filled behind b
      | .endless => False) ↔ (f.subtype = .probeReq → f.ListenChOk behind) := by
  have hmac : ∀ off, Within BssObj.size (memcpyT .macAddress bssid.macAddress 0 (memBytes f.pframe off 6)) :=
    fun off => within_memcpyT.2 (.inr (by rw [length_memBytes]; exact Nat.le_refl 6))
  unfold finishT
  by_cases hreq : f.subtype = .probeReq
  · simp only [hreq, if_true, within_bind, val_bind, forall_const]
    rw [← listenChT_ok_iff a f behind]
    cases (f.listenChT a behind).val with
    | none => exact iff_of_false (fun h => h.2) (fun h => h.2 rfl)
    | some dsConfig =>
      constructor
      · exact fun h => ⟨h.1.1, Option.some_ne_none _⟩
      · exact fun h => ⟨⟨h.1, within_bind.2 ⟨hmac 10, within_pure⟩⟩, ⟨hb.1, hb.2, hb.3, hb.4, hb.5⟩⟩
  · simp only [if_neg hreq]
    refine iff_of_true ?_ fun h => absurd h hreq
    by_cases hlen : f.len < 12
    · simp only [if_pos hlen]
      exact ⟨within_pure, trivial⟩
    · simp only [if_neg hlen]
      refine ⟨within_bind.2 ⟨?_, within_bind.2 ⟨hmac _, within_pure⟩⟩, ⟨hb.1, hb.2, hb.3, hb.4, hb.5⟩⟩
      exact within_touch.2 (.inr (by decide))

/-- A beacon, a probe response or a probe request is collected, or refused, with every copy in its array, unless it is
a probe request that passes the checks up to the rates and has a P2P element whose listen channel attribute does not
fit, or is not found. -/
theorem collectOk_iff (a : SurveyAdapter) (f : MgntFrame) (behind : List UInt8) :
    f.CollectOk a behind ↔ (f.subtype = .probeReq → f.Parsable behind → f.ListenChOk behind) := by
  unfold CollectOk collectBssInfoT
  by_cases hlen : f.len > maxIeSz
  · simp only [if_pos hlen]
    exact iff_of_true ⟨within_pure, trivial⟩ fun _ hp => absurd hp.1 (Nat.not_le.2 hlen)
  have hle := Nat.not_lt.1 hlen
  have hies : Within BssObj.size (memcpyT .ies (List.replicate maxIeSz 0) 0 (memBytes f.pframe 24 f.len)) := by
    refine within_memcpyT.2 (.inr ?_)
    rw [length_memBytes, Nat.zero_add]
    exact hle
  simp only [if_neg hlen, within_bind, val_bind]
  obtain ⟨hssid, hssidv⟩ := f.ssidT_spec behind
  cases hs : (f.ssidT behind).val with
  | none =>
    rw [hs] at hssidv
    exact iff_of_true ⟨⟨hies, hssid, within_pure⟩, trivial⟩ fun _ hp => absurd hp.2.1 hssidv
  | some e =>
    obtain ⟨ssid, ssidLength⟩ := e
    rw [hs] at hssidv
    obtain ⟨hssidLe, p, hie⟩ := hssidv
    obtain ⟨hrates, hratesv⟩ := f.ratesT_spec behind
    simp only [within_bind, val_bind]
    cases hr : (f.ratesT behind).val with
    | none =>
      rw [hr] at hratesv
      refine iff_of_true ⟨⟨hies, hssid, hrates, within_pure⟩, trivial⟩ fun _ hp => ?_
      exact absurd hp.2.2 (Nat.not_le.2 hratesv)
    | some supportedRates =>
      rw [hr] at hratesv
      obtain ⟨hratesLe, rfl⟩ := hratesv
      have hparsable : f.Parsable behind := ⟨hle, ⟨p, ssidLength, hie, hssidLe⟩, hratesLe⟩
      have hbody := body_eq hle
      have hbodyLen : f.len = (f.pframe.drop 24).length := by rw [← hbody, length_memBytes]
      have hfilled : f.Filled behind (f.bssid (copyOver (List.replicate maxIeSz 0) 0 (memBytes f.pframe 24 f.len)) ssid
          ssidLength (f.rates behind ++ List.replicate (ndis80211LengthRatesEx - (f.rates behind).length) 0)) := by
        refine ⟨hbodyLen, hle, ?_, hssidLe, rfl⟩
        show List.take f.len (copyOver _ _ _) = _
        rw [copyOver_zeros, List.take_left' (length_memBytes ..), hbody]
      have hfinish := finishT_ok_iff a hfilled
      constructor
      · exact fun h hreq _ => hfinish.1 ⟨h.1.2.2.2, h.2⟩ hreq
      · intro h
        have := hfinish.2 fun hreq => h hreq hparsable
        exact ⟨⟨hies, hssid, hrates, this.1⟩, this.2⟩

/-- A probe request with a listen channel of six bytes. -/
def probeReqListen : MgntFrame where
  pframe := 0x40 :: List.replicate 23 0 ++ [0, 0, 221, 13, 0x50, 0x6F, 0x9A, 0x09, 6, 6, 0, 0x58, 0x58, 4, 81, 11, 0]
  recvSignalPower := 0
  signalQuality := 0
  signalStrength := 0

theorem not_collectOk_listen : ¬ probeReqListen.CollectOk ⟨1, 1, 0, true⟩ [] :=
  fun h => absurd h.1 (by decide +kernel)

/-! ### What the scan table takes of it -/

/-- The address at `off`. -/
def addrAt (mem : List UInt8) (off : Nat) : MacAddr := Vector.ofFn fun i => mem[off + i.val]?.getD 0

/-- The frame as the scan table sees it. -/
def survey (f : MgntFrame) : SurveyFrame where
  subtype := f.subtype
  addr2 := addrAt f.pframe 10
  addr3 := addrAt f.pframe 16
  body := f.pframe.drop 24
  recvSignalPower := f.recvSignalPower
  signalQuality := f.signalQuality
  signalStrength := f.signalStrength

end MgntFrame

/-- The fields of the structure that the scan table reads. -/
def BssidEx.toWlanBssidEx (b : BssidEx) : WlanBssidEx where
  macAddress := MgntFrame.addrAt b.macAddress 0
  reserved0 := b.reserved0
  ssid := b.ssid.take b.ssidLength
  rssi := b.rssi
  infrastructureMode := b.infrastructureMode
  signalStrength := b.signalStrength
  signalQuality := b.signalQuality
  ieLength := b.ieLength
  ies i := b.ies[i]?.getD 0

theorem rtwGetIeLoop_congr {x y : List UInt8} (h : ∀ i, byteAt x i = byteAt y i) (index limit fuel i : Nat) :
    rtwGetIeLoop x index limit fuel i = rtwGetIeLoop y index limit fuel i := by
  induction fuel generalizing i with
  | zero => rfl
  | succ fuel ih => simp only [rtwGetIeLoop, h, ih]

theorem rtwGetIe_congr {x y : List UInt8} (h : ∀ i, byteAt x i = byteAt y i) (index limit : Nat) :
    rtwGetIe x index limit = rtwGetIe y index limit := by
  simp only [rtwGetIe, rtwGetIeLoop_congr h]

namespace MgntFrame

theorem mem_nil (h : f.len ≤ maxIeSz) :
    f.mem [] = f.pframe.drop 24 ++ List.replicate (maxIeSz - (f.pframe.drop 24).length) 0 := by
  unfold mem
  rw [body_eq h, copyOver_zeros, List.append_nil]

/-- Behind the body the zeroed buffer reads as what is behind the frame. -/
theorem getD_mem_nil (h : f.len ≤ maxIeSz) (i : Nat) : (f.mem [])[i]?.getD 0 = (f.pframe.drop 24)[i]?.getD 0 := by
  rw [mem_nil h]
  by_cases hi : i < (f.pframe.drop 24).length
  · rw [List.getElem?_append_left hi]
  · rw [List.getElem?_append_right (Nat.not_lt.1 hi), List.getElem?_eq_none (l := f.pframe.drop 24) (Nat.not_lt.1 hi),
      List.getElem?_replicate]
    split <;> rfl

theorem getD_elems_nil (h : f.len ≤ maxIeSz) (i : Nat) : (f.elems [])[i]?.getD 0 = f.survey.ies[i]?.getD 0 := by
  unfold elems SurveyFrame.ies
  rw [List.getElem?_drop, List.getElem?_drop]
  exact getD_mem_nil h _

theorem length_body_survey (h : f.len ≤ maxIeSz) : f.survey.body.length = f.len := by
  rw [← length_memBytes f.pframe 24 f.len, body_eq h]
  rfl

theorem ie_nil (h : f.len ≤ maxIeSz) (index : Nat) : f.ie [] index = f.survey.ie index := by
  unfold ie SurveyFrame.ie
  rw [length_body_survey h]
  exact rtwGetIe_congr (fun i => congrArg UInt8.toNat (getD_elems_nil h i)) _ _

theorem ratesOk_survey (h : f.len ≤ maxIeSz) :
    f.survey.ratesOk = true ↔ (f.rates []).length ≤ ndis80211LengthRatesEx := by
  unfold SurveyFrame.ratesOk rates ieBytes
  rw [← ie_nil h, ← ie_nil h]
  cases f.ie [] 1 with
  | none => cases f.ie [] 50 <;> simp
  | some e1 =>
    cases f.ie [] 50 with
    | none => simp
    | some e =>
      simp
      omega

theorem dsConfig_survey (a : SurveyAdapter) (h : f.len ≤ maxIeSz) : f.survey.dsConfig a.operCh = f.dsConfig a [] := by
  have hbyte : ∀ i, byteAt f.survey.ies i = byteAt (f.elems []) i := fun i =>
    congrArg UInt8.toNat (getD_elems_nil h i).symm
  unfold SurveyFrame.dsConfig dsConfig
  rw [← ie_nil h, ← ie_nil h]
  cases f.ie [] 3 with
  | some e => exact hbyte _
  | none =>
    cases f.ie [] 61 with
    | some e => exact hbyte _
    | none => rfl

theorem addrAt_copyOver (mem : List UInt8) (off : Nat) :
    addrAt (copyOver (List.replicate 6 0) 0 (memBytes mem off 6)) 0 = addrAt mem off := by
  rw [copyOver_zeros, length_memBytes]
  refine Vector.ext fun i hi => ?_
  simp [addrAt, memBytes]

/-- A frame that is too long, or of less than 24 bytes, is refused. -/
theorem collectBssInfo_survey_long (operCh : Nat) (h : f.len > maxIeSz) : collectBssInfo operCh f.survey = none := by
  unfold collectBssInfo
  by_cases hbody : f.survey.body.length > maxIeSz
  · rw [if_pos hbody]
  · have hnil : f.survey.body = [] := by
      refine List.drop_eq_nil_of_le ?_
      have hb : (f.pframe.drop 24).length ≤ maxIeSz := Nat.not_lt.1 hbody
      rw [List.length_drop] at hb
      unfold len at h
      split at h <;> omega
    have hie : f.survey.ie 0 = none := by
      unfold SurveyFrame.ie
      rw [hnil, List.length_nil, Nat.zero_sub]
      rfl
    rw [if_neg hbody, hie]

theorem ssid_survey (h : f.len ≤ maxIeSz) (p len n : Nat) :
    (copyOver (List.replicate n 0) 0 (memBytes (f.elems []) (p + 2) len)).take len =
      (List.range len).map fun k => (f.survey.ies[p + 2 + k]?).getD 0 := by
  rw [copyOver_zeros, List.take_left' (length_memBytes ..)]
  exact List.map_congr_left fun k _ => getD_elems_nil h _

theorem ies_survey (h : f.len ≤ maxIeSz) :
    (fun i : Nat => (copyOver (List.replicate maxIeSz 0) 0 (memBytes f.pframe 24 f.len))[i]?.getD 0) =
      fun i : Nat => f.survey.body[i]?.getD 0 := by
  funext i
  have hi := getD_mem_nil h i
  unfold mem at hi
  rwa [List.append_nil] at hi

theorem capability_survey (h : f.len ≤ maxIeSz) (b : WlanBssidEx)
    (hb : b.ies = fun i : Nat => f.survey.body[i]?.getD 0) :
    b.rtwGetCapability = byteAt (f.mem []) 10 + 256 * byteAt (f.mem []) 11 := by
  unfold WlanBssidEx.rtwGetCapability byteAt
  rw [hb, getD_mem_nil h, getD_mem_nil h]
  rfl

theorem collectBssInfo_survey (a : SurveyAdapter) (f : MgntFrame) :
    match (f.collectBssInfoT a []).val with
    | .failed => collectBssInfo a.operCh f.survey = none
    | .filled b _ => collectBssInfo a.operCh f.survey = some b.toWlanBssidEx
    | .endless => True := by
  unfold collectBssInfoT
  by_cases hlen : f.len > maxIeSz
  · simp only [if_pos hlen]
    exact collectBssInfo_survey_long _ hlen
  have hle := Nat.not_lt.1 hlen
  have hbody : ¬ f.survey.body.length > maxIeSz := by rwa [length_body_survey hle]
  obtain ⟨-, hrates⟩ := f.ratesT_spec []
  unfold collectBssInfo
  simp only [if_neg hlen, val_bind, if_neg hbody, ssidT, ← ie_nil hle]
  cases hie : f.ie [] 0 with
  | none => rfl
  | some e =>
    obtain ⟨p, len⟩ := e
    by_cases hssid : len > ndis80211LengthSsid
    · simp only [if_pos hssid]
      trivial
    simp only [if_neg hssid, val_bind, val_pure]
    cases hr : (f.ratesT []).val with
    | none =>
      rw [hr] at hrates
      have hno : f.survey.ratesOk = false :=
        Bool.eq_false_iff.2 fun h => absurd ((ratesOk_survey hle).1 h) (Nat.not_le.2 hrates)
      simp [hno]
    | some supportedRates =>
      rw [hr] at hrates
      have hyes := (ratesOk_survey hle).2 hrates.1
      simp only [hyes, Bool.not_true, Bool.false_eq_true, if_false]
      unfold finishT
      by_cases hreq : f.subtype = .probeReq
      · rw [if_pos hreq, if_pos (show f.survey.subtype = .probeReq from hreq), val_bind]
        cases (f.listenChT a []).val with
        | none => trivial
        | some dsConfig =>
          simp only [val_bind, val_pure, val_memcpyT, BssidEx.toWlanBssidEx, bssid, addrAt_copyOver,
            ssid_survey hle, ies_survey hle, length_body_survey hle]
          rfl
      · rw [if_neg hreq, if_neg (show ¬ f.survey.subtype = .probeReq from hreq), length_body_survey hle]
        by_cases h12 : f.len < 12
        · rw [if_pos h12, if_pos h12]
          rfl
        · rw [if_neg h12, if_neg h12]
          simp only [val_bind, val_pure, val_memcpyT, BssidEx.toWlanBssidEx, bssid, addrAt_copyOver,
            ssid_survey hle, ies_survey hle, dsConfig_survey a hle, capability_survey hle]
          cases (byteAt (f.mem []) 10 + 256 * byteAt (f.mem []) 11).testBit 0 with
          | true =>
            by_cases hch : f.dsConfig a [] = a.operCh
            · simp only [hch, ne_eq, not_true, if_false, if_true]
              rfl
            · simp only [hch, ne_eq, not_false_eq_true, if_true]
              rfl
          | false =>
            by_cases hch : f.dsConfig a [] = a.operCh
            · simp only [hch, ne_eq, not_true, if_false, Bool.false_eq_true]
              rfl
            · simp only [hch, ne_eq, not_false_eq_true, if_true, Bool.false_eq_true, if_false]
              rfl

end MgntFrame

end

end Rtw.Scan
