import Rtw.Lib.Run
import Rtw.Mlme.Ie
import Rtw.Recv.Frame

/-!
# Watching the beacons of the access point

`rtw_check_bcn_info` compares the keys of each beacon with those of the connection and counts how often the
same new keys came in a row. `BcnTrace` keeps, beside the state of the driver, the beacons that were looked at.
`stepLaw_run`: what the function reports is borne out by the last `new_bcn_max` of them, as long as no beacon is
longer than `MAX_IE_SZ`; such a beacon is taken for a changed access point.
-/

namespace Rtw

/-- `struct beacon_keys`; `ssid` has `ssid_len` bytes, what is behind them is 0. -/
structure BeaconKeys where
  ssid : List UInt8
  bcnChannel : Nat
  htCapInfo : Nat
  htInfoInfos0Sco : Nat
  encrypProtocol : Nat
  pairwiseCipher : Nat
  groupCipher : Nat
  is8021x : Nat
  deriving DecidableEq

namespace BeaconKeys

def zero : BeaconKeys := ⟨[], 0, 0, 0, 0, 0, 0, 0⟩

/-- The keys with the HT capability and the secondary channel of `recv`. -/
def withHt (k recv : BeaconKeys) : BeaconKeys :=
  { k with htCapInfo := recv.htCapInfo, htInfoInfos0Sco := recv.htInfoInfos0Sco }

/-- A beacon that hides its SSID is taken to carry the current one. -/
def unhide (recv cur : BeaconKeys) : BeaconKeys := if recv.ssid = [] then { recv with ssid := cur.ssid } else recv

theorem ne_of_withHt_ne {k recv : BeaconKeys} (h : recv ≠ k.withHt recv) : recv ≠ k := by
  rintro rfl
  exact h rfl

end BeaconKeys

/-- `ENCRYP_PROTOCOL_E` -/
def encrypProtocolOpensys : Nat := 0
def encrypProtocolWep : Nat := 1
def encrypProtocolWpa : Nat := 2
def encrypProtocolWpa2 : Nat := 3

/-- The group cipher, the pairwise ciphers and `is_8021x` as `rtw_parse_wpa_ie` and `rtw_parse_wpa2_ie` leave
them in zeroed variables, with `left` bytes from `pos` on. What was written before an error stays. -/
def parseKeys (oui : List Nat) (buf : List UInt8) (pos : Nat) (left : Int) : Nat × Nat × Nat :=
  if 0 < left ∧ left < 4 then (0, 0, 0)
  else
    let group := if left ≥ 4 then cipherSuite oui buf pos else 0
    let (pos, left) := if left ≥ 4 then (pos + 4, left - 4) else (pos, left)
    if left ≥ 2 then
      let count := byteAt buf pos + 256 * byteAt buf (pos + 1)
      if count = 0 ∨ left - 2 < count * 4 then (group, 0, 0)
      else
        let suites := (List.range count).map fun i => cipherSuite oui buf (pos + 2 + 4 * i)
        let (pos, left) := (pos + 2 + 4 * count, left - 2 - 4 * count)
        let suite1x := (List.range 4).map fun i => byteAt buf (pos + 2 + i)
        (group, suites.foldl (· ||| ·) 0, if left ≥ 6 ∧ suite1x = oui ++ [1] then 1 else 0)
    else (group, 0, 0)

/-- `rtw_parse_wpa2_ie` and `rtw_parse_wpa_ie` on the element whose body is at `pos`, with what they leave. -/
def parseWpa2Keys (buf : List UInt8) (pos len : Nat) : Nat × Nat × Nat :=
  if byteAt buf (pos - 2) ≠ 0x30 ∨ byteAt buf (pos - 1) ≠ len % 256 then (0, 0, 0)
  else parseKeys [0x00, 0x0f, 0xac] buf (pos + 2) (len - 2)

def parseWpaKeys (buf : List UInt8) (pos len : Nat) : Nat × Nat × Nat :=
  if byteAt buf (pos - 2) ≠ 0xdd ∨ byteAt buf (pos - 1) ≠ len % 256 ∨
      (List.range 4).map (fun i => byteAt buf (pos + i)) ≠ ouiMicrosoft ++ [1] then (0, 0, 0)
  else parseKeys ouiMicrosoft buf (pos + 6) (len - 6)

/-- The encryption that a beacon announces, with its ciphers. -/
def bcnEncryp (buf : List UInt8) (elems : Elems) (capability : Nat) : Nat × Nat × Nat × Nat :=
  match elems .rsnIe, elems .wpaIe with
  | some (pos, len + 1), _ => (encrypProtocolWpa2, parseWpa2Keys buf pos (len + 1))
  | _, some (pos, len + 1) => (encrypProtocolWpa, parseWpaKeys buf pos (len + 1))
  | _, _ => (if capability.testBit 4 then encrypProtocolWep else encrypProtocolOpensys, 0, 0, 0)

/-- `bcn_channel`; a beacon that names no channel is taken to be on the current one. -/
def bcnChannel (buf : List UInt8) (elems : Elems) (curChannel : Nat) : Nat :=
  match elems .dsParams, elems .htOperation with
  | some (pos, 1), _ => byteAt buf pos
  | _, some (pos, _) => byteAt buf pos
  | _, _ => curChannel

/-- `rtw_get_bcn_keys`. `pframe` is the memory from the frame on: in a frame of less than 36 bytes `left` wraps, and
what is behind the frame is parsed. -/
def rtwGetBcnKeys (curChannel : Nat) (pframe : List UInt8) (packetLen : UInt32) : Option BeaconKeys :=
  let capability := byteAt pframe 34 + 256 * byteAt pframe 35
  let left := (packetLen - 24 - 12).toNat
  let buf := pframe.drop 36
  let (res, elems) := parseElemsLoop buf (left + 1) 0 left (fun _ => none) 0
  if res = .parseFailed then none
  else do
    let htCapInfo ← match elems .htCapabilities with
      | some (pos, len) => if len ≠ 26 then none else some (byteAt buf pos + 256 * byteAt buf (pos + 1))
      | none => some 0
    let htInfoInfos0Sco ← match elems .htOperation with
      | some (pos, len) => if len ≠ 22 then none else some (byteAt buf (pos + 1) &&& 0x03)
      | none => some 0
    let ssid ← match elems .ssid with
      | some (pos, len) => if len > 32 then none else some ((List.range len).map fun i => buf[pos + i]?.getD 0)
      | none => some []
    let (encrypProtocol, groupCipher, pairwiseCipher, is8021x) := bcnEncryp buf elems capability
    return ⟨ssid, bcnChannel buf elems curChannel, htCapInfo, htInfoInfos0Sco, encrypProtocol, pairwiseCipher,
      groupCipher, is8021x⟩

/-- A beacon with what `rtw_check_bcn_info` reads of the adapter when it comes. -/
structure BcnRx where
  pframe : List UInt8
  packetLen : UInt32
  /-- `is_client_associated_to_ap` -/
  associated : Bool
  /-- `cur_network->network.MacAddress` -/
  macAddress : MacAddr
  curChannel : Nat
  newBcnMax : Int

namespace BcnRx

def sameBssid (r : BcnRx) : Bool := decide (∀ i : Fin 6, r.pframe[16 + i.val]?.getD 0 = r.macAddress[i])

def maxIeSz : UInt32 := 768

/-- The frame body, in the arithmetic of the driver, is no longer than `MAX_IE_SZ`. -/
def LenOk (r : BcnRx) : Prop := r.associated = true → r.packetLen - 24 ≤ maxIeSz

instance (r : BcnRx) : Decidable r.LenOk := inferInstanceAs (Decidable (_ → _))

/-- The keys of a parsable beacon of the associated access point. -/
def parsed? (r : BcnRx) : Option BeaconKeys :=
  if r.associated && r.sameBssid then rtwGetBcnKeys r.curChannel r.pframe r.packetLen else none

end BcnRx

/-- The fields of `mlme_priv` that the check keeps. -/
structure BcnSt where
  curBeaconKeys : BeaconKeys
  newBeaconKeys : BeaconKeys
  newBeaconCnts : UInt8

namespace BcnSt

/-- The three branches that move `new_beacon_cnts`. -/
def count (s : BcnSt) (recv : BeaconKeys) : BcnSt :=
  if recv = s.curBeaconKeys then { s with newBeaconCnts := 0 }
  else if s.newBeaconCnts = 0 ∨ recv ≠ s.newBeaconKeys then { s with newBeaconKeys := recv, newBeaconCnts := 1 }
  else { s with newBeaconCnts := s.newBeaconCnts + 1 }

/-- What follows the count; `false` is `_FAIL`, by which the caller takes the access point as changed. -/
def judge (s : BcnSt) (recv : BeaconKeys) (newBcnMax : Int) : Bool × BcnSt :=
  if s.newBeaconCnts.toNat ≥ newBcnMax then
    -- check bw mode change only?
    let s := { s with curBeaconKeys := s.curBeaconKeys.withHt recv }
    if recv ≠ s.curBeaconKeys then (false, s) else (true, { s with curBeaconKeys := recv, newBeaconCnts := 0 })
  else (true, s)

def rtwCheckBcnInfo (s : BcnSt) (r : BcnRx) : Bool × BcnSt :=
  if !r.associated then (true, s)
  else if r.packetLen - 24 > BcnRx.maxIeSz then (false, s)
  else if !r.sameBssid then (true, s)
  else
    match rtwGetBcnKeys r.curChannel r.pframe r.packetLen with
    | none => (true, s)
    | some recv =>
      let recv := recv.unhide s.curBeaconKeys
      (s.count recv).judge recv r.newBcnMax

end BcnSt

/-- What `OnBeacon` does with a beacon: the driver joins with it, or checks it. -/
inductive BcnEvent where
  | joined (curChannel : Nat) (pframe : List UInt8) (packetLen : UInt32)
  | beacon (r : BcnRx)

/-- A parsable beacon of the access point: its keys, and the current keys when it came. -/
structure SeenBcn where
  recv : BeaconKeys
  cur : BeaconKeys

/-- The state with the parsable beacons since the driver joined, the last one first. -/
structure BcnTrace where
  st : BcnSt
  seen : List SeenBcn

namespace BcnTrace

/-- `seen` with the beacon `r`. -/
def see (t : BcnTrace) (r : BcnRx) : List SeenBcn :=
  match r.parsed? with
  | some recv => ⟨recv.unhide t.st.curBeaconKeys, t.st.curBeaconKeys⟩ :: t.seen
  | none => t.seen

def next (t : BcnTrace) : BcnEvent → BcnTrace
  | .joined curChannel pframe packetLen =>
    let keys := (rtwGetBcnKeys curChannel pframe packetLen).getD .zero
    { st := { t.st with curBeaconKeys := keys, newBeaconCnts := 0 }, seen := [] }
  | .beacon r => { st := (t.st.rtwCheckBcnInfo r).2, seen := t.see r }

/-- The access point has changed: the last `n` beacons carry the same keys, each other than the current ones of
its time, and other than those of now in more than the HT fields. -/
def Changed (cur : BeaconKeys) (seen : List SeenBcn) (n : Nat) : Prop :=
  n ≤ seen.length ∧ ∃ k, (∀ b ∈ seen.take n, b.recv = k ∧ k ≠ b.cur) ∧ k ≠ cur ∧ k ≠ cur.withHt k

/-- What is asked of the check at each beacon: it reports a change only if there is one, and a beacon with the
current keys restarts the count. -/
def StepLaw (t : BcnTrace) : BcnEvent → Prop
  | .joined _ _ _ => True
  | .beacon r =>
    ((t.st.rtwCheckBcnInfo r).1 = false → Changed t.st.curBeaconKeys (t.see r) (max 1 r.newBcnMax.toNat)) ∧
      ∀ recv, r.parsed? = some recv → recv.unhide t.st.curBeaconKeys = t.st.curBeaconKeys →
        (t.st.rtwCheckBcnInfo r).2.newBeaconCnts = 0

/-- No beacon of the connection is longer than `MAX_IE_SZ`. -/
def StepOk (_ : BcnTrace) : BcnEvent → Prop
  | .joined _ _ _ => True
  | .beacon r => r.LenOk

instance (t : BcnTrace) : (e : BcnEvent) → Decidable (StepOk t e)
  | .joined _ _ _ => .isTrue trivial
  | .beacon r => inferInstanceAs (Decidable r.LenOk)

end BcnTrace

/-- The last `new_beacon_cnts` beacons carried the new keys, each when other keys were current. -/
structure Streak (s : BcnSt) (seen : List SeenBcn) : Prop where
  le : s.newBeaconCnts.toNat ≤ seen.length
  same : ∀ b ∈ seen.take s.newBeaconCnts.toNat, b.recv = s.newBeaconKeys ∧ b.recv ≠ b.cur

namespace Streak

variable {s : BcnSt} {seen : List SeenBcn}

theorem of_zero (h : s.newBeaconCnts = 0) : Streak s seen := by
  refine ⟨?_, ?_⟩
  · rw [h]
    exact Nat.zero_le _
  · rw [h]
    intro b hb
    exact absurd hb List.not_mem_nil

theorem congr {s' : BcnSt} (h : Streak s seen) (hn : s'.newBeaconKeys = s.newBeaconKeys)
    (hc : s'.newBeaconCnts = s.newBeaconCnts) : Streak s' seen := by
  refine ⟨?_, ?_⟩
  · rw [hc]
    exact h.le
  · rw [hc, hn]
    exact h.same

/-- One more beacon: the count is 0 again, or the streak with this beacon. -/
theorem count (h : Streak s seen) (recv : BeaconKeys) :
    Streak (s.count recv) (⟨recv, s.curBeaconKeys⟩ :: seen) := by
  unfold BcnSt.count
  by_cases hcur : recv = s.curBeaconKeys
  · rw [if_pos hcur]
    exact of_zero rfl
  rw [if_neg hcur]
  by_cases hnew : s.newBeaconCnts = 0 ∨ recv ≠ s.newBeaconKeys
  · rw [if_pos hnew]
    refine ⟨Nat.succ_le_succ (Nat.zero_le _), fun b hb => ?_⟩
    obtain rfl : b = ⟨recv, s.curBeaconKeys⟩ := by simpa using hb
    exact ⟨rfl, hcur⟩
  rw [if_neg hnew]
  push Not at hnew
  by_cases hwrap : s.newBeaconCnts.toNat + 1 < 256
  · have hc : (s.newBeaconCnts + 1).toNat = s.newBeaconCnts.toNat + 1 := by
      rw [UInt8.toNat_add]
      exact Nat.mod_eq_of_lt hwrap
    refine ⟨?_, fun b hb => ?_⟩
    · dsimp only
      rw [hc]
      exact Nat.succ_le_succ h.le
    · dsimp only at hb
      rw [hc, List.take_succ_cons] at hb
      rcases List.mem_cons.1 hb with rfl | hb
      · exact ⟨hnew.2, hcur⟩
      · exact h.same b hb
  · -- the counter is a byte: at 256 it starts again
    refine of_zero (UInt8.toNat_inj.1 ?_)
    have := s.newBeaconCnts.toNat_lt
    rw [UInt8.toNat_add]
    show (s.newBeaconCnts.toNat + 1) % 256 = 0
    omega

theorem judge (h : Streak s seen) (recv : BeaconKeys) (newBcnMax : Int) :
    Streak (s.judge recv newBcnMax).2 seen := by
  unfold BcnSt.judge
  by_cases hmax : (s.newBeaconCnts.toNat : Int) ≥ newBcnMax
  · rw [if_pos hmax]
    dsimp only
    by_cases hk : recv ≠ s.curBeaconKeys.withHt recv
    · rw [if_pos hk]
      exact h.congr rfl rfl
    · rw [if_neg hk]
      exact of_zero rfl
  · rw [if_neg hmax]
    exact h

end Streak

namespace BcnSt

variable {s : BcnSt} {r : BcnRx} {recv : BeaconKeys}

theorem count_curBeaconKeys (s : BcnSt) (recv : BeaconKeys) : (s.count recv).curBeaconKeys = s.curBeaconKeys := by
  unfold count
  by_cases hcur : recv = s.curBeaconKeys
  · rw [if_pos hcur]
  · rw [if_neg hcur]
    by_cases hnew : s.newBeaconCnts = 0 ∨ recv ≠ s.newBeaconKeys
    · rw [if_pos hnew]
    · rw [if_neg hnew]

/-- A change is reported only when the count is full and the keys differ in more than the HT fields. -/
theorem of_judge_false {newBcnMax : Int} (h : (s.judge recv newBcnMax).1 = false) :
    newBcnMax ≤ s.newBeaconCnts.toNat ∧ recv ≠ s.curBeaconKeys.withHt recv := by
  unfold judge at h
  by_cases hmax : (s.newBeaconCnts.toNat : Int) ≥ newBcnMax
  · rw [if_pos hmax] at h
    dsimp only at h
    by_cases hk : recv ≠ s.curBeaconKeys.withHt recv
    · exact ⟨hmax, hk⟩
    · rw [if_neg hk] at h
      cases h
  · rw [if_neg hmax] at h
    cases h

/-- A beacon within `MAX_IE_SZ` counts exactly if it is parsable and from the associated access point. -/
theorem rtwCheckBcnInfo_of_lenOk (s : BcnSt) (h : r.LenOk) :
    s.rtwCheckBcnInfo r = match r.parsed? with
      | none => (true, s)
      | some recv => (s.count (recv.unhide s.curBeaconKeys)).judge (recv.unhide s.curBeaconKeys) r.newBcnMax := by
  unfold rtwCheckBcnInfo BcnRx.parsed?
  cases hassoc : r.associated with
  | false => rfl
  | true =>
    have hlen : ¬ r.packetLen - 24 > BcnRx.maxIeSz := UInt32.not_lt.2 (h hassoc)
    cases hbssid : r.sameBssid with
    | false => simp [hlen]
    | true => simp [hlen]

/-- A longer beacon is reported as a change, whatever was seen. -/
theorem rtwCheckBcnInfo_of_not_lenOk (s : BcnSt) (h : ¬ r.LenOk) : s.rtwCheckBcnInfo r = (false, s) := by
  unfold BcnRx.LenOk at h
  push Not at h
  unfold rtwCheckBcnInfo
  rw [h.1, if_neg (by decide), if_pos (UInt32.not_le.1 h.2)]

theorem count_of_cur (h : recv = s.curBeaconKeys) : s.count recv = { s with newBeaconCnts := 0 } := if_pos h

theorem judge_newBeaconCnts_of_zero (h : s.newBeaconCnts = 0) (newBcnMax : Int) :
    (s.judge recv newBcnMax).2.newBeaconCnts = 0 := by
  unfold judge
  by_cases hmax : (s.newBeaconCnts.toNat : Int) ≥ newBcnMax
  · rw [if_pos hmax]
    dsimp only
    by_cases hk : recv ≠ s.curBeaconKeys.withHt recv
    · rw [if_pos hk]
      exact h
    · rw [if_neg hk]
  · rw [if_neg hmax]
    exact h

end BcnSt

namespace BcnTrace

variable {t : BcnTrace}

theorem see_eq_cons {r : BcnRx} {recv : BeaconKeys} (h : r.parsed? = some recv) :
    t.see r = ⟨recv.unhide t.st.curBeaconKeys, t.st.curBeaconKeys⟩ :: t.seen := by
  unfold see
  rw [h]

theorem see_length_le (t : BcnTrace) (r : BcnRx) : (t.see r).length ≤ t.seen.length + 1 := by
  unfold see
  cases r.parsed? with
  | none => exact Nat.le_succ _
  | some recv => exact Nat.le_refl _

theorem streak_next (h : Streak t.st t.seen) {e : BcnEvent} (hok : StepOk t e) :
    Streak (t.next e).st (t.next e).seen := by
  cases e with
  | joined curChannel pframe packetLen => exact Streak.of_zero rfl
  | beacon r =>
    show Streak (t.st.rtwCheckBcnInfo r).2 (t.see r)
    rw [BcnSt.rtwCheckBcnInfo_of_lenOk t.st hok]
    cases hp : r.parsed? with
    | none =>
      unfold see
      rw [hp]
      exact h
    | some recv =>
      rw [see_eq_cons hp]
      exact (h.count _).judge _ _

/-- A report at the end of a streak is borne out by it. -/
theorem changed_of_streak {s : BcnSt} {seen : List SeenBcn} {recv cur : BeaconKeys} {newBcnMax : Int}
    (h : Streak s (⟨recv, cur⟩ :: seen)) (hcur : s.curBeaconKeys = cur)
    (hj : (s.judge recv newBcnMax).1 = false) :
    Changed cur (⟨recv, cur⟩ :: seen) (max 1 newBcnMax.toNat) := by
  obtain ⟨hmax, hk⟩ := BcnSt.of_judge_false hj
  rw [hcur] at hk
  have hne := BeaconKeys.ne_of_withHt_ne hk
  rcases Nat.lt_or_ge 1 newBcnMax.toNat with hn | hn
  · -- two or more: they are all in the streak
    have hle : newBcnMax.toNat ≤ s.newBeaconCnts.toNat := Int.toNat_le.2 hmax
    rw [Nat.max_eq_right (Nat.le_of_lt hn)]
    have hnew : recv = s.newBeaconKeys :=
      (h.same ⟨recv, cur⟩ (List.mem_take_iff_getElem.2 ⟨0, by simp; omega, rfl⟩)).1
    refine ⟨Nat.le_trans hle h.le, recv, fun b hb => ?_, hne, hk⟩
    obtain ⟨hb1, hb2⟩ := h.same b (List.take_subset_take_left _ hle hb)
    rw [hb1, ← hnew] at hb2
    exact ⟨hb1.trans hnew.symm, hb2⟩
  · rw [Nat.max_eq_left hn]
    refine ⟨Nat.succ_le_succ (Nat.zero_le _), recv, fun b hb => ?_, hne, hk⟩
    obtain rfl : b = ⟨recv, cur⟩ := by simpa using hb
    exact ⟨rfl, hne⟩

theorem stepLaw_of_streak (h : Streak t.st t.seen) {e : BcnEvent} (hok : StepOk t e) : StepLaw t e := by
  cases e with
  | joined curChannel pframe packetLen => trivial
  | beacon r =>
    have hcheck := BcnSt.rtwCheckBcnInfo_of_lenOk t.st hok
    refine ⟨fun hret => ?_, fun recv hp hcur => ?_⟩
    · rw [hcheck] at hret
      cases hp : r.parsed? with
      | none =>
        rw [hp] at hret
        cases hret
      | some recv =>
        rw [hp] at hret
        rw [see_eq_cons hp]
        exact changed_of_streak (h.count _) (t.st.count_curBeaconKeys _) hret
    · rw [hcheck, hp]
      dsimp only
      rw [BcnSt.count_of_cur hcur]
      exact BcnSt.judge_newBeaconCnts_of_zero rfl _

/-- A connection that starts with any keys, before its first beacon. -/
def start (cur new : BeaconKeys) : BcnTrace := ⟨⟨cur, new, 0⟩, []⟩

theorem stepLaw_runOk {evs : List BcnEvent} (h : Streak t.st t.seen) (hok : Machine.RunOk next StepOk t evs) :
    Machine.RunOk next StepLaw t evs := by
  induction evs generalizing t with
  | nil => trivial
  | cons e evs ih => exact ⟨stepLaw_of_streak h hok.1, ih (streak_next h hok.1) hok.2⟩

/-- In a run without a beacon of the connection longer than `MAX_IE_SZ`, a change is reported only when the last
`new_bcn_max` beacons bear it out, and a beacon with the current keys restarts the count. -/
theorem stepLaw_run (cur new : BeaconKeys) (evs : List BcnEvent) (hok : Machine.RunOk next StepOk (start cur new) evs) :
    Machine.RunOk next StepLaw (start cur new) evs :=
  stepLaw_runOk (Streak.of_zero rfl) hok

/-- A beacon of the access point `00:00:00:00:00:00`, with `body` behind its header. -/
def bcnRx (body : List UInt8) : BcnRx where
  pframe := List.replicate 24 0 ++ body
  packetLen := UInt32.ofNat (24 + body.length)
  associated := true
  macAddress := Vector.replicate 6 0
  curChannel := 1
  newBcnMax := 3

/-- Three beacons of the network `b` where `a` is joined. -/
theorem stepLaw_run_three : Machine.RunOk next StepLaw (start ⟨[0x61], 1, 0, 0, 0, 0, 0, 0⟩ .zero)
    (List.replicate 3 (.beacon (bcnRx (List.replicate 12 0 ++ [0, 1, 0x62])))) :=
  stepLaw_run _ _ _ (by decide)

/-- The first beacon of a network whose elements take 771 bytes is reported as a change. -/
theorem not_stepLaw_long : ¬ Machine.RunOk next StepLaw (start ⟨[0x61], 1, 0, 0, 0, 0, 0, 0⟩ .zero)
    [.beacon (bcnRx (List.replicate 12 0 ++ [0, 1, 0x61] ++
      (List.replicate 3 ([221, 250] ++ List.replicate 250 0)).flatten))] := by
  rintro ⟨⟨hlaw, -⟩, -⟩
  have hch := hlaw (by rw [BcnSt.rtwCheckBcnInfo_of_not_lenOk _ (by decide +kernel)])
  have hlen := Nat.le_trans hch.1 (see_length_le _ _)
  exact absurd hlen (by decide)

end BcnTrace

end Rtw
