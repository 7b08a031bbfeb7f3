import Rtw.Lib.Run
import Rtw.Xmit.Coalesce

/-!
# Packet numbers under one key

`update_attrib_sec_info` numbers a packet, `rtw_xmitframe_coalesce` writes the number into its MPDUs
later, and the packets wait in queues in between. `TxKeyRun` follows the packets of one key; `StepOk`
says which steps keep the packet numbers on the air strictly increasing.
-/

namespace Rtw

/-- A key: a default WEP key, a group key or the pairwise key of a station. -/
inductive KeyId where
  | default (idx : Nat)
  | group (idx : Nat)
  | pairwise (psta : StaId)
  deriving DecidableEq

/-- The key that `rtw_wep_encrypt`, `rtw_tkip_encrypt` or `rtw_aes_encrypt` takes for a packet. -/
def keyOf (sec : SecurityPriv) (psta : StaId) (a : PktAttrib) : Option KeyId :=
  match a.encrypt with
  | .wep40 | .wep104 => some (.default sec.dot11PrivacyKeyIndex)
  | .tkip | .aes => some (if a.bmcast then .group sec.dot118021XGrpKeyid else .pairwise psta)
  | _ => none

/-- A numbered packet; `num` is its place in the order of numbering. -/
structure TxPkt where
  num : Nat
  attrib : PktAttrib
  payload : List UInt8

/-- An MPDU with the place of its packet. -/
structure TxMpdu where
  num : Nat
  frag : XmitFragment

/-- The packets sent under a key: the counters, the station entries whose counter was used, packet by
packet, the packets that wait and the MPDUs written so far. -/
structure TxKeyRun where
  txpn : StaId → Nat
  users : List StaId
  waiting : List TxPkt
  written : List TxMpdu

inductive TxEvent where
  | attrib (sec : SecurityPriv) (psta : StaId) (sta : TxSta) (pkt : PktInfo)
  | coalesce (j : Nat) (env : CoalesceEnv)
  | drop (j : Nat)

namespace TxKeyRun
variable {key : KeyId} {enc : PrivacyAlg}

def start (txpn : StaId → Nat) : TxKeyRun := ⟨txpn, [], [], []⟩

/-- A packet is numbered. -/
def number (s : TxKeyRun) (psta : StaId) (a : PktAttrib) (payload : List UInt8) (pn : Nat) : TxKeyRun :=
  { s with
    txpn := Function.update s.txpn psta pn
    users := s.users ++ [psta]
    waiting := s.waiting ++ [⟨s.users.length, a, payload⟩] }

/-- A step; a packet under another key is not part of the run. -/
def next (key : KeyId) (enc : PrivacyAlg) (s : TxKeyRun) : TxEvent → TxKeyRun
  | .attrib sec psta sta pkt =>
    match updateAttribSecInfo sec sta pkt (s.txpn psta) with
    | none => s
    | some (a, pn) =>
      if keyOf sec psta a = some key ∧ a.encrypt = enc then s.number psta a pkt.payload pn else s
  | .coalesce j env =>
    match s.waiting[j]? with
    | none => s
    | some p =>
      { s with
        waiting := s.waiting.eraseIdx j
        written := s.written ++ (rtwXmitframeCoalesce env p.attrib p.payload).map (⟨p.num, ·⟩) }
  | .drop j => { s with waiting := s.waiting.eraseIdx j }

/-- The packet numbers in the MPDUs written so far. -/
def pns (enc : PrivacyAlg) (s : TxKeyRun) : List Nat := s.written.map fun m => ivPn enc m.frag.iv

/-- Every packet number is larger than those written before it. -/
def PnOk (enc : PrivacyAlg) (s : TxKeyRun) : Prop := (s.pns enc).Pairwise (· < ·)

instance (enc : PrivacyAlg) (s : TxKeyRun) : Decidable (s.PnOk enc) :=
  inferInstanceAs (Decidable (List.Pairwise _ _))

/-- A packet is numbered from the counter that the key has used so far, before the packet number comes
round to 0; it is written in one MPDU, and after the packets numbered before it. -/
def StepOk (enc : PrivacyAlg) (s : TxKeyRun) : TxEvent → Prop
  | .attrib _ psta _ _ =>
    (∀ u ∈ s.users, u = psta) ∧ (s.users ≠ [] → s.txpn psta % 2 ^ pnBits enc ≠ 0)
  | .coalesce j env =>
    ∀ p ∈ s.waiting[j]?, FitsOneMpdu env p.attrib p.payload ∧ ∀ m ∈ s.written, m.num < p.num
  | .drop _ => True

instance (enc : PrivacyAlg) (s : TxKeyRun) : (e : TxEvent) → Decidable (s.StepOk enc e)
  | .attrib _ psta _ _ => inferInstanceAs (Decidable ((∀ u ∈ s.users, u = psta) ∧
      (s.users ≠ [] → s.txpn psta % 2 ^ pnBits enc ≠ 0)))
  | .coalesce j env => inferInstanceAs (Decidable (∀ p ∈ s.waiting[j]?,
      FitsOneMpdu env p.attrib p.payload ∧ ∀ m ∈ s.written, m.num < p.num))
  | .drop _ => .isTrue trivial

/-- The packet with the place `i` carries the packet number `base + i`. -/
structure Numbered (enc : PrivacyAlg) (base : Nat) (s : TxKeyRun) : Prop where
  room : base + s.users.length ≤ 2 ^ pnBits enc
  counter : ∀ u ∈ s.users, s.txpn u % 2 ^ pnBits enc = (base + s.users.length) % 2 ^ pnBits enc
  waiting : ∀ p ∈ s.waiting, p.num < s.users.length ∧ ivPn enc p.attrib.iv = base + p.num
  written : ∀ m ∈ s.written, m.num < s.users.length ∧ ivPn enc m.frag.iv = base + m.num
  increasing : (s.written.map TxMpdu.num).Pairwise (· < ·)

def Inv (enc : PrivacyAlg) (s : TxKeyRun) : Prop := ∃ base, s.Numbered enc base

variable {s : TxKeyRun} {base : Nat}

theorem Numbered.pnOk (h : s.Numbered enc base) : s.PnOk enc := by
  have hmap : s.pns enc = (s.written.map TxMpdu.num).map (base + ·) := by
    rw [pns, List.map_map]
    exact List.map_congr_left fun m hm => (h.written m hm).2
  rw [PnOk, hmap, List.pairwise_map]
  exact h.increasing.imp fun hlt => Nat.add_lt_add_left hlt base

theorem Inv.start (txpn : StaId → Nat) : (start txpn).Inv enc :=
  ⟨0, ⟨Nat.zero_le _, by simp [TxKeyRun.start], by simp [TxKeyRun.start], by simp [TxKeyRun.start],
    by simp [TxKeyRun.start]⟩⟩

/-- With no packet numbered yet, the next number may be the first. -/
theorem Numbered.rebase (h : s.Numbered enc base) (h0 : s.users = []) {b : Nat} (hb : b ≤ 2 ^ pnBits enc) :
    s.Numbered enc b where
  room := by rw [h0]; exact hb
  counter u hu := absurd hu (by rw [h0]; exact List.not_mem_nil)
  waiting p hp := absurd (h.waiting p hp).1 (by rw [h0]; exact Nat.not_lt_zero _)
  written m hm := absurd (h.written m hm).1 (by rw [h0]; exact Nat.not_lt_zero _)
  increasing := h.increasing

/-- The base for the next number: the counter stands at `base` plus the packets numbered. -/
theorem Inv.exists_base (h : s.Inv enc) {psta : StaId} (hsame : ∀ u ∈ s.users, u = psta)
    (hwrap : s.users ≠ [] → s.txpn psta % 2 ^ pnBits enc ≠ 0) :
    ∃ base, s.Numbered enc base ∧ base + s.users.length < 2 ^ pnBits enc ∧
      s.txpn psta % 2 ^ pnBits enc = base + s.users.length := by
  obtain ⟨base, h⟩ := h
  have hpos : 0 < 2 ^ pnBits enc := Nat.two_pow_pos _
  rcases s.users.eq_nil_or_concat' with h0 | ⟨us, u, hu⟩
  · have hlt := Nat.mod_lt (s.txpn psta) hpos
    exact ⟨_, h.rebase h0 hlt.le, by rw [h0]; exact hlt, by rw [h0]; rfl⟩
  · have hmem : psta ∈ s.users := hsame u (by simp [hu]) ▸ (by simp [hu])
    have hc := h.counter psta hmem
    have hne := hwrap (List.ne_nil_of_mem hmem)
    have hlt : base + s.users.length < 2 ^ pnBits enc := by
      refine lt_of_le_of_ne h.room fun he => hne ?_
      rw [hc, he, Nat.mod_self]
    exact ⟨base, h, hlt, by rw [hc, Nat.mod_eq_of_lt hlt]⟩

theorem Numbered.number (h : s.Numbered enc base) {psta : StaId} {a : PktAttrib} {payload : List UInt8}
    {pn : Nat} (hsame : ∀ u ∈ s.users, u = psta) (hroom : base + s.users.length < 2 ^ pnBits enc)
    (hiv : ivPn enc a.iv = base + s.users.length)
    (hpn : pn % 2 ^ pnBits enc = (base + s.users.length + 1) % 2 ^ pnBits enc) :
    (s.number psta a payload pn).Numbered enc base := by
  have hlen : (s.number psta a payload pn).users.length = s.users.length + 1 := by
    simp [TxKeyRun.number]
  refine ⟨by rw [hlen]; exact hroom, fun u hu => ?_, fun p hp => ?_, fun m hm => ?_, h.increasing⟩
  · have hu : u = psta := by
      rcases List.mem_append.1 hu with hu | hu
      · exact hsame u hu
      · exact List.mem_singleton.1 hu
    rw [hlen, hu, ← Nat.add_assoc]
    show Function.update s.txpn psta pn psta % _ = _
    rw [Function.update_self]; exact hpn
  · rw [hlen]
    rcases List.mem_append.1 hp with hp | hp
    · exact ⟨Nat.lt_succ_of_lt (h.waiting p hp).1, (h.waiting p hp).2⟩
    · rw [List.mem_singleton.1 hp]; exact ⟨Nat.lt_succ_self _, hiv⟩
  · rw [hlen]; exact ⟨Nat.lt_succ_of_lt (h.written m hm).1, (h.written m hm).2⟩

/-- Dropping a waiting packet changes nothing else. -/
theorem Numbered.eraseIdx (h : s.Numbered enc base) (j : Nat) :
    ({ s with waiting := s.waiting.eraseIdx j } : TxKeyRun).Numbered enc base :=
  { h with waiting := fun p hp => h.waiting p (List.mem_of_mem_eraseIdx hp) }

theorem Numbered.coalesce (h : s.Numbered enc base) {p : TxPkt} {env : CoalesceEnv} (hp : p ∈ s.waiting)
    (hfit : FitsOneMpdu env p.attrib p.payload) (hlast : ∀ m ∈ s.written, m.num < p.num) :
    ({ s with written := s.written ++
        (rtwXmitframeCoalesce env p.attrib p.payload).map (⟨p.num, ·⟩) } : TxKeyRun).Numbered enc base := by
  refine { h with written := fun m hm => ?_, increasing := ?_ }
  · rcases List.mem_append.1 hm with hm | hm
    · exact h.written m hm
    · obtain ⟨f, hf, rfl⟩ := List.mem_map.1 hm
      exact ⟨(h.waiting p hp).1, by rw [iv_of_mem_coalesce hf]; exact (h.waiting p hp).2⟩
  · rw [List.map_append, List.pairwise_append]
    have hone := length_coalesce_le_one hfit
    refine ⟨h.increasing, ?_, fun x hx y hy => ?_⟩
    · -- at most one MPDU
      match rtwXmitframeCoalesce env p.attrib p.payload, hone with
      | [], _ => exact List.Pairwise.nil
      | [f], _ => exact List.pairwise_singleton ..
    · obtain ⟨m, hm, rfl⟩ := List.mem_map.1 hx
      obtain ⟨m', hm', rfl⟩ := List.mem_map.1 hy
      obtain ⟨f, -, rfl⟩ := List.mem_map.1 hm'
      exact hlast m hm

theorem Inv.next (h : s.Inv enc) (e : TxEvent) (hok : s.StepOk enc e) : (s.next key enc e).Inv enc := by
  cases e with
  | attrib sec psta sta pkt =>
    unfold TxKeyRun.next
    dsimp only
    split
    · exact h
    rename_i a pn ha
    split
    · rename_i hk
      obtain ⟨base, hbase, hlt, hc⟩ := h.exists_base hok.1 hok.2
      have hpn : a.encrypt.HasPn := by
        cases he : a.encrypt <;> simp [keyOf, he] at hk <;> trivial
      obtain ⟨hiv, hnext⟩ := nextIv_pn hpn (updateAttribSecInfo_eq_some ha).1
      rw [hk.2] at hiv hnext
      refine ⟨base, hbase.number hok.1 hlt (hiv.trans hc) ?_⟩
      rw [hnext, ← hc, Nat.mod_add_mod]
    · exact h
  | coalesce j env =>
    unfold TxKeyRun.next
    dsimp only
    split
    · exact h
    rename_i p hp
    obtain ⟨base, h⟩ := h
    obtain ⟨hfit, hlast⟩ := hok p hp
    exact ⟨base, (h.coalesce (List.mem_of_getElem? hp) hfit hlast).eraseIdx j⟩
  | drop j =>
    obtain ⟨base, h⟩ := h
    exact ⟨base, h.eraseIdx j⟩

/-- In every run whose steps meet `StepOk` the packet numbers written under the key are strictly
increasing. -/
theorem pnOk_run (key : KeyId) (enc : PrivacyAlg) (txpn : StaId → Nat) (evs : List TxEvent)
    (hok : Machine.RunOk (next key enc) (StepOk enc) (start txpn) evs) :
    (Machine.run (next key enc) (start txpn) evs).PnOk enc := by
  obtain ⟨_, h⟩ := Machine.run_invariant_of_ok (fun _ e h hok => h.next e hok) (Inv.start txpn) hok
  exact h.pnOk

/-- WPA2 with software encryption. -/
def swAes : SecurityPriv where
  dot11AuthAlgrthm := .dot8021X
  dot11PrivacyAlgrthm := .aes
  dot11PrivacyKeyIndex := 0
  dot118021XGrpPrivacy := .aes
  dot118021XGrpKeyid := 1
  busetkipkey := true
  swEncrypt := true
  hwDecrypted := false
  pkGkConflict := false

/-- An IPv4 packet of `len` bytes for station 1. -/
def ipv4Pkt (len : Nat) : TxEvent :=
  .attrib swAes 1 ⟨false, .aes⟩ ⟨false, 0x0800, false, List.replicate len 0⟩

/-- The first waiting packet is sent with a QoS header. -/
def sendFirst (fragLen : Nat) : TxEvent := .coalesce 0 ⟨fragLen, 0, 40, some (List.replicate 26 0)⟩

theorem pnOk_run_last_pn :
    (Machine.run (next (.pairwise 1) .aes) (start fun _ => 2 ^ 48 - 2)
      [ipv4Pkt 100, ipv4Pkt 20, sendFirst 256, sendFirst 2346]).PnOk .aes :=
  pnOk_run _ _ _ _ (by decide +kernel)

/-- A packet of 400 bytes with a fragmentation threshold of 256: both fragments carry the same number. -/
theorem not_pnOk_fragments :
    ¬ (Machine.run (next (.pairwise 1) .aes) (start fun _ => 1) [ipv4Pkt 400, sendFirst 256]).PnOk .aes := by
  decide +kernel

end TxKeyRun

end Rtw
