import Rtw.Lib.Ccm
import Rtw.Lib.Run
import Rtw.Mlme.Ie
import Rtw.Recv.RecvFunc
import Rtw.Security.AesCcmp

/-!
# Protected broadcast management frames

`rtw_BIP_verify` with `omac1_aes_128`. `aes_128_encrypt` is the parameter `E`. The IPN of a frame is
compared with the last accepted one by `<`, so a frame with that IPN passes: `replayFree_run` says
that this is the only way in which the accepted IPNs fail to be strictly increasing.
-/

namespace Rtw
open Ccm

/-! ### CMAC -/

/-- The loop of `gf_mulx`, without the carry. -/
def shiftLeft (pad : Block) : Block :=
  Vector.ofFn fun i => (pad.get i <<< 1) ||| (if h : i.val + 1 < 16 then pad[i.val + 1] >>> 7 else 0)

def gfMulx (pad : Block) : Block :=
  let carry := pad.head &&& 0x80
  let pad := shiftLeft pad
  if carry ≠ 0 then pad.set 15 (pad[15] ^^^ 0x87) else pad

section
variable (E : AesKey → Block → Block) (key : AesKey)

/-- The loop of `omac1_aes_128_vector` over whole blocks: the last block is not encrypted yet when
nothing is left behind it. -/
def omac1Blocks (m : Mem) (totalLen : Nat) : (n off : Nat) → Block → Block
  | 0, _, cbc => cbc
  | n + 1, off, cbc =>
    let cbc := xor cbc (load m off)
    omac1Blocks m totalLen n (off + 16) (if off + 16 < totalLen then E key cbc else cbc)

/-- `omac1_aes_128`, when the memory for the key schedule is there. -/
def omac1Aes128 (data : List UInt8) : Block :=
  let m : Mem := fun i => data[i]?.getD 0
  let n := data.length / 16
  let left := data.length % 16
  let cbc := omac1Blocks E key m data.length n 0 (.replicate 16 0)
  let pad := gfMulx (E key (.replicate 16 0))
  if left > 0 ∨ data.length = 0 then
    let cbc := xor cbc (loadPart m (16 * n) left)
    let cbc := xor cbc (Vector.ofFn fun i => if i.val = left then 0x80 else 0)
    E key (xor (gfMulx pad) cbc)
  else E key (xor pad cbc)

/-! ### Verification -/

/-- The key that is installed: `dot11wBIPKeyid` and the entry of `dot11wBIPKey`. -/
structure Igtk where
  keyid : Nat
  skey : AesKey

/-- A received frame; `aadAlloc` and `ctxAlloc` tell whether the two allocations on the way succeed. -/
structure BipFrame where
  pframe : List UInt8
  aadAlloc : Bool
  ctxAlloc : Bool

/-- The frame behind its header. -/
def BipFrame.body (f : BipFrame) : List UInt8 := f.pframe.drop 24

/-- The MME: its offset in the body and its length. -/
def BipFrame.mme (f : BipFrame) : Option (Nat × Nat) := rtwGetIe f.body 76 f.body.length

/-- The 48-bit packet number at `p + 4`. -/
def readIpn (body : List UInt8) (p : Nat) : Nat :=
  (List.range 6).foldr (fun i n => byteAt body (p + 4 + i) + 256 * n) 0

/-- `temp_ipn` -/
def BipFrame.ipn (f : BipFrame) : Nat := (f.mme.map fun (p, _) => readIpn f.body p).getD 0

/-- `BIP_AAD`: the masked frame control field, the three addresses, and the body with the MIC field of
the MME cleared. -/
def bipAad (pframe : List UInt8) (p len : Nat) : List UInt8 :=
  let aad := List.replicate 20 0 ++ pframe.drop 24
  let aad := memcpyAt aad (20 + p + 2 + len - 8) (.replicate 8 0)
  -- _RETRY_, _PWRMGT_ and _MORE_DATA_ are in the second byte
  let aad := memcpyAt aad 0 [pframe[0]?.getD 0, (pframe[1]?.getD 0) &&& 0xc7]
  memcpyAt aad 2 ((pframe.drop 4).take 18)

/-- The key index and the MIC of a frame with the MME `p`, `len`. -/
def bipChecks (igtk : Igtk) (f : BipFrame) (p len : Nat) : Bool :=
  byteAt f.body (p + 2) + 256 * byteAt f.body (p + 3) = igtk.keyid && f.ctxAlloc &&
    (omac1Aes128 E igtk.skey (bipAad f.pframe p len)).toList.take 8 =
      (f.pframe.drop (f.pframe.length - 8)).take 8

/-- `rtw_BIP_verify`: the result and the new `mgnt_80211w_IPN_rx`. -/
def rtwBipVerify (igtk : Igtk) (ipnRx : Nat) (f : BipFrame) : Ret × Nat :=
  if !f.aadAlloc then (.fail, ipnRx)
  else
    match f.mme with
    | none => (.rxHandled, ipnRx)
    | some (p, len) =>
      let tempIpn := readIpn f.body p
      if tempIpn < ipnRx then (.fail, ipnRx)
      else if bipChecks E igtk f p len then (.success, tempIpn)
      else (.fail, ipnRx)

/-- The frame has an MME with the right key index and a valid MIC. -/
def BipFrame.Authentic (igtk : Igtk) (f : BipFrame) : Prop :=
  f.aadAlloc ∧ ∃ m ∈ f.mme, bipChecks E igtk f m.1 m.2

end

section
variable {E : AesKey → Block → Block} {igtk : Igtk} {ipnRx : Nat} {f : BipFrame}

theorem BipFrame.ipn_congr {g : BipFrame} (h : f.pframe = g.pframe) : f.ipn = g.ipn := by
  simp only [BipFrame.ipn, BipFrame.mme, BipFrame.body, h]

theorem rtwBipVerify_of_authentic (h : f.Authentic E igtk) :
    rtwBipVerify E igtk ipnRx f = if f.ipn < ipnRx then (.fail, ipnRx) else (.success, f.ipn) := by
  obtain ⟨halloc, ⟨p, len⟩, hm, hchecks⟩ := h
  simp only [rtwBipVerify, halloc, BipFrame.ipn, Option.mem_def.1 hm, Option.map_some, Option.getD_some,
    hchecks, Bool.not_true, Bool.false_eq_true, if_false, if_true]

theorem rtwBipVerify_of_not_authentic (ipnRx : Nat) (h : ¬ f.Authentic E igtk) :
    (rtwBipVerify E igtk ipnRx f).1 ≠ .success ∧ (rtwBipVerify E igtk ipnRx f).2 = ipnRx := by
  unfold rtwBipVerify
  split
  · exact ⟨by simp, rfl⟩
  rename_i halloc
  split
  · exact ⟨by simp, rfl⟩
  rename_i p len hm
  have hchecks : ¬ bipChecks E igtk f p len := by
    intro hc
    exact h ⟨by simpa using halloc, (p, len), hm, hc⟩
  dsimp only
  rw [if_neg hchecks]
  split <;> exact ⟨by simp, rfl⟩

end

/-! ### Runs -/

/-- The receiver under one key: its replay counter and the frames it has accepted. -/
structure BipRun where
  ipnRx : Nat
  accepted : List BipFrame

namespace BipRun
variable {E : AesKey → Block → Block} {igtk : Igtk} {s : BipRun} {f : BipFrame}

def start (ipnRx : Nat) : BipRun := ⟨ipnRx, []⟩

def next (E : AesKey → Block → Block) (igtk : Igtk) (s : BipRun) (f : BipFrame) : BipRun :=
  let (res, ipnRx) := rtwBipVerify E igtk s.ipnRx f
  ⟨ipnRx, if res = .success then s.accepted ++ [f] else s.accepted⟩

/-- The accepted packet numbers are strictly increasing, and no frame is accepted twice. -/
structure ReplayFree (s : BipRun) : Prop where
  increasing : (s.accepted.map BipFrame.ipn).Pairwise (· < ·)
  nodup : (s.accepted.map BipFrame.pframe).Nodup

/-- The frame is not an authentic one with the packet number of the last accepted frame. -/
def StepOk (E : AesKey → Block → Block) (igtk : Igtk) (s : BipRun) (f : BipFrame) : Prop :=
  f.Authentic E igtk → s.accepted ≠ [] → f.ipn ≠ s.ipnRx

/-- The replay counter is the packet number of the last accepted frame. -/
structure Inv (s : BipRun) : Prop where
  le : ∀ g ∈ s.accepted, g.ipn ≤ s.ipnRx
  last : s.accepted ≠ [] → ∃ g ∈ s.accepted, g.ipn = s.ipnRx

theorem replayFree_of_increasing (h : (s.accepted.map BipFrame.ipn).Pairwise (· < ·)) : s.ReplayFree := by
  refine ⟨h, List.pairwise_map.2 ((List.pairwise_map.1 h).imp ?_)⟩
  intro f g hlt he
  rw [BipFrame.ipn_congr he] at hlt
  exact absurd hlt (Nat.lt_irrefl _)

/-- A frame is dropped without a trace, or it is accepted and its packet number is stored. -/
theorem next_cases (E : AesKey → Block → Block) (igtk : Igtk) (s : BipRun) (f : BipFrame) :
    (s.next E igtk f = s ∧ (f.Authentic E igtk → f.ipn < s.ipnRx)) ∨
      f.Authentic E igtk ∧ s.ipnRx ≤ f.ipn ∧ s.next E igtk f = ⟨f.ipn, s.accepted ++ [f]⟩ := by
  by_cases ha : f.Authentic E igtk
  · simp only [next, rtwBipVerify_of_authentic ha]
    split
    · rename_i hlt
      exact .inl ⟨rfl, fun _ => hlt⟩
    · rename_i hge
      exact .inr ⟨ha, Nat.le_of_not_lt hge, rfl⟩
  · obtain ⟨hres, hipn⟩ := rtwBipVerify_of_not_authentic s.ipnRx ha
    refine .inl ⟨?_, fun h => absurd h ha⟩
    simp only [next, hipn, if_neg hres]

theorem Inv.next (h : s.Inv) : (s.next E igtk f).Inv := by
  rcases next_cases E igtk s f with ⟨he, -⟩ | ⟨-, hle, he⟩
  · rw [he]; exact h
  · rw [he]
    constructor
    · intro g hg
      rcases List.mem_append.1 hg with hg | hg
      · exact (h.le g hg).trans hle
      · rw [List.mem_singleton.1 hg]
    · intro _
      exact ⟨f, by simp, rfl⟩

theorem ReplayFree.of_next (h : (s.next E igtk f).ReplayFree) : s.ReplayFree := by
  rcases next_cases E igtk s f with ⟨he, -⟩ | ⟨-, -, he⟩
  · rwa [he] at h
  · rw [he] at h
    have hinc := h.increasing
    rw [List.map_append] at hinc
    exact replayFree_of_increasing (List.pairwise_append.1 hinc).1

theorem ReplayFree.next_iff (h : s.ReplayFree) (hi : s.Inv) :
    (s.next E igtk f).ReplayFree ↔ s.StepOk E igtk f := by
  rcases next_cases E igtk s f with ⟨he, hdrop⟩ | ⟨ha, hle, he⟩
  · rw [he]
    refine iff_of_true h fun ha _ => ?_
    have := hdrop ha
    omega
  rw [he]
  constructor
  · intro hr _ hne heq
    -- the last accepted frame and this one have the same number
    obtain ⟨g, hg, hgi⟩ := hi.last hne
    have hinc := hr.increasing
    rw [List.map_append, List.pairwise_append] at hinc
    have := hinc.2.2 g.ipn (List.mem_map_of_mem hg) f.ipn (by simp)
    omega
  · intro hok
    refine replayFree_of_increasing ?_
    rw [List.map_append, List.pairwise_append]
    refine ⟨h.increasing, List.pairwise_singleton .., ?_⟩
    intro x hx y hy
    obtain ⟨g, hg, rfl⟩ := List.mem_map.1 hx
    obtain rfl : y = f.ipn := by simpa using hy
    have hne : f.ipn ≠ s.ipnRx := hok ha (List.ne_nil_of_mem hg)
    have := hi.le g hg
    omega

/-- The accepted packet numbers are strictly increasing in exactly the runs in which no authentic frame
arrives with the packet number that was accepted last. -/
theorem replayFree_run (E : AesKey → Block → Block) (igtk : Igtk) (ipnRx : Nat) (fs : List BipFrame) :
    (Machine.run (next E igtk) (start ipnRx) fs).ReplayFree ↔
      Machine.RunOk (next E igtk) (StepOk E igtk) (start ipnRx) fs := by
  refine Machine.run_iff_runOk (fun _ _ h => h.next) (fun _ _ hi h => h.next_iff hi)
    (fun _ _ h => h.of_next) (s := start ipnRx) ?_ ?_ fs
  · exact ⟨fun g hg => absurd hg (by simp [start]), fun h => absurd rfl h⟩
  · exact ⟨List.Pairwise.nil, List.nodup_nil⟩

/-- A broadcast deauthentication under the key id 4, up to the MIC, with the packet number 1. -/
def deauthHead : List UInt8 :=
  [0xc0, 0, 0, 0, 0xff, 0xff, 0xff, 0xff, 0xff, 0xff, 2, 0, 0, 0, 0, 1, 2, 0, 0, 0, 0, 1, 0, 0,
    2, 0, 76, 16, 4, 0, 1, 0, 0, 0, 0, 0]

/-- The frame with its MIC. -/
def deauthFrame (E : AesKey → Block → Block) (key : AesKey) : BipFrame where
  pframe := deauthHead ++ (omac1Aes128 E key (bipAad (deauthHead ++ .replicate 8 0) 2 16)).toList.take 8
  aadAlloc := true
  ctxAlloc := true

theorem deauth_parts {mic : List UInt8} (h : mic.length = 8) :
    bipAad (deauthHead ++ mic) 2 16 = bipAad (deauthHead ++ .replicate 8 0) 2 16 ∧
    (⟨deauthHead ++ mic, true, true⟩ : BipFrame).mme = some (2, 16) ∧
    (⟨deauthHead ++ mic, true, true⟩ : BipFrame).ipn = 1 ∧
    (deauthHead ++ mic).drop ((deauthHead ++ mic).length - 8) = mic := by
  match mic, h with
  | [a, b, c, d, e, f, g, i], _ =>
    have hmme : (⟨deauthHead ++ [a, b, c, d, e, f, g, i], true, true⟩ : BipFrame).mme = some (2, 16) := by
      simp [BipFrame.mme, BipFrame.body, deauthHead, rtwGetIe, rtwGetIeLoop, byteAt]
    have hrange : List.range 6 = [0, 1, 2, 3, 4, 5] := rfl
    refine ⟨rfl, hmme, ?_, rfl⟩
    rw [BipFrame.ipn, hmme]
    simp [BipFrame.body, deauthHead, readIpn, hrange, byteAt]

theorem authentic_deauthFrame (key : AesKey) : (deauthFrame E key).Authentic E ⟨4, key⟩ := by
  have hlen : ((omac1Aes128 E key (bipAad (deauthHead ++ .replicate 8 0) 2 16)).toList.take 8).length = 8 := by simp
  obtain ⟨haad, hmme, -, hmic⟩ := deauth_parts hlen
  refine ⟨rfl, (2, 16), hmme, ?_⟩
  show (_ && _ && decide _) = true
  rw [Bool.and_eq_true, decide_eq_true_iff]
  constructor
  · rfl
  · show (omac1Aes128 E key (bipAad (deauthFrame E key).pframe 2 16)).toList.take 8 =
      ((deauthFrame E key).pframe.drop ((deauthFrame E key).pframe.length - 8)).take 8
    rw [deauthFrame, haad, hmic, List.take_take]; rfl

/-- The same frame twice is accepted twice, whatever the cipher and the key. -/
def ReplayAccepted : Prop :=
  ∀ E key, ¬ (Machine.run (next E ⟨4, key⟩) (start 0) [deauthFrame E key, deauthFrame E key]).ReplayFree

theorem not_replayFree_replay : ReplayAccepted := by
  intro E key h
  have ha := authentic_deauthFrame (E := E) key
  have hipn : (deauthFrame E key).ipn = 1 := (deauth_parts (by simp)).2.2.1
  have hrun : Machine.run (next E ⟨4, key⟩) (start 0) [deauthFrame E key, deauthFrame E key] =
      ⟨1, [deauthFrame E key, deauthFrame E key]⟩ := by
    simp [Machine.run, next, rtwBipVerify_of_authentic ha, hipn, start]
  rw [hrun] at h
  have hinc := h.increasing
  simp [hipn] at hinc

end BipRun

end Rtw
