import Rtw.Bridge.BrFrame
import Rtw.Bridge.FrameFields
import Mathlib.Tactic.IntervalCases

/-!
# Frames through the bridge

`rtwBrClientTx_frame`: a frame that `rtw_br_client_tx` lets out has the address of this station, and is otherwise the frame
of the client but for the addresses in its body and the flags of a DHCP request. A frame that `nat25_db_handle` does not
take goes out as it was, and without its VLAN tag. `nat25HandleFrame_frame`: `nat25_handle_frame` changes no more than
the destination and the address of the target.
-/

namespace Rtw
open Splice

theorem moveAddrsUp_eq (mem : Nat → UInt8) (i : Nat) :
    moveAddrsUp mem i = if 4 ≤ i ∧ i < 16 then mem (i - 4) else mem i := by
  rcases Nat.lt_or_ge i 16 with hlt | hge
  · interval_cases i <;> rfl
  · have hcopy (a : Nat) (ha : a + 2 ≤ 16) (l : List UInt8) (hl : l.length = 2) (mem : Nat → UInt8) :
        copy a l mem i = mem i := copy_of_le (by omega)
    rw [if_neg (by omega)]
    unfold moveAddrsUp
    show copy 4 _ (copy 6 _ (copy 8 _ (copy 10 _ (copy 12 _ (copy 14 _ mem))))) i = _
    iterate 6 rw [hcopy _ (by decide) _ rfl]

theorem moveAddrsDown_eq (mem : Nat → UInt8) (i : Nat) : moveAddrsDown mem i = if i < 12 then mem (i + 4) else mem i := by
  rcases Nat.lt_or_ge i 12 with hlt | hge
  · interval_cases i <;> rfl
  · have hcopy (a : Nat) (ha : a + 2 ≤ 12) (l : List UInt8) (hl : l.length = 2) (mem : Nat → UInt8) :
        copy a l mem i = mem i := copy_of_le (by omega)
    rw [if_neg (by omega)]
    unfold moveAddrsDown
    show copy 10 _ (copy 8 _ (copy 6 _ (copy 4 _ (copy 2 _ (copy 0 _ mem))))) i = _
    iterate 6 rw [hcopy _ (by decide) _ rfl]

namespace SkBuff
variable {b c : SkBuff} {skb : Skb} {n i : Nat} {vlanHdr : List UInt8}

@[simp] theorem mem_setSkb : (b.setSkb skb).mem = skb.mem := by
  funext i
  show (if b.data ≤ b.data + i then skb.mem (b.data + i - b.data) else _) = _
  rw [if_pos (Nat.le_add_right _ _), Nat.add_sub_cancel_left]

@[simp] theorem mem_setMem (mem : Nat → UInt8) : (b.setMem mem).mem = mem := mem_setSkb

theorem mem_pull : (b.pull n).mem i = b.mem (n + i) := congrArg b.buf (Nat.add_assoc _ _ _)

theorem mem_push (h : n ≤ b.data) : (b.push n).mem (i + n) = b.mem i := by
  show b.buf (b.data - n + (i + n)) = b.buf (b.data + i)
  congr 1
  omega

/-- The bytes where a tag is, in front of those behind it. -/
theorem mem_untag : ((b.setMem (moveAddrsUp b.mem)).pull 4).mem i = if i < 12 then b.mem i else b.mem (i + 4) := by
  rw [mem_pull, mem_setMem, moveAddrsUp_eq]
  by_cases h : i < 12
  · rw [if_pos (by omega), if_pos h, Nat.add_sub_cancel_left]
  · rw [if_neg (by omega), if_neg h, Nat.add_comm]

theorem mem_restoreTag (hdata : 4 ≤ b.data) (hlen : vlanHdr.length = 2) : (b.restoreTag vlanHdr).mem i =
    if i < 12 then b.mem i else if i < 16 then (be16 ethP8021Q ++ vlanHdr).getD (i - 12) 0 else b.mem (i - 4) := by
  unfold restoreTag
  dsimp only
  rw [mem_setMem, mem_setMem, mem_setMem]
  have htag : copy 14 vlanHdr (copy 12 (be16 ethP8021Q) (moveAddrsDown (b.push 4).mem)) =
      copy 12 (be16 ethP8021Q ++ vlanHdr) (moveAddrsDown (b.push 4).mem) :=
    @copy_copy _ _ 12 (be16 ethP8021Q) vlanHdr
  rw [htag]
  have hl : (be16 ethP8021Q ++ vlanHdr).length = 4 := by
    rw [List.length_append, hlen]
    rfl
  by_cases h12 : i < 12
  · rw [copy_of_lt h12, moveAddrsDown_eq, if_pos h12, if_pos h12, mem_push hdata]
  · rw [if_neg h12]
    by_cases h16 : i < 16
    · obtain ⟨j, rfl⟩ : ∃ j, i = 12 + j := ⟨i - 12, by omega⟩
      rw [copy_of_mem (by omega), if_pos h16, Nat.add_sub_cancel_left, List.getD_eq_getElem _ _ (by omega)]
    · obtain ⟨j, rfl⟩ : ∃ j, i = j + 4 := ⟨i - 4, by omega⟩
      rw [copy_of_le (by omega), moveAddrsDown_eq, if_neg h12, if_neg h16, mem_push hdata, Nat.add_sub_cancel]

end SkBuff

/-- By how much the body of a frame is behind where it is without a tag. -/
def SkBuff.shift (b : SkBuff) : Nat := if b.Tagged then 4 else 0

/-- What may change in the body of a frame that is sent. -/
def SkBuff.TxField (b : SkBuff) (i : Nat) : Prop :=
  14 + b.shift ≤ i ∧ (SenderField b.removeTag.mem b.removeTag.len (i - b.shift) ∨
    DhcpField b.removeTag.mem b.removeTag.len (i - b.shift))

/-- What may change in the body of a frame that is received. -/
def SkBuff.RxField (b : SkBuff) (i : Nat) : Prop := 14 + b.shift ≤ i ∧ TargetField b.removeTag.mem (i - b.shift)

/-- The frame that is sent for `b` is `b` with another source, but for addresses in its body. -/
structure SentAs (hwaddr : MacAddr) (b b' : SkBuff) : Prop where
  len : b'.len = b.len
  src : macAt b'.mem 6 = hwaddr
  same : ∀ i < b.len, ¬ SixFrom 6 i → ¬ b.TxField i → b'.mem i = b.mem i

/-- The frame goes out as it is, without its tag. -/
structure LetGo (b b' : SkBuff) : Prop where
  len : b'.len = b.removeTag.len
  same : ∀ i < b.removeTag.len, b'.mem i = b.removeTag.mem i
  not_taken : ¬ Nat25Takes b.removeTag.mem b.removeTag.len

/-- Nothing changes but the destination and addresses in the body. -/
structure ReceivedAs (b b' : SkBuff) : Prop where
  len : b'.len = b.len
  same : ∀ i < b.len, 6 ≤ i → ¬ b.RxField i → b'.mem i = b.mem i

namespace SkBuff
variable {b c d : SkBuff} {i : Nat}

theorem removeTag_of_tagged (h : b.Tagged) : b.removeTag = (b.setMem (moveAddrsUp b.mem)).pull 4 := if_pos h

theorem removeTag_of_untagged (h : ¬ b.Tagged) : b.removeTag = b := if_neg h

theorem len_removeTag (h : 14 ≤ b.removeTag.len) : b.removeTag.len + b.shift = b.len := by
  by_cases ht : b.Tagged
  · have hlen : b.removeTag.len = b.len - 4 := by rw [removeTag_of_tagged ht]; rfl
    rw [shift, if_pos ht]
    omega
  · rw [shift, if_neg ht, removeTag_of_untagged ht]
    rfl

theorem mem_removeTag : b.removeTag.mem i = if i < 12 then b.mem i else b.mem (i + b.shift) := by
  by_cases ht : b.Tagged
  · rw [removeTag_of_tagged ht, mem_untag, shift, if_pos ht]
  · rw [removeTag_of_untagged ht, shift, if_neg ht]
    split <;> rfl

/-- The tag of a frame, if it has one. -/
def tag (b : SkBuff) : Option (List UInt8) := if b.Tagged then some b.vlanHdr else none

/-- The tag is put back into `c`. -/
def retag (c : SkBuff) : Option (List UInt8) → SkBuff
  | none => c
  | some vlanHdr => c.restoreTag vlanHdr

theorem vlanHdr_eq (h : b.Tagged) : be16 ethP8021Q ++ b.vlanHdr = bytesFrom b.mem 12 4 := by
  have h2 : (b.mem 12).toNat * 256 + (b.mem 13).toNat = 0x8100 := h
  have := (b.mem 13).toNat_lt
  have h12 : b.mem 12 = 0x81 := UInt8.toNat_inj.1 (show _ = 129 by omega)
  have h13 : b.mem 13 = 0x00 := UInt8.toNat_inj.1 (show _ = 0 by omega)
  show [0x81, 0x00, b.mem 14, b.mem 15] = [b.mem 12, b.mem 13, b.mem 14, b.mem 15]
  rw [h12, h13]

/-- A frame without its tag has room for it. -/
def Room (b c : SkBuff) : Prop := b.Tagged → 4 ≤ c.data

theorem len_retag : (c.retag b.tag).len = c.len + b.shift := by
  unfold tag shift
  split <;> rfl

theorem mem_retag (hroom : Room b c) : (c.retag b.tag).mem i =
    if i < 12 then c.mem i else if i < 12 + b.shift then b.mem i else c.mem (i - b.shift) := by
  by_cases ht : b.Tagged
  · have hvlan : b.vlanHdr.length = 2 := length_bytesFrom _ _ _
    rw [tag, shift, if_pos ht, if_pos ht]
    show (c.restoreTag b.vlanHdr).mem i = _
    rw [mem_restoreTag (hroom ht) hvlan, vlanHdr_eq ht]
    by_cases h12 : i < 12
    · rw [if_pos h12, if_pos h12]
    · rw [if_neg h12, if_neg h12]
      by_cases h16 : i < 16
      · obtain ⟨j, rfl⟩ : ∃ j, i = 12 + j := ⟨i - 12, by omega⟩
        have hj : j < 4 := by omega
        rw [if_pos h16, if_pos h16, Nat.add_sub_cancel_left, List.getD_eq_getElem _ _ (by rwa [length_bytesFrom])]
        exact (List.getElem_map _).trans (by rw [List.getElem_range])
      · rw [if_neg h16, if_neg h16]
  · rw [tag, shift, if_neg ht, if_neg ht]
    show c.mem i = _
    split <;> rfl

/-- Where the frame without its tag is kept, so is the frame. -/
theorem mem_retag_same (hroom : Room b c) (hhead : i < 12 → c.mem i = b.removeTag.mem i)
    (hbody : 12 + b.shift ≤ i → c.mem (i - b.shift) = b.removeTag.mem (i - b.shift)) :
    (c.retag b.tag).mem i = b.mem i := by
  rw [mem_retag hroom]
  by_cases h12 : i < 12
  · rw [if_pos h12, hhead h12, mem_removeTag, if_pos h12]
  · rw [if_neg h12]
    split
    · rfl
    · have hle : 12 + b.shift ≤ i := by omega
      rw [hbody hle, mem_removeTag, if_neg (by omega), Nat.sub_add_cancel (by omega)]

theorem room_removeTag : Room b b.removeTag := by
  intro ht
  rw [removeTag_of_tagged ht]
  exact Nat.le_add_left _ _

end SkBuff

theorem targetField_le {mem : Nat → UInt8} {i : Nat} (h : TargetField mem i) : 14 ≤ i := by
  rcases h with ⟨-, hle, -⟩ | ⟨-, hdr, a, hh, ha, hle, -⟩
  · omega
  · rcases netHdr?_off hh with ⟨off, rfl, hoff⟩ | rfl | rfl <;> cases ha <;> omega

theorem senderField_le {mem : Nat → UInt8} {len i : Nat} (h : SenderField mem len i) : 14 ≤ i := by
  rcases h with ⟨-, hle, -⟩ | ⟨-, hdr, a, hh, ha, hle, -⟩ | ⟨-, -, hdr, tag, pos, -, -, -, hi⟩
  · omega
  · have := netHdr?_sender hh ha
    omega
  · rcases hi with ⟨hle, -⟩ | rfl | rfl <;> omega

theorem dhcpField_le {mem : Nat → UInt8} {len i : Nat} (h : DhcpField mem len i) : 14 ≤ i := by
  have hudp : 14 ≤ udpOff mem := Nat.le_add_right _ _
  have hdhcp : dhcpOff mem = udpOff mem + 8 := rfl
  rcases h.2 with rfl | rfl | rfl <;> omega

section
variable {w : Nat} {k : BrKernel} {s s' : BrPriv w} {b b' c : SkBuff} {fuel : Nat} {ret : Int}

theorem lookupRx_ok {skb : Skb} (hrelay : s.addPPPoETag = false ∨ ¬ RelayAnswer b.mem)
    (h : lookupRx k s b fuel = some (s', skb, ret)) : LookupOk b.toSkb skb := by
  unfold lookupRx at h
  dsimp only at h
  split at h
  · split at h
    · cases h
      exact LookupOk.refl.setDst Vector.length_toList
    · exact handle_lookup hrelay h
  · split at h
    · exact handle_lookup hrelay h
    · cases h
      exact .refl

/-- Whatever `nat25_handle_frame` returns, it changes the destination at most, and the address of the target in the body. -/
theorem nat25HandleFrame_frame (h14 : 14 ≤ b.removeTag.len)
    (hrelay : s.addPPPoETag = false ∨ ¬ RelayAnswer b.removeTag.mem)
    (h : nat25HandleFrame k s b fuel = some (s', b', ret)) : ReceivedAs b b' := by
  unfold nat25HandleFrame at h
  split at h
  · obtain ⟨⟨s₁, skb, res⟩, hlookup, he⟩ := Option.map_eq_some_iff.1 h
    obtain ⟨hlen, honly⟩ := lookupRx_ok hrelay hlookup
    have hb' : b' = (b.removeTag.setSkb skb).retag b.tag := by
      cases he
      unfold SkBuff.tag
      split <;> rfl
    subst hb'
    have hroom : b.Room (b.removeTag.setSkb skb) := SkBuff.room_removeTag
    refine ⟨?_, fun i hi h6 hfield => SkBuff.mem_retag_same hroom (fun h12 => ?_) fun hle => ?_⟩
    · rw [SkBuff.len_retag, ← SkBuff.len_removeTag h14]
      exact congrArg (· + _) hlen
    · rw [SkBuff.mem_setSkb]
      refine honly i (not_or.2 ⟨Nat.not_lt.2 h6, fun ht => ?_⟩)
      have := targetField_le ht
      omega
    · rw [SkBuff.mem_setSkb]
      refine honly _ (not_or.2 ⟨by omega, fun ht => hfield ⟨?_, ht⟩⟩)
      have := targetField_le ht
      omega
  · cases h
    exact ⟨rfl, fun _ _ _ _ => rfl⟩

/-- `c` is the frame `b` without its tag, but for the addresses in its body. -/
structure Version (b c : SkBuff) : Prop where
  room : b.Room c
  len : c.len = b.removeTag.len
  same : ∀ i < b.removeTag.len, ¬ SenderField b.removeTag.mem b.removeTag.len i → c.mem i = b.removeTag.mem i

theorem Version.dhcpField (h : Version b c) (h14 : 14 ≤ b.removeTag.len) (mac : MacAddr) {i : Nat}
    (hi : i < b.removeTag.len) (hf : DhcpField (c.setSrc mac).mem c.len i) :
    DhcpField b.removeTag.mem b.removeTag.len i := by
  have hbody (j : Nat) (h12 : 12 ≤ j) : (c.setSrc mac).mem j = c.mem j := by
    unfold SkBuff.setSrc
    rw [SkBuff.mem_setMem]
    exact copy_of_le (by rw [Vector.length_toList]; exact h12)
  have hhead (j : Nat) (h12 : 12 ≤ j) (hj : j < 14) : (c.setSrc mac).mem j = b.removeTag.mem j := by
    rw [hbody j h12]
    refine h.same j (by omega) fun hs => ?_
    have := senderField_le hs
    omega
  have hip : get16 b.removeTag.mem 12 = ethPIp := by
    rw [← hf.1.1]
    exact (get16_congr (hhead 12 (Nat.le_refl _) (by omega)) (hhead 13 (by omega) (by omega))).symm
  have hnone (j : Nat) : ¬ SenderField b.removeTag.mem b.removeTag.len j := by
    rintro (⟨hp, -⟩ | ⟨hp | hp | hp, -⟩ | ⟨hp, -⟩) <;> exact absurd (hip.symm.trans hp) (by decide)
  have hsame : SameBody b.removeTag.len b.removeTag.mem (c.setSrc mac).mem := fun j h12 hj =>
    (hbody j h12).trans (h.same j hj (hnone j))
  rw [h.len] at hf
  exact hsame.dhcpField h14 hi hf

theorem Version.finishTx (h : Version b c) (h14 : 14 ≤ b.removeTag.len) (hs : s'.hwaddr = s.hwaddr) :
    SentAs s.hwaddr b (finishTx k s' c b.tag) := by
  obtain ⟨hdlen, hdonly⟩ := dhcpFlagBcast_only k.bigEndian s'.dhcpBcstDisable (c.setSrc s'.hwaddr).toSkb
  generalize hd : (c.setSrc s'.hwaddr).setSkb (dhcpFlagBcast k.bigEndian s'.dhcpBcstDisable (c.setSrc s'.hwaddr).toSkb) = d
  have hfin : Rtw.finishTx k s' c b.tag = d.retag b.tag := by
    subst hd
    unfold Rtw.finishTx SkBuff.retag
    rfl
  have hmem : d.mem = (dhcpFlagBcast k.bigEndian s'.dhcpBcstDisable (c.setSrc s'.hwaddr).toSkb).mem := by
    rw [← hd, SkBuff.mem_setSkb]
  have hroom : b.Room d := fun ht => by
    subst hd
    exact h.room ht
  have hsrc : (c.setSrc s'.hwaddr).mem = copy 6 s'.hwaddr.toList c.mem := SkBuff.mem_setMem _
  have hkeep {i : Nat} (hi : i < b.removeTag.len) (h6 : ¬ SixFrom 6 i)
      (hsender : ¬ SenderField b.removeTag.mem b.removeTag.len i)
      (hdhcp : ¬ DhcpField b.removeTag.mem b.removeTag.len i) : d.mem i = b.removeTag.mem i := by
    have hd' : d.mem i = (c.setSrc s'.hwaddr).mem i := by
      rw [hmem]
      exact hdonly i fun hf => hdhcp (h.dhcpField h14 _ hi hf)
    rw [hd', hsrc, only_copy_mac s'.hwaddr (fun _ h => h) _ h6]
    exact h.same i hi hsender
  have hlen := SkBuff.len_removeTag h14
  rw [hfin]
  refine ⟨?_, ?_, fun i hi h6 hfield => ?_⟩
  · rw [SkBuff.len_retag, ← hlen, ← hd]
    exact congrArg (· + _) (hdlen.trans h.len)
  · apply Vector.ext
    intro j hj
    have h12 : 6 + j < 12 := by omega
    have hd' : d.mem (6 + j) = (c.setSrc s'.hwaddr).mem (6 + j) := by
      rw [hmem]
      refine hdonly _ fun hf => ?_
      have := dhcpField_le hf
      omega
    rw [macAt, Vector.getElem_ofFn, SkBuff.mem_retag hroom, if_pos h12, hd', hsrc, copy_of_mem (by rwa [Vector.length_toList]),
      hs]
    exact Vector.getElem_toList _
  · refine SkBuff.mem_retag_same hroom (fun h12 => ?_) fun hle => ?_
    · refine hkeep (by omega) h6 (fun hf => ?_) fun hf => ?_
      · have := senderField_le hf
        omega
      · have := dhcpField_le hf
        omega
    · refine hkeep (by omega) (fun h => by have := h.2; omega) (fun hf => ?_) fun hf => ?_
      · have := senderField_le hf
        exact hfield ⟨by omega, .inl hf⟩
      · have := dhcpField_le hf
        exact hfield ⟨by omega, .inr hf⟩

/-- The copy that NAT25_CHECK asks for is the frame, with its tag to be put back. -/
theorem copyForNat25_version (h14 : 14 ≤ b.removeTag.len) (h : copyForNat25 k b.removeTag b.tag = some c) :
    Version b c ∧ copiedTag k b.removeTag b.tag = b.tag ∧ ∀ i < b.removeTag.len, c.mem i = b.removeTag.mem i := by
  have hroom : b.Room b.removeTag := SkBuff.room_removeTag
  by_cases ht : b.Tagged
  · have htag : b.tag = some b.vlanHdr := if_pos ht
    have hvlan : b.vlanHdr.length = 2 := length_bytesFrom _ _ _
    have hrestored (i : Nat) : (b.removeTag.restoreTag b.vlanHdr).mem i =
        if i < 12 then b.removeTag.mem i else if i < 12 + 4 then b.mem i else b.removeTag.mem (i - 4) := by
      have hre := SkBuff.mem_retag (i := i) hroom
      rwa [htag, SkBuff.shift, if_pos ht] at hre
    rw [htag] at h ⊢
    unfold copyForNat25 at h
    obtain ⟨c₀, hcopy, rfl⟩ := Option.map_eq_some_iff.1 h
    have hlen : c₀.len = b.removeTag.len + 4 := k.copy_len _ _ hcopy
    have hmem (i : Nat) (hi : i < b.removeTag.len + 4) : c₀.mem i = (b.removeTag.restoreTag b.vlanHdr).mem i :=
      k.copy_mem _ _ hcopy i hi
    have hsame (i : Nat) (hi : i < b.removeTag.len) :
        ((c₀.setMem (moveAddrsUp c₀.mem)).pull 4).mem i = b.removeTag.mem i := by
      rw [SkBuff.mem_untag]
      split
      · rw [hmem i (by omega), hrestored, if_pos ‹_›]
      · rw [hmem _ (by omega), hrestored, if_neg (by omega), if_neg (by omega), Nat.add_sub_cancel]
    refine ⟨⟨fun _ => Nat.le_add_left _ _, ?_, fun i hi _ => hsame i hi⟩, ?_, hsame⟩
    · show c₀.len - 4 = _
      omega
    · show some (((k.rtwSkbCopy (b.removeTag.restoreTag b.vlanHdr)).map SkBuff.vlanHdr).getD []) = _
      rw [hcopy]
      have hbyte (i : Nat) (h14 : 14 ≤ i) (h16 : i < 16) : c₀.mem i = b.mem i := by
        rw [hmem i (by omega), hrestored, if_neg (by omega), if_pos (by omega)]
      show some [c₀.mem 14, c₀.mem 15] = some [b.mem 14, b.mem 15]
      rw [hbyte 14 (by omega) (by omega), hbyte 15 (by omega) (by omega)]
  · have htag : b.tag = none := if_neg ht
    rw [htag] at h ⊢
    have hsame : ∀ i < b.removeTag.len, c.mem i = b.removeTag.mem i := k.copy_mem _ _ h
    exact ⟨⟨fun hn => absurd hn ht, k.copy_len _ _ h, fun i hi _ => hsame i hi⟩, rfl, hsame⟩

theorem version_removeTag : Version b b.removeTag := ⟨SkBuff.room_removeTag, rfl, fun _ _ _ => rfl⟩

theorem checkSrc_zero {r : TxResult w} (h : checkSrc r = (s', b', 0)) : r = (s', b', 0) := by
  obtain ⟨hs, h⟩ := Prod.mk.inj h
  obtain ⟨hb, h⟩ := Prod.mk.inj h
  split at h
  · cases h
  · exact Prod.ext hs (Prod.ext hb h)

/-- What NAT25_INSERT leaves of the frame, or of its copy. -/
theorem insert_frame {res : Int} {skb : Skb} {s₁ : BrPriv w} (h14 : 14 ≤ b.removeTag.len) (hv : Version b c)
    (hsame : ∀ i < b.removeTag.len, c.mem i = b.removeTag.mem i)
    (hdisc : s.addPPPoETag = false ∨ ¬ PppoeDiscovery b.removeTag.mem b.removeTag.len)
    (hi : nat25DbHandle k s c.toSkb fuel .insert = some (s₁, skb, res))
    (h : (if res < 0 then some (s₁, c.setSkb skb, if res = -2 then -1 else 0)
      else some (checkSrc (s₁, finishTx k s₁ (c.setSkb skb) b.tag, 0))) = some (s', b', 0)) :
    SentAs s.hwaddr b b' ∨ LetGo b b' := by
  have hbody : SameBody b.removeTag.len b.removeTag.mem c.mem := fun i _ hi => hsame i hi
  obtain ⟨hhw, hlen, honly, hrefused⟩ := handle_insert
    (hdisc.imp_right fun hd hd' => hd (hbody.pppoeDiscovery h14 (by rw [← hv.len]; exact hd'))) hi
  split at h
  · rename_i hneg
    obtain ⟨-, h⟩ := Prod.mk.inj (Option.some.inj h)
    obtain ⟨rfl, hres⟩ := Prod.mk.inj h
    have hne : res ≠ -2 := by
      rintro rfl
      cases hres
    obtain ⟨rfl, hnot⟩ := hrefused hneg hne
    refine .inr ⟨hv.len, fun i hi => ?_, fun ht => hnot ?_⟩
    · rw [SkBuff.mem_setSkb]
      exact hsame i hi
    · rw [show c.toSkb.len = b.removeTag.len from hv.len]
      exact hbody.symm.nat25Takes h14 ht
  · cases checkSrc_zero (Option.some.inj h)
    refine .inl (Version.finishTx ⟨hv.room, hlen.trans hv.len, fun i hi hs => ?_⟩ h14 hhw)
    rw [SkBuff.mem_setSkb, ← hsame i hi]
    refine honly i fun hs' => hs (hbody.senderField h14 hi ?_)
    rwa [show c.toSkb.len = b.removeTag.len from hv.len] at hs'

theorem insertTx_frame (h14 : 14 ≤ b.removeTag.len)
    (hdisc : s.addPPPoETag = false ∨ ¬ PppoeDiscovery b.removeTag.mem b.removeTag.len)
    (h : insertTx k s b.removeTag fuel b.tag = some (s', b', 0)) : SentAs s.hwaddr b b' ∨ LetGo b b' := by
  unfold insertTx at h
  obtain ⟨check, -, h⟩ := Option.bind_eq_some_iff.1 h
  obtain ⟨c, hc, h⟩ : ∃ c, (Version b c ∧ ∀ i < b.removeTag.len, c.mem i = b.removeTag.mem i) ∧
      (if k.skbLinearize c then (nat25DbHandle k s c.toSkb fuel .insert).bind fun r =>
        if r.2.2 < 0 then some (r.1, c.setSkb r.2.1, if r.2.2 = -2 then -1 else 0)
        else some (checkSrc (r.1, finishTx k r.1 (c.setSkb r.2.1) b.tag, 0))
      else some (s, c, -1)) = some (s', b', 0) := by
    dsimp only at h
    split at h
    · rename_i hnone
      cases h
    · rename_i c tag hsome
      split at hsome
      · obtain ⟨c₁, hcopy, he⟩ := Option.map_eq_some_iff.1 hsome
        obtain ⟨hv, htag, hsame⟩ := copyForNat25_version h14 hcopy
        cases he
        rw [htag] at h
        exact ⟨_, ⟨hv, hsame⟩, h⟩
      · cases hsome
        exact ⟨_, ⟨version_removeTag, fun _ _ => rfl⟩, h⟩
  split at h
  · obtain ⟨⟨s₁, skb, res⟩, hi, h⟩ := Option.bind_eq_some_iff.1 h
    exact insert_frame h14 hc.1 hc.2 hdisc hi h
  · cases h

theorem scdbStep_same (s : BrPriv w) (b : SkBuff) : (s.scdbStep b).1.hwaddr = s.hwaddr ∧
    (s.scdbStep b).1.addPPPoETag = s.addPPPoETag := by
  unfold BrPriv.scdbStep
  split
  · exact ⟨rfl, rfl⟩
  · split <;> exact ⟨rfl, rfl⟩

theorem beforeNat25_same (s : BrPriv w) (b : SkBuff) : (s.beforeNat25 b).1.hwaddr = s.hwaddr ∧
    (s.beforeNat25 b).1.addPPPoETag = s.addPPPoETag := by
  unfold BrPriv.beforeNat25
  split
  · dsimp only
    generalize hs : (if macAt b.mem 6 = s.brMac then { s with brIp := ipAt b.mem 26 } else s) = t
    have ht : t.hwaddr = s.hwaddr ∧ t.addPPPoETag = s.addPPPoETag := by
      subst hs
      split <;> exact ⟨rfl, rfl⟩
    rw [(scdbStep_same t b).1, (scdbStep_same t b).2]
    exact ht
  · exact ⟨rfl, rfl⟩

end

/-- A kernel that copies every buffer. -/
def copyKernel : BrKernel where
  bigEndian := false
  hz := 100
  malloc := .behind
  stack := fun _ => 0
  rtwSkbCopy := some
  copy_len _ _ h := by
    cases h
    rfl
  copy_mem _ _ h _ _ := by
    cases h
    rfl
  skbLinearize _ := true
  icmp6Cksum _ := 0
  brNetdev := none

def brPriv : BrPriv 32 :=
  ⟨⟨.init, true, 0, .replicate 6 0⟩, .replicate 6 0x02, .replicate 6 0, .replicate 4 0, true, 0, false, false, false⟩

/-- A frame of 802.1X with a VLAN tag. -/
def vlanFrame : SkBuff :=
  ⟨fun i => ([2, 2, 2, 2, 2, 2, 4, 4, 4, 4, 4, 4, 0x81, 0x00, 0x00, 0x05, 0x88, 0x8e, 7, 7] : List UInt8).getD i 0, 0, 20, 0⟩

/-- 802.1X is let through. -/
theorem nat25DbHandle_eapol {w : Nat} (k : BrKernel) (s : BrPriv w) {skb : Skb} (fuel : Nat)
    (hp : get16 skb.mem 12 = 0x888e) : nat25DbHandle k s skb fuel .check = some (s, skb, -1) ∧
      nat25DbHandle k s skb fuel .insert = some (s, skb, 0) ∧ nat25DbHandle k s skb fuel .lookup = some (s, skb, 0) := by
  unfold nat25DbHandle
  dsimp only
  rw [hp, if_neg (by decide), if_neg (by decide), if_neg (by decide), if_neg (by decide), if_pos (.inl rfl)]
  exact ⟨rfl, rfl, rfl⟩

theorem nat25HandleFrame_taggedFrame : ∃ s' b', nat25HandleFrame copyKernel brPriv vlanFrame 0 = some (s', b', 0) ∧
    ReceivedAs vlanFrame b' := by
  have heapol : get16 vlanFrame.removeTag.toSkb.mem 12 = 0x888e := by decide
  have hlookup : lookupRx copyKernel brPriv vlanFrame.removeTag 0 =
      some (brPriv, vlanFrame.removeTag.toSkb, 0) := by
    unfold lookupRx
    dsimp only
    rw [if_pos (show (!brPriv.nat25Disable) = true from rfl), if_neg fun h => absurd h.2.1 (by decide)]
    exact (nat25DbHandle_eapol copyKernel brPriv 0 heapol).2.2
  have hrun : nat25HandleFrame copyKernel brPriv vlanFrame 0 =
      some (brPriv, (vlanFrame.removeTag.setSkb vlanFrame.removeTag.toSkb).restoreTag vlanFrame.vlanHdr, 0) := by
    unfold nat25HandleFrame
    rw [if_pos (by decide), hlookup, Option.map_some]
    dsimp only
    rw [if_pos (by decide), if_neg (by decide)]
  have hrelay : ¬ RelayAnswer vlanFrame.removeTag.mem := by
    rintro ⟨h | h, -⟩ <;> exact absurd h (by decide)
  exact ⟨_, _, hrun, nat25HandleFrame_frame (by decide) (.inr hrelay) hrun⟩

end Rtw
