import Rtw.Bridge.Pppoe

/-!
# The relay tag of PPPoE

`PppoeFrame` is a discovery packet with its tags, `Skb.Carries` that a buffer has it. What a client sends gets
a relay tag with the address of the client, if the processor is big-endian (`insert_iff`); the answer gets
that address and loses it from the tag, unless the client has sent a tag without a value (`lookup_iff`).
-/

namespace Rtw

open Splice

structure PppoeTag where
  type : UInt16
  value : List UInt8

namespace PppoeTag

def bytes (t : PppoeTag) : List UInt8 := be16 t.type.toNat ++ (be16 t.value.length ++ t.value)

def isRelay (t : PppoeTag) : Bool := t.type.toNat = pttRelaySid

/-- The relay tag that the bridge makes for a client. -/
def relay (mac : MacAddr) (value : List UInt8) : PppoeTag := ⟨0x0110, be16 magicCode ++ (mac.toList ++ value)⟩

end PppoeTag

def tagBytes (tags : List PppoeTag) : List UInt8 := tags.flatMap PppoeTag.bytes

/-- The first relay tag is replaced by other tags. -/
def replaceRelay (r : List PppoeTag) : List PppoeTag → List PppoeTag
  | [] => []
  | t :: tags => if t.isRelay then r ++ tags else t :: replaceRelay r tags

/-- The value of the first relay tag. -/
def relayValue (tags : List PppoeTag) : Option (List UInt8) := (tags.find? PppoeTag.isRelay).map PppoeTag.value

/-- A PPPoE discovery packet -/
structure PppoeFrame where
  dst : MacAddr
  src : MacAddr
  code : UInt8
  sid : UInt16
  tags : List PppoeTag

namespace PppoeFrame

/-- What is before `ph->length`. -/
def head (f : PppoeFrame) : List UInt8 :=
  f.dst.toList ++ (f.src.toList ++ ([0x88, 0x63, 0x11, f.code] ++ be16 f.sid.toNat))

def bytes (f : PppoeFrame) : List UInt8 := f.head ++ (be16 (tagBytes f.tags).length ++ tagBytes f.tags)

end PppoeFrame

/-- The buffer has these bytes, and `pad` more. -/
structure Skb.Has (skb : Skb) (l : List UInt8) (pad : Nat) : Prop where
  mem : At skb.mem 0 l
  len : skb.len = l.length + pad

/-- The buffer has the packet `f`, and `pad` more bytes. -/
def Skb.Carries (skb : Skb) (f : PppoeFrame) (pad : Nat) : Prop := skb.Has f.bytes pad

/-! ### Tags -/

section
variable {mem : Nat → UInt8} {a n cur fuel : Nat} {l : List UInt8} {t : PppoeTag} {pre post tags r : List PppoeTag}

theorem get16_of_at (h : At mem a (be16 n ++ l)) (hn : n < 65536) : get16 mem a = n := by
  obtain ⟨hhi, hlo, -⟩ := h
  unfold get16
  rw [hhi, hlo, UInt8.toNat_ofNat', UInt8.toNat_ofNat']
  omega

theorem tagBytes_append : tagBytes (pre ++ post) = tagBytes pre ++ tagBytes post := List.flatMap_append

theorem tagBytes_cons : tagBytes (t :: tags) = t.bytes ++ tagBytes tags := List.flatMap_cons

theorem PppoeTag.length_bytes (t : PppoeTag) : t.bytes.length = tagHdrLen + t.value.length := by
  unfold bytes be16 tagHdrLen
  simp only [List.length_append, List.length_cons, List.length_nil]
  omega

theorem length_le_tagBytes (tags : List PppoeTag) : 4 * tags.length ≤ (tagBytes tags).length := by
  induction tags with
  | nil => exact Nat.le_refl 0
  | cons t tags ih =>
    rw [tagBytes_cons, List.length_append, t.length_bytes, List.length_cons]
    unfold tagHdrLen
    omega

theorem type_of_at (h : At mem a t.bytes) : get16 mem a = t.type.toNat :=
  get16_of_at h t.type.toNat_lt

theorem length_of_at (h : At mem a t.bytes) (hfits : t.value.length < 65536) : get16 mem (a + 2) = t.value.length := by
  refine get16_of_at (l := t.value) ?_ hfits
  exact (at_append.1 h).2

theorem replaceRelay_append (hpre : ∀ t ∈ pre, t.isRelay = false) (ht : t.isRelay = true) :
    replaceRelay r (pre ++ t :: post) = pre ++ (r ++ post) := by
  induction pre with
  | nil => exact if_pos ht
  | cons u pre ih =>
    have hu := hpre u (List.mem_cons_self ..)
    show (if u.isRelay = true then _ else u :: replaceRelay r (pre ++ t :: post)) = _
    rw [hu, if_neg Bool.false_ne_true, ih fun v hv => hpre v (List.mem_cons_of_mem _ hv)]
    rfl

theorem replaceRelay_of_none (h : ∀ t ∈ tags, t.isRelay = false) : replaceRelay r tags = tags := by
  induction tags with
  | nil => rfl
  | cons u tags ih =>
    have hu := h u (List.mem_cons_self ..)
    show (if u.isRelay = true then _ else u :: replaceRelay r tags) = _
    rw [hu, if_neg Bool.false_ne_true, ih fun v hv => h v (List.mem_cons_of_mem _ hv)]

theorem length_replaceRelay_le (tags : List PppoeTag) :
    (tagBytes (replaceRelay [] tags)).length ≤ (tagBytes tags).length := by
  induction tags with
  | nil => exact Nat.le_refl 0
  | cons t tags ih =>
    show (tagBytes (if t.isRelay = true then [] ++ tags else t :: replaceRelay [] tags)).length ≤ _
    split
    · rw [List.nil_append, tagBytes_cons, List.length_append]
      exact Nat.le_add_left _ _
    · rw [tagBytes_cons, tagBytes_cons, List.length_append, List.length_append]
      omega

theorem findPppoeTagLoop_append (hat : At mem cur (tagBytes pre ++ l)) (hpre : ∀ t ∈ pre, t.isRelay = false)
    (hlt : cur + (tagBytes pre).length ≤ phTag + phLength mem) (hcur : phTag ≤ cur) (hfits : phLength mem < 65536) :
    findPppoeTagLoop mem pttRelaySid (pre.length + fuel) cur =
      findPppoeTagLoop mem pttRelaySid fuel (cur + (tagBytes pre).length) := by
  induction pre generalizing cur with
  | nil => rw [List.length_nil, Nat.zero_add]; rfl
  | cons t pre ih =>
    rw [tagBytes_cons, List.append_assoc] at hat
    rw [tagBytes_cons, List.length_append] at hlt ⊢
    have hlen := t.length_bytes
    obtain ⟨hhere, hrest⟩ := at_append.1 hat
    have hin : cur - phTag < phLength mem := by
      unfold tagHdrLen at hlen
      omega
    have htype : get16 mem cur ≠ pttRelaySid := by
      rw [type_of_at hhere]
      exact of_decide_eq_false (hpre t (List.mem_cons_self ..))
    have hnext : cur + tagHdrLen + get16 mem (cur + 2) = cur + t.bytes.length := by
      rw [length_of_at hhere (by omega), hlen, Nat.add_assoc]
    rw [List.length_cons, Nat.add_right_comm, findPppoeTagLoop, if_pos hin, if_neg htype, hnext,
      ih hrest (fun u hu => hpre u (List.mem_cons_of_mem _ hu)) (by omega) (by omega), Nat.add_assoc]

theorem findPppoeTag_some (hat : At mem phTag (tagBytes (pre ++ t :: post)))
    (hpre : ∀ t ∈ pre, t.isRelay = false) (ht : t.isRelay = true)
    (hlen : phLength mem = (tagBytes (pre ++ t :: post)).length) (hfits : phLength mem < 65536) :
    findPppoeTag mem pttRelaySid = some (phTag + (tagBytes pre).length) := by
  have hcount := length_le_tagBytes (pre ++ t :: post)
  rw [List.length_append, List.length_cons] at hcount
  rw [tagBytes_append, tagBytes_cons] at hat hlen hcount
  have hlen' := hlen
  have htag := t.length_bytes
  unfold tagHdrLen at htag
  rw [List.length_append, List.length_append] at hlen'
  obtain ⟨hhere, -⟩ := at_append.1 (at_append.1 hat).2
  obtain ⟨k, hk⟩ : ∃ k, phLength mem = pre.length + (k + 1) := ⟨phLength mem - pre.length - 1, by omega⟩
  have hin : phTag + (tagBytes pre).length - phTag < phLength mem := by omega
  have htype : get16 mem (phTag + (tagBytes pre).length) = pttRelaySid := by
    rw [type_of_at hhere]
    exact of_decide_eq_true ht
  unfold findPppoeTag
  rw [hk, findPppoeTagLoop_append hat hpre (by omega) (Nat.le_refl _) hfits, findPppoeTagLoop, if_pos hin, if_pos htype]

theorem findPppoeTag_none (hat : At mem phTag (tagBytes tags)) (h : ∀ t ∈ tags, t.isRelay = false)
    (hlen : phLength mem = (tagBytes tags).length) (hfits : phLength mem < 65536) :
    findPppoeTag mem pttRelaySid = none := by
  have hcount := length_le_tagBytes tags
  obtain ⟨k, hk⟩ : ∃ k, phLength mem = tags.length + k := ⟨phLength mem - tags.length, by omega⟩
  have hend : ¬phTag + (tagBytes tags).length - phTag < phLength mem := by omega
  have hat' : At mem phTag (tagBytes tags ++ []) := by rwa [List.append_nil]
  unfold findPppoeTag
  rw [hk, findPppoeTagLoop_append hat' h (by omega) (Nat.le_refl _) hfits]
  cases k with
  | zero => rfl
  | succ k => rw [findPppoeTagLoop, if_neg hend]

end

/-! ### Buffers -/

namespace Skb
variable {skb : Skb} {f : PppoeFrame} {x y z l : List UInt8} {n pad : Nat}

theorem Has.pullAndMerge (h : skb.Has (x ++ (y ++ z)) pad) :
    ∃ skb' : Skb, skb.pullAndMerge x.length y.length = some skb' ∧ skb'.Has (x ++ z) pad ∧
      skb'.tailroom = skb.tailroom + y.length := by
  have hlen := h.len
  rw [List.length_append, List.length_append] at hlen
  refine ⟨_, if_neg ?_, ⟨?_, ?_⟩, rfl⟩
  · omega
  · have hcut := h.mem.cut (n := skb.len - (x.length + y.length)) (by omega)
    rwa [Nat.zero_add] at hcut
  · show skb.len - y.length = _
    rw [List.length_append]
    omega

theorem Has.put (h : skb.Has (x ++ (y ++ z)) pad) (hlen : l.length = y.length) :
    (skb.setMem (copy x.length l skb.mem)).Has (x ++ (l ++ z)) pad := by
  refine ⟨?_, ?_⟩
  · have hput := h.mem.put hlen
    rwa [Nat.zero_add] at hput
  · show skb.len = _
    rw [h.len]
    simp only [List.length_append, hlen]

theorem length_head (f : PppoeFrame) : f.head.length = 18 := by
  unfold PppoeFrame.head be16
  simp

theorem Has.setPhLength (h : skb.Has (f.head ++ (be16 n ++ z)) pad) (m : Nat) :
    (skb.setPhLength m).Has (f.head ++ (be16 m ++ z)) pad := by
  have hput := h.put (l := be16 m) rfl
  rwa [length_head] at hput

theorem Has.phLength_eq (h : skb.Has (f.head ++ (be16 n ++ z)) pad) (hn : n < 65536) : phLength skb.mem = n := by
  obtain ⟨-, hlen⟩ := at_append.1 h.mem
  rw [length_head] at hlen
  exact get16_of_at hlen hn

theorem Has.at_tag (h : skb.Has (f.head ++ (be16 n ++ z)) pad) : At skb.mem phTag z := by
  obtain ⟨-, hlen⟩ := at_append.1 h.mem
  have htag := (at_append.1 hlen).2
  rwa [length_head] at htag

/-- A part of the tags is cut out, and `ph->length` set. -/
theorem Has.cutTags (h : skb.Has (f.head ++ (be16 n ++ (x ++ (y ++ z)))) pad) (hn : n < 65536)
    (hy : y.length ≤ n) : ∃ skb' : Skb, skb.pullAndMerge (phTag + x.length) y.length = some skb' ∧
      phLength skb'.mem = n ∧ skb'.tailroom = skb.tailroom + y.length ∧
      (skb'.setPhLength (n + 0x10000 - y.length)).Has (f.head ++ (be16 (n - y.length) ++ (x ++ z))) pad := by
  have hassoc : f.head ++ (be16 n ++ (x ++ (y ++ z))) = (f.head ++ (be16 n ++ x)) ++ (y ++ z) := by
    simp only [List.append_assoc]
  have hsrc : (f.head ++ (be16 n ++ x)).length = phTag + x.length := by
    rw [List.length_append, List.length_append, length_head]
    show 18 + (2 + _) = _
    unfold phTag
    omega
  rw [hassoc] at h
  obtain ⟨skb', hpull, hhas, hroom⟩ := h.pullAndMerge
  rw [hsrc] at hpull
  have hhas : skb'.Has (f.head ++ (be16 n ++ (x ++ z))) pad := by simpa only [List.append_assoc] using hhas
  have hbe : be16 (n + 0x10000 - y.length) = be16 (n - y.length) := by
    unfold be16
    congr 1
    · refine UInt8.toNat_inj.1 ?_
      rw [UInt8.toNat_ofNat', UInt8.toNat_ofNat']
      omega
    · congr 1
      refine UInt8.toNat_inj.1 ?_
      rw [UInt8.toNat_ofNat', UInt8.toNat_ofNat']
      omega
  refine ⟨skb', hpull, hhas.phLength_eq hn, hroom, ?_⟩
  rw [← hbe]
  exact hhas.setPhLength _

/-- A tag is put in front, of the length that the code takes it for. -/
theorem Has.addPppoeTag (h : skb.Has (f.head ++ (be16 z.length ++ z)) pad) (hz : z.length < 65536) {bigEndian : Bool}
    {tag : Nat → UInt8} (htag : At tag 0 l) (hlen : hostU16 tag bigEndian 2 + tagHdrLen = l.length)
    (hroom : l.length ≤ skb.tailroom) : ∃ skb' : Skb, skb.addPppoeTag bigEndian tag = some skb' ∧
      skb'.Has (f.head ++ (be16 (z.length + l.length) ++ (l ++ z))) pad := by
  have hphlen := h.phLength_eq hz
  obtain ⟨hhead, hrest⟩ := at_append.1 h.mem
  obtain ⟨hlen16, hat⟩ := at_append.1 hrest
  rw [Nat.zero_add, length_head] at hlen16 hat
  have hbe : ∀ m, (be16 m).length = 2 := fun _ => rfl
  rw [hbe] at hat
  -- The tags move down.
  have hmoved : At (move (phTag + l.length) phTag z.length skb.mem) (phTag + l.length) z := hat.move (Nat.le_refl _)
  have hhead' : At (move (phTag + l.length) phTag z.length skb.mem) 0 f.head :=
    hhead.move_of_apart (.inl (by rw [length_head]; unfold phTag; omega))
  have hlen' : At (move (phTag + l.length) phTag z.length skb.mem) 18 (be16 z.length) :=
    hlen16.move_of_apart (.inl (by rw [hbe]; unfold phTag; omega))
  have hph' : phLength (move (phTag + l.length) phTag z.length skb.mem) = z.length :=
    get16_of_at (l := []) (by rwa [List.append_nil]) hz
  have hbytes : bytesFrom tag 0 l.length = l := by
    have := htag.eq_map
    unfold bytesFrom
    exact this
  refine ⟨⟨copy phTag l (copy 18 (be16 (z.length + l.length)) (move (phTag + l.length) phTag z.length skb.mem)),
    skb.len + l.length, skb.tailroom - l.length⟩, ?_, ⟨?_, ?_⟩⟩
  · unfold Skb.addPppoeTag
    dsimp only
    rw [hlen, if_neg (by omega), hbytes, hphlen]
    unfold Skb.setPhLength setMem
    dsimp only
    rw [hph']
    rfl
  · refine at_append.2 ⟨?_, at_append.2 ⟨?_, at_append.2 ⟨?_, ?_⟩⟩⟩
    · refine (hhead'.copy_of_apart (.inl ?_)).copy_of_apart (.inl ?_)
      · rw [length_head]
      · rw [length_head]
        unfold phTag
        omega
    · rw [Nat.zero_add, length_head]
      exact at_copy.copy_of_apart (.inl (by rw [hbe]; unfold phTag; omega))
    · rw [Nat.zero_add, length_head, hbe]
      exact at_copy
    · rw [Nat.zero_add, length_head, hbe]
      refine (hmoved.copy_of_apart (.inr ?_)).copy_of_apart (.inr (Nat.le_refl _))
      rw [hbe]
      unfold phTag
      omega
  · show skb.len + l.length = _
    rw [h.len]
    simp only [List.length_append, hbe]
    omega

end Skb

/-! ### Insertion -/

section
variable {skb : Skb} {f g : PppoeFrame} {tags : List PppoeTag} {pad : Nat} {value : List UInt8} {mac : MacAddr}

theorem split_of_find {t : PppoeTag} (h : tags.find? PppoeTag.isRelay = some t) :
    t.isRelay = true ∧ ∃ pre post, tags = pre ++ t :: post ∧ ∀ u ∈ pre, u.isRelay = false := by
  obtain ⟨ht, pre, post, rfl, hpre⟩ := List.find?_eq_some_iff_append.1 h
  refine ⟨ht, pre, post, rfl, fun u hu => ?_⟩
  have := hpre u hu
  rwa [Bool.not_eq_true'] at this

/-- There is no relay tag, or there is a first one. -/
theorem relay_split (tags : List PppoeTag) :
    (relayValue tags = none ∧ ∀ t ∈ tags, t.isRelay = false) ∨
      ∃ pre t post, tags = pre ++ t :: post ∧ (∀ t ∈ pre, t.isRelay = false) ∧ t.isRelay = true ∧
        tags.find? PppoeTag.isRelay = some t ∧ relayValue tags = some t.value := by
  unfold relayValue
  cases hfind : tags.find? PppoeTag.isRelay with
  | none =>
    refine .inl ⟨rfl, fun t ht => ?_⟩
    exact Bool.not_eq_true _ ▸ List.find?_eq_none.1 hfind t ht
  | some t =>
    obtain ⟨ht, pre, post, rfl, hpre⟩ := split_of_find hfind
    exact .inr ⟨pre, t, post, rfl, hpre, ht, rfl, rfl⟩

/-- What the packet has without its relay tag. -/
def PppoeFrame.cut (f : PppoeFrame) : PppoeFrame := { f with tags := replaceRelay [] f.tags }

theorem cutOldTag_eq (h : skb.Carries f pad) (hfits : (tagBytes f.tags).length < 65536)
    (hold : ∀ v, relayValue f.tags = some v → v.length ≤ 28) (tag : Nat → UInt8) :
    ∃ tag' skb', cutOldTag tag skb = some (tag', ((relayValue f.tags).getD []).length, skb') ∧
      skb'.Carries f.cut pad ∧ At tag' 12 ((relayValue f.tags).getD []) ∧
      skb'.tailroom + (tagBytes f.cut.tags).length = skb.tailroom + (tagBytes f.tags).length := by
  have hph : phLength skb.mem = (tagBytes f.tags).length := h.phLength_eq hfits
  have hat : At skb.mem phTag (tagBytes f.tags) := h.at_tag
  unfold cutOldTag
  rcases relay_split f.tags with ⟨hnone, hall⟩ | ⟨pre, t, post, htags, hpre, ht, -, hvalue⟩
  · have hsame : f.cut = f := by
      unfold PppoeFrame.cut
      rw [replaceRelay_of_none hall]
    rw [findPppoeTag_none hat hall hph (by omega), hnone, hsame]
    exact ⟨tag, skb, rfl, h, trivial, rfl⟩
  · have hrest : f.cut.tags = pre ++ post := by
      show replaceRelay [] f.tags = _
      rw [htags, replaceRelay_append hpre ht, List.nil_append]
    have hsplit : tagBytes f.tags = tagBytes pre ++ (t.bytes ++ tagBytes post) := by
      rw [htags, tagBytes_append, tagBytes_cons]
    have hrestBytes : tagBytes f.cut.tags = tagBytes pre ++ tagBytes post := by rw [hrest, tagBytes_append]
    have hlen := t.length_bytes
    have hsum : (tagBytes f.tags).length = (tagBytes pre).length + (t.bytes.length + (tagBytes post).length) := by
      rw [hsplit, List.length_append, List.length_append]
    have hsum' : (tagBytes f.cut.tags).length = (tagBytes pre).length + (tagBytes post).length := by
      rw [hrestBytes, List.length_append]
    have htag : At skb.mem (phTag + (tagBytes pre).length) t.bytes := by
      rw [hsplit] at hat
      exact (at_append.1 (at_append.1 hat).2).1
    have hvalueLen : get16 skb.mem (phTag + (tagBytes pre).length + 2) = t.value.length :=
      length_of_at htag (by omega)
    have hbytes : bytesFrom skb.mem (phTag + (tagBytes pre).length + tagHdrLen) t.value.length = t.value := by
      have hval := (at_append.1 (at_append.1 htag).2).2
      exact hval.eq_map
    have hhas : skb.Has (f.head ++ (be16 (tagBytes f.tags).length ++ (tagBytes pre ++ (t.bytes ++ tagBytes post)))) pad := by
      rw [← hsplit]
      exact h
    obtain ⟨skb', hpull, hph', hroom, hset⟩ := hhas.cutTags (by omega) (by omega)
    rw [hlen] at hpull hset
    have hlast : (tagBytes f.tags).length + 0x10000 - tagHdrLen - t.value.length =
        (tagBytes f.tags).length + 0x10000 - (tagHdrLen + t.value.length) := by omega
    have hcutLen : (tagBytes f.tags).length - (tagHdrLen + t.value.length) = (tagBytes f.cut.tags).length := by omega
    have hfit : ¬t.value.length + tagHdrLen + magicCodeLen + rtlRelayTagLen > 40 := by
      have := hold t.value hvalue
      unfold tagHdrLen magicCodeLen rtlRelayTagLen
      omega
    rw [findPppoeTag_some (htags ▸ hat) hpre ht (by rw [hph, htags]) (by omega)]
    dsimp only
    rw [hvalueLen, hbytes, hpull, if_neg hfit, Option.map_some, hph', hlast, hvalue]
    refine ⟨_, _, rfl, ?_, at_copy, ?_⟩
    · rw [hcutLen, ← hrestBytes] at hset
      exact hset
    · show skb'.tailroom + _ = _
      omega

theorem length_relay_value (mac : MacAddr) (value : List UInt8) :
    (PppoeTag.relay mac value).value.length = magicCodeLen + rtlRelayTagLen + value.length := by
  show (be16 magicCode ++ (mac.toList ++ value)).length = _
  rw [List.length_append, List.length_append, Vector.length_toList]
  show 2 + (6 + _) = 2 + 6 + _
  omega

theorem Skb.Carries.at_src (h : skb.Carries f pad) : bytesFrom skb.mem 6 6 = f.src.toList := by
  obtain ⟨hhead, -⟩ := at_append.1 h.mem
  have hsrc := (at_append.1 (at_append.1 hhead).2).1
  rw [Vector.length_toList] at hsrc
  have := hsrc.eq_map
  rwa [Vector.length_toList] at this

/-- The tag that is put in has the address of the client and the old value. -/
theorem fillTag_at (h : skb.Carries f pad) {tag : Nat → UInt8} (hold : At tag 12 value) :
    At (fillTag tag value.length skb) 0 (PppoeTag.relay f.src value).bytes := by
  have hbe : ∀ m, (be16 m).length = 2 := fun _ => rfl
  have hmac : f.src.toList.length = 6 := Vector.length_toList
  unfold PppoeTag.bytes
  rw [length_relay_value]
  unfold fillTag
  dsimp only
  rw [h.at_src]
  refine at_append.2 ⟨?_, at_append.2 ⟨?_, at_append.2 ⟨?_, at_append.2 ⟨?_, ?_⟩⟩⟩⟩
  · refine ((at_copy.copy_of_apart (.inl ?_)).copy_of_apart (.inl ?_)).copy_of_apart (.inl ?_)
    all_goals decide
  · refine (at_copy.copy_of_apart (.inl ?_)).copy_of_apart (.inl ?_)
    · exact Nat.le_refl 4
    · exact Nat.le_add_right 4 2
  · refine at_copy.copy_of_apart (.inl ?_)
    decide
  · exact at_copy
  · rw [hbe, hbe, hbe, hmac]
    refine (((hold.copy_of_apart (.inr ?_)).copy_of_apart (.inr ?_)).copy_of_apart (.inr ?_)).copy_of_apart (.inr ?_)
    · rw [hbe]
      decide
    · rw [hbe]
      decide
    · rw [hbe]
      decide
    · rw [hmac]
      decide

/-- How long the code takes the new tag for: of a big-endian processor as long as it is. -/
theorem hostU16_fillTag (h : skb.Carries f pad) {tag : Nat → UInt8} (hold : At tag 12 value) (hfits : value.length ≤ 28)
    (bigEndian : Bool) : hostU16 (fillTag tag value.length skb) bigEndian 2 =
      (magicCodeLen + rtlRelayTagLen + value.length) * if bigEndian then 1 else 256 := by
  have hat := (at_append.1 (at_append.1 (fillTag_at h hold)).2).1
  rw [length_relay_value] at hat
  obtain ⟨hhi, hlo, -⟩ := hat
  have hhi : fillTag tag value.length skb 2 = UInt8.ofNat ((magicCodeLen + rtlRelayTagLen + value.length) / 256) := hhi
  have hlo : fillTag tag value.length skb 3 = UInt8.ofNat (magicCodeLen + rtlRelayTagLen + value.length) := hlo
  unfold hostU16 get16
  rw [hhi, hlo, UInt8.toNat_ofNat', UInt8.toNat_ofNat']
  unfold magicCodeLen rtlRelayTagLen
  cases bigEndian with
  | true =>
    rw [if_pos rfl, if_pos rfl]
    omega
  | false =>
    rw [if_neg Bool.false_ne_true, if_neg Bool.false_ne_true]
    omega

end

/-- The packet as the bridge sends it on: its relay tag is replaced by one with the address of the client. -/
def PppoeFrame.withRelay (f : PppoeFrame) : PppoeFrame :=
  { f with tags := PppoeTag.relay f.src ((relayValue f.tags).getD []) :: replaceRelay [] f.tags }

/-- The answer as the client gets it: its relay tag is the one that the client has sent. -/
def PppoeFrame.answer (g : PppoeFrame) (mac : MacAddr) (old : Option (List UInt8)) : PppoeFrame :=
  { g with dst := mac, tags := replaceRelay (old.toList.map (PppoeTag.mk 0x0110)) g.tags }

section
variable {w : Nat} (env : PppoeEnv) (s : PppoeAdapter w) (jiffies : BitVec w)

/-- `nat25_db_handle` turns the packet in the buffer into `f`. -/
def Turns (skb : Skb) (method : Nat25Method) (f : PppoeFrame) (pad : Nat) : Prop :=
  (nat25DbHandlePppoe env s skb jiffies method).2.2 = 0 ∧
    (nat25DbHandlePppoe env s skb jiffies method).2.1.Carries f pad

variable {env s jiffies} {skb : Skb} {f g : PppoeFrame} {pad : Nat} {mac : MacAddr} {old : Option (List UInt8)}

theorem Skb.Carries.code_eq (h : skb.Carries f pad) : skb.mem (phOff + 1) = f.code := by
  obtain ⟨hhead, -⟩ := at_append.1 h.mem
  have hrest := (at_append.1 (at_append.1 hhead).2).2
  rw [Vector.length_toList, Vector.length_toList] at hrest
  exact hrest.2.2.2.1

theorem Skb.Carries.sid_eq (h : skb.Carries f pad) : get16 skb.mem (phOff + 2) = f.sid.toNat := by
  obtain ⟨hhead, -⟩ := at_append.1 h.mem
  have hrest := (at_append.1 (at_append.1 hhead).2).2
  rw [Vector.length_toList, Vector.length_toList] at hrest
  have hsid := (at_append.1 hrest).2
  exact get16_of_at (l := []) (by rwa [List.append_nil]) f.sid.toNat_lt

theorem PppoeFrame.length_bytes (f : PppoeFrame) : f.bytes.length = 20 + (tagBytes f.tags).length := by
  unfold PppoeFrame.bytes
  rw [List.length_append, List.length_append, Skb.length_head]
  show 18 + (2 + _) = _
  omega

/-- The relay tag gets into a PADI or PADR packet if the processor is big-endian. -/
theorem insert_iff (hs : s.addPPPoETag = true) (h : skb.Carries f pad) (hcode : f.code = padiCode ∨ f.code = padrCode)
    (hsid : f.sid = 0) (hfits : (tagBytes f.tags).length ≤ 1494)
    (hold : ∀ v, relayValue f.tags = some v → v.length ≤ 28)
    (hroom : f.withRelay.bytes.length ≤ skb.tailroom + f.bytes.length) :
    Turns env s jiffies skb .insert f.withRelay pad ↔ env.bigEndian = true := by
  have hrun : nat25DbHandlePppoe env s skb jiffies .insert = (s, insertRelayTag env skb) := by
    have hsid0 : f.sid.toNat = 0 := by rw [hsid]; rfl
    unfold nat25DbHandlePppoe
    dsimp only
    rw [h.sid_eq, h.code_eq, if_pos hsid0, if_pos hcode, if_pos hs]
  unfold Turns
  rw [hrun]
  dsimp only
  obtain ⟨tag, skb', hcut, hcarries, hvalue, htail⟩ := cutOldTag_eq h (by omega) hold env.stack
  unfold insertRelayTag
  rw [hcut]
  dsimp only
  set v := (relayValue f.tags).getD [] with hv
  have hlen28 : v.length ≤ 28 := by
    rw [hv]
    cases hr : relayValue f.tags with
    | none => exact Nat.zero_le _
    | some v => exact hold v hr
  have hmac : f.cut.src = f.src := rfl
  have hfill := fillTag_at hcarries hvalue
  have hhost := hostU16_fillTag hcarries hvalue hlen28 env.bigEndian
  rw [hmac] at hfill
  have hrelayLen : (PppoeTag.relay f.src v).bytes.length = 12 + v.length := by
    rw [PppoeTag.length_bytes, length_relay_value]
    unfold tagHdrLen magicCodeLen rtlRelayTagLen
    omega
  have hnewTags : tagBytes f.withRelay.tags = (PppoeTag.relay f.src v).bytes ++ tagBytes f.cut.tags := tagBytes_cons
  have hnewLen : (tagBytes f.withRelay.tags).length = 12 + v.length + (tagBytes f.cut.tags).length := by
    rw [hnewTags, List.length_append, hrelayLen]
  rw [f.length_bytes, f.withRelay.length_bytes] at hroom
  cases hendian : env.bigEndian with
  | true =>
    rw [hendian, if_pos rfl, Nat.mul_one] at hhost
    have hcutLen : (tagBytes f.cut.tags).length < 65536 := by
      have hle : (tagBytes f.cut.tags).length ≤ _ := length_replaceRelay_le f.tags
      omega
    have hdataLen : hostU16 (fillTag tag v.length skb') true 2 + tagHdrLen = (PppoeTag.relay f.src v).bytes.length := by
      rw [hhost, hrelayLen]
      unfold tagHdrLen magicCodeLen rtlRelayTagLen
      omega
    obtain ⟨skb'', hadd, hhas⟩ := Skb.Has.addPppoeTag hcarries hcutLen hfill hdataLen (by omega)
    rw [hadd]
    refine iff_of_true ⟨rfl, ?_⟩ rfl
    show skb''.Has f.withRelay.bytes pad
    have hbytes : f.withRelay.bytes = f.cut.head ++ (be16 ((tagBytes f.cut.tags).length +
        (PppoeTag.relay f.src v).bytes.length) ++ ((PppoeTag.relay f.src v).bytes ++ tagBytes f.cut.tags)) := by
      unfold PppoeFrame.bytes
      rw [hnewTags, List.length_append, Nat.add_comm (PppoeTag.relay f.src v).bytes.length]
      rfl
    rw [hbytes]
    exact hhas
  | false =>
    -- The length is taken for 256 times what it is.
    rw [hendian, if_neg Bool.false_ne_true] at hhost
    refine iff_of_false ?_ Bool.false_ne_true
    rintro ⟨hret, hbad⟩
    cases hadd : skb'.addPppoeTag false (fillTag tag v.length skb') with
    | none =>
      rw [hadd] at hret
      have hret : (-1 : Int) = 0 := hret
      exact absurd hret (by decide)
    | some skb'' =>
      rw [hadd] at hbad
      have hbadLen : skb''.len = 20 + (tagBytes f.withRelay.tags).length + pad := by
        rw [← f.withRelay.length_bytes]
        exact hbad.len
      have hcutLen : skb'.len = 20 + (tagBytes f.cut.tags).length + pad := by
        rw [← f.cut.length_bytes]
        exact hcarries.len
      unfold Skb.addPppoeTag at hadd
      dsimp only at hadd
      split at hadd
      · cases hadd
      · obtain rfl := Option.some_inj.1 hadd
        have hbadLen : skb'.len + (hostU16 (fillTag tag v.length skb') false 2 + tagHdrLen) = _ := hbadLen
        rw [hhost, hcutLen, hnewLen] at hbadLen
        unfold tagHdrLen magicCodeLen rtlRelayTagLen at hbadLen
        omega

theorem Skb.Carries.setDst (h : skb.Carries g pad) (mac : MacAddr) :
    (skb.setMem (copy 0 mac.toList skb.mem)).Carries { g with dst := mac } pad := by
  have hbytes : ∀ m : MacAddr, PppoeFrame.bytes { g with dst := m } = [] ++ (m.toList ++
      ((g.src.toList ++ ([0x88, 0x63, 0x11, g.code] ++ be16 g.sid.toNat)) ++
        (be16 (tagBytes g.tags).length ++ tagBytes g.tags))) := fun m => List.append_assoc ..
  have hold : skb.Has (PppoeFrame.bytes { g with dst := g.dst }) pad := h
  rw [hbytes] at hold
  have hput := hold.put (l := mac.toList) (by rw [Vector.length_toList, Vector.length_toList])
  rw [← hbytes] at hput
  exact hput

/-- What is left of the relay tag in the answer: a tag with the old value, or none if that is empty. -/
def restTag (value : List UInt8) : List PppoeTag := if value = [] then [] else [⟨0x0110, value⟩]

/-- The header of the relay tag stays for the old value. -/
theorem lookup_keep {skb : Skb} {g : PppoeFrame} {pad n : Nat} {pre post value : List UInt8}
    (h : skb.Has (g.head ++ (be16 n ++ (pre ++ ((PppoeTag.relay mac value).bytes ++ post)))) pad) (hn : n < 65536)
    (hlen : n = pre.length + ((PppoeTag.relay mac value).bytes.length + post.length)) (hvalue : value.length < 65528) :
    ∃ skb' : Skb, skb.pullAndMerge (phTag + pre.length + tagHdrLen) 8 = some skb' ∧ phLength skb'.mem = n ∧
      ((skb'.setPhLength (n + 0x10000 - 8)).setMem (copy (phTag + pre.length + 2) (be16 value.length)
        (skb'.setPhLength (n + 0x10000 - 8)).mem)).Has
          (g.head ++ (be16 (n - 8) ++ (pre ++ ((⟨0x0110, value⟩ : PppoeTag).bytes ++ post)))) pad := by
  have hbe : ∀ m, (be16 m).length = 2 := fun _ => rfl
  have hmac : mac.toList.length = 6 := Vector.length_toList
  have hold : 8 ≤ n := by
    rw [PppoeTag.length_bytes, length_relay_value] at hlen
    unfold tagHdrLen magicCodeLen rtlRelayTagLen at hlen
    omega
  have hbytes : pre ++ ((PppoeTag.relay mac value).bytes ++ post) =
      (pre ++ (be16 pttRelaySid ++ be16 (PppoeTag.relay mac value).value.length)) ++
        ((be16 magicCode ++ mac.toList) ++ (value ++ post)) := by
    show pre ++ ((be16 pttRelaySid ++ (_ ++ (be16 magicCode ++ (mac.toList ++ value)))) ++ post) = _
    simp only [List.append_assoc]
  rw [hbytes] at h
  have hcut : (be16 magicCode ++ mac.toList).length = 8 := by rw [List.length_append, hmac]; rfl
  obtain ⟨skb', hpull, hph, -, hset⟩ := h.cutTags hn (by omega)
  have hsrc : phTag + (pre ++ (be16 pttRelaySid ++ be16 (PppoeTag.relay mac value).value.length)).length =
      phTag + pre.length + tagHdrLen := by
    rw [List.length_append, Nat.add_assoc]
    rfl
  rw [hcut] at hpull hset
  rw [hsrc] at hpull
  refine ⟨skb', hpull, hph, ?_⟩
  have hassoc : g.head ++ (be16 (n - 8) ++ ((pre ++ (be16 pttRelaySid ++ be16 (PppoeTag.relay mac value).value.length)) ++
      (value ++ post))) = (g.head ++ (be16 (n - 8) ++ (pre ++ be16 pttRelaySid))) ++
        (be16 (PppoeTag.relay mac value).value.length ++ (value ++ post)) := by
    simp only [List.append_assoc]
  rw [hassoc] at hset
  have hput := hset.put (l := be16 value.length) rfl
  have hat : (g.head ++ (be16 (n - 8) ++ (pre ++ be16 pttRelaySid))).length = phTag + pre.length + 2 := by
    simp only [List.length_append, Skb.length_head, hbe]
    unfold phTag
    omega
  rw [hat] at hput
  have hfinal : (g.head ++ (be16 (n - 8) ++ (pre ++ be16 pttRelaySid))) ++ (be16 value.length ++ (value ++ post)) =
      g.head ++ (be16 (n - 8) ++ (pre ++ ((⟨0x0110, value⟩ : PppoeTag).bytes ++ post))) := by
    show _ = g.head ++ (be16 (n - 8) ++ (pre ++ ((be16 pttRelaySid ++ (be16 value.length ++ value)) ++ post)))
    simp only [List.append_assoc]
  rw [← hfinal]
  exact hput

/-- The answer gets the address of the client, and the relay tag loses it. -/
theorem lookupRelayTag_eq {value : List UInt8} (h : skb.Carries g pad) (hfits : (tagBytes g.tags).length ≤ 1494)
    (hecho : g.tags.find? PppoeTag.isRelay = some (.relay mac value)) : (lookupRelayTag skb).2 = 0 ∧
      (lookupRelayTag skb).1.Carries { g with dst := mac, tags := replaceRelay (restTag value) g.tags } pad := by
  obtain ⟨ht, pre, post, htags, hpre⟩ := split_of_find hecho
  have hph : phLength skb.mem = (tagBytes g.tags).length := h.phLength_eq (by omega)
  have hat : At skb.mem phTag (tagBytes g.tags) := h.at_tag
  have hsplit : tagBytes g.tags = tagBytes pre ++ ((PppoeTag.relay mac value).bytes ++ tagBytes post) := by
    rw [htags, tagBytes_append, tagBytes_cons]
  have hrelayLen := PppoeTag.length_bytes (.relay mac value)
  rw [length_relay_value] at hrelayLen
  have hrelayLen : (PppoeTag.relay mac value).bytes.length = 12 + value.length := by
    rw [hrelayLen]
    unfold tagHdrLen magicCodeLen rtlRelayTagLen
    omega
  have hsum : (tagBytes g.tags).length = (tagBytes pre).length + ((PppoeTag.relay mac value).bytes.length +
      (tagBytes post).length) := by
    rw [hsplit, List.length_append, List.length_append]
  -- What is read of the tag.
  have htag : At skb.mem (phTag + (tagBytes pre).length) (PppoeTag.relay mac value).bytes := by
    rw [hsplit] at hat
    exact (at_append.1 (at_append.1 hat).2).1
  have htype : get16 skb.mem (phTag + (tagBytes pre).length) = pttRelaySid := type_of_at htag
  have hlen : get16 skb.mem (phTag + (tagBytes pre).length + 2) = 8 + value.length := by
    rw [length_of_at htag (by rw [length_relay_value]; unfold magicCodeLen rtlRelayTagLen; omega), length_relay_value]
    rfl
  have hval := (at_append.1 (at_append.1 htag).2).2
  have hmagic : get16 skb.mem (phTag + (tagBytes pre).length + tagHdrLen) = magicCode :=
    get16_of_at hval (by decide)
  have hmac : bytesFrom skb.mem (phTag + (tagBytes pre).length + tagHdrLen + magicCodeLen) 6 = mac.toList := by
    have hmac := (at_append.1 (at_append.1 hval).2).1.eq_map
    rwa [Vector.length_toList] at hmac
  -- The address of the client is put in.
  have hdst := h.setDst mac
  have hhas : (skb.setMem (copy 0 mac.toList skb.mem)).Has (PppoeFrame.head { g with dst := mac } ++
      (be16 (tagBytes g.tags).length ++ (tagBytes pre ++ ((PppoeTag.relay mac value).bytes ++ tagBytes post)))) pad := by
    rw [← hsplit]
    exact hdst
  have hnew : replaceRelay (restTag value) g.tags = pre ++ (restTag value ++ post) := by
    rw [htags, replaceRelay_append hpre ht]
  unfold lookupRelayTag
  rw [findPppoeTag_some (htags ▸ hat) hpre ht (by rw [hph, htags]) (by omega)]
  dsimp only
  rw [htype, hlen, hmagic, hmac, if_neg (by unfold magicCodeLen rtlRelayTagLen; omega), if_neg (not_not_intro rfl), hnew]
  unfold restTag
  by_cases hempty : value = []
  · subst hempty
    obtain ⟨skb', hpull, hph', -, hset⟩ := hhas.cutTags (by omega) (by omega)
    rw [hrelayLen] at hpull hset
    have hoffset : ¬8 + ([] : List UInt8).length > magicCodeLen + rtlRelayTagLen := by decide
    rw [if_neg hoffset, if_pos rfl, List.nil_append]
    have hpull : Skb.pullAndMerge (skb.setMem (copy 0 mac.toList skb.mem)) (phTag + (tagBytes pre).length + 0)
        (tagHdrLen + magicCodeLen + rtlRelayTagLen - 0) = some skb' := hpull
    rw [hpull]
    dsimp only
    rw [hph', if_neg (lt_irrefl 0)]
    refine ⟨rfl, ?_⟩
    have hcount : (tagBytes g.tags).length - (12 + ([] : List UInt8).length) = (tagBytes (pre ++ post)).length := by
      rw [tagBytes_append, List.length_append]
      omega
    rw [hcount, ← tagBytes_append] at hset
    exact hset
  · obtain ⟨skb', hpull, hph', hset⟩ := lookup_keep hhas (by omega) hsum (by omega)
    have hpos : 0 < value.length := List.length_pos_of_ne_nil hempty
    have hoffset : 8 + value.length > magicCodeLen + rtlRelayTagLen := by
      unfold magicCodeLen rtlRelayTagLen
      omega
    rw [if_pos hoffset, if_neg hempty]
    have hpull : Skb.pullAndMerge (skb.setMem (copy 0 mac.toList skb.mem)) (phTag + (tagBytes pre).length + tagHdrLen)
        (tagHdrLen + magicCodeLen + rtlRelayTagLen - tagHdrLen) = some skb' := hpull
    rw [hpull]
    dsimp only
    rw [hph', if_pos (by decide)]
    refine ⟨rfl, ?_⟩
    have hleft : 8 + value.length - magicCodeLen - rtlRelayTagLen = value.length := by
      unfold magicCodeLen rtlRelayTagLen
      omega
    have hcount : (tagBytes g.tags).length - 8 = (tagBytes (pre ++ ([⟨0x0110, value⟩] ++ post))).length := by
      rw [tagBytes_append, tagBytes_append, List.length_append, List.length_append]
      show _ = _ + (((⟨0x0110, value⟩ : PppoeTag).bytes ++ []).length + _)
      rw [List.append_nil, PppoeTag.length_bytes]
      unfold tagHdrLen
      dsimp only
      omega
    have hbytes : tagBytes pre ++ ((⟨0x0110, value⟩ : PppoeTag).bytes ++ tagBytes post) =
        tagBytes (pre ++ ([⟨0x0110, value⟩] ++ post)) := by
      rw [tagBytes_append, tagBytes_append]
      show _ = _ ++ (((⟨0x0110, value⟩ : PppoeTag).bytes ++ []) ++ _)
      rw [List.append_nil]
    rw [hcount, hbytes] at hset
    rw [hleft]
    exact hset

/-- The client gets back what it has sent, unless that was a relay tag without a value. -/
theorem lookup_iff (hs : s.addPPPoETag = true) (h : skb.Carries g pad) (hcode : g.code = padoCode ∨ g.code = padsCode)
    (hfits : (tagBytes g.tags).length ≤ 1494)
    (hecho : g.tags.find? PppoeTag.isRelay = some (.relay mac (old.getD []))) :
    Turns env s jiffies skb .lookup (g.answer mac old) pad ↔ old ≠ some [] := by
  have hrun : nat25DbHandlePppoe env s skb jiffies .lookup = (s, lookupRelayTag skb) := by
    unfold nat25DbHandlePppoe
    dsimp only
    rw [h.code_eq, if_pos hcode, if_pos hs]
  obtain ⟨hret, hcarries⟩ := lookupRelayTag_eq h hfits hecho
  unfold Turns
  rw [hrun]
  dsimp only
  rw [and_iff_right hret]
  constructor
  · -- Then the length says that there is a tag, and there is none.
    rintro hanswer rfl
    obtain ⟨ht, pre, post, htags, hpre⟩ := split_of_find hecho
    have hlen := hcarries.len.symm.trans hanswer.len
    rw [PppoeFrame.length_bytes, PppoeFrame.length_bytes] at hlen
    unfold PppoeFrame.answer at hlen
    dsimp only at hlen
    rw [htags, replaceRelay_append hpre ht, replaceRelay_append hpre ht] at hlen
    simp only [tagBytes_append, List.length_append] at hlen
    have hnone : (tagBytes (restTag ((some ([] : List UInt8)).getD []))).length = 0 := rfl
    have hone : (tagBytes ((some ([] : List UInt8)).toList.map (PppoeTag.mk 0x0110))).length = 4 := rfl
    omega
  · intro hne
    have hrest : restTag (old.getD []) = old.toList.map (PppoeTag.mk 0x0110) := by
      cases old with
      | none => rfl
      | some value => exact if_neg fun h => hne (congrArg some h)
    rw [hrest] at hcarries
    exact hcarries

/-- The relay tag goes into what the client sends, and comes out of the answer that echoes it, if and only if the
processor is big-endian and the client has not sent a relay tag without a value. -/
theorem relay_iff {skb' : Skb} {pad' : Nat} (hs : s.addPPPoETag = true) (hf : skb.Carries f pad)
    (hfcode : f.code = padiCode ∨ f.code = padrCode) (hsid : f.sid = 0) (hfits : (tagBytes f.tags).length ≤ 1494)
    (hold : ∀ v, relayValue f.tags = some v → v.length ≤ 28)
    (hroom : f.withRelay.bytes.length ≤ skb.tailroom + f.bytes.length) (hg : skb'.Carries g pad')
    (hgcode : g.code = padoCode ∨ g.code = padsCode) (hgfits : (tagBytes g.tags).length ≤ 1494)
    (hecho : g.tags.find? PppoeTag.isRelay = some (.relay f.src ((relayValue f.tags).getD []))) :
    Turns env s jiffies skb .insert f.withRelay pad ∧
      Turns env s jiffies skb' .lookup (g.answer f.src (relayValue f.tags)) pad' ↔
    env.bigEndian = true ∧ relayValue f.tags ≠ some [] :=
  and_congr (insert_iff hs hf hfcode hsid hfits hold hroom) (lookup_iff hs hg hgcode hgfits hecho)

end

/-- A buffer with a packet and nothing behind it. -/
def PppoeFrame.buffer (f : PppoeFrame) (tailroom : Nat) : Skb := ⟨fun i => f.bytes.getD i 0, f.bytes.length, tailroom⟩

theorem PppoeFrame.carries_buffer (f : PppoeFrame) (tailroom : Nat) : (f.buffer tailroom).Carries f 0 := ⟨at_getD, rfl⟩

/-- A PADI packet with a service name and a relay tag, and the answer to it. -/
def padi : PppoeFrame := ⟨.replicate 6 0xff, .replicate 6 0x16, padiCode, 0, [⟨0x0101, []⟩, ⟨0x0110, [7]⟩]⟩

def pado : PppoeFrame :=
  ⟨.replicate 6 0x1a, .replicate 6 0x1c, padoCode, 0, [.relay (.replicate 6 0x16) [7], ⟨0x0102, [0x61]⟩]⟩

def pppoeAdapter : PppoeAdapter 32 := ⟨.init, true, 0, .replicate 6 0⟩

theorem relay_iff_padi : Turns ⟨true, 100, .behind, fun _ => 0⟩ pppoeAdapter 0 (padi.buffer 12) .insert padi.withRelay 0 ∧
      Turns ⟨true, 100, .behind, fun _ => 0⟩ pppoeAdapter 0 (pado.buffer 12) .lookup
        (pado.answer padi.src (relayValue padi.tags)) 0 ↔
    true = true ∧ relayValue padi.tags ≠ some [] :=
  relay_iff rfl (padi.carries_buffer 12) (.inl rfl) rfl (by decide)
    (fun v hv => by
      obtain rfl : [7] = v := Option.some_inj.1 hv
      decide)
    (by decide) (pado.carries_buffer 12) (.inl rfl) (by decide) rfl

/-- On a little-endian processor 9 is read as 2304, and the tag does not fit in. -/
theorem not_turns_littleEndian : ¬∀ (env : PppoeEnv) (s : PppoeAdapter 32) (jiffies : BitVec 32) (skb : Skb)
    (f : PppoeFrame) (pad : Nat), s.addPPPoETag = true → skb.Carries f pad → f.code = padiCode ∨ f.code = padrCode →
      f.sid = 0 → (tagBytes f.tags).length ≤ 1494 → (∀ v, relayValue f.tags = some v → v.length ≤ 28) →
      f.withRelay.bytes.length ≤ skb.tailroom + f.bytes.length → Turns env s jiffies skb .insert f.withRelay pad := by
  intro hall
  have hturns := hall ⟨false, 100, .behind, fun _ => 0⟩ pppoeAdapter 0 (padi.buffer 64) padi 0 rfl
    (padi.carries_buffer 64) (.inl rfl) rfl (by decide)
    (fun v hv => by
      obtain rfl : [7] = v := Option.some_inj.1 hv
      decide) (by decide)
  exact absurd hturns.1 (by decide +kernel)

end Rtw
