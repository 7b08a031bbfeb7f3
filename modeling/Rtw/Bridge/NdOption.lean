import Rtw.Lib.Loop
import Rtw.Lib.Splice
import Rtw.Recv.Frame

/-!
# The link-layer address in neighbour discovery

`update_nd_link_layer_addr` puts the address of this station into an option of an ICMPv6 message, for which `scan_tlv`
walks over the options by their lengths. `ndOk_iff`: it returns and stays inside the message exactly if no option that
the walk comes to has length zero or ends before its length octet; the options of a well-formed message are right.
-/

namespace Rtw
open Access Traced Splice

/-- `data` and `len` of `scan_tlv`. -/
structure TlvCur where
  data : Nat
  len : Int

/-- A round of `scan_tlv`; the length octet is read for the comparison or to go on. -/
def scanTlvRound (mem : Nat → UInt8) (tag len8b : UInt8) (c : TlvCur) : Traced Unit (Round TlvCur (Option Nat)) :=
  if c.len > 0 then do
    touch () (c.data : Nat) 1
    touch () (c.data + 1 : Nat) 1
    let l := (mem (c.data + 1)).toNat * 8
    return if mem c.data = tag ∧ mem (c.data + 1) = len8b ∧ c.len ≥ len8b.toNat * 8 then .stop (some (c.data + 2))
      else .next ⟨c.data + l, c.len - l⟩
  else return .stop none

/-- Where the options of a message begin, and the tag of the one with the address. -/
def ndOption? (icmp6Type : UInt8) : Option (Nat × UInt8) :=
  match icmp6Type.toNat with
  | 133 => some (8, 1)
  | 134 => some (16, 1)
  | 135 => some (24, 1)
  | 136 => some (24, 2)
  | 137 => some (40, 2)
  | _ => none

/-- `update_nd_link_layer_addr`, with `fuel` rounds for `scan_tlv`: the memory from the message on, and the result. -/
def updateNdLinkLayerAddrT (mem : Nat → UInt8) (len : Nat) (replaceMac : MacAddr) (fuel : Nat) :
    Traced Unit (Option ((Nat → UInt8) × Bool)) := do
  touch () 0 1
  match ndOption? (mem 0) with
  | none => return some (mem, false)
  | some (hdr, tag) =>
    if hdr ≤ len then
      match ← loopT (scanTlvRound mem tag 1) fuel ⟨hdr, len - hdr⟩ with
      | none => return none
      | some none => return some (mem, false)
      | some (some mac) =>
        touch () (mac : Nat) 6
        return some (copy mac replaceMac.toList mem, true)
    else return some (mem, false)

/-- An option with its length in units of 8 bytes. -/
structure NdOpt where
  tag : UInt8
  len8b : UInt8
  body : List UInt8
  ne_zero : len8b ≠ 0
  length_body : body.length + 2 = 8 * len8b.toNat

def NdOpt.bytes (o : NdOpt) : List UInt8 := o.tag :: o.len8b :: o.body

/-- The option with the address. -/
def NdOpt.IsLla (tag : UInt8) (o : NdOpt) : Prop := o.tag = tag ∧ o.len8b = 1

def ndBytes (opts : List NdOpt) : List UInt8 := opts.flatMap NdOpt.bytes

/-- The function returns, it touches only the message, and where the options are well formed it writes the address
over that of the first option for it. -/
structure NdOk (mem : Nat → UInt8) (len : Nat) (mac : MacAddr) : Prop where
  returns : ∃ fuel, (updateNdLinkLayerAddrT mem len mac fuel).val ≠ none
  inside : ∀ fuel, Within (fun _ => len) (updateNdLinkLayerAddrT mem len mac fuel)
  replaced : ∀ fuel r hdr tag opts, (updateNdLinkLayerAddrT mem len mac fuel).val = some r →
    ndOption? (mem 0) = some (hdr, tag) → At mem hdr (ndBytes opts) → hdr + (ndBytes opts).length = len →
      (∀ pre o post, opts = pre ++ o :: post → (∀ x ∈ pre, ¬ x.IsLla tag) → o.IsLla tag →
        r = (copy (hdr + (ndBytes pre).length + 2) mac.toList mem, true)) ∧
      ((∀ o ∈ opts, ¬ o.IsLla tag) → r = (mem, false))

/-- An option for the address, with room for it. -/
def LlaAt (mem : Nat → UInt8) (len : Nat) (tag : UInt8) (pos : Nat) : Prop :=
  mem pos = tag ∧ mem (pos + 1) = 1 ∧ pos + 8 ≤ len

instance (mem : Nat → UInt8) (len : Nat) (tag : UInt8) (pos : Nat) : Decidable (LlaAt mem len tag pos) :=
  inferInstanceAs (Decidable (_ ∧ _))

/-- Options begin at `pos`, one behind the other from `hdr` on, without one for the address before. -/
inductive OptBegins (mem : Nat → UInt8) (len hdr : Nat) (tag : UInt8) : Nat → Prop where
  | first : OptBegins mem len hdr tag hdr
  | behind {pos : Nat} (h : OptBegins mem len hdr tag pos) (hlt : pos < len) (hlla : ¬ LlaAt mem len tag pos) :
    OptBegins mem len hdr tag (pos + 8 * (mem (pos + 1)).toNat)

section
variable {mem : Nat → UInt8} {len hdr pos fuel : Nat} {tag : UInt8} {mac : MacAddr} {c : TlvCur}

/-- The cursor at `pos` of a message of `len` bytes. -/
def tlvCur (len pos : Nat) : TlvCur := ⟨pos, len - pos⟩

theorem scanTlvRound_of_le (h : len ≤ pos) : scanTlvRound mem tag 1 (tlvCur len pos) = pure (.stop none) := by
  refine if_neg ?_
  show ¬ (len : Int) - pos > 0
  omega

theorem val_scanTlvRound (h : pos < len) : (scanTlvRound mem tag 1 (tlvCur len pos)).val =
    if LlaAt mem len tag pos then .stop (some (pos + 2))
    else .next (tlvCur len (pos + 8 * (mem (pos + 1)).toNat)) := by
  have hpos : (tlvCur len pos).len > 0 := by
    show (len : Int) - pos > 0
    omega
  have hlla : (mem (tlvCur len pos).data = tag ∧ mem ((tlvCur len pos).data + 1) = 1 ∧
      (tlvCur len pos).len ≥ (1 : UInt8).toNat * 8) ↔ LlaAt mem len tag pos := by
    refine and_congr_right fun _ => and_congr_right fun _ => ?_
    show (len : Int) - pos ≥ 8 ↔ pos + 8 ≤ len
    omega
  unfold scanTlvRound
  rw [if_pos hpos]
  dsimp only
  rw [val_bind, val_bind, val_pure]
  refine if_congr hlla rfl (congrArg Round.next ?_)
  unfold tlvCur
  dsimp only
  rw [Nat.mul_comm 8, Int.natCast_add, Int.sub_sub]

theorem within_scanTlvRound :
    Within (fun _ => len) (scanTlvRound mem tag 1 (tlvCur len pos)) ↔ (pos < len → pos + 1 < len) := by
  rcases Nat.lt_or_ge pos len with h | h
  · have hpos : (tlvCur len pos).len > 0 := by
      show (len : Int) - pos > 0
      omega
    unfold scanTlvRound
    rw [if_pos hpos]
    dsimp only
    rw [within_bind, within_bind, within_touch_pos Nat.one_ne_zero, within_touch_pos Nat.one_ne_zero,
      and_iff_left within_pure]
    show pos + 1 ≤ len ∧ pos + 1 + 1 ≤ len ↔ _
    omega
  · rw [scanTlvRound_of_le h]
    exact iff_of_true within_pure fun hlt => absurd hlt (Nat.not_lt.2 h)

/-- The cursor stands where options begin. -/
theorem reaches_tlvCur_iff : Reaches (scanTlvRound mem tag 1) (tlvCur len hdr) c ↔
    ∃ pos, c = tlvCur len pos ∧ OptBegins mem len hdr tag pos := by
  constructor
  · intro h
    induction h with
    | start => exact ⟨hdr, rfl, .first⟩
    | next _ hu ih =>
      obtain ⟨pos, rfl, hbegins⟩ := ih
      rcases Nat.lt_or_ge pos len with hlt | hge
      · rw [val_scanTlvRound hlt] at hu
        split at hu
        · cases hu
        · rename_i hlla
          cases hu
          exact ⟨_, rfl, .behind hbegins hlt hlla⟩
      · rw [scanTlvRound_of_le hge] at hu
        cases hu
  · rintro ⟨pos, rfl, hbegins⟩
    induction hbegins with
    | first => exact .start
    | behind _ hlt hlla ih => exact ih.next ((val_scanTlvRound hlt).trans (if_neg hlla))

/-- Options that are all longer than their length octet. -/
def OptsOk (mem : Nat → UInt8) (len hdr : Nat) (tag : UInt8) : Prop :=
  ∀ pos, OptBegins mem len hdr tag pos → pos < len → pos + 1 < len ∧ mem (pos + 1) ≠ 0

theorem scanTlv_iff : ((∃ r, Returns (scanTlvRound mem tag 1) (tlvCur len hdr) r) ∧
    ∀ fuel, Within (fun _ => len) (loopT (scanTlvRound mem tag 1) fuel (tlvCur len hdr))) ↔
      OptsOk mem len hdr tag := by
  rw [within_loopT_iff]
  constructor
  · rintro ⟨⟨r, hr⟩, hin⟩ pos hbegins hlt
    have hreach := reaches_tlvCur_iff.2 ⟨pos, rfl, hbegins⟩
    refine ⟨within_scanTlvRound.1 (hin _ hreach) hlt, fun h0 => ?_⟩
    -- the cursor stays at an option of length zero
    refine not_returns_of_fixed hreach ?_ hr
    have hlla : ¬ LlaAt mem len tag pos := fun h => absurd (h0.symm.trans h.2.1) (by decide)
    rw [val_scanTlvRound hlt, if_neg hlla, h0]
    rfl
  · intro hok
    refine ⟨returns_of_measure (fun c => len - c.data) fun t u ht hu => ?_, fun t ht => ?_⟩
    · obtain ⟨pos, rfl, hbegins⟩ := reaches_tlvCur_iff.1 ht
      rcases Nat.lt_or_ge pos len with hlt | hge
      · rw [val_scanTlvRound hlt] at hu
        split at hu
        · cases hu
        · cases hu
          have hne : (mem (pos + 1)).toNat ≠ 0 := fun h => (hok pos hbegins hlt).2 (UInt8.toNat_inj.1 h)
          show len - (pos + 8 * (mem (pos + 1)).toNat) < len - pos
          omega
      · rw [scanTlvRound_of_le hge] at hu
        cases hu
    · obtain ⟨pos, rfl, hbegins⟩ := reaches_tlvCur_iff.1 ht
      exact within_scanTlvRound.2 fun hlt => (hok pos hbegins hlt).1

theorem length_ndBytes_cons (o : NdOpt) (opts : List NdOpt) :
    (ndBytes (o :: opts)).length = 8 * o.len8b.toNat + (ndBytes opts).length := by
  have ho : o.bytes.length = 8 * o.len8b.toNat := o.length_body
  show (o.bytes ++ ndBytes opts).length = _
  rw [List.length_append, ho]

/-- The walk over well-formed options. -/
theorem returns_scanTlv (opts : List NdOpt) (hat : At mem pos (ndBytes opts))
    (hend : pos + (ndBytes opts).length = len) :
    (∀ pre o post, opts = pre ++ o :: post → (∀ x ∈ pre, ¬ x.IsLla tag) → o.IsLla tag →
      Returns (scanTlvRound mem tag 1) (tlvCur len pos) (some (pos + (ndBytes pre).length + 2))) ∧
    ((∀ o ∈ opts, ¬ o.IsLla tag) → Returns (scanTlvRound mem tag 1) (tlvCur len pos) none) := by
  induction opts generalizing pos with
  | nil =>
    refine ⟨fun pre o post h => ?_, fun _ => ?_⟩
    · exact absurd h.symm (List.append_ne_nil_of_right_ne_nil pre (List.cons_ne_nil o post))
    · have hend : pos = len := hend
      refine (returns_of_stop ?_).2 rfl
      rw [scanTlvRound_of_le (Nat.le_of_eq hend.symm)]
      rfl
  | cons o opts ih =>
    have hne : o.len8b.toNat ≠ 0 := fun h => o.ne_zero (UInt8.toNat_inj.1 h)
    rw [length_ndBytes_cons] at hend
    obtain ⟨ho, hopts⟩ := at_append.1 (show At mem pos (o.bytes ++ ndBytes opts) from hat)
    rw [show o.bytes.length = 8 * o.len8b.toNat from o.length_body] at hopts
    obtain ⟨htag, hlen, -⟩ := ho
    have hlla : LlaAt mem len tag pos ↔ o.IsLla tag := by
      unfold LlaAt NdOpt.IsLla
      rw [htag, hlen]
      refine and_congr_right fun _ => and_iff_left_of_imp fun h1 => ?_
      rw [h1] at hend
      have : (1 : UInt8).toNat = 1 := rfl
      omega
    have hval : (scanTlvRound mem tag 1 (tlvCur len pos)).val = _ := val_scanTlvRound (by omega)
    by_cases hmatch : o.IsLla tag
    · rw [if_pos (hlla.2 hmatch)] at hval
      refine ⟨fun pre x post h hpre _ => ?_, fun h => absurd hmatch (h o List.mem_cons_self)⟩
      cases pre with
      | nil => exact (returns_of_stop hval).2 rfl
      | cons y pre =>
        obtain ⟨rfl, -⟩ := List.cons.inj h
        exact absurd hmatch (hpre _ List.mem_cons_self)
    · rw [if_neg (mt hlla.1 hmatch), hlen] at hval
      obtain ⟨hfound, hnone⟩ := ih hopts (by omega)
      refine ⟨fun pre x post h hpre hx => ?_, fun h => ?_⟩
      · cases pre with
        | nil =>
          obtain ⟨rfl, -⟩ := List.cons.inj h
          exact absurd hx hmatch
        | cons y pre =>
          obtain ⟨rfl, hrest⟩ := List.cons.inj h
          rw [returns_of_next hval, length_ndBytes_cons, ← Nat.add_assoc]
          exact hfound pre x post hrest (fun z hz => hpre z (List.mem_cons_of_mem _ hz)) hx
      · exact (returns_of_next hval).2 (hnone fun x hx => h x (List.mem_cons_of_mem _ hx))

end

section
variable {mem : Nat → UInt8} {len hdr fuel : Nat} {tag : UInt8} {mac : MacAddr} {r : (Nat → UInt8) × Bool}

/-- What the function does where it looks for no option. -/
theorem updateNd_of_none (h : ∀ hdr tag, ndOption? (mem 0) = some (hdr, tag) → len < hdr) :
    updateNdLinkLayerAddrT mem len mac fuel = do touch () 0 1; return some (mem, false) := by
  unfold updateNdLinkLayerAddrT
  cases hopt : ndOption? (mem 0) with
  | none => rfl
  | some e =>
    obtain ⟨hdr, tag⟩ := e
    dsimp only
    rw [if_neg (Nat.not_le.2 (h hdr tag hopt))]

/-- What it makes of the option that is found. -/
def ndWrite (mem : Nat → UInt8) (mac : MacAddr) : Option (Option Nat) → Option ((Nat → UInt8) × Bool)
  | none => none
  | some none => some (mem, false)
  | some (some p) => some (copy p mac.toList mem, true)

theorem val_updateNd (hopt : ndOption? (mem 0) = some (hdr, tag)) (hle : hdr ≤ len) :
    (updateNdLinkLayerAddrT mem len mac fuel).val =
      ndWrite mem mac (loopT (scanTlvRound mem tag 1) fuel (tlvCur len hdr)).val := by
  unfold updateNdLinkLayerAddrT
  rw [hopt]
  dsimp only
  rw [if_pos hle, val_bind, val_bind]
  show Traced.val (match (loopT (scanTlvRound mem tag 1) fuel (tlvCur len hdr)).val with
    | none => _
    | some none => _
    | some (some mac) => _) = _
  cases (loopT (scanTlvRound mem tag 1) fuel (tlvCur len hdr)).val with
  | none => rfl
  | some o => cases o <;> rfl

/-- The option that is found ends inside the message. -/
theorem le_of_returns_some {p : Nat} (h : Returns (scanTlvRound mem tag 1) (tlvCur len hdr) (some p)) :
    p + 6 ≤ len := by
  obtain ⟨c, hc, hstop⟩ := returns_iff.1 h
  obtain ⟨pos, rfl, -⟩ := reaches_tlvCur_iff.1 hc
  rcases Nat.lt_or_ge pos len with hlt | hge
  · rw [val_scanTlvRound hlt] at hstop
    split at hstop
    · rename_i hlla
      cases hstop
      exact hlla.2.2
    · cases hstop
  · rw [scanTlvRound_of_le hge] at hstop
    cases hstop

theorem within_updateNd (hopt : ndOption? (mem 0) = some (hdr, tag)) (hle : hdr ≤ len) :
    Within (fun _ => len) (updateNdLinkLayerAddrT mem len mac fuel) ↔
      0 < len ∧ Within (fun _ => len) (loopT (scanTlvRound mem tag 1) fuel (tlvCur len hdr)) := by
  have hfirst : Within (fun _ => len) (touch () 0 1 : Traced Unit Unit) ↔ 0 < len := by
    rw [within_touch]
    omega
  unfold updateNdLinkLayerAddrT
  rw [hopt]
  dsimp only
  rw [if_pos hle, within_bind, within_bind, hfirst]
  refine and_congr_right fun _ => and_iff_left ?_
  show Within _ (match (loopT (scanTlvRound mem tag 1) fuel (tlvCur len hdr)).val with
    | none => _
    | some none => _
    | some (some mac) => _)
  split
  · exact within_pure
  · exact within_pure
  · rename_i p hp
    have hin := le_of_returns_some ⟨fuel, hp⟩
    rw [within_bind, within_touch_pos (by decide)]
    exact ⟨hin, within_pure⟩

theorem ndWrite_ne_none {o : Option (Option Nat)} : ndWrite mem mac o ≠ none ↔ ∃ r, o = some r := by
  cases o with
  | none => exact iff_of_false (fun h => h rfl) fun ⟨_, h⟩ => by cases h
  | some r => cases r <;> exact iff_of_true (Option.some_ne_none _) ⟨_, rfl⟩

/-- `update_nd_link_layer_addr` is right exactly if the message has a type, and all the options that the walk comes to
have a length octet in it that is not zero. -/
theorem ndOk_iff (mem : Nat → UInt8) (len : Nat) (mac : MacAddr) : NdOk mem len mac ↔
    0 < len ∧ ∀ hdr tag, ndOption? (mem 0) = some (hdr, tag) → hdr ≤ len → OptsOk mem len hdr tag := by
  by_cases hlook : ∃ hdr tag, ndOption? (mem 0) = some (hdr, tag) ∧ hdr ≤ len
  · obtain ⟨hdr, tag, hopt, hle⟩ := hlook
    have hopts : (∀ hdr tag, ndOption? (mem 0) = some (hdr, tag) → hdr ≤ len → OptsOk mem len hdr tag) ↔
        OptsOk mem len hdr tag := by
      constructor
      · exact fun h => h hdr tag hopt hle
      · intro h hdr' tag' hopt' _
        obtain ⟨rfl, rfl⟩ := Prod.mk.inj (Option.some.inj (hopt.symm.trans hopt'))
        exact h
    rw [hopts, ← scanTlv_iff]
    constructor
    · rintro ⟨⟨fuel, hret⟩, hin, -⟩
      rw [val_updateNd hopt hle, ndWrite_ne_none] at hret
      obtain ⟨r, hr⟩ := hret
      exact ⟨((within_updateNd hopt hle).1 (hin 0)).1, ⟨r, fuel, hr⟩, fun fuel => ((within_updateNd hopt hle).1 (hin fuel)).2⟩
    · rintro ⟨hlen, ⟨r, fuel, hr⟩, hin⟩
      refine ⟨⟨fuel, ?_⟩, fun fuel => (within_updateNd hopt hle).2 ⟨hlen, hin fuel⟩, ?_⟩
      · rw [val_updateNd hopt hle, ndWrite_ne_none]
        exact ⟨r, hr⟩
      · intro fuel r' hdr' tag' opts hval hopt' hat hend
        obtain ⟨rfl, rfl⟩ := Prod.mk.inj (Option.some.inj (hopt.symm.trans hopt'))
        rw [val_updateNd hopt hle] at hval
        obtain ⟨r, hr⟩ := ndWrite_ne_none.1 (hval ▸ Option.some_ne_none r')
        obtain ⟨hfound, hnone⟩ := @returns_scanTlv mem len _ tag opts hat hend
        rw [hr] at hval
        refine ⟨fun pre o post h hpre ho => ?_, fun h => ?_⟩
        · rw [Returns.unique ⟨fuel, hr⟩ (hfound pre o post h hpre ho)] at hval
          exact (Option.some.inj hval).symm
        · rw [Returns.unique ⟨fuel, hr⟩ (hnone h)] at hval
          exact (Option.some.inj hval).symm
  · have hshort : ∀ hdr tag, ndOption? (mem 0) = some (hdr, tag) → len < hdr := fun hdr tag h =>
      Nat.not_le.1 fun hle => hlook ⟨hdr, tag, h, hle⟩
    have hrun (fuel : Nat) : updateNdLinkLayerAddrT mem len mac fuel = do touch () 0 1; return some (mem, false) :=
      updateNd_of_none hshort
    have hin : Within (fun _ => len) (updateNdLinkLayerAddrT mem len mac 0) ↔ 0 < len := by
      rw [hrun, within_bind, and_iff_left within_pure, within_touch]
      omega
    refine ⟨fun h => ⟨hin.1 (h.inside 0), fun hdr tag h hle => absurd hle (Nat.not_le.2 (hshort hdr tag h))⟩,
      fun h => ⟨⟨0, ?_⟩, fun fuel => ?_, fun fuel r hdr tag opts _ hopt _ hend => ?_⟩⟩
    · rw [hrun]
      exact Option.some_ne_none _
    · rw [hrun, ← hrun 0]
      exact hin.2 h.1
    · have := hshort hdr tag hopt
      omega

/-- A router solicitation with an option of length zero. -/
def endlessNd : Nat → UInt8 := fun i => ([133, 0, 0, 0, 0, 0, 0, 0, 1, 0] : List UInt8).getD i 0

theorem not_ndOk_endless : ¬ ∀ (mem : Nat → UInt8) (len : Nat) (mac : MacAddr), NdOk mem len mac := by
  intro h
  obtain ⟨fuel, hret⟩ := (h endlessNd 16 (.replicate 6 2)).returns
  have hopt : ndOption? (endlessNd 0) = some (8, 1) := rfl
  rw [val_updateNd hopt (by decide), ndWrite_ne_none] at hret
  obtain ⟨r, hr⟩ := hret
  exact not_returns_of_fixed .start rfl ⟨fuel, hr⟩

end

end Rtw
