import Rtw.Mlme.ErpInfo
import Rtw.Mlme.IeEdit

/-!
# Elements of the beacon

`rtw_add_bcn_ie` looks for the place of an element by the ids, and for the element before that place;
`rtw_remove_bcn_ie` uses `rtw_get_ie`. Both save what is behind the place and write it back. `addBcnIeOk_iff` tells
from the list when the element is there afterwards and can be removed again. `addBcnIe_list` and `removeBcnIe_list`:
with room and memory they are the functions on lists of elements.
-/

namespace Rtw
open Tlv

/-! ### The code -/

/-- The loop of `rtw_add_bcn_ie`: `p` with `ielen`, and `bmatch`. -/
def addBcnIeLoop (ies : List UInt8) (ieLength index : Nat) :
    Nat → Nat → Option (Nat × Nat) → Option (Nat × Nat) × Bool
  | 0, _, p => (p, false)
  | fuel + 1, i, p =>
    if i < ieLength then
      if byteAt ies i > index then (p, false)
      else if byteAt ies i = index then (some (i, byteAt ies (i + 1)), true)
      else addBcnIeLoop ies ieLength index fuel (i + (byteAt ies (i + 1) + 2)) (some (i, byteAt ies (i + 1)))
    else (p, false)

/-- What `rtw_add_bcn_ie` and `rtw_remove_bcn_ie` do behind the search: the rest is saved if `malloc` has room for it,
`ie` is written at `dst`, and what has been saved behind it. -/
def putBcnIe (malloc : Nat → Bool) (net : BcnIes) (dst premainder : Nat) (ie : List UInt8) : BcnIes :=
  let remainderLen := uintSub net.ieLength premainder
  let backup :=
    if remainderLen > 0 ∧ malloc remainderLen then (net.ies.drop premainder).take remainderLen else []
  { ies := writeAt (writeAt net.ies dst ie) (dst + ie.length) backup
    ieLength := (dst + ie.length + remainderLen) % 2 ^ 32 }

/-- `rtw_add_bcn_ie`, on the bytes of `IEs`. -/
def addBcnIe (malloc : Nat → Bool) (index : UInt8) (data : List UInt8) (net : BcnIes) : BcnIes :=
  match addBcnIeLoop net.ies net.ieLength index.toNat net.ieLength 12 none with
  | (none, _) => net
  | (some (p, ielen), bmatch) =>
    if ielen > 0 then
      putBcnIe malloc net (if bmatch then p else p + (ielen + 2)) (p + (ielen + 2))
        (index :: UInt8.ofNat data.length :: data)
    else net

/-- `rtw_remove_bcn_ie`, on the bytes of `IEs`. -/
def removeBcnIe (malloc : Nat → Bool) (index : UInt8) (net : BcnIes) : BcnIes :=
  match rtwGetIe (net.ies.drop 12) index.toNat (net.ieLength - 12) with
  | none => net
  | some (p, ielen) =>
    if ielen > 0 then putBcnIe malloc net (12 + p) (12 + p + (ielen + 2)) [] else net

/-! ### What it should do -/

/-- A beacon with elements behind its fixed fields, in an array of `MAX_IE_SZ` bytes. -/
structure BcnList where
  fixed : List UInt8
  es : List Ie
  room : List UInt8
  length_fixed : fixed.length = 12
  length_ies : (fixed ++ (bytes es ++ room)).length = 768

def BcnList.net (l : BcnList) : BcnIes where
  ies := l.fixed ++ (bytes l.es ++ l.room)
  ieLength := (l.fixed ++ bytes l.es).length

/-- `IEs` holds the elements, and `IELength` is their length. -/
structure HoldsBcn (fixed : List UInt8) (es : List Ie) (net : BcnIes) : Prop where
  ies : fixed ++ bytes es <+: net.ies
  ieLength : net.ieLength = (fixed ++ bytes es).length
  le : net.ieLength ≤ 768

/-- The elements with another id. -/
def othersThan (x : Ie) (es : List Ie) : List Ie := es.filter fun z => z.id ≠ x.id

/-- `x` is added as the only element with its id, and removed again. -/
def AddBcnIeOk (malloc malloc' : Nat → Bool) (x : Ie) (l : BcnList) : Prop :=
  ∃ c d, othersThan x l.es = c ++ d ∧
    HoldsBcn l.fixed (c ++ x :: d) (addBcnIe malloc x.tag x.data l.net) ∧
    HoldsBcn l.fixed (c ++ d) (removeBcnIe malloc' x.tag (addBcnIe malloc x.tag x.data l.net))

/-! ### When it does -/

/-- The rest `q` stands at its new place: it could be saved, or happens to be there. It was behind `old`, which `n`
bytes have been written over, and `room` is behind it. -/
def Kept (malloc : Nat → Bool) (old q room : List UInt8) (n : Nat) : Prop :=
  malloc q.length = true ∨ q <+: (old ++ (q ++ room)).drop n

/-- The place for `x` behind the elements `c`, in the stead of `old` and before the elements `d`. -/
inductive BcnPlace (x : Ie) (es : List Ie) : List Ie → List UInt8 → List Ie → Prop
  | replace {c d : List Ie} {y : Ie} (hes : es = c ++ y :: d) (hc : ∀ z ∈ c, z.id < x.id) (hy : y.id = x.id)
      (hne : y.data ≠ []) : BcnPlace x es c y.bytes d
  | insert {c d : List Ie} {y : Ie} (hes : es = c ++ [y] ++ d) (hc : ∀ z ∈ c ++ [y], z.id < x.id)
      (hd : ∀ z ∈ d.head?, x.id < z.id) (hne : y.data ≠ []) : BcnPlace x es (c ++ [y]) [] d

/-- There is no such place: the first element with an id that is not smaller has a larger one, and before it there is
none, or one without contents. -/
def NoBcnPlace (x : Ie) (es : List Ie) : Prop :=
  ∃ c d, es = c ++ d ∧ (∀ z ∈ c, z.id < x.id) ∧ (∀ z ∈ d.head?, x.id < z.id) ∧ ∀ z ∈ c.getLast?, z.data = []

/-- What is found in the place of `x` has its id and no contents. -/
def EmptyAtPlace (x : Ie) (es : List Ie) : Prop :=
  ∃ (c d : List Ie) (y : Ie), es = c ++ y :: d ∧ (∀ z ∈ c, z.id < x.id) ∧ y.id = x.id ∧ y.data = []

/-- The element is not empty and there is room for it. No element has its id but the one it is put in the stead of, or
none is put at all and it is there already. What is behind it stays when it is added, and can be saved when it is
removed. -/
def AddBcnIeFits (malloc malloc' : Nat → Bool) (x : Ie) (l : BcnList) : Prop :=
  x.data ≠ [] ∧ ∃ c d, (∀ z ∈ c ++ d, z.id ≠ x.id) ∧ (l.fixed ++ bytes (c ++ x :: d)).length ≤ 768 ∧
    (malloc' (bytes d).length = true ∨ d = []) ∧
    ((NoBcnPlace x l.es ∧ l.es = c ++ x :: d) ∨
      ∃ old, BcnPlace x l.es c old d ∧ Kept malloc old (bytes d) l.room x.bytes.length)

section
variable {malloc malloc' : Nat → Bool} {p q q' r new old t : List UInt8} {x y : Ie} {c d es : List Ie}
  {index limit fuel : Nat} {found : Option (Nat × Nat)} {l : BcnList} {net : BcnIes}

/-! ### Putting an element -/

theorem uintSub_rest (hlt : (p ++ (old ++ q)).length < 2 ^ 32) :
    uintSub (p ++ (old ++ q)).length (p ++ old).length = q.length := by
  rw [← List.append_assoc] at hlt ⊢
  rw [List.length_append] at *
  rw [uintSub_of_le (Nat.le_add_right ..) hlt, Nat.add_sub_cancel_left]

theorem writeAt_writeAt (p r bs bs' : List UInt8) : writeAt (writeAt (p ++ r) p.length bs) (p.length + bs.length) bs' =
    p ++ (bs ++ (bs' ++ (r.drop bs.length).drop bs'.length)) := by
  rw [writeAt_append, ← List.append_assoc, ← List.length_append, writeAt_append, List.append_assoc]

theorem prefix_putBcnIe (malloc : Nat → Bool) (p r new : List UInt8) (ieLength premainder : Nat) :
    p ++ new <+: (putBcnIe malloc ⟨p ++ r, ieLength⟩ p.length premainder new).ies := by
  unfold putBcnIe
  dsimp only
  rw [writeAt_writeAt, List.prefix_append_right_inj]
  exact List.prefix_append ..

/-- The bytes of the elements are `p`, `old` and `q`, and `new` is put in the stead of `old`. -/
theorem prefix_putBcnIe_iff (hlt : (p ++ (old ++ q)).length < 2 ^ 32) (hq : q'.length = q.length) :
    p ++ (new ++ q') <+:
        (putBcnIe malloc ⟨p ++ (old ++ (q ++ t)), (p ++ (old ++ q)).length⟩ p.length (p ++ old).length new).ies ↔
      if malloc q.length then q' = q else q' <+: (old ++ (q ++ t)).drop new.length := by
  have hread : ((p ++ (old ++ (q ++ t))).drop (p ++ old).length).take q.length = q := by
    rw [← List.append_assoc, List.drop_left, List.take_left]
  unfold putBcnIe
  dsimp only
  rw [uintSub_rest hlt, hread, writeAt_writeAt, List.prefix_append_right_inj, List.prefix_append_right_inj]
  by_cases hm : malloc q.length = true
  · rw [if_pos hm]
    rcases Nat.eq_zero_or_pos q.length with hnil | hpos
    · rw [List.eq_nil_of_length_eq_zero hnil, List.eq_nil_of_length_eq_zero (hq.trans hnil)]
      exact iff_of_true List.nil_prefix rfl
    · rw [if_pos ⟨hpos, hm⟩]
      constructor
      · exact fun h => (List.prefix_of_prefix_length_le h (List.prefix_append ..) hq.le).eq_of_length hq
      · exact fun h => h ▸ List.prefix_append ..
  · rw [if_neg hm, if_neg fun h => hm h.2]
    rfl

theorem putBcnIe_ieLength (hlt : (p ++ (old ++ q)).length < 2 ^ 32) (hnew : (p ++ (new ++ q)).length < 2 ^ 32) :
    (putBcnIe malloc ⟨p ++ (old ++ (q ++ t)), (p ++ (old ++ q)).length⟩ p.length (p ++ old).length new).ieLength =
      (p ++ (new ++ q)).length := by
  unfold putBcnIe
  dsimp only
  rw [uintSub_rest hlt, ← Nat.mod_eq_of_lt hnew, List.length_append, List.length_append, Nat.add_assoc]

/-- What the list is when `new` has been put in the stead of `old`. -/
theorem holdsBcn_putBcnIe_iff {fixed : List UInt8} (hlt : (p ++ (old ++ q)).length < 2 ^ 32)
    (hnew : (p ++ (new ++ q)).length < 2 ^ 32) :
    HoldsBcn fixed es
        (putBcnIe malloc ⟨p ++ (old ++ (q ++ t)), (p ++ (old ++ q)).length⟩ p.length (p ++ old).length new) ↔
      (p ++ (new ++ q)).length ≤ 768 ∧ ∃ q', fixed ++ bytes es = p ++ (new ++ q') ∧ q'.length = q.length ∧
        if malloc q.length then q' = q else q' <+: (old ++ (q ++ t)).drop new.length := by
  have hlen : (putBcnIe malloc ⟨p ++ (old ++ (q ++ t)), (p ++ (old ++ q)).length⟩ p.length (p ++ old).length
      new).ieLength = (p ++ (new ++ q)).length := putBcnIe_ieLength hlt hnew
  constructor
  · intro h
    have hsame : (fixed ++ bytes es).length = (p ++ (new ++ q)).length := by rw [← h.ieLength, hlen]
    have hle : (p ++ new).length ≤ (fixed ++ bytes es).length := by
      rw [hsame, ← List.append_assoc]
      exact (List.prefix_append ..).length_le
    have hput := prefix_putBcnIe malloc p (old ++ (q ++ t)) new (p ++ (old ++ q)).length (p ++ old).length
    obtain ⟨q', hq'⟩ := List.prefix_of_prefix_length_le hput h.ies hle
    rw [List.append_assoc] at hq'
    have hlen' : q'.length = q.length := by
      rw [← hq'] at hsame
      simp only [List.length_append] at hsame
      omega
    refine ⟨hlen ▸ h.le, q', hq'.symm, hlen', (prefix_putBcnIe_iff hlt hlen').1 ?_⟩
    rw [hq']
    exact h.ies
  · rintro ⟨hle, q', hq', hlen', hrest⟩
    refine ⟨?_, ?_, hlen ▸ hle⟩
    · rw [hq']
      exact (prefix_putBcnIe_iff hlt hlen').2 hrest
    · rw [hlen, hq']
      simp only [List.length_append, hlen']

theorem kept_iff : Kept malloc old q t new.length ↔
    if malloc q.length then q = q else q <+: (old ++ (q ++ t)).drop new.length := by
  unfold Kept
  by_cases hm : malloc q.length = true
  · rw [if_pos hm]
    exact iff_of_true (.inl hm) rfl
  · rw [if_neg hm]
    exact or_iff_right hm

/-- It is the list with the new element if the rest is kept. -/
theorem holdsBcn_putBcnIe_of_eq {fixed : List UInt8} (hlt : (p ++ (old ++ q)).length < 2 ^ 32)
    (hnew : (p ++ (new ++ q)).length < 2 ^ 32) (heq : fixed ++ bytes es = p ++ (new ++ q)) :
    HoldsBcn fixed es
        (putBcnIe malloc ⟨p ++ (old ++ (q ++ t)), (p ++ (old ++ q)).length⟩ p.length (p ++ old).length new) ↔
      (p ++ (new ++ q)).length ≤ 768 ∧ Kept malloc old q t new.length := by
  rw [holdsBcn_putBcnIe_iff hlt hnew, kept_iff]
  refine and_congr_right fun _ => ⟨?_, fun h => ⟨q, heq, rfl, h⟩⟩
  rintro ⟨q', hq', -, hrest⟩
  have hsame : q' = q := List.append_cancel_left (List.append_cancel_left (hq'.symm.trans heq))
  rwa [hsame] at hrest

/-! ### The place of an element -/

theorem addBcnIeLoop_pass (p r : List UInt8) (fuel : Nat) (found : Option (Nat × Nat)) (hc : ∀ z ∈ c, z.id < index)
    (hlimit : p.length + (bytes c).length ≤ limit) :
    ∃ found', addBcnIeLoop (p ++ (bytes c ++ r)) limit index (c.length + fuel) p.length found =
      addBcnIeLoop (p ++ bytes c ++ r) limit index fuel (p ++ bytes c).length found' := by
  induction c generalizing p found with
  | nil =>
    refine ⟨found, ?_⟩
    rw [bytes_nil, List.nil_append, List.append_nil, List.length_nil, Nat.zero_add]
  | cons y c ih =>
    have hy := hc y List.mem_cons_self
    have hpos := length_behind_ie p y
    rw [length_bytes_cons] at hlimit
    have hhdr : ieFormat.hdr = 2 := rfl
    obtain ⟨found', h⟩ := ih (p ++ y.bytes) (some (p.length, y.data.length))
      (fun z hz => hc z (List.mem_cons_of_mem _ hz)) (by omega)
    refine ⟨found', ?_⟩
    rw [bytes_cons, List.append_assoc, List.length_cons, Nat.add_right_comm, addBcnIeLoop, if_pos (by omega),
      byteAt_at_ie.1, byteAt_at_ie.2, if_neg (by omega), if_neg (by omega), hpos, ← List.append_assoc, h,
      List.append_assoc p]

theorem addBcnIeLoop_stop (hd : ∀ z ∈ d.head?, index < z.id) :
    addBcnIeLoop (p ++ (bytes d ++ r)) (p ++ bytes d).length index fuel p.length found = (found, false) := by
  cases fuel with
  | zero => rfl
  | succ fuel =>
    cases d with
    | nil =>
      rw [bytes_nil, List.append_nil, addBcnIeLoop, if_neg (Nat.lt_irrefl _)]
    | cons z d =>
      have hz : z.id > index := hd z rfl
      rw [bytes_cons, List.append_assoc, addBcnIeLoop, byteAt_at_ie.1, if_pos hz, ite_self]

theorem addBcnIeLoop_match (hy : y.id = index) (hlt : p.length < limit) :
    addBcnIeLoop (p ++ (y.bytes ++ r)) limit index (fuel + 1) p.length found =
      (some (p.length, y.data.length), true) := by
  rw [addBcnIeLoop, if_pos hlt, byteAt_at_ie.1, byteAt_at_ie.2, if_neg (by omega), if_pos hy]

theorem addBcnIeLoop_last (hy : y.id < index) (hd : ∀ z ∈ d.head?, index < z.id) :
    addBcnIeLoop (p ++ (y.bytes ++ (bytes d ++ r))) (p ++ (y.bytes ++ bytes d)).length index (fuel + 1) p.length
        found =
      (some (p.length, y.data.length), false) := by
  have hpos := length_behind_ie p y
  have hlt : p.length < (p ++ (y.bytes ++ bytes d)).length := by
    rw [List.length_append, List.length_append, length_ie_bytes]
    omega
  rw [addBcnIeLoop, if_pos hlt, byteAt_at_ie.1, byteAt_at_ie.2, if_neg (by omega), if_neg (by omega), hpos,
    ← List.append_assoc p y.bytes (bytes d ++ r), ← List.append_assoc p y.bytes (bytes d), addBcnIeLoop_stop hd]

/-- The loop comes to what is behind the elements with smaller ids. -/
theorem addBcnIeLoop_net (hes : l.es = c ++ d) (hc : ∀ z ∈ c, z.id < index) :
    ∃ fuel found, d.length ≤ fuel ∧
      addBcnIeLoop l.net.ies l.net.ieLength index l.net.ieLength 12 none =
        addBcnIeLoop (l.fixed ++ bytes c ++ (bytes d ++ l.room)) (l.fixed ++ bytes c ++ bytes d).length index fuel
          (l.fixed ++ bytes c).length found := by
  have hcount : (c ++ d).length * 2 ≤ (bytes (c ++ d)).length := length_le_bytes (c ++ d)
  have hbytes := congrArg List.length (bytes_append (l := c) (m := d))
  rw [List.length_append] at hcount
  rw [List.length_append] at hbytes
  have hfuel : (l.fixed ++ bytes (c ++ d)).length =
      c.length + ((l.fixed ++ bytes (c ++ d)).length - c.length) := by
    rw [List.length_append]
    omega
  have hlimit : l.fixed.length + (bytes c).length ≤ (l.fixed ++ bytes (c ++ d)).length := by
    rw [List.length_append]
    omega
  obtain ⟨found, h⟩ := addBcnIeLoop_pass l.fixed (bytes d ++ l.room)
    ((l.fixed ++ bytes (c ++ d)).length - c.length) none hc hlimit
  refine ⟨(l.fixed ++ bytes (c ++ d)).length - c.length, found, by rw [List.length_append]; omega, ?_⟩
  rw [← hfuel, l.length_fixed] at h
  rw [BcnList.net, hes, bytes_append, List.append_assoc (bytes c), List.append_assoc l.fixed (bytes c) (bytes d),
    ← bytes_append]
  exact h

theorem addBcnIeLoop_replace (hes : l.es = c ++ y :: d) (hc : ∀ z ∈ c, z.id < index) (hy : y.id = index) :
    addBcnIeLoop l.net.ies l.net.ieLength index l.net.ieLength 12 none =
      (some ((l.fixed ++ bytes c).length, y.data.length), true) := by
  obtain ⟨fuel, found, hfuel, h⟩ := addBcnIeLoop_net hes hc
  obtain ⟨fuel, rfl⟩ := Nat.exists_eq_succ_of_ne_zero (Nat.ne_zero_of_lt hfuel)
  rw [h, bytes_cons, List.append_assoc y.bytes]
  refine addBcnIeLoop_match hy ?_
  simp only [List.length_append, length_ie_bytes]
  omega

theorem addBcnIeLoop_insert (hes : l.es = c ++ [y] ++ d) (hc : ∀ z ∈ c ++ [y], z.id < index)
    (hd : ∀ z ∈ d.head?, index < z.id) :
    addBcnIeLoop l.net.ies l.net.ieLength index l.net.ieLength 12 none =
      (some ((l.fixed ++ bytes c).length, y.data.length), false) := by
  rw [List.append_assoc] at hes
  obtain ⟨fuel, found, hfuel, h⟩ := addBcnIeLoop_net hes fun z hz => hc z (List.mem_append_left _ hz)
  obtain ⟨fuel, rfl⟩ := Nat.exists_eq_succ_of_ne_zero (Nat.ne_zero_of_lt hfuel)
  rw [h, List.singleton_append, bytes_cons, List.append_assoc y.bytes]
  exact addBcnIeLoop_last (hc y (List.mem_append_right _ List.mem_cons_self)) hd

theorem addBcnIeLoop_front (hd : ∀ z ∈ l.es.head?, index < z.id) :
    addBcnIeLoop l.net.ies l.net.ieLength index l.net.ieLength 12 none = (none, false) := by
  rw [← l.length_fixed]
  exact addBcnIeLoop_stop hd

/-! ### Adding -/

theorem BcnPlace.bytes_es (h : BcnPlace x es c old d) : bytes es = bytes c ++ (old ++ bytes d) := by
  cases h with
  | replace hes => rw [hes, bytes_append, bytes_cons]
  | insert hes => rw [hes, bytes_append, List.nil_append]

theorem BcnPlace.lt (h : BcnPlace x es c old d) : ∀ z ∈ c, z.id < x.id := by
  cases h with
  | replace _ hc => exact hc
  | insert _ hc => exact hc

theorem othersThan_append : othersThan x (c ++ d) = othersThan x c ++ othersThan x d := List.filter_append ..

theorem othersThan_eq_self : othersThan x c = c ↔ ∀ z ∈ c, z.id ≠ x.id := by
  unfold othersThan
  simp

theorem BcnPlace.others (h : BcnPlace x es c old d) : othersThan x es = c ++ othersThan x d := by
  have hc : othersThan x c = c := othersThan_eq_self.2 fun z hz => (h.lt z hz).ne
  cases h with
  | replace hes _ hy =>
    rw [hes, othersThan_append, hc]
    exact congrArg (_ ++ ·) (List.filter_cons_of_neg (by simpa using hy))
  | insert hes => rw [hes, othersThan_append, hc]

theorem BcnList.net_eq (hbytes : bytes l.es = bytes c ++ (old ++ bytes d)) : l.net =
    ⟨l.fixed ++ bytes c ++ (old ++ (bytes d ++ l.room)), (l.fixed ++ bytes c ++ (old ++ bytes d)).length⟩ := by
  rw [BcnList.net, hbytes]
  simp only [List.append_assoc]

theorem addBcnIe_place (h : BcnPlace x l.es c old d) : addBcnIe malloc x.tag x.data l.net =
    putBcnIe malloc l.net (l.fixed ++ bytes c).length (l.fixed ++ bytes c ++ old).length x.bytes := by
  cases h with
  | @replace c d y hes hc hy hne =>
    have hend := length_behind_ie (l.fixed ++ bytes c) y
    have hloop : addBcnIeLoop l.net.ies l.net.ieLength x.tag.toNat l.net.ieLength 12 none =
        (some ((l.fixed ++ bytes c).length, y.data.length), true) := addBcnIeLoop_replace hes hc hy
    rw [addBcnIe, hloop]
    dsimp only
    rw [if_pos (List.length_pos_of_ne_nil hne), hend]
    rfl
  | @insert c d y hes hc hd hne =>
    have hend : (l.fixed ++ bytes c).length + (y.data.length + 2) = (l.fixed ++ bytes (c ++ [y])).length := by
      simp only [bytes_append, bytes_cons, bytes_nil, List.length_append, length_ie_bytes, List.length_nil]
      omega
    have hloop : addBcnIeLoop l.net.ies l.net.ieLength x.tag.toNat l.net.ieLength 12 none =
        (some ((l.fixed ++ bytes c).length, y.data.length), false) := addBcnIeLoop_insert hes hc hd
    rw [addBcnIe, hloop]
    dsimp only
    rw [if_pos (List.length_pos_of_ne_nil hne), hend, List.append_nil]
    rfl

theorem addBcnIe_none (h : NoBcnPlace x l.es) : addBcnIe malloc x.tag x.data l.net = l.net := by
  obtain ⟨c, d, hes, hc, hd, hlast⟩ := h
  rcases List.eq_nil_or_concat' c with rfl | ⟨c, y, rfl⟩
  · have hloop : addBcnIeLoop l.net.ies l.net.ieLength x.tag.toNat l.net.ieLength 12 none = (none, false) :=
      addBcnIeLoop_front (by rw [hes]; exact hd)
    rw [addBcnIe, hloop]
  · have hloop : addBcnIeLoop l.net.ies l.net.ieLength x.tag.toNat l.net.ieLength 12 none =
        (some ((l.fixed ++ bytes c).length, y.data.length), false) := addBcnIeLoop_insert hes hc hd
    rw [addBcnIe, hloop, hlast y List.getLast?_concat]
    rfl

theorem addBcnIe_empty (h : EmptyAtPlace x l.es) : addBcnIe malloc x.tag x.data l.net = l.net := by
  obtain ⟨c, d, y, hes, hc, hy, hempty⟩ := h
  have hloop : addBcnIeLoop l.net.ies l.net.ieLength x.tag.toNat l.net.ieLength 12 none =
      (some ((l.fixed ++ bytes c).length, y.data.length), true) := addBcnIeLoop_replace hes hc hy
  rw [addBcnIe, hloop, hempty]
  rfl

theorem bcnPlace_cases (x : Ie) (es : List Ie) :
    EmptyAtPlace x es ∨ NoBcnPlace x es ∨ ∃ c old d, BcnPlace x es c old d := by
  have hsplit : ∃ c d, es = c ++ d ∧ (∀ z ∈ c, z.id < x.id) ∧ ∀ z ∈ d.head?, x.id ≤ z.id := by
    obtain hall | ⟨c, y, d, hes, hc, hy⟩ := exists_first (fun z : Ie => x.id ≤ z.id) es
    · exact ⟨es, [], (List.append_nil es).symm, fun z hz => Nat.lt_of_not_le (hall z hz), by simp⟩
    · exact ⟨c, y :: d, hes, fun z hz => Nat.lt_of_not_le (hc z hz), by simpa using hy⟩
  obtain ⟨c, d, hes, hc, hd⟩ := hsplit
  by_cases hmatch : ∃ y ∈ d.head?, y.id = x.id
  · obtain ⟨y, hhead, hy⟩ := hmatch
    obtain ⟨d, rfl⟩ := List.head?_eq_some_iff.1 hhead
    by_cases hempty : y.data = []
    · exact .inl ⟨c, d, y, hes, hc, hy, hempty⟩
    · exact .inr (.inr ⟨c, y.bytes, d, .replace hes hc hy hempty⟩)
  · have hgt : ∀ z ∈ d.head?, x.id < z.id := fun z hz =>
      Nat.lt_of_le_of_ne (hd z hz) fun heq => hmatch ⟨z, hz, heq.symm⟩
    by_cases hlast : ∀ z ∈ c.getLast?, z.data = []
    · exact .inr (.inl ⟨c, d, hes, hc, hgt, hlast⟩)
    · rcases List.eq_nil_or_concat' c with rfl | ⟨c, y, rfl⟩
      · exact absurd (fun z hz => absurd hz (Option.not_mem_none z)) hlast
      · refine .inr (.inr ⟨c ++ [y], [], d, .insert hes hc hgt fun hempty => hlast fun z hz => ?_⟩)
        rw [List.getLast?_concat, Option.mem_some_iff] at hz
        exact hz ▸ hempty

/-! ### Removing -/

theorem drop_net (l : BcnList) : l.net.ies.drop 12 = bytes l.es ++ l.room := List.drop_left' l.length_fixed

theorem ieLength_net (l : BcnList) : l.net.ieLength - 12 = (bytes l.es).length := by
  show (l.fixed ++ bytes l.es).length - 12 = _
  rw [List.length_append, l.length_fixed, Nat.add_sub_cancel_left]

theorem rtwGetIe_net_found (hes : l.es = c ++ y :: d) (hc : ∀ z ∈ c, z.id ≠ index) (hy : y.id = index) :
    rtwGetIe (l.net.ies.drop 12) index (l.net.ieLength - 12) = some ((bytes c).length, y.data.length) := by
  rw [drop_net, ieLength_net, hes, bytes_append, bytes_cons, List.append_assoc, List.append_assoc]
  refine rtwGetIe_found hc hy ?_
  rw [List.length_append, List.length_append, length_ie_bytes]
  omega

theorem rtwGetIe_net_none (h : ∀ z ∈ l.es, z.id ≠ index) :
    rtwGetIe (l.net.ies.drop 12) index (l.net.ieLength - 12) = none := by
  rw [drop_net, ieLength_net]
  exact rtwGetIe_none h

theorem HoldsBcn.net_eq {fixed : List UInt8} (h : HoldsBcn fixed (c ++ x :: d) net) :
    ∃ t, net =
      ⟨fixed ++ bytes c ++ (x.bytes ++ (bytes d ++ t)), (fixed ++ bytes c ++ (x.bytes ++ bytes d)).length⟩ := by
  obtain ⟨⟨t, ht⟩, hlen, -⟩ := h
  refine ⟨t, ?_⟩
  rw [bytes_append, bytes_cons] at ht hlen
  cases net
  dsimp only at ht hlen
  rw [hlen, ← ht]
  simp only [List.append_assoc]

/-- What is written over `x` does not happen to be the rest. -/
theorem kept_over_iff (hd : ∀ z ∈ d, z.id ≠ x.id) :
    Kept malloc x.bytes (bytes d) t ([] : List UInt8).length ↔ malloc (bytes d).length = true ∨ d = [] := by
  refine or_congr_right ⟨fun h => ?_, ?_⟩
  · cases d with
    | nil => rfl
    | cons z d =>
      obtain ⟨s, hs⟩ := h
      have htag : z.tag = x.tag := (List.cons.inj hs).1
      exact absurd (congrArg UInt8.toNat htag) (hd z List.mem_cons_self)
  · rintro rfl
    exact List.nil_prefix

section
variable {fixed : List UInt8}

theorem rtwGetIe_fixed (hfixed : fixed.length = 12) (hc : ∀ z ∈ c, z.id ≠ x.id) :
    rtwGetIe ((fixed ++ bytes c ++ (x.bytes ++ (bytes d ++ t))).drop 12) x.tag.toNat
      ((fixed ++ bytes c ++ (x.bytes ++ bytes d)).length - 12) = some ((bytes c).length, x.data.length) := by
  have hlimit : (fixed ++ bytes c ++ (x.bytes ++ bytes d)).length - 12 =
      (bytes c).length + (x.bytes ++ bytes d).length := by
    rw [List.length_append, List.length_append, hfixed]
    omega
  rw [hlimit, List.append_assoc, List.drop_left' hfixed]
  refine rtwGetIe_found hc rfl ?_
  rw [List.length_append, length_ie_bytes]
  omega

theorem removeBcnIe_empty (hfixed : fixed.length = 12) (hc : ∀ z ∈ c, z.id ≠ x.id) (hnil : x.data = []) :
    removeBcnIe malloc x.tag
        ⟨fixed ++ bytes c ++ (x.bytes ++ (bytes d ++ t)), (fixed ++ bytes c ++ (x.bytes ++ bytes d)).length⟩ =
      ⟨fixed ++ bytes c ++ (x.bytes ++ (bytes d ++ t)), (fixed ++ bytes c ++ (x.bytes ++ bytes d)).length⟩ := by
  rw [removeBcnIe, rtwGetIe_fixed hfixed hc, hnil]
  rfl

/-- An element with contents is removed if the rest is kept. -/
theorem holdsBcn_remove_iff (hfixed : fixed.length = 12) (hc : ∀ z ∈ c, z.id ≠ x.id) (hne : x.data ≠ [])
    (hle : (fixed ++ bytes c ++ (x.bytes ++ bytes d)).length ≤ 768) :
    HoldsBcn fixed (c ++ d) (removeBcnIe malloc x.tag
        ⟨fixed ++ bytes c ++ (x.bytes ++ (bytes d ++ t)), (fixed ++ bytes c ++ (x.bytes ++ bytes d)).length⟩) ↔
      Kept malloc x.bytes (bytes d) t ([] : List UInt8).length := by
  have hdst : 12 + (bytes c).length = (fixed ++ bytes c).length := by rw [List.length_append, hfixed]
  have hend := length_behind_ie (fixed ++ bytes c) x
  have hlt : (fixed ++ bytes c ++ (x.bytes ++ bytes d)).length < 2 ^ 32 := by omega
  have hshort : (fixed ++ bytes c ++ ([] ++ bytes d)).length ≤ 768 := by
    refine Nat.le_trans ?_ hle
    simp only [List.length_append, List.length_nil]
    omega
  have heq : fixed ++ bytes (c ++ d) = fixed ++ bytes c ++ ([] ++ bytes d) := by
    rw [bytes_append, List.nil_append, List.append_assoc]
  rw [removeBcnIe, rtwGetIe_fixed hfixed hc]
  dsimp only
  rw [if_pos (List.length_pos_of_ne_nil hne), hdst, hend, holdsBcn_putBcnIe_of_eq hlt (by omega) heq]
  exact and_iff_right hshort

theorem removeBcnIe_iff (hfixed : fixed.length = 12) (hnet : HoldsBcn fixed (c ++ x :: d) net)
    (hother : ∀ z ∈ c ++ d, z.id ≠ x.id) :
    HoldsBcn fixed (c ++ d) (removeBcnIe malloc x.tag net) ↔
      x.data ≠ [] ∧ (malloc (bytes d).length = true ∨ d = []) := by
  have hc : ∀ z ∈ c, z.id ≠ x.id := fun z hz => hother z (List.mem_append_left _ hz)
  have hle := hnet.ieLength ▸ hnet.le
  obtain ⟨t, rfl⟩ := hnet.net_eq
  rw [bytes_append, bytes_cons, ← List.append_assoc] at hle
  by_cases hnil : x.data = []
  · rw [removeBcnIe_empty hfixed hc hnil]
    refine iff_of_false (fun h => ?_) fun h => h.1 hnil
    have hlen := h.ieLength
    simp only [bytes_append, List.length_append, length_ie_bytes] at hlen
    omega
  · rw [and_iff_right hnil, holdsBcn_remove_iff hfixed hc hnil hle]
    exact kept_over_iff fun z hz => hother z (List.mem_append_right _ hz)

end

/-! ### Adding and removing -/

theorem HoldsBcn.eq_of_net (h : HoldsBcn l.fixed es l.net) : es = l.es := by
  have hpre : l.fixed ++ bytes l.es <+: l.net.ies := ⟨l.room, List.append_assoc ..⟩
  have hlen : (l.fixed ++ bytes es).length = (l.fixed ++ bytes l.es).length := h.ieLength.symm
  have heq := (List.prefix_of_prefix_length_le h.ies hpre hlen.le).eq_of_length hlen
  exact bytes_inj (List.append_cancel_left heq)

theorem BcnList.length_le (l : BcnList) : (l.fixed ++ bytes l.es).length ≤ 768 := by
  have hlen := l.length_ies
  rw [List.length_append, List.length_append] at hlen
  rw [List.length_append]
  omega

theorem holdsBcn_net (l : BcnList) : HoldsBcn l.fixed l.es l.net :=
  ⟨⟨l.room, List.append_assoc ..⟩, rfl, l.length_le⟩

section
variable (hbytes : bytes l.es = bytes c ++ (old ++ bytes d))
include hbytes

theorem length_put_lt (x : Ie) : (l.fixed ++ bytes c ++ (old ++ bytes d)).length < 2 ^ 32 ∧
    (l.fixed ++ bytes c ++ (x.bytes ++ bytes d)).length < 2 ^ 32 := by
  have hfits := l.length_le
  have hx : x.data.length < 256 := x.fits
  rw [hbytes] at hfits
  simp only [List.length_append, length_ie_bytes] at hfits ⊢
  omega

/-- The bytes that are put are those of `x`. -/
theorem holdsBcn_put_self : HoldsBcn l.fixed (c ++ x :: d)
      (putBcnIe malloc l.net (l.fixed ++ bytes c).length (l.fixed ++ bytes c ++ old).length x.bytes) ↔
    (l.fixed ++ bytes (c ++ x :: d)).length ≤ 768 ∧ Kept malloc old (bytes d) l.room x.bytes.length := by
  obtain ⟨hlt, hnew⟩ := length_put_lt hbytes x
  have heq : l.fixed ++ bytes (c ++ x :: d) = l.fixed ++ bytes c ++ (x.bytes ++ bytes d) := by
    rw [bytes_append, bytes_cons, List.append_assoc]
  rw [l.net_eq hbytes, holdsBcn_putBcnIe_of_eq hlt hnew heq, ← heq]

/-- They are put behind elements with other ids. -/
theorem holdsBcn_put_iff {c' d' : List Ie} (hsplit : othersThan x l.es = c ++ othersThan x d)
    (hothers : othersThan x l.es = c' ++ d') :
    HoldsBcn l.fixed (c' ++ x :: d')
        (putBcnIe malloc l.net (l.fixed ++ bytes c).length (l.fixed ++ bytes c ++ old).length x.bytes) ↔
      c' = c ∧ d' = d ∧ (l.fixed ++ bytes (c ++ x :: d)).length ≤ 768 ∧
        Kept malloc old (bytes d) l.room x.bytes.length := by
  have hfound : HoldsBcn l.fixed (c' ++ x :: d')
      (putBcnIe malloc l.net (l.fixed ++ bytes c).length (l.fixed ++ bytes c ++ old).length x.bytes) →
        c' = c ∧ d' = d := by
    obtain ⟨hlt, hnew⟩ := length_put_lt hbytes x
    rw [l.net_eq hbytes, holdsBcn_putBcnIe_iff hlt hnew]
    rintro ⟨-, q', hq', hlen, -⟩
    -- the elements that are there begin with those before the place and `x`
    have hall : bytes (c' ++ x :: d') = bytes (c ++ [x]) ++ q' := by
      rw [List.append_assoc] at hq'
      rw [List.append_cancel_left hq', bytes_append, bytes_cons, bytes_nil, List.append_nil, List.append_assoc]
    obtain ⟨m, hm, rfl⟩ := bytes_eq_append hall
    have hx' : x ∉ othersThan x l.es := fun hmem => by simpa using (List.mem_filter.1 hmem).2
    rw [hothers, List.mem_append, not_or] at hx'
    rw [List.append_assoc, List.singleton_append] at hm
    obtain ⟨rfl, -, rfl⟩ := (List.append_cons_inj_of_notMem hx'.1 hx'.2).1 hm
    have hd : othersThan x d = d' := List.append_cancel_left (hsplit.symm.trans hothers)
    exact ⟨rfl, eq_of_sublist_of_length_bytes_le (hd ▸ List.filter_sublist) hlen.ge⟩
  constructor
  · intro h
    obtain ⟨rfl, rfl⟩ := hfound h
    exact ⟨rfl, rfl, (holdsBcn_put_self hbytes).1 h⟩
  · rintro ⟨rfl, rfl, h⟩
    exact (holdsBcn_put_self hbytes).2 h

end

theorem holdsBcn_place_iff {c' d' : List Ie} (h : BcnPlace x l.es c old d) (hothers : othersThan x l.es = c' ++ d') :
    HoldsBcn l.fixed (c' ++ x :: d') (addBcnIe malloc x.tag x.data l.net) ↔
      c' = c ∧ d' = d ∧ (l.fixed ++ bytes (c ++ x :: d)).length ≤ 768 ∧
        Kept malloc old (bytes d) l.room x.bytes.length := by
  rw [addBcnIe_place h]
  exact holdsBcn_put_iff h.bytes_es h.others hothers

/-- An element is added and removed as it should be exactly if the list has a place for it. -/
theorem addBcnIeOk_iff (malloc malloc' : Nat → Bool) (x : Ie) (l : BcnList) :
    AddBcnIeOk malloc malloc' x l ↔ AddBcnIeFits malloc malloc' x l := by
  constructor
  · rintro ⟨c, d, hothers, hadd, hremove⟩
    have hne : ∀ z ∈ c ++ d, z.id ≠ x.id := fun z hz => by
      rw [← hothers] at hz
      simpa using (List.mem_filter.1 hz).2
    obtain ⟨hdata, hm⟩ := (removeBcnIe_iff l.length_fixed hadd hne).1 hremove
    refine ⟨hdata, c, d, hne, hadd.ieLength ▸ hadd.le, hm, ?_⟩
    obtain hempty | hno | ⟨c', old, d', hplace⟩ := bcnPlace_cases x l.es
    · rw [addBcnIe_empty hempty] at hadd
      obtain ⟨a, b, y, hes, -, hy, hnil⟩ := hempty
      have hmem : y ∈ c ++ x :: d := by
        rw [hadd.eq_of_net, hes]
        exact List.mem_append_right _ List.mem_cons_self
      -- the element without contents is the only one with the id
      rcases List.mem_append.1 hmem with hc | hd
      · exact absurd hy (hne y (List.mem_append_left _ hc))
      · rcases List.mem_cons.1 hd with rfl | hd
        · exact absurd hnil hdata
        · exact absurd hy (hne y (List.mem_append_right _ hd))
    · rw [addBcnIe_none hno] at hadd
      exact .inl ⟨hno, hadd.eq_of_net.symm⟩
    · obtain ⟨rfl, rfl, -, hkept⟩ := (holdsBcn_place_iff hplace hothers).1 hadd
      exact .inr ⟨old, hplace, hkept⟩
  · rintro ⟨hdata, c, d, hne, hle, hm, h⟩
    have hadd : othersThan x l.es = c ++ d ∧
        HoldsBcn l.fixed (c ++ x :: d) (addBcnIe malloc x.tag x.data l.net) := by
      have hself := othersThan_eq_self.2 hne
      rw [othersThan_append] at hself
      obtain ⟨hno, hes⟩ | ⟨old, hplace, hkept⟩ := h
      · rw [addBcnIe_none hno, ← hes]
        refine ⟨?_, holdsBcn_net l⟩
        rw [hes, othersThan_append, ← hself]
        exact congrArg (_ ++ ·) (List.filter_cons_of_neg (by simp))
      · have hd : othersThan x d = d := othersThan_eq_self.2 fun z hz => hne z (List.mem_append_right _ hz)
        have hothers : othersThan x l.es = c ++ d := by rw [hplace.others, hd]
        exact ⟨hothers, (holdsBcn_place_iff hplace hothers).2 ⟨rfl, rfl, hle, hkept⟩⟩
    exact ⟨c, d, hadd.1, hadd.2, (removeBcnIe_iff l.length_fixed hadd.2 hne).2 ⟨hdata, hm⟩⟩

/-! ### The elements as a list -/

/-- The element as the handlers of the beacon see it. -/
def Ie.bcn (x : Ie) : BcnIe := ⟨x.id, x.data⟩

theorem takeWhile_bcn (hc : ∀ z ∈ c, z.id < index) (hd : ∀ z ∈ d.head?, index ≤ z.id) :
    ((c ++ d).map Ie.bcn).takeWhile (fun ie => decide (ie.elementId < index)) = c.map Ie.bcn ∧
      ((c ++ d).map Ie.bcn).dropWhile (fun ie => decide (ie.elementId < index)) = d.map Ie.bcn := by
  have hsmall : ∀ ie ∈ c.map Ie.bcn, decide (ie.elementId < index) = true := by
    rintro ie hie
    obtain ⟨z, hz, rfl⟩ := List.mem_map.1 hie
    exact decide_eq_true (hc z hz)
  rw [List.map_append, List.takeWhile_append_of_pos hsmall, List.dropWhile_append_of_pos hsmall]
  cases d with
  | nil => exact ⟨List.append_nil _, rfl⟩
  | cons z d =>
    have hz : decide ((Ie.bcn z).elementId < index) = false := decide_eq_false (Nat.not_lt.2 (hd z rfl))
    rw [List.map_cons, List.takeWhile_cons_of_neg (by simp [hz]), List.dropWhile_cons_of_neg (by simp [hz])]
    exact ⟨List.append_nil _, rfl⟩

theorem rtwAddBcnIe_same (data : List UInt8) (hc : ∀ z ∈ c, z.id < index) (hy : y.id = index) :
    rtwAddBcnIe index data ((c ++ y :: d).map Ie.bcn) =
      if y.data = [] then (c ++ y :: d).map Ie.bcn else c.map Ie.bcn ++ ⟨index, data⟩ :: d.map Ie.bcn := by
  obtain ⟨htake, hdrop⟩ := takeWhile_bcn (d := y :: d) hc fun z hz => by
    rw [List.head?_cons, Option.mem_some_iff] at hz
    exact hz ▸ hy.ge
  have hid : (Ie.bcn y).elementId = index := hy
  rw [rtwAddBcnIe, htake, hdrop, List.map_cons]
  dsimp only
  rw [if_pos hid]
  rfl

theorem rtwAddBcnIe_between (data : List UInt8) (hc : ∀ z ∈ c, z.id < index) (hd : ∀ z ∈ d.head?, index < z.id) :
    rtwAddBcnIe index data ((c ++ d).map Ie.bcn) =
      if c.getLast?.any (fun p => p.data ≠ []) then c.map Ie.bcn ++ ⟨index, data⟩ :: d.map Ie.bcn
      else (c ++ d).map Ie.bcn := by
  obtain ⟨htake, hdrop⟩ := takeWhile_bcn hc fun z hz => (hd z hz).le
  have hlast : (c.map Ie.bcn).getLast?.any (fun p => decide (p.data ≠ [])) =
      c.getLast?.any fun p => decide (p.data ≠ []) := by
    rw [List.getLast?_map]
    cases c.getLast? <;> rfl
  rw [rtwAddBcnIe, htake, hdrop, hlast]
  cases d with
  | nil => rfl
  | cons z d =>
    have hz : (Ie.bcn z).elementId ≠ index := (hd z rfl).ne'
    rw [List.map_cons]
    exact if_neg hz

/-- With room and with memory for the rest, the bytes are those of the list with the element. -/
theorem addBcnIe_list (hm : ∀ n, malloc n = true) (x : Ie) (l : BcnList)
    (hroom : (l.fixed ++ bytes l.es ++ x.bytes).length ≤ 768) :
    ∃ es, HoldsBcn l.fixed es (addBcnIe malloc x.tag x.data l.net) ∧
      es.map Ie.bcn = rtwAddBcnIe x.id x.data (l.es.map Ie.bcn) := by
  obtain ⟨c, d, y, hes, hc, hy, hnil⟩ | ⟨c, d, hes, hc, hd, hlast⟩ | ⟨c, old, d, hplace⟩ := bcnPlace_cases x l.es
  · refine ⟨l.es, ?_, ?_⟩
    · rw [addBcnIe_empty ⟨c, d, y, hes, hc, hy, hnil⟩]
      exact holdsBcn_net l
    · rw [hes, rtwAddBcnIe_same x.data hc hy, if_pos hnil]
  · refine ⟨l.es, ?_, ?_⟩
    · rw [addBcnIe_none ⟨c, d, hes, hc, hd, hlast⟩]
      exact holdsBcn_net l
    · rw [hes, rtwAddBcnIe_between x.data hc hd, if_neg]
      cases hc' : c.getLast? with
      | none => exact Bool.false_ne_true
      | some z => simp [hlast z hc']
  · refine ⟨c ++ x :: d, ?_, ?_⟩
    · rw [addBcnIe_place hplace, holdsBcn_put_self hplace.bytes_es]
      refine ⟨Nat.le_trans ?_ hroom, .inl (hm _)⟩
      rw [hplace.bytes_es]
      simp only [bytes_append, bytes_cons, List.length_append]
      omega
    · rw [List.map_append, List.map_cons]
      cases hplace with
      | replace hes hc hy hne => rw [hes, rtwAddBcnIe_same x.data hc hy, if_neg hne]; rfl
      | insert hes hc hd hne =>
        rw [hes, rtwAddBcnIe_between x.data hc hd, List.getLast?_concat, if_pos (by simpa using hne)]
        rfl

theorem rtwRemoveBcnIe_none (h : ∀ z ∈ es, z.id ≠ index) :
    rtwRemoveBcnIe index (es.map Ie.bcn) = es.map Ie.bcn := by
  have hnone : ((es.map Ie.bcn).find? fun ie => decide (ie.elementId = index)) = none := by
    rw [List.find?_eq_none]
    intro ie hie
    obtain ⟨z, hz, rfl⟩ := List.mem_map.1 hie
    exact fun hid => h z hz (of_decide_eq_true hid)
  rw [rtwRemoveBcnIe, hnone]
  rfl

theorem rtwRemoveBcnIe_found (hc : ∀ z ∈ c, z.id ≠ index) (hy : y.id = index) :
    rtwRemoveBcnIe index ((c ++ y :: d).map Ie.bcn) =
      if y.data = [] then (c ++ y :: d).map Ie.bcn else (c ++ d).map Ie.bcn := by
  have hother : ∀ ie ∈ c.map Ie.bcn, ¬ decide (ie.elementId = index) = true := by
    intro ie hie
    obtain ⟨z, hz, rfl⟩ := List.mem_map.1 hie
    exact fun hid => hc z hz (of_decide_eq_true hid)
  have hid : decide ((Ie.bcn y).elementId = index) = true := decide_eq_true hy
  have hmap : (c ++ y :: d).map Ie.bcn = c.map Ie.bcn ++ Ie.bcn y :: d.map Ie.bcn := by
    rw [List.map_append, List.map_cons]
  have hsome : (((c ++ y :: d).map Ie.bcn).find? fun ie => decide (ie.elementId = index)) = some (Ie.bcn y) := by
    rw [List.find?_eq_some_iff_append]
    exact ⟨hid, _, _, hmap, fun ie hie => by simpa using hother ie hie⟩
  have herase : ((c ++ y :: d).map Ie.bcn).eraseP (fun ie => decide (ie.elementId = index)) = (c ++ d).map Ie.bcn := by
    rw [hmap, List.eraseP_append_right _ hother, List.map_append]
    exact congrArg (_ ++ ·) (List.eraseP_cons_of_pos hid)
  rw [rtwRemoveBcnIe, hsome, herase]
  have hdata : ((some (Ie.bcn y)).any fun ie => decide (ie.data ≠ [])) = decide (y.data ≠ []) := rfl
  rw [hdata]
  by_cases hnil : y.data = [] <;> simp [hnil]

theorem removeBcnIe_list (hm : ∀ n, malloc n = true) (index : UInt8) (l : BcnList) :
    ∃ es, HoldsBcn l.fixed es (removeBcnIe malloc index l.net) ∧
      es.map Ie.bcn = rtwRemoveBcnIe index.toNat (l.es.map Ie.bcn) := by
  obtain hnone | ⟨c, y, d, hes, hc, hy⟩ := exists_first (fun z : Ie => z.id = index.toNat) l.es
  · refine ⟨l.es, ?_, (rtwRemoveBcnIe_none hnone).symm⟩
    rw [removeBcnIe, rtwGetIe_net_none hnone]
    exact holdsBcn_net l
  · obtain rfl : y.tag = index := UInt8.toNat_inj.1 hy
    have hbytes : bytes l.es = bytes c ++ (y.bytes ++ bytes d) := by rw [hes, bytes_append, bytes_cons]
    by_cases hnil : y.data = []
    · refine ⟨l.es, ?_, ?_⟩
      · rw [l.net_eq hbytes, removeBcnIe_empty l.length_fixed hc hnil, ← l.net_eq hbytes]
        exact holdsBcn_net l
      · rw [hes, rtwRemoveBcnIe_found hc hy, if_pos hnil]
    · refine ⟨c ++ d, ?_, ?_⟩
      · have hle := l.length_le
        rw [hbytes, ← List.append_assoc] at hle
        rw [l.net_eq hbytes, holdsBcn_remove_iff l.length_fixed hc hnil hle]
        exact .inl (hm _)
      · rw [hes, rtwRemoveBcnIe_found hc hy, if_neg hnil]

end

/-- A beacon that hides its SSID. -/
def hiddenSsidBcn : BcnList where
  fixed := .replicate 12 0
  es := [⟨0, [], fits_nil⟩]
  room := .replicate 754 0
  length_fixed := length_zeroFixed
  length_ies := by
    rw [List.length_append, List.length_append, length_bytes_cons, List.length_replicate, List.length_replicate]
    rfl

/-- Rates are not added behind the empty SSID. -/
theorem not_addBcnIeOk_hiddenSsid :
    ¬ AddBcnIeOk (fun _ => true) (fun _ => true) ⟨1, [0x82], by decide⟩ hiddenSsidBcn := by
  intro h
  obtain ⟨hdata, c, d, -, -, -, hplace⟩ := (addBcnIeOk_iff _ _ _ _).1 h
  have hnil : ∀ z ∈ hiddenSsidBcn.es, z.data = [] := by decide
  obtain ⟨-, hes⟩ | ⟨old, hplace, -⟩ := hplace
  · refine hdata (hnil _ ?_)
    rw [hes]
    exact List.mem_append_right _ List.mem_cons_self
  · cases hplace with
    | replace hes _ _ hne =>
      refine hne (hnil _ ?_)
      rw [hes]
      exact List.mem_append_right _ List.mem_cons_self
    | insert hes _ _ hne =>
      refine hne (hnil _ ?_)
      rw [hes]
      exact List.mem_append_left _ (List.mem_append_right _ List.mem_cons_self)

end Rtw
