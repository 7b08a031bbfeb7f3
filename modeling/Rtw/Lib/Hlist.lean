import Mathlib.Data.List.Nodup
import Mathlib.Logic.Function.Basic

/-!
# Hash lists

Buckets of nodes in singly linked lists. A node also knows the slot that points to it, the head of its
bucket or the `next` of the node before it, so that it can be taken out without a search. `Wf L lists` says
that `lists b` are the nodes of bucket `b`, in order; `Wf.link` and `Wf.unlink` say what the two operations
do to the lists, `Wf.find` that a search sees the nodes of one list, and `Wf.forEach` that a walk which may
take out the node it is at sees each of them.
-/

/-- A place that points to a node. -/
inductive HSlot (B P : Type*) where
  | head (b : B)
  | next (p : P)
  deriving DecidableEq

structure Hlist (B P : Type*) where
  head : B → Option P
  next : P → Option P
  pprev : P → Option (HSlot B P)

namespace Hlist
variable {B P : Type*} {L L' : Hlist B P} {slot : HSlot B P} {b c : B} {p q : P} {l : List P}
  {lists : B → List P} {n : ℕ} {v : Option P}

def empty : Hlist B P where
  head _ := none
  next _ := none
  pprev _ := none

/-- What a slot points to. -/
def get (L : Hlist B P) : HSlot B P → Option P
  | .head b => L.head b
  | .next p => L.next p

/-- The search for a node from `v` on, through at most `n` nodes. -/
def find (L : Hlist B P) (found : P → Bool) : ℕ → Option P → Option P
  | 0, _ => none
  | _ + 1, none => none
  | n + 1, some p => if found p then some p else L.find found n (L.next p)

/-- `l` are the nodes from a slot on, each with the slot that points to it. -/
def Path (L : Hlist B P) : HSlot B P → List P → Prop
  | slot, [] => L.get slot = none
  | slot, p :: l => L.get slot = some p ∧ L.pprev p = some slot ∧ L.Path (.next p) l

/-- `lists` are the nodes of the buckets. -/
structure Wf (L : Hlist B P) (lists : B → List P) : Prop where
  path : ∀ b, L.Path (.head b) (lists b)
  nodup : ∀ b, (lists b).Nodup
  eq_of_mem : ∀ b c p, p ∈ lists b → p ∈ lists c → b = c

theorem wf_empty : (empty : Hlist B P).Wf fun _ => [] :=
  ⟨fun _ => rfl, fun _ => List.nodup_nil, fun _ _ _ h => absurd h List.not_mem_nil⟩

theorem Path.get_eq (h : L.Path slot l) : L.get slot = l.head? := by
  cases l with
  | nil => exact h
  | cons p l => exact h.1

/-- The slot that points to a node of the list is the first one, or belongs to a node of the list. -/
theorem Path.pprev_eq (h : L.Path slot l) (hp : p ∈ l) :
    L.pprev p = some slot ∧ l.head? = some p ∨ ∃ r ∈ l, L.pprev p = some (.next r) := by
  induction l generalizing slot with
  | nil => cases hp
  | cons q l ih =>
    obtain ⟨-, hq, hl⟩ := h
    rcases List.mem_cons.1 hp with rfl | hp
    · exact .inl ⟨hq, rfl⟩
    · rcases ih hl hp with ⟨hslot, -⟩ | ⟨r, hr, hslot⟩
      · exact .inr ⟨q, List.mem_cons_self .., hslot⟩
      · exact .inr ⟨r, List.mem_cons_of_mem _ hr, hslot⟩

theorem Path.pprev_ne_self (h : L.Path slot l) (hp : p ∈ l) (hslot : slot ≠ .next p) :
    L.pprev p ≠ some (.next p) := by
  induction l generalizing slot with
  | nil => cases hp
  | cons q l ih =>
    obtain ⟨-, hq, hl⟩ := h
    rcases eq_or_ne p q with rfl | hpq
    · rw [hq]
      exact fun heq => hslot (Option.some.inj heq)
    · exact ih hl ((List.mem_cons.1 hp).resolve_left hpq) (by simp [hpq.symm])

/-- A node is followed by a node of the list. -/
theorem Path.next_mem (h : L.Path slot l) (hp : p ∈ l) (hq : L.next p = some q) : q ∈ l := by
  induction l generalizing slot with
  | nil => cases hp
  | cons r l ih =>
    obtain ⟨-, -, hl⟩ := h
    rcases List.mem_cons.1 hp with rfl | hp
    · have hhead : L.next p = l.head? := hl.get_eq
      rw [hq] at hhead
      exact List.mem_cons_of_mem _ (List.mem_of_mem_head? hhead.symm)
    · exact List.mem_cons_of_mem _ (ih hl hp)

/-- A path depends on the slots and the nodes that it goes through. -/
theorem Path.congr (h : L.Path slot l) (hslot : L'.get slot = L.get slot)
    (hnext : ∀ p ∈ l, L'.next p = L.next p) (hpprev : ∀ p ∈ l, L'.pprev p = L.pprev p) : L'.Path slot l := by
  induction l generalizing slot with
  | nil => exact hslot.trans h
  | cons p l ih =>
    obtain ⟨hget, hp, hl⟩ := h
    obtain ⟨hn, hnext⟩ := List.forall_mem_cons.1 hnext
    obtain ⟨hpp, hpprev⟩ := List.forall_mem_cons.1 hpprev
    exact ⟨hslot.trans hget, hpp.trans hp, ih hl hn hnext hpprev⟩

theorem Path.find (h : L.Path slot l) (hn : l.length ≤ n) (found : P → Bool) :
    L.find found n (L.get slot) = l.find? found := by
  induction l generalizing slot n with
  | nil =>
    rw [h.get_eq]
    cases n <;> rfl
  | cons p l ih =>
    obtain ⟨hget, -, hl⟩ := h
    cases n with
    | zero => cases hn
    | succ n =>
      have hrest : L.find found n (L.next p) = l.find? found := ih hl (Nat.le_of_succ_le_succ hn)
      rw [hget, Hlist.find, hrest, List.find?_cons]
      cases found p <;> rfl

theorem Wf.find (h : L.Wf lists) (hn : (lists b).length ≤ n) (found : P → Bool) :
    L.find found n (L.head b) = (lists b).find? found := (h.path b).find hn found

variable [DecidableEq P]

/-- `p` is the node behind `slot`, if there is one. -/
def setPprev (L : Hlist B P) (slot : HSlot B P) : Option P → Hlist B P
  | none => L
  | some p => { L with pprev := Function.update L.pprev p (some slot) }

@[simp] theorem setPprev_head : (L.setPprev slot v).head = L.head := by cases v <;> rfl
@[simp] theorem setPprev_next : (L.setPprev slot v).next = L.next := by cases v <;> rfl

theorem setPprev_pprev : (L.setPprev slot v).pprev q = if v = some q then some slot else L.pprev q := by
  cases v with
  | none => rfl
  | some p =>
    rcases eq_or_ne q p with rfl | hq
    · simp [setPprev]
    · simp [setPprev, hq, hq.symm]

variable [DecidableEq B]

/-- A slot is made to point to `v`. -/
def set (L : Hlist B P) (slot : HSlot B P) (v : Option P) : Hlist B P :=
  match slot with
  | .head b => { L with head := Function.update L.head b v }
  | .next p => { L with next := Function.update L.next p v }

theorem set_get {slot' : HSlot B P} : (L.set slot v).get slot' = if slot' = slot then v else L.get slot' := by
  cases slot with
  | head b =>
    cases slot' with
    | head c =>
      rcases eq_or_ne c b with rfl | hc
      · simp [set, get]
      · simp [set, get, hc]
    | next q => simp [set, get]
  | next p =>
    cases slot' with
    | head c => simp [set, get]
    | next q =>
      rcases eq_or_ne q p with rfl | hq
      · simp [set, get]
      · simp [set, get, hq]

@[simp] theorem set_pprev : (L.set slot v).pprev = L.pprev := by cases slot <;> rfl

/-- A node becomes the first one of a bucket. -/
def link (L : Hlist B P) (p : P) (b : B) : Hlist B P :=
  let L := L.set (.next p) (L.head b)
  let L := L.setPprev (.next p) (L.next p)
  let L := L.set (.head b) (some p)
  L.setPprev (.head b) (some p)

/-- A node is taken out. -/
def unlink (L : Hlist B P) (p : P) : Hlist B P :=
  match L.pprev p with
  | none => L
  | some slot =>
    let L := L.set slot (L.next p)
    let L := L.setPprev slot (L.next p)
    { L.set (.next p) none with pprev := Function.update L.pprev p none }

theorem link_get {slot' : HSlot B P} : (L.link p b).get slot' =
    if slot' = .head b then some p else if slot' = .next p then L.head b else L.get slot' := by
  have hset : ∀ (M : Hlist B P) (t : HSlot B P) (u : Option P), (M.setPprev t u).get slot' = M.get slot' := by
    intro M t u
    cases slot' with
    | head c => exact congrFun setPprev_head c
    | next q => exact congrFun setPprev_next q
  rw [link, hset, set_get, hset, set_get]

theorem link_pprev : (L.link p b).pprev q =
    if q = p then some (.head b) else if L.head b = some q then some (.next p) else L.pprev q := by
  have hnext : (L.set (.next p) (L.head b)).next p = L.head b := by simp [set]
  rw [link, setPprev_pprev, set_pprev, setPprev_pprev, set_pprev, hnext]
  rcases eq_or_ne q p with rfl | hq
  · rw [if_pos rfl, if_pos rfl]
  · rw [if_neg (fun h => hq (Option.some.inj h).symm), if_neg hq]

/-- The new node is in front of the nodes of its bucket. -/
theorem Wf.link (h : L.Wf lists) (hp : ∀ c, p ∉ lists c) (b : B) :
    (L.link p b).Wf (Function.update lists b (p :: lists b)) := by
  have hrest : ∀ c (l : List P) (slot : HSlot B P), L.Path slot l → (∀ q ∈ l, q ∈ lists c) →
      (L.link p b).get slot = L.get slot → (∀ q ∈ l, L.head b ≠ some q) → (L.link p b).Path slot l := by
    intro c l slot hl hmem hslot hhead
    refine hl.congr hslot (fun q hq => ?_) fun q hq => ?_
    · have hne : q ≠ p := fun hqp => hp c (hqp ▸ hmem q hq)
      have hget : (L.link p b).get (.next q) = L.get (.next q) := by
        rw [link_get, if_neg (by simp), if_neg (by simp [hne])]
      exact hget
    · have hne : q ≠ p := fun hqp => hp c (hqp ▸ hmem q hq)
      rw [link_pprev, if_neg hne, if_neg (hhead q hq)]
  refine ⟨fun c => ?_, fun c => ?_, fun c d q hc hd => ?_⟩
  · rcases eq_or_ne c b with rfl | hcb
    · rw [Function.update_self]
      refine ⟨by rw [link_get, if_pos rfl], by rw [link_pprev, if_pos rfl], ?_⟩
      have hfirst : (L.link p c).get (.next p) = L.head c := by
        rw [link_get, if_neg (by simp), if_pos rfl]
      have hpath := h.path c
      have hnd := h.nodup c
      have hin : ∀ q ∈ lists c, q ∈ lists c := fun _ hq => hq
      generalize hl : lists c = l at hpath hnd
      cases l with
      | nil => exact hfirst.trans hpath
      | cons q l =>
        obtain ⟨hget, -, hq⟩ := hpath
        have hhead : L.head c = some q := hget
        have hne : q ≠ p := fun hqp => hp c (by rw [hl, ← hqp]; exact List.mem_cons_self ..)
        refine ⟨hfirst.trans hhead, by rw [link_pprev, if_neg hne, if_pos hhead], ?_⟩
        refine hrest c l (.next q) hq (fun r hr => by rw [hl]; exact List.mem_cons_of_mem _ hr) ?_ fun r hr => ?_
        · rw [link_get, if_neg (by simp), if_neg (by simp [hne])]
        · rw [hhead]
          intro heq
          exact (List.nodup_cons.1 hnd).1 (Option.some.inj heq ▸ hr)
    · rw [Function.update_of_ne hcb]
      refine hrest c (lists c) _ (h.path c) (fun q hq => hq) ?_ fun q hq heq => ?_
      · rw [link_get, if_neg (by simp [hcb]), if_neg (by simp)]
      · have hmem : q ∈ lists b := List.mem_of_mem_head? ((h.path b).get_eq.symm.trans heq)
        exact hcb (h.eq_of_mem c b q hq hmem)
  · rcases eq_or_ne c b with rfl | hcb
    · rw [Function.update_self]
      exact List.nodup_cons.2 ⟨hp c, h.nodup c⟩
    · rw [Function.update_of_ne hcb]
      exact h.nodup c
  · have hwhere : ∀ {e}, q ∈ Function.update lists b (p :: lists b) e → q = p ∧ e = b ∨ q ∈ lists e := by
      intro e he
      rcases eq_or_ne e b with rfl | heb
      · rw [Function.update_self] at he
        exact (List.mem_cons.1 he).imp_left fun hq => ⟨hq, rfl⟩
      · rw [Function.update_of_ne heb] at he
        exact .inr he
    rcases hwhere hc with ⟨hqc, hcb⟩ | hc'
    · rcases hwhere hd with ⟨-, hdb⟩ | hd'
      · exact hcb.trans hdb.symm
      · exact absurd (hqc ▸ hd') (hp d)
    · rcases hwhere hd with ⟨hqd, -⟩ | hd'
      · exact absurd (hqd ▸ hc') (hp c)
      · exact h.eq_of_mem c d q hc' hd'

theorem unlink_get (h : L.pprev p = some slot) {slot' : HSlot B P} :
    (L.unlink p).get slot' = if slot' = .next p then none else if slot' = slot then L.next p else L.get slot' := by
  have hget : ∀ (M : Hlist B P) (f : P → Option (HSlot B P)),
      ({ M with pprev := f } : Hlist B P).get slot' = M.get slot' := by
    intro M f
    cases slot' <;> rfl
  have hpprev : ∀ (M : Hlist B P) (t : HSlot B P) (u : Option P), (M.setPprev t u).get slot' = M.get slot' := by
    intro M t u
    cases slot' with
    | head c => exact congrFun setPprev_head c
    | next q => exact congrFun setPprev_next q
  rw [unlink, h]
  dsimp only
  rw [hget, set_get, hpprev, set_get]

theorem unlink_pprev (h : L.pprev p = some slot) (hslot : slot ≠ .next p) :
    (L.unlink p).pprev q = if q = p then none else if L.next p = some q then some slot else L.pprev q := by
  have hnext : (L.set slot (L.next p)).next p = L.next p := by
    have hget : (L.set slot (L.next p)).get (.next p) = L.get (.next p) := by
      rw [set_get, if_neg hslot.symm]
    exact hget
  rw [unlink, h]
  dsimp only
  rcases eq_or_ne q p with rfl | hq
  · rw [if_pos rfl, Function.update_self]
  · rw [if_neg hq, Function.update_of_ne hq, setPprev_pprev, set_pprev, hnext]

/-- The list from a slot on, after one of its nodes is taken out. -/
theorem Path.unlink (hl : L.Path slot l) (hnd : l.Nodup) (hp : p ∈ l) (hslot : ∀ q ∈ l, slot ≠ .next q) :
    (L.unlink p).Path slot (l.erase p) := by
  induction l generalizing slot with
  | nil => cases hp
  | cons q l ih =>
    obtain ⟨hget, hq, hl⟩ := hl
    obtain ⟨hql, hndl⟩ := List.nodup_cons.1 hnd
    rcases eq_or_ne p q with rfl | hpq
    · have hne : slot ≠ .next p := hslot p (List.mem_cons_self ..)
      rw [List.erase_cons_head]
      have hfirst : (L.unlink p).get slot = L.next p := by
        rw [unlink_get hq, if_neg hne, if_pos rfl]
      cases l with
      | nil => exact hfirst.trans hl
      | cons r l =>
        obtain ⟨hr, -, hl⟩ := hl
        have hr : L.next p = some r := hr
        have hpr : ∀ s ∈ r :: l, s ≠ p := fun s hs hsp => hql (hsp ▸ hs)
        refine ⟨hfirst.trans hr, ?_, hl.congr ?_ (fun s hs => ?_) fun s hs => ?_⟩
        · rw [unlink_pprev hq hne, if_neg (hpr r (List.mem_cons_self ..)), if_pos hr]
        · rw [unlink_get hq, if_neg (by simp [hpr r (List.mem_cons_self ..)]),
            if_neg (hslot r (List.mem_cons_of_mem _ (List.mem_cons_self ..))).symm]
        · have hs' := List.mem_cons_of_mem r hs
          have hns : (L.unlink p).get (.next s) = L.get (.next s) := by
            rw [unlink_get hq, if_neg (by simp [hpr s hs']), if_neg (hslot s (List.mem_cons_of_mem _ hs')).symm]
          exact hns
        · have hs' := List.mem_cons_of_mem r hs
          have hrs : r ≠ s := fun h => (List.nodup_cons.1 hndl).1 (h ▸ hs)
          rw [unlink_pprev hq hne, if_neg (hpr s hs'), hr, if_neg (by simp [hrs])]
    · have hpl : p ∈ l := (List.mem_cons.1 hp).resolve_left hpq
      obtain ⟨t, ht, hne, hts⟩ : ∃ t, L.pprev p = some t ∧ t ≠ .next p ∧ t ≠ slot := by
        rcases hl.pprev_eq hpl with ⟨ht, -⟩ | ⟨r, hr, ht⟩
        · exact ⟨_, ht, by simp [Ne.symm hpq], (hslot q (List.mem_cons_self ..)).symm⟩
        · refine ⟨_, ht, ?_, (hslot r (List.mem_cons_of_mem _ hr)).symm⟩
          intro heq
          obtain rfl : r = p := by simpa using heq
          exact hl.pprev_ne_self hpl (by simp [Ne.symm hpq]) ht
      rw [List.erase_cons_tail (by simpa using Ne.symm hpq)]
      refine ⟨?_, ?_, ih hl hndl hpl fun s hs => ?_⟩
      · rw [unlink_get ht, if_neg (hslot p (List.mem_cons_of_mem _ hpl)), if_neg hts.symm, hget]
      · rw [unlink_pprev ht hne, if_neg (Ne.symm hpq), if_neg (fun h => hql (hl.next_mem hpl h)), hq]
      · intro heq
        obtain rfl : q = s := by simpa using heq
        exact hql hs

/-- The node is gone from the list of its bucket. -/
theorem Wf.unlink (h : L.Wf lists) (hp : p ∈ lists b) :
    (L.unlink p).Wf (Function.update lists b ((lists b).erase p)) := by
  refine ⟨fun c => ?_, fun c => ?_, fun c d q hc hd => ?_⟩
  · rcases eq_or_ne c b with rfl | hcb
    · rw [Function.update_self]
      exact (h.path c).unlink (h.nodup c) hp fun q _ => by simp
    · rw [Function.update_of_ne hcb]
      obtain ⟨t, ht, hne, htc, htq⟩ : ∃ t, L.pprev p = some t ∧ t ≠ .next p ∧ t ≠ .head c ∧
          ∀ q ∈ lists c, t ≠ .next q := by
        rcases (h.path b).pprev_eq hp with ⟨ht, -⟩ | ⟨r, hr, ht⟩
        · exact ⟨_, ht, by simp, by simp [hcb.symm], fun q _ => by simp⟩
        · refine ⟨_, ht, ?_, by simp, fun q hq heq => ?_⟩
          · intro heq
            exact (h.path b).pprev_ne_self hp (by simp) (ht.trans (congrArg some heq))
          · obtain rfl : r = q := by simpa using heq
            exact hcb (h.eq_of_mem c b r hq hr)
      refine (h.path c).congr ?_ (fun q hq => ?_) fun q hq => ?_
      · rw [unlink_get ht, if_neg (by simp), if_neg htc.symm]
      · have hqp : q ≠ p := fun heq => hcb (h.eq_of_mem c b q hq (heq ▸ hp))
        have hget : (L.unlink p).get (.next q) = L.get (.next q) := by
          rw [unlink_get ht, if_neg (by simp [hqp]), if_neg (htq q hq).symm]
        exact hget
      · have hqp : q ≠ p := fun heq => hcb (h.eq_of_mem c b q hq (heq ▸ hp))
        rw [unlink_pprev ht hne, if_neg hqp,
          if_neg (fun heq => hcb (h.eq_of_mem c b q hq ((h.path b).next_mem hp heq)))]
  · rcases eq_or_ne c b with rfl | hcb
    · rw [Function.update_self]
      exact (h.nodup c).erase p
    · rw [Function.update_of_ne hcb]
      exact h.nodup c
  · have hmem : ∀ {e}, q ∈ Function.update lists b ((lists b).erase p) e → q ∈ lists e := by
      intro e he
      rcases eq_or_ne e b with rfl | heb
      · rw [Function.update_self] at he
        exact List.mem_of_mem_erase he
      · rwa [Function.update_of_ne heb] at he
    exact h.eq_of_mem c d q (hmem hc) (hmem hd)

/-! ### Going through a list whose nodes may be taken out on the way -/

section
variable {σ : Type*}

/-- `step` on each node from `v` on, at most `n` of them; the next node is read first. -/
def forEach (links : σ → Hlist B P) (step : σ → P → σ) : ℕ → Option P → σ → σ
  | 0, _, s => s
  | _ + 1, none, s => s
  | n + 1, some p, s => forEach links step n ((links s).next p) (step s p)

theorem Path.forEach {links : σ → Hlist B P} {step : σ → P → σ}
    (hstep : ∀ s p, links (step s p) = links s ∨ links (step s p) = (links s).unlink p) {s : σ}
    (h : (links s).Path slot l) (hnd : l.Nodup) (hslot : ∀ q ∈ l, slot ≠ .next q) (hn : l.length ≤ n) :
    Hlist.forEach links step n ((links s).get slot) s = l.foldl step s := by
  induction l generalizing slot s n with
  | nil =>
    rw [h.get_eq]
    cases n <;> rfl
  | cons p l ih =>
    obtain ⟨hpl, hndl⟩ := List.nodup_cons.1 hnd
    have hget := h.1
    have hrest : (links s).Path (.next p) l := h.2.2
    cases n with
    | zero => cases hn
    | succ n =>
      rw [hget]
      have hn := Nat.le_of_succ_le_succ hn
      show Hlist.forEach links step n ((links s).get (.next p)) (step s p) = l.foldl step (step s p)
      rcases hstep s p with hlinks | hlinks
      · have hpath : (links (step s p)).Path (.next p) l := by rw [hlinks]; exact hrest
        rw [← ih hpath hndl (fun q hq heq => hpl (by cases heq; exact hq)) hn, hlinks]
      · have hpath : (links (step s p)).Path slot l := by
          have := h.unlink hnd (List.mem_cons_self ..) hslot
          rwa [List.erase_cons_head, ← hlinks] at this
        rw [← ih hpath hndl (fun q hq => hslot q (List.mem_cons_of_mem _ hq)) hn, hpath.get_eq, hrest.get_eq]

theorem Wf.forEach {links : σ → Hlist B P} {step : σ → P → σ} {s : σ}
    (h : (links s).Wf lists)
    (hstep : ∀ s p, links (step s p) = links s ∨ links (step s p) = (links s).unlink p)
    (hn : (lists b).length ≤ n) :
    Hlist.forEach links step n ((links s).head b) s = (lists b).foldl step s :=
  (h.path b).forEach hstep (h.nodup b) (fun q _ => by simp) hn

end

end Hlist
