import Mathlib.Data.List.Basic

/-!
# Cyclic redundancy checks

The register of a reflected check takes a message bit by bit (`run`). It is linear in what it starts from and in what
it takes (`run_xor`) and loses nothing while it takes zeros (`run_zeros_eq_zero`), so that a change within as many
bits as it has is never missed (`run_burst_ne_zero`).
-/

namespace Crc

variable {n : Nat} {poly s t : BitVec n} {a b : List Bool}

/-- The lowest bit leaves the register. -/
def shift (poly s : BitVec n) : BitVec n := if s.getLsbD 0 then (s >>> 1) ^^^ poly else s >>> 1

def ofBit (n : Nat) (b : Bool) : BitVec n := if b then 1#n else 0#n

def step (poly s : BitVec n) (b : Bool) : BitVec n := shift poly (s ^^^ ofBit n b)

def run (poly s : BitVec n) (bits : List Bool) : BitVec n := bits.foldl (step poly) s

def zeros (k : Nat) : List Bool := List.replicate k false

/-- The first bit is the lowest. -/
def pack (n : Nat) : List Bool → BitVec n
  | [] => 0#n
  | b :: bits => ofBit n b ^^^ (pack n bits <<< 1)

/-! ### One bit -/

theorem shift_xor : shift poly (s ^^^ t) = shift poly s ^^^ shift poly t := by
  unfold shift
  rw [BitVec.getLsbD_xor, BitVec.ushiftRight_xor_distrib]
  cases s.getLsbD 0 with
  | false =>
    cases t.getLsbD 0 with
    | false => rfl
    | true => exact BitVec.xor_assoc ..
  | true =>
    cases t.getLsbD 0 with
    | false =>
      show s >>> 1 ^^^ t >>> 1 ^^^ poly = s >>> 1 ^^^ poly ^^^ t >>> 1
      rw [BitVec.xor_assoc, BitVec.xor_assoc, BitVec.xor_comm (t >>> 1)]
    | true =>
      show s >>> 1 ^^^ t >>> 1 = s >>> 1 ^^^ poly ^^^ (t >>> 1 ^^^ poly)
      rw [BitVec.xor_comm (t >>> 1) poly, BitVec.xor_assoc, ← BitVec.xor_assoc poly, BitVec.xor_self,
        BitVec.zero_xor]

theorem shift_zero : shift poly 0#n = 0#n := by
  unfold shift
  rw [BitVec.getLsbD_zero, if_neg Bool.false_ne_true, BitVec.zero_ushiftRight]

theorem ofBit_xor (b c : Bool) : ofBit n (b ^^ c) = ofBit n b ^^^ ofBit n c := by
  cases b <;> cases c <;> simp [ofBit]

theorem step_xor (b c : Bool) : step poly (s ^^^ t) (b ^^ c) = step poly s b ^^^ step poly t c := by
  unfold step
  rw [← shift_xor, ofBit_xor]
  congr 1
  rw [BitVec.xor_assoc, BitVec.xor_assoc, ← BitVec.xor_assoc t, BitVec.xor_comm t, BitVec.xor_assoc]

theorem step_false : step poly s false = shift poly s := by
  show shift poly (s ^^^ 0#n) = _
  rw [BitVec.xor_zero]

/-- With the highest bit in the polynomial the bit that leaves can be told from the register. -/
theorem shift_eq_zero (hpoly : poly.msb = true) (h : shift poly s = 0#n) : s = 0#n := by
  unfold shift at h
  split at h
  · have hmsb := congrArg BitVec.msb h
    rw [BitVec.msb_xor, hpoly, BitVec.msb_ushiftRight, BitVec.msb_zero] at hmsb
    simp at hmsb
  · refine BitVec.eq_of_getLsbD_eq fun i _ => ?_
    rw [BitVec.getLsbD_zero]
    cases i with
    | zero => exact Bool.not_eq_true _ ▸ ‹_›
    | succ i =>
      have hbit : (s >>> 1).getLsbD i = (0#n).getLsbD i := congrArg (fun v => BitVec.getLsbD v i) h
      rwa [BitVec.getLsbD_ushiftRight, BitVec.getLsbD_zero, Nat.add_comm] at hbit

/-! ### Messages -/

@[simp] theorem length_zeros (k : Nat) : (zeros k).length = k := List.length_replicate

@[simp] theorem run_nil : run poly s [] = s := rfl

@[simp] theorem run_cons (bit : Bool) : run poly s (bit :: a) = run poly (step poly s bit) a := rfl

theorem run_append : run poly s (a ++ b) = run poly (run poly s a) b := List.foldl_append ..

theorem zeros_succ (k : Nat) : zeros (k + 1) = false :: zeros k := rfl

theorem run_xor (h : a.length = b.length) :
    run poly (s ^^^ t) (List.zipWith xor a b) = run poly s a ^^^ run poly t b := by
  induction a generalizing s t b with
  | nil =>
    cases b with
    | nil => rfl
    | cons y b => cases h
  | cons x a ih =>
    cases b with
    | nil => cases h
    | cons y b =>
      rw [List.zipWith_cons_cons, run_cons, run_cons, run_cons, step_xor, ih (Nat.succ.inj h)]

theorem run_zero_zeros (k : Nat) : run poly 0#n (zeros k) = 0#n := by
  induction k with
  | zero => rfl
  | succ k ih => rw [zeros_succ, run_cons, step_false, shift_zero, ih]

theorem run_zeros_xor (k : Nat) : run poly (s ^^^ t) (zeros k) = run poly s (zeros k) ^^^ run poly t (zeros k) := by
  rw [← run_xor rfl]
  congr 1
  exact (List.zipWith_replicate ..).symm ▸ (by rw [Nat.min_self]; rfl)

theorem run_zeros_eq_zero (hpoly : poly.msb = true) (k : Nat) (h : run poly s (zeros k) = 0#n) : s = 0#n := by
  induction k generalizing s with
  | zero => exact h
  | succ k ih =>
    rw [zeros_succ, run_cons, step_false] at h
    exact shift_eq_zero hpoly (ih h)

theorem run_zeros_inj (hpoly : poly.msb = true) (k : Nat) (h : run poly s (zeros k) = run poly t (zeros k)) :
    s = t := by
  have hzero : s ^^^ t = 0#n := by
    refine run_zeros_eq_zero hpoly k ?_
    rw [run_zeros_xor, h, BitVec.xor_self]
  exact BitVec.xor_eq_zero_iff.1 hzero

/-! ### Bits in the register -/

theorem getLsbD_ofBit (bit : Bool) (i : Nat) : (ofBit n bit).getLsbD i = (decide (i < n) && decide (i = 0) && bit) := by
  cases bit with
  | false =>
    show (0#n).getLsbD i = _
    rw [BitVec.getLsbD_zero, Bool.and_false]
  | true =>
    show (1#n).getLsbD i = _
    rw [BitVec.getLsbD_one, Bool.and_true]
    by_cases hi : i = 0
    · subst hi
      rfl
    · simp [hi]

theorem getLsbD_pack (i : Nat) : (pack n a).getLsbD i = (decide (i < n) && (a[i]?).getD false) := by
  induction a generalizing i with
  | nil => rw [pack, BitVec.getLsbD_zero, List.getElem?_nil, Option.getD_none, Bool.and_false]
  | cons bit a ih =>
    rw [pack, BitVec.getLsbD_xor, getLsbD_ofBit, BitVec.getLsbD_shiftLeft]
    cases i with
    | zero => simp
    | succ i =>
      rw [ih, List.getElem?_cons_succ]
      by_cases hi : i + 1 < n
      · simp [hi, show i < n by omega]
      · simp [hi]

theorem pack_append : pack n (a ++ b) = pack n a ^^^ (pack n b <<< a.length) := by
  induction a with
  | nil => rw [List.nil_append, pack, BitVec.zero_xor, List.length_nil, BitVec.shiftLeft_zero]
  | cons bit a ih =>
    rw [List.cons_append, pack, ih, pack, BitVec.shiftLeft_xor_distrib, List.length_cons, BitVec.shiftLeft_add,
      BitVec.xor_assoc]

theorem pack_inj (hlen : a.length = b.length) (h : a.length ≤ n) (heq : pack n a = pack n b) : a = b := by
  refine List.ext_getElem hlen fun i hi hi' => ?_
  have hbit := congrArg (fun v => BitVec.getLsbD v i) heq
  rw [getLsbD_pack, getLsbD_pack, List.getElem?_eq_getElem hi, List.getElem?_eq_getElem hi'] at hbit
  simpa [show i < n by omega] using hbit

theorem pack_ushiftRight (h : a.length < n) : (pack n a <<< 1) >>> 1 = pack n a := by
  refine BitVec.eq_of_getLsbD_eq fun i hi => ?_
  rw [BitVec.getLsbD_ushiftRight, BitVec.getLsbD_shiftLeft, getLsbD_pack, getLsbD_pack]
  by_cases hi' : i < a.length
  · simp [hi, show 1 + i < n by omega]
  · simp [hi, List.getElem?_eq_none (Nat.not_lt.1 hi')]

theorem shift_shiftLeft (h : a.length < n) : shift poly (pack n a <<< 1) = pack n a := by
  unfold shift
  rw [BitVec.getLsbD_shiftLeft, pack_ushiftRight h]
  simp

/-- As many bits as there is room for may as well be put into the register at once. -/
theorem run_eq_zeros (h : a.length ≤ n) : run poly s a = run poly (s ^^^ pack n a) (zeros a.length) := by
  induction a generalizing s with
  | nil =>
    rw [pack, BitVec.xor_zero]
    rfl
  | cons bit a ih =>
    have hlt : a.length < n := h
    rw [run_cons, ih (Nat.le_of_lt hlt), List.length_cons, zeros_succ, run_cons, step_false, pack,
      ← BitVec.xor_assoc, shift_xor, shift_shiftLeft hlt]
    rfl

theorem shift_shiftLeft_succ (k : Nat) (h : ∀ i, n ≤ i + (k + 1) → s.getLsbD i = false) :
    shift poly (s <<< (k + 1)) = s <<< k := by
  unfold shift
  rw [BitVec.getLsbD_shiftLeft, if_neg (by simp)]
  refine BitVec.eq_of_getLsbD_eq fun i hi => ?_
  rw [BitVec.getLsbD_ushiftRight, BitVec.getLsbD_shiftLeft, BitVec.getLsbD_shiftLeft,
    show 1 + i - (k + 1) = i - k by omega]
  rcases Nat.lt_or_ge i k with hk | hk
  · simp [hk, show 1 + i < k + 1 by omega]
  · rcases Nat.lt_or_ge (1 + i) n with hn | hn
    · simp [hi, hn, Nat.not_lt.2 hk, show ¬ 1 + i < k + 1 by omega]
    · rw [h (i - k) (by omega), Bool.and_false, Bool.and_false]

/-- What is above the bits that leave is left. -/
theorem run_shiftLeft_zeros (k : Nat) (h : ∀ i, n ≤ i + k → s.getLsbD i = false) :
    run poly (s <<< k) (zeros k) = s := by
  induction k with
  | zero => exact BitVec.shiftLeft_zero ..
  | succ k ih =>
    rw [zeros_succ, run_cons, step_false, shift_shiftLeft_succ k h]
    exact ih fun i hi => h i (by omega)

/-- The last bits of a message are told by the register before and after them. -/
theorem run_inj (hpoly : poly.msb = true) (hlen : a.length = b.length) (h : a.length ≤ n) :
    run poly s a = run poly t b ↔ s ^^^ pack n a = t ^^^ pack n b := by
  rw [run_eq_zeros (a := a) h, run_eq_zeros (a := b) (hlen ▸ h), ← hlen]
  exact ⟨run_zeros_inj hpoly _, congrArg fun s => run poly s (zeros a.length)⟩

theorem pack_ne_zero (h : a.length ≤ n) (htrue : true ∈ a) : pack n a ≠ 0#n := by
  obtain ⟨i, hi, hget⟩ := List.mem_iff_getElem.1 htrue
  intro hzero
  have hbit := getLsbD_pack (n := n) (a := a) i
  rw [hzero, BitVec.getLsbD_zero, List.getElem?_eq_getElem hi, hget] at hbit
  simp [show i < n by omega] at hbit

/-- A change within as many bits as the register has is in the register to the end of the message. -/
theorem run_burst_ne_zero (hpoly : poly.msb = true) (h : a.length ≤ n) (htrue : true ∈ a) (i j : Nat) :
    run poly 0#n (zeros i ++ a ++ zeros j) ≠ 0#n := by
  intro hzero
  rw [run_append, run_append, run_zero_zeros] at hzero
  have hrun := run_zeros_eq_zero hpoly j hzero
  rw [run_eq_zeros h, BitVec.zero_xor] at hrun
  exact pack_ne_zero h htrue (run_zeros_eq_zero hpoly _ hrun)

end Crc
