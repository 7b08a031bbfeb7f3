import Mathlib.Data.Nat.Basic
import Mathlib.Logic.Function.Basic
import Mathlib.Tactic.NormNum.Basic

/-!
# Counter mode and CBC-MAC in place

A block cipher in counter mode and as a CBC-MAC, on bytes in a memory, block by block with a short last
block. `ctrCrypt_eq` turns the block loop into one statement about bytes, `cbcMac_congr` says which bytes
the MAC depends on. The block cipher `E` is any function on blocks.
-/

namespace Ccm

/-- A block of 128 bits. -/
abbrev Block := Vector UInt8 16

/-- Memory, from some address on. -/
abbrev Mem := Nat → UInt8

def xor (a b : Block) : Block := Vector.ofFn fun i => a[i] ^^^ b[i]

/-- The block at `off`. -/
def load (m : Mem) (off : Nat) : Block := Vector.ofFn fun i => m (off + i)

/-- The `n` bytes at `off`, filled up with zeros. -/
def loadPart (m : Mem) (off n : Nat) : Block := Vector.ofFn fun i => if i.val < n then m (off + i) else 0

/-- Write the first `n` bytes of `b` to `off`. -/
def store (m : Mem) (off n : Nat) (b : Block) : Mem :=
  fun i => if off ≤ i ∧ i < off + n then b[i - off]?.getD 0 else m i

/-- XOR the bytes `off .. off + len` with the stream `ks`. -/
def xorRange (m : Mem) (off len : Nat) (ks : Nat → UInt8) : Mem :=
  fun i => if off ≤ i ∧ i < off + len then m i ^^^ ks (i - off) else m i

/-- The key stream of counter mode; the counter of the first block is 1. -/
def keystream (E : Block → Block) (ctr : Nat → Block) (k : Nat) : UInt8 :=
  getElem (E (ctr (k / 16 + 1))) (k % 16) (Nat.mod_lt k (by decide))

/-- Encrypt `n` whole blocks from `off` on; `i` of them are done. The counter block may depend on the
memory. -/
def ctrBlocks (E : Block → Block) (ctrOf : Mem → Nat → Block) : (n i off : Nat) → Mem → Mem
  | 0, _, _, m => m
  | n + 1, i, off, m =>
    ctrBlocks E ctrOf n (i + 1) (off + 16) (store m off 16 (xor (E (ctrOf m (i + 1))) (load m off)))

/-- Counter mode on the `len` bytes at `off`. -/
def ctrCrypt (E : Block → Block) (ctrOf : Mem → Nat → Block) (off len : Nat) (m : Mem) : Mem :=
  let m := ctrBlocks E ctrOf (len / 16) 0 off m
  if len % 16 > 0 then
    let off := off + 16 * (len / 16)
    store m off (len % 16) (xor (E (ctrOf m (len / 16 + 1))) (loadPart m off (len % 16)))
  else m

/-- The MAC over `n` whole blocks. -/
def cbcBlocks (E : Block → Block) (m : Mem) : (n off : Nat) → Block → Block
  | 0, _, st => st
  | n + 1, off, st => cbcBlocks E m n (off + 16) (E (xor st (load m off)))

/-- The MAC over the `len` bytes at `off`, from the state `st`. -/
def cbcMac (E : Block → Block) (m : Mem) (off len : Nat) (st : Block) : Block :=
  let st := cbcBlocks E m (len / 16) off st
  if len % 16 > 0 then E (xor st (loadPart m (off + 16 * (len / 16)) (len % 16))) else st

section
variable {E : Block → Block} {m m' : Mem} {off len n i : Nat} {ks ks' : Nat → UInt8} {b : Block}

theorem xor_get (a b : Block) (i : Nat) (hi : i < 16) : (xor a b)[i] = a[i] ^^^ b[i] := by simp [xor]

theorem load_get (m : Mem) (off i : Nat) (hi : i < 16) : (load m off)[i] = m (off + i) := by simp [load]

theorem loadPart_get (m : Mem) (off n i : Nat) (hi : i < 16) :
    (loadPart m off n)[i] = if i < n then m (off + i) else 0 := by simp [loadPart]

theorem load_congr (h : ∀ i, off ≤ i → i < off + 16 → m i = m' i) : load m off = load m' off := by
  refine Vector.ext fun i hi => ?_
  rw [load_get _ _ _ hi, load_get _ _ _ hi]
  exact h (off + i) (by omega) (by omega)

theorem loadPart_congr (h : ∀ i, off ≤ i → i < off + n → m i = m' i) : loadPart m off n = loadPart m' off n := by
  refine Vector.ext fun i hi => ?_
  rw [loadPart_get _ _ _ _ hi, loadPart_get _ _ _ _ hi]
  split
  · exact h (off + i) (by omega) (by omega)
  · rfl

theorem store_of_lt (h : i < off) : store m off n b i = m i := by
  rw [store, if_neg (by omega)]

theorem store_of_ge (h : off + n ≤ i) : store m off n b i = m i := by
  rw [store, if_neg (by omega)]

theorem store_of_mem (h : off ≤ i) (hi : i < off + n) (hn : n ≤ 16) :
    store m off n b i = getElem b (i - off) (by omega) := by
  rw [store, if_pos ⟨h, hi⟩, Vector.getElem?_eq_getElem (by omega)]; rfl

theorem xorRange_of_lt (h : i < off) : xorRange m off len ks i = m i := by
  rw [xorRange, if_neg (by omega)]

theorem xorRange_of_ge (h : off + len ≤ i) : xorRange m off len ks i = m i := by
  rw [xorRange, if_neg (by omega)]

theorem xorRange_of_mem (h : off ≤ i) (hi : i < off + len) :
    xorRange m off len ks i = m i ^^^ ks (i - off) := by
  rw [xorRange, if_pos ⟨h, hi⟩]

/-- The whole-block loop, when the counter blocks depend only on memory in front of the data. -/
theorem ctrBlocks_eq {ctrOf : Mem → Nat → Block} {ctr : Nat → Block} {base : Nat}
    (hctr : ∀ m', (∀ i < base, m' i = m i) → ∀ c, ctrOf m' c = ctr c) (hbase : base ≤ off) :
    ctrBlocks E ctrOf n i off m =
      xorRange m off (16 * n) fun k => keystream E ctr (k + 16 * i) := by
  induction n generalizing i off m with
  | zero => funext j; simp only [ctrBlocks, xorRange]; rw [if_neg (by omega)]
  | succ n ih =>
    rw [ctrBlocks, ih (fun m' h' => hctr m' fun j hj => by rw [h' j hj, store_of_lt (by omega)]) (by omega)]
    funext j
    rcases Nat.lt_or_ge j off with hj | hj
    · rw [xorRange_of_lt (by omega), xorRange_of_lt hj, store_of_lt hj]
    rcases Nat.lt_or_ge j (off + 16) with hj' | hj'
    · -- a byte of the first block
      rw [xorRange_of_lt hj', xorRange_of_mem hj (by omega), store_of_mem hj hj' (Nat.le_refl _),
        hctr m (fun _ _ => rfl), xor_get, load_get, UInt8.xor_comm, keystream]
      have hdiv : (j - off + 16 * i) / 16 = i := by omega
      have hmod : (j - off + 16 * i) % 16 = j - off := by omega
      simp only [hdiv, hmod, show off + (j - off) = j by omega]
    rcases Nat.lt_or_ge j (off + 16 * (n + 1)) with hj'' | hj''
    · rw [xorRange_of_mem hj' (by omega), xorRange_of_mem hj hj'', store_of_ge hj']
      congr 2; omega
    · rw [xorRange_of_ge (by omega), xorRange_of_ge hj'', store_of_ge hj']

/-- Counter mode is the XOR with the key stream. -/
theorem ctrCrypt_eq {ctrOf : Mem → Nat → Block} {ctr : Nat → Block}
    (hctr : ∀ m', (∀ i < off, m' i = m i) → ∀ c, ctrOf m' c = ctr c) :
    ctrCrypt E ctrOf off len m = xorRange m off len (keystream E ctr) := by
  unfold ctrCrypt
  rw [ctrBlocks_eq hctr (Nat.le_refl _)]
  simp only [Nat.mul_zero, Nat.add_zero]
  have hlen := Nat.div_add_mod len 16
  split
  · funext j
    rcases Nat.lt_or_ge j (off + 16 * (len / 16)) with hj | hj
    · rw [store_of_lt hj]
      rcases Nat.lt_or_ge j off with hj' | hj'
      · rw [xorRange_of_lt hj', xorRange_of_lt hj']
      · rw [xorRange_of_mem hj' hj, xorRange_of_mem hj' (by omega)]
    rcases Nat.lt_or_ge j (off + len) with hj' | hj'
    · -- a byte of the short block
      have hmod := Nat.mod_lt len (show 0 < 16 by decide)
      rw [store_of_mem hj (by omega) (by omega), xorRange_of_mem (by omega) hj',
        hctr _ (fun _ h => xorRange_of_lt h), xor_get, loadPart_get, if_pos (by omega),
        show off + 16 * (len / 16) + (j - (off + 16 * (len / 16))) = j by omega,
        xorRange_of_ge hj, UInt8.xor_comm, keystream]
      have hd : (j - off) / 16 = len / 16 := by omega
      have hm : (j - off) % 16 = j - (off + 16 * (len / 16)) := by omega
      simp only [hd, hm]
    · rw [store_of_ge (by omega), xorRange_of_ge (by omega), xorRange_of_ge hj']
  · rw [show 16 * (len / 16) = len by omega]

theorem cbcBlocks_congr {st : Block} (h : ∀ i, off ≤ i → i < off + 16 * n → m i = m' i) :
    cbcBlocks E m n off st = cbcBlocks E m' n off st := by
  induction n generalizing off st with
  | zero => rfl
  | succ n ih =>
    rw [cbcBlocks, cbcBlocks, load_congr fun i h1 h2 => h i h1 (by omega)]
    exact ih fun i h1 h2 => h i (by omega) (by omega)

/-- The MAC depends on the bytes of its range alone. -/
theorem cbcMac_congr {st : Block} (h : ∀ i, off ≤ i → i < off + len → m i = m' i) :
    cbcMac E m off len st = cbcMac E m' off len st := by
  have hlen := Nat.div_add_mod len 16
  unfold cbcMac
  rw [cbcBlocks_congr fun i h1 h2 => h i h1 (by omega),
    loadPart_congr fun i h1 h2 => h i (by omega) (by omega)]

theorem xor_xor_self (a b : Block) : xor a (xor a b) = b := by
  refine Vector.ext fun i hi => ?_
  rw [xor_get, xor_get, ← UInt8.xor_assoc, UInt8.xor_self, UInt8.zero_xor]

theorem xor_comm (a b : Block) : xor a b = xor b a := by
  refine Vector.ext fun i hi => ?_
  rw [xor_get, xor_get, UInt8.xor_comm]

theorem surjective_xor (c : Block) : Function.Surjective fun st => xor st c := by
  intro b
  exact ⟨xor c b, by show xor (xor c b) c = b; rw [xor_comm, xor_xor_self]⟩

theorem surjective_cbcBlocks (hE : Function.Surjective E) : Function.Surjective (cbcBlocks E m n off) := by
  induction n generalizing off with
  | zero => exact Function.surjective_id
  | succ n ih => exact ih.comp (hE.comp (surjective_xor (load m off)))

/-- Under a permutation every block is the MAC for some initial state. -/
theorem surjective_cbcMac (m : Mem) (off len : Nat) (hE : Function.Surjective E) :
    Function.Surjective (cbcMac E m off len) := by
  unfold cbcMac
  split
  · exact (hE.comp (surjective_xor _)).comp (surjective_cbcBlocks hE)
  · exact surjective_cbcBlocks hE

theorem cbcMac_block (st : Block) :
    cbcMac E m off (len + 16) st = cbcMac E m (off + 16) len (E (xor st (load m off))) := by
  have hdiv : (len + 16) / 16 = len / 16 + 1 := Nat.add_div_right len (by decide)
  have hmod : (len + 16) % 16 = len % 16 := Nat.add_mod_right len 16
  simp only [cbcMac, hdiv, hmod, cbcBlocks, show off + 16 * (len / 16 + 1) = off + 16 + 16 * (len / 16) by omega]

/-- Under a permutation the first block of the data can be chosen so that the MAC is any given block. -/
theorem exists_cbcMac_eq (hE : Function.Surjective E) (m : Mem) (off len : Nat) (st t : Block) :
    ∃ m', (∀ i < off, m' i = m i) ∧ cbcMac E m' off (len + 16) st = t := by
  obtain ⟨st', rfl⟩ := surjective_cbcMac m (off + 16) len hE t
  obtain ⟨b, rfl⟩ := hE st'
  refine ⟨store m off 16 (xor st b), fun i hi => store_of_lt hi, ?_⟩
  have hload : load (store m off 16 (xor st b)) off = xor st b := by
    refine Vector.ext fun i hi => ?_
    rw [load_get _ _ _ hi, store_of_mem (by omega) (by omega) (Nat.le_refl _)]
    simp only [Nat.add_sub_cancel_left]
  rw [cbcMac_block, hload, xor_xor_self]
  exact cbcMac_congr fun i hi _ => store_of_ge hi

end

end Ccm
