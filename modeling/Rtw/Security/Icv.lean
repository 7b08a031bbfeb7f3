import Rtw.Lib.Crc
import Rtw.Security.SwDecrypt

/-!
# What the ICV finds

`getcrc32` with its table is the bitwise check (`getcrc32_eq_run`), and RC4 lets a change of the frame through to
the payload as it is. So the changed copy of a frame that `decryptor` passes with TKIP is passed if and only if the
change alone leaves nothing in the register, which no change within 32 bits does (`decryptor_changed_tkip`).
-/

namespace Rtw
open Crc

/-- The polynomial of `crc32_init`, with its highest power lowest. -/
def crcPoly : BitVec 32 := 0xedb88320#32

/-- The bits in the order in which they are sent. -/
def byteBits (b : UInt8) : List Bool := (List.range 8).map b.toNat.testBit

def bitsOf (bs : List UInt8) : List Bool := bs.flatMap byteBits

def changeBytes (a b : List UInt8) : List UInt8 := List.zipWith (· ^^^ ·) a b

/-- The memory with `change` from `off` on. -/
def xorAt (mem : Ccm.Mem) (off : Nat) (change : List UInt8) : Ccm.Mem := fun i =>
  if off ≤ i then mem i ^^^ (change[i - off]?).getD 0 else mem i

namespace DataFrame

/-- The frame with `change` in what is behind its IV. -/
def changed (f : DataFrame) (change : List UInt8) : DataFrame :=
  { f with pframe := xorAt f.pframe (f.hdrlen + iceIvLen f.encrypt) change }

end DataFrame

section
variable {a b d src buf payload body : List UInt8} {c : Arc4context} {crc : UInt32}

/-! ### The table -/

@[simp] theorem length_byteBits (p : UInt8) : (byteBits p).length = 8 := by
  rw [byteBits, List.length_map, List.length_range]

theorem crc32Table_eq (i : UInt8) : (crc32Table i).toBitVec = run crcPoly 0#32 (byteBits i) := by
  have h : ∀ i : Fin 256, (crc32Table (UInt8.ofFin i)).toBitVec = run crcPoly 0#32 (byteBits (UInt8.ofFin i)) := by
    decide +kernel
  exact h i.toFin

theorem pack_byteBits (p : UInt8) : pack 32 (byteBits p) = p.toBitVec.setWidth 32 := by
  refine BitVec.eq_of_getLsbD_eq fun i hi => ?_
  rw [getLsbD_pack, BitVec.getLsbD_setWidth, byteBits, List.getElem?_map]
  rcases Nat.lt_or_ge i 8 with h8 | h8
  · rw [List.getElem?_range h8]
    rfl
  · rw [List.getElem?_eq_none (by rwa [List.length_range]), BitVec.getLsbD_of_ge _ _ h8]
    rfl

theorem byteBits_xor (p q : UInt8) : byteBits (p ^^^ q) = List.zipWith xor (byteBits p) (byteBits q) := by
  unfold byteBits
  rw [List.zipWith_map, List.zipWith_self, UInt8.toNat_xor]
  exact List.map_congr_left fun i _ => Nat.testBit_xor ..

/-- One byte through the table is eight bits through the register. -/
theorem crc32Table_step (crc : UInt32) (p : UInt8) :
    (crc32Table (crc.toUInt8 ^^^ p) ^^^ (crc >>> 8)).toBitVec = run crcPoly crc.toBitVec (byteBits p) := by
  have hsplit : crc.toBitVec ^^^ pack 32 (byteBits p) =
      pack 32 (byteBits (crc.toUInt8 ^^^ p)) ^^^ ((crc.toBitVec >>> 8) <<< 8) := by
    refine BitVec.eq_of_getLsbD_eq fun i hi => ?_
    rw [pack_byteBits, pack_byteBits, UInt8.toBitVec_xor, UInt32.toBitVec_toUInt8]
    simp only [BitVec.getLsbD_xor, BitVec.getLsbD_setWidth, BitVec.getLsbD_shiftLeft, BitVec.getLsbD_ushiftRight]
    rcases Nat.lt_or_ge i 8 with h8 | h8
    · simp [hi, h8]
    · rw [BitVec.getLsbD_of_ge p.toBitVec i h8]
      simp [hi, Nat.not_lt.2 h8, show 8 + (i - 8) = i by omega]
  have hhigh : run crcPoly ((crc.toBitVec >>> 8) <<< 8) (zeros 8) = crc.toBitVec >>> 8 := by
    refine run_shiftLeft_zeros 8 fun i hi => ?_
    rw [BitVec.getLsbD_ushiftRight, BitVec.getLsbD_of_ge _ _ (by omega)]
  have hlow : run crcPoly 0#32 (byteBits (crc.toUInt8 ^^^ p)) =
      run crcPoly (0#32 ^^^ pack 32 (byteBits (crc.toUInt8 ^^^ p))) (zeros (byteBits (crc.toUInt8 ^^^ p)).length) :=
    run_eq_zeros (by rw [length_byteBits]; omega)
  rw [length_byteBits, BitVec.zero_xor] at hlow
  rw [run_eq_zeros (by rw [length_byteBits]; omega), length_byteBits, hsplit, run_zeros_xor, hhigh, ← hlow,
    ← crc32Table_eq, UInt32.toBitVec_xor, UInt32.toBitVec_shiftRight]
  rfl

theorem foldl_crc32Table (buf : List UInt8) (crc : UInt32) :
    (buf.foldl (fun (crc : UInt32) p => crc32Table (crc.toUInt8 ^^^ p) ^^^ (crc >>> 8)) crc).toBitVec =
      run crcPoly crc.toBitVec (bitsOf buf) := by
  induction buf generalizing crc with
  | nil => rfl
  | cons p buf ih =>
    rw [List.foldl_cons, ih, crc32Table_step, ← run_append]
    rfl

/-- `getcrc32` is the complement of the register that has taken the bits of all bytes. -/
theorem getcrc32_eq_run (buf : List UInt8) :
    (getcrc32 buf).toBitVec = ~~~run crcPoly (BitVec.allOnes 32) (bitsOf buf) := by
  rw [getcrc32, UInt32.toBitVec_not, foldl_crc32Table]
  rfl

/-! ### The register behind the ICV -/

@[simp] theorem length_bitsOf : (bitsOf a).length = 8 * a.length := by
  induction a with
  | nil => rfl
  | cons p a ih =>
    rw [bitsOf, List.flatMap_cons, List.length_append, length_byteBits, List.length_cons]
    unfold bitsOf at ih
    omega

theorem bitsOf_append : bitsOf (a ++ b) = bitsOf a ++ bitsOf b := List.flatMap_append ..

theorem byteBits_inj {p q : UInt8} (h : byteBits p = byteBits q) : p = q := by
  have h := congrArg (pack 32) h
  rw [pack_byteBits, pack_byteBits] at h
  have h := congrArg (BitVec.setWidth 8) h
  rw [BitVec.setWidth_setWidth_of_le _ (by omega), BitVec.setWidth_setWidth_of_le _ (by omega), BitVec.setWidth_eq,
    BitVec.setWidth_eq] at h
  exact UInt8.toBitVec_inj.1 h

theorem bitsOf_inj (h : bitsOf a = bitsOf b) : a = b := by
  induction a generalizing b with
  | nil =>
    cases b with
    | nil => rfl
    | cons q b => exact absurd (congrArg List.length h) (by simp)
  | cons p a ih =>
    cases b with
    | nil => exact absurd (congrArg List.length h) (by simp)
    | cons q b =>
      obtain ⟨hpq, hab⟩ := List.append_inj (show byteBits p ++ bitsOf a = byteBits q ++ bitsOf b from h) (by simp)
      rw [byteBits_inj hpq, ih hab]

theorem bitsOf_changeBytes (h : a.length = b.length) :
    bitsOf (changeBytes a b) = List.zipWith xor (bitsOf a) (bitsOf b) := by
  induction a generalizing b with
  | nil => rfl
  | cons p a ih =>
    cases b with
    | nil => cases h
    | cons q b =>
      show byteBits (p ^^^ q) ++ bitsOf (changeBytes a b) = List.zipWith xor (byteBits p ++ bitsOf a) (byteBits q ++ bitsOf b)
      rw [List.zipWith_append (by simp), ← byteBits_xor, ih (Nat.succ.inj h)]

theorem pack_crcBytes (crc : UInt32) : pack 32 (bitsOf (crcBytes crc)) = crc.toBitVec := by
  have hbits : bitsOf (crcBytes crc) = byteBits crc.toUInt8 ++ (byteBits (crc >>> 8).toUInt8 ++
      (byteBits (crc >>> 16).toUInt8 ++ byteBits (crc >>> 24).toUInt8)) := by
    simp [bitsOf, crcBytes]
  rw [hbits, pack_append, pack_append, pack_append]
  simp only [length_byteBits, pack_byteBits, UInt32.toBitVec_toUInt8, UInt32.toBitVec_shiftRight]
  refine BitVec.eq_of_getLsbD_eq fun i hi => ?_
  simp only [BitVec.getLsbD_xor, BitVec.getLsbD_setWidth, BitVec.getLsbD_shiftLeft, hi, decide_true, Bool.true_and]
  rcases Nat.lt_or_ge i 8 with h8 | h8
  · simp [h8]
  · rcases Nat.lt_or_ge i 16 with h16 | h16
    · simp [Nat.not_lt.2 h8, show i - 8 < 8 by omega, show i - 8 < 32 by omega, show 8 + (i - 8) = i by omega]
    · rcases Nat.lt_or_ge i 24 with h24 | h24
      · simp [Nat.not_lt.2 h8, show ¬ i - 8 < 8 by omega, show i - 8 - 8 < 8 by omega, show i - 8 < 32 by omega,
          show i - 8 - 8 < 32 by omega, show 16 + (i - 8 - 8) = i by omega]
      · simp [Nat.not_lt.2 h8, show ¬ i - 8 < 8 by omega, show ¬ i - 8 - 8 < 8 by omega, show i - 8 < 32 by omega,
          show i - 8 - 8 < 32 by omega, show i - 8 - 8 - 8 < 32 by omega, show i - 8 - 8 - 8 < 8 by omega,
          show 24 + (i - 8 - 8 - 8) = i by omega]

/-- The ICV is right if and only if the register comes to its fixed last value. -/
theorem icvValid_iff_run : IcvValid payload ↔ 4 ≤ payload.length ∧
    run crcPoly (BitVec.allOnes 32) (bitsOf payload) = run crcPoly (BitVec.allOnes 32) (zeros 32) := by
  refine and_congr_right fun hlen => ?_
  generalize hhead : payload.take (payload.length - 4) = head
  generalize htail : payload.drop (payload.length - 4) = tail
  have htaillen : (bitsOf tail).length = 32 := by
    rw [length_bitsOf, ← htail, List.length_drop]
    omega
  have hpayload : payload = head ++ tail := by rw [← hhead, ← htail, List.take_append_drop]
  have hcrc := getcrc32_eq_run head
  have hzeros : pack 32 (zeros 32) = 0#32 := by decide
  rw [hpayload, bitsOf_append, run_append, run_inj (by decide) (by rw [htaillen, length_zeros]) (Nat.le_of_eq htaillen),
    hzeros, BitVec.xor_zero]
  generalize run crcPoly (BitVec.allOnes 32) (bitsOf head) = s at hcrc
  constructor
  · intro h
    rw [h, pack_crcBytes, hcrc, ← BitVec.xor_allOnes, ← BitVec.xor_assoc, BitVec.xor_self, BitVec.zero_xor]
  · intro h
    refine bitsOf_inj (pack_inj ?_ (Nat.le_of_eq htaillen) ?_)
    · rw [htaillen, length_bitsOf]
      rfl
    · rw [pack_crcBytes, hcrc, ← BitVec.xor_allOnes, ← h, ← BitVec.xor_assoc, BitVec.xor_self, BitVec.zero_xor]

/-- A change of the payload keeps its ICV right if and only if it leaves nothing in the register. -/
theorem icvValid_changeBytes (hlen : a.length = d.length) (h : IcvValid a) :
    IcvValid (changeBytes a d) ↔ run crcPoly 0#32 (bitsOf d) = 0#32 := by
  have hxorlen : (changeBytes a d).length = a.length := by
    rw [changeBytes, List.length_zipWith, hlen, Nat.min_self]
  obtain ⟨hle, hrun⟩ := icvValid_iff_run.1 h
  have hxor : run crcPoly (BitVec.allOnes 32 ^^^ 0#32) (List.zipWith xor (bitsOf a) (bitsOf d)) =
      run crcPoly (BitVec.allOnes 32) (bitsOf a) ^^^ run crcPoly 0#32 (bitsOf d) :=
    run_xor (by rw [length_bitsOf, length_bitsOf, hlen])
  rw [BitVec.xor_zero, ← bitsOf_changeBytes hlen, hrun] at hxor
  rw [icvValid_iff_run, hxorlen, and_iff_right hle, hxor]
  constructor
  · intro h
    exact (BitVec.xor_right_inj _).1 (h.trans BitVec.xor_zero.symm)
  · intro h
    rw [h, BitVec.xor_zero]

/-! ### Frames -/

theorem arcfourEncrypt_changeBytes (h : a.length = d.length) :
    arcfourEncrypt c (changeBytes a d) = changeBytes (arcfourEncrypt c a) d := by
  induction a generalizing c d with
  | nil => rfl
  | cons p a ih =>
    cases d with
    | nil => cases h
    | cons q d =>
      show (p ^^^ q ^^^ _) :: arcfourEncrypt _ (changeBytes a d) = (p ^^^ _ ^^^ q) :: changeBytes (arcfourEncrypt _ a) d
      rw [ih (Nat.succ.inj h), UInt8.xor_assoc, UInt8.xor_assoc, UInt8.xor_comm q]

/-- RC4 lets the change through as it is. -/
theorem tkipBody_changeBytes {key : AesKey} {ta : MacAddr} {iv : List UInt8} (hiv : iv.length = 8)
    (h : payload.length = d.length) :
    tkipBody key ta (iv ++ changeBytes payload d) = iv ++ changeBytes ((tkipBody key ta (iv ++ payload)).drop 8) d := by
  unfold tkipBody
  rw [tkipRc4key_append hiv, tkipRc4key_append hiv, List.take_left' hiv, List.take_left' hiv, List.drop_left' hiv,
    List.drop_left' hiv, List.drop_left' hiv, arcfourEncrypt_changeBytes h]

theorem icvMatches_iff (hlen : 12 ≤ body.length) : icvMatches body 8 = true ↔ IcvValid (body.drop 8) := by
  refine ⟨icvValid_of_icvMatches hlen, fun h => decide_eq_true ?_⟩
  rw [← h.2, List.drop_drop, List.length_drop]
  congr 1
  omega

theorem getcrc32_eq_zeros_iff :
    getcrc32 d = getcrc32 (List.replicate d.length 0) ↔ run crcPoly 0#32 (bitsOf d) = 0#32 := by
  have hzeros : bitsOf (List.replicate d.length 0) = zeros (8 * d.length) := by
    induction d with
    | nil => rfl
    | cons p d ih =>
      rw [List.length_cons, List.replicate_succ, bitsOf, List.flatMap_cons, Nat.mul_succ, Nat.add_comm, zeros,
        List.replicate_add]
      exact congrArg₂ _ (by decide) ih
  have hxor : run crcPoly (BitVec.allOnes 32 ^^^ 0#32) (List.zipWith xor (zeros (8 * d.length)) (bitsOf d)) =
      run crcPoly (BitVec.allOnes 32) (zeros (8 * d.length)) ^^^ run crcPoly 0#32 (bitsOf d) :=
    run_xor (by rw [length_zeros, length_bitsOf])
  have hself : List.zipWith xor (zeros (8 * d.length)) (bitsOf d) = bitsOf d := by
    refine List.ext_getElem (by simp) fun i hi hi' => ?_
    rw [List.getElem_zipWith]
    simp [zeros]
  rw [hself, BitVec.xor_zero] at hxor
  rw [← UInt32.toBitVec_inj, getcrc32_eq_run, getcrc32_eq_run, hzeros, hxor, BitVec.not_inj]
  constructor
  · intro h
    exact (BitVec.xor_right_inj _).1 (h.trans BitVec.xor_zero.symm)
  · intro h
    rw [h, BitVec.xor_zero]

namespace DataFrame

variable {E : AesKey → Ccm.Block → Ccm.Block} {s : SwKeys} {f : DataFrame} {pframe : Ccm.Mem} {change : List UInt8}

theorem hdrlen_changed : (f.changed change).hdrlen = f.hdrlen := rfl

theorem length_body : f.body.length = f.len - f.hdrlen := by
  rw [body, List.length_map, List.length_range]

theorem getElem?_body {i : Nat} (h : i < f.len - f.hdrlen) : f.body[i]? = some (f.pframe (f.hdrlen + i)) := by
  rw [body, List.getElem?_map, List.getElem?_range h]
  rfl

/-- A byte of a body behind whose first `k` bytes there is a change. -/
theorem getElem?_take_append_changeBytes {k i : Nat} (hbody : body.length = k + change.length) (h : i < body.length) :
    (body.take k ++ changeBytes (body.drop k) change)[i]? =
      some (if k ≤ i then body[i] ^^^ (change[i - k]?).getD 0 else body[i]) := by
  have htake : (body.take k).length = k := by
    rw [List.length_take]
    omega
  rcases Nat.lt_or_ge i k with hk | hk
  · rw [List.getElem?_append_left (by omega), List.getElem?_take_of_lt hk, if_neg (Nat.not_le.2 hk),
      List.getElem?_eq_getElem h]
  · have hchange : i - k < change.length := by omega
    rw [List.getElem?_append_right (by omega), htake, if_pos hk, changeBytes, List.getElem?_zipWith, List.getElem?_drop,
      show k + (i - k) = i by omega, List.getElem?_eq_getElem h, List.getElem?_eq_getElem hchange]
    rfl

theorem length_take_append_changeBytes {k : Nat} (hbody : body.length = k + change.length) :
    (body.take k ++ changeBytes (body.drop k) change).length = body.length := by
  rw [List.length_append, changeBytes, List.length_zipWith, List.length_take, List.length_drop]
  omega

theorem body_changed (henc : f.encrypt = .tkip) (hchange : f.hdrlen + 8 + change.length = f.len) :
    (f.changed change).body = f.body.take 8 ++ changeBytes (f.body.drop 8) change := by
  have hlen : f.body.length = 8 + change.length := by
    rw [length_body]
    omega
  refine List.ext_getElem? fun i => ?_
  rcases Nat.lt_or_ge i f.body.length with hi | hi
  · have hi' : i < f.len - f.hdrlen := length_body ▸ hi
    have hget : some f.body[i] = some (f.pframe (f.hdrlen + i)) := by
      rw [← getElem?_body hi', List.getElem?_eq_getElem hi]
    rw [getElem?_take_append_changeBytes hlen hi, getElem?_body (f := f.changed change) hi', Option.some.inj hget,
      hdrlen_changed]
    show some (xorAt f.pframe (f.hdrlen + iceIvLen f.encrypt) change (f.hdrlen + i)) = _
    rw [henc, xorAt, show f.hdrlen + i - (f.hdrlen + iceIvLen .tkip) = i - 8 by simp only [iceIvLen]; omega]
    congr 1
    exact if_congr (by simp only [iceIvLen]; omega) rfl rfl
  · rw [List.getElem?_eq_none (by rw [length_body]; rw [length_body] at hi; exact hi),
      List.getElem?_eq_none (by rw [length_take_append_changeBytes hlen]; exact hi)]

theorem setBody_changed (henc : f.encrypt = .tkip) (hbody : body.length = 8 + change.length) :
    (f.changed change).setBody (body.take 8 ++ changeBytes (body.drop 8) change) =
      xorAt (f.setBody body) (f.hdrlen + 8) change := by
  funext i
  unfold setBody xorAt
  dsimp only
  rw [hdrlen_changed]
  by_cases hi : f.hdrlen ≤ i
  · rw [if_pos hi, if_pos hi]
    rcases Nat.lt_or_ge (i - f.hdrlen) body.length with hlt | hge
    · rw [getElem?_take_append_changeBytes hbody hlt, List.getElem?_eq_getElem hlt, Option.getD_some, Option.getD_some,
        show i - f.hdrlen - 8 = i - (f.hdrlen + 8) by omega]
      exact if_congr (by omega) rfl rfl
    · rw [List.getElem?_eq_none (by rw [length_take_append_changeBytes hbody]; exact hge), List.getElem?_eq_none hge]
      show xorAt f.pframe (f.hdrlen + iceIvLen f.encrypt) change i = _
      rw [henc]
      rfl
  · rw [if_neg hi, if_neg hi, if_neg (by omega)]
    show xorAt f.pframe (f.hdrlen + iceIvLen f.encrypt) change i = _
    exact if_neg (by omega)

theorem decryptor_of_tkip (henc : f.encrypt = .tkip) (hsw : f.TakesSw s) : f.decryptor E s = f.rtwTkipDecrypt s := by
  unfold decryptor
  rw [if_pos hsw, henc]

theorem rtwTkipDecrypt_eq_passed (h : f.rtwTkipDecrypt s = .passed pframe) :
    ∃ key, f.tkipKey s = some key ∧ icvMatches (tkipBody key f.ta f.body) 8 = true ∧
      pframe = f.setBody (tkipBody key f.ta f.body) := by
  unfold rtwTkipDecrypt at h
  cases hkey : f.tkipKey s with
  | none =>
    rw [hkey] at h
    cases h
  | some key =>
    rw [hkey] at h
    dsimp only at h
    split at h
    · cases h
    · split at h
      · exact ⟨key, rfl, ‹_›, (SwResult.passed.inj h).symm⟩
      · cases h

/-- The key is found with the bytes of the IV, which are not changed. -/
theorem tkipKey_changed (henc : f.encrypt = .tkip) : (f.changed change).tkipKey s = f.tkipKey s := by
  have hindex : (f.changed change).keyIndex = f.keyIndex := by
    refine Fin.ext ?_
    show (xorAt f.pframe (f.hdrlen + iceIvLen f.encrypt) change (f.hdrlen + 3)).toNat / 64 = _
    rw [xorAt, if_neg (by rw [henc, iceIvLen]; omega)]
    rfl
  unfold tkipKey
  rw [hindex]
  rfl

/-- The changed copy of a frame that is passed. -/
theorem rtwTkipDecrypt_changed (henc : f.encrypt = .tkip) (hlen : 4 ≤ change.length)
    (hchange : f.hdrlen + 8 + change.length = f.len) (hpass : f.rtwTkipDecrypt s = .passed pframe) :
    (f.changed change).rtwTkipDecrypt s =
      if run crcPoly 0#32 (bitsOf change) = 0#32 then .passed (xorAt pframe (f.hdrlen + 8) change) else .dropped := by
  obtain ⟨key, hkey, hicv, rfl⟩ := rtwTkipDecrypt_eq_passed hpass
  have hbody : f.body.length = 8 + change.length := by
    rw [length_body]
    omega
  have htake : (f.body.take 8).length = 8 := by
    rw [List.length_take]
    omega
  have hdrop : (f.body.drop 8).length = change.length := by
    rw [List.length_drop]
    omega
  have hfirst : (tkipBody key f.ta f.body).take 8 = f.body.take 8 := List.take_left' htake
  have hnew : tkipBody key f.ta (f.changed change).body =
      (tkipBody key f.ta f.body).take 8 ++ changeBytes ((tkipBody key f.ta f.body).drop 8) change := by
    rw [body_changed henc hchange, tkipBody_changeBytes htake hdrop, List.take_append_drop, hfirst]
  have hkept : (tkipBody key f.ta f.body).length = 8 + change.length := by rw [length_tkipBody, hbody]
  have hfirstlen : ((tkipBody key f.ta f.body).take 8).length = 8 := by
    rw [List.length_take]
    omega
  have hvalid := (icvMatches_iff (by omega)).1 hicv
  have hmatch : icvMatches (tkipBody key f.ta (f.changed change).body) 8 = true ↔
      run crcPoly 0#32 (bitsOf change) = 0#32 := by
    rw [icvMatches_iff (by rw [hnew, length_take_append_changeBytes hkept]; omega), hnew, List.drop_left' hfirstlen]
    exact icvValid_changeBytes (by rw [List.length_drop]; omega) hvalid
  have hnot : ¬ (f.changed change).Short := by
    show ¬ f.len < f.hdrlen + iceIvLen f.encrypt
    rw [henc, iceIvLen]
    omega
  unfold rtwTkipDecrypt
  rw [tkipKey_changed henc, hkey]
  dsimp only
  rw [if_neg hnot, show (f.changed change).ta = f.ta from rfl, hnew, setBody_changed henc hkept, ← hnew]
  exact if_congr hmatch rfl rfl

end DataFrame

/-- A frame with `payload` and its ICV under a key of zeros. -/
def icvFrame (payload : List UInt8) : DataFrame :=
  let iv : List UInt8 := .replicate 8 0
  dataFrame .tkip false false (36 + payload.length) (frameMem 24 8 (iv ++
    arcfourEncrypt (arcfourInit (tkipRc4key (.replicate 16 0) (.replicate 6 4) iv))
      (payload ++ crcBytes (getcrc32 payload))))

theorem decryptor_icvFrame (E : AesKey → Ccm.Block → Ccm.Block) (payload : List UInt8) :
    (icvFrame payload).decryptor E (oneKey (.replicate 16 0) fun _ => 0) = .passed ((icvFrame payload).setBody
      (.replicate 8 0 ++ (payload ++ crcBytes (getcrc32 payload)))) := by
  have hcrc : (crcBytes (getcrc32 payload)).length = 4 := rfl
  have hbody : tkipBody (.replicate 16 0) (icvFrame payload).ta (icvFrame payload).body =
      .replicate 8 0 ++ (payload ++ crcBytes (getcrc32 payload)) := by
    refine (congrArg (tkipBody _ _) (@body_frameMem false false _ _ _ _ ?_)).trans
      (tkipBody_arcfour _ List.length_replicate)
    rw [List.length_append, length_arcfourEncrypt, List.length_append, hcrc, List.length_replicate]
    show 36 + payload.length = 24 + 0 + (8 + (payload.length + 4))
    omega
  have hmatch : icvMatches (List.replicate 8 0 ++ (payload ++ crcBytes (getcrc32 payload))) 8 = true := by
    rw [icvMatches_iff (by rw [List.length_append, List.length_append, hcrc, List.length_replicate]; omega),
      List.drop_left' List.length_replicate]
    exact icvValid_append_crc
  have hnot : ¬ (icvFrame payload).Short := by
    show ¬ 36 + payload.length < 24 + 0 + 8
    omega
  rw [DataFrame.decryptor_of_tkip (f := icvFrame payload) rfl (takesSw_dataFrame _ _ (by decide))]
  unfold DataFrame.rtwTkipDecrypt
  rw [show (icvFrame payload).tkipKey _ = _ from tkipKey_dataFrame ..]
  dsimp only
  rw [if_neg hnot, hbody, if_pos hmatch]

/-- Of a frame that `decryptor` passes with TKIP a changed copy is passed, with the same change in what is
decrypted, if and only if the check cannot tell the change from as many zeros. -/
theorem decryptor_changed_tkip (E : AesKey → Ccm.Block → Ccm.Block) (s : SwKeys) (f : DataFrame)
    (pframe : Ccm.Mem) (change : List UInt8) (henc : f.encrypt = .tkip) (hsw : f.TakesSw s) (hlen : 4 ≤ change.length)
    (hchange : f.hdrlen + 8 + change.length = f.len) (hpass : f.decryptor E s = .passed pframe) :
    (f.changed change).decryptor E s = if getcrc32 change = getcrc32 (List.replicate change.length 0) then
      .passed (xorAt pframe (f.hdrlen + 8) change) else .dropped := by
  have hsw' : (f.changed change).TakesSw s := hsw
  rw [DataFrame.decryptor_of_tkip henc hsw] at hpass
  rw [DataFrame.decryptor_of_tkip (f := f.changed change) henc hsw', DataFrame.rtwTkipDecrypt_changed henc hlen hchange hpass]
  exact if_congr getcrc32_eq_zeros_iff.symm rfl rfl

theorem decryptor_changed_tkip_icvFrame :
    ((icvFrame [0x61]).changed [1, 0, 0, 0, 0]).decryptor (fun _ b => b) (oneKey (.replicate 16 0) fun _ => 0) =
      .dropped := by
  have h := decryptor_changed_tkip (fun _ b => b) (oneKey (.replicate 16 0) fun _ => 0) (icvFrame [0x61]) _
    [1, 0, 0, 0, 0] rfl (takesSw_dataFrame _ _ (by decide)) (by decide) rfl (decryptor_icvFrame _ _)
  rwa [if_neg (by decide +kernel)] at h

/-- No change within 32 consecutive bits is passed, wherever it is. -/
theorem decryptor_burst_tkip (E : AesKey → Ccm.Block → Ccm.Block) (s : SwKeys) (f : DataFrame)
    (pframe : Ccm.Mem) (change : List UInt8) (burst : List Bool) (i j : Nat) (henc : f.encrypt = .tkip)
    (hsw : f.TakesSw s) (hlen : 4 ≤ change.length) (hchange : f.hdrlen + 8 + change.length = f.len)
    (hpass : f.decryptor E s = .passed pframe) (hbits : bitsOf change = zeros i ++ burst ++ zeros j)
    (hburst : burst.length ≤ 32) (htrue : true ∈ burst) : (f.changed change).decryptor E s = .dropped := by
  have hsw' : (f.changed change).TakesSw s := hsw
  rw [DataFrame.decryptor_of_tkip henc hsw] at hpass
  rw [DataFrame.decryptor_of_tkip (f := f.changed change) henc hsw', DataFrame.rtwTkipDecrypt_changed henc hlen hchange hpass, hbits]
  exact if_neg (run_burst_ne_zero (by decide) hburst htrue i j)

theorem decryptor_burst_tkip_icvFrame :
    ((icvFrame [0x61]).changed [0, 1, 0, 0, 0x80]).decryptor (fun _ b => b)
      (oneKey (.replicate 16 0) fun _ => 0) = .dropped :=
  decryptor_burst_tkip (fun _ b => b) (oneKey (.replicate 16 0) fun _ => 0) (icvFrame [0x61]) _
    [0, 1, 0, 0, 0x80] (true :: zeros 30 ++ [true]) 8 0 rfl (takesSw_dataFrame _ _ (by decide)) (by decide) rfl
    (decryptor_icvFrame _ _) (by decide) (by decide) (by decide)

end

end Rtw
