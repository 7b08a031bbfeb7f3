import Rtw.Lib.OnesComplement
import Rtw.Bridge.Pppoe

/-!
# The broadcast flag of DHCP requests

A DHCP server cannot answer a bridge client under its own address, so `dhcp_flag_bcast` asks it for a broadcast. The
flags that come out are added to the UDP checksum as if there had been none before. `dhcpFlagOk_iff`: that is right for
flags zero, when the new checksum is not zero, and keeps a checksum absent for one value of the flags only.
-/

namespace Rtw
open OnesComplement Splice

def ethPIp : Nat := 0x0800
def ipprotoUdp : UInt8 := 17
def clientPort : Nat := 68
def serverPort : Nat := 67
def dhcpMagic : Nat := 0x63825363

section
variable (mem : Nat → UInt8)

def get32 (a : Nat) : Nat := get16 mem a * 65536 + get16 mem (a + 2)

/-- `iph->ihl` -/
def ihl : Nat := (mem 14).toNat % 16

/-- `udph` -/
def udpOff : Nat := 14 + 4 * ihl mem

/-- `dhcph` -/
def dhcpOff : Nat := udpOff mem + 8

/-- `dhcph->flags & htons(BROADCAST_FLAG)` -/
def BcastFlag : Prop := 128 ≤ (mem (dhcpOff mem + 10)).toNat

instance : Decidable (BcastFlag mem) := inferInstanceAs (Decidable (_ ≤ _))

end

/-- A 16-bit number as the processor stores it. -/
def hostBytes (bigEndian : Bool) (n : Nat) : List UInt8 := if bigEndian then be16 n else (be16 n).reverse

/-- `dhcp_flag_bcast` -/
def dhcpFlagBcast (bigEndian dhcpBcstDisable : Bool) (skb : Skb) : Skb :=
  if dhcpBcstDisable then skb
  else if get16 skb.mem 12 ≠ ethPIp then skb
  else if skb.mem 23 ≠ ipprotoUdp then skb
  else
    let udph := udpOff skb.mem
    if ¬ (get16 skb.mem udph = clientPort ∧ get16 skb.mem (udph + 2) = serverPort) then skb
    else
      let dhcph := dhcpOff skb.mem
      if get32 skb.mem (dhcph + 236) ≠ dhcpMagic then skb
      else if BcastFlag skb.mem then skb
      else
        let mem := copy (dhcph + 10) [skb.mem (dhcph + 10) ||| 0x80] skb.mem
        let sum := 0xffff - hostU16 mem bigEndian (udph + 6)
        let sum := fold 0xffff (sum + hostU16 mem bigEndian (dhcph + 10))
        skb.setMem (copy (udph + 6) (hostBytes bigEndian (0xffff - sum)) mem)

section
variable (mem : Nat → UInt8)

/-- The length in the UDP header. -/
def udpLen : Nat := get16 mem (udpOff mem + 4)

def udpCheck : Nat := get16 mem (udpOff mem + 6)

def dhcpFlags : Nat := get16 mem (dhcpOff mem + 10)

/-- The pseudo-header and the datagram. -/
def udpBytes : List UInt8 :=
  read mem 26 8 ++ ([0, ipprotoUdp] ++ be16 (udpLen mem)) ++ read mem (udpOff mem) (udpLen mem)

/-- There is a checksum, and it is right. -/
def UdpCorrect : Prop := udpCheck mem ≠ 0 ∧ fold 0xffff (sum (udpBytes mem)) = 0xffff

def UdpAbsent : Prop := udpCheck mem = 0

instance : Decidable (UdpCorrect mem) := inferInstanceAs (Decidable (_ ∧ _))

instance : Decidable (UdpAbsent mem) := inferInstanceAs (Decidable (_ = _))

end

/-- A UDP/IPv4 DHCP request, with its cookie within it. -/
structure DhcpRequest extends Skb where
  etherType : get16 mem 12 = ethPIp
  ihl_le : 5 ≤ ihl mem
  protocol : mem 23 = ipprotoUdp
  source : get16 mem (udpOff mem) = clientPort
  dest : get16 mem (udpOff mem + 2) = serverPort
  cookie : get32 mem (dhcpOff mem + 236) = dhcpMagic
  le_udpLen : 248 ≤ udpLen mem
  udpLen_le : udpOff mem + udpLen mem ≤ len
  checksum : UdpAbsent mem ∨ UdpCorrect mem

/-- What becomes of a request: only the broadcast bit and the checksum change, and the checksum is as good as before. -/
structure DhcpFlagOk (bigEndian dhcpBcstDisable : Bool) (r : DhcpRequest) : Prop where
  bcast : BcastFlag (dhcpFlagBcast bigEndian dhcpBcstDisable r.toSkb).mem
  flags : (dhcpFlagBcast bigEndian dhcpBcstDisable r.toSkb).mem (dhcpOff r.mem + 10) =
    r.mem (dhcpOff r.mem + 10) ||| 0x80
  same : ∀ i, i ≠ dhcpOff r.mem + 10 → i ≠ udpOff r.mem + 6 → i ≠ udpOff r.mem + 7 →
    (dhcpFlagBcast bigEndian dhcpBcstDisable r.toSkb).mem i = r.mem i
  len : (dhcpFlagBcast bigEndian dhcpBcstDisable r.toSkb).len = r.len
  absent : UdpAbsent r.mem → UdpAbsent (dhcpFlagBcast bigEndian dhcpBcstDisable r.toSkb).mem
  correct : UdpCorrect r.mem → UdpCorrect (dhcpFlagBcast bigEndian dhcpBcstDisable r.toSkb).mem

section
variable {mem mem' : Nat → UInt8} {bigEndian : Bool} {a : Nat}

theorem get16_lt : get16 mem a < 65536 := by
  have := (mem a).toNat_lt
  have := (mem (a + 1)).toNat_lt
  unfold get16
  omega

theorem hostU16_lt : hostU16 mem bigEndian a < 65536 := by
  have := (mem a).toNat_lt
  have := (mem (a + 1)).toNat_lt
  unfold hostU16 get16
  split <;> omega

/-- The order of the bytes does not matter to the sum, but for a factor. -/
theorem hostU16_modEq : hostU16 mem bigEndian a * (if bigEndian then 1 else 256) % 65535 = get16 mem a % 65535 := by
  unfold hostU16 get16
  cases bigEndian with
  | true => rw [if_pos rfl, if_pos rfl, Nat.mul_one]
  | false =>
    rw [if_neg Bool.false_ne_true, if_neg Bool.false_ne_true]
    omega

theorem hostU16_eq_max_iff : hostU16 mem bigEndian a = 65535 ↔ get16 mem a = 65535 := by
  have := (mem a).toNat_lt
  have := (mem (a + 1)).toNat_lt
  unfold hostU16 get16
  split <;> omega

theorem hostU16_eq_zero_iff : hostU16 mem bigEndian a = 0 ↔ get16 mem a = 0 := by
  unfold hostU16 get16
  split <;> omega

theorem get16_congr (h : mem' a = mem a) (h' : mem' (a + 1) = mem (a + 1)) : get16 mem' a = get16 mem a := by
  rw [get16, get16, h, h']

theorem length_hostBytes (n : Nat) : (hostBytes bigEndian n).length = 2 := by
  unfold hostBytes
  split <;> rfl

theorem hostU16_hostBytes {n : Nat} (h : n < 65536) : hostU16 (copy a (hostBytes bigEndian n) mem) bigEndian a = n := by
  have hhigh : (UInt8.ofNat (n / 256)).toNat = n / 256 := by
    rw [UInt8.toNat_ofNat']
    omega
  have hlow : (UInt8.ofNat n).toNat = n % 256 := UInt8.toNat_ofNat'
  have hat : At (copy a (hostBytes bigEndian n) mem) a (hostBytes bigEndian n) := at_copy
  cases bigEndian with
  | true =>
    obtain ⟨h0, h1, -⟩ := hat
    rw [hostU16, if_pos rfl, get16, h0, h1, hhigh, hlow]
    omega
  | false =>
    obtain ⟨h0, h1, -⟩ := hat
    rw [hostU16, if_neg Bool.false_ne_true, h0, h1, hhigh, hlow]
    omega

/-- The pseudo-header, and the datagram up to the checksum. -/
def udpFront (mem : Nat → UInt8) : List UInt8 :=
  read mem 26 8 ++ ([0, ipprotoUdp] ++ be16 (udpLen mem)) ++ read mem (udpOff mem) 6

theorem length_udpFront : (udpFront mem).length = 18 := by
  have hpseudo : ([0, ipprotoUdp] ++ be16 (udpLen mem)).length = 4 := rfl
  rw [udpFront, List.length_append, List.length_append, hpseudo, length_read, length_read]

/-- The words of the datagram apart from the checksum and the flags. -/
def udpRest (mem : Nat → UInt8) : Nat :=
  sum (udpFront mem) + (sum (read mem (udpOff mem + 8) 10) + sum (read mem (udpOff mem + 20) (udpLen mem - 20)))

theorem udpSum_eq (h : 20 ≤ udpLen mem) :
    sum (udpBytes mem) = udpRest mem + (udpCheck mem + dhcpFlags mem) := by
  have hlen : udpLen mem = 6 + (2 + (10 + (2 + (udpLen mem - 20)))) := by omega
  have hread : read mem (udpOff mem) (udpLen mem) =
      read mem (udpOff mem) 6 ++ (read mem (udpOff mem + 6) 2 ++ (read mem (udpOff mem + 8) 10 ++
        (read mem (udpOff mem + 18) 2 ++ read mem (udpOff mem + 20) (udpLen mem - 20)))) := by
    conv_lhs => rw [hlen]
    rw [read_add, read_add, read_add, read_add]
  have hcheck : sum (read mem (udpOff mem + 6) 2) = udpCheck mem := sum_pair _ _
  have hflags : sum (read mem (udpOff mem + 18) 2) = dhcpFlags mem := sum_pair _ _
  have hbytes : udpBytes mem = udpFront mem ++ (read mem (udpOff mem + 6) 2 ++ (read mem (udpOff mem + 8) 10 ++
      (read mem (udpOff mem + 18) 2 ++ read mem (udpOff mem + 20) (udpLen mem - 20)))) := by
    rw [udpBytes, hread, ← List.append_assoc]
    rfl
  rw [hbytes, sum_append (by rw [length_udpFront]), sum_append (by rw [length_read]), sum_append (by rw [length_read]),
    sum_append (by rw [length_read]), hcheck, hflags, udpRest]
  omega

/-- `mem'` has what `mem` has, but for the flags and the checksum. -/
def SameRest (mem mem' : Nat → UInt8) : Prop :=
  ∀ i, i ≠ dhcpOff mem + 10 → i ≠ udpOff mem + 6 → i ≠ udpOff mem + 7 → mem' i = mem i

theorem SameRest.of_lt (h : SameRest mem mem') {i : Nat} (hi : i < udpOff mem + 6) : mem' i = mem i := by
  have hdhcp : dhcpOff mem = udpOff mem + 8 := rfl
  exact h i (by omega) (by omega) (by omega)

theorem SameRest.udpOff_eq (h : SameRest mem mem') : udpOff mem' = udpOff mem := by
  have hlt : 14 < udpOff mem + 6 := by
    unfold udpOff
    omega
  rw [udpOff, udpOff, ihl, ihl, h.of_lt hlt]

theorem SameRest.udpLen_eq (h : SameRest mem mem') : udpLen mem' = udpLen mem := by
  rw [udpLen, udpLen, h.udpOff_eq]
  exact get16_congr (h.of_lt (by omega)) (h.of_lt (by omega))

theorem SameRest.udpRest_eq (h : SameRest mem mem') (hihl : 5 ≤ ihl mem) : udpRest mem' = udpRest mem := by
  have hdhcp : dhcpOff mem = udpOff mem + 8 := rfl
  have hoff : 34 ≤ udpOff mem := by
    unfold udpOff
    omega
  have hread (a n : Nat)
      (hn : a + n ≤ udpOff mem + 6 ∨ udpOff mem + 8 ≤ a ∧ a + n ≤ udpOff mem + 18 ∨ udpOff mem + 19 < a) :
      read mem' a n = read mem a n :=
    read_congr fun i hi => h _ (by omega) (by omega) (by omega)
  rw [udpRest, udpRest, udpFront, udpFront, h.udpOff_eq, h.udpLen_eq, hread 26 8 (by omega),
    hread _ 6 (by omega), hread _ 10 (by omega), hread (udpOff mem + 20) _ (by omega)]

theorem or_bcast_of_le {x : UInt8} (h : 128 ≤ x.toNat) : x ||| 0x80 = x := by
  have hlt : x.toNat - 128 < 2 ^ 7 := by
    have := x.toNat_lt
    omega
  have hor : (x.toNat - 128) ||| 2 ^ 7 = x.toNat := by
    rw [Nat.or_two_pow_eq_add_of_lt hlt]
    exact Nat.sub_add_cancel h
  apply UInt8.toNat_inj.1
  rw [UInt8.toNat_or, ← hor]
  exact (Nat.or_assoc _ _ _).trans (congrArg _ (Nat.or_self _))

theorem or_bcast {x : UInt8} (h : x.toNat < 128) : (x ||| 0x80).toNat = x.toNat + 128 := by
  rw [UInt8.toNat_or]
  exact Nat.or_two_pow_eq_add_of_lt (n := 7) h

end

/-- The memory with the flag. -/
def flagMem (mem : Nat → UInt8) : Nat → UInt8 := copy (dhcpOff mem + 10) [mem (dhcpOff mem + 10) ||| 0x80] mem

/-- The checksum that is stored then. -/
def newCheck (bigEndian : Bool) (mem : Nat → UInt8) : Nat :=
  0xffff - fold 0xffff (0xffff - hostU16 (flagMem mem) bigEndian (udpOff mem + 6) +
    hostU16 (flagMem mem) bigEndian (dhcpOff mem + 10))

def bcastMem (bigEndian : Bool) (mem : Nat → UInt8) : Nat → UInt8 :=
  copy (udpOff mem + 6) (hostBytes bigEndian (newCheck bigEndian mem)) (flagMem mem)

section
variable {mem : Nat → UInt8} {bigEndian : Bool} {i : Nat}

theorem flagMem_flag : flagMem mem (dhcpOff mem + 10) = mem (dhcpOff mem + 10) ||| 0x80 :=
  copy_of_mem (l := [_]) Nat.one_pos

theorem flagMem_of_ne (h : i ≠ dhcpOff mem + 10) : flagMem mem i = mem i := by
  rcases Nat.lt_or_gt_of_ne h with hlt | hgt
  · exact copy_of_lt hlt
  · exact copy_of_le hgt

theorem bcastMem_of_ne (h : i ≠ udpOff mem + 6) (h' : i ≠ udpOff mem + 7) :
    bcastMem bigEndian mem i = flagMem mem i := by
  have hlen : (hostBytes bigEndian (newCheck bigEndian mem)).length = 2 := length_hostBytes _
  rcases Nat.lt_or_gt_of_ne h with hlt | hgt
  · exact copy_of_lt hlt
  · exact copy_of_le (by omega)

theorem bcastMem_sameRest : SameRest mem (bcastMem bigEndian mem) := by
  intro i hflags hcheck hcheck'
  rw [bcastMem_of_ne hcheck hcheck', flagMem_of_ne hflags]

theorem bcastMem_flag : bcastMem bigEndian mem (dhcpOff mem + 10) = mem (dhcpOff mem + 10) ||| 0x80 := by
  have hdhcp : dhcpOff mem = udpOff mem + 8 := rfl
  rw [bcastMem_of_ne (by omega) (by omega), flagMem_flag]

theorem bcastMem_bcastFlag (h : ¬ BcastFlag mem) : BcastFlag (bcastMem bigEndian mem) := by
  have hdhcp : dhcpOff (bcastMem bigEndian mem) = dhcpOff mem := congrArg (· + 8) bcastMem_sameRest.udpOff_eq
  rw [BcastFlag, hdhcp, bcastMem_flag, or_bcast (Nat.lt_of_not_le h)]
  exact Nat.le_add_left 128 _

theorem flagMem_get16 (h : ¬ BcastFlag mem) : get16 (flagMem mem) (dhcpOff mem + 10) = dhcpFlags mem + 0x8000 := by
  have hflag : (flagMem mem (dhcpOff mem + 10)).toNat = (mem (dhcpOff mem + 10)).toNat + 128 := by
    rw [flagMem_flag, or_bcast (Nat.lt_of_not_le h)]
  rw [get16, hflag, flagMem_of_ne (i := dhcpOff mem + 10 + 1) (by omega), dhcpFlags, get16]
  omega

/-- The new checksum with the new flags is the old checksum. -/
theorem newCheck_spec (bigEndian : Bool) (h : ¬ BcastFlag mem) : newCheck bigEndian mem < 65535 ∧
    (newCheck bigEndian mem + hostU16 (flagMem mem) bigEndian (dhcpOff mem + 10)) % 65535 =
      hostU16 (flagMem mem) bigEndian (udpOff mem + 6) % 65535 := by
  have hcheck : hostU16 (flagMem mem) bigEndian (udpOff mem + 6) < 65536 := hostU16_lt
  have hflags : 0 < hostU16 (flagMem mem) bigEndian (dhcpOff mem + 10) := by
    refine Nat.pos_of_ne_zero fun hzero => ?_
    have := flagMem_get16 h
    rw [hostU16_eq_zero_iff.1 hzero] at this
    omega
  unfold newCheck
  generalize hostU16 (flagMem mem) bigEndian (udpOff mem + 6) = c at hcheck ⊢
  generalize hostU16 (flagMem mem) bigEndian (dhcpOff mem + 10) = f at hflags ⊢
  have hpos : 0 < fold 0xffff (0xffff - c + f) := fold_pos (by omega)
  have hle : fold 0xffff (0xffff - c + f) ≤ 0xffff := fold_le (by decide)
  have hmod : fold 0xffff (0xffff - c + f) % 65535 = (0xffff - c + f) % 65535 := fold_modEq
  omega

theorem dhcpFlags_lt (h : ¬ BcastFlag mem) : dhcpFlags mem < 0x8000 := by
  have hlow := Nat.lt_of_not_le h
  have := (mem (dhcpOff mem + 11)).toNat_lt
  show _ * 256 + (mem (dhcpOff mem + 11)).toNat < _
  omega

theorem bcastMem_dhcpFlags (h : ¬ BcastFlag mem) : dhcpFlags (bcastMem bigEndian mem) = dhcpFlags mem + 0x8000 := by
  have hdhcp : dhcpOff mem = udpOff mem + 8 := rfl
  have hdhcp' : dhcpOff (bcastMem bigEndian mem) = dhcpOff mem := congrArg (· + 8) bcastMem_sameRest.udpOff_eq
  rw [dhcpFlags, hdhcp', ← flagMem_get16 h]
  exact get16_congr (bcastMem_of_ne (by omega) (by omega)) (bcastMem_of_ne (by omega) (by omega))

theorem bcastMem_udpCheck (bigEndian : Bool) (h : ¬ BcastFlag mem) : udpCheck (bcastMem bigEndian mem) < 65535 ∧
    (udpCheck (bcastMem bigEndian mem) + (dhcpFlags mem + 0x8000)) % 65535 = udpCheck mem % 65535 := by
  obtain ⟨hlt, hmod⟩ := newCheck_spec bigEndian h
  have hhost : hostU16 (bcastMem bigEndian mem) bigEndian (udpOff mem + 6) = newCheck bigEndian mem :=
    hostU16_hostBytes (Nat.lt_succ_of_lt hlt)
  have hdhcp : dhcpOff mem = udpOff mem + 8 := rfl
  have hold : get16 (flagMem mem) (udpOff mem + 6) = udpCheck mem :=
    get16_congr (flagMem_of_ne (by omega)) (flagMem_of_ne (by omega))
  have hnew : udpCheck (bcastMem bigEndian mem) = get16 (bcastMem bigEndian mem) (udpOff mem + 6) := by
    rw [udpCheck, bcastMem_sameRest.udpOff_eq]
  rw [hnew, ← flagMem_get16 h, ← hold]
  constructor
  · have hne : get16 (bcastMem bigEndian mem) (udpOff mem + 6) ≠ 65535 := by
      have hmax : hostU16 (bcastMem bigEndian mem) bigEndian (udpOff mem + 6) = 65535 ↔ _ := hostU16_eq_max_iff
      rw [Ne, ← hmax, hhost]
      omega
    have hget : get16 (bcastMem bigEndian mem) (udpOff mem + 6) < 65536 := get16_lt
    omega
  · have hmul := congrArg (· * (if bigEndian then 1 else 256) % 65535) hmod
    rw [Nat.mod_mul_mod, Nat.mod_mul_mod, Nat.add_mul, ← hhost, Nat.add_mod, hostU16_modEq, hostU16_modEq,
      hostU16_modEq, ← Nat.add_mod] at hmul
    exact hmul

/-- The checksum is right again only if the flags were zero. -/
theorem bcastMem_correct_iff (h : ¬ BcastFlag mem) (hihl : 5 ≤ ihl mem) (hlen : 20 ≤ udpLen mem)
    (hcorrect : UdpCorrect mem) :
    UdpCorrect (bcastMem bigEndian mem) ↔ dhcpFlags mem = 0 ∧ udpCheck mem ≠ 0x8000 := by
  obtain ⟨hlt, hmod⟩ := bcastMem_udpCheck bigEndian h
  have hflags : dhcpFlags mem < 0x8000 := dhcpFlags_lt h
  have hcheck : udpCheck mem < 65536 := get16_lt
  have hlen' : 20 ≤ udpLen (bcastMem bigEndian mem) := by
    rw [bcastMem_sameRest.udpLen_eq]
    exact hlen
  unfold UdpCorrect at hcorrect ⊢
  rw [fold_eq_self_iff (by decide), udpSum_eq hlen] at hcorrect
  rw [fold_eq_self_iff (by decide), udpSum_eq hlen', bcastMem_sameRest.udpRest_eq hihl, bcastMem_dhcpFlags h]
  omega

theorem bcastMem_absent_iff (h : ¬ BcastFlag mem) (habsent : UdpAbsent mem) :
    UdpAbsent (bcastMem bigEndian mem) ↔ dhcpFlags mem = 0x7fff := by
  obtain ⟨hlt, hmod⟩ := bcastMem_udpCheck bigEndian h
  have hflags : dhcpFlags mem < 0x8000 := dhcpFlags_lt h
  unfold UdpAbsent at habsent ⊢
  omega

end

theorem DhcpRequest.dhcpFlagBcast_eq (r : DhcpRequest) (bigEndian dhcpBcstDisable : Bool) :
    dhcpFlagBcast bigEndian dhcpBcstDisable r.toSkb =
      if dhcpBcstDisable ∨ BcastFlag r.mem then r.toSkb else r.toSkb.setMem (bcastMem bigEndian r.mem) := by
  unfold dhcpFlagBcast
  rw [if_neg (not_not_intro r.etherType), if_neg (not_not_intro r.protocol)]
  dsimp only
  rw [if_neg (not_not_intro ⟨r.source, r.dest⟩), if_neg (not_not_intro r.cookie)]
  split
  · case isTrue h => rw [if_pos (.inl h)]
  · case isFalse h =>
    simp only [h, Bool.false_eq_true, false_or]
    rfl

/-- The bit and the checksum come out as they should exactly if the bit was there, or it is put where the sum
expects it. -/
theorem dhcpFlagOk_iff (bigEndian dhcpBcstDisable : Bool) (r : DhcpRequest) :
    DhcpFlagOk bigEndian dhcpBcstDisable r ↔ BcastFlag r.mem ∨ dhcpBcstDisable = false ∧
      (if udpCheck r.mem = 0 then dhcpFlags r.mem = 0x7fff else dhcpFlags r.mem = 0 ∧ udpCheck r.mem ≠ 0x8000) := by
  have heq := r.dhcpFlagBcast_eq bigEndian dhcpBcstDisable
  have hlen : 20 ≤ udpLen r.mem := (by decide : 20 ≤ 248).trans r.le_udpLen
  by_cases hflag : BcastFlag r.mem
  · rw [if_pos (.inr hflag)] at heq
    refine iff_of_true ?_ (.inl hflag)
    constructor
    all_goals rw [heq]
    · exact hflag
    · exact (or_bcast_of_le hflag).symm
    · exact fun _ _ _ _ => rfl
    · exact id
    · exact id
  cases dhcpBcstDisable with
  | true =>
    rw [if_pos (.inl rfl)] at heq
    refine iff_of_false (fun h => hflag ?_) ?_
    · have := h.bcast
      rwa [heq] at this
    · rintro (h | ⟨h, -⟩)
      · exact hflag h
      · cases h
  | false =>
    rw [if_neg (by simp [hflag])] at heq
    rw [or_iff_right hflag, and_iff_right rfl]
    constructor
    · intro h
      have habsent := h.absent
      have hcorrect := h.correct
      rw [heq] at habsent hcorrect
      split
      · case isTrue hzero => exact (bcastMem_absent_iff hflag hzero).1 (habsent hzero)
      · case isFalse hne =>
        have hold := r.checksum.resolve_left hne
        exact (bcastMem_correct_iff hflag r.ihl_le hlen hold).1 (hcorrect hold)
    · intro h
      constructor
      all_goals rw [heq]
      · exact bcastMem_bcastFlag hflag
      · exact bcastMem_flag
      · exact bcastMem_sameRest
      · rfl
      · intro hzero
        rw [if_pos (show udpCheck r.mem = 0 from hzero)] at h
        exact (bcastMem_absent_iff hflag hzero).2 h
      · intro hcorrect
        rw [if_neg hcorrect.1] at h
        exact (bcastMem_correct_iff hflag r.ihl_le hlen hcorrect).2 h

/-- A DISCOVER of 290 bytes from a client that sends no checksum. -/
def discoverBytes : List UInt8 :=
  [0xff, 0xff, 0xff, 0xff, 0xff, 0xff, 2, 0, 0, 0, 0, 1, 8, 0] ++
  [0x45, 0, 1, 0x14, 0, 0, 0, 0, 64, 17, 0x79, 0xda, 0, 0, 0, 0, 255, 255, 255, 255] ++
  [0, 68, 0, 67, 1, 0, 0, 0] ++
  ([1, 1, 6, 0, 0x39, 3, 0xf3, 0x26] ++ List.replicate 20 0 ++ [2, 0, 0, 0, 0, 1] ++ List.replicate 202 0) ++
  [0x63, 0x82, 0x53, 0x63, 53, 1, 1, 255] ++ List.replicate 4 0

def discover : DhcpRequest where
  mem := fun i => discoverBytes.getD i 0
  len := 290
  tailroom := 0
  etherType := by decide
  ihl_le := by decide
  protocol := by decide
  source := by decide
  dest := by decide
  cookie := by decide +kernel
  le_udpLen := by decide
  udpLen_le := by decide
  checksum := .inl (by decide)

/-- The checksum that was absent is there, and wrong. -/
theorem not_dhcpFlagOk_discover : ¬ DhcpFlagOk false false discover := by
  intro h
  have habsent := h.absent (by decide +kernel)
  exact absurd habsent (by decide +kernel)

end Rtw
