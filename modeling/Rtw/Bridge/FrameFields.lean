import Rtw.Bridge.NatFrame
import Rtw.Bridge.DhcpFlag

/-!
# What the bridge changes in a frame

Some protocols carry hardware addresses in the body of a frame. `nat25_db_handle` changes nothing but the one of the
sender in a frame that is sent (`handle_insert`), and nothing but the destination and the one of the target in a frame
that is received (`handle_lookup`). Here the frame has no VLAN tag.
-/

namespace Rtw
open Access Splice

/-- Six bytes from `a` on. -/
def SixFrom (a i : Nat) : Prop := a ≤ i ∧ i < a + 6

/-- The protocols with an IPX or AppleTalk header. -/
def NetProtocol (mem : Nat → UInt8) : Prop :=
  get16 mem 12 = ethPIpx ∨ get16 mem 12 = ethPAtalk ∨ get16 mem 12 = ethPAarp

instance (mem : Nat → UInt8) : Decidable (NetProtocol mem) := inferInstanceAs (Decidable (_ ∨ _))

namespace NetHdr

/-- Where the address of the sender is. -/
def sender : NetHdr → Option Nat
  | ipx off => some (off + 22)
  | aarp off => some (off + 8)
  | ddp _ => none

/-- Where the address of the target is. -/
def target : NetHdr → Option Nat
  | ipx off => some (off + 10)
  | aarp off => some (off + 18)
  | ddp _ => none

end NetHdr

section
variable (mem : Nat → UInt8) (len i : Nat)

/-- The address in a neighbour discovery message, with the checksum of a message that has one. -/
def NdField : Prop :=
  mem 20 = ipprotoIcmpv6 ∧ ∃ hdr tag pos, ndOption? (mem 54) = some (hdr, tag) ∧
    OptBegins (fun i => mem (54 + i)) (len - 14 - 40) hdr tag pos ∧ LlaAt (fun i => mem (54 + i)) (len - 14 - 40) tag pos ∧
    (SixFrom (54 + (pos + 2)) i ∨ i = 56 ∨ i = 57)

/-- The address of the sender in the body of a frame. -/
def SenderField : Prop :=
  get16 mem 12 = ethPArp ∧ SixFrom 22 i ∨
  NetProtocol mem ∧ (∃ h a, netHdr? mem = some h ∧ h.sender = some a ∧ SixFrom a i) ∨
  get16 mem 12 = ethPIpv6 ∧ NdField mem len i

/-- The address of the target in the body of a frame. -/
def TargetField : Prop :=
  get16 mem 12 = ethPArp ∧ SixFrom (22 + ((mem 18).toNat + (mem 19).toNat)) i ∨
  NetProtocol mem ∧ ∃ h a, netHdr? mem = some h ∧ h.target = some a ∧ SixFrom a i

/-- A DHCP request to a server, as far as the frame goes. -/
def DhcpLike : Prop :=
  get16 mem 12 = ethPIp ∧ (23 < len → mem 23 = ipprotoUdp) ∧
  (udpOff mem + 4 ≤ len → get16 mem (udpOff mem) = clientPort ∧ get16 mem (udpOff mem + 2) = serverPort) ∧
  (dhcpOff mem + 240 ≤ len → get32 mem (dhcpOff mem + 236) = dhcpMagic)

/-- The flags and the checksum of a DHCP request. -/
def DhcpField : Prop :=
  DhcpLike mem len ∧ (i = dhcpOff mem + 10 ∨ i = udpOff mem + 6 ∨ i = udpOff mem + 7)

/-- A PPPoE frame without a session. -/
def PppoeDiscovery : Prop :=
  get16 mem 12 = ethPPppDisc ∨ get16 mem 12 = ethPPppSes ∧ (18 ≤ len → get16 mem 16 = 0)

/-- `nat25_db_handle` records the sender of the frame, or lets the frame go with its address. -/
def Nat25Takes : Prop :=
  get16 mem 12 = ethPIp ∧ 15 ≤ len ∧ 4 * ihl mem < len ∨
  get16 mem 12 = ethPArp ∧ 18 ≤ len ∧ get16 mem 16 = 0x0800 ∨
  NetProtocol mem ∧ 28 ≤ len ∧ (∃ h, netHdr? mem = some h ∧
    ∀ off, h = .aarp off → mem (off + 4) = 6 ∧ mem (off + 5) = 4) ∨
  get16 mem 12 = ethPPppSes ∧ 18 ≤ len ∧ get16 mem 16 ≠ 0 ∨
  get16 mem 12 = 0x888e ∨ get16 mem 12 = 0xe2ae ∨ get16 mem 12 = 0xe2af ∨
  get16 mem 12 = ethPIpv6 ∧ 40 < (len + 2 ^ 32 - 14) % 2 ^ 32

end

section
variable {w : Nat}

/-- What becomes of a frame that is sent. -/
structure InsertOk (s s' : BrPriv w) (skb skb' : Skb) (res : Int) : Prop where
  hwaddr : s'.hwaddr = s.hwaddr
  len : skb'.len = skb.len
  only : Only (SenderField skb.mem skb.len) skb.mem skb'.mem
  refused : res < 0 → res ≠ -2 → skb' = skb ∧ ¬ Nat25Takes skb.mem skb.len

/-- What becomes of a frame that is received. -/
structure LookupOk (skb skb' : Skb) : Prop where
  len : skb'.len = skb.len
  only : Only (fun i => i < 6 ∨ TargetField skb.mem i) skb.mem skb'.mem

end

section
variable {w : Nat} {k : BrKernel} {s s' : BrPriv w} {skb skb' : Skb} {fuel : Nat} {res : Int} {mem : Nat → UInt8}

theorem only_copy_mac {p : Nat → Prop} {a : Nat} (mac : MacAddr) (h : ∀ i, SixFrom a i → p i) :
    Only p mem (copy a mac.toList mem) :=
  only_copy.mono fun i hi => h i (by rwa [Vector.length_toList] at hi)

theorem InsertOk.same (s' : BrPriv w) (hs : s'.hwaddr = s.hwaddr) (h : res < 0 → res ≠ -2 → ¬ Nat25Takes skb.mem skb.len) :
    InsertOk s s' skb skb res :=
  ⟨hs, rfl, .refl, fun hneg hres => ⟨rfl, h hneg hres⟩⟩

theorem InsertOk.done (s' : BrPriv w) (hs : s'.hwaddr = s.hwaddr) (hlen : skb'.len = skb.len)
    (h : Only (SenderField skb.mem skb.len) skb.mem skb'.mem) : InsertOk s s' skb skb' 0 :=
  ⟨hs, hlen, h, fun hneg => absurd hneg (lt_irrefl 0)⟩

/-- An address is put into the body. -/
theorem InsertOk.put (s' : BrPriv w) (mac : MacAddr) {a : Nat} (h : ∀ i, SixFrom a i → SenderField skb.mem skb.len i)
    (hs : s'.hwaddr = s.hwaddr) :
    InsertOk s s' skb (skb.setMem (copy a mac.toList skb.mem)) 0 :=
  .done _ hs rfl (only_copy_mac mac h)

section
variable {len : Nat}

theorem nat25Takes_ip (hp : get16 mem 12 = ethPIp) : Nat25Takes mem len ↔ 15 ≤ len ∧ 4 * ihl mem < len := by
  simp [Nat25Takes, NetProtocol, hp, ethPIp, ethPArp, ethPIpx, ethPAtalk, ethPAarp, ethPPppSes, ethPIpv6]

theorem nat25Takes_arp (hp : get16 mem 12 = ethPArp) : Nat25Takes mem len ↔ 18 ≤ len ∧ get16 mem 16 = 0x0800 := by
  simp [Nat25Takes, NetProtocol, hp, ethPIp, ethPArp, ethPIpx, ethPAtalk, ethPAarp, ethPPppSes, ethPIpv6]

theorem nat25Takes_net (hp : NetProtocol mem) : Nat25Takes mem len ↔ 28 ≤ len ∧ ∃ h, netHdr? mem = some h ∧
    ∀ off, h = .aarp off → mem (off + 4) = 6 ∧ mem (off + 5) = 4 := by
  unfold Nat25Takes
  have hp' := hp
  rcases hp' with h | h | h <;>
    simp [hp, h, ethPIp, ethPArp, ethPIpx, ethPAtalk, ethPAarp, ethPPppSes, ethPIpv6]

theorem nat25Takes_ses (hp : get16 mem 12 = ethPPppSes) : Nat25Takes mem len ↔ 18 ≤ len ∧ get16 mem 16 ≠ 0 := by
  simp [Nat25Takes, NetProtocol, hp, ethPIp, ethPArp, ethPIpx, ethPAtalk, ethPAarp, ethPPppSes, ethPIpv6]

theorem nat25Takes_ipv6 (hp : get16 mem 12 = ethPIpv6) : Nat25Takes mem len ↔ 40 < (len + 2 ^ 32 - 14) % 2 ^ 32 := by
  simp [Nat25Takes, NetProtocol, hp, ethPIp, ethPArp, ethPIpx, ethPAtalk, ethPAarp, ethPPppSes, ethPIpv6]

end

theorem handleIp_insert (hp : get16 skb.mem 12 = ethPIp) (h : nat25HandleIp k s skb .insert = (s', skb', res)) :
    InsertOk s s' skb skb' res := by
  unfold nat25HandleIp at h
  split at h
  · rename_i hlen
    cases h
    refine .same _ rfl fun _ _ htakes => ?_
    have := ((nat25Takes_ip hp).1 htakes).2
    unfold ihl at this
    omega
  · split at h
    · cases h
      exact .done _ rfl rfl .refl
    · cases h
      exact .done _ rfl rfl .refl

theorem handleArp_insert (hp : get16 skb.mem 12 = ethPArp) (h : nat25HandleArp k s skb .insert = (s', skb', res)) :
    InsertOk s s' skb skb' res := by
  unfold nat25HandleArp at h
  split at h
  · rename_i hpro
    cases h
    exact .same _ rfl fun _ _ htakes => hpro ((nat25Takes_arp hp).1 htakes).2
  · cases h
    exact .put _ _ (fun i hi => .inl ⟨hp, hi⟩) rfl

section
variable {off : Nat} (hp : NetProtocol skb.mem)
include hp

theorem handleIpx_insert (hh : netHdr? skb.mem = some (.ipx off))
    (h : nat25HandleIpx k s skb off .insert = (s', skb', res)) : InsertOk s s' skb skb' res := by
  unfold nat25HandleIpx at h
  dsimp only at h
  split at h
  · cases h
    exact .put _ _ (fun i hi => .inr (.inl ⟨hp, _, _, hh, rfl, hi⟩)) rfl
  · cases h
    exact .done _ rfl rfl .refl

theorem handleAarp_insert (hh : netHdr? skb.mem = some (.aarp off))
    (h : nat25HandleAarp k s skb off .insert = (s', skb', res)) : InsertOk s s' skb skb' res := by
  unfold nat25HandleAarp at h
  split at h
  · rename_i hne
    cases h
    refine .same _ rfl fun _ _ htakes => ?_
    obtain ⟨-, hdr, hhdr, haarp⟩ := (nat25Takes_net hp).1 htakes
    cases hh.symm.trans hhdr
    obtain ⟨h4, h5⟩ := haarp off rfl
    exact hne.elim (fun hn => hn h4) fun hn => hn h5
  · cases h
    exact .put _ _ (fun i hi => .inr (.inl ⟨hp, _, _, hh, rfl, hi⟩)) rfl

theorem handleNet_insert (h : (match netHdr? skb.mem with
      | some (.ipx off) => nat25HandleIpx k s skb off .insert
      | some (.aarp off) => nat25HandleAarp k s skb off .insert
      | some (.ddp off) => nat25HandleDdp k s skb off .insert
      | none => (s, skb, -1)) = (s', skb', res)) : InsertOk s s' skb skb' res := by
  split at h
  · exact handleIpx_insert hp ‹_› h
  · exact handleAarp_insert hp ‹_› h
  · cases h
    exact .done _ rfl rfl .refl
  · rename_i hnone
    cases h
    refine .same _ rfl fun _ _ htakes => ?_
    obtain ⟨-, hdr, hhdr, -⟩ := (nat25Takes_net hp).1 htakes
    cases hnone.symm.trans hhdr

end

end

/-- What `update_nd_link_layer_addr` comes to. -/
theorem updateNd_result {mem : Nat → UInt8} {len fuel : Nat} {mac : MacAddr} {r : (Nat → UInt8) × Bool}
    (h : (updateNdLinkLayerAddrT mem len mac fuel).val = some r) :
    r = (mem, false) ∨ ∃ hdr tag pos, ndOption? (mem 0) = some (hdr, tag) ∧ OptBegins mem len hdr tag pos ∧
      LlaAt mem len tag pos ∧ r = (copy (pos + 2) mac.toList mem, true) := by
  by_cases hopt : ∃ hdr tag, ndOption? (mem 0) = some (hdr, tag) ∧ hdr ≤ len
  · obtain ⟨hdr, tag, hopt, hle⟩ := hopt
    rw [val_updateNd hopt hle] at h
    rcases ho : (loopT (scanTlvRound mem tag 1) fuel (tlvCur len hdr)).val with _ | _ | p <;> rw [ho] at h <;> cases h
    · exact .inl rfl
    obtain ⟨c, hc, hstop⟩ := returns_iff.1 ⟨fuel, ho⟩
    obtain ⟨pos, rfl, hbegins⟩ := reaches_tlvCur_iff.1 hc
    rcases Nat.lt_or_ge pos len with hlt | hge
    · rw [val_scanTlvRound hlt] at hstop
      split at hstop <;> cases hstop
      exact .inr ⟨hdr, tag, pos, hopt, hbegins, ‹_›, rfl⟩
    · rw [scanTlvRound_of_le hge] at hstop
      cases hstop
  · rw [updateNd_of_none fun hdr tag ho => Nat.lt_of_not_le fun hle => hopt ⟨hdr, tag, ho, hle⟩] at h
    cases h
    exact .inl rfl

section
variable {w : Nat} {k : BrKernel} {s s' : BrPriv w} {skb skb' : Skb} {fuel : Nat} {res : Int}

theorem rewriteNd_only (hproto : skb.mem 20 = ipprotoIcmpv6) (h : rewriteNd k s skb fuel = some skb') :
    skb'.len = skb.len ∧ Only (NdField skb.mem skb.len) skb.mem skb'.mem := by
  unfold rewriteNd at h
  obtain ⟨r, hr, rfl⟩ := Option.map_eq_some_iff.1 h
  rcases updateNd_result hr with rfl | ⟨hdr, tag, pos, hopt, hbegins, hlla, rfl⟩
  · refine ⟨rfl, fun i _ => ?_⟩
    show (if 54 ≤ i then skb.mem (54 + (i - 54)) else skb.mem i) = skb.mem i
    split
    · congr 1
      omega
    · rfl
  · have hfield {i : Nat} (hi : SixFrom (54 + (pos + 2)) i ∨ i = 56 ∨ i = 57) : NdField skb.mem skb.len i :=
      ⟨hproto, hdr, tag, pos, hopt, hbegins, hlla, hi⟩
    have hcheck (l : List UInt8) (hl : l.length = 2) (mem : Nat → UInt8) :
        Only (NdField skb.mem skb.len) mem (copy 56 l mem) :=
      only_copy.mono fun i hi => hfield (.inr (by omega))
    have hmac : Only (NdField skb.mem skb.len) skb.mem fun i =>
        if 54 ≤ i then copy (pos + 2) s.hwaddr.toList (fun i => skb.mem (54 + i)) (i - 54) else skb.mem i := by
      intro i hi
      dsimp only
      split
      · have hout : ¬ SixFrom (pos + 2) (i - 54) := by
          rintro ⟨hle, hlt⟩
          exact hi (hfield (.inl ⟨by omega, by omega⟩))
        rw [only_copy_mac s.hwaddr (fun _ h => h) _ hout]
        congr 1
        omega
      · rfl
    exact ⟨rfl, hmac.trans (.trans (hcheck _ rfl _) (hcheck _ rfl _))⟩

theorem handleIpv6_insert (hp : get16 skb.mem 12 = ethPIpv6)
    (h : nat25HandleIpv6 k s skb fuel .insert = some (s', skb', res)) : InsertOk s s' skb skb' res := by
  unfold nat25HandleIpv6 at h
  dsimp only at h
  split at h
  · rename_i hmal
    cases h
    refine .same _ rfl fun _ _ htakes => ?_
    have hlt := (nat25Takes_ipv6 hp).1 htakes
    have hge : 40 ≥ (skb.len + 2 ^ 32 - 14) % 2 ^ 32 := of_decide_eq_true hmal
    omega
  · split at h
    · cases h
      exact .done _ rfl rfl .refl
    · split at h
      · rename_i hicmp
        obtain ⟨skb₁, hnd, he⟩ := Option.map_eq_some_iff.1 h
        cases he
        obtain ⟨hlen, honly⟩ := rewriteNd_only hicmp.1 hnd
        exact .done _ rfl hlen (honly.mono fun i hi => .inr (.inr ⟨hp, hi⟩))
      · cases h
        exact .done _ rfl rfl .refl

theorem handlePppoe_insert (hp : get16 skb.mem 12 = ethPPppDisc ∨ get16 skb.mem 12 = ethPPppSes)
    (hdisc : s.addPPPoETag = false ∨ ¬ PppoeDiscovery skb.mem skb.len) {r : PppoeAdapter w × Skb × Int}
    (hr : nat25DbHandlePppoe k.toPppoeEnv s.toPppoeAdapter skb s.jiffies .insert = r) :
    InsertOk s { s with toPppoeAdapter := r.1 } skb r.2.1 r.2.2 := by
  have hsid (hz : get16 skb.mem 16 = 0) : PppoeDiscovery skb.mem skb.len := hp.imp_right fun h => ⟨h, fun _ => hz⟩
  have hnot (hz : get16 skb.mem 16 = 0) : ¬ Nat25Takes skb.mem skb.len := by
    intro htakes
    rcases hp with hp | hp
    · simp [Nat25Takes, NetProtocol, hp, ethPIp, ethPArp, ethPIpx, ethPAtalk, ethPAarp, ethPPppSes, ethPPppDisc,
        ethPIpv6] at htakes
    · exact ((nat25Takes_ses hp).1 htakes).2 hz
  subst hr
  unfold nat25DbHandlePppoe
  dsimp only
  split
  · rename_i hz
    split
    · split
      · rename_i htag
        rcases hdisc with hadd | hdisc
        · rw [hadd] at htag
          cases htag
        · exact absurd (hsid hz) hdisc
      · split
        · exact .same _ rfl fun _ hne => absurd rfl hne
        · exact .done _ (by split <;> rfl) rfl .refl
    · exact .same _ rfl fun _ _ => hnot hz
  · split <;> exact .done _ rfl rfl .refl

/-- `nat25_db_handle` on a frame that is sent -/
theorem handle_insert (hdisc : s.addPPPoETag = false ∨ ¬ PppoeDiscovery skb.mem skb.len)
    (h : nat25DbHandle k s skb fuel .insert = some (s', skb', res)) : InsertOk s s' skb skb' res := by
  unfold nat25DbHandle at h
  dsimp only at h
  split at h
  · exact handleIp_insert ‹_› (Option.some.inj h)
  split at h
  · exact handleArp_insert ‹_› (Option.some.inj h)
  split at h
  · exact handleNet_insert ‹_› (Option.some.inj h)
  split at h
  · obtain ⟨rfl, hr⟩ := Prod.mk.inj (Option.some.inj h)
    have hok := handlePppoe_insert (k := k) ‹_› hdisc rfl
    rwa [hr] at hok
  split at h
  · cases h
    exact .done _ rfl rfl .refl
  split at h
  · rename_i hp
    exact handleIpv6_insert hp h
  · rename_i hip harp hnet hppp heap hipv6
    cases h
    refine .same _ rfl fun _ _ htakes => ?_
    rcases htakes with ⟨hp, -⟩ | ⟨hp, -⟩ | ⟨hp, -⟩ | ⟨hp, -⟩ | hp | hp | hp | ⟨hp, -⟩
    · exact hip hp
    · exact harp hp
    · exact hnet hp
    · exact hppp (.inr hp)
    · exact heap (.inl hp)
    · exact heap (.inr (.inl hp))
    · exact heap (.inr (.inr hp))
    · exact hipv6 hp

theorem LookupOk.refl : LookupOk skb skb := ⟨rfl, .refl⟩

/-- An address is put over the destination, or into the body. -/
theorem LookupOk.put {skb₁ : Skb} (h : LookupOk skb skb₁) {a : Nat} {l : List UInt8} (hl : l.length = 6)
    (ht : ∀ i, SixFrom a i → i < 6 ∨ TargetField skb.mem i) : LookupOk skb (skb₁.setMem (copy a l skb₁.mem)) :=
  ⟨h.len, h.only.trans (only_copy.mono fun i hi => ht i (by rwa [hl] at hi))⟩

theorem LookupOk.setDst {skb₁ : Skb} (h : LookupOk skb skb₁) {l : List UInt8} (hl : l.length = 6) :
    LookupOk skb (skb₁.setMem (copy 0 l skb₁.mem)) :=
  h.put hl fun i hi => .inl (by have := hi.2; omega)

/-- `__nat25_db_network_lookup_and_replace` -/
theorem lookupOk_lookup (a : NetworkAddr) : LookupOk skb (s.lookup k skb a).2.1 :=
  LookupOk.refl.setDst Vector.length_toList

theorem length_bytesFrom (mem : Nat → UInt8) (a n : Nat) : (bytesFrom mem a n).length = n := by
  rw [bytesFrom, List.length_map, List.length_range]

theorem handleIp_lookup (h : nat25HandleIp k s skb .lookup = (s', skb', res)) : LookupOk skb skb' := by
  unfold nat25HandleIp at h
  dsimp only at h
  split at h
  · cases h
    exact .refl
  · split at h
    · cases h
      exact lookupOk_lookup _
    · split at h
      · cases h
        exact (lookupOk_lookup _).setDst List.length_replicate
      · cases h
        exact (lookupOk_lookup _).setDst Vector.length_toList

theorem handleArp_lookup (hp : get16 skb.mem 12 = ethPArp) (h : nat25HandleArp k s skb .lookup = (s', skb', res)) :
    LookupOk skb skb' := by
  unfold nat25HandleArp at h
  split at h
  · cases h
    exact .refl
  · cases h
    exact (lookupOk_lookup _).put (length_bytesFrom _ _ _) fun i hi => .inr (.inl ⟨hp, hi⟩)

theorem handleNet_lookup (hp : NetProtocol skb.mem) (h : (match netHdr? skb.mem with
      | some (.ipx off) => nat25HandleIpx k s skb off .lookup
      | some (.aarp off) => nat25HandleAarp k s skb off .lookup
      | some (.ddp off) => nat25HandleDdp k s skb off .lookup
      | none => (s, skb, -1)) = (s', skb', res)) : LookupOk skb skb' := by
  split at h
  · unfold nat25HandleIpx at h
    dsimp only at h
    split at h
    · cases h
      exact (lookupOk_lookup _).put (length_bytesFrom _ _ _) fun i hi => .inr (.inr ⟨hp, _, _, ‹_›, rfl, hi⟩)
    · cases h
      exact lookupOk_lookup _
  · unfold nat25HandleAarp at h
    split at h
    · cases h
      exact .refl
    · cases h
      exact (lookupOk_lookup _).put (length_bytesFrom _ _ _) fun i hi => .inr (.inr ⟨hp, _, _, ‹_›, rfl, hi⟩)
  · cases h
    exact lookupOk_lookup _
  · cases h
    exact .refl

/-- A PPPoE frame whose relay tag is looked for. -/
def RelayAnswer (mem : Nat → UInt8) : Prop :=
  (get16 mem 12 = ethPPppDisc ∨ get16 mem 12 = ethPPppSes) ∧ (mem 15 = padoCode ∨ mem 15 = padsCode)

theorem handlePppoe_lookup (hp : get16 skb.mem 12 = ethPPppDisc ∨ get16 skb.mem 12 = ethPPppSes)
    (hrelay : s.addPPPoETag = false ∨ ¬ RelayAnswer skb.mem) {r : PppoeAdapter w × Skb × Int}
    (hr : nat25DbHandlePppoe k.toPppoeEnv s.toPppoeAdapter skb s.jiffies .lookup = r) : LookupOk skb r.2.1 := by
  subst hr
  unfold nat25DbHandlePppoe
  dsimp only
  split
  · rename_i hcode
    split
    · rename_i htag
      rcases hrelay with hadd | hrelay
      · rw [hadd] at htag
        cases htag
      · exact absurd ⟨hp, hcode⟩ hrelay
    · split
      · exact .refl
      · exact LookupOk.refl.setDst Vector.length_toList
  · split
    · exact LookupOk.refl.setDst Vector.length_toList
    · exact .refl

/-- `nat25_db_handle` on a frame that is received -/
theorem handle_lookup (hrelay : s.addPPPoETag = false ∨ ¬ RelayAnswer skb.mem)
    (h : nat25DbHandle k s skb fuel .lookup = some (s', skb', res)) : LookupOk skb skb' := by
  unfold nat25DbHandle at h
  dsimp only at h
  split at h
  · exact handleIp_lookup (Option.some.inj h)
  split at h
  · exact handleArp_lookup ‹_› (Option.some.inj h)
  split at h
  · exact handleNet_lookup ‹_› (Option.some.inj h)
  split at h
  · obtain ⟨-, hr⟩ := Prod.mk.inj (Option.some.inj h)
    have hok := handlePppoe_lookup (k := k) ‹_› hrelay rfl
    rwa [hr] at hok
  split at h
  · cases h
    exact .refl
  split at h
  · unfold nat25HandleIpv6 at h
    dsimp only at h
    split at h
    · cases h
      exact .refl
    · cases h
      exact lookupOk_lookup _
  · cases h
    exact .refl

end

/-- `dhcp_flag_bcast` -/
theorem dhcpFlagBcast_only (bigEndian dhcpBcstDisable : Bool) (skb : Skb) :
    (dhcpFlagBcast bigEndian dhcpBcstDisable skb).len = skb.len ∧
      Only (DhcpField skb.mem skb.len) skb.mem (dhcpFlagBcast bigEndian dhcpBcstDisable skb).mem := by
  unfold dhcpFlagBcast
  dsimp only
  split
  · exact ⟨rfl, .refl⟩
  split
  · exact ⟨rfl, .refl⟩
  split
  · exact ⟨rfl, .refl⟩
  split
  · exact ⟨rfl, .refl⟩
  split
  · exact ⟨rfl, .refl⟩
  split
  · exact ⟨rfl, .refl⟩
  · rename_i hip hproto hports hcookie _
    have hlike : DhcpLike skb.mem skb.len :=
      ⟨not_not.1 hip, fun _ => not_not.1 hproto, fun _ => not_not.1 hports, fun _ => not_not.1 hcookie⟩
    refine ⟨rfl, Only.trans (only_copy.mono fun i hi => ⟨hlike, .inl ?_⟩) (only_copy.mono fun i hi => ⟨hlike, .inr ?_⟩)⟩
    · rw [List.length_singleton] at hi
      omega
    · rw [length_hostBytes] at hi
      omega

/-! ### Only the bytes of the frame count -/

section
variable {mem mem' : Nat → UInt8} {len i : Nat}

/-- Two buffers with the same frame, apart from its addresses. -/
def SameBody (len : Nat) (mem mem' : Nat → UInt8) : Prop := ∀ i, 12 ≤ i → i < len → mem' i = mem i

theorem SameBody.symm (h : SameBody len mem mem') : SameBody len mem' mem := fun i hle hlt => (h i hle hlt).symm

theorem SameBody.get16 (h : SameBody len mem mem') {a : Nat} (ha : 12 ≤ a) (hlen : a + 2 ≤ len) :
    get16 mem' a = get16 mem a :=
  get16_congr (h a ha (by omega)) (h (a + 1) (by omega) (by omega))

theorem SameBody.bytesFrom (h : SameBody len mem mem') {a n : Nat} (ha : 12 ≤ a) (hlen : a + n ≤ len) :
    bytesFrom mem' a n = bytesFrom mem a n :=
  List.map_congr_left fun j hj => h (a + j) (by omega) (by have := List.mem_range.1 hj; omega)

theorem SameBody.netHdr? (h : SameBody len mem mem') (hlen : 22 ≤ len) : netHdr? mem' = netHdr? mem := by
  unfold Rtw.netHdr?
  rw [h.get16 (Nat.le_refl 12) (by omega), h.bytesFrom (a := 14) (n := 2) (by omega) (by omega),
    h 14 (by omega) (by omega), h.bytesFrom (a := 17) (n := 5) (by omega) (by omega),
    h.bytesFrom (a := 17) (n := 2) (by omega) (by omega)]

theorem SameBody.netProtocol (h : SameBody len mem mem') (hlen : 14 ≤ len) (hp : NetProtocol mem') : NetProtocol mem := by
  have hget := h.get16 (Nat.le_refl 12) hlen
  unfold NetProtocol at hp ⊢
  rwa [hget] at hp

/-- The headers begin at byte 14 or behind it. -/
theorem netHdr?_off {h : NetHdr} (hh : netHdr? mem = some h) :
    (∃ off, h = .ipx off ∧ 14 ≤ off) ∨ h = .aarp 22 ∨ h = .ddp 22 := by
  unfold netHdr? at hh
  split at hh
  · cases hh
    exact .inl ⟨_, rfl, Nat.le_refl _⟩
  split at hh
  · cases hh
    exact .inl ⟨_, rfl, Nat.le_refl _⟩
  split at hh
  · split at hh
    · cases hh
      exact .inl ⟨_, rfl, by omega⟩
    split at hh
    · cases hh
      exact .inr (.inl rfl)
    split at hh
    · cases hh
      exact .inr (.inr rfl)
    · cases hh
  split at hh
  · split at hh
    · cases hh
      exact .inl ⟨_, rfl, by omega⟩
    · cases hh
  · cases hh

theorem netHdr?_sender {h : NetHdr} {a : Nat} (hh : netHdr? mem = some h) (ha : h.sender = some a) : 30 ≤ a := by
  rcases netHdr?_off hh with ⟨off, rfl, hoff⟩ | rfl | rfl <;> cases ha <;> omega

/-- The options up to one that lies inside the message. -/
theorem optBegins_congr {hdr pos : Nat} {tag : UInt8} (h : ∀ i < len, mem' i = mem i)
    (hbegins : OptBegins mem' len hdr tag pos) (hpos : pos + 2 ≤ len) : OptBegins mem len hdr tag pos := by
  induction hbegins with
  | first => exact .first
  | @behind pos hb hlt hlla ih =>
    have hpos' : pos + 2 ≤ len := by omega
    have h0 := h pos hlt
    have h1 := h (pos + 1) (by omega)
    rw [h1]
    refine .behind (ih hpos') hlt fun hl => hlla ?_
    obtain ⟨htag, hone, hin⟩ := hl
    exact ⟨h0.trans htag, h1.trans hone, hin⟩

theorem SameBody.ndField (h : SameBody len mem mem') (hf : NdField mem' len i) : NdField mem len i := by
  obtain ⟨hproto, hdr, tag, pos, hopt, hbegins, hlla, hi⟩ := hf
  obtain ⟨htag, hone, hin⟩ := hlla
  have hmsg : ∀ j < len - 14 - 40, mem' (54 + j) = mem (54 + j) := fun j hj => h _ (by omega) (by omega)
  rw [h 20 (by omega) (by omega)] at hproto
  rw [h 54 (by omega) (by omega)] at hopt
  refine ⟨hproto, hdr, tag, pos, hopt, optBegins_congr hmsg hbegins (by omega), ⟨?_, ?_, hin⟩, hi⟩
  · exact (hmsg pos (by omega)).symm.trans htag
  · exact (hmsg (pos + 1) (by omega)).symm.trans hone

theorem SameBody.senderField (h : SameBody len mem mem') (hlen : 14 ≤ len) (hi : i < len)
    (hf : SenderField mem' len i) : SenderField mem len i := by
  have hget := h.get16 (Nat.le_refl 12) hlen
  rcases hf with ⟨hp, hsix⟩ | ⟨hp, hdr, a, hh, ha, hsix⟩ | ⟨hp, hnd⟩
  · exact .inl ⟨hget.symm.trans hp, hsix⟩
  · have ha30 := netHdr?_sender hh ha
    have hle := hsix.1
    rw [h.netHdr? (by omega)] at hh
    exact .inr (.inl ⟨h.netProtocol hlen hp, hdr, a, hh, ha, hsix⟩)
  · exact .inr (.inr ⟨hget.symm.trans hp, h.ndField hnd⟩)

theorem SameBody.udpOff (h : SameBody len mem mem') (hlen : 15 ≤ len) : udpOff mem' = udpOff mem := by
  unfold Rtw.udpOff ihl
  rw [h 14 (by omega) (by omega)]

theorem SameBody.dhcpField (h : SameBody len mem mem') (hlen : 14 ≤ len) (hi : i < len) (hf : DhcpField mem' len i) :
    DhcpField mem len i := by
  obtain ⟨⟨hp, hproto, hports, hcookie⟩, hpos⟩ := hf
  have h14 : 14 ≤ Rtw.udpOff mem' := Nat.le_add_right _ _
  have hdhcp : dhcpOff mem' = Rtw.udpOff mem' + 8 := rfl
  have hin : 15 ≤ len := by omega
  have hudp := h.udpOff hin
  have hdhcp' : dhcpOff mem' = dhcpOff mem := by rw [dhcpOff, dhcpOff, hudp]
  rw [hdhcp', hudp] at hpos
  rw [h.get16 (Nat.le_refl 12) hlen] at hp
  refine ⟨⟨hp, fun hlt => ?_, fun hle => ?_, fun hle => ?_⟩, hpos⟩
  · rw [← h 23 (by omega) hlt]
    exact hproto hlt
  · rw [← hudp] at hle ⊢
    rw [← h.get16 (by omega) (by omega), ← h.get16 (by omega) (by omega)]
    exact hports hle
  · rw [← hdhcp'] at hle ⊢
    unfold get32
    rw [← h.get16 (by omega) (by omega), ← h.get16 (by omega) (by omega)]
    exact hcookie hle

theorem SameBody.pppoeDiscovery (h : SameBody len mem mem') (hlen : 14 ≤ len) (hd : PppoeDiscovery mem' len) :
    PppoeDiscovery mem len := by
  unfold PppoeDiscovery at hd ⊢
  rw [h.get16 (Nat.le_refl 12) hlen] at hd
  exact hd.imp_right fun ⟨hp, hsid⟩ => ⟨hp, fun hle => by rw [← h.get16 (by omega) hle]; exact hsid hle⟩

theorem SameBody.nat25Takes (h : SameBody len mem mem') (hlen : 14 ≤ len) (ht : Nat25Takes mem' len) :
    Nat25Takes mem len := by
  unfold Nat25Takes at ht ⊢
  rw [h.get16 (Nat.le_refl 12) hlen] at ht
  rcases ht with ⟨hp, hle, hihl⟩ | ⟨hp, hle, hpro⟩ | ⟨hp, hle, hdr, hh, haarp⟩ | ⟨hp, hle, hsid⟩ | ht
  · refine .inl ⟨hp, hle, ?_⟩
    unfold ihl at hihl ⊢
    rwa [h 14 (by omega) (by omega)] at hihl
  · rw [h.get16 (by omega) hle] at hpro
    exact .inr (.inl ⟨hp, hle, hpro⟩)
  · refine .inr (.inr (.inl ⟨h.netProtocol hlen hp, hle, hdr, ?_, fun off hoff => ?_⟩))
    · rwa [h.netHdr? (by omega)] at hh
    · obtain ⟨h4, h5⟩ := haarp off hoff
      subst hoff
      rcases netHdr?_off hh with ⟨_, he, -⟩ | he | he <;> cases he
      rw [h _ (by omega) (by omega)] at h4 h5
      exact ⟨h4, h5⟩
  · rw [h.get16 (by omega) hle] at hsid
    exact .inr (.inr (.inr (.inl ⟨hp, hle, hsid⟩)))
  · exact .inr (.inr (.inr (.inr ht)))

end

end Rtw
