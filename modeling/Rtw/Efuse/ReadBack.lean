import Rtw.Efuse.WriteLog
import Rtw.Lib.Regions

/-!
# Reading back what has been written

A call of `rtw_efuse_map_write` puts a packet behind the log for each section that changes, so that over any run of
calls, on an efuse that takes what is written to its free bytes, the map that is read is the one before with the data
put into it (`mapWrite_readBack`). This takes room in front of the protected bytes, and no section may have all of its
new words 0xffff: such a packet would be taken for one without data.
-/

namespace Rtw.Efuse
open Splice

/-- The map that `rtw_efuse_map_read` gives. -/
def mapOf (d : Dev) : Nat → UInt8 := (mapRead d fun _ => 0xFF).2

/-- The end of the log, from the walk of `hal_EfuseGetCurrentSize_8812A`. -/
def logEnd (e : Content) : Nat := getCurrentSize e 0

/-- What `rtw_efuse_map_write` asks the sections for. -/
def requests (d : Dev) (addr : Nat) (data : List UInt8) : List PgRequest :=
  (sections addr data.length).map (sectionRequest (mapOf d) addr data)

/-- Each packet finds room for its header in front of the protected bytes. -/
def Fits : Nat → List PgRequest → Prop
  | _, [] => True
  | b, r :: rs =>
    if r.wordEn = 0x0F then Fits b rs
    else b + (hdrBytes (UInt8.ofNat r.offset) r.wordEn).length ≤ availableLen ∧
      Fits (b + (pktBytes (UInt8.ofNat r.offset) r.wordEn r.data).length) rs

instance Fits.decidable : (b : Nat) → (rs : List PgRequest) → Decidable (Fits b rs)
  | _, [] => .isTrue trivial
  | b, r :: rs =>
    have := Fits.decidable b rs
    have := Fits.decidable (b + (pktBytes (UInt8.ofNat r.offset) r.wordEn r.data).length) rs
    inferInstanceAs (Decidable (if r.wordEn = 0x0F then _ else _ ∧ _))

/-- There is room, and each section that changes gets a word other than 0xffff. -/
structure SafeWrite (d : Dev) (addr : Nat) (data : List UInt8) : Prop where
  fits : Fits (logEnd d.content) (requests d addr data)
  hasData : ∀ r ∈ requests d addr data, r.wordEn ≠ 0x0F → HasData r.wordEn r.data

/-- What an efuse can be after safe writes, some of which may have failed; the cached size and the static counter
have begun with anything. -/
inductive Written (burn : Burn) (depth : Nat) : Dev → Prop
  | empty (used repeatTimes : Nat) : Written burn depth ⟨fun _ => 0xFF, used, repeatTimes⟩
  | read {d : Dev} (buf : Nat → UInt8) (h : Written burn depth d) : Written burn depth (mapRead d buf).1
  | write {d d' : Dev} {addr : Nat} {data : List UInt8} {ok : Bool} (h : Written burn depth d)
      (safe : SafeWrite d addr data) (eq : mapWrite burn depth d addr data = some (d', ok)) : Written burn depth d'

/-- The map with the words of a request. -/
def PgRequest.apply (r : PgRequest) (map : Nat → UInt8) : Nat → UInt8 := fun k =>
  if k / 8 = r.offset ∧ wordEnabled r.wordEn (k % 8 / 2) = true then r.data.byte (k % 8) else map k

section
variable {burn : Burn} {e : Content} {pkts : List Pkt} {b depth addr k : Nat} {d d' : Dev} {data : List UInt8}
  {map : Nat → UInt8} {r : PgRequest} {rs : List PgRequest} {ok : Bool}

/-! ### Reading -/

theorem Stored.stop (h : Stored e pkts b) : realContentLen ≤ b ∨ e b = 0xFF := by
  rcases Nat.lt_or_ge b realContentLen with hlt | hge
  · exact .inr (h.free b (Nat.le_refl b) hlt)
  · exact .inl hge

theorem Stored.logEnd (h : Stored e pkts b) : logEnd e = b := by
  have hlen := h.log.length_le
  have hb := h.log.le_end (Nat.zero_le _)
  have hwalk := h.log.currentSizeLoop (realContentLen - pkts.length)
  rw [Nat.add_sub_of_le (by omega)] at hwalk
  exact hwalk.trans (currentSizeLoop_free h.stop _)

theorem Stored.mapOf_eq (h : Stored d.content pkts b) (hk : k < realContentLen) :
    mapOf d k = efuseTbl (wordTbl d.content pkts) k := by
  unfold Efuse.mapOf mapRead readEFuse
  dsimp only
  rw [if_neg (by omega)]
  by_cases hff : d.content 0 = 0xFF
  · rw [if_pos hff]
    have hnil : pkts = [] := by
      cases h.log with
      | nil => rfl
      | cons at_a =>
        rw [pktAt, if_pos hff] at at_a
        cases at_a
    subst hnil
    exact (wordByte_ff (k % 2)).symm
  · have hlen := h.log.length_le
    have hb := h.log.le_end (Nat.zero_le _)
    have hwalk := h.log.readLoop (fun _ _ => 0xFFFF) (realContentLen - pkts.length)
    rw [Nat.add_sub_of_le (by omega),
      readLoop_free (h.stop.imp_left fun hle => Nat.le_succ_of_le hle)] at hwalk
    have hwalk : readWalk d.content = ⟨b + 1, d.content b, wordTbl d.content pkts⟩ := hwalk
    rw [if_neg hff]
    dsimp only
    rw [if_pos hk, Nat.zero_add, hwalk]

/-! ### One request -/

theorem wordMask_spec (f : Nat → Bool) :
    (wordMask f).toNat ≤ 15 ∧ ∀ j < 4, wordEnabled (wordMask f) j = f j := by
  have h : ∀ b0 b1 b2 b3 : Bool,
      let mask := wordMask fun i => match i with
        | 0 => b0
        | 1 => b1
        | 2 => b2
        | _ => b3
      mask.toNat ≤ 15 ∧ wordEnabled mask 0 = b0 ∧ wordEnabled mask 1 = b1 ∧ wordEnabled mask 2 = b2 ∧
        wordEnabled mask 3 = b3 := by decide
  obtain ⟨hle, h0, h1, h2, h3⟩ := h (f 0) (f 1) (f 2) (f 3)
  refine ⟨hle, fun j hj => ?_⟩
  obtain rfl | rfl | rfl | rfl : j = 0 ∨ j = 1 ∨ j = 2 ∨ j = 3 := by omega
  · exact h0
  · exact h1
  · exact h2
  · exact h3

theorem lt_15_of_ne {w : UInt8} (hle : w.toNat ≤ 15) (hne : w ≠ 0x0F) : w.toNat < 15 := by
  refine Nat.lt_of_le_of_ne hle fun heq => hne ?_
  exact UInt8.toNat_inj.1 heq

/-- The packet changes the map by its words. -/
theorem Stored.efuseTbl_append (h : Stored e pkts b) (ho : r.offset < maxSection) :
    efuseTbl (wordTbl (copy b (pktBytes (UInt8.ofNat r.offset) r.wordEn r.data) e)
      (pkts ++ [newPkt b (UInt8.ofNat r.offset) r.wordEn])) = r.apply (efuseTbl (wordTbl e pkts)) := by
  have ho' : (UInt8.ofNat r.offset).toNat = r.offset := UInt8.toNat_ofNat_of_lt' (Nat.lt_trans ho (by decide))
  funext k
  have hj : k % 8 / 2 < maxWordUnit := Nat.div_lt_of_lt_mul (Nat.mod_lt k (by decide))
  show wordByte _ (k % 2) = _
  rw [h.wordTbl_append (ho'.symm ▸ ho) _ _ _ (Nat.mod_lt k Nat.two_pos) hj, ho',
    show 2 * (k % 8 / 2) + k % 2 = k % 8 by omega]
  exact if_congr (and_congr_left fun _ => eq_comm) rfl rfl

/-! ### A call -/

/-- The sections of a call come one after the other, until one fails. -/
theorem Stored.writeRequests (burn : Burn) (h : Stored d.content pkts b) (depth : Nat)
    (hvalid : ∀ r ∈ rs, r.offset < maxSection ∧ r.wordEn.toNat ≤ 15)
    (hdata : ∀ r ∈ rs, r.wordEn ≠ 0x0F → HasData r.wordEn r.data) (hfits : Fits b rs) :
    ∃ d' ok done pkts' b', writeRequests burn (depth + 1) rs d = some (d', ok) ∧ Stored d'.content pkts' b' ∧
      done <+: rs ∧ (ok = true → done = rs) ∧
      efuseTbl (wordTbl d'.content pkts') =
        done.foldl (fun map r => r.apply map) (efuseTbl (wordTbl d.content pkts)) := by
  induction rs generalizing d pkts b with
  | nil => exact ⟨d, true, [], pkts, b, rfl, h, List.prefix_rfl, fun _ => rfl, rfl⟩
  | cons r rs ih =>
    have hvalid' := fun r hr => hvalid r (List.mem_cons_of_mem _ hr)
    have hdata' := fun r hr => hdata r (List.mem_cons_of_mem _ hr)
    obtain ⟨ho, hle⟩ := hvalid r (List.mem_cons_self ..)
    unfold Fits at hfits
    unfold Efuse.writeRequests
    by_cases hen : r.wordEn = 0x0F
    · rw [if_pos hen] at hfits
      rw [if_neg (not_not_intro hen)]
      obtain ⟨d', ok, done, pkts', b', hw, hstored, hpre, hall, htbl⟩ := ih h hvalid' hdata' hfits
      refine ⟨d', ok, r :: done, pkts', b', hw, hstored, List.cons_prefix_cons.2 ⟨rfl, hpre⟩,
        fun hok => by rw [hall hok], ?_⟩
      have hsame : r.apply (efuseTbl (wordTbl d.content pkts)) = efuseTbl (wordTbl d.content pkts) := by
        funext k
        refine if_neg ?_
        rintro ⟨-, hword⟩
        have hnone : ∀ j < 4, wordEnabled 0x0F j = false := by decide
        rw [hen, hnone (k % 8 / 2) (by omega)] at hword
        cases hword
      rw [List.foldl_cons, hsame, htbl]
    · rw [if_neg hen] at hfits
      have hw := lt_15_of_ne hle hen
      have ho' : (UInt8.ofNat r.offset).toNat < maxSection := by
        rw [UInt8.toNat_ofNat_of_lt' (Nat.lt_trans ho (by decide))]
        exact ho
      obtain ⟨d₁, ok₁, hpkt, hcontent⟩ := h.pgPacketWrite burn r.data depth ho' hw hfits.1
      rw [if_pos hen, hpkt]
      cases ok₁ with
      | false =>
        refine ⟨d₁, false, [], pkts, b, rfl, ?_, List.nil_prefix, fun h => absurd h Bool.false_ne_true, ?_⟩
        · rw [hcontent]
          exact h
        · rw [hcontent]
          rfl
      | true =>
        rw [if_pos rfl] at hcontent
        have hpos : 0 < (hdrBytes (UInt8.ofNat r.offset) r.wordEn).length := length_hdrBytes_pos
        have hfit : b + (hdrBytes (UInt8.ofNat r.offset) r.wordEn).length ≤ 494 := hfits.1
        have hnew := h.append (show b + 10 ≤ 512 by omega) ho' hw (hdata r (List.mem_cons_self ..) hen)
        rw [← hcontent] at hnew
        obtain ⟨d', ok, done, pkts', b', hw, hstored, hpre, hall, htbl⟩ := ih hnew hvalid' hdata' hfits.2
        refine ⟨d', ok, r :: done, pkts', b', hw, hstored, List.cons_prefix_cons.2 ⟨rfl, hpre⟩,
          fun hok => by rw [hall hok], ?_⟩
        rw [htbl, hcontent, h.efuseTbl_append ho]
        rfl

theorem mem_sections {cnts s : Nat} :
    s ∈ sections addr cnts ↔ 0 < cnts ∧ addr / 8 ≤ s ∧ s ≤ (addr + cnts - 1) / 8 := by
  unfold sections
  split
  · simp
    omega
  · rw [List.mem_range'_1]
    omega

theorem nodup_sections {cnts : Nat} : (sections addr cnts).Nodup := by
  unfold sections
  split
  · exact List.nodup_nil
  · exact List.nodup_range'

/-- The request of a section puts the data into it. -/
theorem sectionRequest_apply {old : Nat → UInt8} (hk : map k = old k) :
    (sectionRequest old addr data (k / 8)).apply map k = copy addr data old k := by
  have hnew : ∀ i < 8, (sectionRequest old addr data (k / 8)).data.byte i = copy addr data old (k / 8 * 8 + i) := by
    intro i hi
    have hval : (Fin.ofNat 8 i).val = i := Nat.mod_eq_of_lt hi
    unfold PgData.byte sectionRequest copy
    dsimp only
    rw [hval]
  have hmod : k / 8 * 8 + k % 8 = k := Nat.div_add_mod' k 8
  unfold PgRequest.apply
  by_cases hen : wordEnabled (sectionRequest old addr data (k / 8)).wordEn (k % 8 / 2) = true
  · rw [if_pos ⟨rfl, hen⟩, hnew _ (Nat.mod_lt k (by decide)), hmod]
  · rw [if_neg fun h => hen h.2, hk]
    -- The word is not written, so that both of its bytes are the same as before.
    have hmask := (wordMask_spec fun j =>
      copy addr data old (k / 8 * 8 + 2 * j) != old (k / 8 * 8 + 2 * j) ||
        copy addr data old (k / 8 * 8 + (2 * j + 1)) != old (k / 8 * 8 + (2 * j + 1))).2 (k % 8 / 2) (by omega)
    have hoff : (copy addr data old (k / 8 * 8 + 2 * (k % 8 / 2)) != old (k / 8 * 8 + 2 * (k % 8 / 2)) ||
        copy addr data old (k / 8 * 8 + (2 * (k % 8 / 2) + 1)) != old (k / 8 * 8 + (2 * (k % 8 / 2) + 1))) = false :=
      Bool.eq_false_iff.2 fun h => hen (hmask.trans h)
    rw [Bool.or_eq_false_iff, bne_eq_false_iff_eq, bne_eq_false_iff_eq] at hoff
    obtain heven | hodd : k / 8 * 8 + 2 * (k % 8 / 2) = k ∨ k / 8 * 8 + (2 * (k % 8 / 2) + 1) = k := by omega
    · rw [← heven]
      exact hoff.1.symm
    · rw [← hodd]
      exact hoff.2.symm

theorem local_sectionRequest {old : Nat → UInt8} :
    Regions.Local (fun k => k / 8) fun map s => (sectionRequest old addr data s).apply map where
  frame map s k hk := if_neg fun h => hk h.1
  congr map map' s heq k hk := by
    unfold PgRequest.apply
    rw [heq k hk]

/-- Sections that are not asked for have none of the data. -/
theorem copy_of_notMem {old : Nat → UInt8} (hk : k / 8 ∉ sections addr data.length) : copy addr data old k = old k := by
  rcases Nat.lt_or_ge k addr with hlt | hge
  · exact copy_of_lt hlt
  · refine copy_of_le ?_
    rw [mem_sections] at hk
    by_contra hlt
    have h8 : addr / 8 ≤ k / 8 := Nat.div_le_div_right hge
    have h8' : k / 8 ≤ (addr + data.length - 1) / 8 := Nat.div_le_div_right (by omega)
    exact hk ⟨by omega, h8, h8'⟩

/-- What a call does to a log. -/
theorem Stored.mapWrite (burn : Burn) (h : Stored d.content pkts b) (depth : Nat) (hsafe : SafeWrite d addr data) :
    ∃ d' ok pkts' b', mapWrite burn (depth + 1) d addr data = some (d', ok) ∧ Stored d'.content pkts' b' ∧
      ∀ k < realContentLen, mapOf d' k = copy addr data (mapOf d) k ∨ ok = false ∧ mapOf d' k = mapOf d k := by
  unfold Efuse.mapWrite
  by_cases hlen : addr + data.length > realContentLen
  · rw [if_pos hlen]
    exact ⟨d, false, pkts, b, rfl, h, fun k _ => .inr ⟨rfl, rfl⟩⟩
  rw [if_neg hlen]
  have hvalid : ∀ r ∈ requests d addr data, r.offset < maxSection ∧ r.wordEn.toNat ≤ 15 := by
    intro r hr
    obtain ⟨s, hs, rfl⟩ := List.mem_map.1 hr
    obtain ⟨hpos, -, hle⟩ := mem_sections.1 hs
    refine ⟨Nat.lt_of_le_of_lt hle ?_, (wordMask_spec _).1⟩
    have hlen : addr + data.length ≤ 512 := Nat.not_lt.1 hlen
    show (addr + data.length - 1) / 8 < 64
    omega
  have hread : Stored (mapRead d fun _ => 0xFF).1.content pkts b := h
  obtain ⟨d', ok, done, pkts', b', hw, hstored, hpre, hall, htbl⟩ :=
    hread.writeRequests burn depth hvalid hsafe.hasData (h.logEnd ▸ hsafe.fits)
  refine ⟨d', ok, pkts', b', hw, hstored, fun k hk => ?_⟩
  obtain ⟨n, hdone⟩ : ∃ n, done = ((sections addr data.length).take n).map (sectionRequest (mapOf d) addr data) := by
    refine ⟨done.length, ?_⟩
    rw [List.map_take]
    exact List.prefix_iff_eq_take.1 hpre
  have hmap := congrFun htbl k
  rw [← hstored.mapOf_eq hk, hdone, List.foldl_map,
    Regions.foldl_apply local_sectionRequest (nodup_sections.sublist (List.take_sublist ..))] at hmap
  have hold : efuseTbl (wordTbl d.content pkts) k = mapOf d k := (h.mapOf_eq hk).symm
  have hold' : efuseTbl (wordTbl (mapRead d fun _ => 0xFF).1.content pkts) k = mapOf d k := hold
  split at hmap
  · rw [sectionRequest_apply hold'] at hmap
    exact .inl hmap
  · rename_i hnot
    rw [hold'] at hmap
    cases ok with
    | false => exact .inr ⟨rfl, hmap⟩
    | true =>
      have hfull : (sections addr data.length).take n = sections addr data.length := by
        have hlen := congrArg List.length (hdone.symm.trans (hall rfl))
        rw [requests, List.length_map, List.length_map] at hlen
        exact (List.take_sublist ..).eq_of_length hlen
      rw [hfull] at hnot
      rw [copy_of_notMem hnot]
      exact .inl hmap

/-! ### Runs -/

theorem Written.stored (h : Written burn (depth + 1) d) : ∃ pkts b, Stored d.content pkts b := by
  induction h with
  | empty => exact ⟨[], 0, .nil 0, fun p hp => absurd hp List.not_mem_nil, fun _ _ _ => rfl⟩
  | read buf _ ih => exact ih
  | write _ safe eq ih =>
    obtain ⟨pkts, b, hstored⟩ := ih
    obtain ⟨d₁, ok₁, pkts', b', hw, hstored', -⟩ := hstored.mapWrite burn depth safe
    obtain ⟨rfl, rfl⟩ := Prod.mk.inj (Option.some.inj (hw.symm.trans eq))
    exact ⟨pkts', b', hstored'⟩

/-- After any run of safe writes a further one returns, and what is read then is the map before with the data put
into it; if it has failed, sections may be left out. -/
theorem mapWrite_readBack (h : Written burn (depth + 1) d) (hsafe : SafeWrite d addr data) :
    ∃ d' ok, mapWrite burn (depth + 1) d addr data = some (d', ok) ∧
      ∀ k < realContentLen, mapOf d' k = copy addr data (mapOf d) k ∨ ok = false ∧ mapOf d' k = mapOf d k := by
  obtain ⟨pkts, b, hstored⟩ := h.stored
  obtain ⟨d', ok, pkts', b', hw, -, hmap⟩ := hstored.mapWrite burn depth hsafe
  exact ⟨d', ok, hw, hmap⟩

theorem mapWrite_readBack_empty : ∃ d' ok,
    mapWrite (fun old _ => old) 1 ⟨fun _ => 0xFF, 0, 0⟩ 5 [0x11, 0xFF, 0x22, 0x33] = some (d', ok) ∧
      ∀ k < realContentLen, mapOf d' k = copy 5 [0x11, 0xFF, 0x22, 0x33] (mapOf ⟨fun _ => 0xFF, 0, 0⟩) k ∨
        ok = false ∧ mapOf d' k = mapOf ⟨fun _ => 0xFF, 0, 0⟩ k :=
  mapWrite_readBack (.empty 0 0) ⟨by decide +kernel, by decide +kernel⟩

end

end Rtw.Efuse
