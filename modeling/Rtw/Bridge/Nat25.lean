import Mathlib.Data.Finset.Card
import Mathlib.Data.Finset.Lattice.Fold
import Mathlib.Order.Lattice.Nat
import Mathlib.Data.List.FinRange
import Rtw.Lib.Hlist
import Rtw.Lib.Run
import Rtw.Recv.Frame

/-!
# The NAT2.5 database

A client behind the bridge is known to the access point by the address of this station only, so the
database remembers which client has which network address: an entry for each, in hash lists. Entries age out
when `nat25_db_expire` finds them old as often as they have been used. `scdb_entry` is a pointer to one entry
beside the lists.
-/

namespace Rtw

/-- `networkAddr`, with `MAX_NETWORK_ADDR_LEN` for `CL_IPV6_PASS` -/
abbrev NetworkAddr := Vector UInt8 17

abbrev IpAddr := Vector UInt8 4

abbrev nat25HashSize : Nat := 16

/-- The address of an entry. -/
abbrev DbPtr := Nat

section
variable (a : NetworkAddr)

/-- The bytes from `lo` to `hi`, xored. -/
def xorBytes (lo hi : Nat) : UInt8 := ((a.toList.drop lo).take (hi + 1 - lo)).foldl (· ^^^ ·) 0

def nat25NetworkHash : Fin nat25HashSize :=
  let x :=
    if a[0] = 1 then xorBytes a 7 10
    else if a[0] = 3 then xorBytes a 1 10
    else if a[0] = 4 then xorBytes a 1 3
    else if a[0] = 5 then xorBytes a 0 8
    else if a[0] = 2 then xorBytes a 1 16
    else xorBytes a 0 16
  ⟨x.toNat % 16, Nat.mod_lt _ (by decide)⟩

end

def nat25GenerateIpv4NetworkAddr (ip : IpAddr) : NetworkAddr :=
  #v[1, 0, 0, 0, 0, 0, 0, ip[0], ip[1], ip[2], ip[3], 0, 0, 0, 0, 0, 0]

/-- `struct nat25_network_db_entry` without its links. `unsigned long` has `w` bits. -/
structure Nat25Entry (w : Nat) where
  useCount : BitVec 32
  macAddr : MacAddr
  ageingTimer : BitVec w
  networkAddr : NetworkAddr

/-- `rtw_malloc`, which is assumed to succeed: it gives memory that is not in use. -/
structure Malloc where
  alloc : Finset DbPtr → DbPtr
  alloc_not_mem : ∀ used, alloc used ∉ used

theorem sup_succ_not_mem (used : Finset DbPtr) : used.sup id + 1 ∉ used := fun h =>
  Nat.not_succ_le_self (used.sup id) (Finset.le_sup (f := id) h)

/-- Memory behind all that is in use. -/
def Malloc.behind : Malloc := ⟨fun used => used.sup id + 1, sup_succ_not_mem⟩

/-- The part of the adapter that the database is in; `live` are the entries allocated. -/
structure Nat25Db (w : Nat) where
  links : Hlist (Fin nat25HashSize) DbPtr
  entry : DbPtr → Option (Nat25Entry w)
  live : Finset DbPtr
  scdbMac : MacAddr
  scdbIp : IpAddr
  scdbEntry : Option DbPtr

section
variable {w : Nat} (hz : Nat)

def timeBeforeEq (a b : BitVec w) : Bool := decide (0 ≤ (b - a).toInt)

def nat25AgeingTime : Nat := 300

def nat25HasExpired (jiffies ageingTimer : BitVec w) : Bool :=
  timeBeforeEq ageingTimer (jiffies - BitVec.ofNat w (nat25AgeingTime * hz))

namespace Nat25Db

def init : Nat25Db w where
  links := .empty
  entry _ := none
  live := ∅
  scdbMac := .replicate 6 0
  scdbIp := .replicate 4 0
  scdbEntry := none

def setEntry (s : Nat25Db w) (p : DbPtr) (e : Nat25Entry w) : Nat25Db w :=
  { s with entry := Function.update s.entry p (some e) }

/-- The entry has that network address. -/
def hasAddr (s : Nat25Db w) (a : NetworkAddr) (p : DbPtr) : Bool := (s.entry p).any fun e => e.networkAddr = a

/-- The search through a bucket that insertion, lookup and `scdb_findEntry` have in common. -/
def find (s : Nat25Db w) (a : NetworkAddr) : Option DbPtr :=
  s.links.find (s.hasAddr a) s.live.card (s.links.head (nat25NetworkHash a))

/-- `__nat25_db_network_lookup_and_replace`, with the destination address and the result -/
def lookupAndReplace (s : Nat25Db w) (jiffies : BitVec w) (a : NetworkAddr) (dst : MacAddr) :
    Nat25Db w × MacAddr × Bool :=
  match s.find a with
  | none => (s, dst, false)
  | some p =>
    match s.entry p with
    | none => (s, dst, true)
    | some e =>
      if !nat25HasExpired hz jiffies e.ageingTimer then
        (s.setEntry p { e with useCount := e.useCount + 1 }, e.macAddr, true)
      else (s, dst, true)

/-- `__nat25_db_network_insert` -/
def networkInsert (malloc : Malloc) (s : Nat25Db w) (jiffies : BitVec w) (mac : MacAddr) (a : NetworkAddr) :
    Nat25Db w :=
  match s.find a with
  | some p =>
    match s.entry p with
    | none => s
    | some e => s.setEntry p { e with macAddr := mac, ageingTimer := jiffies }
  | none =>
    let p := malloc.alloc s.live
    { s.setEntry p { useCount := 1, macAddr := mac, ageingTimer := jiffies, networkAddr := a } with
      live := insert p s.live
      links := s.links.link p (nat25NetworkHash a) }

/-- The lines by which `nat25_db_cleanup` and `nat25_db_expire` free an entry. -/
def freeEntry (s : Nat25Db w) (p : DbPtr) : Nat25Db w :=
  let s :=
    if s.scdbEntry = some p then
      { s with scdbMac := .replicate 6 0, scdbIp := .replicate 4 0, scdbEntry := none }
    else s
  { s with
    links := s.links.unlink p
    entry := Function.update s.entry p none
    live := s.live.erase p }

/-- `step` on each entry. -/
def forEachEntry (step : Nat25Db w → DbPtr → Nat25Db w) (s : Nat25Db w) : Nat25Db w :=
  (List.finRange nat25HashSize).foldl
    (fun s i => Hlist.forEach Nat25Db.links step s.live.card (s.links.head i) s) s

/-- `nat25_db_cleanup` -/
def cleanup (s : Nat25Db w) : Nat25Db w := s.forEachEntry freeEntry

/-- What `nat25_db_expire` does with an entry. -/
def expireEntry (jiffies : BitVec w) (s : Nat25Db w) (p : DbPtr) : Nat25Db w :=
  match s.entry p with
  | none => s
  | some e =>
    if nat25HasExpired hz jiffies e.ageingTimer then
      let useCount := e.useCount - 1
      if useCount = 0 then s.freeEntry p else s.setEntry p { e with useCount }
    else s

/-- `nat25_db_expire` -/
def expire (jiffies : BitVec w) (s : Nat25Db w) : Nat25Db w := s.forEachEntry (expireEntry hz jiffies)

def scdbFindEntry (s : Nat25Db w) (ip : IpAddr) : Option DbPtr := s.find (nat25GenerateIpv4NetworkAddr ip)

/-- `scdb_entry->ageing_timer = jiffies` -/
def touchScdbEntry (s : Nat25Db w) (jiffies : BitVec w) : Nat25Db w :=
  match s.scdbEntry with
  | none => s
  | some p =>
    match s.entry p with
    | none => s
    | some e => s.setEntry p { e with ageingTimer := jiffies }

/-- `scdb_entry` is set by `scdb_findEntry` in `rtw_br_client_tx`. -/
def setScdbEntry (s : Nat25Db w) (jiffies : BitVec w) (mac : MacAddr) (ip : IpAddr) : Nat25Db w :=
  let s := { s with scdbEntry := s.scdbFindEntry ip }
  if s.scdbEntry ≠ none then { s with scdbMac := mac, scdbIp := ip }.touchScdbEntry jiffies else s

end Nat25Db

/-- What was recorded last for a network address. -/
structure Latest (w : Nat) where
  mac : MacAddr
  /-- The time of the last insertion or refreshment. -/
  timer : BitVec w
  /-- `nat25_db_expire` has found it expired since. -/
  expired : Bool

/-- The database, and beside it what was recorded since the last `nat25_db_cleanup`. -/
structure Nat25Run (w : Nat) where
  db : Nat25Db w
  latest : NetworkAddr → Option (Latest w)

inductive Nat25Event (w : Nat) where
  | insert (jiffies : BitVec w) (mac : MacAddr) (a : NetworkAddr)
  | lookup (jiffies : BitVec w) (a : NetworkAddr) (dst : MacAddr)
  | expire (jiffies : BitVec w)
  | cleanup
  | setScdb (jiffies : BitVec w) (mac : MacAddr) (ip : IpAddr)
  | touchScdb (jiffies : BitVec w)

namespace Nat25Run

def init : Nat25Run w := ⟨.init, fun _ => none⟩

/-- What `scdb_entry` points to is refreshed. -/
def refresh (s : Nat25Run w) (jiffies : BitVec w) (p : Option DbPtr) : NetworkAddr → Option (Latest w) :=
  match p.bind s.db.entry with
  | none => s.latest
  | some e =>
    Function.update s.latest e.networkAddr
      ((s.latest e.networkAddr).map fun r => { r with timer := jiffies, expired := false })

def next (malloc : Malloc) (s : Nat25Run w) : Nat25Event w → Nat25Run w
  | .insert jiffies mac a =>
    { db := s.db.networkInsert malloc jiffies mac a
      latest := Function.update s.latest a (some ⟨mac, jiffies, false⟩) }
  | .lookup jiffies a dst => { s with db := (s.db.lookupAndReplace hz jiffies a dst).1 }
  | .expire jiffies =>
    { db := s.db.expire hz jiffies
      latest := fun a => (s.latest a).map fun r =>
        { r with expired := r.expired || nat25HasExpired hz jiffies r.timer } }
  | .cleanup => { db := s.db.cleanup, latest := fun _ => none }
  | .setScdb jiffies mac ip =>
    { db := s.db.setScdbEntry jiffies mac ip, latest := s.refresh jiffies (s.db.scdbFindEntry ip) }
  | .touchScdb jiffies => { db := s.db.touchScdbEntry jiffies, latest := s.refresh jiffies s.db.scdbEntry }

end Nat25Run

end

end Rtw
