/-
  Mem/PageCache/ReclaimRace.lean --- page lookups against pagecache_reclaim,
  interleaved step by step.

  A lookup (the hit path of pc_get_page) takes mapping->lock, finds the page in
  its hash chain when PC_PAGE_EVICTING is clear (pc_find_locked), then
  increments the page's references, drops the lock and returns the page.  A
  reclaimer (pagecache_reclaim on an inactive, unreferenced, clean page at the
  LRU tail) tests the references without any lock, try-locks the page,
  publishes EVICTING, re-reads the references and, finding none, unlinks the
  page under mapping->lock (pc_unlink_page) and hands it to pc_free_page.

  The lookup tests EVICTING and increments the references in two steps, and
  nothing orders the reclaimer's publish and re-read between them: the
  reclaimer only takes mapping->lock after its decision.  A lookup that has
  passed the test but not yet incremented lets the re-read see no reference;
  the lookup then counts its reference and returns the page, which the
  reclaimer unlinks once the lookup drops mapping->lock, and frees.

  Each step below is one atomic access or one critical section of the source.
  The page's other flags, pc_touch after a hit (which takes the page lock and
  pagecache.lock only after the reference is counted), the statistics and the
  global LRU lock are left out: the reclaimer's decision reads none of them on
  the path modelled.
-/
import Mathlib.Data.Nat.Basic

set_option autoImplicit false

namespace Uinxed.PageCache

/-- The threads: lookups by number, and one reclaimer. -/
inductive Thread where
  | lookup (i : Nat)
  | reclaim
  deriving DecidableEq, Repr

/-- Where a lookup is in the hit path of pc_get_page. -/
inductive LookupPc where
  | start
  | locked
  | found
  | counted
  | holding
  | missed
  | released
  deriving DecidableEq, Repr

/-- Where the reclaimer is in its pass over the page. -/
inductive ReclaimPc where
  | scan
  | tryLock
  | publish
  | recheck
  | unlink
  | free
  | done
  deriving DecidableEq, Repr

/-- One page of one mapping, the two locks around it, and every thread's
place. -/
structure RaceState where
  mappingLock : Option Thread
  pageLock : Option Thread
  evicting : Bool
  references : Nat
  hashed : Bool
  freed : Bool
  lookupPc : Nat → LookupPc
  reclaimPc : ReclaimPc

/-- A cached page with no reference, every lookup about to start, the
reclaimer about to scan it. -/
def RaceState.init : RaceState :=
  { mappingLock := none, pageLock := none, evicting := false, references := 0, hashed := true,
    freed := false, lookupPc := fun _ => .start, reclaimPc := .scan }

/-- Move lookup i to a new place. -/
def RaceState.setLookup (s : RaceState) (i : Nat) (pc : LookupPc) : RaceState :=
  { s with lookupPc := fun j => if j = i then pc else s.lookupPc j }

/-- One step of lookup i; none when it waits for mapping->lock or is
finished. -/
def lookupStep (s : RaceState) (i : Nat) : Option RaceState :=
  match s.lookupPc i with
  | .start =>
    -- pc_lock(&mapping->lock)
    if s.mappingLock = none then some ({ s with mappingLock := some (.lookup i) }.setLookup i .locked)
    else none
  | .locked =>
    -- pc_find_locked: the page is in its chain and EVICTING is clear
    if s.hashed ∧ s.evicting = false then some (s.setLookup i .found)
    else some ({ s with mappingLock := none }.setLookup i .missed)
  | .found =>
    -- __atomic_add_fetch(&page->references, 1)
    some ({ s with references := s.references + 1 }.setLookup i .counted)
  | .counted =>
    -- pc_unlock(&mapping->lock); the page is returned
    some ({ s with mappingLock := none }.setLookup i .holding)
  | .holding =>
    -- pagecache_put_page
    some ({ s with references := s.references - 1 }.setLookup i .released)
  | .missed | .released => none

/-- One step of the reclaimer; none when it waits for mapping->lock or is
done. -/
def reclaimStep (s : RaceState) : Option RaceState :=
  match s.reclaimPc with
  | .scan =>
    -- the unlocked test: a referenced page is skipped
    if s.references ≠ 0 then some { s with reclaimPc := .done }
    else some { s with reclaimPc := .tryLock }
  | .tryLock =>
    if s.pageLock = none then some { s with pageLock := some .reclaim, reclaimPc := .publish }
    else some { s with reclaimPc := .done }
  | .publish =>
    -- __atomic_fetch_or(&page->flags, PC_PAGE_EVICTING)
    some { s with evicting := true, reclaimPc := .recheck }
  | .recheck =>
    -- a reference taken since the test: clear EVICTING and give up
    if s.references ≠ 0 then some { s with evicting := false, pageLock := none, reclaimPc := .done }
    else some { s with reclaimPc := .unlink }
  | .unlink =>
    -- pc_unlink_page: under mapping->lock, remove the page from its chain
    if s.mappingLock = none then
      if s.hashed then some { s with hashed := false, reclaimPc := .free }
      else some { s with evicting := false, pageLock := none, reclaimPc := .done }
    else none
  | .free =>
    -- pc_unlock(&victim->lock); pc_free_page(victim)
    some { s with pageLock := none, freed := true, reclaimPc := .done }
  | .done => none

/-- One step of a thread. -/
def raceStep (s : RaceState) : Thread → Option RaceState
  | .lookup i => lookupStep s i
  | .reclaim => reclaimStep s

/-- A schedule: each named thread takes a step when it can. -/
def runSchedule (s : RaceState) : List Thread → RaceState
  | [] => s
  | t :: ts => runSchedule ((raceStep s t).getD s) ts

/-- A lookup that holds a reference from pc_get_page. -/
def HoldsReference (s : RaceState) (i : Nat) : Prop :=
  s.lookupPc i = .counted ∨ s.lookupPc i = .holding

instance (s : RaceState) (i : Nat) : Decidable (HoldsReference s i) :=
  inferInstanceAs (Decidable (_ ∨ _))

/-- Lookup 0 passes pc_find_locked, the reclaimer tests, locks, publishes
EVICTING and re-reads no reference, lookup 0 counts its reference and returns
the page, and the reclaimer unlinks and frees it: the page is freed while the
lookup holds the reference pc_get_page gave it. -/
theorem reclaim_frees_referenced_page :
    (runSchedule RaceState.init
      [.lookup 0, .lookup 0, .reclaim, .reclaim, .reclaim, .reclaim, .lookup 0, .lookup 0, .reclaim, .reclaim]).freed = true ∧
    HoldsReference (runSchedule RaceState.init
      [.lookup 0, .lookup 0, .reclaim, .reclaim, .reclaim, .reclaim, .lookup 0, .lookup 0, .reclaim, .reclaim]) 0 ∧
    (runSchedule RaceState.init
      [.lookup 0, .lookup 0, .reclaim, .reclaim, .reclaim, .reclaim, .lookup 0, .lookup 0, .reclaim, .reclaim]).references = 1 := by
  decide

end Uinxed.PageCache
