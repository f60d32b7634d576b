/-
  Ipc/Futex.lean --- the futex table and the futex operations of
  src/ipc/futex.c, over the wait queues of Sched/WaitQueue.lean and the PI
  mutexes of Ipc/RtMutex.lean.

  A futex entry is keyed by the address of a user word.  The entries of all
  hash buckets are kept in one list, newest first: every function that walks
  a bucket looks only at the entries of its own key, whose order the one list
  keeps, and two addresses share a bucket exactly when their
  futex_hash_index agrees (the requeue and wake-op paths clean up their
  second entry only when the buckets differ).  Entries are named by the order
  of their allocation; the wait queue of entry e is FutexQueue.entry e, and
  the PI mutex it may carry is mutex e of the PI state, with wait queue
  FutexQueue.pi e.  Freeing an entry takes it off the list; its mutex and its
  queues stay behind as the stale memory they become, so a task still linked
  there, or an owner still recorded there, can be seen.

  Each bucket-locked section is one atomic step, and so is each section that
  the source runs under a PI mutex's lock or scheduler.lock alone.
  futex_wait and futex_lock_pi run several sections, and other tasks' steps
  interleave between them: the system keeps for every task where it is
  (FutexPc).  futex_wait's signal check and the wait-queue section after it
  are one step: the signal state is an input, and no step of another task
  between the two could change what either does.  User memory maps an
  address to its word, none where copy_from_user and copy_to_user fault.
  Allocation failures, pending signals, expired deadlines and the number of
  futex_waitv registrations a wake reaches are inputs of the step that meets
  them.  The timespec decoding of timeouts, futex2 and futex_waitv are not
  modelled.
-/
import Mathlib.Algebra.GroupWithZero.Nat
import Uinxed.Sched.WaitQueue
import Uinxed.Ipc.RtMutex

set_option autoImplicit false

namespace Uinxed.Futex

open Uinxed.Sched Uinxed.Pi

/-! ## Constants -/

/-- FUTEX_HASH_SIZE, 1 << FUTEX_HASH_BITS with FUTEX_HASH_BITS 8. -/
def futexHashSize : Nat := 2 ^ 8

/-- FUTEX_BITSET_MATCH_ANY. -/
def futexBitsetMatchAny : UInt64 := 0xffffffffffffffff

/-- FUTEX_WAITERS. -/
def futexWaiters : UInt32 := 0x80000000

/-- FUTEX_TID_MASK. -/
def futexTidMask : UInt32 := 0x3fffffff

/-- ESRCH. -/
def esrch : Nat := 3

/-- ENOMEM. -/
def enomem : Nat := 12

/-- EFAULT. -/
def efault : Nat := 14

/-- EINVAL. -/
def einval : Nat := 22

/-- ETIMEDOUT. -/
def etimedout : Nat := 110

/-- ERESTARTSYS. -/
def erestartsys : Nat := 512

/-- futex_hash_index. -/
def futexHashIndex (uaddr : Nat) : Nat := (uaddr >>> 2) &&& (futexHashSize - 1)

/-! ## State -/

/-- The wait queue of a futex entry, or the one of the PI mutex it carries. -/
inductive FutexQueue where
  | entry (e : Nat)
  | pi (e : Nat)
  deriving DecidableEq, Repr

/-- futex_entry_t without its wait queue and its next link; piMutex says that
entry->pi_mutex is set. -/
structure FutexEntry where
  key : Nat
  bitset : UInt64
  piMutex : Bool
  deriving DecidableEq, Repr

/-- Where a task is in the futex operations that run more than one section.
A task in waitQueued has passed futex_wait's first section and is linked in
the queue of entry e; in waitSleeping it has committed to its sleep (timed:
through wait_queue_wait_timed); in waitCleanup it knows its return value and
is about to clean up.  A task in lockPi is at the top of futex_lock_pi's loop;
in lockPiQueued it has queued itself on the PI mutex of entry e; in
lockPiReady it found the mutex ready and will cancel its wait, then in
lockPiCancelled leave the PI tree; in lockPiBlocking it will block; in
lockPiSleeping it is in task_block; in lockPiRetry it woke neither owning the
mutex nor told of its owner's death, and will leave the tree. -/
inductive FutexPc where
  | idle
  | waitQueued (uaddr : Nat) (bitset : UInt64) (e : Nat) (timed : Bool)
  | waitSleeping (uaddr : Nat) (bitset : UInt64) (timed : Bool)
  | waitCleanup (uaddr : Nat) (bitset : UInt64) (ret : Int)
  | lockPi (uaddr : Nat)
  | lockPiQueued (uaddr e : Nat)
  | lockPiReady (uaddr e : Nat)
  | lockPiCancelled (uaddr e : Nat)
  | lockPiBlocking (uaddr e : Nat)
  | lockPiSleeping (uaddr e : Nat)
  | lockPiRetry (uaddr e : Nat)
  deriving DecidableEq, Repr

/-- The futex table, user memory, the wait queues, the PI state and where
every task is.  pidFind is pid_find_task. -/
structure FutexSystem where
  mem : Nat → Option UInt32
  entries : List Nat
  entry : Nat → FutexEntry
  nextEntry : Nat
  wait : WaitState FutexQueue
  pi : PiState
  pidFind : Nat → Option Nat
  pc : Nat → FutexPc

/-- A booted kernel with the given user memory and tasks: no futex entry, no
waiter, no task inside a futex operation. -/
def FutexSystem.init (mem : Nat → Option UInt32) (pids : Nat → Option Nat) (pidFind : Nat → Option Nat) :
    FutexSystem :=
  ⟨mem, [], fun _ => ⟨0, 0, false⟩, 0, WaitState.init, PiState.init pids, pidFind, fun _ => .idle⟩

namespace FutexSystem

variable (s : FutexSystem)

/-- Move a task to another place in the futex operations. -/
def setPc (t : Nat) (p : FutexPc) : FutexSystem := { s with pc := Function.update s.pc t p }

/-- A successful copy_to_user of a word. -/
def setMem (uaddr : Nat) (v : UInt32) : FutexSystem := { s with mem := Function.update s.mem uaddr (some v) }

/-- The futex word a task writes for itself: self->pid & FUTEX_TID_MASK. -/
def tid (t : Nat) : UInt32 := UInt32.ofNat (s.pi.tasks t).pid &&& futexTidMask

/-- malloc and initialise a new entry at the head of its bucket, with an
empty wait queue. -/
def alloc (key : Nat) (bitset : UInt64) : FutexSystem :=
  { s with
    entry := Function.update s.entry s.nextEntry ⟨key, bitset, false⟩
    entries := s.nextEntry :: s.entries
    nextEntry := s.nextEntry + 1
    wait := s.wait.setQueue (.entry s.nextEntry) [] }

/-- malloc and rt_mutex_init a PI mutex for an entry. -/
def initPi (e : Nat) : FutexSystem :=
  { s with
    entry := Function.update s.entry e { s.entry e with piMutex := true }
    pi := s.pi.modifyMutex e fun _ => RtMutex.init
    wait := s.wait.setQueue (.pi e) [] }

@[simp] theorem setPc_pc (t : Nat) (p : FutexPc) : (s.setPc t p).pc = Function.update s.pc t p := rfl
@[simp] theorem setPc_wait (t : Nat) (p : FutexPc) : (s.setPc t p).wait = s.wait := rfl
@[simp] theorem setPc_entry (t : Nat) (p : FutexPc) : (s.setPc t p).entry = s.entry := rfl
@[simp] theorem setMem_pc (uaddr : Nat) (v : UInt32) : (s.setMem uaddr v).pc = s.pc := rfl
@[simp] theorem setMem_wait (uaddr : Nat) (v : UInt32) : (s.setMem uaddr v).wait = s.wait := rfl
@[simp] theorem setMem_entry (uaddr : Nat) (v : UInt32) : (s.setMem uaddr v).entry = s.entry := rfl
@[simp] theorem alloc_entry (key : Nat) (bitset : UInt64) :
    (s.alloc key bitset).entry = Function.update s.entry s.nextEntry ⟨key, bitset, false⟩ := rfl
@[simp] theorem alloc_entries (key : Nat) (bitset : UInt64) : (s.alloc key bitset).entries = s.nextEntry :: s.entries :=
  rfl
@[simp] theorem alloc_nextEntry (key : Nat) (bitset : UInt64) : (s.alloc key bitset).nextEntry = s.nextEntry + 1 := rfl
@[simp] theorem alloc_wait (key : Nat) (bitset : UInt64) :
    (s.alloc key bitset).wait = s.wait.setQueue (.entry s.nextEntry) [] := rfl
@[simp] theorem initPi_entry (e : Nat) :
    (s.initPi e).entry = Function.update s.entry e { s.entry e with piMutex := true } := rfl
@[simp] theorem initPi_entries (e : Nat) : (s.initPi e).entries = s.entries := rfl
@[simp] theorem initPi_nextEntry (e : Nat) : (s.initPi e).nextEntry = s.nextEntry := rfl
@[simp] theorem initPi_wait (e : Nat) : (s.initPi e).wait = s.wait.setQueue (.pi e) [] := rfl

end FutexSystem

open FutexSystem

/-! ## The table -/

/-- futex_find: the first entry of the key. -/
def futexFind (s : FutexSystem) (key : Nat) : Option Nat :=
  s.entries.find? fun e => (s.entry e).key = key

/-- futex_find_or_create: OR the bitset into the first entry of the key, or
allocate one; none when the allocation fails. -/
def futexFindOrCreate (s : FutexSystem) (key : Nat) (bitset : UInt64) (allocFails : Bool) :
    FutexSystem × Option Nat :=
  match futexFind s key with
  | some e =>
    ({ s with entry := Function.update s.entry e { s.entry e with bitset := (s.entry e).bitset ||| bitset } }, some e)
  | none => if allocFails then (s, none) else (s.alloc key bitset, some s.nextEntry)

/-- futex_find_waiter: the first entry of the key with exactly this bitset
and no PI mutex. -/
def futexFindWaiter (s : FutexSystem) (key : Nat) (bitset : UInt64) : Option Nat :=
  s.entries.find? fun e => (s.entry e).key = key ∧ (s.entry e).bitset = bitset ∧ (s.entry e).piMutex = false

/-- futex_create_waiter: the waiter entry of the key and bitset, allocated
when there is none. -/
def futexCreateWaiter (s : FutexSystem) (key : Nat) (bitset : UInt64) (allocFails : Bool) :
    FutexSystem × Option Nat :=
  match futexFindWaiter s key bitset with
  | some e => (s, some e)
  | none => if allocFails then (s, none) else (s.alloc key bitset, some s.nextEntry)

/-- futex_remove_entry_locked: unlink the entry and free it with its PI
mutex. -/
def futexRemoveEntryLocked (s : FutexSystem) (e : Nat) : FutexSystem :=
  { s with entries := s.entries.erase e }

/-- futex_try_cleanup: free an entry whose wait queue is empty; true when it
did. -/
def futexTryCleanup (s : FutexSystem) : Option Nat → FutexSystem × Bool
  | none => (s, false)
  | some e => if s.wait.queues (.entry e) = [] then (futexRemoveEntryLocked s e, true) else (s, false)

/-- The cleanup at the end of the requeue and wake-op paths: the first entry,
then the second one when the two addresses hash to different buckets. -/
def futexCleanupPair (s : FutexSystem) (e1 e2 : Option Nat) (uaddr uaddr2 : Nat) : FutexSystem :=
  let s := (futexTryCleanup s e1).1
  if futexHashIndex uaddr ≠ futexHashIndex uaddr2 then (futexTryCleanup s e2).1 else s

/-! ## futex_wait -/

/-- The first section of futex_wait, under the bucket lock: check the word,
find or create the waiter entry and prepare to sleep on it.  A task that
returns at once goes back to idle; none when wait_queue_prepare panics. -/
def futexWaitBegin (s : FutexSystem) (t uaddr : Nat) (val : UInt32) (bitset : UInt64) (timed allocFails : Bool) :
    Option FutexSystem :=
  if bitset = 0 then some s
  else
    match s.mem uaddr with
    | none => some s
    | some cur =>
      if cur ≠ val then some s
      else
        match futexCreateWaiter s uaddr bitset allocFails with
        | (s, none) => some s
        | (s, some e) =>
          (s.wait.prepare t (.entry e)).map fun w => { s with wait := w }.setPc t (.waitQueued uaddr bitset e timed)

/-- futex_wait after the bucket lock is dropped: with a signal pending the
wait is cancelled; otherwise the task commits to its sleep, timed or not. -/
def futexWaitBlock (s : FutexSystem) (t uaddr : Nat) (bitset : UInt64) (e : Nat) (timed signal expired : Bool) :
    FutexSystem :=
  if signal then { s with wait := s.wait.cancel t }.setPc t (.waitCleanup uaddr bitset (-(erestartsys : Int)))
  else if timed then { s with wait := s.wait.waitTimed t (.entry e) expired }.setPc t (.waitSleeping uaddr bitset true)
  else { s with wait := s.wait.sleep t }.setPc t (.waitSleeping uaddr bitset false)

/-- futex_wait once the task runs again: a timed wait returns -ETIMEDOUT
after a timeout and consumes the wake reason, and a signal pending now turns
the result into -ERESTARTSYS. -/
def futexWaitResume (s : FutexSystem) (t uaddr : Nat) (bitset : UInt64) (timed signal : Bool) : FutexSystem :=
  let r : WaitState FutexQueue × Int :=
    if timed then
      let c := s.wait.consumeTimed t
      (c.1, if c.2 then -(etimedout : Int) else 0)
    else (s.wait, 0)
  { s with wait := r.1 }.setPc t (.waitCleanup uaddr bitset (if signal then -(erestartsys : Int) else r.2))

/-- The last section of futex_wait, under the bucket lock: free the waiter
entry of the key and bitset if its queue is empty, and return. -/
def futexWaitEnd (s : FutexSystem) (t uaddr : Nat) (bitset : UInt64) : FutexSystem :=
  (futexTryCleanup s (futexFindWaiter s uaddr bitset)).1.setPc t .idle

/-! ## futex_wake, futex_requeue, futex_wake_op -/

/-- The loop of futex_wake over the bucket: every entry of the key whose
bitset meets the wake bitset gets its waiters woken, until nr_wake tasks are
woken in all. -/
def futexWakeEntries (entry : Nat → FutexEntry) (uaddr : Nat) (bitset : UInt64) (nrWake : Nat) :
    List Nat → WaitState FutexQueue → Nat → WaitState FutexQueue × Nat
  | [], w, woken => (w, woken)
  | e :: rest, w, woken =>
    if (entry e).key ≠ uaddr ∨ (entry e).bitset &&& bitset = 0 then futexWakeEntries entry uaddr bitset nrWake rest w woken
    else
      let r := WaitState.wakeUpTo (nrWake - woken) w (.entry e)
      futexWakeEntries entry uaddr bitset nrWake rest r.1 (woken + r.2)

/-- futex_wake: wake up to nr_wake waiters of the word whose bitset meets
the wake bitset, then up to the rest of nr_wake futex_waitv registrations
(notified of them are reached); the number woken is returned. -/
def futexWake (s : FutexSystem) (uaddr : Nat) (nrWake : Int) (bitset : UInt64) (notified : Nat) : FutexSystem × Int :=
  if bitset = 0 then (s, -(einval : Int))
  else if nrWake ≤ 0 then (s, 0)
  else
    let r := futexWakeEntries s.entry uaddr bitset nrWake.toNat s.entries s.wait 0
    ({ s with wait := r.1 }, (r.2 + min notified (nrWake.toNat - r.2) : Nat))

/-- The part of futex_requeue after its checks: wake up to nr_wake waiters
of entry e1, move up to nr_requeue of the rest to an entry of uaddr2, and
clean up both entries. -/
def futexRequeueWake (s : FutexSystem) (uaddr e1 : Nat) (nrWake nrRequeue : Int) (uaddr2 : Nat) (allocFails : Bool) :
    FutexSystem × Int :=
  let r := WaitState.wakeUpTo nrWake.toNat s.wait (.entry e1)
  let s := { s with wait := r.1 }
  let woken := r.2
  if 0 < nrRequeue then
    match futexFindOrCreate s uaddr2 futexBitsetMatchAny allocFails with
    | (s, none) => (futexCleanupPair s (some e1) none uaddr uaddr2, if 0 < woken then (woken : Int) else -(enomem : Int))
    | (s, some e2) =>
      let s := { s with wait := WaitState.moveUpTo nrRequeue.toNat s.wait (.entry e1) (.entry e2) }
      (futexCleanupPair s (some e1) (some e2) uaddr uaddr2, woken)
  else (futexCleanupPair s (some e1) none uaddr uaddr2, woken)

/-- futex_requeue (FUTEX_REQUEUE, and FUTEX_CMP_REQUEUE when cmp): find the
first entry of uaddr and, for FUTEX_CMP_REQUEUE, check the word at uaddr2;
then wake and requeue. -/
def futexRequeue (s : FutexSystem) (uaddr : Nat) (nrWake nrRequeue : Int) (uaddr2 : Nat) (val3 : UInt32)
    (cmp allocFails : Bool) : FutexSystem × Int :=
  match futexFind s uaddr with
  | none => (s, 0)
  | some e1 =>
    if cmp then
      match s.mem uaddr2 with
      | none => (s, -(efault : Int))
      | some cur =>
        if cur ≠ val3 then (s, -(eagain : Int)) else futexRequeueWake s uaddr e1 nrWake nrRequeue uaddr2 allocFails
    else futexRequeueWake s uaddr e1 nrWake nrRequeue uaddr2 allocFails

/-- futex_wake_op_apply. -/
def futexWakeOpApply (oldVal op oparg : UInt32) : UInt32 :=
  match op.toNat with
  | 0 => oparg
  | 1 => oldVal + oparg
  | 2 => oldVal ||| oparg
  | 3 => oldVal &&& ~~~oparg
  | 4 => oldVal ^^^ oparg
  | _ => oldVal

/-- futex_wake_op_cmp, with the ordered comparisons on int32_t. -/
def futexWakeOpCmp (oldVal cmp cmparg : UInt32) : Bool :=
  match cmp.toNat with
  | 0 => oldVal == cmparg
  | 1 => oldVal != cmparg
  | 2 => decide (oldVal.toInt32 < cmparg.toInt32)
  | 3 => decide (oldVal.toInt32 ≤ cmparg.toInt32)
  | 4 => decide (oldVal.toInt32 > cmparg.toInt32)
  | 5 => decide (oldVal.toInt32 ≥ cmparg.toInt32)
  | _ => false

/-- The wake loops of futex_wake_op: up to k waiters of the entry its bucket
walk found, if it found one. -/
def futexWakeFound (w : WaitState FutexQueue) : Option Nat → Nat → WaitState FutexQueue × Nat
  | some e, k => WaitState.wakeUpTo k w (.entry e)
  | none, _ => (w, 0)

/-- futex_wake_op: update the word at uaddr2, wake up to nr_wake waiters of
the first entry of uaddr and, when the comparison on the old value holds, up
to nr_wake2 of the first entry of uaddr2; then clean up the entries it
looked at. -/
def futexWakeOp (s : FutexSystem) (uaddr : Nat) (nrWake nrWake2 : Int) (uaddr2 : Nat) (val3 : UInt32) :
    FutexSystem × Int :=
  let op := (val3 >>> 12) &&& 0xf
  let cmp := (val3 >>> 24) &&& 0xf
  let cmparg := val3 &&& 0xfff
  let oparg := (val3 >>> 28) &&& 0xf
  match s.mem uaddr2 with
  | none => (s, -(efault : Int))
  | some oldVal =>
    let s := s.setMem uaddr2 (futexWakeOpApply oldVal op oparg)
    let e1 := futexFind s uaddr
    let r := futexWakeFound s.wait e1 nrWake.toNat
    let s := { s with wait := r.1 }
    let e2 := if futexWakeOpCmp oldVal cmp cmparg ∧ 0 < nrWake2 then futexFind s uaddr2 else none
    let s := { s with wait := (futexWakeFound s.wait e2 nrWake2.toNat).1 }
    (futexCleanupPair s e1 e2 uaddr uaddr2, r.2)

/-! ## The PI operations -/

/-- futex_get_pi_mutex: the entry of the word, with a PI mutex allocated on
it if it has none; none when an allocation fails. -/
def futexGetPiMutex (s : FutexSystem) (uaddr : Nat) (allocFails piAllocFails : Bool) : FutexSystem × Option Nat :=
  match futexFindOrCreate s uaddr futexBitsetMatchAny allocFails with
  | (s, none) => (s, none)
  | (s, some e) =>
    if (s.entry e).piMutex then (s, some e)
    else if piAllocFails then (s, none)
    else (s.initPi e, some e)

/-- Take the PI mutex of entry e: the word gets the task's tid, the mutex
its owner, and the task's weights are reset. -/
def FutexSystem.takePi (s : FutexSystem) (t uaddr e : Nat) : FutexSystem :=
  { s.setMem uaddr (s.tid t) with
    pi := (s.pi.modifyMutex e fun m => { m with owner := some t, ownerDied := false }).resetWeights t }

/-- futex_trylock_pi. -/
def futexTrylockPi (s : FutexSystem) (t uaddr : Nat) (allocFails piAllocFails : Bool) : FutexSystem × Int :=
  match s.mem uaddr with
  | none => (s, -(efault : Int))
  | some cur =>
    if cur &&& futexTidMask ≠ 0 then (s, -(eagain : Int))
    else
      match futexGetPiMutex s uaddr allocFails piAllocFails with
      | (s, none) => (s, -(enomem : Int))
      | (s, some e) => (s.takePi t uaddr e, eok)

/-- The bucket-locked section at the top of futex_lock_pi's loop: take a free
word, or mark it contended, record the owner found by its tid on the mutex,
queue as a PI waiter and prepare to sleep on the mutex.  A task that returns
goes back to idle; none when the chain walk runs out of fuel or
wait_queue_prepare panics. -/
def futexLockPiAttempt (fuel : Nat) (s : FutexSystem) (t uaddr : Nat) (allocFails piAllocFails : Bool) :
    Option FutexSystem :=
  match futexGetPiMutex s uaddr allocFails piAllocFails with
  | (s, none) => some (s.setPc t .idle)
  | (s, some e) =>
    match s.mem uaddr with
    | none => some (s.setPc t .idle)
    | some cur =>
      if cur &&& futexTidMask = 0 then some ((s.takePi t uaddr e).setPc t .idle)
      else
        let s := s.setMem uaddr (cur ||| futexWaiters)
        match s.pidFind (cur &&& futexTidMask).toNat with
        | none => some (s.setPc t .idle)
        | some owner =>
          if owner = t then some (s.setPc t .idle)
          else
            let pi := (s.pi.modifyMutex e fun m => { m with owner := some owner }).resetWeights t
            let pi? := if (pi.tasks t).blockedOn ≠ some e then piWaiterAdd fuel pi t e else some pi
            pi?.bind fun pi =>
              (s.wait.prepare t (.pi e)).map fun w => { s with pi := pi, wait := w }.setPc t (.lockPiQueued uaddr e)

/-- The re-check of futex_lock_pi under the mutex's lock: the mutex is ready
when it has no owner or was handed to the task. -/
def futexLockPiRecheck (s : FutexSystem) (t uaddr e : Nat) : FutexSystem :=
  let owner := (s.pi.mutexes e).owner
  s.setPc t (if owner = none ∨ owner = some t then .lockPiReady uaddr e else .lockPiBlocking uaddr e)

/-- The section after task_block in futex_lock_pi, once the task runs: a task
handed the mutex returns EOK, one whose owner died EOWNERDEAD (the tree is
left as in rt_mutex_lock), and any other retries. -/
def futexLockPiAfterWake (fuel : Nat) (s : FutexSystem) (t uaddr e : Nat) : Option FutexSystem :=
  (lockAfterWake fuel s.pi e t).map fun r =>
    let next := match r.2 with
      | some _ => .idle
      | none => if (s.pi.mutexes e).owner = some t then .idle else .lockPiRetry uaddr e
    { s with pi := r.1 }.setPc t next

/-- The defensive section at the end of futex_lock_pi's loop: leave the PI
tree if still queued, and start over. -/
def futexLockPiRetry (fuel : Nat) (s : FutexSystem) (t uaddr e : Nat) : Option FutexSystem :=
  let pi? := if (s.pi.tasks t).blockedOn = some e then piWaiterRemove fuel s.pi t else some s.pi
  pi?.map fun pi => { s with pi := pi }.setPc t (.lockPi uaddr)

/-- futex_unlock_pi: by the owner of the PI mutex of the first entry of the
word, hand the mutex to its top waiter and wake it, or free the word and
clean up the entry; then re-evaluate the releasing task's chain.  none when
the chain walk runs out of fuel. -/
def futexUnlockPi (fuel : Nat) (s : FutexSystem) (t uaddr : Nat) : Option (FutexSystem × Int) :=
  match futexFind s uaddr with
  | none => some (s, -(eperm : Int))
  | some e =>
    if (s.entry e).piMutex = false then some (s, -(eperm : Int))
    else if (s.pi.mutexes e).owner ≠ some t then some (s, -(eperm : Int))
    else
      let top := rtMutexWakeTopWaiter (s.pi.modifyMutex e fun m => { m with owner := none }) e
      let r : FutexSystem × Int :=
        match top.2 with
        | some next =>
          let pi := top.1.modifyMutex e fun m => { m with owner := some next }
          let hasWaiters := s.wait.queues (.pi e) ≠ []
          match s.mem uaddr with
          | none => ({ s with pi := pi }, -(efault : Int))
          | some _ =>
            let v := s.tid next ||| (if hasWaiters then futexWaiters else 0)
            ({ s.setMem uaddr v with pi := pi, wait := s.wait.taskWakeup next }, eok)
        | none =>
          match s.mem uaddr with
          | none => ({ s with pi := top.1 }, -(efault : Int))
          | some _ => ((futexTryCleanup { s.setMem uaddr 0 with pi := top.1 } (some e)).1, eok)
      (piPropagateChain fuel r.1.pi (some t)).map fun pi => ({ r.1 with pi := pi }, r.2)

/-- The part of futex_cmp_requeue_pi after its checks: wake up to nr_wake
waiters of entry e1, and move up to nr_requeue of the rest to the PI mutex
entry of uaddr2, allocating its mutex if it has none. -/
def futexCmpRequeuePiWake (s : FutexSystem) (uaddr e1 : Nat) (nrWake nrRequeue : Int) (uaddr2 : Nat)
    (allocFails piAllocFails : Bool) : FutexSystem × Int :=
  let r := WaitState.wakeUpTo nrWake.toNat s.wait (.entry e1)
  let s := { s with wait := r.1 }
  let woken := r.2
  let failed : Int := if 0 < woken then woken else -(enomem : Int)
  if 0 < nrRequeue then
    match futexFindOrCreate s uaddr2 futexBitsetMatchAny allocFails with
    | (s, none) => ((futexTryCleanup s (some e1)).1, failed)
    | (s, some e2) =>
      if (s.entry e2).piMutex = false ∧ piAllocFails then ((futexTryCleanup s (some e1)).1, failed)
      else
        let s := if (s.entry e2).piMutex then s else s.initPi e2
        let s := { s with wait := WaitState.moveUpTo nrRequeue.toNat s.wait (.entry e1) (.entry e2) }
        (futexCleanupPair s (some e1) (some e2) uaddr uaddr2, woken)
  else (futexCleanupPair s (some e1) none uaddr uaddr2, woken)

/-- futex_cmp_requeue_pi (and FUTEX_WAIT_REQUEUE_PI with no wake): find the
first entry of uaddr and check the word at uaddr2, then wake and requeue. -/
def futexCmpRequeuePi (s : FutexSystem) (uaddr : Nat) (nrWake nrRequeue : Int) (uaddr2 : Nat) (cmpval : UInt32)
    (allocFails piAllocFails : Bool) : FutexSystem × Int :=
  match futexFind s uaddr with
  | none => (s, 0)
  | some e1 =>
    match s.mem uaddr2 with
    | none => (s, -(efault : Int))
    | some cur =>
      if cur ≠ cmpval then (s, -(eagain : Int))
      else futexCmpRequeuePiWake s uaddr e1 nrWake nrRequeue uaddr2 allocFails piAllocFails

/-! ## The system: tasks stepping through the futex operations -/

/-- The next atomic section a task runs, or an event that happens to it: a
store to user memory, the expiry of its timer, a task_wakeup from elsewhere.
The sections after the first of futex_wait and futex_lock_pi take no
arguments: the task's place in the operation holds them. -/
inductive FutexAction where
  | wait (uaddr : Nat) (val : UInt32) (bitset : UInt64) (timed allocFails : Bool)
  | waitBlock (signal expired : Bool)
  | waitResume (signal : Bool)
  | waitEnd
  | wake (uaddr : Nat) (nrWake : Int) (bitset : UInt64) (notified : Nat)
  | requeue (uaddr : Nat) (nrWake nrRequeue : Int) (uaddr2 : Nat) (val3 : UInt32) (cmp allocFails : Bool)
  | wakeOp (uaddr : Nat) (nrWake nrWake2 : Int) (uaddr2 : Nat) (val3 : UInt32)
  | lockPi (uaddr : Nat)
  | lockPiAttempt (allocFails piAllocFails : Bool)
  | lockPiRecheck
  | lockPiCancel
  | lockPiWithdraw
  | lockPiBlock
  | lockPiWake
  | lockPiRetry
  | unlockPi (uaddr : Nat)
  | trylockPi (uaddr : Nat) (allocFails piAllocFails : Bool)
  | cmpRequeuePi (uaddr : Nat) (nrWake nrRequeue : Int) (uaddr2 : Nat) (cmpval : UInt32) (allocFails piAllocFails : Bool)
  | store (uaddr : Nat) (value : UInt32)
  | expire
  | wakeup
  deriving DecidableEq, Repr

/-- Task t runs its next section, or the event happens to it; none when the
section is not t's next one, when t is blocked at a section that needs it to
run, or when a chain walk runs out of fuel or wait_queue_prepare panics.  An
operation starts from idle; a user store is made by a task outside the futex
operations, to mapped memory. -/
def futexStep (fuel : Nat) (s : FutexSystem) (t : Nat) : FutexAction → Option FutexSystem
  | .wait uaddr val bitset timed allocFails =>
    if s.pc t = .idle then futexWaitBegin s t uaddr val bitset timed allocFails else none
  | .waitBlock signal expired =>
    match s.pc t with
    | .waitQueued uaddr bitset e timed => some (futexWaitBlock s t uaddr bitset e timed signal expired)
    | _ => none
  | .waitResume signal =>
    match s.pc t with
    | .waitSleeping uaddr bitset timed =>
      if (s.wait.tasks t).state = .running then some (futexWaitResume s t uaddr bitset timed signal) else none
    | _ => none
  | .waitEnd =>
    match s.pc t with
    | .waitCleanup uaddr bitset _ => some (futexWaitEnd s t uaddr bitset)
    | _ => none
  | .wake uaddr nrWake bitset notified =>
    if s.pc t = .idle then some (futexWake s uaddr nrWake bitset notified).1 else none
  | .requeue uaddr nrWake nrRequeue uaddr2 val3 cmp allocFails =>
    if s.pc t = .idle then some (futexRequeue s uaddr nrWake nrRequeue uaddr2 val3 cmp allocFails).1 else none
  | .wakeOp uaddr nrWake nrWake2 uaddr2 val3 =>
    if s.pc t = .idle then some (futexWakeOp s uaddr nrWake nrWake2 uaddr2 val3).1 else none
  | .lockPi uaddr => if s.pc t = .idle then some (s.setPc t (.lockPi uaddr)) else none
  | .lockPiAttempt allocFails piAllocFails =>
    match s.pc t with
    | .lockPi uaddr => futexLockPiAttempt fuel s t uaddr allocFails piAllocFails
    | _ => none
  | .lockPiRecheck =>
    match s.pc t with
    | .lockPiQueued uaddr e => some (futexLockPiRecheck s t uaddr e)
    | _ => none
  | .lockPiCancel =>
    match s.pc t with
    | .lockPiReady uaddr e => some ({ s with wait := s.wait.cancel t }.setPc t (.lockPiCancelled uaddr e))
    | _ => none
  | .lockPiWithdraw =>
    match s.pc t with
    | .lockPiCancelled uaddr _ => (piWaiterRemove fuel s.pi t).map fun pi => { s with pi := pi }.setPc t (.lockPi uaddr)
    | _ => none
  | .lockPiBlock =>
    match s.pc t with
    | .lockPiBlocking uaddr e => some ({ s with wait := s.wait.block t }.setPc t (.lockPiSleeping uaddr e))
    | _ => none
  | .lockPiWake =>
    match s.pc t with
    | .lockPiSleeping uaddr e =>
      if (s.wait.tasks t).state = .running then futexLockPiAfterWake fuel s t uaddr e else none
    | _ => none
  | .lockPiRetry =>
    match s.pc t with
    | .lockPiRetry uaddr e => futexLockPiRetry fuel s t uaddr e
    | _ => none
  | .unlockPi uaddr => if s.pc t = .idle then (futexUnlockPi fuel s t uaddr).map (·.1) else none
  | .trylockPi uaddr allocFails piAllocFails =>
    if s.pc t = .idle then some (futexTrylockPi s t uaddr allocFails piAllocFails).1 else none
  | .cmpRequeuePi uaddr nrWake nrRequeue uaddr2 cmpval allocFails piAllocFails =>
    if s.pc t = .idle then some (futexCmpRequeuePi s uaddr nrWake nrRequeue uaddr2 cmpval allocFails piAllocFails).1
    else none
  | .store uaddr value => if s.pc t = .idle ∧ (s.mem uaddr).isSome then some (s.setMem uaddr value) else none
  | .expire => some { s with wait := s.wait.expire t }
  | .wakeup => some { s with wait := s.wait.taskWakeup t }

/-- Run the steps of a list in order, each with the given fuel. -/
def futexRun (fuel : Nat) : FutexSystem → List (Nat × FutexAction) → Option FutexSystem
  | s, [] => some s
  | s, (t, a) :: rest => (futexStep fuel s t a).bind fun s => futexRun fuel s rest

end Uinxed.Futex
