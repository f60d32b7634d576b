/-
  Ipc/FutexFree.lean --- what the futex operations free.

  futex_try_cleanup is the only path that frees an entry, and it frees one
  only when no task is linked in the entry's own wait queue: over every run,
  a task linked in the queue of an entry finds that entry in the table
  (futex_entry_waiters_live, from TableInv).  The entry's PI mutex is freed
  with it, and futex_try_cleanup looks at entry->wq only, while the waiters
  of futex_lock_pi sleep on pi_mutex->wq.  futex_wake_op and futex_requeue
  clean up the first entry of their key, which is the PI entry of a word
  locked through the PI operations, whenever its own queue is empty, whatever
  its mutex holds: futex_wake_op_frees_locked_pi_mutex runs futex_wake_op on
  a word one task owns through FUTEX_TRYLOCK_PI while another sleeps in
  FUTEX_LOCK_PI on its mutex.
-/
import Uinxed.Ipc.FutexTable

set_option autoImplicit false

namespace Uinxed.Futex

open Uinxed.Sched Uinxed.Pi FutexSystem

variable {s : FutexSystem}

/-! ## Entries are freed without waiters -/

/-- In every reachable state a task linked in the wait queue of an entry
finds the entry in the table: no entry is freed while a task waits on its
own queue. -/
theorem futex_entry_waiters_live {fuel : Nat} {mem : Nat → Option UInt32} {pids pidFind : Nat → Option Nat}
    {steps : List (Nat × FutexAction)} (hr : futexRun fuel (FutexSystem.init mem pids pidFind) steps = some s)
    {t e : Nat} (ht : (s.wait.tasks t).waitQueue = some (.entry e)) : e ∈ s.entries ∧ t ∈ s.wait.queues (.entry e) := by
  have h := (tableInv_init mem pids pidFind).run hr
  exact ⟨h.queue_ok t _ ht, (h.linked.mem_iff t _).mpr ht⟩

/-- User memory with two mapped words, both 0: the futex at 0x1000 and a
second word at 0x2000. -/
def lockedPiMem : Nat → Option UInt32 := fun a => if a = 0x1000 ∨ a = 0x2000 then some 0 else none

/-- Task 1 waits on the word at 0x1000 with FUTEX_WAIT and is linked in the
queue of entry 0, which is in the table. -/
theorem futex_entry_waiters_live_after_wait :
    ∃ s, futexRun 0 (FutexSystem.init lockedPiMem (fun t => some t) (fun p => some p))
        [(1, .wait 0x1000 0 futexBitsetMatchAny false false)] = some s ∧
      0 ∈ s.entries ∧ 1 ∈ s.wait.queues (.entry 0) := by
  refine ⟨_, rfl, ?_⟩
  exact @futex_entry_waiters_live _ 0 lockedPiMem (fun t => some t) (fun p => some p)
    [(1, .wait 0x1000 0 futexBitsetMatchAny false false)] rfl 1 0 (by decide)

/-! ## A locked PI futex whose mutex is freed -/

/-- Task 1 takes the PI futex at 0x1000 with FUTEX_TRYLOCK_PI; task 2 calls
FUTEX_LOCK_PI on it, finds it owned by task 1, queues on its PI mutex and
blocks. -/
def lockedPiRun : List (Nat × FutexAction) :=
  [(1, .trylockPi 0x1000 false false), (2, .lockPi 0x1000), (2, .lockPiAttempt false false),
    (2, .lockPiRecheck), (2, .lockPiBlock)]

/-- After the run above, FUTEX_WAKE_OP on 0x1000 by task 3 (wake one task,
update 0x2000 with FUTEX_OP_SET 0) frees the futex's entry, and with it the
PI mutex that task 1 still owns, with task 2 in its PI tree and asleep in
its wait queue. -/
theorem futex_wake_op_frees_locked_pi_mutex :
    ∃ s s', futexRun 4 (FutexSystem.init lockedPiMem (fun t => some t) (fun p => some p)) lockedPiRun = some s ∧
      futexStep 4 s 3 (.wakeOp 0x1000 1 0 0x2000 0) = some s' ∧
      0 ∈ s.entries ∧ (s.entry 0).piMutex = true ∧ 0 ∉ s'.entries ∧
      (s'.pi.mutexes 0).owner = some 1 ∧ (s'.pi.mutexes 0).piWaiters = [2] ∧
      s'.wait.queues (.pi 0) = [2] ∧ (s'.wait.tasks 2).state = .blocked := by
  refine ⟨_, _, rfl, rfl, ?_⟩
  decide

end Uinxed.Futex
