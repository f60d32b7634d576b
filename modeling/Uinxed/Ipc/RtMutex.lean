/-
  Ipc/RtMutex.lean --- the real-time mutexes with priority inheritance of
  src/ipc/rt_mutex.c.

  A task carries three weights: weight, the one the scheduler uses;
  base_weight, its own weight before any boost; and pi_weight, the weight it
  donates while it waits.  A mutex has an owner and a tree of PI waiters
  ordered by pi_weight, heaviest first (ties: larger pid first).  When a task
  waits on a mutex, pi_propagate_chain walks from the mutex's owner along
  blocked_on and owner links, setting each task's weight to
  pi_effective_weight: the larger of its base weight and the pi_weight of the
  top waiter of the mutex that task is itself blocked on.

  Every section of rt_mutex_lock, rt_mutex_trylock and rt_mutex_unlock that
  runs under the mutex's spinlock, together with the chain walk it starts, is
  one atomic step.  rt_mutex_lock runs several such sections in a loop, and
  other tasks' steps interleave between them: the system (PiSystem) keeps for
  every task where it is in that loop (LockPc), and piStep runs the next
  section of any one task.  A sleeping task may be woken at any time, by its
  new owner's task_wakeup or by anyone else.  Tasks and mutexes are named by
  their addresses, which are never NULL in the model; the EINVAL checks for
  NULL arguments are left out.  The pi_waiters tree is represented by its
  in-order sequence, leftmost first: rb_insert_augmented places a node after
  every node it is not less than, rb_erase_augmented removes it and rb_first
  is the head.  The wait queue, the futex word and the wake-up of the new
  owner belong to the scheduler and are not modelled.

  The chain walk is a while loop that ends only at a task that is not blocked
  or a mutex without owner.  The model walks with fuel and returns none when
  the fuel runs out; a step exists only when some fuel lets the walk finish.
-/
import Mathlib.Order.Basic

set_option autoImplicit false

namespace Uinxed.Pi

/-! ## Constants -/

/-- SCHED_NICE_0_LOAD: the weight every task is created with. -/
def schedNice0Load : Nat := 1024

/-- EOK. -/
def eok : Int := 0

/-- EPERM. -/
def eperm : Nat := 1

/-- EAGAIN. -/
def eagain : Nat := 11

/-- EDEADLK. -/
def edeadlk : Nat := 35

/-- EOWNERDEAD. -/
def eownerdead : Nat := 130

/-! ## State -/

/-- The fields of task_t that priority inheritance reads and writes. -/
structure PiTask where
  pid : Nat
  weight : Nat
  baseWeight : Nat
  piWeight : Nat
  blockedOn : Option Nat
  deriving DecidableEq, Repr

/-- rt_mutex_t without its lock, its wait queue and its futex word. -/
structure RtMutex where
  owner : Option Nat
  ownerDied : Bool
  piWaiters : List Nat
  deriving DecidableEq, Repr

/-- All tasks and all mutexes. -/
structure PiState where
  tasks : Nat → PiTask
  mutexes : Nat → RtMutex

/-- rt_mutex_init: no owner, no waiters. -/
def RtMutex.init : RtMutex := ⟨none, false, []⟩

/-- A task as task_alloc (and idle_task_alloc) creates it: every weight
SCHED_NICE_0_LOAD, blocked on nothing. -/
def PiTask.create (pid : Nat) : PiTask :=
  ⟨pid, schedNice0Load, schedNice0Load, schedNice0Load, none⟩

/-- boot_task and the AP boot tasks of sched_init: zeroed by memset, then
only weight is set, so base_weight and pi_weight stay 0. -/
def PiTask.boot : PiTask :=
  ⟨0, schedNice0Load, 0, 0, none⟩

/-- The tasks of a booted kernel, some created by task_alloc with the given
pid and the others (none) boot tasks, and initialised mutexes. -/
def PiState.init (pids : Nat → Option Nat) : PiState :=
  ⟨fun t => match pids t with
    | some pid => PiTask.create pid
    | none => PiTask.boot,
   fun _ => RtMutex.init⟩

namespace PiState

variable (s : PiState)

/-- Rewrite fields of a task. -/
def modifyTask (t : Nat) (f : PiTask → PiTask) : PiState :=
  { s with tasks := Function.update s.tasks t (f (s.tasks t)) }

/-- Rewrite fields of a mutex. -/
def modifyMutex (m : Nat) (f : RtMutex → RtMutex) : PiState :=
  { s with mutexes := Function.update s.mutexes m (f (s.mutexes m)) }

/-- task->weight = w. -/
def setWeight (t w : Nat) : PiState := s.modifyTask t fun p => { p with weight := w }

/-- task->blocked_on = m. -/
def setBlockedOn (t : Nat) (m : Option Nat) : PiState :=
  s.modifyTask t fun p => { p with blockedOn := m }

/-- self->base_weight = self->weight; self->pi_weight = self->weight, which
rt_mutex_trylock and rt_mutex_lock do before taking or waiting. -/
def resetWeights (t : Nat) : PiState :=
  s.modifyTask t fun p => { p with baseWeight := p.weight, piWeight := p.weight }

variable {s}

@[simp] theorem modifyTask_tasks (t : Nat) (f : PiTask → PiTask) (u : Nat) :
    (s.modifyTask t f).tasks u = if u = t then f (s.tasks u) else s.tasks u := by
  unfold modifyTask
  by_cases hu : u = t
  · subst hu
    simp
  · simp [hu]

@[simp] theorem modifyTask_mutexes (t : Nat) (f : PiTask → PiTask) :
    (s.modifyTask t f).mutexes = s.mutexes := rfl

@[simp] theorem modifyMutex_mutexes (m : Nat) (f : RtMutex → RtMutex) (n : Nat) :
    (s.modifyMutex m f).mutexes n = if n = m then f (s.mutexes n) else s.mutexes n := by
  unfold modifyMutex
  by_cases hn : n = m
  · subst hn
    simp
  · simp [hn]

@[simp] theorem modifyMutex_tasks (m : Nat) (f : RtMutex → RtMutex) :
    (s.modifyMutex m f).tasks = s.tasks := rfl

/-! The three task writes, field by field. -/

@[simp] theorem setWeight_mutexes (t w : Nat) : (s.setWeight t w).mutexes = s.mutexes := rfl

@[simp] theorem setWeight_weight (t w u : Nat) :
    ((s.setWeight t w).tasks u).weight = if u = t then w else (s.tasks u).weight := by
  unfold setWeight
  rw [modifyTask_tasks]
  split <;> rfl

@[simp] theorem setWeight_baseWeight (t w u : Nat) :
    ((s.setWeight t w).tasks u).baseWeight = (s.tasks u).baseWeight := by
  unfold setWeight
  rw [modifyTask_tasks]
  split <;> rfl

@[simp] theorem setWeight_piWeight (t w u : Nat) :
    ((s.setWeight t w).tasks u).piWeight = (s.tasks u).piWeight := by
  unfold setWeight
  rw [modifyTask_tasks]
  split <;> rfl

@[simp] theorem setWeight_blockedOn (t w u : Nat) :
    ((s.setWeight t w).tasks u).blockedOn = (s.tasks u).blockedOn := by
  unfold setWeight
  rw [modifyTask_tasks]
  split <;> rfl

@[simp] theorem setBlockedOn_mutexes (t : Nat) (m : Option Nat) :
    (s.setBlockedOn t m).mutexes = s.mutexes := rfl

@[simp] theorem setBlockedOn_weight (t : Nat) (m : Option Nat) (u : Nat) :
    ((s.setBlockedOn t m).tasks u).weight = (s.tasks u).weight := by
  unfold setBlockedOn
  rw [modifyTask_tasks]
  split <;> rfl

@[simp] theorem setBlockedOn_baseWeight (t : Nat) (m : Option Nat) (u : Nat) :
    ((s.setBlockedOn t m).tasks u).baseWeight = (s.tasks u).baseWeight := by
  unfold setBlockedOn
  rw [modifyTask_tasks]
  split <;> rfl

@[simp] theorem setBlockedOn_piWeight (t : Nat) (m : Option Nat) (u : Nat) :
    ((s.setBlockedOn t m).tasks u).piWeight = (s.tasks u).piWeight := by
  unfold setBlockedOn
  rw [modifyTask_tasks]
  split <;> rfl

@[simp] theorem setBlockedOn_blockedOn (t : Nat) (m : Option Nat) (u : Nat) :
    ((s.setBlockedOn t m).tasks u).blockedOn = if u = t then m else (s.tasks u).blockedOn := by
  unfold setBlockedOn
  rw [modifyTask_tasks]
  split <;> rfl

@[simp] theorem resetWeights_mutexes (t : Nat) : (s.resetWeights t).mutexes = s.mutexes := rfl

@[simp] theorem resetWeights_weight (t u : Nat) :
    ((s.resetWeights t).tasks u).weight = (s.tasks u).weight := by
  unfold resetWeights
  rw [modifyTask_tasks]
  split <;> rfl

@[simp] theorem resetWeights_baseWeight (t u : Nat) :
    ((s.resetWeights t).tasks u).baseWeight =
      if u = t then (s.tasks u).weight else (s.tasks u).baseWeight := by
  unfold resetWeights
  rw [modifyTask_tasks]
  split <;> rfl

@[simp] theorem resetWeights_piWeight (t u : Nat) :
    ((s.resetWeights t).tasks u).piWeight =
      if u = t then (s.tasks u).weight else (s.tasks u).piWeight := by
  unfold resetWeights
  rw [modifyTask_tasks]
  split <;> rfl

@[simp] theorem resetWeights_blockedOn (t u : Nat) :
    ((s.resetWeights t).tasks u).blockedOn = (s.tasks u).blockedOn := by
  unfold resetWeights
  rw [modifyTask_tasks]
  split <;> rfl

end PiState

/-! ## The waiter tree -/

/-- pi_waiter_less: a is served before b. -/
def piWaiterLess (s : PiState) (a b : Nat) : Bool :=
  if (s.tasks a).piWeight ≠ (s.tasks b).piWeight then (s.tasks a).piWeight > (s.tasks b).piWeight
  else (s.tasks a).pid > (s.tasks b).pid

/-- rb_insert_augmented on the in-order sequence: the node goes before the
first node it is less than. -/
def insertWaiter (less : Nat → Nat → Bool) (t : Nat) : List Nat → List Nat
  | [] => [t]
  | e :: rest => if less t e then t :: e :: rest else e :: insertWaiter less t rest

/-! ## Priority inheritance -/

/-- pi_effective_weight: the base weight of owner, raised to the pi_weight of
the top waiter of the mutex owner is blocked on, if that is larger. -/
def piEffectiveWeight (s : PiState) (owner : Nat) : Nat :=
  let base := (s.tasks owner).baseWeight
  match (s.tasks owner).blockedOn with
  | none => base
  | some m =>
    match (s.mutexes m).piWaiters with
    | [] => base
    | top :: _ => if (s.tasks top).piWeight > base then (s.tasks top).piWeight else base

/-- pi_propagate_chain, with fuel for the iterations of its loop; none when
the fuel runs out before the loop ends. -/
def piPropagateChain : Nat → PiState → Option Nat → Option PiState
  | _, s, none => some s
  | 0, _, some _ => none
  | fuel + 1, s, some owner =>
    match (s.tasks owner).blockedOn with
    | none =>
      let base := (s.tasks owner).baseWeight
      some (if (s.tasks owner).weight ≠ base then s.setWeight owner base else s)
    | some m =>
      let newWeight := piEffectiveWeight s owner
      let s := if (s.tasks owner).weight ≠ newWeight then s.setWeight owner newWeight else s
      piPropagateChain fuel s (s.mutexes m).owner

/-- pi_waiter_remove: leave the tree of the mutex the waiter is blocked on and
re-evaluate that mutex's owner chain. -/
def piWaiterRemove (fuel : Nat) (s : PiState) (waiter : Nat) : Option PiState :=
  match (s.tasks waiter).blockedOn with
  | none => some s
  | some m =>
    let s := if (s.mutexes m).piWaiters ≠ [] then
        s.modifyMutex m fun x => { x with piWaiters := x.piWaiters.erase waiter }
      else s
    let s := s.setBlockedOn waiter none
    piPropagateChain fuel s (s.mutexes m).owner

/-- pi_waiter_add: block on the mutex, enter its tree and re-evaluate its
owner chain. -/
def piWaiterAdd (fuel : Nat) (s : PiState) (waiter m : Nat) : Option PiState :=
  let s := s.setBlockedOn waiter (some m)
  let s := s.modifyMutex m fun x =>
    { x with piWaiters := insertWaiter (piWaiterLess s) waiter x.piWaiters }
  piPropagateChain fuel s (s.mutexes m).owner

/-! ## The mutex operations -/

/-- rt_mutex_trylock. -/
def rtMutexTrylock (s : PiState) (m self : Nat) : PiState × Int :=
  match (s.mutexes m).owner with
  | some _ => (s, -(eagain : Int))
  | none =>
    let s := s.modifyMutex m fun x => { x with owner := some self, ownerDied := false }
    (s.resetWeights self, eok)

/-- What the first critical section of an iteration of rt_mutex_lock's loop
decides: return with a value, or wait for the mutex. -/
inductive LockAttempt where
  | returned (value : Int)
  | waiting
  deriving DecidableEq, Repr

/-- The first critical section of rt_mutex_lock's loop: take a free mutex,
report a recursive lock (or success after a hand-off, once the task has
waited), or queue as a PI waiter unless still queued from an earlier round. -/
def lockAttempt (fuel : Nat) (s : PiState) (m self : Nat) (waited : Bool) :
    Option (PiState × LockAttempt) :=
  match (s.mutexes m).owner with
  | none =>
    let s := s.modifyMutex m fun x => { x with owner := some self, ownerDied := false }
    some (s.resetWeights self, .returned eok)
  | some owner =>
    if owner = self then some (s, .returned (if waited then eok else -(edeadlk : Int)))
    else
      let s := s.resetWeights self
      if (s.tasks self).blockedOn ≠ some m then (piWaiterAdd fuel s self m).map (·, .waiting)
      else some (s, .waiting)

/-- The critical section after wait_queue_cancel in rt_mutex_lock: the mutex
became free or was handed to the task before it slept, so it leaves the tree
(a no-op when an unlock already popped it) and tries again. -/
def lockWithdraw (fuel : Nat) (s : PiState) (self : Nat) : Option PiState :=
  piWaiterRemove fuel s self

/-- The critical section after task_block returns in rt_mutex_lock: a task
that was handed the mutex, or whose mutex's owner died, leaves the tree if it
is still queued; EOWNERDEAD is returned in the second case, otherwise the loop
goes on. -/
def lockAfterWake (fuel : Nat) (s : PiState) (m self : Nat) : Option (PiState × Option Int) :=
  let mutex := s.mutexes m
  let handed := mutex.owner = some self
  let died := mutex.ownerDied ∧ ¬ handed ∧ mutex.owner.isSome
  let stillQueued := (s.tasks self).blockedOn = some m
  let s' := if (handed ∨ died) ∧ stillQueued then piWaiterRemove fuel s self else some s
  s'.map fun s => (s, if died then some (-(eownerdead : Int)) else none)

/-- rt_mutex_wake_top_waiter: pop the leftmost waiter, which is no longer
blocked. -/
def rtMutexWakeTopWaiter (s : PiState) (m : Nat) : PiState × Option Nat :=
  match (s.mutexes m).piWaiters with
  | [] => (s, none)
  | top :: rest =>
    ((s.modifyMutex m fun x => { x with piWaiters := rest }).setBlockedOn top none, some top)

/-- The critical section of rt_mutex_unlock by the owner: release the mutex,
pop the top waiter and hand the mutex to it. -/
def unlockHandOff (s : PiState) (m : Nat) : PiState :=
  let s := s.modifyMutex m fun x => { x with owner := none }
  let (s, next) := rtMutexWakeTopWaiter s m
  match next with
  | some n => s.modifyMutex m fun x => { x with owner := some n }
  | none => s

/-- rt_mutex_unlock: hand the mutex to the top waiter, or leave it free, then
re-evaluate the releasing task's chain outside the mutex's lock.  The
futex-word update and the wake-up of the new owner follow; EFAULT from a
failed copy_to_user changes nothing here and is not modelled. -/
def rtMutexUnlock (fuel : Nat) (s : PiState) (m self : Nat) : Option (PiState × Int) :=
  if (s.mutexes m).owner ≠ some self then some (s, -(eperm : Int))
  else (piPropagateChain fuel (unlockHandOff s m) (some self)).map (·, eok)

/-! ## The system: tasks stepping through the mutex operations -/

/-- Where a task is in rt_mutex_lock.  A task in attempt is at the top of the
loop; in prepared it has queued itself on the wait queue and is about to
re-check the owner; in withdrawing it found the mutex ready and cancelled its
wait, and is about to leave the PI tree; in sleeping it is in task_block.
waited is rt_mutex_lock's local of that name. -/
inductive LockPc where
  | idle
  | attempt (m : Nat) (waited : Bool)
  | prepared (m : Nat) (waited : Bool)
  | withdrawing (m : Nat) (waited : Bool)
  | sleeping (m : Nat)
  deriving DecidableEq, Repr

/-- The mutex a task's rt_mutex_lock works on. -/
def LockPc.mutex : LockPc → Option Nat
  | .idle => none
  | .attempt m _ => some m
  | .prepared m _ => some m
  | .withdrawing m _ => some m
  | .sleeping m => some m

/-- Where rt_mutex_lock goes after its first critical section: it returns,
or it prepares to sleep. -/
def LockPc.afterAttempt (m : Nat) (waited : Bool) : LockAttempt → LockPc
  | .returned _ => .idle
  | .waiting => .prepared m waited

/-- Where rt_mutex_lock goes after re-checking the owner (bool ready =
!mutex->owner || mutex->owner == self): a ready task withdraws its wait, the
others sleep. -/
def LockPc.afterRecheck (owner : Option Nat) (self m : Nat) (waited : Bool) : LockPc :=
  if owner = none ∨ owner = some self then .withdrawing m waited else .sleeping m

/-- Where rt_mutex_lock goes after the section that follows task_block: it
returns EOWNERDEAD, or it loops with waited set. -/
def LockPc.afterWake (m : Nat) : Option Int → LockPc
  | some _ => .idle
  | none => .attempt m true

/-- The mutexes and tasks, with where every task is in rt_mutex_lock. -/
structure PiSystem where
  state : PiState
  pc : Nat → LockPc

/-- A booted kernel: no task inside rt_mutex_lock. -/
def PiSystem.init (pids : Nat → Option Nat) : PiSystem :=
  ⟨PiState.init pids, fun _ => .idle⟩

/-- The next atomic section a task runs.  trylock, lock and unlock start an
operation of a task that is in none; attempt, recheck, withdraw and wake are
the sections of rt_mutex_lock's loop after it. -/
inductive PiAction where
  | trylock (m : Nat)
  | lock (m : Nat)
  | attempt
  | recheck
  | withdraw
  | wake
  | unlock (m : Nat)
  deriving DecidableEq, Repr

/-- Task t runs its next section; none when the section is not t's next one,
or when its chain walk does not end within the fuel. -/
def piStep (fuel : Nat) (sys : PiSystem) (t : Nat) (a : PiAction) : Option PiSystem :=
  match sys.pc t, a with
  | .idle, .trylock m => some ⟨(rtMutexTrylock sys.state m t).1, sys.pc⟩
  | .idle, .lock m => some ⟨sys.state, Function.update sys.pc t (.attempt m false)⟩
  | .attempt m waited, .attempt =>
    (lockAttempt fuel sys.state m t waited).map fun r =>
      ⟨r.1, Function.update sys.pc t (LockPc.afterAttempt m waited r.2)⟩
  | .prepared m waited, .recheck =>
    some ⟨sys.state, Function.update sys.pc t
      (LockPc.afterRecheck (sys.state.mutexes m).owner t m waited)⟩
  | .withdrawing m waited, .withdraw =>
    (lockWithdraw fuel sys.state t).map fun s => ⟨s, Function.update sys.pc t (.attempt m waited)⟩
  | .sleeping m, .wake =>
    (lockAfterWake fuel sys.state m t).map fun r =>
      ⟨r.1, Function.update sys.pc t (LockPc.afterWake m r.2)⟩
  | .idle, .unlock m => (rtMutexUnlock fuel sys.state m t).map fun r => ⟨r.1, sys.pc⟩
  | _, _ => none

/-- Run the steps of a list in order, each with the given fuel. -/
def piRun (fuel : Nat) : PiSystem → List (Nat × PiAction) → Option PiSystem
  | sys, [] => some sys
  | sys, (t, a) :: rest => (piStep fuel sys t a).bind fun sys => piRun fuel sys rest

end Uinxed.Pi
