/-
  Sched/WaitQueue.lean --- the two-phase wait protocol of the wait queues of
  src/kernel/sched/sched.c.

  A waiter links itself into a queue with wait_queue_prepare while it still
  holds the lock that guards its condition, drops that lock, and then commits
  to the sleep (wait_queue_sleep, wait_queue_wait_timed, task_block) or takes
  its wait back (wait_queue_cancel).  A waker takes the head of a queue
  (wait_queue_wake_one) or a given task (task_wakeup, a timer expiry), and
  finish_wait_locked unlinks it, records why it woke and makes it runnable if
  it had blocked.  Every function here runs under scheduler.lock, so each is
  one atomic step.

  Queues are named by the values of a type Q: the futex model names a queue by
  the entry or the PI mutex that holds it.  A task's sched_node is in at most
  one queue, the one task->wait_queue names: Linked states this, and every
  operation keeps it.  The run queues, CPU placement, vruntime lag and timer
  deadlines are left out: a timed waiter may time out at any step, and a woken
  task is runnable (TASK_READY and TASK_RUNNING are one state here).  The
  ilist operations never fail; where the source panics on a task that is
  already waiting, wait_queue_prepare returns none.
-/
import Mathlib.Data.List.Nodup

set_option autoImplicit false

namespace Uinxed.Sched

/-- task_wake_reason_t: why the last wait of a task ended. -/
inductive WakeReason where
  | none
  | normal
  | timeout
  deriving DecidableEq, Repr

/-- The states a task passes through in a wait: runnable (TASK_READY or
TASK_RUNNING) or TASK_BLOCKED. -/
inductive RunState where
  | running
  | blocked
  deriving DecidableEq, Repr

/-- The fields of task_t the wait queues read and write; timed says that the
task's timer_node is linked, with a deadline. -/
structure Waiter (Q : Type) where
  waitQueue : Option Q
  wakeReason : WakeReason
  state : RunState
  timed : Bool
  deriving DecidableEq, Repr

/-- All tasks and all queues. -/
structure WaitState (Q : Type) where
  tasks : Nat → Waiter Q
  queues : Q → List Nat

variable {Q : Type} [DecidableEq Q]

/-- A task outside every wait. -/
def Waiter.idle : Waiter Q := ⟨none, .none, .running, false⟩

namespace WaitState

/-- No task waits and every queue is empty. -/
def init : WaitState Q := ⟨fun _ => Waiter.idle, fun _ => []⟩

section Ops

variable (s : WaitState Q)

/-- Rewrite the fields of a task. -/
def setTask (t : Nat) (w : Waiter Q) : WaitState Q :=
  { s with tasks := Function.update s.tasks t w }

/-- Rewrite the list of a queue. -/
def setQueue (q : Q) (l : List Nat) : WaitState Q :=
  { s with queues := Function.update s.queues q l }

/-- wait_queue_prepare: link the task at the tail of the queue, with no wake
reason yet; none when the task already waits, where the source panics. -/
def prepare (t : Nat) (q : Q) : Option (WaitState Q) :=
  let w := s.tasks t
  match w.waitQueue with
  | some _ => none
  | none => some ((s.setQueue q (s.queues q ++ [t])).setTask t { w with waitQueue := some q, wakeReason := .none })

/-- wait_queue_sleep: a task woken since it prepared consumes the wake-up and
runs on; a task still linked blocks; anything else is only logged. -/
def sleep (t : Nat) : WaitState Q :=
  let w := s.tasks t
  match w.waitQueue, w.wakeReason with
  | none, .none => s
  | none, _ => s.setTask t { w with wakeReason := .none }
  | some _, .none => s.setTask t { w with state := .blocked }
  | some _, _ => s

/-- task_block: consume a wake-up that came after the prepare, or block. -/
def block (t : Nat) : WaitState Q :=
  let w := s.tasks t
  if w.waitQueue = none ∧ w.wakeReason ≠ .none then s.setTask t { w with wakeReason := .none }
  else s.setTask t { w with state := .blocked }

/-- wait_queue_cancel: a running task that is still linked leaves its queue,
whichever queue that is now. -/
def cancel (t : Nat) : WaitState Q :=
  let w := s.tasks t
  match w.waitQueue with
  | none => s
  | some q =>
    if w.state ≠ .running then s
    else (s.setQueue q ((s.queues q).erase t)).setTask t { w with waitQueue := none }

/-- finish_wait_locked: unlink a waiting task, record the reason, drop its
timer and make it runnable. -/
def finishWait (t : Nat) (reason : WakeReason) : WaitState Q :=
  let w := s.tasks t
  match w.waitQueue with
  | none => s
  | some q =>
    (s.setQueue q ((s.queues q).erase t)).setTask t
      { w with waitQueue := none, wakeReason := reason, timed := false, state := .running }

/-- wait_queue_wake_one: finish the wait of the head of the queue. -/
def wakeOne (q : Q) : WaitState Q × Option Nat :=
  match s.queues q with
  | [] => (s, none)
  | t :: _ => (s.finishWait t .normal, some t)

/-- wait_queue_wait_timed up to its sleep: a task still linked in the queue
with no wake-up times out at once when its deadline has passed (expired),
and otherwise arms its timer and blocks. -/
def waitTimed (t : Nat) (q : Q) (expired : Bool) : WaitState Q :=
  let w := s.tasks t
  if w.waitQueue = some q ∧ w.wakeReason = .none then
    if expired then s.finishWait t .timeout
    else s.setTask t { w with timed := true, state := .blocked }
  else s

/-- The end of wait_queue_wait_timed, once the task runs again: -ETIMEDOUT
after a timeout, 0 otherwise, and the wake reason is consumed. -/
def consumeTimed (t : Nat) : WaitState Q × Bool :=
  let w := s.tasks t
  (s.setTask t { w with wakeReason := .none }, w.wakeReason = .timeout)

/-- The timer part of wake_sleeping_tasks for a task whose deadline passed:
its timer node is unlinked and its wait finishes with TASK_WAKE_TIMEOUT. -/
def expire (t : Nat) : WaitState Q :=
  let w := s.tasks t
  if w.timed then (s.setTask t { w with timed := false }).finishWait t .timeout else s

/-- task_wakeup: finish the wait of a waiting task, or make a blocked one
runnable. -/
def taskWakeup (t : Nat) : WaitState Q :=
  let w := s.tasks t
  match w.waitQueue with
  | some _ => s.finishWait t .normal
  | none => s.setTask t { w with state := .running }

/-- futex_move_waiter: move the head of one queue to the tail of another,
without waking it; false when the queues are the same or the source is
empty. -/
def moveHead (src dst : Q) : WaitState Q × Bool :=
  if src = dst then (s, false)
  else
    match s.queues src with
    | [] => (s, false)
    | t :: rest =>
      (((s.setQueue src rest).setQueue dst (s.queues dst ++ [t])).setTask t
        { s.tasks t with waitQueue := some dst }, true)

end Ops

/-- The wake loop of the futex operations, while (woken < nr_wake): wake the
head of the queue until k tasks are woken or the queue is empty; the number
woken comes with the state. -/
def wakeUpTo : Nat → WaitState Q → Q → WaitState Q × Nat
  | 0, s, _ => (s, 0)
  | k + 1, s, q =>
    match s.wakeOne q with
    | (s', none) => (s', 0)
    | (s', some _) => ((wakeUpTo k s' q).1, (wakeUpTo k s' q).2 + 1)

/-- The requeue loop, while (requeued < nr_requeue): move the head of src to
dst up to k times, stopping at the first move that fails. -/
def moveUpTo : Nat → WaitState Q → Q → Q → WaitState Q
  | 0, s, _, _ => s
  | k + 1, s, src, dst =>
    match s.moveHead src dst with
    | (s', false) => s'
    | (s', true) => moveUpTo k s' src dst

/-! ## Field lemmas -/

variable {s : WaitState Q}

omit [DecidableEq Q] in
@[simp] theorem setTask_tasks (s : WaitState Q) (t : Nat) (w : Waiter Q) :
    (s.setTask t w).tasks = Function.update s.tasks t w := rfl
omit [DecidableEq Q] in
@[simp] theorem setTask_queues (s : WaitState Q) (t : Nat) (w : Waiter Q) : (s.setTask t w).queues = s.queues := rfl
@[simp] theorem setQueue_tasks (s : WaitState Q) (q : Q) (l : List Nat) : (s.setQueue q l).tasks = s.tasks := rfl
@[simp] theorem setQueue_queues (s : WaitState Q) (q : Q) (l : List Nat) :
    (s.setQueue q l).queues = Function.update s.queues q l := rfl

theorem finishWait_of_none (s : WaitState Q) {t : Nat} (reason : WakeReason) (h : (s.tasks t).waitQueue = none) :
    s.finishWait t reason = s := by
  simp [finishWait, h]

theorem wakeOne_nil (s : WaitState Q) {q : Q} (h : s.queues q = []) : s.wakeOne q = (s, none) := by
  simp [wakeOne, h]

theorem wakeOne_cons (s : WaitState Q) {q : Q} {t : Nat} {rest : List Nat} (h : s.queues q = t :: rest) :
    s.wakeOne q = (s.finishWait t .normal, some t) := by
  simp [wakeOne, h]

/-! ## Every task is linked in the queue it names -/

/-- task->wait_queue names the one queue whose list holds the task, and no
list holds a task twice. -/
structure Linked (s : WaitState Q) : Prop where
  mem_iff : ∀ t q, t ∈ s.queues q ↔ (s.tasks t).waitQueue = some q
  nodup : ∀ q, (s.queues q).Nodup

omit [DecidableEq Q] in
theorem linked_init : Linked (init : WaitState Q) :=
  ⟨fun _ _ => by simp [init, Waiter.idle], fun _ => List.nodup_nil⟩

omit [DecidableEq Q] in
/-- A task that waits on nothing is in no list. -/
theorem Linked.not_mem (h : Linked s) {t : Nat} (ht : (s.tasks t).waitQueue = none) (q : Q) :
    t ∉ s.queues q := by
  rw [h.mem_iff, ht]
  simp

omit [DecidableEq Q] in
/-- Rewriting a task without moving it between queues keeps the links. -/
theorem Linked.setTask (h : Linked s) {t : Nat} {w : Waiter Q} (hw : w.waitQueue = (s.tasks t).waitQueue) :
    Linked (s.setTask t w) := by
  refine ⟨fun u q => ?_, h.nodup⟩
  by_cases hu : u = t
  · subst hu
    simp [hw, h.mem_iff]
  · simp [hu, h.mem_iff]

/-- Unlinking a task from the queue it waits on. -/
theorem Linked.detach (h : Linked s) {t : Nat} {q : Q} (ht : (s.tasks t).waitQueue = some q) {w : Waiter Q}
    (hw : w.waitQueue = none) : Linked ((s.setQueue q ((s.queues q).erase t)).setTask t w) := by
  refine ⟨fun u p => ?_, fun p => ?_⟩
  · by_cases hu : u = t
    · subst hu
      by_cases hp : p = q
      · subst hp
        simp [hw, (h.nodup p).mem_erase_iff]
      · simp only [setTask_queues, setQueue_queues, Function.update_of_ne hp, setTask_tasks,
          Function.update_self, hw, reduceCtorEq, iff_false]
        rw [h.mem_iff, ht]
        exact fun hq => hp (Option.some.inj hq).symm
    · by_cases hp : p = q
      · subst hp
        simp [hu, List.mem_erase_of_ne hu, h.mem_iff]
      · simp [hu, hp, h.mem_iff]
  · by_cases hp : p = q
    · subst hp
      simpa using (h.nodup p).erase t
    · simpa [hp] using h.nodup p

/-- Linking a task that waits on nothing at the tail of a queue. -/
theorem Linked.attach (h : Linked s) {t : Nat} (ht : (s.tasks t).waitQueue = none) (q : Q) {w : Waiter Q}
    (hw : w.waitQueue = some q) : Linked ((s.setQueue q (s.queues q ++ [t])).setTask t w) := by
  refine ⟨fun u p => ?_, fun p => ?_⟩
  · by_cases hu : u = t
    · subst hu
      by_cases hp : p = q
      · subst hp
        simp [hw]
      · simp [hw, hp, Ne.symm hp, h.not_mem ht p]
    · by_cases hp : p = q
      · subst hp
        simp [hu, h.mem_iff]
      · simp [hu, hp, h.mem_iff]
  · by_cases hp : p = q
    · subst hp
      simp only [setTask_queues, setQueue_queues, Function.update_self]
      exact (h.nodup p).append (List.nodup_singleton t) (by simpa using h.not_mem ht p)
    · simpa [hp] using h.nodup p

/-! ## The operations keep the links -/

theorem Linked.prepare (h : Linked s) {t : Nat} {q : Q} {s' : WaitState Q} (hp : s.prepare t q = some s') :
    Linked s' := by
  unfold WaitState.prepare at hp
  dsimp only at hp
  split at hp
  · cases hp
  · next ht =>
    cases hp
    exact h.attach ht q rfl

omit [DecidableEq Q] in
theorem Linked.sleep (h : Linked s) (t : Nat) : Linked (s.sleep t) := by
  unfold WaitState.sleep
  dsimp only
  split <;> first | exact h | exact h.setTask rfl

omit [DecidableEq Q] in
theorem Linked.block (h : Linked s) (t : Nat) : Linked (s.block t) := by
  unfold WaitState.block
  dsimp only
  split <;> exact h.setTask rfl

theorem Linked.cancel (h : Linked s) (t : Nat) : Linked (s.cancel t) := by
  unfold WaitState.cancel
  dsimp only
  split
  · exact h
  · next q hq =>
    split
    · exact h
    · exact h.detach hq rfl

theorem Linked.finishWait (h : Linked s) (t : Nat) (reason : WakeReason) : Linked (s.finishWait t reason) := by
  unfold WaitState.finishWait
  dsimp only
  split
  · exact h
  · next q hq => exact h.detach hq rfl

theorem Linked.wakeOne (h : Linked s) (q : Q) : Linked (s.wakeOne q).1 := by
  unfold WaitState.wakeOne
  split
  · exact h
  · exact h.finishWait _ _

theorem Linked.waitTimed (h : Linked s) (t : Nat) (q : Q) (expired : Bool) : Linked (s.waitTimed t q expired) := by
  unfold WaitState.waitTimed
  dsimp only
  split
  · split
    · exact h.finishWait t _
    · exact h.setTask rfl
  · exact h

omit [DecidableEq Q] in
theorem Linked.consumeTimed (h : Linked s) (t : Nat) : Linked (s.consumeTimed t).1 :=
  h.setTask rfl

theorem Linked.expire (h : Linked s) (t : Nat) : Linked (s.expire t) := by
  unfold WaitState.expire
  dsimp only
  split
  · exact (h.setTask (w := { s.tasks t with timed := false }) rfl).finishWait t _
  · exact h

theorem Linked.taskWakeup (h : Linked s) (t : Nat) : Linked (s.taskWakeup t) := by
  unfold WaitState.taskWakeup
  dsimp only
  split
  · exact h.finishWait t _
  · exact h.setTask rfl

theorem Linked.moveHead (h : Linked s) (src dst : Q) : Linked (s.moveHead src dst).1 := by
  unfold WaitState.moveHead
  dsimp only
  split
  · exact h
  · split
    · exact h
    · next t rest hq =>
      have ht : (s.tasks t).waitQueue = some src := (h.mem_iff t src).mp (by simp [hq])
      -- the head leaves the source list: erasing it leaves the rest
      have hdet := h.detach ht (w := { s.tasks t with waitQueue := none }) rfl
      rw [hq, List.erase_cons_head] at hdet
      have hatt := hdet.attach (t := t) (by simp) dst (w := { s.tasks t with waitQueue := some dst }) rfl
      have hsrc : src ≠ dst := by assumption
      simpa [WaitState.setTask, WaitState.setQueue, Function.update_idem, Function.update_comm hsrc.symm,
        Function.update_of_ne (Ne.symm hsrc)] using hatt

theorem Linked.wakeUpTo (h : Linked s) (k : Nat) (q : Q) : Linked (WaitState.wakeUpTo k s q).1 := by
  induction k generalizing s with
  | zero => exact h
  | succ k ih =>
    unfold WaitState.wakeUpTo
    split
    · next s' hw => simpa [hw] using h.wakeOne q
    · next s' _ hw =>
      have := h.wakeOne q
      rw [hw] at this
      exact ih this

theorem Linked.moveUpTo (h : Linked s) (k : Nat) (src dst : Q) : Linked (WaitState.moveUpTo k s src dst) := by
  induction k generalizing s with
  | zero => exact h
  | succ k ih =>
    have hmove := h.moveHead src dst
    unfold WaitState.moveUpTo
    split
    · next s' hm => rw [hm] at hmove; exact hmove
    · next s' hm => rw [hm] at hmove; exact ih hmove

/-! ## What a wake-up does to each task -/

/-- finish_wait_locked leaves every other task as it was. -/
theorem finishWait_tasks_of_ne (s : WaitState Q) {t u : Nat} (reason : WakeReason) (hu : u ≠ t) :
    (s.finishWait t reason).tasks u = s.tasks u := by
  unfold WaitState.finishWait
  dsimp only
  split
  · rfl
  · simp [hu]

/-- After finish_wait_locked the task waits on nothing and is runnable, if it
waited. -/
theorem finishWait_tasks_self (s : WaitState Q) {t : Nat} {q : Q} (reason : WakeReason)
    (ht : (s.tasks t).waitQueue = some q) :
    ((s.finishWait t reason).tasks t).waitQueue = none ∧ ((s.finishWait t reason).tasks t).state = .running := by
  simp [finishWait, ht]

/-- The operations of one task leave every other task as it was. -/
theorem prepare_tasks (s : WaitState Q) {t : Nat} {q : Q} {s' : WaitState Q} (hp : s.prepare t q = some s') :
    (s.tasks t).waitQueue = none ∧ s'.tasks = Function.update s.tasks t { s.tasks t with waitQueue := some q, wakeReason := .none } := by
  unfold WaitState.prepare at hp
  dsimp only at hp
  split at hp
  · cases hp
  · next hq =>
    cases hp
    exact ⟨hq, rfl⟩

theorem cancel_tasks_of_ne (s : WaitState Q) {t u : Nat} (hu : u ≠ t) : (s.cancel t).tasks u = s.tasks u := by
  unfold WaitState.cancel
  dsimp only
  split
  · rfl
  · split
    · rfl
    · simp [hu]

omit [DecidableEq Q] in
theorem sleep_tasks_of_ne (s : WaitState Q) {t u : Nat} (hu : u ≠ t) : (s.sleep t).tasks u = s.tasks u := by
  unfold WaitState.sleep
  dsimp only
  split <;> simp [hu]

theorem waitTimed_tasks_of_ne (s : WaitState Q) {t u : Nat} (q : Q) (expired : Bool) (hu : u ≠ t) :
    (s.waitTimed t q expired).tasks u = s.tasks u := by
  unfold WaitState.waitTimed
  dsimp only
  split
  · split
    · exact finishWait_tasks_of_ne s _ hu
    · simp [hu]
  · rfl

omit [DecidableEq Q] in
theorem consumeTimed_tasks_of_ne (s : WaitState Q) {t u : Nat} (hu : u ≠ t) : (s.consumeTimed t).1.tasks u = s.tasks u := by
  simp [consumeTimed, hu]

theorem expire_tasks_of_ne (s : WaitState Q) {t u : Nat} (hu : u ≠ t) : (s.expire t).tasks u = s.tasks u := by
  unfold WaitState.expire
  dsimp only
  split
  · rw [finishWait_tasks_of_ne _ _ hu]
    simp [hu]
  · rfl

theorem taskWakeup_tasks_of_ne (s : WaitState Q) {t u : Nat} (hu : u ≠ t) : (s.taskWakeup t).tasks u = s.tasks u := by
  unfold WaitState.taskWakeup
  dsimp only
  split
  · exact finishWait_tasks_of_ne s _ hu
  · simp [hu]

/-- A timer that fires finishes the task's wait, or, when the task waits on
nothing, only drops its timer. -/
theorem expire_tasks_self (s : WaitState Q) (t : Nat) :
    (((s.expire t).tasks t).waitQueue = (s.tasks t).waitQueue ∧
        ((s.expire t).tasks t).wakeReason = (s.tasks t).wakeReason ∧ ((s.expire t).tasks t).state = (s.tasks t).state) ∨
      ((s.tasks t).waitQueue ≠ none ∧ ((s.expire t).tasks t).waitQueue = none ∧
        ((s.expire t).tasks t).state = .running) := by
  unfold WaitState.expire
  dsimp only
  split
  · cases hq : (s.tasks t).waitQueue with
    | none => exact .inl (by simp [finishWait])
    | some q => exact .inr ⟨by simp, finishWait_tasks_self _ (q := q) _ (by simp)⟩
  · exact .inl ⟨rfl, rfl, rfl⟩

/-- task_wakeup finishes the task's wait, or makes a task that waits on
nothing runnable. -/
theorem taskWakeup_tasks_self (s : WaitState Q) (t : Nat) :
    ((s.tasks t).waitQueue = none ∧ (s.taskWakeup t).tasks t = { s.tasks t with state := .running }) ∨
      ((s.tasks t).waitQueue ≠ none ∧ ((s.taskWakeup t).tasks t).waitQueue = none ∧
        ((s.taskWakeup t).tasks t).state = .running) := by
  unfold WaitState.taskWakeup
  dsimp only
  split
  · next q hq => exact .inr ⟨by simp [hq], finishWait_tasks_self _ _ hq⟩
  · next hq => exact .inl ⟨hq, by simp⟩

/-- A queue's wake-up touches only the head of that queue. -/
theorem wakeOne_tasks_of_ne (h : Linked s) {q : Q} {u : Nat} (hu : (s.tasks u).waitQueue ≠ some q) :
    (s.wakeOne q).1.tasks u = s.tasks u := by
  unfold WaitState.wakeOne
  split
  · rfl
  · next t rest hq =>
    have hne : u ≠ t := by
      rintro rfl
      exact hu ((h.mem_iff u q).mp (by simp [hq]))
    exact finishWait_tasks_of_ne s _ hne

/-- Waking the head of a queue leaves the rest of the queue, and every other
queue as it was. -/
theorem finishWait_head_queues (h : Linked s) {q : Q} {t : Nat} {rest : List Nat} (hq : s.queues q = t :: rest)
    (reason : WakeReason) : (s.finishWait t reason).queues = Function.update s.queues q rest := by
  have ht : (s.tasks t).waitQueue = some q := (h.mem_iff t q).mp (by simp [hq])
  simp [finishWait, ht, hq]

/-- The wake loop wakes k tasks, or the whole queue when it holds fewer. -/
theorem wakeUpTo_snd (h : Linked s) (k : Nat) (q : Q) :
    (WaitState.wakeUpTo k s q).2 = min k (s.queues q).length := by
  induction k generalizing s with
  | zero => simp [WaitState.wakeUpTo]
  | succ k ih =>
    cases hq : s.queues q with
    | nil => simp [WaitState.wakeUpTo, wakeOne_nil s hq]
    | cons t rest =>
      -- the rest of the loop sees the queue without its head
      have hlen : ((s.finishWait t .normal).queues q).length = rest.length := by
        simp [finishWait_head_queues h hq]
      simp only [WaitState.wakeUpTo, wakeOne_cons s hq, ih (h.finishWait t .normal), hlen, List.length_cons,
        Nat.add_min_add_right]

/-- The wake loop of one queue leaves every other queue as it was. -/
theorem wakeUpTo_queues_of_ne (h : Linked s) (k : Nat) {q p : Q} (hp : p ≠ q) :
    (WaitState.wakeUpTo k s q).1.queues p = s.queues p := by
  induction k generalizing s with
  | zero => rfl
  | succ k ih =>
    cases hq : s.queues q with
    | nil => simp [WaitState.wakeUpTo, wakeOne_nil s hq]
    | cons t rest =>
      have hother : (s.finishWait t .normal).queues p = s.queues p := by
        simp [finishWait_head_queues h hq, Function.update_of_ne hp]
      simp only [WaitState.wakeUpTo, wakeOne_cons s hq, ih (h.finishWait t .normal), hother]

/-- The wake loop leaves every task that does not wait on the queue as it
was. -/
theorem wakeUpTo_tasks_of_ne (h : Linked s) (k : Nat) {q : Q} {u : Nat} (hu : (s.tasks u).waitQueue ≠ some q) :
    (WaitState.wakeUpTo k s q).1.tasks u = s.tasks u := by
  induction k generalizing s with
  | zero => rfl
  | succ k ih =>
    have hone := wakeOne_tasks_of_ne h hu
    unfold WaitState.wakeUpTo
    split
    · next s' hw => rw [hw] at hone; exact hone
    · next s' _ hw =>
      rw [hw] at hone
      have hlink := h.wakeOne q
      rw [hw] at hlink
      rw [ih hlink (by rw [hone]; exact hu), hone]

/-- A wake loop that woke fewer tasks than it was allowed emptied the queue:
every task that waited on it waits on nothing after it and is runnable. -/
theorem wakeUpTo_drains (h : Linked s) {k : Nat} {q : Q} (hk : (WaitState.wakeUpTo k s q).2 < k) {u : Nat}
    (hu : (s.tasks u).waitQueue = some q) :
    ((WaitState.wakeUpTo k s q).1.tasks u).waitQueue = none ∧
      ((WaitState.wakeUpTo k s q).1.tasks u).state = .running := by
  induction k generalizing s with
  | zero => exact absurd hk (Nat.not_lt_zero _)
  | succ k ih =>
    unfold WaitState.wakeUpTo at hk ⊢
    cases hq : s.queues q with
    | nil =>
      -- an empty queue holds no waiter
      exact absurd ((h.mem_iff u q).mpr hu) (by simp [hq])
    | cons t rest =>
      rw [wakeOne_cons s hq] at hk ⊢
      simp only at hk ⊢
      have hlink := h.finishWait t .normal
      have ht : (s.tasks t).waitQueue = some q := (h.mem_iff t q).mp (by simp [hq])
      by_cases hut : u = t
      · -- the head is woken now, and the rest of the loop no longer sees it
        subst hut
        obtain ⟨hnone, hrun⟩ := finishWait_tasks_self s .normal ht
        have hne : ((s.finishWait u .normal).tasks u).waitQueue ≠ some q := by rw [hnone]; simp
        rw [wakeUpTo_tasks_of_ne hlink k hne]
        exact ⟨hnone, hrun⟩
      · exact ih hlink (by omega) (by rw [finishWait_tasks_of_ne s _ hut]; exact hu)

/-! ## Where the operations leave each task -/

/-- Each task of s' waits where it waited in s, on nothing, or on q. -/
def WaitsWithin (s s' : WaitState Q) (q : Option Q) : Prop :=
  ∀ t, (s'.tasks t).waitQueue = (s.tasks t).waitQueue ∨ (s'.tasks t).waitQueue = none ∨
    (s'.tasks t).waitQueue = q

/-- Each task of s' is as in s, or its wait was finished: it waits on
nothing, runs, and has a wake reason. -/
def OnlyFinishes (s s' : WaitState Q) : Prop :=
  ∀ t, s'.tasks t = s.tasks t ∨
    ((s.tasks t).waitQueue ≠ none ∧ (s'.tasks t).waitQueue = none ∧ (s'.tasks t).state = .running ∧
      (s'.tasks t).wakeReason ≠ .none)

omit [DecidableEq Q] in
theorem WaitsWithin.refl (s : WaitState Q) (q : Option Q) : WaitsWithin s s q := fun _ => .inl rfl

omit [DecidableEq Q] in
theorem WaitsWithin.trans {s₁ s₂ s₃ : WaitState Q} {q : Option Q} (h₁ : WaitsWithin s₁ s₂ q)
    (h₂ : WaitsWithin s₂ s₃ q) : WaitsWithin s₁ s₃ q := by
  intro t
  rcases h₂ t with h | h | h
  · rw [h]
    exact h₁ t
  · exact .inr (.inl h)
  · exact .inr (.inr h)

omit [DecidableEq Q] in
/-- A step that only finishes waits moves no task to a queue. -/
theorem OnlyFinishes.waitsWithin {s s' : WaitState Q} (h : OnlyFinishes s s') (q : Option Q) :
    WaitsWithin s s' q := by
  intro t
  rcases h t with h | ⟨-, h, -⟩
  · exact .inl (by rw [h])
  · exact .inr (.inl h)

omit [DecidableEq Q] in
theorem OnlyFinishes.refl (s : WaitState Q) : OnlyFinishes s s := fun _ => .inl rfl

omit [DecidableEq Q] in
theorem OnlyFinishes.trans {s₁ s₂ s₃ : WaitState Q} (h₁ : OnlyFinishes s₁ s₂) (h₂ : OnlyFinishes s₂ s₃) :
    OnlyFinishes s₁ s₃ := by
  intro t
  rcases h₂ t with h | ⟨hq₂, h⟩
  · rw [h]
    exact h₁ t
  · refine .inr ⟨?_, h⟩
    rcases h₁ t with h' | ⟨hq₁, -⟩
    · rwa [← h']
    · exact hq₁

omit [DecidableEq Q] in
/-- Rewriting one task so that it waits where it did, on nothing, or on q. -/
theorem waitsWithin_setTask (s : WaitState Q) {t : Nat} {w : Waiter Q} {q : Option Q}
    (hw : w.waitQueue = (s.tasks t).waitQueue ∨ w.waitQueue = none ∨ w.waitQueue = q) :
    WaitsWithin s (s.setTask t w) q := by
  intro u
  by_cases hu : u = t
  · subst hu
    simpa using hw
  · exact .inl (by simp [hu])

theorem waitsWithin_setQueue (s : WaitState Q) (p : Q) (l : List Nat) (q : Option Q) :
    WaitsWithin s (s.setQueue p l) q := fun _ => .inl rfl

theorem onlyFinishes_finishWait (s : WaitState Q) (t : Nat) {reason : WakeReason} (hr : reason ≠ .none) :
    OnlyFinishes s (s.finishWait t reason) := by
  intro u
  by_cases hu : u = t
  · subst hu
    cases hq : (s.tasks u).waitQueue with
    | none => exact .inl (by rw [finishWait_of_none s reason hq])
    | some q =>
      refine .inr ⟨by simp, ?_⟩
      simp [finishWait, hq, hr]
  · exact .inl (finishWait_tasks_of_ne s reason hu)

theorem onlyFinishes_wakeOne (s : WaitState Q) (q : Q) : OnlyFinishes s (s.wakeOne q).1 := by
  unfold WaitState.wakeOne
  split
  · exact OnlyFinishes.refl s
  · exact onlyFinishes_finishWait s _ (by simp)

theorem onlyFinishes_wakeUpTo (k : Nat) (s : WaitState Q) (q : Q) : OnlyFinishes s (WaitState.wakeUpTo k s q).1 := by
  induction k generalizing s with
  | zero => exact OnlyFinishes.refl s
  | succ k ih =>
    have hone := onlyFinishes_wakeOne s q
    unfold WaitState.wakeUpTo
    split
    · next s' hw => rw [hw] at hone; exact hone
    · next s' _ hw => rw [hw] at hone; exact hone.trans (ih s')

theorem waitsWithin_prepare (s : WaitState Q) {t : Nat} {q : Q} {s' : WaitState Q} (hp : s.prepare t q = some s') :
    WaitsWithin s s' (some q) := by
  unfold WaitState.prepare at hp
  dsimp only at hp
  split at hp
  · cases hp
  · cases hp
    exact (waitsWithin_setQueue s _ _ _).trans (waitsWithin_setTask _ (.inr (.inr rfl)))

theorem waitsWithin_cancel (s : WaitState Q) (t : Nat) (q : Option Q) : WaitsWithin s (s.cancel t) q := by
  unfold WaitState.cancel
  dsimp only
  split
  · exact WaitsWithin.refl s q
  · split
    · exact WaitsWithin.refl s q
    · exact (waitsWithin_setQueue s _ _ _).trans (waitsWithin_setTask _ (.inr (.inl rfl)))

theorem waitsWithin_finishWait (s : WaitState Q) (t : Nat) (reason : WakeReason) (q : Option Q) :
    WaitsWithin s (s.finishWait t reason) q := by
  unfold WaitState.finishWait
  dsimp only
  split
  · exact WaitsWithin.refl s q
  · exact (waitsWithin_setQueue s _ _ _).trans (waitsWithin_setTask _ (.inr (.inl rfl)))

omit [DecidableEq Q] in
theorem waitsWithin_sleep (s : WaitState Q) (t : Nat) (q : Option Q) : WaitsWithin s (s.sleep t) q := by
  unfold WaitState.sleep
  dsimp only
  split <;> first | exact WaitsWithin.refl s q | exact waitsWithin_setTask s (.inl rfl)

omit [DecidableEq Q] in
theorem waitsWithin_block (s : WaitState Q) (t : Nat) (q : Option Q) : WaitsWithin s (s.block t) q := by
  unfold WaitState.block
  dsimp only
  split <;> exact waitsWithin_setTask s (.inl rfl)

theorem waitsWithin_waitTimed (s : WaitState Q) (t : Nat) (p : Q) (expired : Bool) (q : Option Q) :
    WaitsWithin s (s.waitTimed t p expired) q := by
  unfold WaitState.waitTimed
  dsimp only
  split
  · split
    · exact waitsWithin_finishWait s t _ q
    · exact waitsWithin_setTask s (.inl rfl)
  · exact WaitsWithin.refl s q

omit [DecidableEq Q] in
theorem waitsWithin_consumeTimed (s : WaitState Q) (t : Nat) (q : Option Q) : WaitsWithin s (s.consumeTimed t).1 q :=
  waitsWithin_setTask s (.inl rfl)

theorem waitsWithin_expire (s : WaitState Q) (t : Nat) (q : Option Q) : WaitsWithin s (s.expire t) q := by
  unfold WaitState.expire
  dsimp only
  split
  · exact (waitsWithin_setTask s (w := { s.tasks t with timed := false }) (.inl rfl)).trans
      (waitsWithin_finishWait _ t _ q)
  · exact WaitsWithin.refl s q

theorem waitsWithin_taskWakeup (s : WaitState Q) (t : Nat) (q : Option Q) : WaitsWithin s (s.taskWakeup t) q := by
  unfold WaitState.taskWakeup
  dsimp only
  split
  · exact waitsWithin_finishWait s t _ q
  · exact waitsWithin_setTask s (.inl rfl)

theorem waitsWithin_moveHead (s : WaitState Q) (src dst : Q) : WaitsWithin s (s.moveHead src dst).1 (some dst) := by
  unfold WaitState.moveHead
  split
  · exact WaitsWithin.refl s _
  · split
    · exact WaitsWithin.refl s _
    · exact ((waitsWithin_setQueue s _ _ _).trans (waitsWithin_setQueue _ _ _ _)).trans
        (waitsWithin_setTask _ (.inr (.inr rfl)))

theorem waitsWithin_moveUpTo (k : Nat) (s : WaitState Q) (src dst : Q) :
    WaitsWithin s (WaitState.moveUpTo k s src dst) (some dst) := by
  induction k generalizing s with
  | zero => exact WaitsWithin.refl s _
  | succ k ih =>
    have hmove := waitsWithin_moveHead s src dst
    unfold WaitState.moveUpTo
    split
    · next s' hm => rw [hm] at hmove; exact hmove
    · next s' hm => rw [hm] at hmove; exact hmove.trans (ih s')

/-- Clearing a queue no task waits on, as wait_queue_init of a new queue. -/
theorem Linked.clear (h : Linked s) {q : Q} (hq : ∀ t, (s.tasks t).waitQueue ≠ some q) :
    Linked (s.setQueue q []) := by
  refine ⟨fun t p => ?_, fun p => ?_⟩
  · by_cases hp : p = q
    · subst hp
      simpa using hq t
    · simpa [hp] using h.mem_iff t p
  · by_cases hp : p = q
    · subst hp
      simp
    · simpa [hp] using h.nodup p

end WaitState

end Uinxed.Sched
