/-
  Sched/Eevdf.lean --- the per-CPU EEVDF runqueues of src/kernel/sched/sched.c.

  Every CPU has a runqueue whose timeline holds its READY tasks, ordered by
  virtual deadline (ties: vruntime).  Beside the tree a runqueue keeps
  nr_running, avg_load (the sum of the queued weights) and avg_vruntime (the
  sum of (vruntime - min_vruntime) * weight over the queued tasks, stored as
  an int64).  avg_vruntime_add and avg_vruntime_sub keep these sums as tasks
  come and go, and advance_min_vruntime rebases avg_vruntime whenever it moves
  min_vruntime forward.  The running task is outside the tree; it is folded
  into the weighted average only where the source does so.

  Machine integers keep their C types: vruntime, deadline, min_vruntime,
  avg_load and nr_running are UInt64, avg_vruntime and vlag are Int64, weight
  is UInt32, and every (int64_t) cast of a uint64_t is UInt64.toInt64.  The
  __int128 arithmetic of entity_eligible_vruntime is exact in the source (an
  int64 times a uint64 plus an int64 stays below 2^127) and is Int here.

  The timeline is represented by its in-order sequence, leftmost first:
  rb_insert_augmented with entity_less places a node before the first node it
  is less than, rb_erase_augmented removes it, rb_first is the head and the
  root's augmented min_vruntime is the least vruntime in the sequence.  The
  heap search of pick_eevdf, which prunes with that augmentation, returns the
  first eligible entity in order and is modelled by that result.

  Tasks and runqueues are named by index (the task_t and eevdf_rq_t
  addresses); rq->curr and rq->idle are never NULL after sched_init.  Each
  function below is one critical section of the source.  Statistics
  (switch counters, tick counters, migration counters), the TSS, CR3, FPU and
  MSR work of sched_switch, the log messages and the spinlocks themselves are
  left out.  newidle_balance chooses its source CPU through the scheduling
  domains; that choice is a parameter of sched_switch here, and the steal
  itself is migrate_one_locked.
-/
import Mathlib.Data.UInt

set_option autoImplicit false

namespace Uinxed.Sched

/-! ## Constants -/

/-- SCHED_NICE_0_LOAD. -/
def schedNice0Load : UInt64 := 1024

/-- SCHED_BASE_SLICE. -/
def schedBaseSlice : UInt64 := 2

/-- SCHED_LATENCY. -/
def schedLatency : UInt64 := 8

/-- SCHED_MIN_GRANULARITY. -/
def schedMinGranularity : UInt64 := 1

/-- SCHED_WAKEUP_GRANULARITY. -/
def schedWakeupGranularity : UInt64 := 0

/-- SCHED_MIGRATION_COOLDOWN. -/
def schedMigrationCooldown : UInt64 := 4

/-- TASK_DEFAULT_SLICE. -/
def taskDefaultSlice : UInt64 := 5

/-- UINT64_MAX, the "no candidate" value of advance_min_vruntime. -/
def uint64Max : UInt64 := 18446744073709551615

/-! ## State -/

/-- task_state_t, in the order of its enumerators. -/
inductive TaskState
  | ready
  | running
  | blocked
  | sleeping
  | stopped
  | zombie
  | idle
  deriving DecidableEq, Repr

/-- task_wake_reason_t. -/
inductive TaskWakeReason
  | wakeNone
  | wakeNormal
  | wakeTimeout
  deriving DecidableEq, Repr

/-- The fields of task_t that the runqueue code reads and writes. -/
structure SchedTask where
  state : TaskState
  onCpu : Bool
  cpuId : Nat
  vruntime : UInt64
  deadline : UInt64
  vlag : Int64
  weight : UInt32
  timeSlice : UInt64
  wakeTick : UInt64
  lastMigrateTick : UInt64
  waitQueue : Option Nat
  wakeReason : TaskWakeReason
  deriving DecidableEq, Repr

/-- A task as task_alloc_status leaves it: calloc'd, so its state is
TASK_READY (enumerator 0) until it is first enqueued. -/
def SchedTask.alloc : SchedTask :=
  { state := .ready, onCpu := false, cpuId := 0, vruntime := 0, deadline := 0, vlag := 0,
    weight := 1024, timeSlice := taskDefaultSlice, wakeTick := 0, lastMigrateTick := 0,
    waitQueue := none, wakeReason := .wakeNone }

/-- The idle task of a CPU once that CPU runs it (idle_task_alloc). -/
def SchedTask.idleTask (cpu : Nat) : SchedTask :=
  { SchedTask.alloc with state := .idle, onCpu := true, cpuId := cpu }

/-- eevdf_rq_t without its lock and statistics; the timeline is the tree's
in-order sequence. -/
structure EevdfRq where
  timeline : List Nat
  nrRunning : UInt64
  minVruntime : UInt64
  avgVruntime : Int64
  avgLoad : UInt64
  curr : Nat
  idle : Nat
  needResched : Bool
  online : Bool
  deriving DecidableEq, Repr

/-- Every task, every runqueue, cpu_scheduler_count and scheduler.ticks. -/
structure SchedState where
  tasks : Nat → SchedTask
  rqs : Nat → EevdfRq
  cpuSchedulerCount : Nat
  ticks : UInt64

/-- The runqueue of a CPU as sched_init sets it up, running its idle task. -/
def EevdfRq.boot (cpu : Nat) : EevdfRq :=
  { timeline := [], nrRunning := 0, minVruntime := 0, avgVruntime := 0, avgLoad := 0,
    curr := cpu, idle := cpu, needResched := false, online := true }

/-- The scheduler once every CPU runs its idle task: the idle task of CPU i is
task i, and every other task is freshly allocated. -/
def SchedState.init (cpus : Nat) : SchedState :=
  { tasks := fun t => if t < cpus then SchedTask.idleTask t else SchedTask.alloc,
    rqs := EevdfRq.boot, cpuSchedulerCount := cpus, ticks := 0 }

namespace SchedState

/-- Apply f to one task. -/
def modifyTask (s : SchedState) (t : Nat) (f : SchedTask → SchedTask) : SchedState :=
  { s with tasks := fun u => if u = t then f (s.tasks t) else s.tasks u }

/-- Apply f to one runqueue. -/
def modifyRq (s : SchedState) (c : Nat) (f : EevdfRq → EevdfRq) : SchedState :=
  { s with rqs := fun d => if d = c then f (s.rqs c) else s.rqs d }

@[simp] theorem modifyTask_tasks (s : SchedState) (t : Nat) (f : SchedTask → SchedTask) (u : Nat) :
    (s.modifyTask t f).tasks u = if u = t then f (s.tasks t) else s.tasks u := rfl

@[simp] theorem modifyTask_rqs (s : SchedState) (t : Nat) (f : SchedTask → SchedTask) :
    (s.modifyTask t f).rqs = s.rqs := rfl

@[simp] theorem modifyTask_cpuSchedulerCount (s : SchedState) (t : Nat) (f : SchedTask → SchedTask) :
    (s.modifyTask t f).cpuSchedulerCount = s.cpuSchedulerCount := rfl

@[simp] theorem modifyTask_ticks (s : SchedState) (t : Nat) (f : SchedTask → SchedTask) :
    (s.modifyTask t f).ticks = s.ticks := rfl

@[simp] theorem modifyRq_rqs (s : SchedState) (c : Nat) (f : EevdfRq → EevdfRq) (d : Nat) :
    (s.modifyRq c f).rqs d = if d = c then f (s.rqs c) else s.rqs d := rfl

@[simp] theorem modifyRq_tasks (s : SchedState) (c : Nat) (f : EevdfRq → EevdfRq) :
    (s.modifyRq c f).tasks = s.tasks := rfl

@[simp] theorem modifyRq_cpuSchedulerCount (s : SchedState) (c : Nat) (f : EevdfRq → EevdfRq) :
    (s.modifyRq c f).cpuSchedulerCount = s.cpuSchedulerCount := rfl

@[simp] theorem modifyRq_ticks (s : SchedState) (c : Nat) (f : EevdfRq → EevdfRq) :
    (s.modifyRq c f).ticks = s.ticks := rfl

end SchedState

/-! ## Virtual-time arithmetic -/

/-- calc_delta_fair: a wall-clock delta in the virtual time of a task. -/
def calcDeltaFair (delta : UInt64) (task : SchedTask) : UInt64 :=
  if task.weight.toUInt64 = schedNice0Load then delta
  else delta * schedNice0Load / task.weight.toUInt64

/-- add_signed_vruntime: base + offset, saturating at zero. -/
def addSignedVruntime (base : UInt64) (offset : Int64) : UInt64 :=
  if offset ≥ 0 then base + offset.toUInt64
  else
    let magnitude := (-(offset + 1)).toUInt64 + 1
    if magnitude > base then 0 else base - magnitude

/-- The condition under which avg_vruntime, calc_effective_slice,
advance_min_vruntime and place_entity fold the current task in. -/
def currCounts (s : SchedState) (c : Nat) : Bool :=
  (s.tasks (s.rqs c).curr).state == .running && (s.rqs c).curr != (s.rqs c).idle

/-- avg_vruntime: V, the weighted average vruntime of the queued tasks and
the running one, divided with a left bias. -/
def avgVruntime (s : SchedState) (c : Nat) : UInt64 :=
  let rq := s.rqs c
  let curr := s.tasks rq.curr
  let average : Int64 := if currCounts s c then
      rq.avgVruntime + (curr.vruntime - rq.minVruntime).toInt64 * curr.weight.toUInt64.toInt64
    else rq.avgVruntime
  let load : UInt64 := if currCounts s c then rq.avgLoad + curr.weight.toUInt64 else rq.avgLoad
  if load = 0 then rq.minVruntime
  else
    let average := if average < 0 then average - (load - 1).toInt64 else average
    addSignedVruntime rq.minVruntime (average / load.toInt64)

/-- calc_effective_slice: the base slice scaled to the number of runnable
tasks, within [SCHED_MIN_GRANULARITY, SCHED_BASE_SLICE]. -/
def calcEffectiveSlice (s : SchedState) (c : Nat) : UInt64 :=
  let nr := if currCounts s c then (s.rqs c).nrRunning + 1 else (s.rqs c).nrRunning
  if nr ≤ 1 then schedBaseSlice
  else
    let slice := schedLatency / nr
    let slice := if slice < schedMinGranularity then schedMinGranularity else slice
    if slice > schedBaseSlice then schedBaseSlice else slice

/-- entity_eligible_vruntime: avg_vruntime >= (vruntime - min_vruntime) *
avg_load, in 128-bit arithmetic.  Unlike avg_vruntime it folds in any
running curr, the idle task included. -/
def entityEligibleVruntime (s : SchedState) (c : Nat) (vruntime : UInt64) : Bool :=
  let rq := s.rqs c
  let curr := s.tasks rq.curr
  let avg : Int := if curr.state = .running then
      rq.avgVruntime.toInt + (curr.vruntime - rq.minVruntime).toInt64.toInt * curr.weight.toNat
    else rq.avgVruntime.toInt
  let load : UInt64 := if curr.state = .running then rq.avgLoad + curr.weight.toUInt64 else rq.avgLoad
  let key := (vruntime - rq.minVruntime).toInt64
  decide (avg ≥ key.toInt * load.toNat)

/-- entity_eligible. -/
def entityEligible (s : SchedState) (c t : Nat) : Bool :=
  entityEligibleVruntime s c (s.tasks t).vruntime

/-- entity_less: earlier deadline first, then smaller vruntime, both by
wrapping difference. -/
def entityLess (a b : SchedTask) : Bool :=
  if a.deadline ≠ b.deadline then decide ((a.deadline - b.deadline).toInt64 < 0)
  else decide ((a.vruntime - b.vruntime).toInt64 < 0)

/-- entity_before: cand is less than curr by more than the wakeup
granularity. -/
def entityBefore (cand curr : SchedTask) : Bool :=
  entityLess cand curr &&
    decide ((cand.deadline + calcDeltaFair schedWakeupGranularity cand).toInt64 < curr.deadline.toInt64)

/-! ## The timeline -/

/-- rb_insert_augmented with entity_less, on the in-order sequence: the new
task goes before the first task it is less than. -/
def timelineInsert (tasks : Nat → SchedTask) (t : Nat) : List Nat → List Nat
  | [] => [t]
  | u :: rest => if entityLess (tasks t) (tasks u) then t :: u :: rest else u :: timelineInsert tasks t rest

/-- The root's augmented min_vruntime (update_min_vruntime): the least
vruntime in the tree, none for an empty tree. -/
def timelineMinVruntime (tasks : Nat → SchedTask) : List Nat → Option UInt64
  | [] => none
  | t :: rest => some (match timelineMinVruntime tasks rest with
    | none => (tasks t).vruntime
    | some m => if m < (tasks t).vruntime then m else (tasks t).vruntime)

/-! ## avg_vruntime bookkeeping -/

/-- The first half of advance_min_vruntime: the least vruntime of the
running and queued tasks, UINT64_MAX when there are none. -/
def minVruntimeCandidate (s : SchedState) (c : Nat) : UInt64 :=
  let rq := s.rqs c
  let candidate := if currCounts s c then (s.tasks rq.curr).vruntime else uint64Max
  match timelineMinVruntime s.tasks rq.timeline with
  | some queued => if candidate = uint64Max ∨ (queued - candidate).toInt64 < 0 then queued else candidate
  | none => candidate

/-- advance_min_vruntime: move min_vruntime forward to the candidate,
rebasing avg_vruntime by delta * avg_load. -/
def advanceMinVruntime (s : SchedState) (c : Nat) : SchedState :=
  let rq := s.rqs c
  let candidate := minVruntimeCandidate s c
  if candidate = uint64Max ∨ (candidate - rq.minVruntime).toInt64 ≤ 0 then s
  else
    let delta := candidate - rq.minVruntime
    s.modifyRq c fun rq =>
      { rq with avgVruntime := rq.avgVruntime - delta.toInt64 * rq.avgLoad.toInt64, minVruntime := candidate }

/-- The contribution (vruntime - min_vruntime) * weight of a task to the
avg_vruntime of runqueue c, as avg_vruntime_add and avg_vruntime_sub compute
it. -/
def vruntimeContribution (s : SchedState) (c t : Nat) : Int64 :=
  ((s.tasks t).vruntime - (s.rqs c).minVruntime).toInt64 * (s.tasks t).weight.toUInt64.toInt64

/-- avg_vruntime_add. -/
def avgVruntimeAdd (s : SchedState) (c t : Nat) : SchedState :=
  let delta := vruntimeContribution s c t
  s.modifyRq c fun rq =>
    { rq with avgVruntime := rq.avgVruntime + delta, avgLoad := rq.avgLoad + (s.tasks t).weight.toUInt64 }

/-- avg_vruntime_sub. -/
def avgVruntimeSub (s : SchedState) (c t : Nat) : SchedState :=
  let delta := vruntimeContribution s c t
  s.modifyRq c fun rq =>
    { rq with avgVruntime := rq.avgVruntime - delta, avgLoad := rq.avgLoad - (s.tasks t).weight.toUInt64 }

/-- update_curr: charge delta_ticks to the current task and advance
min_vruntime.  The task's state is not checked. -/
def updateCurr (s : SchedState) (c : Nat) (deltaTicks : UInt64) : SchedState :=
  let curr := (s.rqs c).curr
  if curr = (s.rqs c).idle then s
  else
    let s := s.modifyTask curr fun x => { x with vruntime := x.vruntime + calcDeltaFair deltaTicks x }
    advanceMinVruntime s c

/-- update_deadline: once a task has used its slice, give it a new deadline
one effective slice ahead and record its lag. -/
def updateDeadline (s : SchedState) (c t : Nat) : SchedState :=
  let task := s.tasks t
  if (task.vruntime - task.deadline).toInt64 < 0 then s
  else
    let slice := calcEffectiveSlice s c
    let s := s.modifyTask t fun x => { x with deadline := x.vruntime + calcDeltaFair slice x }
    s.modifyTask t fun x => { x with vlag := (avgVruntime s c - x.vruntime).toInt64 }

/-- place_entity: put a task at V minus its lag (scaled to the new load and
bounded by two slices), with a deadline one slice ahead, half a slice for a
new task. -/
def placeEntity (s : SchedState) (c t : Nat) (initial : Bool) : SchedState :=
  let task := s.tasks t
  let rq := s.rqs c
  let vruntime := avgVruntime s c
  let vslice := calcDeltaFair (calcEffectiveSlice s c) task
  let load := if currCounts s c then rq.avgLoad + (s.tasks rq.curr).weight.toUInt64 else rq.avgLoad
  let lag : Int64 :=
    if load = 0 then 0
    else
      let newLoad := load + task.weight.toUInt64
      let lag := if newLoad > load then task.vlag * newLoad.toInt64 / load.toInt64 else task.vlag
      let lagLimit := (vslice * 2).toInt64
      let lag := if lag > lagLimit then lagLimit else lag
      if lag < -lagLimit then -lagLimit else lag
  let placed := addSignedVruntime vruntime (-lag)
  let vslice := if initial then vslice / 2 else vslice
  s.modifyTask t fun x => { x with vruntime := placed, deadline := placed + vslice }

/-- enqueue_entity: only a READY task joins the timeline. -/
def enqueueEntity (s : SchedState) (c t : Nat) : SchedState :=
  if (s.tasks t).state ≠ .ready then s
  else
    let s := avgVruntimeAdd s c t
    s.modifyRq c fun rq =>
      { rq with timeline := timelineInsert s.tasks t rq.timeline, nrRunning := rq.nrRunning + 1 }

/-- dequeue_entity: erase the task from the timeline, subtract its
contribution, and decrement nr_running unless it is already zero. -/
def dequeueEntity (s : SchedState) (c t : Nat) : SchedState :=
  let s := s.modifyRq c fun rq => { rq with timeline := rq.timeline.erase t }
  let s := avgVruntimeSub s c t
  s.modifyRq c fun rq => { rq with nrRunning := if rq.nrRunning ≠ 0 then rq.nrRunning - 1 else rq.nrRunning }

/-- pick_eevdf: the earliest-deadline eligible task, the current task if it
is running, eligible and not beaten by more than the wakeup granularity, and
the leftmost task or the idle task as fallbacks. -/
def pickEevdf (s : SchedState) (c : Nat) : Nat :=
  let rq := s.rqs c
  if rq.nrRunning = 0 then rq.idle
  else
    let curr : Option Nat :=
      if (s.tasks rq.curr).state ≠ .running ∨ entityEligible s c rq.curr = false then none else some rq.curr
    let choose (se : Nat) : Nat := match curr with
      | none => se
      | some cu => if entityBefore (s.tasks se) (s.tasks cu) then se else cu
    -- the heap search, and the two fallbacks when it finds nothing
    let search := match rq.timeline.find? (entityEligible s c) with
      | some se => choose se
      | none => match curr with
        | some cu => cu
        | none => rq.timeline.headD rq.idle
    match rq.timeline with
    | leftmost :: _ => if entityEligible s c leftmost then choose leftmost else search
    | [] => search

/-! ## Runqueue operations -/

/-- enqueue_task_on_cpu: place a task on a CPU's runqueue as READY, and ask
for a reschedule when that CPU idles or the task should preempt its current
one. -/
def enqueueTaskOnCpu (s : SchedState) (t cpu : Nat) (initial : Bool) : SchedState :=
  let task := s.tasks t
  if task.state = .zombie ∨ task.state = .idle then s
  else
    let cpu := if cpu ≥ s.cpuSchedulerCount then 0 else cpu
    let s := placeEntity s cpu t initial
    let s := s.modifyTask t fun x => { x with state := .ready, wakeTick := 0, cpuId := cpu }
    let s := enqueueEntity s cpu t
    let rq := s.rqs cpu
    let curr := s.tasks rq.curr
    if rq.curr = rq.idle ∨
        (curr.state = .running ∧ entityEligible s cpu t ∧ entityBefore (s.tasks t) curr) then
      s.modifyRq cpu fun rq => { rq with needResched := true }
    else s

/-- pick_steal_candidate_locked: scan at most eight tasks from the rightmost
end of the timeline for one that is not migration-hot. -/
def pickStealCandidateLocked (s : SchedState) (src : Nat) (newlyIdle : Bool) : Option Nat :=
  let rq := s.rqs src
  (rq.timeline.reverse.take 8).find? fun t =>
    !decide (s.ticks - (s.tasks t).lastMigrateTick < schedMigrationCooldown) || newlyIdle ||
      decide (rq.nrRunning > 2)

/-- migrate_one_locked: move one queued, off-CPU task from src to dst,
carrying its lag across. -/
def migrateOneLocked (s : SchedState) (src dst : Nat) (newlyIdle : Bool) : SchedState × Option Nat :=
  if src ≥ s.cpuSchedulerCount ∨ dst ≥ s.cpuSchedulerCount ∨ src = dst then (s, none)
  else if (s.rqs src).nrRunning = 0 ∨ (s.rqs dst).online = false then (s, none)
  else match pickStealCandidateLocked s src newlyIdle with
    | none => (s, none)
    | some t =>
      if (s.tasks t).state ≠ .ready ∨ (s.tasks t).onCpu then (s, none)
      else
        let s := s.modifyTask t fun x => { x with vlag := (avgVruntime s src - x.vruntime).toInt64 }
        let s := dequeueEntity s src t
        let s := s.modifyTask t fun x => { x with lastMigrateTick := s.ticks }
        (enqueueTaskOnCpu s t dst false, some t)

/-- newidle_balance: a CPU about to idle pulls one task.  The source CPU that
find_busiest_cpu_locked picks through the scheduling domains is the
parameter stealFrom. -/
def newidleBalance (s : SchedState) (dst : Nat) (stealFrom : Option Nat) : SchedState × Option Nat :=
  if s.cpuSchedulerCount < 2 ∨ dst ≥ s.cpuSchedulerCount then (s, none)
  else if (s.rqs dst).nrRunning ≠ 0 then (s, none)
  else match stealFrom with
    | none => (s, none)
    | some src => migrateOneLocked s src dst true

/-- The first block of sched_switch: a running current task (not the idle
task) gets its deadline updated and goes back into the timeline; a yielding
eligible task first forfeits the rest of its request. -/
def requeuePrev (s : SchedState) (cpu : Nat) (voluntary : Bool) : SchedState :=
  let rq := s.rqs cpu
  let prev := rq.curr
  let p := s.tasks prev
  if p.state = .running ∧ prev ≠ rq.idle then
    let s := if voluntary = true ∧ rq.nrRunning ≠ 0 ∧ entityEligible s cpu prev = true ∧
        (p.vruntime - p.deadline).toInt64 < 0 then
      s.modifyTask prev fun x => { x with vruntime := x.deadline }
    else s
    let s := updateDeadline s cpu prev
    let s := s.modifyTask prev fun x => { x with vlag := (avgVruntime s cpu - x.vruntime).toInt64 }
    let s := s.modifyTask prev fun x => { x with state := .ready }
    enqueueEntity s cpu prev
  else s

/-- sched_switch on CPU cpu: requeue the current task, pick the next one
(stealing one through newidle_balance before idling), and switch to it.  The
context switch clears prev->on_cpu once prev is off its stack. -/
def schedSwitch (s : SchedState) (cpu : Nat) (voluntary : Bool) (stealFrom : Option Nat) : SchedState :=
  let s := s.modifyRq cpu fun rq => { rq with needResched := false }
  let prev := (s.rqs cpu).curr
  let s := requeuePrev s cpu voluntary
  let next := pickEevdf s cpu
  let (s, next) :=
    if next = (s.rqs cpu).idle ∧ (s.rqs cpu).nrRunning = 0 then
      let (s, stolen) := newidleBalance s cpu stealFrom
      (s, stolen.getD (pickEevdf s cpu))
    else (s, next)
  if prev = next then
    -- a remote wake may have queued this CPU's current task between its block and here
    if next ≠ (s.rqs cpu).idle ∧ (s.tasks next).state = .ready then
      let s := dequeueEntity s cpu next
      let s := s.modifyTask next fun x => { x with state := .running, timeSlice := 0 }
      advanceMinVruntime s cpu
    else s
  else
    let s := if next = (s.rqs cpu).idle ∧ (s.rqs cpu).nrRunning = 0 then
        let avg := avgVruntime s cpu
        if (avg - (s.rqs cpu).minVruntime).toInt64 > 0 then s.modifyRq cpu fun rq => { rq with minVruntime := avg }
        else s
      else s
    let s := if (s.tasks next).state = .ready then
        let s := dequeueEntity s cpu next
        s.modifyTask next fun x => { x with state := .running, timeSlice := 0 }
      else s
    let s := s.modifyTask next fun x => { x with onCpu := true }
    let s := s.modifyRq cpu fun rq => { rq with curr := next }
    let s := advanceMinVruntime s cpu
    s.modifyTask prev fun x => { x with onCpu := false }

/-- The runqueue section of sched_tick on CPU cpu, with the tick count that
CPU 0 advances.  Whether to preempt only decides whether a sched_switch
follows, and the periodic balancing is a sequence of migrate_one_locked
calls; both are steps of their own. -/
def schedTick (s : SchedState) (cpu : Nat) : SchedState :=
  let s := s.modifyRq cpu fun rq => { rq with needResched := false }
  let curr := (s.rqs cpu).curr
  let s := if curr = (s.rqs cpu).idle then s
    else if (s.tasks curr).state = .running then
      let s := s.modifyTask curr fun x => { x with timeSlice := x.timeSlice + 1 }
      let s := updateCurr s cpu 1
      updateDeadline s cpu curr
    else s
  if cpu = 0 then { s with ticks := s.ticks + 1 } else s

/-- task_set_cpu: move a task that is not running to another CPU.  A READY
task is dequeued from the runqueue its cpu_id names and enqueued on the new
one; any other task only gets its cpu_id changed. -/
def taskSetCpu (s : SchedState) (t cpu : Nat) : SchedState × Int :=
  if cpu ≥ s.cpuSchedulerCount then (s, 1)
  else
    let task := s.tasks t
    if task.state = .running ∨ task.state = .idle ∨ task.state = .zombie then (s, 1)
    else
      let oldCpu := task.cpuId
      let s := if task.state = .ready then
          let s := s.modifyTask t fun x => { x with vlag := (avgVruntime s oldCpu - x.vruntime).toInt64 }
          let s := dequeueEntity s oldCpu t
          enqueueTaskOnCpu s t cpu false
        else s.modifyTask t fun x => { x with cpuId := cpu }
      let s := if oldCpu ≠ cpu then s.modifyTask t fun x => { x with lastMigrateTick := s.ticks } else s
      (s, 0)

/-- task_stop: stop a READY or RUNNING task, dequeuing a READY one from the
runqueue its cpu_id names. -/
def taskStop (s : SchedState) (t : Nat) : SchedState × Int :=
  let task := s.tasks t
  if task.state = .ready ∨ task.state = .running then
    let c := if task.cpuId < s.cpuSchedulerCount then task.cpuId else 0
    let s := if task.state = .ready then dequeueEntity s c t else s
    (s.modifyTask t fun x => { x with state := .stopped }, 0)
  else (s, 1)

/-- The locked section of task_block on CPU cpu: consume a wakeup that
finished while the task was between wait_queue_prepare and here, or record
the task's lag and mark it BLOCKED.  The sched_yield that follows is a
sched_switch step of its own. -/
def taskBlock (s : SchedState) (cpu : Nat) : SchedState :=
  let curr := (s.rqs cpu).curr
  let task := s.tasks curr
  if task.waitQueue = none ∧ task.wakeReason ≠ .wakeNone then
    s.modifyTask curr fun x => { x with wakeReason := .wakeNone }
  else
    let s := s.modifyTask curr fun x => { x with vlag := (avgVruntime s cpu - x.vruntime).toInt64 }
    s.modifyTask curr fun x => { x with state := .blocked }

/-! ## The system -/

/-- One critical section of the scheduler, on any CPU. -/
inductive SchedAction
  | enqueue (t cpu : Nat) (initial : Bool)
  | switch (cpu : Nat) (voluntary : Bool) (stealFrom : Option Nat)
  | tick (cpu : Nat)
  | migrate (src dst : Nat) (newlyIdle : Bool)
  | setCpu (t cpu : Nat)
  | stop (t : Nat)
  | block (cpu : Nat)
  deriving DecidableEq, Repr

/-- Run one critical section. -/
def schedStep (s : SchedState) : SchedAction → SchedState
  | .enqueue t cpu initial => enqueueTaskOnCpu s t cpu initial
  | .switch cpu voluntary stealFrom => schedSwitch s cpu voluntary stealFrom
  | .tick cpu => schedTick s cpu
  | .migrate src dst newlyIdle => (migrateOneLocked s src dst newlyIdle).1
  | .setCpu t cpu => (taskSetCpu s t cpu).1
  | .stop t => (taskStop s t).1
  | .block cpu => taskBlock s cpu

/-- Run critical sections in order. -/
def schedRun (s : SchedState) (as : List SchedAction) : SchedState :=
  as.foldl schedStep s

/-- The states the scheduler reaches from sched_init on some number of CPUs. -/
inductive SchedReachable : SchedState → Prop
  | init (cpus : Nat) : SchedReachable (SchedState.init cpus)
  | step {s : SchedState} (a : SchedAction) : SchedReachable s → SchedReachable (schedStep s a)

theorem SchedReachable.run {s : SchedState} (h : SchedReachable s) :
    ∀ as : List SchedAction, SchedReachable (schedRun s as)
  | [] => h
  | a :: as => SchedReachable.run (h.step a) as

end Uinxed.Sched
