/-
  Ipc/PipeIo.lean --- the read and write paths of pipe.c as tasks that take
  their ring-locked sections in any order.

  A read or write call runs as a sequence of atomic sections: from one
  spin_lock of ring->lock to the next spin_unlock, or one wait-queue step
  under the scheduler lock.  The pc of a call says which section comes next:
  the top of its loop, the re-check after the adaptive spin, the sleep after
  wait_queue_prepare, the re-check after a wake-up, or the wake of a waiter
  of the other side after a transfer.  Any task may take its next section at
  any time, so a list of events is an interleaving of any number of readers
  and writers on one ring.

  The sections are those of pipe_file_read_user and pipe_file_write_user;
  pipe_read_common and pipe_write_common are the same sections with user
  copies that never fault.  A user copy that faults has moved nothing (a read)
  or written some bytes into the free part of the buffer (a write); the call
  then returns or starts its loop again, as user_access_ok decides.  Signals
  pending at a section, and the fault of a copy, are what the environment
  gives the section.  Return values, the CPU hints and the poll
  notifications are left out; each section reports the bytes it moved.
-/
import Mathlib.Logic.Function.Basic
import Uinxed.Ipc.PipeRing

set_option autoImplicit false

namespace Uinxed.Pipe

/-! ## Calls and tasks -/

/-- Where a read or write call stands between its atomic sections. -/
inductive PipePc
  /-- about to take ring->lock at the top of the call's loop -/
  | lock
  /-- back from the adaptive spin: take ring->lock and re-check the wait condition -/
  | relock
  /-- linked into a wait queue with ring->lock dropped, before wait_queue_sleep -/
  | prepared
  /-- asleep in wait_queue_sleep -/
  | blocked
  /-- off the wait queue: take ring->lock, drop the waiter count and re-check -/
  | woken
  /-- ring->lock dropped after a transfer: wake one waiter of the other side -/
  | wake
  deriving DecidableEq, Repr

/-- A read call: the bytes asked for, O_NONBLOCK, and whether it spun. -/
structure ReadCall where
  size : Nat
  nonblock : Bool
  spun : Bool
  pc : PipePc
  deriving DecidableEq, Repr

/-- A write call: its bytes, O_NONBLOCK, total_written, and whether it spun. -/
structure WriteCall where
  data : List UInt8
  nonblock : Bool
  written : Nat
  spun : Bool
  pc : PipePc
  deriving DecidableEq, Repr

/-- What a task is doing in the pipe code. -/
inductive PipeTask
  | idle
  | reading (call : ReadCall)
  | writing (call : WriteCall)
  deriving DecidableEq, Repr

/-- One ring, its two wait queues (first waiter first) and the tasks. -/
structure PipeSystem where
  ring : PipeRing
  readWq : List Nat
  writeWq : List Nat
  tasks : Nat → PipeTask

/-- A fresh ring with no task in the pipe code. -/
def PipeSystem.init (buf : Nat → UInt8) : PipeSystem := ⟨pipeRingAlloc buf, [], [], fun _ => .idle⟩

/-- What the environment decides at a section: whether a signal is pending,
and whether the user copy faults, after how many bytes, and whether
user_access_ok then holds. -/
structure PipeEnv where
  signal : Bool
  fault : Option (Nat × Bool)
  deriving DecidableEq, Repr

/-- The bytes a section moved: a write call's chunk from its offset, or the
bytes a read copied out. -/
inductive PipeObs
  | produce (t : Nat) (data : List UInt8) (offset : Nat) (chunk : List UInt8)
  | consume (t : Nat) (chunk : List UInt8)
  deriving DecidableEq, Repr

/-! ## Wait queues -/

/-- A task taken off a wait queue returns from wait_queue_sleep, or does
not go to sleep at all. -/
def PipeTask.wake : PipeTask → PipeTask
  | .idle => .idle
  | .reading r => .reading { r with pc := .woken }
  | .writing w => .writing { w with pc := .woken }

def PipeSystem.setTask (s : PipeSystem) (t : Nat) (task : PipeTask) : PipeSystem :=
  { s with tasks := Function.update s.tasks t task }

/-- wait_queue_wake_one_sync on the tasks and a queue: the first waiter
leaves the queue. -/
def wakeOne (tasks : Nat → PipeTask) : List Nat → (Nat → PipeTask) × List Nat
  | [] => (tasks, [])
  | t :: rest => (Function.update tasks t (tasks t).wake, rest)

/-- wait_queue_wake_all on the tasks of a queue. -/
def wakeAll (tasks : Nat → PipeTask) (queue : List Nat) : Nat → PipeTask :=
  queue.foldl (fun tasks t => Function.update tasks t (tasks t).wake) tasks

/-- wait_queue_wake_one_sync(&ring->read_wq). -/
def PipeSystem.wakeOneReader (s : PipeSystem) : PipeSystem :=
  { s with tasks := (wakeOne s.tasks s.readWq).1, readWq := (wakeOne s.tasks s.readWq).2 }

/-- wait_queue_wake_one_sync(&ring->write_wq). -/
def PipeSystem.wakeOneWriter (s : PipeSystem) : PipeSystem :=
  { s with tasks := (wakeOne s.tasks s.writeWq).1, writeWq := (wakeOne s.tasks s.writeWq).2 }

/-- wait_queue_wake_all(&ring->read_wq). -/
def PipeSystem.wakeAllReaders (s : PipeSystem) : PipeSystem :=
  { s with tasks := wakeAll s.tasks s.readWq, readWq := [] }

/-- wait_queue_wake_all(&ring->write_wq). -/
def PipeSystem.wakeAllWriters (s : PipeSystem) : PipeSystem :=
  { s with tasks := wakeAll s.tasks s.writeWq, writeWq := [] }

/-! ## The read path -/

/-- The loop of pipe_file_read_user under ring->lock, from its wait
condition: wait while the ring is empty, else copy out and consume. -/
def pipeReadCheck (s : PipeSystem) (t : Nat) (r : ReadCall) (env : PipeEnv) : PipeSystem × List PipeObs :=
  let ring := s.ring
  if pipeRingReadable ring = 0 then
    -- end of file, O_NONBLOCK and a pending signal return
    if ring.closed ∨ ring.writers = 0 ∨ r.nonblock ∨ env.signal then (s.setTask t .idle, [])
    else if !r.spun then (s.setTask t (.reading { r with spun := true, pc := .relock }), [])
    else
      ({ s with ring := { ring with readWaiters := ring.readWaiters + 1 }, readWq := s.readWq ++ [t] }.setTask t
        (.reading { r with pc := .prepared }), [])
  else
    let avail := pipeRingReadable ring
    let chunk := if r.size < avail.toNat then r.size.toUInt32 else avail
    match env.fault with
    | some (_, accessOk) =>
      -- nothing consumed: return -EFAULT or start over
      (s.setTask t (if accessOk then .reading { r with pc := .lock } else .idle), [])
    | none =>
      let bytes := pipeRingCopyOut ring chunk
      let ring := pipeRingConsume ring chunk
      let wakeWriters := ring.writeWaiters ≠ 0 ∧ pipeRingWritable ring ≥ ring.writeWakeThreshold
      ({ s with ring := ring }.setTask t (if wakeWriters then .reading { r with pc := .wake } else .idle),
        [.consume t bytes])

/-- The next section of a read call. -/
def pipeReadSection (s : PipeSystem) (t : Nat) (r : ReadCall) (env : PipeEnv) : PipeSystem × List PipeObs :=
  match r.pc with
  | .lock | .relock => pipeReadCheck s t r env
  | .woken =>
    let ring := s.ring
    pipeReadCheck { s with ring := { ring with readWaiters := if ring.readWaiters ≠ 0 then ring.readWaiters - 1 else 0 } }
      t r env
  | .prepared => (s.setTask t (.reading { r with pc := .blocked }), [])
  | .blocked => (s, [])
  | .wake => ((s.setTask t .idle).wakeOneWriter, [])

/-! ## The write path -/

/-- The wait loop of pipe_file_write_user under ring->lock, from its
condition: an atomic write waits for room for all its remaining bytes, a
larger one for any room; then it copies in and produces what fits. -/
def pipeWriteCheck (s : PipeSystem) (t : Nat) (w : WriteCall) (env : PipeEnv) : PipeSystem × List PipeObs :=
  let ring := s.ring
  let remaining := w.data.length - w.written
  let atomic := w.data.length ≤ pipeAtomicSize
  let wakeThreshold : UInt32 := if atomic then remaining.toUInt32 else (min remaining pipeAtomicSize).toUInt32
  let writable := pipeRingWritable ring
  if (if atomic then writable < remaining.toUInt32 else writable = 0) then
    -- a closed pipe, O_NONBLOCK and a pending signal return
    if ring.closed ∨ ring.readers = 0 ∨ w.nonblock ∨ env.signal then (s.setTask t .idle, [])
    else if !w.spun then (s.setTask t (.writing { w with spun := true, pc := .relock }), [])
    else
      let threshold :=
        if ring.writeWaiters = 0 ∨ wakeThreshold < ring.writeWakeThreshold then wakeThreshold else ring.writeWakeThreshold
      ({ s with
          ring := { ring with writeWakeThreshold := threshold, writeWaiters := ring.writeWaiters + 1 }
          writeWq := s.writeWq ++ [t] }.setTask t (.writing { w with pc := .prepared }), [])
  else
    let chunk : UInt32 := if remaining < writable.toNat then remaining.toUInt32 else writable
    let src := (w.data.drop w.written).take chunk.toNat
    match env.fault with
    | some (copied, accessOk) =>
      -- the bytes copied before the fault land in the free part; nothing is produced
      ({ s with ring := pipeRingCopyIn ring (src.take copied) }.setTask t
        (if accessOk then .writing { w with pc := .lock } else .idle), [])
    | none =>
      let wasEmpty := pipeRingReadable ring = 0
      let ring := pipeRingProduce (pipeRingCopyIn ring src) chunk
      let written := w.written + chunk.toNat
      let wakeReaders := wasEmpty ∧ ring.readWaiters ≠ 0
      let task : PipeTask :=
        if wakeReaders then .writing { w with written := written, spun := false, pc := .wake }
        else if written < w.data.length then .writing { w with written := written, spun := false, pc := .lock }
        else .idle
      ({ s with ring := ring }.setTask t task, [.produce t w.data w.written src])

/-- The next section of a write call. -/
def pipeWriteSection (s : PipeSystem) (t : Nat) (w : WriteCall) (env : PipeEnv) : PipeSystem × List PipeObs :=
  match w.pc with
  | .lock => if s.ring.closed ∨ s.ring.readers = 0 then (s.setTask t .idle, []) else pipeWriteCheck s t w env
  | .relock => pipeWriteCheck s t w env
  | .woken =>
    let ring := s.ring
    let waiters := if ring.writeWaiters ≠ 0 then ring.writeWaiters - 1 else 0
    pipeWriteCheck
      { s with ring := { ring with
          writeWaiters := waiters
          writeWakeThreshold := if waiters = 0 then 0 else ring.writeWakeThreshold } } t w env
  | .prepared => (s.setTask t (.writing { w with pc := .blocked }), [])
  | .blocked => (s, [])
  | .wake =>
    let s := s.wakeOneReader
    (s.setTask t (if w.written < w.data.length then .writing { w with pc := .lock } else .idle), [])

/-! ## Events -/

/-- What can happen next: a task enters the pipe code, takes its next
section, or is woken by task_wakeup (a signal); an end is opened or
released; the last reference closes the node. -/
inductive PipeEvent
  | read (t : Nat) (size : Nat) (nonblock : Bool)
  | write (t : Nat) (data : List UInt8) (nonblock : Bool)
  | run (t : Nat) (env : PipeEnv)
  | wakeup (t : Nat)
  | openEnd (readable writable : Bool)
  | release (readable writable : Bool)
  | close

/-- pipe_file_open on an anonymous pipe: count the end and wake both
queues. -/
def pipeFileOpen (s : PipeSystem) (readable writable : Bool) : PipeSystem :=
  if s.ring.closed then s
  else
    let ring := s.ring
    let ring := if readable then { ring with readers := ring.readers + 1 } else ring
    let ring := if writable then { ring with writers := ring.writers + 1 } else ring
    { s with ring := ring }.wakeAllReaders.wakeAllWriters

/-- pipe_file_release: uncount the end; the last reader wakes the writers
and the last writer the readers. -/
def pipeFileRelease (s : PipeSystem) (readable writable : Bool) : PipeSystem :=
  let ring := s.ring
  let lastReader := readable ∧ ring.readers ≠ 0 ∧ ring.readers - 1 = 0
  let ring := if readable ∧ ring.readers ≠ 0 then { ring with readers := ring.readers - 1 } else ring
  let lastWriter := writable ∧ ring.writers ≠ 0 ∧ ring.writers - 1 = 0
  let ring := if writable ∧ ring.writers ≠ 0 then { ring with writers := ring.writers - 1 } else ring
  let s := { s with ring := ring }
  let s := if lastReader then s.wakeAllWriters else s
  if lastWriter then s.wakeAllReaders else s

/-- pipe_vfs_close: the node goes away; everyone is woken. -/
def pipeVfsClose (s : PipeSystem) : PipeSystem :=
  { s with ring := { s.ring with closed := true, readers := 0, writers := 0 } }.wakeAllReaders.wakeAllWriters

/-- task_wakeup of a task waiting on one of the queues. -/
def pipeTaskWakeup (s : PipeSystem) (t : Nat) : PipeSystem :=
  if t ∈ s.readWq ∨ t ∈ s.writeWq then
    { s with
      tasks := Function.update s.tasks t (s.tasks t).wake
      readWq := s.readWq.erase t
      writeWq := s.writeWq.erase t }
  else s

/-- One event. -/
def pipeStep (s : PipeSystem) : PipeEvent → PipeSystem × List PipeObs
  | .read t size nonblock =>
    if s.tasks t = .idle ∧ size ≠ 0 then (s.setTask t (.reading ⟨size, nonblock, false, .lock⟩), []) else (s, [])
  | .write t data nonblock =>
    if s.tasks t = .idle ∧ data ≠ [] then (s.setTask t (.writing ⟨data, nonblock, 0, false, .lock⟩), []) else (s, [])
  | .run t env =>
    match s.tasks t with
    | .idle => (s, [])
    | .reading r => pipeReadSection s t r env
    | .writing w => pipeWriteSection s t w env
  | .wakeup t => (pipeTaskWakeup s t, [])
  | .openEnd readable writable => (pipeFileOpen s readable writable, [])
  | .release readable writable => (pipeFileRelease s readable writable, [])
  | .close => (pipeVfsClose s, [])

/-- A run of events, with what its sections moved in step order. -/
def pipeRun : PipeSystem → List PipeEvent → PipeSystem × List PipeObs
  | s, [] => (s, [])
  | s, e :: es => ((pipeRun (pipeStep s e).1 es).1, (pipeStep s e).2 ++ (pipeRun (pipeStep s e).1 es).2)

end Uinxed.Pipe
