/-
  Ipc/PipeWake.lean --- who wakes whom on a pipe.

  A writer wakes one reader, and only when its transfer found the ring
  empty; a reader wakes one writer, and only when enough room is left.  A
  reader taken off read_wq that reads less than the ring holds wakes no other
  reader, and the next write finds the ring not empty and wakes none either.
  So with two readers asleep, one write and one short read leave the second
  reader asleep on read_wq while the ring holds bytes and has a writer, and
  no task is left in the pipe code that could wake it.

  The frame lemmas say which tasks a step can touch: the task it runs, and
  the waiters it takes off a queue.  A task that no event names stays idle.
-/
import Uinxed.Ipc.PipeStream

set_option autoImplicit false

namespace Uinxed.Pipe

/-! ## Which tasks a step touches -/

/-- The task an event runs or starts, if any. -/
def PipeEvent.task? : PipeEvent → Option Nat
  | .read t _ _ => some t
  | .write t _ _ => some t
  | .run t _ => some t
  | .wakeup t => some t
  | _ => none

@[simp] theorem PipeTask.wake_idle : PipeTask.idle.wake = .idle := rfl

theorem wakeOne_idle {tasks : Nat → PipeTask} {t : Nat} (hidle : tasks t = .idle) (queue : List Nat) :
    (wakeOne tasks queue).1 t = .idle := by
  cases queue with
  | nil => exact hidle
  | cons u rest =>
    by_cases htu : t = u
    · subst htu
      simp [wakeOne, hidle]
    · simpa [wakeOne, Function.update_of_ne htu] using hidle

theorem wakeAll_idle {tasks : Nat → PipeTask} {t : Nat} (hidle : tasks t = .idle) (queue : List Nat) :
    wakeAll tasks queue t = .idle := by
  rw [wakeAll_apply, hidle]
  split <;> rfl

section Frame

variable {s : PipeSystem} {t u : Nat} (hidle : s.tasks t = .idle) (hne : t ≠ u)
include hidle hne

theorem pipeReadCheck_idle (r : ReadCall) (env : PipeEnv) : (pipeReadCheck s u r env).1.tasks t = .idle := by
  unfold pipeReadCheck
  dsimp only
  split
  · split
    · simpa [Function.update_of_ne hne] using hidle
    · split <;> simpa [Function.update_of_ne hne] using hidle
  · split <;> simpa [Function.update_of_ne hne] using hidle

theorem pipeWriteCheck_idle (w : WriteCall) (env : PipeEnv) : (pipeWriteCheck s u w env).1.tasks t = .idle := by
  unfold pipeWriteCheck
  dsimp only
  by_cases hwait : if w.data.length ≤ pipeAtomicSize then pipeRingWritable s.ring < (w.data.length - w.written).toUInt32
      else pipeRingWritable s.ring = 0
  · rw [if_pos hwait]
    split
    · simpa [Function.update_of_ne hne] using hidle
    · split <;> simpa [Function.update_of_ne hne] using hidle
  · rw [if_neg hwait]
    split <;> simpa [Function.update_of_ne hne] using hidle

theorem pipeReadSection_idle (r : ReadCall) (env : PipeEnv) : (pipeReadSection s u r env).1.tasks t = .idle := by
  unfold pipeReadSection
  split
  · exact pipeReadCheck_idle hidle hne r env
  · exact pipeReadCheck_idle hidle hne r env
  · exact pipeReadCheck_idle
      (s := { s with ring := { s.ring with readWaiters := if s.ring.readWaiters ≠ 0 then s.ring.readWaiters - 1 else 0 } })
      hidle hne r env
  · simpa [Function.update_of_ne hne] using hidle
  · exact hidle
  · exact wakeOne_idle (by simpa [Function.update_of_ne hne] using hidle) _

theorem pipeWriteSection_idle (w : WriteCall) (env : PipeEnv) :
    (pipeWriteSection s u w env).1.tasks t = .idle := by
  unfold pipeWriteSection
  split
  · split
    · simpa [Function.update_of_ne hne] using hidle
    · exact pipeWriteCheck_idle hidle hne w env
  · exact pipeWriteCheck_idle hidle hne w env
  · exact pipeWriteCheck_idle
      (s := { s with ring := { s.ring with
        writeWaiters := if s.ring.writeWaiters ≠ 0 then s.ring.writeWaiters - 1 else 0
        writeWakeThreshold :=
          if (if s.ring.writeWaiters ≠ 0 then s.ring.writeWaiters - 1 else 0) = 0 then 0 else s.ring.writeWakeThreshold } })
      hidle hne w env
  · simpa [Function.update_of_ne hne] using hidle
  · exact hidle
  · simpa [PipeSystem.wakeOneReader, Function.update_of_ne hne] using wakeOne_idle hidle s.readWq

end Frame

/-- A task that an event does not name stays idle. -/
theorem pipeStep_idle {s : PipeSystem} {t : Nat} (hidle : s.tasks t = .idle) (e : PipeEvent)
    (hne : e.task? ≠ some t) : (pipeStep s e).1.tasks t = .idle := by
  cases e with
  | read u size nonblock =>
    have htu : t ≠ u := fun h => hne (by simp [PipeEvent.task?, h])
    simp only [pipeStep]
    split
    · simpa [Function.update_of_ne htu] using hidle
    · exact hidle
  | write u data nonblock =>
    have htu : t ≠ u := fun h => hne (by simp [PipeEvent.task?, h])
    simp only [pipeStep]
    split
    · simpa [Function.update_of_ne htu] using hidle
    · exact hidle
  | run u env =>
    have htu : t ≠ u := fun h => hne (by simp [PipeEvent.task?, h])
    simp only [pipeStep]
    split
    · exact hidle
    · exact pipeReadSection_idle hidle htu _ env
    · exact pipeWriteSection_idle hidle htu _ env
  | wakeup u =>
    have htu : t ≠ u := fun h => hne (by simp [PipeEvent.task?, h])
    simp only [pipeStep, pipeTaskWakeup]
    split
    · simpa [Function.update_of_ne htu] using hidle
    · exact hidle
  | openEnd readable writable =>
    simp only [pipeStep, pipeFileOpen]
    split
    · exact hidle
    · exact wakeAll_idle (wakeAll_idle hidle _) _
  | release readable writable =>
    -- the last reader wakes the writers, then the last writer the readers
    have hwriters : ∀ {s' : PipeSystem} (c : Prop) [Decidable c], s'.tasks t = .idle →
        (if c then s'.wakeAllWriters else s').tasks t = .idle := by
      intro s' c _ h'
      split
      · exact wakeAll_idle h' _
      · exact h'
    have hreaders : ∀ {s' : PipeSystem} (c : Prop) [Decidable c], s'.tasks t = .idle →
        (if c then s'.wakeAllReaders else s').tasks t = .idle := by
      intro s' c _ h'
      split
      · exact wakeAll_idle h' _
      · exact h'
    simp only [pipeStep, pipeFileRelease]
    exact hreaders _ (hwriters _ hidle)
  | close => exact wakeAll_idle (wakeAll_idle hidle _) _

/-- A task that no event of a run names stays idle through it. -/
theorem pipeRun_idle {s : PipeSystem} {t : Nat} (hidle : s.tasks t = .idle) (events : List PipeEvent)
    (hne : ∀ e ∈ events, e.task? ≠ some t) : (pipeRun s events).1.tasks t = .idle := by
  induction events generalizing s with
  | nil => exact hidle
  | cons e rest ih =>
    exact ih (pipeStep_idle hidle e (hne e (by simp))) (fun e' he' => hne e' (by simp [he']))

/-! ## Two readers and one short read -/

/-- No section of the pipe code is pending for the task: it is idle, or
asleep on a wait queue. -/
def PipeTask.Quiet : PipeTask → Prop
  | .idle => True
  | .reading r => r.pc = .blocked
  | .writing w => w.pc = .blocked

/-- The wake-up the pipe owes a reader and never gives: no task has a section
of the pipe code pending, yet reader t sleeps on read_wq while the ring holds
a byte and has a writer. -/
def PipeSystem.ReaderStalled (s : PipeSystem) (t : Nat) : Prop :=
  (∀ u, (s.tasks u).Quiet) ∧ t ∈ s.readWq ∧ (∃ r : ReadCall, s.tasks t = .reading r ∧ r.pc = .blocked) ∧
    s.ring.size ≠ 0 ∧ s.ring.writers ≠ 0

/-- Two readers of five bytes fall asleep on an empty pipe; a writer writes
ten bytes and wakes the first reader, which takes its five. -/
def twoReadersShortRead : List PipeEvent :=
  [.openEnd true true,
    .read 1 5 false, .run 1 ⟨false, none⟩, .run 1 ⟨false, none⟩, .run 1 ⟨false, none⟩,
    .read 2 5 false, .run 2 ⟨false, none⟩, .run 2 ⟨false, none⟩, .run 2 ⟨false, none⟩,
    .write 3 (List.replicate 10 0x61) false, .run 3 ⟨false, none⟩, .run 3 ⟨false, none⟩,
    .run 1 ⟨false, none⟩]

/-- After that run the second reader is stalled: asleep on read_wq with five
bytes in the ring and the writer's end still open. -/
theorem pipe_reader_stalls_after_short_read :
    (pipeRun (PipeSystem.init fun _ => 0) twoReadersShortRead).1.ReaderStalled 2 := by
  set s := (pipeRun (PipeSystem.init fun _ => 0) twoReadersShortRead).1
  -- the run names tasks 1, 2 and 3 only; every other task stays idle
  have hnamed : ∀ e ∈ twoReadersShortRead, e.task? = none ∨ e.task? = some 1 ∨ e.task? = some 2 ∨
      e.task? = some 3 := by decide
  have hothers : ∀ t, t ≠ 1 → t ≠ 2 → t ≠ 3 → s.tasks t = .idle := by
    intro t h1 h2 h3
    refine pipeRun_idle rfl _ fun e he heq => ?_
    rcases hnamed e he with h | h | h | h <;> rw [h] at heq <;> simp_all
  have h1 : s.tasks 1 = .idle := by decide
  have h2 : s.tasks 2 = .reading ⟨5, false, true, .blocked⟩ := by decide
  have h3 : s.tasks 3 = .idle := by decide
  refine ⟨fun t => ?_, by decide, ⟨_, h2, rfl⟩, by decide, by decide⟩
  by_cases ht1 : t = 1
  · rw [ht1, h1]
    trivial
  by_cases ht2 : t = 2
  · rw [ht2, h2]
    rfl
  by_cases ht3 : t = 3
  · rw [ht3, h3]
    trivial
  rw [hothers t ht1 ht2 ht3]
  trivial

end Uinxed.Pipe
