/-
  Ipc/PipeStream.lean --- what every interleaving of pipe readers and
  writers keeps: the ring invariant, and one byte stream.

  Each step moves the ring's bytes in one of four ways (RingMove): not at
  all, a scribble of a faulted copy into the free part, a consume that reads
  the first bytes, or a copy in and produce that appends a write call's next
  chunk.  From that, over a whole run: the ring stays Valid, and the bytes
  the reads returned followed by the unread contents are the bytes the
  writes produced, in step order.  A write of at most PIPE_ATOMIC_SIZE bytes
  is produced by one section, all of its bytes at once.

  The last fact rests on the calls' own invariant (WriteCall.Ok): an atomic
  write that has not finished has written nothing, so its one transfer takes
  all of its bytes.  That in turn needs the wait queues' invariant: a task on
  a queue is about to sleep or asleep, and no task waits twice.
-/
import Mathlib.Data.List.Nodup
import Uinxed.Ipc.PipeIo

set_option autoImplicit false

namespace Uinxed.Pipe

/-! ## The calls' invariant -/

/-- A write call has written at most its bytes, all but the last section
have some left, and an atomic write has written none or all. -/
structure WriteCall.Ok (w : WriteCall) : Prop where
  written_le : w.written ≤ w.data.length
  written_lt : w.pc ≠ .wake → w.written < w.data.length
  atomic : w.data.length ≤ pipeAtomicSize → w.written = 0 ∨ w.written = w.data.length

/-- The calls' invariant of a task. -/
def PipeTask.Ok : PipeTask → Prop
  | .writing w => w.Ok
  | _ => True

/-- A task on a wait queue: about to sleep, or asleep. -/
def PipeTask.Waiting : PipeTask → Prop
  | .idle => False
  | .reading r => r.pc = .prepared ∨ r.pc = .blocked
  | .writing w => w.pc = .prepared ∨ w.pc = .blocked

@[simp] theorem PipeTask.ok_idle : PipeTask.idle.Ok := trivial

@[simp] theorem PipeTask.ok_reading (r : ReadCall) : (PipeTask.reading r).Ok := trivial

theorem PipeTask.Ok.ite {c : Prop} [Decidable c] {a b : PipeTask} (ha : c → a.Ok) (hb : ¬ c → b.Ok) :
    (if c then a else b).Ok := by
  split
  · exact ha ‹_›
  · exact hb ‹_›

theorem PipeTask.Ok.writing {w : WriteCall} (hw : w.Ok) : (PipeTask.writing w).Ok := hw

theorem PipeTask.Ok.wake {task : PipeTask} (hok : task.Ok) (hw : task.Waiting) : task.wake.Ok := by
  cases task with
  | idle => trivial
  | reading r => trivial
  | writing w =>
    have hnw : w.pc ≠ .wake := by rcases hw with h | h <;> simp [h]
    exact ⟨hok.written_le, fun _ => hok.written_lt hnw, hok.atomic⟩

theorem PipeTask.wake_wake (task : PipeTask) : task.wake.wake = task.wake := by
  cases task <;> rfl

/-- The tasks and the queues: every call keeps its invariant, every queued
task waits, and no task waits twice. -/
structure TasksOk (s : PipeSystem) : Prop where
  calls : ∀ t, (s.tasks t).Ok
  waiting : ∀ t ∈ s.readWq ++ s.writeWq, (s.tasks t).Waiting
  nodup : (s.readWq ++ s.writeWq).Nodup

@[simp] theorem PipeSystem.setTask_tasks (s : PipeSystem) (t : Nat) (task : PipeTask) :
    (s.setTask t task).tasks = Function.update s.tasks t task := rfl

@[simp] theorem PipeSystem.setTask_ring (s : PipeSystem) (t : Nat) (task : PipeTask) :
    (s.setTask t task).ring = s.ring := rfl

@[simp] theorem PipeSystem.setTask_readWq (s : PipeSystem) (t : Nat) (task : PipeTask) :
    (s.setTask t task).readWq = s.readWq := rfl

@[simp] theorem PipeSystem.setTask_writeWq (s : PipeSystem) (t : Nat) (task : PipeTask) :
    (s.setTask t task).writeWq = s.writeWq := rfl

theorem wakeAll_apply (tasks : Nat → PipeTask) (queue : List Nat) (t : Nat) :
    wakeAll tasks queue t = if t ∈ queue then (tasks t).wake else tasks t := by
  induction queue generalizing tasks with
  | nil => rfl
  | cons u rest ih =>
    simp only [wakeAll, List.foldl_cons] at ih ⊢
    rw [ih]
    by_cases htu : t = u
    · subst htu
      simp [PipeTask.wake_wake]
    · simp [htu]

section TasksOk

variable {s : PipeSystem} (h : TasksOk s)
include h

theorem TasksOk.not_mem {t : Nat} (hnw : ¬ (s.tasks t).Waiting) : t ∉ s.readWq ++ s.writeWq :=
  fun hmem => hnw (h.waiting t hmem)

theorem TasksOk.ring (ring : PipeRing) : TasksOk { s with ring := ring } := ⟨h.calls, h.waiting, h.nodup⟩

/-- A task that is on no queue may take any state that keeps its call's
invariant. -/
theorem TasksOk.setTask {t : Nat} {task : PipeTask} (hnot : t ∉ s.readWq ++ s.writeWq) (hok : task.Ok) :
    TasksOk (s.setTask t task) where
  calls u := by
    by_cases hu : u = t
    · subst hu
      simpa using hok
    · simpa [Function.update_of_ne hu] using h.calls u
  waiting u hu := by
    have hne : u ≠ t := fun heq => hnot (heq ▸ hu)
    simpa [Function.update_of_ne hne] using h.waiting u hu
  nodup := h.nodup

/-- A task may move between waiting states whether or not it is queued. -/
theorem TasksOk.setTask_waiting {t : Nat} {task : PipeTask} (hok : task.Ok) (hw : task.Waiting) :
    TasksOk (s.setTask t task) where
  calls u := by
    by_cases hu : u = t
    · subst hu
      simpa using hok
    · simpa [Function.update_of_ne hu] using h.calls u
  waiting u hu := by
    by_cases hne : u = t
    · subst hne
      simpa using hw
    · simpa [Function.update_of_ne hne] using h.waiting u hu
  nodup := h.nodup

/-- A task on no queue joins the end of the read queue and waits. -/
theorem TasksOk.enqueueRead {t : Nat} {task : PipeTask} (hnot : t ∉ s.readWq ++ s.writeWq) (hok : task.Ok)
    (hw : task.Waiting) (ring : PipeRing) :
    TasksOk ({ s with ring := ring, readWq := s.readWq ++ [t] }.setTask t task) where
  calls := ((h.ring ring).setTask hnot hok).calls
  waiting u hu := by
    by_cases hne : u = t
    · subst hne
      simpa using hw
    · have hu' : u ∈ s.readWq ++ s.writeWq := by simp_all
      simpa [Function.update_of_ne hne] using h.waiting u hu'
  nodup := by
    have hperm : (s.readWq ++ [t] ++ s.writeWq).Perm (t :: (s.readWq ++ s.writeWq)) := by
      simp
    exact hperm.nodup_iff.mpr (List.nodup_cons.mpr ⟨hnot, h.nodup⟩)

/-- The same for the write queue. -/
theorem TasksOk.enqueueWrite {t : Nat} {task : PipeTask} (hnot : t ∉ s.readWq ++ s.writeWq) (hok : task.Ok)
    (hw : task.Waiting) (ring : PipeRing) :
    TasksOk ({ s with ring := ring, writeWq := s.writeWq ++ [t] }.setTask t task) where
  calls := ((h.ring ring).setTask hnot hok).calls
  waiting u hu := by
    by_cases hne : u = t
    · subst hne
      simpa using hw
    · have hu' : u ∈ s.readWq ++ s.writeWq := by simp_all
      simpa [Function.update_of_ne hne] using h.waiting u hu'
  nodup := by
    have hperm : (s.readWq ++ (s.writeWq ++ [t])).Perm (t :: (s.readWq ++ s.writeWq)) := by
      rw [← List.append_assoc]
      exact List.perm_append_singleton _ _
    exact hperm.nodup_iff.mpr (List.nodup_cons.mpr ⟨hnot, h.nodup⟩)

/-- Waking the first reader. -/
theorem TasksOk.wakeOneReader : TasksOk s.wakeOneReader := by
  unfold PipeSystem.wakeOneReader
  cases hq : s.readWq with
  | nil => exact ⟨h.calls, by simpa [wakeOne, hq] using h.waiting, by simpa [wakeOne, hq] using h.nodup⟩
  | cons u rest =>
    simp only [wakeOne]
    have hnd : (u :: (rest ++ s.writeWq)).Nodup := by simpa [hq] using h.nodup
    have hu : u ∉ rest ++ s.writeWq := (List.nodup_cons.mp hnd).1
    have hwu : (s.tasks u).Waiting := h.waiting u (by simp [hq])
    refine ⟨fun v => ?_, fun v hv => ?_, (List.nodup_cons.mp hnd).2⟩
    · by_cases hvu : v = u
      · subst hvu
        simpa [wakeOne] using (h.calls v).wake hwu
      · simpa [wakeOne, Function.update_of_ne hvu] using h.calls v
    · have hvu : v ≠ u := fun heq => hu (heq ▸ hv)
      have hv' : v ∈ s.readWq ++ s.writeWq := by simp_all
      simpa [wakeOne, Function.update_of_ne hvu] using h.waiting v hv'

/-- Waking the first writer. -/
theorem TasksOk.wakeOneWriter : TasksOk s.wakeOneWriter := by
  unfold PipeSystem.wakeOneWriter
  cases hq : s.writeWq with
  | nil => exact ⟨h.calls, by simpa [wakeOne, hq] using h.waiting, by simpa [wakeOne, hq] using h.nodup⟩
  | cons u rest =>
    simp only [wakeOne]
    have hperm : (s.readWq ++ u :: rest).Perm (u :: (s.readWq ++ rest)) := List.perm_middle
    have hnd : (u :: (s.readWq ++ rest)).Nodup := hperm.nodup_iff.mp (by simpa [hq] using h.nodup)
    have hu : u ∉ s.readWq ++ rest := (List.nodup_cons.mp hnd).1
    have hwu : (s.tasks u).Waiting := h.waiting u (by simp [hq])
    refine ⟨fun v => ?_, fun v hv => ?_, (List.nodup_cons.mp hnd).2⟩
    · by_cases hvu : v = u
      · subst hvu
        simpa [wakeOne] using (h.calls v).wake hwu
      · simpa [wakeOne, Function.update_of_ne hvu] using h.calls v
    · have hvu : v ≠ u := fun heq => hu (heq ▸ hv)
      have hv' : v ∈ s.readWq ++ s.writeWq := by simp_all
      simpa [wakeOne, Function.update_of_ne hvu] using h.waiting v hv'

/-- Waking every reader. -/
theorem TasksOk.wakeAllReaders : TasksOk s.wakeAllReaders where
  calls t := by
    simp only [PipeSystem.wakeAllReaders, wakeAll_apply]
    split
    · exact (h.calls t).wake (h.waiting t (List.mem_append_left _ ‹_›))
    · exact h.calls t
  waiting t ht := by
    have hnd := h.nodup
    simp only [PipeSystem.wakeAllReaders, List.nil_append] at ht ⊢
    have hr : t ∉ s.readWq := fun hr => List.disjoint_of_nodup_append hnd hr ht
    rw [wakeAll_apply, if_neg hr]
    exact h.waiting t (List.mem_append_right _ ht)
  nodup := by simpa [PipeSystem.wakeAllReaders] using h.nodup.of_append_right

/-- Waking every writer. -/
theorem TasksOk.wakeAllWriters : TasksOk s.wakeAllWriters where
  calls t := by
    simp only [PipeSystem.wakeAllWriters, wakeAll_apply]
    split
    · exact (h.calls t).wake (h.waiting t (List.mem_append_right _ ‹_›))
    · exact h.calls t
  waiting t ht := by
    have hnd := h.nodup
    simp only [PipeSystem.wakeAllWriters, List.append_nil] at ht ⊢
    have hw : t ∉ s.writeWq := fun hw => List.disjoint_of_nodup_append hnd ht hw
    rw [wakeAll_apply, if_neg hw]
    exact h.waiting t (List.mem_append_left _ ht)
  nodup := by simpa [PipeSystem.wakeAllWriters] using h.nodup.of_append_left

/-- task_wakeup takes a waiting task off its queue. -/
theorem TasksOk.taskWakeup (t : Nat) : TasksOk (pipeTaskWakeup s t) := by
  unfold pipeTaskWakeup
  split
  · rename_i hmem
    have hw : (s.tasks t).Waiting := h.waiting t (List.mem_append.mpr hmem)
    have hr := h.nodup.of_append_left
    have hq := h.nodup.of_append_right
    refine ⟨fun u => ?_, fun u hu => ?_, ?_⟩
    · by_cases hut : u = t
      · subst hut
        simpa using (h.calls u).wake hw
      · simpa [Function.update_of_ne hut] using h.calls u
    · -- t left both queues, so a queued u is another task
      have hut : u ≠ t := by
        rintro rfl
        rcases List.mem_append.mp hu with hu | hu
        · exact hr.not_mem_erase hu
        · exact hq.not_mem_erase hu
      have hu' : u ∈ s.readWq ++ s.writeWq := by
        rcases List.mem_append.mp hu with hu | hu
        · exact List.mem_append_left _ (List.mem_of_mem_erase hu)
        · exact List.mem_append_right _ (List.mem_of_mem_erase hu)
      simpa [Function.update_of_ne hut] using h.waiting u hu'
    · exact h.nodup.sublist ((List.erase_sublist).append (List.erase_sublist))
  · exact h

theorem TasksOk.fileOpen (readable writable : Bool) : TasksOk (pipeFileOpen s readable writable) := by
  unfold pipeFileOpen
  split
  · exact h
  · exact ((h.ring _).wakeAllReaders).wakeAllWriters

theorem TasksOk.fileRelease (readable writable : Bool) : TasksOk (pipeFileRelease s readable writable) := by
  -- the last reader wakes the writers, then the last writer the readers
  have hwriters : ∀ {s' : PipeSystem} (c : Prop) [Decidable c], TasksOk s' →
      TasksOk (if c then s'.wakeAllWriters else s') := by
    intro s' c _ h'
    split
    · exact h'.wakeAllWriters
    · exact h'
  have hreaders : ∀ {s' : PipeSystem} (c : Prop) [Decidable c], TasksOk s' →
      TasksOk (if c then s'.wakeAllReaders else s') := by
    intro s' c _ h'
    split
    · exact h'.wakeAllReaders
    · exact h'
  unfold pipeFileRelease
  dsimp only
  exact hreaders _ (hwriters _ (h.ring _))

theorem TasksOk.vfsClose : TasksOk (pipeVfsClose s) := ((h.ring _).wakeAllReaders).wakeAllWriters


end TasksOk

/-! ## How a step moves the bytes -/

/-- The bytes a read returned. -/
def PipeObs.consumed : PipeObs → List UInt8
  | .produce .. => []
  | .consume _ chunk => chunk

/-- The bytes a write section produced. -/
def PipeObs.produced : PipeObs → List UInt8
  | .produce _ _ _ chunk => chunk
  | .consume .. => []

/-- A produced chunk is the next bytes of its write call, and the chunk of
a write of at most PIPE_ATOMIC_SIZE bytes is all of it. -/
def PipeObs.Whole : PipeObs → Prop
  | .produce _ data offset chunk =>
    chunk = (data.drop offset).take chunk.length ∧ (data.length ≤ pipeAtomicSize → offset = 0 ∧ chunk = data)
  | .consume .. => True

/-- The bytes the reads of a run returned, in step order. -/
def readBytes (obs : List PipeObs) : List UInt8 := obs.flatMap PipeObs.consumed

/-- The bytes the writes of a run produced, in step order. -/
def writtenBytes (obs : List PipeObs) : List UInt8 := obs.flatMap PipeObs.produced

@[simp] theorem readBytes_nil : readBytes [] = [] := rfl

@[simp] theorem writtenBytes_nil : writtenBytes [] = [] := rfl

@[simp] theorem readBytes_append (o o' : List PipeObs) : readBytes (o ++ o') = readBytes o ++ readBytes o' := by
  simp [readBytes]

@[simp] theorem writtenBytes_append (o o' : List PipeObs) :
    writtenBytes (o ++ o') = writtenBytes o ++ writtenBytes o' := by
  simp [writtenBytes]

/-- What a step does to the ring's bytes and indices, with what it reports:
nothing, a faulted copy into the free part, a consume, or a copy in and
produce of a write call's next bytes. -/
inductive RingMove (ring : PipeRing) : PipeRing → List PipeObs → Prop
  | keep {ring' : PipeRing} : ring.SameData ring' → RingMove ring ring' []
  | scribble {ring' : PipeRing} (src : List UInt8) (hroom : ring.size.toNat + src.length ≤ ring.capacity.toNat) :
      (pipeRingCopyIn ring src).SameData ring' → RingMove ring ring' []
  | consume {ring' : PipeRing} (t : Nat) (count : UInt32) (hcount : count.toNat ≤ ring.size.toNat) :
      (pipeRingConsume ring count).SameData ring' → RingMove ring ring' [.consume t (pipeRingCopyOut ring count)]
  | produce {ring' : PipeRing} (t : Nat) (data : List UInt8) (offset : Nat) (src : List UInt8)
      (hroom : ring.size.toNat + src.length ≤ ring.capacity.toNat) (hsrc : src = (data.drop offset).take src.length)
      (hatomic : data.length ≤ pipeAtomicSize → offset = 0 ∧ src = data) :
      (pipeRingProduce (pipeRingCopyIn ring src) src.length.toUInt32).SameData ring' →
      RingMove ring ring' [.produce t data offset src]

/-- The waiter counts are not the ring's data. -/
theorem PipeRing.sameData_readWaiters (ring : PipeRing) (n : UInt32) : ring.SameData { ring with readWaiters := n } :=
  ⟨rfl, rfl, rfl, rfl, rfl, rfl⟩

theorem PipeRing.sameData_writeWaiters (ring : PipeRing) (n threshold : UInt32) :
    ring.SameData { ring with writeWaiters := n, writeWakeThreshold := threshold } :=
  ⟨rfl, rfl, rfl, rfl, rfl, rfl⟩

theorem PipeRing.sameData_readers (ring : PipeRing) (n : UInt32) : ring.SameData { ring with readers := n } :=
  ⟨rfl, rfl, rfl, rfl, rfl, rfl⟩

theorem PipeRing.sameData_writers (ring : PipeRing) (n : UInt32) : ring.SameData { ring with writers := n } :=
  ⟨rfl, rfl, rfl, rfl, rfl, rfl⟩

theorem PipeRing.SameData.ite {ring a b : PipeRing} {c : Prop} [Decidable c] (ha : ring.SameData a)
    (hb : ring.SameData b) : ring.SameData (if c then a else b) := by
  split
  · exact ha
  · exact hb

section SameData

variable {ring ring₀ : PipeRing} (h : ring.SameData ring₀)
include h

theorem PipeRing.SameData.copyOut (count : UInt32) : pipeRingCopyOut ring₀ count = pipeRingCopyOut ring count := by
  simp only [pipeRingCopyOut, h.buf, h.capacity, h.tail]

theorem PipeRing.SameData.copyIn (src : List UInt8) : (pipeRingCopyIn ring src).SameData (pipeRingCopyIn ring₀ src) :=
  ⟨by simp only [pipeRingCopyIn, h.buf, h.capacity, h.head], h.head, h.tail, h.size, h.capacity, h.indexMask⟩

theorem PipeRing.SameData.consume (count : UInt32) :
    (pipeRingConsume ring count).SameData (pipeRingConsume ring₀ count) :=
  ⟨h.buf, h.head, by simp only [pipeRingConsume, pipeRingAdvance, h.indexMask, h.capacity, h.tail],
    by simp only [pipeRingConsume, h.size], h.capacity, h.indexMask⟩

theorem PipeRing.SameData.produce (count : UInt32) :
    (pipeRingProduce ring count).SameData (pipeRingProduce ring₀ count) :=
  ⟨h.buf, by simp only [pipeRingProduce, pipeRingAdvance, h.indexMask, h.capacity, h.head], h.tail,
    by simp only [pipeRingProduce, h.size], h.capacity, h.indexMask⟩

/-- A move from a ring with the same bytes and indices is a move from this
one. -/
theorem RingMove.of_sameData {ring' : PipeRing} {o : List PipeObs} : RingMove ring₀ ring' o → RingMove ring ring' o
  | .keep h' => .keep (h.trans h')
  | .scribble src hroom h' => .scribble src (by rwa [h.size, h.capacity] at hroom) ((h.copyIn src).trans h')
  | .consume t count hcount h' => by
    rw [h.copyOut]
    exact .consume t count (by rwa [h.size] at hcount) ((h.consume count).trans h')
  | .produce t data offset src hroom hsrc hatomic h' =>
    .produce t data offset src (by rwa [h.size, h.capacity] at hroom) hsrc hatomic
      (((h.copyIn src).produce _).trans h')

end SameData

section Move

variable {ring ring' : PipeRing} {o : List PipeObs} (hv : ring.Valid)
include hv

theorem RingMove.valid : RingMove ring ring' o → ring'.Valid
  | .keep h => hv.of_sameData h
  | .scribble src _ h => (hv.copyIn src).of_sameData h
  | .consume _ _ hcount h => (hv.consume hcount).of_sameData h
  | .produce _ _ _ src hroom _ _ h => by
    have hcount : src.length.toUInt32.toNat = src.length :=
      UInt32.toNat_ofNat_of_lt' (by unfold UInt32.size; have := hv.capacity_le; omega)
    exact ((hv.copyIn src).produce (by rw [hcount]; exact hroom)).of_sameData h

/-- The bytes a move reads, then the contents after it, are the contents
before it, then the bytes it writes. -/
theorem RingMove.stream : RingMove ring ring' o → readBytes o ++ ring'.contents = ring.contents ++ writtenBytes o
  | .keep h => by simp [PipeRing.contents_of_sameData h]
  | .scribble src hroom h => by simp [PipeRing.contents_of_sameData h, PipeRing.contents_copyIn hv hroom]
  | .consume t count hcount h => by
    have hread : readBytes [.consume t (pipeRingCopyOut ring count)] = ring.contents.take count.toNat := by
      simp [readBytes, PipeObs.consumed, pipeRingCopyOut_eq_take hv hcount]
    rw [hread, PipeRing.contents_of_sameData h, PipeRing.contents_consume hv hcount, List.take_append_drop]
    simp [writtenBytes, PipeObs.produced]
  | .produce _ _ _ src hroom _ _ h => by
    rw [PipeRing.contents_of_sameData h, PipeRing.contents_produce_copyIn hv hroom]
    simp [readBytes, writtenBytes, PipeObs.consumed, PipeObs.produced]

end Move

theorem RingMove.whole {ring ring' : PipeRing} {o : List PipeObs} : RingMove ring ring' o → ∀ x ∈ o, x.Whole
  | .keep _ => by simp
  | .scribble _ _ _ => by simp
  | .consume _ _ _ _ => by simp [PipeObs.Whole]
  | .produce _ _ _ _ _ hsrc hatomic _ => by simpa [PipeObs.Whole] using ⟨hsrc, hatomic⟩

/-! ## One section -/

/-- The chunk a read takes is at most the unread bytes. -/
theorem readChunk_le (ring : PipeRing) (size : Nat) :
    (if size < (pipeRingReadable ring).toNat then size.toUInt32 else pipeRingReadable ring).toNat ≤ ring.size.toNat := by
  split
  · rename_i hlt
    rw [UInt32.toNat_ofNat_of_lt' (Nat.lt_trans hlt (UInt32.toNat_lt _))]
    exact Nat.le_of_lt hlt
  · exact Nat.le_refl _

/-- The chunk a write takes when it does not wait: at most the bytes left
and the room, and all the bytes left for an atomic write. -/
theorem writeChunk_spec {ring : PipeRing} (hv : ring.Valid) {w : WriteCall} (hlt : w.written < w.data.length)
    (hgo : ¬ (if w.data.length ≤ pipeAtomicSize then pipeRingWritable ring < (w.data.length - w.written).toUInt32
      else pipeRingWritable ring = 0)) :
    (if w.data.length - w.written < (pipeRingWritable ring).toNat then (w.data.length - w.written).toUInt32
        else pipeRingWritable ring).toNat ≤ w.data.length - w.written ∧
      ring.size.toNat + (if w.data.length - w.written < (pipeRingWritable ring).toNat then
        (w.data.length - w.written).toUInt32 else pipeRingWritable ring).toNat ≤ ring.capacity.toNat ∧
      (w.data.length ≤ pipeAtomicSize → (if w.data.length - w.written < (pipeRingWritable ring).toNat then
        (w.data.length - w.written).toUInt32 else pipeRingWritable ring).toNat = w.data.length - w.written) := by
  have hwritable : (pipeRingWritable ring).toNat = ring.capacity.toNat - ring.size.toNat :=
    UInt32.toNat_sub_of_le _ _ (UInt32.le_iff_toNat_le.mpr hv.size_le)
  have hsize := hv.size_le
  split
  · -- all the bytes left fit
    rename_i hfit
    rw [UInt32.toNat_ofNat_of_lt' (Nat.lt_trans hfit (UInt32.toNat_lt _))]
    exact ⟨Nat.le_refl _, by omega, fun _ => rfl⟩
  · -- the chunk is the room; an atomic write only gets here with room for all
    rename_i hroom
    refine ⟨by omega, by omega, fun hatomic => ?_⟩
    rw [if_pos hatomic, UInt32.lt_iff_toNat_lt, UInt32.toNat_ofNat_of_lt' (by unfold UInt32.size pipeAtomicSize at *; omega)]
      at hgo
    omega

section Section

variable {s : PipeSystem} (h : TasksOk s) {t : Nat} (hnot : t ∉ s.readWq ++ s.writeWq)
include h hnot

/-- A read section from its wait condition. -/
theorem pipeReadCheck_step (r : ReadCall) (env : PipeEnv) :
    TasksOk (pipeReadCheck s t r env).1 ∧
      RingMove s.ring (pipeReadCheck s t r env).1.ring (pipeReadCheck s t r env).2 := by
  unfold pipeReadCheck
  dsimp only
  split
  · -- the ring is empty: return, spin, or queue up
    split
    · exact ⟨h.setTask hnot trivial, .keep (.refl _)⟩
    · split
      · exact ⟨h.setTask hnot trivial, .keep (.refl _)⟩
      · exact ⟨h.enqueueRead hnot (PipeTask.ok_reading _) (Or.inl rfl) _, .keep ⟨rfl, rfl, rfl, rfl, rfl, rfl⟩⟩
  · split
    · -- a faulted copy consumed nothing
      exact ⟨h.setTask hnot (.ite (fun _ => PipeTask.ok_reading _) (fun _ => PipeTask.ok_idle)), .keep (.refl _)⟩
    · exact ⟨(h.ring _).setTask hnot (.ite (fun _ => PipeTask.ok_reading _) (fun _ => PipeTask.ok_idle)),
        .consume t _ (readChunk_le s.ring r.size) (.refl _)⟩

/-- A write section from its wait condition, for a call with bytes left. -/
theorem pipeWriteCheck_step (hv : s.ring.Valid) {w : WriteCall} (hw : w.Ok) (hlt : w.written < w.data.length)
    (env : PipeEnv) :
    TasksOk (pipeWriteCheck s t w env).1 ∧
      RingMove s.ring (pipeWriteCheck s t w env).1.ring (pipeWriteCheck s t w env).2 := by
  -- the call with another pc still has bytes left
  have hpc : ∀ pc spun, (PipeTask.writing { w with spun := spun, pc := pc }).Ok :=
    fun _ _ => PipeTask.Ok.writing ⟨hw.written_le, fun _ => hlt, hw.atomic⟩
  unfold pipeWriteCheck
  dsimp only
  by_cases hwait : if w.data.length ≤ pipeAtomicSize then pipeRingWritable s.ring < (w.data.length - w.written).toUInt32
      else pipeRingWritable s.ring = 0
  · -- no room: return, spin, or queue up
    rw [if_pos hwait]
    split
    · exact ⟨h.setTask hnot PipeTask.ok_idle, .keep (.refl _)⟩
    · split
      · exact ⟨h.setTask hnot (hpc _ _), .keep (.refl _)⟩
      · exact ⟨h.enqueueWrite hnot (hpc _ _) (Or.inl rfl) _, .keep ⟨rfl, rfl, rfl, rfl, rfl, rfl⟩⟩
  · rw [if_neg hwait]
    obtain ⟨hle, hroom, hall⟩ := writeChunk_spec hv hlt hwait
    split
    · -- a faulted copy scribbles into the free part and produces nothing
      refine ⟨(h.ring _).setTask hnot (.ite (fun _ => hpc _ _) (fun _ => PipeTask.ok_idle)), .scribble _ ?_ (.refl _)⟩
      simp only [List.length_take, List.length_drop]
      omega
    · -- the chunk is copied in and produced
      set chunk : UInt32 := if w.data.length - w.written < (pipeRingWritable s.ring).toNat then
        (w.data.length - w.written).toUInt32 else pipeRingWritable s.ring with hchunk
      set src := (w.data.drop w.written).take chunk.toNat with hsrc
      have hlen : src.length = chunk.toNat := by
        simp only [hsrc, List.length_take, List.length_drop]
        omega
      have hcount : src.length.toUInt32 = chunk := by
        rw [hlen]
        exact UInt32.ofNat_toNat
      -- an atomic call that has not finished has written nothing
      have hzero : w.data.length ≤ pipeAtomicSize → w.written = 0 :=
        fun ha => (hw.atomic ha).resolve_right (Nat.ne_of_lt hlt)
      refine ⟨(h.ring _).setTask hnot ?_, .produce t w.data w.written src (by omega) (by rw [hlen]) ?_ ?_⟩
      · refine .ite (fun _ => ?_) (fun _ => .ite (fun hmore => ?_) (fun _ => PipeTask.ok_idle))
        · refine PipeTask.Ok.writing ⟨by dsimp only; omega, fun hne => absurd rfl hne, fun ha => Or.inr ?_⟩
          dsimp only at ha ⊢
          have := hall ha
          have := hzero ha
          omega
        · refine PipeTask.Ok.writing ⟨by dsimp only; omega, fun _ => hmore, fun ha => Or.inr ?_⟩
          dsimp only at ha ⊢
          have := hall ha
          have := hzero ha
          omega
      · intro ha
        refine ⟨hzero ha, ?_⟩
        rw [hsrc, hzero ha, hall ha, hzero ha, List.drop_zero, Nat.sub_zero, List.take_length]
      · rw [hcount]
        exact .refl _

end Section

@[simp] theorem PipeSystem.wakeOneReader_ring (s : PipeSystem) : s.wakeOneReader.ring = s.ring := rfl

@[simp] theorem PipeSystem.wakeOneWriter_ring (s : PipeSystem) : s.wakeOneWriter.ring = s.ring := rfl

theorem PipeSystem.wakeOneReader_queues_subset (s : PipeSystem) :
    s.wakeOneReader.readWq ++ s.wakeOneReader.writeWq ⊆ s.readWq ++ s.writeWq := by
  unfold PipeSystem.wakeOneReader
  cases hq : s.readWq with
  | nil => simp [wakeOne]
  | cons u rest =>
    intro x hx
    simp only [wakeOne, List.mem_append] at hx
    rcases hx with hx | hx <;> simp [hx]

section Dispatch

variable {s : PipeSystem} (h : TasksOk s) {t : Nat}
include h

/-- The next section of a read call. -/
theorem pipeReadSection_step {r : ReadCall} (ht : s.tasks t = .reading r) (env : PipeEnv) :
    TasksOk (pipeReadSection s t r env).1 ∧
      RingMove s.ring (pipeReadSection s t r env).1.ring (pipeReadSection s t r env).2 := by
  -- a call that is not about to sleep or asleep is on no queue
  have hnot : r.pc ≠ .prepared → r.pc ≠ .blocked → t ∉ s.readWq ++ s.writeWq := fun hp hb =>
    h.not_mem (by rw [ht]; rintro (hpc | hpc) <;> contradiction)
  unfold pipeReadSection
  split
  · exact pipeReadCheck_step h (hnot (by simp [*]) (by simp [*])) r env
  · exact pipeReadCheck_step h (hnot (by simp [*]) (by simp [*])) r env
  · -- woken: the waiter count drops before the re-check
    dsimp only
    obtain ⟨hok, hmove⟩ := pipeReadCheck_step
      (h.ring { s.ring with readWaiters := if s.ring.readWaiters ≠ 0 then s.ring.readWaiters - 1 else 0 })
      (hnot (by simp [*]) (by simp [*])) r env
    exact ⟨hok, hmove.of_sameData (PipeRing.sameData_readWaiters _ _)⟩
  · exact ⟨h.setTask_waiting trivial (Or.inr rfl), .keep (.refl _)⟩
  · exact ⟨h, .keep (.refl _)⟩
  · exact ⟨(h.setTask (hnot (by simp [*]) (by simp [*])) PipeTask.ok_idle).wakeOneWriter, .keep (.refl _)⟩

/-- The next section of a write call. -/
theorem pipeWriteSection_step (hv : s.ring.Valid) {w : WriteCall} (ht : s.tasks t = .writing w) (env : PipeEnv) :
    TasksOk (pipeWriteSection s t w env).1 ∧
      RingMove s.ring (pipeWriteSection s t w env).1.ring (pipeWriteSection s t w env).2 := by
  have hw : w.Ok := by
    have hcall := h.calls t
    rw [ht] at hcall
    exact hcall
  have hnot : w.pc ≠ .prepared → w.pc ≠ .blocked → t ∉ s.readWq ++ s.writeWq := fun hp hb =>
    h.not_mem (by rw [ht]; rintro (hpc | hpc) <;> contradiction)
  have hlt : w.pc ≠ .wake → w.written < w.data.length := hw.written_lt
  unfold pipeWriteSection
  split
  · -- the top of the loop: a closed pipe returns
    split
    · exact ⟨h.setTask (hnot (by simp [*]) (by simp [*])) PipeTask.ok_idle, .keep (.refl _)⟩
    · exact pipeWriteCheck_step h (hnot (by simp [*]) (by simp [*])) hv hw (hlt (by simp [*])) env
  · exact pipeWriteCheck_step h (hnot (by simp [*]) (by simp [*])) hv hw (hlt (by simp [*])) env
  · -- woken: the waiter count and the threshold drop before the re-check
    dsimp only
    obtain ⟨hok, hmove⟩ := pipeWriteCheck_step
      (h.ring { s.ring with
        writeWaiters := if s.ring.writeWaiters ≠ 0 then s.ring.writeWaiters - 1 else 0
        writeWakeThreshold :=
          if (if s.ring.writeWaiters ≠ 0 then s.ring.writeWaiters - 1 else 0) = 0 then 0 else s.ring.writeWakeThreshold })
      (hnot (by simp [*]) (by simp [*])) (hv.of_sameData (PipeRing.sameData_writeWaiters _ _ _)) hw
      (hlt (by simp [*])) env
    exact ⟨hok, hmove.of_sameData (PipeRing.sameData_writeWaiters _ _ _)⟩
  · exact ⟨h.setTask_waiting (PipeTask.Ok.writing ⟨hw.written_le, fun _ => hlt (by simp [*]), hw.atomic⟩)
      (Or.inr rfl), .keep (.refl _)⟩
  · exact ⟨h, .keep (.refl _)⟩
  · -- the wake after the last transfer: go on while bytes are left
    have hout : t ∉ s.wakeOneReader.readWq ++ s.wakeOneReader.writeWq := fun hmem =>
      hnot (by simp [*]) (by simp [*]) (PipeSystem.wakeOneReader_queues_subset s hmem)
    exact ⟨(h.wakeOneReader).setTask hout (.ite (fun hmore => PipeTask.Ok.writing ⟨hw.written_le, fun _ => hmore,
      hw.atomic⟩) (fun _ => PipeTask.ok_idle)), .keep (.refl _)⟩

end Dispatch

/-! ## Events and runs -/

@[simp] theorem PipeSystem.wakeAllReaders_ring (s : PipeSystem) : s.wakeAllReaders.ring = s.ring := rfl

@[simp] theorem PipeSystem.wakeAllWriters_ring (s : PipeSystem) : s.wakeAllWriters.ring = s.ring := rfl

@[simp] theorem pipeTaskWakeup_ring (s : PipeSystem) (t : Nat) : (pipeTaskWakeup s t).ring = s.ring := by
  unfold pipeTaskWakeup
  split <;> rfl

/-- Opening and releasing ends and closing the node change only counters and
the closed flag. -/
theorem pipeFileOpen_sameData (s : PipeSystem) (readable writable : Bool) :
    s.ring.SameData (pipeFileOpen s readable writable).ring := by
  unfold pipeFileOpen
  split
  · exact .refl _
  · have hreaders : s.ring.SameData (if readable then { s.ring with readers := s.ring.readers + 1 } else s.ring) :=
      .ite (PipeRing.sameData_readers _ _) (.refl _)
    exact .ite (hreaders.trans (PipeRing.sameData_writers _ _)) hreaders

theorem pipeFileRelease_sameData (s : PipeSystem) (readable writable : Bool) :
    s.ring.SameData (pipeFileRelease s readable writable).ring := by
  let r₁ := if readable ∧ s.ring.readers ≠ 0 then { s.ring with readers := s.ring.readers - 1 } else s.ring
  have hreaders : s.ring.SameData r₁ := .ite (PipeRing.sameData_readers _ _) (.refl _)
  have hring : s.ring.SameData (if writable ∧ r₁.writers ≠ 0 then { r₁ with writers := r₁.writers - 1 } else r₁) :=
    .ite (hreaders.trans (PipeRing.sameData_writers _ _)) hreaders
  -- the wake-ups that follow leave the ring as it is
  have hrel : (pipeFileRelease s readable writable).ring =
      if writable ∧ r₁.writers ≠ 0 then { r₁ with writers := r₁.writers - 1 } else r₁ := by
    simp only [pipeFileRelease, apply_ite PipeSystem.ring, PipeSystem.wakeAllReaders_ring,
      PipeSystem.wakeAllWriters_ring, ite_self]
    rfl
  rw [hrel]
  exact hring

/-- The ring and the tasks: what every reachable state keeps. -/
structure PipeInv (s : PipeSystem) : Prop where
  valid : s.ring.Valid
  tasks : TasksOk s

theorem pipeInv_init (buf : Nat → UInt8) : PipeInv (PipeSystem.init buf) :=
  ⟨pipeRingAlloc_valid buf, ⟨fun _ => trivial, by simp [PipeSystem.init], by simp [PipeSystem.init]⟩⟩

/-- One event keeps the tasks' invariant and moves the bytes in one of the
four ways. -/
theorem pipeStep_move {s : PipeSystem} (hinv : PipeInv s) (e : PipeEvent) :
    TasksOk (pipeStep s e).1 ∧ RingMove s.ring (pipeStep s e).1.ring (pipeStep s e).2 := by
  have h := hinv.tasks
  cases e with
  | read t size nonblock =>
    simp only [pipeStep]
    split
    · rename_i hidle
      exact ⟨h.setTask (h.not_mem (by rw [hidle.1]; exact id)) trivial, .keep (.refl _)⟩
    · exact ⟨h, .keep (.refl _)⟩
  | write t data nonblock =>
    simp only [pipeStep]
    split
    · rename_i hidle
      have hok : (PipeTask.writing ⟨data, nonblock, 0, false, .lock⟩).Ok :=
        PipeTask.Ok.writing ⟨Nat.zero_le _, fun _ => List.length_pos_iff.mpr hidle.2, fun _ => Or.inl rfl⟩
      exact ⟨h.setTask (h.not_mem (by rw [hidle.1]; exact id)) hok, .keep (.refl _)⟩
    · exact ⟨h, .keep (.refl _)⟩
  | run t env =>
    simp only [pipeStep]
    split
    · exact ⟨h, .keep (.refl _)⟩
    · exact pipeReadSection_step h ‹_› env
    · exact pipeWriteSection_step h hinv.valid ‹_› env
  | wakeup t => exact ⟨h.taskWakeup t, .keep (by simp only [pipeStep, pipeTaskWakeup_ring]; exact .refl _)⟩
  | openEnd readable writable => exact ⟨h.fileOpen readable writable, .keep (pipeFileOpen_sameData s _ _)⟩
  | release readable writable => exact ⟨h.fileRelease readable writable, .keep (pipeFileRelease_sameData s _ _)⟩
  | close => exact ⟨h.vfsClose, .keep ⟨rfl, rfl, rfl, rfl, rfl, rfl⟩⟩

theorem pipeStep_inv {s : PipeSystem} (hinv : PipeInv s) (e : PipeEvent) : PipeInv (pipeStep s e).1 :=
  ⟨(pipeStep_move hinv e).2.valid hinv.valid, (pipeStep_move hinv e).1⟩

/-- Over a run: the invariant holds at its end, the bytes read and then the
contents are the contents at its start and then the bytes written, and every
chunk produced is whole. -/
theorem pipeRun_stream {s : PipeSystem} (hinv : PipeInv s) (events : List PipeEvent) :
    PipeInv (pipeRun s events).1 ∧
      readBytes (pipeRun s events).2 ++ (pipeRun s events).1.ring.contents =
        s.ring.contents ++ writtenBytes (pipeRun s events).2 ∧
      ∀ x ∈ (pipeRun s events).2, x.Whole := by
  induction events generalizing s with
  | nil => simp [pipeRun, hinv]
  | cons e rest ih =>
    -- the step, then the rest of the run from the state it leaves
    obtain ⟨_, hmove⟩ := pipeStep_move hinv e
    obtain ⟨hinv', hstream, hwhole⟩ := ih (pipeStep_inv hinv e)
    refine ⟨hinv', ?_, ?_⟩
    · simp only [pipeRun, readBytes_append, writtenBytes_append, List.append_assoc]
      rw [hstream, ← List.append_assoc, hmove.stream hinv.valid, List.append_assoc]
    · intro x hx
      simp only [pipeRun, List.mem_append] at hx
      rcases hx with hx | hx
      · exact hmove.whole x hx
      · exact hwhole x hx

/-- A write of at most PIPE_ATOMIC_SIZE bytes that was produced stands in
one piece in the stream of written bytes. -/
theorem atomic_infix_writtenBytes {obs : List PipeObs} (hwhole : ∀ x ∈ obs, x.Whole) {t : Nat} {data : List UInt8}
    {offset : Nat} {chunk : List UInt8} (hx : PipeObs.produce t data offset chunk ∈ obs)
    (hatomic : data.length ≤ pipeAtomicSize) : data <:+: writtenBytes obs := by
  have hchunk : chunk = data := ((hwhole _ hx).2 hatomic).2
  subst hchunk
  obtain ⟨pre, post, rfl⟩ := List.append_of_mem hx
  exact ⟨writtenBytes pre, writtenBytes post, by simp [writtenBytes, PipeObs.produced]⟩

/-- Any interleaving of readers and writers on a ring that pipe_ring_alloc
made.  The ring keeps size ≤ capacity and head = (tail + size) mod
capacity.  The bytes the reads returned, followed by the unread bytes, are
the bytes the writes produced: the reads return a prefix of what was
written, nothing lost, repeated or reordered.  Every produced chunk is the
next bytes of its write, and a write of at most PIPE_ATOMIC_SIZE bytes is
produced whole by one section, so it stands in one piece in the stream. -/
theorem pipe_ring_fifo (buf : Nat → UInt8) (events : List PipeEvent) :
    let s := (pipeRun (PipeSystem.init buf) events).1
    let obs := (pipeRun (PipeSystem.init buf) events).2
    s.ring.size.toNat ≤ s.ring.capacity.toNat ∧
      s.ring.head.toNat = (s.ring.tail.toNat + s.ring.size.toNat) % s.ring.capacity.toNat ∧
      readBytes obs ++ s.ring.contents = writtenBytes obs ∧ readBytes obs <+: writtenBytes obs ∧
      (∀ t data offset chunk, PipeObs.produce t data offset chunk ∈ obs →
        chunk = (data.drop offset).take chunk.length ∧
          (data.length ≤ pipeAtomicSize → offset = 0 ∧ chunk = data ∧ data <:+: writtenBytes obs)) := by
  intro s obs
  obtain ⟨hinv, hstream, hwhole⟩ := pipeRun_stream (pipeInv_init buf) events
  have hstream' : readBytes obs ++ s.ring.contents = writtenBytes obs := by
    rw [show (PipeSystem.init buf).ring.contents = [] from pipeRingAlloc_contents buf, List.nil_append] at hstream
    exact hstream
  refine ⟨hinv.valid.size_le, hinv.valid.head_eq, hstream', ⟨s.ring.contents, hstream'⟩, ?_⟩
  intro t data offset chunk hx
  obtain ⟨hnext, hatomic⟩ := hwhole _ hx
  exact ⟨hnext, fun ha => ⟨(hatomic ha).1, (hatomic ha).2, atomic_infix_writtenBytes hwhole hx ha⟩⟩

/-- One write of three bytes, then a read of two. -/
example : readBytes (pipeRun (PipeSystem.init fun _ => 0) [.openEnd true true, .write 1 [1, 2, 3] false,
    .run 1 ⟨false, none⟩, .read 2 2 false, .run 2 ⟨false, none⟩]).2 = [1, 2] := by decide

end Uinxed.Pipe
