/-
  Ipc/FutexTable.lean --- the futex table stays well formed over every run of
  the futex operations.

  TableInv is what every step of Ipc/Futex.lean keeps: the wait queues are
  linked (Sched/WaitQueue.lean), the table lists each entry once and only
  entries already allocated, a task linked in the wait queue of an entry has
  that entry in the table, and a task linked in the wait queue of a PI mutex
  waits on a mutex that was allocated.  The last field does not ask for the
  entry to be in the table: futex_wake_op and futex_requeue free an entry
  while a task sleeps on its PI mutex (Ipc/FutexFree.lean).

  The operations change the wait queues only through the steps of
  Sched/WaitQueue.lean, each of which leaves every task waiting where it was,
  on nothing, or on one queue the operation names; TableInv.withWait turns
  that into the invariant of the new state, once the named queue is allowed
  (QueueOk).  Each helper of the table has its lemma, and the lemma of each
  operation chains them along the operation's own sections.
-/
import Uinxed.Ipc.Futex

set_option autoImplicit false

namespace Uinxed.Futex

open Uinxed.Sched Uinxed.Pi FutexSystem

/-! ## The invariant -/

/-- The queues a task may be linked in: the queue of an entry in the table,
or the queue of a PI mutex that was allocated. -/
def FutexSystem.QueueOk (s : FutexSystem) : FutexQueue → Prop
  | .entry e => e ∈ s.entries
  | .pi e => e < s.nextEntry ∧ (s.entry e).piMutex = true

/-- The futex table is well formed. -/
structure TableInv (s : FutexSystem) : Prop where
  /-- Every task is linked in the queue it waits on, and only there. -/
  linked : s.wait.Linked
  /-- The table lists an entry once. -/
  nodup : s.entries.Nodup
  /-- The table lists only entries already allocated. -/
  lt_next : ∀ e ∈ s.entries, e < s.nextEntry
  /-- A task waits only on an allowed queue. -/
  queue_ok : ∀ t q, (s.wait.tasks t).waitQueue = some q → s.QueueOk q

theorem tableInv_init (mem : Nat → Option UInt32) (pids pidFind : Nat → Option Nat) :
    TableInv (FutexSystem.init mem pids pidFind) :=
  ⟨WaitState.linked_init, List.nodup_nil, fun _ h => absurd h List.not_mem_nil,
    fun _ _ h => by simp [FutexSystem.init, WaitState.init, Waiter.idle] at h⟩

variable {s : FutexSystem}

/-- A state with the same table and the same wait queues. -/
theorem TableInv.congr (h : TableInv s) {s' : FutexSystem} (hw : s'.wait = s.wait) (he : s'.entries = s.entries)
    (hn : s'.nextEntry = s.nextEntry) (hen : s'.entry = s.entry) : TableInv s' := by
  have hq : ∀ q, s.QueueOk q → s'.QueueOk q := by
    intro q hq
    cases q <;> simpa [QueueOk, he, hn, hen] using hq
  exact ⟨hw ▸ h.linked, he ▸ h.nodup, he ▸ hn ▸ h.lt_next, fun t q ht => hq q (h.queue_ok t q (hw ▸ ht))⟩

theorem TableInv.setPc (h : TableInv s) (t : Nat) (p : FutexPc) : TableInv (s.setPc t p) :=
  h.congr rfl rfl rfl rfl

theorem TableInv.setMem (h : TableInv s) (uaddr : Nat) (v : UInt32) : TableInv (s.setMem uaddr v) :=
  h.congr rfl rfl rfl rfl

theorem TableInv.setPi (h : TableInv s) (pi : PiState) : TableInv { s with pi := pi } :=
  h.congr rfl rfl rfl rfl

/-- New wait queues that are linked, and leave every task where it waited,
on nothing, or on an allowed queue. -/
theorem TableInv.withWait (h : TableInv s) {w : WaitState FutexQueue} (hl : w.Linked) {q : Option FutexQueue}
    (hw : WaitState.WaitsWithin s.wait w q) (hq : ∀ p, q = some p → s.QueueOk p) : TableInv { s with wait := w } := by
  refine ⟨hl, h.nodup, h.lt_next, fun t p ht => ?_⟩
  rcases hw t with h' | h' | h'
  · exact h.queue_ok t p (h'.symm.trans ht)
  · simp [h'] at ht
  · exact hq p (h'.symm.trans ht)

/-- New wait queues that only finish waits. -/
theorem TableInv.finishes (h : TableInv s) {w : WaitState FutexQueue} (hl : w.Linked)
    (hw : WaitState.OnlyFinishes s.wait w) : TableInv { s with wait := w } :=
  h.withWait hl (hw.waitsWithin none) fun _ hp => absurd hp (by simp)

theorem TableInv.wakeUpTo (h : TableInv s) (k : Nat) (q : FutexQueue) :
    TableInv { s with wait := (WaitState.wakeUpTo k s.wait q).1 } :=
  h.finishes (h.linked.wakeUpTo k q) (WaitState.onlyFinishes_wakeUpTo k s.wait q)

/-- A wait-queue step that moves no task to a queue. -/
theorem TableInv.waitStep (h : TableInv s) {w : WaitState FutexQueue} (hl : w.Linked)
    (hw : ∀ q, WaitState.WaitsWithin s.wait w q) : TableInv { s with wait := w } :=
  h.withWait hl (hw none) fun _ hp => absurd hp (by simp)

/-! ## The table helpers -/

theorem futexFind_mem {key e : Nat} (hf : futexFind s key = some e) : e ∈ s.entries ∧ (s.entry e).key = key := by
  unfold futexFind at hf
  exact ⟨List.mem_of_find?_eq_some hf, by simpa using List.find?_some hf⟩

theorem futexFindWaiter_mem {key e : Nat} {bitset : UInt64} (hf : futexFindWaiter s key bitset = some e) :
    e ∈ s.entries ∧ (s.entry e).key = key ∧ (s.entry e).bitset = bitset ∧ (s.entry e).piMutex = false := by
  unfold futexFindWaiter at hf
  exact ⟨List.mem_of_find?_eq_some hf, by simpa using List.find?_some hf⟩

/-- A new entry: the table gains it at its head, with an empty queue. -/
theorem TableInv.alloc (h : TableInv s) (key : Nat) (bitset : UInt64) :
    TableInv (s.alloc key bitset) ∧ (s.alloc key bitset).QueueOk (.entry s.nextEntry) ∧
      ∀ q, s.QueueOk q → (s.alloc key bitset).QueueOk q := by
  have hfresh : s.nextEntry ∉ s.entries := fun hm => Nat.lt_irrefl _ (h.lt_next _ hm)
  -- every allowed queue names an entry below the new one
  have hbelow : ∀ q, s.QueueOk q → ∀ e, (q = .entry e ∨ q = .pi e) → e < s.nextEntry := by
    rintro (e | e) hq e' (he | he) <;> cases he
    · exact h.lt_next e hq
    · exact hq.1
  have hmono : ∀ q, s.QueueOk q → (s.alloc key bitset).QueueOk q := by
    rintro (e | e) hq
    · exact List.mem_cons_of_mem _ hq
    · have hne : e ≠ s.nextEntry := Nat.ne_of_lt hq.1
      exact ⟨Nat.lt_succ_of_lt hq.1, by simpa [hne] using hq.2⟩
  have hclear : ∀ t, (s.wait.tasks t).waitQueue ≠ some (.entry s.nextEntry) := by
    intro t ht
    exact Nat.lt_irrefl _ (hbelow _ (h.queue_ok t _ ht) _ (.inl rfl))
  refine ⟨⟨h.linked.clear hclear, List.nodup_cons.mpr ⟨hfresh, h.nodup⟩, fun e he => ?_, fun t q ht => ?_⟩,
    List.mem_cons_self, hmono⟩
  · rcases List.mem_cons.mp he with rfl | he
    · exact Nat.lt_succ_self _
    · exact Nat.lt_succ_of_lt (h.lt_next e he)
  · exact hmono q (h.queue_ok t q ht)

/-- futex_find_or_create keeps the table well formed, keeps every allowed
queue allowed, and returns an entry of the table. -/
theorem TableInv.findOrCreate (h : TableInv s) (key : Nat) (bitset : UInt64) (allocFails : Bool) :
    TableInv (futexFindOrCreate s key bitset allocFails).1 ∧
      (∀ q, s.QueueOk q → (futexFindOrCreate s key bitset allocFails).1.QueueOk q) ∧
      ∀ e, (futexFindOrCreate s key bitset allocFails).2 = some e →
        e ∈ (futexFindOrCreate s key bitset allocFails).1.entries := by
  unfold futexFindOrCreate
  split
  · next e hf =>
    -- only the bitset of the entry changes
    have hpi : ∀ e', ((Function.update s.entry e { s.entry e with bitset := (s.entry e).bitset ||| bitset }) e').piMutex =
        (s.entry e').piMutex := by
      intro e'
      by_cases he : e' = e
      · subst he; simp
      · simp [he]
    have hq : ∀ q, s.QueueOk q →
        ({ s with entry := Function.update s.entry e { s.entry e with bitset := (s.entry e).bitset ||| bitset } } :
          FutexSystem).QueueOk q := by
      rintro (e' | e') hq
      · exact hq
      · exact ⟨hq.1, by rw [← hq.2]; exact hpi e'⟩
    refine ⟨⟨h.linked, h.nodup, h.lt_next, fun t q ht => hq q (h.queue_ok t q ht)⟩, hq, ?_⟩
    rintro e' ⟨⟩
    exact (futexFind_mem hf).1
  · split
    · exact ⟨h, fun _ hq => hq, fun _ he => absurd he (by simp)⟩
    · obtain ⟨ha, hnew, hmono⟩ := h.alloc key bitset
      exact ⟨ha, hmono, by rintro e ⟨⟩; exact hnew⟩

/-- futex_create_waiter, in the same terms. -/
theorem TableInv.createWaiter (h : TableInv s) (key : Nat) (bitset : UInt64) (allocFails : Bool) :
    TableInv (futexCreateWaiter s key bitset allocFails).1 ∧
      (∀ q, s.QueueOk q → (futexCreateWaiter s key bitset allocFails).1.QueueOk q) ∧
      ∀ e, (futexCreateWaiter s key bitset allocFails).2 = some e →
        e ∈ (futexCreateWaiter s key bitset allocFails).1.entries := by
  unfold futexCreateWaiter
  split
  · next e hf =>
    refine ⟨h, fun _ hq => hq, ?_⟩
    rintro e' ⟨⟩
    exact (futexFindWaiter_mem hf).1
  · split
    · exact ⟨h, fun _ hq => hq, fun _ he => absurd he (by simp)⟩
    · obtain ⟨ha, hnew, hmono⟩ := h.alloc key bitset
      exact ⟨ha, hmono, by rintro e ⟨⟩; exact hnew⟩

/-- futex_try_cleanup frees an entry only when no task waits on its queue. -/
theorem TableInv.tryCleanup (h : TableInv s) (o : Option Nat) : TableInv (futexTryCleanup s o).1 := by
  unfold futexTryCleanup
  split
  · exact h
  · next e =>
    split
    · next hempty =>
      refine ⟨h.linked, h.nodup.erase e, fun e' he' => h.lt_next e' (List.mem_of_mem_erase he'), fun t q ht => ?_⟩
      have hq := h.queue_ok t q ht
      cases q with
      | entry e' =>
        -- the freed entry has no waiter, so a waiter's entry is another one
        have hne : e' ≠ e := by
          rintro rfl
          have := (h.linked.mem_iff t (.entry e')).mpr ht
          rw [hempty] at this
          exact List.not_mem_nil this
        exact (List.mem_erase_of_ne hne).mpr hq
      | pi e' => exact hq
    · exact h

theorem TableInv.cleanupPair (h : TableInv s) (e1 e2 : Option Nat) (uaddr uaddr2 : Nat) :
    TableInv (futexCleanupPair s e1 e2 uaddr uaddr2) := by
  unfold futexCleanupPair
  dsimp only
  split
  · exact (h.tryCleanup e1).tryCleanup e2
  · exact h.tryCleanup e1

/-- A PI mutex for an entry that has none: its queue becomes allowed. -/
theorem TableInv.initPi (h : TableInv s) {e : Nat} (he : e ∈ s.entries) (hpi : (s.entry e).piMutex = false) :
    TableInv (s.initPi e) ∧ (s.initPi e).QueueOk (.pi e) ∧ ∀ q, s.QueueOk q → (s.initPi e).QueueOk q := by
  have hmono : ∀ q, s.QueueOk q → (s.initPi e).QueueOk q := by
    rintro (e' | e') hq
    · exact hq
    · refine ⟨hq.1, ?_⟩
      by_cases he' : e' = e
      · subst he'; simp
      · simpa [he'] using hq.2
  -- no task waits on the mutex of an entry that had none
  have hclear : ∀ t, (s.wait.tasks t).waitQueue ≠ some (.pi e) := by
    intro t ht
    have := (h.queue_ok t _ ht).2
    rw [hpi] at this
    exact Bool.false_ne_true this
  exact ⟨⟨h.linked.clear hclear, h.nodup, h.lt_next, fun t q ht => hmono q (h.queue_ok t q (by simpa using ht))⟩,
    ⟨h.lt_next e he, by simp⟩, hmono⟩

/-- futex_get_pi_mutex returns an entry of the table whose PI mutex queue is
allowed. -/
theorem TableInv.getPiMutex (h : TableInv s) (uaddr : Nat) (allocFails piAllocFails : Bool) :
    TableInv (futexGetPiMutex s uaddr allocFails piAllocFails).1 ∧
      ∀ e, (futexGetPiMutex s uaddr allocFails piAllocFails).2 = some e →
        (futexGetPiMutex s uaddr allocFails piAllocFails).1.QueueOk (.pi e) := by
  obtain ⟨hf, -, hmem⟩ := h.findOrCreate uaddr futexBitsetMatchAny allocFails
  unfold futexGetPiMutex
  split
  · next s' hfc => rw [hfc] at hf; exact ⟨hf, fun _ he => absurd he (by simp)⟩
  · next s' e hfc =>
    rw [hfc] at hf hmem
    have he : e ∈ s'.entries := hmem e rfl
    split
    · next hpi =>
      refine ⟨hf, ?_⟩
      rintro e' ⟨⟩
      exact ⟨hf.lt_next e he, hpi⟩
    · next hpi =>
      split
      · exact ⟨hf, fun _ he => absurd he (by simp)⟩
      · obtain ⟨hi, hok, -⟩ := hf.initPi he (by simpa using hpi)
        exact ⟨hi, by rintro e' ⟨⟩; exact hok⟩

/-! ## The operations -/

theorem TableInv.waitBegin (h : TableInv s) {t uaddr : Nat} {val : UInt32} {bitset : UInt64}
    {timed allocFails : Bool} {s' : FutexSystem} (hs : futexWaitBegin s t uaddr val bitset timed allocFails = some s') :
    TableInv s' := by
  unfold futexWaitBegin at hs
  split at hs
  · cases hs; exact h
  split at hs
  · cases hs; exact h
  split at hs
  · cases hs; exact h
  obtain ⟨hc, -, hmem⟩ := h.createWaiter uaddr bitset allocFails
  split at hs
  · next s₁ hcw => cases hs; rw [hcw] at hc; exact hc
  · next s₁ e hcw =>
    rw [hcw] at hc hmem
    obtain ⟨w, hw, rfl⟩ := Option.map_eq_some_iff.mp hs
    exact (hc.withWait (hc.linked.prepare hw) (WaitState.waitsWithin_prepare _ hw)
      (by rintro p ⟨⟩; exact hmem e rfl)).setPc _ _

theorem TableInv.waitBlock (h : TableInv s) (t uaddr : Nat) (bitset : UInt64) (e : Nat) (timed signal expired : Bool) :
    TableInv (futexWaitBlock s t uaddr bitset e timed signal expired) := by
  unfold futexWaitBlock
  split
  · exact (h.waitStep (h.linked.cancel t) (WaitState.waitsWithin_cancel _ t)).setPc _ _
  split
  · exact (h.waitStep (h.linked.waitTimed t _ expired) (WaitState.waitsWithin_waitTimed _ t _ expired)).setPc _ _
  · exact (h.waitStep (h.linked.sleep t) (WaitState.waitsWithin_sleep _ t)).setPc _ _

theorem TableInv.waitResume (h : TableInv s) (t uaddr : Nat) (bitset : UInt64) (timed signal : Bool) :
    TableInv (futexWaitResume s t uaddr bitset timed signal) := by
  unfold futexWaitResume
  dsimp only
  split
  · exact (h.waitStep (h.linked.consumeTimed t) (WaitState.waitsWithin_consumeTimed _ t)).setPc _ _
  · exact (h.congr rfl rfl rfl rfl).setPc _ _

theorem TableInv.waitEnd (h : TableInv s) (t uaddr : Nat) (bitset : UInt64) :
    TableInv (futexWaitEnd s t uaddr bitset) :=
  (h.tryCleanup _).setPc _ _

/-- The wake loop over the bucket only finishes waits. -/
theorem onlyFinishes_futexWakeEntries (entry : Nat → FutexEntry) (uaddr : Nat) (bitset : UInt64) (n : Nat) :
    ∀ (l : List Nat) (w : WaitState FutexQueue) (woken : Nat), w.Linked →
      (futexWakeEntries entry uaddr bitset n l w woken).1.Linked ∧
        WaitState.OnlyFinishes w (futexWakeEntries entry uaddr bitset n l w woken).1
  | [], w, _, hl => ⟨hl, WaitState.OnlyFinishes.refl w⟩
  | e :: rest, w, woken, hl => by
    unfold futexWakeEntries
    split
    · exact onlyFinishes_futexWakeEntries entry uaddr bitset n rest w woken hl
    · obtain ⟨hl', hf⟩ := onlyFinishes_futexWakeEntries entry uaddr bitset n rest _ (woken + _)
        (hl.wakeUpTo (n - woken) (.entry e))
      exact ⟨hl', (WaitState.onlyFinishes_wakeUpTo _ w _).trans hf⟩

theorem TableInv.wake (h : TableInv s) (uaddr : Nat) (nrWake : Int) (bitset : UInt64) (notified : Nat) :
    TableInv (futexWake s uaddr nrWake bitset notified).1 := by
  unfold futexWake
  split
  · exact h
  split
  · exact h
  · obtain ⟨hl, hf⟩ := onlyFinishes_futexWakeEntries s.entry uaddr bitset nrWake.toNat s.entries s.wait 0 h.linked
    exact h.finishes hl hf

theorem TableInv.requeueWake (h : TableInv s) (uaddr e1 : Nat) (nrWake nrRequeue : Int) (uaddr2 : Nat)
    (allocFails : Bool) : TableInv (futexRequeueWake s uaddr e1 nrWake nrRequeue uaddr2 allocFails).1 := by
  have hw := h.wakeUpTo nrWake.toNat (.entry e1)
  unfold futexRequeueWake
  dsimp only
  split
  · obtain ⟨hc, -, hmem⟩ := hw.findOrCreate uaddr2 futexBitsetMatchAny allocFails
    split
    · next s₁ hfc => rw [hfc] at hc; exact hc.cleanupPair _ _ _ _
    · next s₁ e2 hfc =>
      rw [hfc] at hc hmem
      exact (hc.withWait (hc.linked.moveUpTo _ _ _) (WaitState.waitsWithin_moveUpTo _ _ _ _)
        (by rintro p ⟨⟩; exact hmem e2 rfl)).cleanupPair _ _ _ _
  · exact hw.cleanupPair _ _ _ _

theorem TableInv.requeue (h : TableInv s) (uaddr : Nat) (nrWake nrRequeue : Int) (uaddr2 : Nat) (val3 : UInt32)
    (cmp allocFails : Bool) : TableInv (futexRequeue s uaddr nrWake nrRequeue uaddr2 val3 cmp allocFails).1 := by
  unfold futexRequeue
  split
  · exact h
  · split
    · split
      · exact h
      · split
        · exact h
        · exact h.requeueWake _ _ _ _ _ _
    · exact h.requeueWake _ _ _ _ _ _

theorem TableInv.wakeFound (h : TableInv s) (o : Option Nat) (k : Nat) :
    TableInv { s with wait := (futexWakeFound s.wait o k).1 } := by
  cases o with
  | none => exact h.congr rfl rfl rfl rfl
  | some e => exact h.wakeUpTo k _

theorem TableInv.wakeOp (h : TableInv s) (uaddr : Nat) (nrWake nrWake2 : Int) (uaddr2 : Nat) (val3 : UInt32) :
    TableInv (futexWakeOp s uaddr nrWake nrWake2 uaddr2 val3).1 := by
  unfold futexWakeOp
  dsimp only
  split
  · exact h
  · exact (((h.setMem _ _).wakeFound _ _).wakeFound _ _).cleanupPair _ _ _ _

theorem TableInv.takePi (h : TableInv s) (t uaddr e : Nat) : TableInv (s.takePi t uaddr e) :=
  h.congr rfl rfl rfl rfl

theorem TableInv.trylockPi (h : TableInv s) (t uaddr : Nat) (allocFails piAllocFails : Bool) :
    TableInv (futexTrylockPi s t uaddr allocFails piAllocFails).1 := by
  obtain ⟨hg, -⟩ := h.getPiMutex uaddr allocFails piAllocFails
  unfold futexTrylockPi
  split
  · exact h
  split
  · exact h
  split
  · next s₁ hgp => rw [hgp] at hg; exact hg
  · next s₁ e hgp => rw [hgp] at hg; exact hg.takePi _ _ _

theorem TableInv.lockPiAttempt (h : TableInv s) {fuel t uaddr : Nat} {allocFails piAllocFails : Bool}
    {s' : FutexSystem} (hs : futexLockPiAttempt fuel s t uaddr allocFails piAllocFails = some s') : TableInv s' := by
  obtain ⟨hg, hok⟩ := h.getPiMutex uaddr allocFails piAllocFails
  unfold futexLockPiAttempt at hs
  split at hs
  · next s₁ hgp => rw [hgp] at hg; cases hs; exact hg.setPc _ _
  next s₁ e hgp =>
  rw [hgp] at hg hok
  have hpi := hok e rfl
  split at hs
  · cases hs; exact hg.setPc _ _
  split at hs
  · cases hs; exact (hg.takePi _ _ _).setPc _ _
  have hm := hg.setMem uaddr (‹UInt32› ||| futexWaiters)
  dsimp only at hs
  split at hs
  · cases hs; exact hm.setPc _ _
  split at hs
  · cases hs; exact hm.setPc _ _
  -- the waiter queues on the mutex of the entry it found
  obtain ⟨pi, -, hs⟩ := Option.bind_eq_some_iff.mp hs
  obtain ⟨w, hw, rfl⟩ := Option.map_eq_some_iff.mp hs
  exact ((hm.setPi pi).withWait ((hm.setPi pi).linked.prepare hw) (WaitState.waitsWithin_prepare _ hw)
    (by rintro p ⟨⟩; exact hpi)).setPc _ _

theorem TableInv.unlockPi (h : TableInv s) {fuel t uaddr : Nat} {r : FutexSystem × Int}
    (hs : futexUnlockPi fuel s t uaddr = some r) : TableInv r.1 := by
  unfold futexUnlockPi at hs
  split at hs
  · cases hs; exact h
  split at hs
  · cases hs; exact h
  split at hs
  · cases hs; exact h
  obtain ⟨pi, -, rfl⟩ := Option.map_eq_some_iff.mp hs
  refine TableInv.setPi ?_ pi
  -- the hand-off wakes the new owner; a free word cleans up the entry
  dsimp only
  split
  · split
    · exact h.setPi _
    · exact (h.waitStep (h.linked.taskWakeup _) (WaitState.waitsWithin_taskWakeup _ _)).congr rfl rfl rfl rfl
  · split
    · exact h.setPi _
    · exact ((h.setMem _ _).setPi _).tryCleanup _

theorem TableInv.cmpRequeuePiWake (h : TableInv s) (uaddr e1 : Nat) (nrWake nrRequeue : Int) (uaddr2 : Nat)
    (allocFails piAllocFails : Bool) :
    TableInv (futexCmpRequeuePiWake s uaddr e1 nrWake nrRequeue uaddr2 allocFails piAllocFails).1 := by
  have hw := h.wakeUpTo nrWake.toNat (.entry e1)
  unfold futexCmpRequeuePiWake
  dsimp only
  split
  · obtain ⟨hc, -, hmem⟩ := hw.findOrCreate uaddr2 futexBitsetMatchAny allocFails
    split
    · next s₁ hfc => rw [hfc] at hc; exact hc.tryCleanup _
    · next s₁ e2 hfc =>
      rw [hfc] at hc hmem
      have he2 := hmem e2 rfl
      split
      · exact hc.tryCleanup _
      -- the destination has a PI mutex, old or new, and is in the table
      have hi : TableInv (if (s₁.entry e2).piMutex = true then s₁ else s₁.initPi e2) ∧
          e2 ∈ (if (s₁.entry e2).piMutex = true then s₁ else s₁.initPi e2).entries := by
        split
        · exact ⟨hc, he2⟩
        · next hpi => exact ⟨(hc.initPi he2 (by simpa using hpi)).1, he2⟩
      exact (hi.1.withWait (hi.1.linked.moveUpTo _ _ _) (WaitState.waitsWithin_moveUpTo _ _ _ _)
        (by rintro p ⟨⟩; exact hi.2)).cleanupPair _ _ _ _
  · exact hw.cleanupPair _ _ _ _

theorem TableInv.cmpRequeuePi (h : TableInv s) (uaddr : Nat) (nrWake nrRequeue : Int) (uaddr2 : Nat)
    (cmpval : UInt32) (allocFails piAllocFails : Bool) :
    TableInv (futexCmpRequeuePi s uaddr nrWake nrRequeue uaddr2 cmpval allocFails piAllocFails).1 := by
  unfold futexCmpRequeuePi
  split
  · exact h
  split
  · exact h
  split
  · exact h
  · exact h.cmpRequeuePiWake _ _ _ _ _ _ _

/-! ## Every step, every run -/

/-- Every step of every task keeps the table well formed. -/
theorem TableInv.step (h : TableInv s) {fuel t : Nat} {a : FutexAction} {s' : FutexSystem}
    (hs : futexStep fuel s t a = some s') : TableInv s' := by
  cases a with
  | wait uaddr val bitset timed allocFails =>
    simp only [futexStep] at hs
    split at hs
    · exact h.waitBegin hs
    · cases hs
  | waitBlock signal expired =>
    simp only [futexStep] at hs
    split at hs
    · cases hs; exact h.waitBlock _ _ _ _ _ _ _
    · cases hs
  | waitResume signal =>
    simp only [futexStep] at hs
    split at hs
    · split at hs
      · cases hs; exact h.waitResume _ _ _ _ _
      · cases hs
    · cases hs
  | waitEnd =>
    simp only [futexStep] at hs
    split at hs
    · cases hs; exact h.waitEnd _ _ _
    · cases hs
  | wake uaddr nrWake bitset notified =>
    simp only [futexStep] at hs
    split at hs
    · cases hs; exact h.wake _ _ _ _
    · cases hs
  | requeue uaddr nrWake nrRequeue uaddr2 val3 cmp allocFails =>
    simp only [futexStep] at hs
    split at hs
    · cases hs; exact h.requeue _ _ _ _ _ _ _
    · cases hs
  | wakeOp uaddr nrWake nrWake2 uaddr2 val3 =>
    simp only [futexStep] at hs
    split at hs
    · cases hs; exact h.wakeOp _ _ _ _ _
    · cases hs
  | lockPi uaddr =>
    simp only [futexStep] at hs
    split at hs
    · cases hs; exact h.setPc _ _
    · cases hs
  | lockPiAttempt allocFails piAllocFails =>
    simp only [futexStep] at hs
    split at hs
    · exact h.lockPiAttempt hs
    · cases hs
  | lockPiRecheck =>
    simp only [futexStep] at hs
    split at hs
    · cases hs; exact h.setPc _ _
    · cases hs
  | lockPiCancel =>
    simp only [futexStep] at hs
    split at hs
    · cases hs; exact (h.waitStep (h.linked.cancel t) (WaitState.waitsWithin_cancel _ t)).setPc _ _
    · cases hs
  | lockPiWithdraw =>
    simp only [futexStep] at hs
    split at hs
    · obtain ⟨pi, -, rfl⟩ := Option.map_eq_some_iff.mp hs
      exact (h.setPi pi).setPc _ _
    · cases hs
  | lockPiBlock =>
    simp only [futexStep] at hs
    split at hs
    · cases hs; exact (h.waitStep (h.linked.block t) (WaitState.waitsWithin_block _ t)).setPc _ _
    · cases hs
  | lockPiWake =>
    simp only [futexStep] at hs
    split at hs
    · split at hs
      · unfold futexLockPiAfterWake at hs
        obtain ⟨r, -, rfl⟩ := Option.map_eq_some_iff.mp hs
        exact (h.setPi _).setPc _ _
      · cases hs
    · cases hs
  | lockPiRetry =>
    simp only [futexStep] at hs
    split at hs
    · unfold futexLockPiRetry at hs
      obtain ⟨pi, -, rfl⟩ := Option.map_eq_some_iff.mp hs
      exact (h.setPi pi).setPc _ _
    · cases hs
  | unlockPi uaddr =>
    simp only [futexStep] at hs
    split at hs
    · obtain ⟨r, hr, rfl⟩ := Option.map_eq_some_iff.mp hs
      exact h.unlockPi hr
    · cases hs
  | trylockPi uaddr allocFails piAllocFails =>
    simp only [futexStep] at hs
    split at hs
    · cases hs; exact h.trylockPi _ _ _ _
    · cases hs
  | cmpRequeuePi uaddr nrWake nrRequeue uaddr2 cmpval allocFails piAllocFails =>
    simp only [futexStep] at hs
    split at hs
    · cases hs; exact h.cmpRequeuePi _ _ _ _ _ _ _
    · cases hs
  | store uaddr value =>
    simp only [futexStep] at hs
    split at hs
    · cases hs; exact h.setMem _ _
    · cases hs
  | expire =>
    cases hs
    exact h.waitStep (h.linked.expire t) (WaitState.waitsWithin_expire _ t)
  | wakeup =>
    cases hs
    exact h.waitStep (h.linked.taskWakeup t) (WaitState.waitsWithin_taskWakeup _ t)

/-- Every run keeps the table well formed. -/
theorem TableInv.run (h : TableInv s) {fuel : Nat} {steps : List (Nat × FutexAction)} {s' : FutexSystem}
    (hr : futexRun fuel s steps = some s') : TableInv s' := by
  induction steps generalizing s with
  | nil => cases hr; exact h
  | cons step rest ih =>
    obtain ⟨t, a⟩ := step
    obtain ⟨s₁, h₁, hr⟩ := Option.bind_eq_some_iff.mp hr
    exact ih (h.step h₁) hr

end Uinxed.Futex
