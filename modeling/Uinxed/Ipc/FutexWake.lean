/-
  Ipc/FutexWake.lean --- no lost wake-up between futex_wait and futex_wake.

  Runs of futex_wait and futex_wake, with user stores, timer expiries and
  task_wakeups in any interleaving (FutexAction.waitWake), keep WaitInv: the
  table invariant, and for every task what its place in futex_wait says of
  its wait (WaiterOk).  A task that has queued itself is linked, with no
  wake-up yet, in the queue of an entry of its word whose bitset holds its
  own, or has been woken and runs unlinked; once it committed to its sleep
  it is blocked in such a queue or runs unlinked; at its cleanup and outside
  futex_wait it runs unlinked.

  futex_wake walks every entry of the word whose bitset meets its own, and a
  wake that woke fewer than nr_wake tasks emptied each of these queues
  (futexWakeEntries_drains).  With WaitInv this gives futex_wait_no_lost_wakeup.
-/
import Uinxed.Ipc.FutexTable

set_option autoImplicit false

namespace Uinxed.Futex

open Uinxed.Sched FutexSystem

/-! ## The wait and wake steps -/

/-- The sections of futex_wait and futex_wake, user stores, and the timer
expiries and task_wakeups that may reach any task. -/
def FutexAction.waitWake : FutexAction → Bool
  | .wait _ _ _ _ _ | .waitBlock _ _ | .waitResume _ | .waitEnd | .wake _ _ _ _ | .store _ _ | .expire
  | .wakeup => true
  | _ => false

/-- The entry a waiter of a word and a bitset sleeps on: an entry of the
word whose bitset holds the waiter's. -/
def EntryFor (entry : Nat → FutexEntry) (e uaddr : Nat) (bitset : UInt64) : Prop :=
  (entry e).key = uaddr ∧ bitset &&& (entry e).bitset = bitset

/-- What the place of a task in futex_wait says of its wait.  The PI places
are not reached by the wait and wake steps. -/
def WaiterOk (entry : Nat → FutexEntry) : FutexPc → Waiter FutexQueue → Prop
  | .idle, w => w.waitQueue = none ∧ w.state = .running
  | .waitQueued uaddr bitset e _, w =>
    w.state = .running ∧
      ((w.waitQueue = some (.entry e) ∧ w.wakeReason = .none ∧ EntryFor entry e uaddr bitset) ∨ w.waitQueue = none)
  | .waitSleeping uaddr bitset _, w =>
    (∃ e, w.waitQueue = some (.entry e) ∧ w.state = .blocked ∧ EntryFor entry e uaddr bitset) ∨
      (w.waitQueue = none ∧ w.state = .running)
  | .waitCleanup _ _ _, w => w.waitQueue = none ∧ w.state = .running
  | _, _ => False

/-- The table is well formed and every task is where its place says. -/
structure WaitInv (s : FutexSystem) : Prop where
  table : TableInv s
  waiter : ∀ t, WaiterOk s.entry (s.pc t) (s.wait.tasks t)

/-! ## WaiterOk -/

section WaiterOk

variable {entry : Nat → FutexEntry} {p : FutexPc} {w : Waiter FutexQueue}

/-- Only the entry a task is linked to matters. -/
theorem WaiterOk.entry_congr (h : WaiterOk entry p w) {entry' : Nat → FutexEntry}
    (he : ∀ e, w.waitQueue = some (.entry e) → entry' e = entry e) : WaiterOk entry' p w := by
  cases p with
  | idle => exact h
  | waitQueued uaddr bitset e timed =>
    obtain ⟨hrun, ⟨hq, hr, hent⟩ | hq⟩ := h
    · exact ⟨hrun, .inl ⟨hq, hr, by rw [EntryFor, he e hq]; exact hent⟩⟩
    · exact ⟨hrun, .inr hq⟩
  | waitSleeping uaddr bitset timed =>
    obtain ⟨e, hq, hb, hent⟩ | h := h
    · exact .inl ⟨e, hq, hb, by rw [EntryFor, he e hq]; exact hent⟩
    · exact .inr h
  | waitCleanup => exact h
  | _ => exact h

/-- WaiterOk reads only the queue, the wake reason and the state. -/
theorem WaiterOk.of_fields (h : WaiterOk entry p w) {w' : Waiter FutexQueue} (hq : w'.waitQueue = w.waitQueue)
    (hr : w'.wakeReason = w.wakeReason) (hs : w'.state = w.state) : WaiterOk entry p w' := by
  cases p <;> simp only [WaiterOk, hq, hr, hs] <;> exact h

/-- An unlinked task runs, wherever it is. -/
theorem WaiterOk.running_of_none (h : WaiterOk entry p w) (hq : w.waitQueue = none) : w.state = .running := by
  cases p with
  | idle => exact h.2
  | waitQueued => exact h.1
  | waitSleeping =>
    obtain ⟨e, he, -⟩ | h := h
    · rw [hq] at he; cases he
    · exact h.2
  | waitCleanup => exact h.2
  | _ => exact h.elim

/-- A waiting task whose wait is finished is where its place allows: every
place that allows a wait also allows running unlinked. -/
theorem WaiterOk.finish (h : WaiterOk entry p w) (hq : w.waitQueue ≠ none) {w' : Waiter FutexQueue}
    (hq' : w'.waitQueue = none) (hs' : w'.state = .running) : WaiterOk entry p w' := by
  cases p with
  | idle => exact absurd h.1 hq
  | waitQueued => exact ⟨hs', .inr hq'⟩
  | waitSleeping => exact .inr ⟨hq', hs'⟩
  | waitCleanup => exact absurd h.1 hq
  | _ => exact h.elim

/-- Wait steps that only finish waits keep every task where its place
allows. -/
theorem WaiterOk.onlyFinishes {pc : Nat → FutexPc} {ws ws' : WaitState FutexQueue}
    (h : ∀ u, WaiterOk entry (pc u) (ws.tasks u)) (hf : WaitState.OnlyFinishes ws ws') (u : Nat) :
    WaiterOk entry (pc u) (ws'.tasks u) := by
  rcases hf u with he | ⟨hq, hq', hs', -⟩
  · rw [he]; exact h u
  · exact (h u).finish hq hq' hs'

end WaiterOk

/-! ## The table helpers -/

variable {s : FutexSystem}

theorem futexCreateWaiter_none {key : Nat} {bitset : UInt64} {allocFails : Bool} {s₁ : FutexSystem}
    (hc : futexCreateWaiter s key bitset allocFails = (s₁, none)) : s₁ = s := by
  unfold futexCreateWaiter at hc
  split at hc
  · cases hc
  · split at hc
    · exact (Prod.mk.inj hc).1.symm
    · cases hc

/-- futex_create_waiter leaves every task and every allocated entry as it
was, and returns an entry of the key with the waiter's bitset. -/
theorem futexCreateWaiter_some {key : Nat} {bitset : UInt64} {allocFails : Bool} {s₁ : FutexSystem} {e : Nat}
    (hc : futexCreateWaiter s key bitset allocFails = (s₁, some e)) :
    s₁.pc = s.pc ∧ s₁.wait.tasks = s.wait.tasks ∧ (s₁.entry e).key = key ∧ (s₁.entry e).bitset = bitset ∧
      ∀ e' < s.nextEntry, s₁.entry e' = s.entry e' := by
  unfold futexCreateWaiter at hc
  split at hc
  · next e₀ hf =>
    obtain ⟨rfl, he⟩ := Prod.mk.inj hc
    cases he
    obtain ⟨-, hkey, hbits, -⟩ := futexFindWaiter_mem hf
    exact ⟨rfl, rfl, hkey, hbits, fun _ _ => rfl⟩
  · split at hc
    · cases hc
    · obtain ⟨rfl, he⟩ := Prod.mk.inj hc
      cases he
      refine ⟨rfl, rfl, by simp, by simp, fun e' he' => ?_⟩
      simp [Nat.ne_of_lt he']

theorem futexTryCleanup_fields (o : Option Nat) :
    (futexTryCleanup s o).1.pc = s.pc ∧ (futexTryCleanup s o).1.wait = s.wait ∧
      (futexTryCleanup s o).1.entry = s.entry := by
  unfold futexTryCleanup
  split
  · exact ⟨rfl, rfl, rfl⟩
  · split <;> exact ⟨rfl, rfl, rfl⟩

/-- The first section of futex_wait returns at once, or queues the task on
an entry of the word with its bitset. -/
theorem futexWaitBegin_cases {t uaddr : Nat} {val : UInt32} {bitset : UInt64} {timed allocFails : Bool}
    {s' : FutexSystem} (hs : futexWaitBegin s t uaddr val bitset timed allocFails = some s') :
    s' = s ∨ ∃ s₁ e w, futexCreateWaiter s uaddr bitset allocFails = (s₁, some e) ∧
      s₁.wait.prepare t (.entry e) = some w ∧ s' = { s₁ with wait := w }.setPc t (.waitQueued uaddr bitset e timed) := by
  unfold futexWaitBegin at hs
  split at hs
  · exact .inl (Option.some.inj hs).symm
  split at hs
  · exact .inl (Option.some.inj hs).symm
  split at hs
  · exact .inl (Option.some.inj hs).symm
  split at hs
  · next s₁ hc => exact .inl ((Option.some.inj hs).symm.trans (futexCreateWaiter_none hc))
  · next s₁ e hc =>
    obtain ⟨w, hw, rfl⟩ := Option.map_eq_some_iff.mp hs
    exact .inr ⟨s₁, e, w, hc, hw, rfl⟩

/-! ## The steps keep WaitInv -/

/-- A task whose place and wait are as they were stays where its place
allows, when the entries in the table are as they were. -/
theorem WaitInv.waiter_of_eq (h : WaitInv s) {s' : FutexSystem} (hent : ∀ e ∈ s.entries, s'.entry e = s.entry e)
    {u : Nat} (hpc : s'.pc u = s.pc u) (hw : s'.wait.tasks u = s.wait.tasks u) :
    WaiterOk s'.entry (s'.pc u) (s'.wait.tasks u) := by
  rw [hpc, hw]
  exact (h.waiter u).entry_congr fun e he => hent e (h.table.queue_ok u _ he)

theorem WaitInv.waitBegin (h : WaitInv s) {t uaddr : Nat} {val : UInt32} {bitset : UInt64} {timed allocFails : Bool}
    {s' : FutexSystem} (hidle : s.pc t = .idle) (hs : futexWaitBegin s t uaddr val bitset timed allocFails = some s') :
    WaitInv s' := by
  have hT := h.table.waitBegin hs
  rcases futexWaitBegin_cases hs with rfl | ⟨s₁, e, w, hc, hp, rfl⟩
  · exact h
  obtain ⟨hpc, htasks, hkey, hbits, hold⟩ := futexCreateWaiter_some hc
  obtain ⟨-, hw⟩ := WaitState.prepare_tasks _ hp
  refine ⟨hT, fun u => ?_⟩
  by_cases hu : u = t
  · -- the task queues itself on the entry it found or made, running
    subst hu
    have hrun : (s.wait.tasks u).state = .running := by
      have := h.waiter u
      rw [hidle] at this
      exact this.2
    simp only [setPc_pc, setPc_entry, setPc_wait, Function.update_self, hw, htasks]
    exact ⟨hrun, .inl ⟨rfl, rfl, hkey, by rw [hbits, UInt64.and_self]⟩⟩
  · refine h.waiter_of_eq (fun e' he' => ?_) ?_ ?_
    · simpa using hold e' (h.table.lt_next e' he')
    · simp [hu, hpc]
    · simp [hw, hu, htasks]

theorem WaitInv.waitBlock (h : WaitInv s) {t uaddr : Nat} {bitset : UInt64} {e : Nat} {timed : Bool}
    (hpc : s.pc t = .waitQueued uaddr bitset e timed) (signal expired : Bool) :
    WaitInv (futexWaitBlock s t uaddr bitset e timed signal expired) := by
  have hok := h.waiter t
  rw [hpc] at hok
  obtain ⟨hrun, hq⟩ := hok
  refine ⟨h.table.waitBlock t uaddr bitset e timed signal expired, fun u => ?_⟩
  by_cases hu : u = t
  · subst hu
    unfold futexWaitBlock
    split
    · -- a pending signal: the task leaves its queue, if it is still linked
      rcases hq with ⟨hq, -, -⟩ | hq <;> simp [WaiterOk, WaitState.cancel, hq, hrun]
    split
    · rcases hq with ⟨hq, hr, hent⟩ | hq
      · -- still queued with no wake-up: it times out at once or blocks
        cases expired <;> simp [WaiterOk, WaitState.waitTimed, WaitState.finishWait, hq, hr, hent]
      · simp [WaiterOk, WaitState.waitTimed, hq, hrun]
    · rcases hq with ⟨hq, hr, hent⟩ | hq
      · simp [WaiterOk, WaitState.sleep, hq, hr, hent]
      · cases hr : (s.wait.tasks u).wakeReason <;> simp [WaiterOk, WaitState.sleep, hq, hr, hrun]
  · refine h.waiter_of_eq (fun _ _ => ?_) ?_ ?_
    · unfold futexWaitBlock
      split <;> [skip; split] <;> rfl
    · unfold futexWaitBlock
      split <;> [skip; split] <;> simp [hu]
    · unfold futexWaitBlock
      split
      · simpa using WaitState.cancel_tasks_of_ne _ hu
      split
      · simpa using WaitState.waitTimed_tasks_of_ne _ _ expired hu
      · simpa using WaitState.sleep_tasks_of_ne _ hu

theorem WaitInv.waitResume (h : WaitInv s) {t uaddr : Nat} {bitset : UInt64} {timed : Bool}
    (hpc : s.pc t = .waitSleeping uaddr bitset timed) (hrun : (s.wait.tasks t).state = .running) (signal : Bool) :
    WaitInv (futexWaitResume s t uaddr bitset timed signal) := by
  -- a sleeping waiter that runs again is no longer linked
  have hq : (s.wait.tasks t).waitQueue = none := by
    have hok := h.waiter t
    rw [hpc] at hok
    rcases hok with ⟨e, -, hb, -⟩ | ⟨hq, -⟩
    · rw [hrun] at hb
      cases hb
    · exact hq
  refine ⟨h.table.waitResume t uaddr bitset timed signal, fun u => ?_⟩
  unfold futexWaitResume
  dsimp only
  by_cases hu : u = t
  · subst hu
    split <;> simp [WaiterOk, WaitState.consumeTimed, hq, hrun]
  · refine h.waiter_of_eq (fun _ _ => ?_) ?_ ?_
    · split <;> rfl
    · split <;> simp [hu]
    · split
      · simpa using WaitState.consumeTimed_tasks_of_ne _ hu
      · rfl

theorem WaitInv.waitEnd (h : WaitInv s) {t uaddr : Nat} {bitset : UInt64} {ret : Int}
    (hpc : s.pc t = .waitCleanup uaddr bitset ret) : WaitInv (futexWaitEnd s t uaddr bitset) := by
  obtain ⟨hpc', hw, he⟩ := futexTryCleanup_fields (s := s) (futexFindWaiter s uaddr bitset)
  refine ⟨h.table.waitEnd t uaddr bitset, fun u => ?_⟩
  by_cases hu : u = t
  · -- the task returns unlinked and running, as it was at its cleanup
    subst hu
    have hok := h.waiter u
    rw [hpc] at hok
    simpa [futexWaitEnd, WaiterOk, hw] using hok
  · refine h.waiter_of_eq (fun _ _ => ?_) ?_ ?_
    · simp [futexWaitEnd, he]
    · simp [futexWaitEnd, hu, hpc']
    · simp [futexWaitEnd, hw]

/-- futex_wake moves no task and frees no entry; it only finishes waits. -/
theorem futexWake_fields (h : TableInv s) (uaddr : Nat) (nrWake : Int) (bitset : UInt64) (notified : Nat) :
    (futexWake s uaddr nrWake bitset notified).1.pc = s.pc ∧ (futexWake s uaddr nrWake bitset notified).1.entry = s.entry ∧
      WaitState.OnlyFinishes s.wait (futexWake s uaddr nrWake bitset notified).1.wait := by
  unfold futexWake
  split
  · exact ⟨rfl, rfl, WaitState.OnlyFinishes.refl _⟩
  split
  · exact ⟨rfl, rfl, WaitState.OnlyFinishes.refl _⟩
  · exact ⟨rfl, rfl, (onlyFinishes_futexWakeEntries s.entry uaddr bitset nrWake.toNat s.entries s.wait 0 h.linked).2⟩

theorem WaitInv.wake (h : WaitInv s) (uaddr : Nat) (nrWake : Int) (bitset : UInt64) (notified : Nat) :
    WaitInv (futexWake s uaddr nrWake bitset notified).1 := by
  obtain ⟨hpc, he, hf⟩ := futexWake_fields h.table uaddr nrWake bitset notified
  refine ⟨h.table.wake uaddr nrWake bitset notified, fun u => ?_⟩
  rw [hpc, he]
  exact WaiterOk.onlyFinishes h.waiter hf u

theorem WaitInv.setMem (h : WaitInv s) (uaddr : Nat) (v : UInt32) : WaitInv (s.setMem uaddr v) :=
  ⟨h.table.setMem uaddr v, fun u => by simpa using h.waiter u⟩

theorem WaitInv.expire (h : WaitInv s) (t : Nat) : WaitInv { s with wait := s.wait.expire t } := by
  refine ⟨h.table.waitStep (h.table.linked.expire t) (WaitState.waitsWithin_expire _ t), fun u => ?_⟩
  by_cases hu : u = t
  · -- the timer finishes the task's wait, or only goes
    subst hu
    rcases WaitState.expire_tasks_self s.wait u with ⟨hq, hr, hs⟩ | ⟨hq, hq', hs'⟩
    · exact (h.waiter u).of_fields hq hr hs
    · exact (h.waiter u).finish hq hq' hs'
  · simpa [WaitState.expire_tasks_of_ne _ hu] using h.waiter u

theorem WaitInv.wakeup (h : WaitInv s) (t : Nat) : WaitInv { s with wait := s.wait.taskWakeup t } := by
  refine ⟨h.table.waitStep (h.table.linked.taskWakeup t) (WaitState.waitsWithin_taskWakeup _ t), fun u => ?_⟩
  by_cases hu : u = t
  · subst hu
    rcases WaitState.taskWakeup_tasks_self s.wait u with ⟨hq, hw⟩ | ⟨hq, hq', hs'⟩
    · -- a task that waits on nothing already runs
      have hrun := (h.waiter u).running_of_none hq
      exact (h.waiter u).of_fields (by simp [hw]) (by simp [hw]) (by simp [hw, hrun])
    · exact (h.waiter u).finish hq hq' hs'
  · simpa [WaitState.taskWakeup_tasks_of_ne _ hu] using h.waiter u

theorem WaitInv.step (h : WaitInv s) {fuel t : Nat} {a : FutexAction} (ha : a.waitWake = true) {s' : FutexSystem}
    (hs : futexStep fuel s t a = some s') : WaitInv s' := by
  cases a with
  | wait uaddr val bitset timed allocFails =>
    simp only [futexStep] at hs
    split at hs
    · next hidle => exact h.waitBegin hidle hs
    · cases hs
  | waitBlock signal expired =>
    simp only [futexStep] at hs
    split at hs
    · next hpc => cases hs; exact h.waitBlock hpc signal expired
    · cases hs
  | waitResume signal =>
    simp only [futexStep] at hs
    split at hs
    · next hpc =>
      split at hs
      · next hrun => cases hs; exact h.waitResume hpc hrun signal
      · cases hs
    · cases hs
  | waitEnd =>
    simp only [futexStep] at hs
    split at hs
    · next hpc => cases hs; exact h.waitEnd hpc
    · cases hs
  | wake uaddr nrWake bitset notified =>
    simp only [futexStep] at hs
    split at hs
    · cases hs; exact h.wake uaddr nrWake bitset notified
    · cases hs
  | store uaddr v =>
    simp only [futexStep] at hs
    split at hs
    · cases hs; exact h.setMem uaddr v
    · cases hs
  | expire => cases hs; exact h.expire t
  | wakeup => cases hs; exact h.wakeup t
  | _ => simp [FutexAction.waitWake] at ha

theorem WaitInv.run (h : WaitInv s) {fuel : Nat} {steps : List (Nat × FutexAction)}
    (hww : ∀ x ∈ steps, x.2.waitWake = true) {s' : FutexSystem} (hr : futexRun fuel s steps = some s') :
    WaitInv s' := by
  induction steps generalizing s with
  | nil => cases hr; exact h
  | cons x rest ih =>
    obtain ⟨s₁, h₁, h₂⟩ := Option.bind_eq_some_iff.mp hr
    exact ih (h.step (hww x List.mem_cons_self) h₁) (fun y hy => hww y (List.mem_cons_of_mem x hy)) h₂

theorem waitInv_init (mem : Nat → Option UInt32) (pids pidFind : Nat → Option Nat) :
    WaitInv (FutexSystem.init mem pids pidFind) :=
  ⟨tableInv_init mem pids pidFind, fun _ => ⟨rfl, rfl⟩⟩

/-! ## futex_wake drains the queues it walks -/

/-- The wake loop only counts up. -/
theorem le_futexWakeEntries (entry : Nat → FutexEntry) (uaddr : Nat) (bitset : UInt64) (n : Nat) :
    ∀ (l : List Nat) (w : WaitState FutexQueue) (woken : Nat), woken ≤ (futexWakeEntries entry uaddr bitset n l w woken).2
  | [], _, _ => Nat.le_refl _
  | e :: rest, w, woken => by
    unfold futexWakeEntries
    split
    · exact le_futexWakeEntries entry uaddr bitset n rest w woken
    · exact Nat.le_trans (Nat.le_add_right _ _) (le_futexWakeEntries entry uaddr bitset n rest _ _)

/-- The wake loop leaves a task that waits on nothing as it was. -/
theorem futexWakeEntries_tasks_of_none (entry : Nat → FutexEntry) (uaddr : Nat) (bitset : UInt64) (n : Nat)
    {u : Nat} : ∀ (l : List Nat) (w : WaitState FutexQueue) (woken : Nat), w.Linked → (w.tasks u).waitQueue = none →
      (futexWakeEntries entry uaddr bitset n l w woken).1.tasks u = w.tasks u
  | [], _, _, _, _ => rfl
  | e :: rest, w, woken, hl, hu => by
    unfold futexWakeEntries
    split
    · exact futexWakeEntries_tasks_of_none entry uaddr bitset n rest w woken hl hu
    · have h₁ := WaitState.wakeUpTo_tasks_of_ne hl (n - woken) (q := .entry e) (u := u) (by simp [hu])
      rw [futexWakeEntries_tasks_of_none entry uaddr bitset n rest _ _ (hl.wakeUpTo _ _) (by rw [h₁]; exact hu), h₁]

/-- A wake loop that woke fewer than n tasks emptied the queue of every entry
it walked: a task linked in one of them is unlinked and runs. -/
theorem futexWakeEntries_drains (entry : Nat → FutexEntry) (uaddr : Nat) (bitset : UInt64) (n : Nat) {u e : Nat}
    (hkey : (entry e).key = uaddr) (hbits : (entry e).bitset &&& bitset ≠ 0) :
    ∀ (l : List Nat) (w : WaitState FutexQueue) (woken : Nat), w.Linked → e ∈ l →
      (w.tasks u).waitQueue = some (.entry e) → (futexWakeEntries entry uaddr bitset n l w woken).2 < n →
      ((futexWakeEntries entry uaddr bitset n l w woken).1.tasks u).waitQueue = none ∧
        ((futexWakeEntries entry uaddr bitset n l w woken).1.tasks u).state = .running
  | [], _, _, _, he, _, _ => absurd he List.not_mem_nil
  | e' :: rest, w, woken, hl, he, hu, hlt => by
    unfold futexWakeEntries at hlt ⊢
    split
    · next hskip =>
      -- the loop skips e', so e is further on
      have hne : e ≠ e' := by
        rintro rfl
        rcases hskip with h | h
        · exact h hkey
        · exact hbits h
      rw [if_pos hskip] at hlt
      exact futexWakeEntries_drains entry uaddr bitset n hkey hbits rest w woken hl (List.mem_of_ne_of_mem hne he) hu hlt
    · next hwake =>
      rw [if_neg hwake] at hlt
      dsimp only at hlt ⊢
      by_cases hee : e = e'
      · -- the wake of e's queue stopped short of its budget, so it emptied the queue
        subst hee
        have hle := le_futexWakeEntries entry uaddr bitset n rest (WaitState.wakeUpTo (n - woken) w (.entry e)).1
          (woken + (WaitState.wakeUpTo (n - woken) w (.entry e)).2)
        have hk : (WaitState.wakeUpTo (n - woken) w (.entry e)).2 < n - woken := by omega
        obtain ⟨h₁, h₂⟩ := WaitState.wakeUpTo_drains hl hk hu
        rw [futexWakeEntries_tasks_of_none entry uaddr bitset n rest _ _ (hl.wakeUpTo _ _) h₁]
        exact ⟨h₁, h₂⟩
      · have h₁ := WaitState.wakeUpTo_tasks_of_ne hl (n - woken) (q := .entry e') (u := u) (by simp [hu, hee])
        exact futexWakeEntries_drains entry uaddr bitset n hkey hbits rest _ _ (hl.wakeUpTo _ _)
          (List.mem_of_ne_of_mem hee he) (by rw [h₁]; exact hu) hlt

/-- A futex_wake of the word that wakes fewer than nr_wake tasks leaves no
task linked in the queue of an entry of the word whose bitset holds one
that meets the wake bitset. -/
theorem futexWake_drains (h : TableInv s) {t e uaddr : Nat} {bitset wakeBitset : UInt64} {nrWake : Int}
    {notified : Nat} (ht : (s.wait.tasks t).waitQueue = some (.entry e)) (he : EntryFor s.entry e uaddr bitset)
    (hov : bitset &&& wakeBitset ≠ 0) (hlt : (futexWake s uaddr nrWake wakeBitset notified).2 < nrWake) :
    ((futexWake s uaddr nrWake wakeBitset notified).1.wait.tasks t).waitQueue = none ∧
      ((futexWake s uaddr nrWake wakeBitset notified).1.wait.tasks t).state = .running := by
  unfold futexWake at hlt ⊢
  split
  · next h0 => simp [h0] at hov
  · next h0 =>
    split
    · next hn =>
      rw [if_neg h0, if_pos hn] at hlt
      exact absurd hlt (by omega)
    · next hn =>
      rw [if_neg h0, if_neg hn] at hlt
      dsimp only at hlt ⊢
      -- the entry's bitset meets the wake bitset, since it holds the waiter's
      have hbits : (s.entry e).bitset &&& wakeBitset ≠ 0 := by
        intro h0
        apply hov
        rw [← he.2, UInt64.and_assoc, h0, UInt64.and_zero]
      refine futexWakeEntries_drains s.entry uaddr wakeBitset nrWake.toNat he.1 hbits s.entries s.wait 0 h.linked
        (h.queue_ok t _ ht) ht ?_
      omega

/-! ## No lost wake-up -/

/-- A task inside futex_wait on the word with the bitset, after its check of
the word queued it and before its cleanup. -/
def FutexSystem.WaitsOn (s : FutexSystem) (t uaddr : Nat) (bitset : UInt64) : Prop :=
  (∃ e timed, s.pc t = .waitQueued uaddr bitset e timed) ∨ ∃ timed, s.pc t = .waitSleeping uaddr bitset timed

/-- A task waiting on the word is linked in the queue of an entry for its
word and bitset, or runs unlinked. -/
theorem WaitInv.waitsOn (h : WaitInv s) {t uaddr : Nat} {bitset : UInt64} (hw : s.WaitsOn t uaddr bitset) :
    (∃ e, (s.wait.tasks t).waitQueue = some (.entry e) ∧ EntryFor s.entry e uaddr bitset) ∨
      ((s.wait.tasks t).waitQueue = none ∧ (s.wait.tasks t).state = .running) := by
  have hok := h.waiter t
  rcases hw with ⟨e, timed, hpc⟩ | ⟨timed, hpc⟩ <;> rw [hpc] at hok
  · obtain ⟨hrun, ⟨hq, -, hent⟩ | hq⟩ := hok
    · exact .inl ⟨e, hq, hent⟩
    · exact .inr ⟨hq, hrun⟩
  · obtain ⟨e, hq, -, hent⟩ | hok := hok
    · exact .inl ⟨e, hq, hent⟩
    · exact .inr hok

/-- Over every run of futex_wait, futex_wake, user stores, timer expiries and
task_wakeups: a task that checked the word and queued itself, and has not
returned, is not left in a wait queue by a futex_wake of the word with an
overlapping bitset that wakes fewer than nr_wake tasks; and a futex_wait that
returns is linked in no futex wait queue. -/
theorem futex_wait_no_lost_wakeup {fuel : Nat} {mem : Nat → Option UInt32} {pids pidFind : Nat → Option Nat}
    {steps : List (Nat × FutexAction)} {s : FutexSystem} (hww : ∀ x ∈ steps, x.2.waitWake = true)
    (hr : futexRun fuel (FutexSystem.init mem pids pidFind) steps = some s) :
    (∀ t uaddr bitset, s.WaitsOn t uaddr bitset → ∀ (nrWake : Int) (wakeBitset : UInt64) (notified : Nat),
      bitset &&& wakeBitset ≠ 0 → (futexWake s uaddr nrWake wakeBitset notified).2 < nrWake →
        ((futexWake s uaddr nrWake wakeBitset notified).1.wait.tasks t).waitQueue = none ∧
          ((futexWake s uaddr nrWake wakeBitset notified).1.wait.tasks t).state = .running) ∧
      ∀ t uaddr bitset ret, s.pc t = .waitCleanup uaddr bitset ret →
        ∀ q, t ∉ (futexWaitEnd s t uaddr bitset).wait.queues q := by
  have h := (waitInv_init mem pids pidFind).run hww hr
  refine ⟨fun t uaddr bitset hw nrWake wakeBitset notified hov hlt => ?_, fun t uaddr bitset ret hpc q hq => ?_⟩
  · rcases h.waitsOn hw with ⟨e, hq, hent⟩ | ⟨hq, hrun⟩
    · exact futexWake_drains h.table hq hent hov hlt
    · -- a task already woken is left as it is
      obtain ⟨-, -, hf⟩ := futexWake_fields h.table uaddr nrWake wakeBitset notified
      rcases hf t with he | ⟨hq', -⟩
      · rw [he]
        exact ⟨hq, hrun⟩
      · exact absurd hq hq'
  · -- the cleanup keeps the wait queues, and the task waits on none of them
    have hok := h.waiter t
    rw [hpc] at hok
    simp only [futexWaitEnd, setPc_wait] at hq
    rw [(futexTryCleanup_fields _).2.1, h.table.linked.mem_iff, hok.1] at hq
    cases hq

/-- Task 1 waits on the word at 0x1000; a futex_wake of up to two waiters
wakes it and no other, and leaves it unlinked and running. -/
theorem futex_wait_no_lost_wakeup_after_wait :
    ∃ s, futexRun 0 (FutexSystem.init (fun a => if a = 0x1000 then some 0 else none) (fun t => some t) (fun p => some p))
        [(1, .wait 0x1000 0 futexBitsetMatchAny false false)] = some s ∧
      ((futexWake s 0x1000 2 futexBitsetMatchAny 0).1.wait.tasks 1).waitQueue = none ∧
      ((futexWake s 0x1000 2 futexBitsetMatchAny 0).1.wait.tasks 1).state = .running := by
  refine ⟨_, rfl, ?_⟩
  exact (@futex_wait_no_lost_wakeup 0 (fun a => if a = 0x1000 then some 0 else none) (fun t => some t)
    (fun p => some p) [(1, .wait 0x1000 0 futexBitsetMatchAny false false)] _ (by decide) rfl).1
    1 0x1000 futexBitsetMatchAny (.inl ⟨0, false, rfl⟩) 2 futexBitsetMatchAny 0 (by decide) (by decide)

end Uinxed.Futex
