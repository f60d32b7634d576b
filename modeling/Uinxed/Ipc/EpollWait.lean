/-
  Ipc/EpollWait.lean --- the wait loop of sys_epoll_wait against the
  notifiers of its instance (sys_epoll_wait and epoll_item_notify,
  src/ipc/epoll.c, with wait_queue_prepare, wait_queue_cancel,
  wait_queue_sleep and wait_queue_wake_all, src/kernel/sched/sched.c).

  The waiter is a program counter over the loop of sys_epoll_wait; each of
  its moves is one step of the source between two points where another CPU
  can act.  A notifier does not take epi->lock, and epoll_item_notify makes
  three separate atomic steps: it ORs the events into item->pending_events,
  bumps event_generation, and runs wait_queue_wake_all.  Any number of
  notifiers may be between those steps at once; the state counts those past
  the OR and those past the bump.  The deadline and a signal can also come at
  any moment.  A run is any interleaving of these moves.

  No lost wakeup: the waiter sleeps only while its entry is on the queue,
  and if an item became ready or the generation moved since its last scan, a
  notifier is still between its OR and its wake_all (WakeInv, wakeInv_run);
  the remaining steps of those notifiers wake it
  (sleeping_woken_by_notifiers).  When the generation moves between the scan
  and the prepare, the loop cancels, unlocks and continues to the top without
  taking epi->lock again, and the next turn scans, collects and unlocks
  without it (sys_epoll_wait_rescans_without_lock).

  Not modelled: the items themselves (ready stands for "epoll_poll_all
  finds a ready item"), item->active, epoll_ctl and the other users of
  epi->lock, the copy to user space, and the file references.
-/
import Mathlib.Data.List.Basic

set_option autoImplicit false

namespace Uinxed.EpollWait

/-! ## The state -/

/-- Where the waiter is in sys_epoll_wait. -/
inductive Pc where
  | start
  | top
  | scan
  | collect
  | timeoutCheck
  | signalCheck
  | prepare
  | genCheck
  | signalCheck2
  | lockForSignal
  | sleep
  | sleeping
  | relock
  | exit
  | done
  deriving DecidableEq, Repr

/-- A call under epi->lock or on it, with whether the waiter held the lock
then. -/
inductive Access where
  | pollAll (held : Bool)
  | collect (held : Bool)
  | unlock (held : Bool)
  deriving DecidableEq, Repr

/-- What sys_epoll_wait returns: a positive count, 0, or -ERESTARTSYS. -/
inductive WaitResult where
  | events
  | timedOut
  | interrupted
  deriving DecidableEq, Repr

/-- The waiter, its instance and its wait-queue entry. -/
structure WaitState where
  pc : Pc
  /-- epi->lock, held by the waiter. -/
  lockHeld : Bool
  /-- epi->event_generation. -/
  generation : Nat
  /-- The generation the waiter loaded at the top of the loop. -/
  seen : Nat
  /-- epoll_poll_all would find a ready item. -/
  ready : Bool
  /-- curr->wait_queue: the waiter's entry is on epi->wq. -/
  linked : Bool
  /-- curr->wake_reason != TASK_WAKE_NONE. -/
  wakePending : Bool
  expired : Bool
  signalPending : Bool
  ret : Option WaitResult
  accesses : List Access
  /-- Notifiers past their pending_events OR, before the generation bump. -/
  notifyPending : Nat
  /-- Notifiers past the bump, before wait_queue_wake_all. -/
  notifyBumped : Nat
  deriving DecidableEq, Repr

/-- The state at the call: nothing held, nothing ready, no notifier running. -/
def WaitState.init : WaitState := ⟨.start, false, 0, 0, false, false, false, false, false, none, [], 0, 0⟩

/-! ## The moves -/

/-- One step of the waiter in sys_epoll_wait(epfd, events, maxevents,
timeout); a spin_lock on a held lock spins. -/
def waiterStep (timeout : Int) (s : WaitState) : WaitState :=
  match s.pc with
  | .start => if s.lockHeld then s else { s with lockHeld := true, pc := .top }
  | .top => { s with seen := s.generation, pc := .scan }
  | .scan => { s with accesses := s.accesses ++ [.pollAll s.lockHeld], pc := if s.ready then .collect else .timeoutCheck }
  | .collect => { s with accesses := s.accesses ++ [.collect s.lockHeld], ret := some .events, pc := .exit }
  | .timeoutCheck =>
    -- timeout == 0 || (deadline && sched_ticks() >= deadline)
    if timeout = 0 ∨ (0 < timeout ∧ s.expired) then { s with ret := some .timedOut, pc := .exit }
    else { s with pc := .signalCheck }
  | .signalCheck => if s.signalPending then { s with ret := some .interrupted, pc := .exit } else { s with pc := .prepare }
  | .prepare => { s with linked := true, wakePending := false, pc := .genCheck }
  | .genCheck =>
    if s.generation ≠ s.seen then
      -- wait_queue_cancel; spin_unlock; continue
      { s with linked := false, lockHeld := false, accesses := s.accesses ++ [.unlock s.lockHeld], pc := .top }
    else { s with lockHeld := false, accesses := s.accesses ++ [.unlock s.lockHeld], pc := .signalCheck2 }
  | .signalCheck2 => if s.signalPending then { s with linked := false, pc := .lockForSignal } else { s with pc := .sleep }
  | .lockForSignal => if s.lockHeld then s else { s with lockHeld := true, ret := some .interrupted, pc := .exit }
  | .sleep =>
    -- wait_queue_sleep: a wake between prepare and sleep is consumed
    if !s.linked ∧ s.wakePending then { s with wakePending := false, pc := .relock }
    else if s.linked ∧ !s.wakePending then
      -- wait_queue_wait_timed past the deadline finishes the wait at once
      if 0 < timeout ∧ s.expired then { s with linked := false, pc := .relock } else { s with pc := .sleeping }
    else { s with pc := .relock }
  | .sleeping => s
  | .relock => if s.lockHeld then s else { s with lockHeld := true, pc := .top }
  | .exit => { s with lockHeld := false, accesses := s.accesses ++ [.unlock s.lockHeld], pc := .done }
  | .done => s

/-- wait_queue_wake_all for the waiter's entry: a linked entry is taken off
the queue with a wake reason, and a sleeping waiter runs again. -/
def wakeAll (s : WaitState) : WaitState :=
  if s.linked then { s with linked := false, wakePending := true, pc := if s.pc = .sleeping then .relock else s.pc }
  else s

/-- What else can happen between two steps of the waiter. -/
inductive Move where
  | waiter
  /-- A notifier of an active item ORs its events into pending_events. -/
  | notifyPending
  /-- A notifier past its OR bumps event_generation. -/
  | notifyGeneration
  /-- A notifier past its bump runs wait_queue_wake_all. -/
  | notifyWake
  /-- The deadline passes; a timed sleep returns. -/
  | expire
  /-- A signal becomes pending. -/
  | signal
  deriving DecidableEq, Repr

def step (timeout : Int) (s : WaitState) : Move → WaitState
  | .waiter => waiterStep timeout s
  | .notifyPending => { s with ready := true, notifyPending := s.notifyPending + 1 }
  | .notifyGeneration =>
    if s.notifyPending = 0 then s
    else
      { s with
        generation := s.generation + 1
        notifyPending := s.notifyPending - 1
        notifyBumped := s.notifyBumped + 1 }
  | .notifyWake => if s.notifyBumped = 0 then s else wakeAll { s with notifyBumped := s.notifyBumped - 1 }
  | .expire =>
    if s.pc = .sleeping ∧ 0 < timeout then { s with expired := true, linked := false, pc := .relock }
    else { s with expired := true }
  | .signal => { s with signalPending := true }

/-- The state after an interleaving of moves. -/
def run (timeout : Int) (s : WaitState) (moves : List Move) : WaitState := moves.foldl (step timeout) s

/-! ## No lost wakeup -/

/-- Past the generation check, up to the wake. -/
def Pc.pastCheck : Pc → Bool
  | .signalCheck2 | .sleep | .sleeping => true
  | _ => false

/-- After a scan that found nothing ready, up to the wake. -/
def Pc.afterEmptyScan : Pc → Bool
  | .timeoutCheck | .signalCheck | .prepare | .genCheck | .signalCheck2 | .sleep | .sleeping => true
  | _ => false

theorem Pc.afterEmptyScan_of_pastCheck {p : Pc} (h : p.pastCheck = true) : p.afterEmptyScan = true := by
  cases p <;> first | rfl | cases h

/-- What the waiter's last scan missed is on its way: an item made ready
after an empty scan goes with a generation that moved or a notifier yet to
bump it; past the generation check with the entry queued, a generation that
moved goes with a notifier yet to wake the queue; and the waiter sleeps only
with its entry queued. -/
structure WakeInv (s : WaitState) : Prop where
  seen_le : s.seen ≤ s.generation
  ready : s.pc.afterEmptyScan = true → s.ready = true → s.generation ≠ s.seen ∨ 0 < s.notifyPending
  moved : s.pc.pastCheck = true → s.linked = true → s.generation ≠ s.seen → 0 < s.notifyBumped
  linked : s.pc = .sleeping → s.linked = true

/-- Outside the window from an empty scan to the wake, only seen ≤ generation
is asked. -/
theorem wakeInv_of_outside {s : WaitState} (hle : s.seen ≤ s.generation) (h : s.pc.afterEmptyScan = false) :
    WakeInv s where
  seen_le := hle
  ready h' := absurd h' (by rw [h]; decide)
  moved h' := absurd (Pc.afterEmptyScan_of_pastCheck h') (by rw [h]; decide)
  linked h' := absurd h (by rw [h']; decide)

theorem wakeInv_init : WakeInv WaitState.init := wakeInv_of_outside (Nat.le_refl _) rfl

theorem WakeInv.waiterStep {s : WaitState} (hs : WakeInv s) (timeout : Int) : WakeInv (waiterStep timeout s) := by
  -- inside the window the waiter moves only its pc and its queue entry, and
  -- the scan opens the window only when it found nothing ready
  cases hpc : s.pc <;> simp only [Uinxed.EpollWait.waiterStep, hpc]
  case start | relock | lockForSignal =>
    split
    · exact hs
    · exact wakeInv_of_outside hs.seen_le rfl
  case top => exact wakeInv_of_outside (Nat.le_refl _) rfl
  case scan =>
    split
    · exact wakeInv_of_outside hs.seen_le rfl
    · next hready => exact ⟨hs.seen_le, fun _ h => absurd h hready, nofun, nofun⟩
  case collect | exit => exact wakeInv_of_outside hs.seen_le rfl
  case timeoutCheck | signalCheck =>
    have hwin : s.pc.afterEmptyScan = true := by rw [hpc]; rfl
    split
    · exact wakeInv_of_outside hs.seen_le rfl
    · exact ⟨hs.seen_le, fun _ => hs.ready hwin, nofun, nofun⟩
  case prepare =>
    have hwin : s.pc.afterEmptyScan = true := by rw [hpc]; rfl
    exact ⟨hs.seen_le, fun _ => hs.ready hwin, nofun, nofun⟩
  case genCheck =>
    have hwin : s.pc.afterEmptyScan = true := by rw [hpc]; rfl
    split
    · exact wakeInv_of_outside hs.seen_le rfl
    · -- the check passed: the generation is still the scanned one
      next hgen => exact ⟨hs.seen_le, fun _ => hs.ready hwin, fun _ _ h => absurd (not_not.mp hgen) h, nofun⟩
  case signalCheck2 =>
    have hwin : s.pc.afterEmptyScan = true := by rw [hpc]; rfl
    have hpast : s.pc.pastCheck = true := by rw [hpc]; rfl
    split
    · exact wakeInv_of_outside hs.seen_le rfl
    · exact ⟨hs.seen_le, fun _ => hs.ready hwin, fun _ => hs.moved hpast, nofun⟩
  case sleep =>
    have hwin : s.pc.afterEmptyScan = true := by rw [hpc]; rfl
    have hpast : s.pc.pastCheck = true := by rw [hpc]; rfl
    split
    · exact wakeInv_of_outside hs.seen_le rfl
    split
    · next hwait =>
      split
      · exact wakeInv_of_outside hs.seen_le rfl
      -- it blocks only with its entry on the queue
      · exact ⟨hs.seen_le, fun _ => hs.ready hwin, fun _ => hs.moved hpast, fun _ => hwait.1⟩
    · exact wakeInv_of_outside hs.seen_le rfl
  case sleeping | done => exact hs

/-- An item made ready by a notifier that has not bumped the generation yet
is covered by that notifier. -/
theorem WakeInv.notifyPending {s : WaitState} (hs : WakeInv s) :
    WakeInv { s with ready := true, notifyPending := s.notifyPending + 1 } :=
  ⟨hs.seen_le, fun _ _ => .inr (Nat.succ_pos _), hs.moved, hs.linked⟩

/-- The bump moves the generation away from what the waiter scanned at, and
the notifier now owes the wake. -/
theorem WakeInv.notifyGeneration {s : WaitState} (hs : WakeInv s) :
    WakeInv
      { s with
        generation := s.generation + 1
        notifyPending := s.notifyPending - 1
        notifyBumped := s.notifyBumped + 1 } where
  seen_le := Nat.le_succ_of_le hs.seen_le
  ready _ _ := .inl (Nat.ne_of_gt (Nat.lt_succ_of_le hs.seen_le))
  moved _ _ _ := Nat.succ_pos _
  linked := hs.linked

/-- wait_queue_wake_all takes a queued entry off the queue, and a sleeping
waiter to relock; an entry off the queue was not sleeping. -/
theorem WakeInv.notifyWake {s : WaitState} (hs : WakeInv s) :
    WakeInv (wakeAll { s with notifyBumped := s.notifyBumped - 1 }) := by
  unfold wakeAll
  split
  · refine ⟨hs.seen_le, fun hwin hr => hs.ready ?_ hr, fun _ h => (by cases h), fun h => ?_⟩
    · split at hwin
      · cases hwin
      · exact hwin
    · split at h
      · cases h
      · next hsl => exact absurd h hsl
  · next hl => exact ⟨hs.seen_le, hs.ready, fun _ h => absurd h hl, hs.linked⟩

theorem WakeInv.step {s : WaitState} (hs : WakeInv s) (timeout : Int) : ∀ m, WakeInv (step timeout s m)
  | .waiter => hs.waiterStep timeout
  | .notifyPending => hs.notifyPending
  | .notifyGeneration => by
    simp only [Uinxed.EpollWait.step]
    split
    · exact hs
    · exact hs.notifyGeneration
  | .notifyWake => by
    simp only [Uinxed.EpollWait.step]
    split
    · exact hs
    · exact hs.notifyWake
  | .expire => by
    simp only [Uinxed.EpollWait.step]
    split
    · exact wakeInv_of_outside hs.seen_le rfl
    · exact ⟨hs.seen_le, hs.ready, hs.moved, hs.linked⟩
  | .signal => ⟨hs.seen_le, hs.ready, hs.moved, hs.linked⟩

/-- Along every interleaving, the waiter sleeps only on the queue, and what
its last scan missed has a notifier on its way. -/
theorem wakeInv_run (timeout : Int) : ∀ (moves : List Move) (s : WaitState), WakeInv s → WakeInv (run timeout s moves)
  | [], _, hs => hs
  | m :: moves, s, hs => wakeInv_run timeout moves (step timeout s m) (hs.step timeout m)

/-! ## The notifiers in flight wake a sleeper -/

/-- A state some interleaving reaches from the call. -/
def Reachable (timeout : Int) (s : WaitState) : Prop := ∃ moves, run timeout WaitState.init moves = s

/-- The notifiers in flight finish: those past their OR bump the generation,
then every one of them runs wait_queue_wake_all. -/
def finishNotifiers (s : WaitState) : List Move :=
  List.replicate s.notifyPending .notifyGeneration ++ List.replicate (s.notifyPending + s.notifyBumped) .notifyWake

theorem run_cons (timeout : Int) (s : WaitState) (m : Move) (moves : List Move) :
    run timeout s (m :: moves) = run timeout (step timeout s m) moves := rfl

theorem run_append (timeout : Int) (s : WaitState) (l₁ l₂ : List Move) :
    run timeout s (l₁ ++ l₂) = run timeout (run timeout s l₁) l₂ :=
  List.foldl_append

/-- k bumps by notifiers past their OR. -/
theorem run_notifyGeneration (timeout : Int) :
    ∀ (k : Nat) (s : WaitState), k ≤ s.notifyPending →
      run timeout s (List.replicate k .notifyGeneration) =
        { s with
          generation := s.generation + k
          notifyPending := s.notifyPending - k
          notifyBumped := s.notifyBumped + k }
  | 0, _, _ => rfl
  | k + 1, s, hk => by
    have hne : s.notifyPending ≠ 0 := by omega
    rw [List.replicate_succ, run_cons, step, if_neg hne, run_notifyGeneration timeout k _ (by dsimp only; omega)]
    dsimp only
    congr 1 <;> omega

/-- wait_queue_wake_all moves no waiter that is not asleep. -/
theorem run_notifyWake_pc (timeout : Int) :
    ∀ (k : Nat) (s : WaitState), s.pc ≠ .sleeping → (run timeout s (List.replicate k .notifyWake)).pc = s.pc
  | 0, _, _ => rfl
  | k + 1, s, hs => by
    have hpc : (step timeout s .notifyWake).pc = s.pc := by
      simp only [step, wakeAll, hs, if_false]
      split_ifs <;> rfl
    rw [List.replicate_succ, run_cons, run_notifyWake_pc timeout k _ (hpc ▸ hs), hpc]

/-- Over every interleaving of sys_epoll_wait's steps with the three steps of
any number of notifiers, the deadline and signals: a sleeping waiter's entry
is on the queue, and if an item became ready or the generation moved since
its last scan, the remaining steps of the notifiers in flight wake it. -/
theorem sleeping_woken_by_notifiers {timeout : Int} {s : WaitState} (hr : Reachable timeout s)
    (hsleep : s.pc = .sleeping) :
    s.linked = true ∧
      (s.ready = true ∨ s.generation ≠ s.seen → (run timeout s (finishNotifiers s)).pc = .relock) := by
  obtain ⟨moves, rfl⟩ := hr
  have hs := wakeInv_run timeout moves _ wakeInv_init
  generalize run timeout WaitState.init moves = s at hs hsleep ⊢
  have hlinked := hs.linked hsleep
  refine ⟨hlinked, fun hnew => ?_⟩
  have hwin : s.pc.afterEmptyScan = true := by rw [hsleep]; rfl
  have hpast : s.pc.pastCheck = true := by rw [hsleep]; rfl
  -- what the scan missed leaves a notifier between its OR and its wake
  have hflight : 0 < s.notifyPending + s.notifyBumped := by
    by_cases hgen : s.generation = s.seen
    · have := (hs.ready hwin (hnew.resolve_right (not_not.mpr hgen))).resolve_left (not_not.mpr hgen)
      omega
    · have := hs.moved hpast hlinked hgen
      omega
  obtain ⟨k, hk⟩ : ∃ k, s.notifyPending + s.notifyBumped = k + 1 := ⟨_, (Nat.succ_pred_eq_of_pos hflight).symm⟩
  -- the bumps leave the waiter asleep and on the queue; the first wake takes it to relock
  have hfirst : (step timeout
      { s with
        generation := s.generation + s.notifyPending
        notifyPending := s.notifyPending - s.notifyPending
        notifyBumped := s.notifyBumped + s.notifyPending } .notifyWake).pc = .relock := by
    have hb : s.notifyBumped + s.notifyPending ≠ 0 := by omega
    simp only [step, wakeAll, if_neg hb, hlinked, hsleep, if_true]
  rw [finishNotifiers, run_append, run_notifyGeneration timeout _ s (Nat.le_refl _), hk, List.replicate_succ, run_cons,
    run_notifyWake_pc timeout k _ (by rw [hfirst]; decide), hfirst]

/-- A notifier ORs its events in after the waiter's empty scan and bumps the
generation after the waiter passed its check: the waiter sleeps queued, with
the generation moved, and the notifier's wake is still to come. -/
def bumpAfterCheck : WaitState :=
  run (-1) WaitState.init
    [.waiter, .waiter, .waiter, .waiter, .waiter, .waiter, .notifyPending, .waiter, .notifyGeneration, .waiter, .waiter]

theorem sleeping_woken_by_notifiers_bump_after_check :
    Reachable (-1) bumpAfterCheck ∧ bumpAfterCheck.pc = .sleeping ∧
      bumpAfterCheck.linked = true ∧
      (bumpAfterCheck.ready = true ∨ bumpAfterCheck.generation ≠ bumpAfterCheck.seen →
        (run (-1) bumpAfterCheck (finishNotifiers bumpAfterCheck)).pc = .relock) :=
  have hsleep : bumpAfterCheck.pc = .sleeping := by decide
  ⟨⟨_, rfl⟩, hsleep, sleeping_woken_by_notifiers ⟨_, rfl⟩ hsleep⟩

example : bumpAfterCheck.generation ≠ bumpAfterCheck.seen ∧ bumpAfterCheck.notifyBumped = 1 ∧
    (run (-1) bumpAfterCheck (finishNotifiers bumpAfterCheck)).pc = .relock := by
  decide

/-! ## A notifier between the scan and the prepare -/

/-- The waiter scans and finds nothing; an item becomes ready before it
checks the generation; it retries, scans, collects and unlocks again. -/
def retryRun : List Move :=
  [.waiter, .waiter, .waiter, .waiter, .waiter, .waiter, .notifyPending, .notifyGeneration, .notifyWake,
    .waiter, .waiter, .waiter, .waiter, .waiter]

theorem sys_epoll_wait_rescans_without_lock :
    (run (-1) WaitState.init retryRun).accesses =
        [.pollAll true, .unlock true, .pollAll false, .collect false, .unlock false] ∧
      (run (-1) WaitState.init retryRun).ret = some .events ∧ (run (-1) WaitState.init retryRun).pc = .done := by
  decide

end Uinxed.EpollWait
