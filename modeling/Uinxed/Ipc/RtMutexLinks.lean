/-
  Ipc/RtMutexLinks.lean --- the links between tasks and mutexes that the
  rt_mutex operations keep, and the chain walk that never ends.

  Over every interleaving, a task is in a mutex's PI tree exactly when its
  blocked_on names that mutex, and it is then inside rt_mutex_lock on that
  mutex; a mutex with waiters has an owner, and no owner waits on its own
  mutex (Links, LockInv).  owner_died is never set, so rt_mutex_lock never
  returns EOWNERDEAD, and the pi_waiter_remove after task_block never runs:
  rt_mutex_unlock pops the waiter it hands the mutex to.

  pi_propagate_chain follows blocked_on and owner links until it reaches a
  task that is not blocked, with no check for a cycle.  When two tasks each
  hold the mutex the other is about to wait for, the rt_mutex_lock that closes
  the cycle walks round it for ever, inside its critical section.
-/
import Uinxed.Ipc.RtMutexSpec

set_option autoImplicit false

namespace Uinxed.Pi

open PiState

variable {s s' : PiState} {fuel : Nat}

/-! ## Links in one state -/

/-- The links between tasks and mutexes. -/
structure Links (s : PiState) : Prop where
  mem_waiters : ∀ m t, t ∈ (s.mutexes m).piWaiters ↔ (s.tasks t).blockedOn = some m
  nodup : ∀ m, (s.mutexes m).piWaiters.Nodup
  owner_of_waiting : ∀ m, (s.mutexes m).piWaiters ≠ [] → (s.mutexes m).owner ≠ none
  owner_not_waiting : ∀ m o, (s.mutexes m).owner = some o → (s.tasks o).blockedOn ≠ some m
  ownerDied_false : ∀ m, (s.mutexes m).ownerDied = false

/-- s' has the mutexes and the blocked_on links of s. -/
structure SameLinks (s s' : PiState) : Prop where
  mutexes_eq : s'.mutexes = s.mutexes
  blockedOn_eq : ∀ t, (s'.tasks t).blockedOn = (s.tasks t).blockedOn

theorem WeightsOnly.sameLinks (h : WeightsOnly s s') : SameLinks s s' :=
  ⟨h.mutexes_eq, h.blockedOn_eq⟩

theorem sameLinks_resetWeights (s : PiState) (t : Nat) : SameLinks s (s.resetWeights t) :=
  ⟨rfl, fun u => resetWeights_blockedOn t u⟩

theorem Links.of_sameLinks (h : Links s) (hf : SameLinks s s') : Links s' where
  mem_waiters m t := by rw [hf.mutexes_eq, hf.blockedOn_eq]; exact h.mem_waiters m t
  nodup m := by rw [hf.mutexes_eq]; exact h.nodup m
  owner_of_waiting m := by rw [hf.mutexes_eq]; exact h.owner_of_waiting m
  owner_not_waiting m o := by rw [hf.mutexes_eq, hf.blockedOn_eq]; exact h.owner_not_waiting m o
  ownerDied_false m := by rw [hf.mutexes_eq]; exact h.ownerDied_false m

theorem Links.init (pids : Nat → Option Nat) : Links (PiState.init pids) where
  mem_waiters m t := by
    dsimp only [PiState.init]
    split <;> simp [RtMutex.init, PiTask.create, PiTask.boot]
  nodup m := List.nodup_nil
  owner_of_waiting m hm := absurd rfl hm
  owner_not_waiting m o ho := by cases ho
  ownerDied_false m := rfl

/-- A task blocked on a mutex is in its tree, which is therefore not empty,
so the mutex has an owner. -/
theorem Links.owner_of_blocked (h : Links s) {t m : Nat} (hb : (s.tasks t).blockedOn = some m) :
    (s.mutexes m).owner ≠ none :=
  h.owner_of_waiting m (List.ne_nil_of_mem ((h.mem_waiters m t).mpr hb))

/-! ## The operations keep them -/

theorem perm_insertWaiter (less : Nat → Nat → Bool) (t : Nat) :
    ∀ l : List Nat, (insertWaiter less t l).Perm (t :: l)
  | [] => List.Perm.refl _
  | e :: rest => by
    unfold insertWaiter
    split
    · exact List.Perm.refl _
    · exact ((perm_insertWaiter less t rest).cons e).trans (List.Perm.swap t e rest)

/-- pi_waiter_remove takes the waiter out of the tree of the mutex it is
blocked on; no other task's link changes. -/
theorem Links.piWaiterRemove (h : Links s) {w : Nat} (hp : Uinxed.Pi.piWaiterRemove fuel s w = some s') :
    Links s' ∧ ∀ u, (s'.tasks u).blockedOn = if u = w then none else (s.tasks u).blockedOn := by
  unfold Uinxed.Pi.piWaiterRemove at hp
  split at hp
  · next hb =>
    cases hp
    refine ⟨h, fun u => ?_⟩
    split
    · next hu => rw [hu, hb]
    · rfl
  · next m hb =>
    -- the waiter is in the tree of the mutex it is blocked on, which is not empty
    have hmem : w ∈ (s.mutexes m).piWaiters := (h.mem_waiters m w).mpr hb
    rw [if_pos (List.ne_nil_of_mem hmem)] at hp
    dsimp only at hp
    have hf := (piPropagateChain_weightsOnly hp).sameLinks
    refine ⟨Links.of_sameLinks ?_ hf, fun u => by rw [hf.blockedOn_eq]; simp⟩
    constructor
    · intro n u
      simp only [setBlockedOn_mutexes, modifyMutex_mutexes, setBlockedOn_blockedOn, modifyMutex_tasks]
      by_cases hn : n = m
      · subst hn
        rw [if_pos rfl, (h.nodup n).mem_erase_iff, h.mem_waiters]
        by_cases hu : u = w <;> simp [hu]
      · rw [if_neg hn, h.mem_waiters]
        by_cases hu : u = w
        · subst hu
          simp [hb, Ne.symm hn]
        · simp [hu]
    · intro n
      simp only [setBlockedOn_mutexes, modifyMutex_mutexes]
      by_cases hn : n = m
      · simp only [if_pos hn]
        exact (h.nodup n).erase w
      · simp only [if_neg hn]
        exact h.nodup n
    · intro n hn
      simp only [setBlockedOn_mutexes, modifyMutex_mutexes] at hn ⊢
      by_cases hnm : n = m
      · simp only [if_pos hnm] at hn ⊢
        refine h.owner_of_waiting n fun hnil => hn ?_
        rw [hnil, List.erase_nil]
      · simp only [if_neg hnm] at hn ⊢
        exact h.owner_of_waiting n hn
    · intro n o ho
      simp only [setBlockedOn_mutexes, modifyMutex_mutexes, setBlockedOn_blockedOn,
        modifyMutex_tasks] at ho ⊢
      -- the erase keeps every owner
      have ho' : (s.mutexes n).owner = some o := by
        by_cases hnm : n = m
        · simpa only [if_pos hnm] using ho
        · simpa only [if_neg hnm] using ho
      split
      · simp
      · exact h.owner_not_waiting n o ho'
    · intro n
      simp only [setBlockedOn_mutexes, modifyMutex_mutexes]
      by_cases hnm : n = m
      · simp only [if_pos hnm]
        exact h.ownerDied_false n
      · simp only [if_neg hnm]
        exact h.ownerDied_false n

/-- pi_waiter_add puts a waiter that is blocked on nothing into the tree of a
mutex another task owns. -/
theorem Links.piWaiterAdd (h : Links s) {w m o : Nat} (hw : (s.tasks w).blockedOn = none)
    (ho : (s.mutexes m).owner = some o) (hwo : o ≠ w)
    (hp : Uinxed.Pi.piWaiterAdd fuel s w m = some s') :
    Links s' ∧ ∀ u, (s'.tasks u).blockedOn = if u = w then some m else (s.tasks u).blockedOn := by
  unfold Uinxed.Pi.piWaiterAdd at hp
  dsimp only at hp
  have hf := (piPropagateChain_weightsOnly hp).sameLinks
  refine ⟨Links.of_sameLinks ?_ hf, fun u => by rw [hf.blockedOn_eq]; simp⟩
  -- the waiter was in no tree
  have hnot : ∀ n, w ∉ (s.mutexes n).piWaiters := fun n hn => by
    rw [h.mem_waiters, hw] at hn
    cases hn
  constructor
  · intro n u
    simp only [setBlockedOn_mutexes, modifyMutex_mutexes, setBlockedOn_blockedOn, modifyMutex_tasks]
    by_cases hn : n = m
    · subst hn
      rw [if_pos rfl, (perm_insertWaiter _ w _).mem_iff, List.mem_cons, h.mem_waiters]
      by_cases hu : u = w <;> simp [hu]
    · rw [if_neg hn, h.mem_waiters]
      by_cases hu : u = w
      · subst hu
        simp [hw, Ne.symm hn]
      · simp [hu]
  · intro n
    simp only [setBlockedOn_mutexes, modifyMutex_mutexes]
    by_cases hn : n = m
    · simp only [if_pos hn]
      rw [(perm_insertWaiter _ w _).nodup_iff, List.nodup_cons]
      exact ⟨hnot n, h.nodup n⟩
    · simp only [if_neg hn]
      exact h.nodup n
  · intro n hn
    simp only [setBlockedOn_mutexes, modifyMutex_mutexes] at hn ⊢
    by_cases hnm : n = m
    · simp only [if_pos hnm]
      rw [hnm, ho]
      simp
    · simp only [if_neg hnm] at hn ⊢
      exact h.owner_of_waiting n hn
  · intro n o' ho'
    simp only [setBlockedOn_mutexes, modifyMutex_mutexes, setBlockedOn_blockedOn,
      modifyMutex_tasks] at ho' ⊢
    -- the insertion keeps every owner
    have ho'' : (s.mutexes n).owner = some o' := by
      by_cases hnm : n = m
      · simpa only [if_pos hnm] using ho'
      · simpa only [if_neg hnm] using ho'
    split
    · next hu =>
      -- the waiter is blocked on m, which another task owns
      intro hm
      cases hm
      rw [ho, Option.some.injEq] at ho''
      exact hwo (ho''.trans hu)
    · exact h.owner_not_waiting n o' ho''
  · intro n
    simp only [setBlockedOn_mutexes, modifyMutex_mutexes]
    by_cases hnm : n = m
    · simp only [if_pos hnm]
      exact h.ownerDied_false n
    · simp only [if_neg hnm]
      exact h.ownerDied_false n

/-- Taking a free mutex, as rt_mutex_trylock and rt_mutex_lock do, changes no
blocked_on link. -/
theorem Links.take (h : Links s) {m self : Nat} (hfree : (s.mutexes m).owner = none) :
    Links ((s.modifyMutex m fun x => { x with owner := some self, ownerDied := false }).resetWeights
      self) := by
  -- a free mutex has no waiter
  have hnil : (s.mutexes m).piWaiters = [] := by
    by_contra hne
    exact h.owner_of_waiting m hne hfree
  refine Links.of_sameLinks ?_ (sameLinks_resetWeights _ self)
  constructor
  · intro n u
    simp only [modifyMutex_mutexes, modifyMutex_tasks]
    split <;> exact h.mem_waiters n u
  · intro n
    simp only [modifyMutex_mutexes]
    split <;> exact h.nodup n
  · intro n hn
    simp only [modifyMutex_mutexes] at hn ⊢
    by_cases hnm : n = m
    · simp [if_pos hnm]
    · simp only [if_neg hnm] at hn ⊢
      exact h.owner_of_waiting n hn
  · intro n o ho
    simp only [modifyMutex_mutexes, modifyMutex_tasks] at ho ⊢
    by_cases hnm : n = m
    · -- the new owner is in no tree of m, which is empty
      intro hb
      have hmem := (h.mem_waiters n o).mpr hb
      rw [hnm, hnil] at hmem
      cases hmem
    · simp only [if_neg hnm] at ho
      exact h.owner_not_waiting n o ho
  · intro n
    simp only [modifyMutex_mutexes]
    by_cases hnm : n = m
    · simp [if_pos hnm]
    · simp only [if_neg hnm]
      exact h.ownerDied_false n

/-- rt_mutex_unlock's hand-off: the popped waiter owns the mutex and is
blocked on nothing. -/
theorem Links.unlockHandOff (h : Links s) (m : Nat) : Links (unlockHandOff s m) := by
  constructor
  · intro n u
    rw [unlockHandOff_piWaiters, unlockHandOff_blockedOn]
    have hmem := h.mem_waiters n u
    by_cases hn : n = m
    · subst hn
      rw [if_pos rfl]
      rcases hw : (s.mutexes n).piWaiters with _ | ⟨top, rest⟩
      · rw [hw] at hmem
        simpa using hmem
      · rw [hw] at hmem
        have hnd := h.nodup n
        rw [hw, List.nodup_cons] at hnd
        simp only [List.tail_cons, List.head?_cons, Option.some.injEq]
        by_cases hu : top = u
        · subst hu
          simp [hnd.1]
        · rw [if_neg hu]
          simpa [Ne.symm hu] using hmem
    · rw [if_neg hn, hmem]
      split
      · next hhead =>
        -- the popped waiter was blocked on m
        rw [(h.mem_waiters m u).mp (List.mem_of_mem_head? hhead)]
        simp [Ne.symm hn]
      · rfl
  · intro n
    rw [unlockHandOff_piWaiters]
    split
    · exact (h.nodup m).sublist (List.tail_sublist _)
    · exact h.nodup n
  · intro n hn
    rw [unlockHandOff_piWaiters] at hn
    rw [unlockHandOff_owner]
    by_cases hnm : n = m
    · rw [if_pos hnm] at hn ⊢
      intro h0
      rw [List.head?_eq_none_iff] at h0
      rw [h0] at hn
      exact hn rfl
    · rw [if_neg hnm] at hn ⊢
      exact h.owner_of_waiting n hn
  · intro n o ho
    rw [unlockHandOff_owner] at ho
    rw [unlockHandOff_blockedOn]
    by_cases hnm : n = m
    · -- the new owner is the popped waiter, now blocked on nothing
      rw [if_pos hnm] at ho
      rw [if_pos ho]
      simp
    · rw [if_neg hnm] at ho
      split
      · simp
      · exact h.owner_not_waiting n o ho
  · intro n
    rw [unlockHandOff_ownerDied]
    exact h.ownerDied_false n

/-- rt_mutex_unlock keeps the links; a task's blocked_on changes only when it
is the popped waiter, which is then blocked on nothing. -/
theorem Links.rtMutexUnlock (h : Links s) {m self : Nat} {r : PiState × Int}
    (hp : Uinxed.Pi.rtMutexUnlock fuel s m self = some r) :
    Links r.1 ∧
      ∀ u, (r.1.tasks u).blockedOn = none ∨ (r.1.tasks u).blockedOn = (s.tasks u).blockedOn := by
  unfold Uinxed.Pi.rtMutexUnlock at hp
  split_ifs at hp
  · cases hp
    exact ⟨h, fun u => .inr rfl⟩
  · obtain ⟨s', hs', rfl⟩ := Option.map_eq_some_iff.mp hp
    have hf := (piPropagateChain_weightsOnly hs').sameLinks
    refine ⟨(h.unlockHandOff m).of_sameLinks hf, fun u => ?_⟩
    rw [hf.blockedOn_eq, unlockHandOff_blockedOn]
    split
    · exact .inl rfl
    · exact .inr rfl

/-- The section after task_block does nothing and returns no error: a task
handed the mutex was popped from its tree by the unlock, and no owner dies. -/
theorem Links.lockAfterWake (h : Links s) (m self : Nat) :
    Uinxed.Pi.lockAfterWake fuel s m self = some (s, none) := by
  unfold Uinxed.Pi.lockAfterWake
  have hdied := h.ownerDied_false m
  have hnot : ¬ ((s.mutexes m).owner = some self ∧ (s.tasks self).blockedOn = some m) :=
    fun ⟨ho, hb⟩ => h.owner_not_waiting m self ho hb
  simp [hdied, hnot]

/-- The first critical section of rt_mutex_lock, for a task blocked on
nothing or on the mutex it locks: a task that returns is blocked on nothing,
one that goes on to sleep is blocked on that mutex, and no other task's link
changes. -/
theorem Links.lockAttempt (h : Links s) {m t : Nat} {waited : Bool} {r : PiState × LockAttempt}
    (hbt : (s.tasks t).blockedOn = none ∨ (s.tasks t).blockedOn = some m)
    (hr : Uinxed.Pi.lockAttempt fuel s m t waited = some r) :
    Links r.1 ∧ (∀ u, u ≠ t → (r.1.tasks u).blockedOn = (s.tasks u).blockedOn) ∧
      ∀ n, (r.1.tasks t).blockedOn = some n → (LockPc.afterAttempt m waited r.2).mutex = some n := by
  -- a task blocked on m is not its owner, and m has one
  have hnotm : (s.tasks t).blockedOn = some m →
      (s.mutexes m).owner ≠ none ∧ (s.mutexes m).owner ≠ some t :=
    fun hb => ⟨h.owner_of_blocked hb, fun ho => h.owner_not_waiting m t ho hb⟩
  unfold Uinxed.Pi.lockAttempt at hr
  split at hr
  · next hfree =>
    cases hr
    refine ⟨h.take hfree, fun u _ => by simp, fun n hn => ?_⟩
    simp only [resetWeights_blockedOn, modifyMutex_tasks] at hn
    rcases hbt with hb | hb
    · rw [hb] at hn
      cases hn
    · exact absurd hfree (hnotm hb).1
  · next o ho =>
    by_cases hot : o = t
    · rw [if_pos hot] at hr
      cases hr
      refine ⟨h, fun u _ => rfl, fun n hn => ?_⟩
      rcases hbt with hb | hb
      · rw [hb] at hn
        cases hn
      · exact absurd (hot ▸ ho) (hnotm hb).2
    · rw [if_neg hot] at hr
      dsimp only at hr
      have hl := h.of_sameLinks (sameLinks_resetWeights s t)
      split at hr
      · next hq =>
        -- pi_waiter_add: the task was blocked on nothing
        obtain ⟨s', hs', rfl⟩ := Option.map_eq_some_iff.mp hr
        rw [resetWeights_blockedOn] at hq
        have hw : ((s.resetWeights t).tasks t).blockedOn = none := by
          rw [resetWeights_blockedOn]
          exact hbt.resolve_right hq
        obtain ⟨hl', hb'⟩ := hl.piWaiterAdd hw (by rw [resetWeights_mutexes]; exact ho) hot hs'
        refine ⟨hl', fun u hu => by rw [hb', if_neg hu, resetWeights_blockedOn], fun n hn => ?_⟩
        rw [hb', if_pos rfl] at hn
        exact hn
      · next hq =>
        -- still queued from an earlier round
        cases hr
        refine ⟨hl, fun u _ => resetWeights_blockedOn t u, fun n hn => ?_⟩
        rw [not_not] at hq
        rw [hq] at hn
        exact hn

@[simp] theorem LockPc.afterRecheck_mutex (owner : Option Nat) (self m : Nat) (waited : Bool) :
    (LockPc.afterRecheck owner self m waited).mutex = some m := by
  unfold LockPc.afterRecheck
  split <;> rfl

/-! ## Links with the tasks' places in rt_mutex_lock -/

/-- The links, and every blocked task is inside rt_mutex_lock on the mutex it
is blocked on. -/
structure LockInv (sys : PiSystem) : Prop where
  links : Links sys.state
  blocked_pc : ∀ t m, (sys.state.tasks t).blockedOn = some m → (sys.pc t).mutex = some m

namespace LockInv

variable {sys sys' : PiSystem}

theorem init (pids : Nat → Option Nat) : LockInv (PiSystem.init pids) where
  links := Links.init pids
  blocked_pc t m hb := by
    have := (Links.init pids).owner_of_blocked hb
    exact absurd rfl this

/-- A task outside rt_mutex_lock is blocked on nothing. -/
theorem blockedOn_of_idle (h : LockInv sys) {t : Nat} (hpc : sys.pc t = .idle) :
    (sys.state.tasks t).blockedOn = none := by
  rcases hb : (sys.state.tasks t).blockedOn with _ | m
  · rfl
  · have := h.blocked_pc t m hb
    rw [hpc] at this
    cases this

/-- A task inside rt_mutex_lock on m is blocked on m or on nothing. -/
theorem blockedOn_of_pc (h : LockInv sys) {t m : Nat} (hpc : (sys.pc t).mutex = some m) :
    (sys.state.tasks t).blockedOn = none ∨ (sys.state.tasks t).blockedOn = some m := by
  rcases hb : (sys.state.tasks t).blockedOn with _ | n
  · exact .inl rfl
  · have := h.blocked_pc t n hb
    rw [hpc] at this
    exact .inr (by rw [this])

/-- A step that keeps the links, changes the pc of t at most, and leaves t
blocked on nothing or on the mutex its new pc works on. -/
theorem of_step {t : Nat} {pc' : LockPc} (h : LockInv sys) (hl : Links sys'.state)
    (hpc : sys'.pc = Function.update sys.pc t pc')
    (hb : ∀ u, u ≠ t → (sys'.state.tasks u).blockedOn = none ∨
      (sys'.state.tasks u).blockedOn = (sys.state.tasks u).blockedOn)
    (ht : ∀ m, (sys'.state.tasks t).blockedOn = some m → pc'.mutex = some m) : LockInv sys' where
  links := hl
  blocked_pc u m hu := by
    rw [hpc]
    by_cases hut : u = t
    · subst hut
      rw [Function.update_self]
      exact ht m hu
    · rw [Function.update_of_ne hut]
      rcases hb u hut with hn | he
      · rw [hn] at hu
        cases hu
      · exact h.blocked_pc u m (he ▸ hu)

/-- A step that changes the state only, keeping the links and blocking no
task. -/
theorem of_state {s' : PiState} (h : LockInv sys) (hl : Links s')
    (hb : ∀ u, (s'.tasks u).blockedOn = none ∨ (s'.tasks u).blockedOn = (sys.state.tasks u).blockedOn) :
    LockInv ⟨s', sys.pc⟩ :=
  h.of_step hl (Function.update_eq_self 0 sys.pc).symm
    (fun u _ => hb u) fun m hm => by
      rcases hb 0 with hn | he
      · rw [hn] at hm
        cases hm
      · exact h.blocked_pc 0 m (he ▸ hm)

/-- Every section of every task keeps the links and the places. -/
theorem piStep (h : LockInv sys) {t : Nat} {a : PiAction} (hs : Uinxed.Pi.piStep fuel sys t a = some sys') :
    LockInv sys' := by
  rcases piStep_cases hs with ⟨m, -, hpc, rfl⟩ | ⟨m, -, hpc, rfl⟩ | ⟨m, waited, r, -, hpc, hr, rfl⟩ |
    ⟨m, waited, -, hpc, rfl⟩ | ⟨m, waited, s, -, hpc, hr, rfl⟩ | ⟨m, r, -, hpc, hr, rfl⟩ |
    ⟨m, r, -, hpc, hr, rfl⟩
  · -- rt_mutex_trylock
    refine h.of_state ?_ fun u => .inr ?_
    · unfold rtMutexTrylock
      split
      · exact h.links
      · next hfree => exact h.links.take hfree
    · unfold rtMutexTrylock
      split
      · rfl
      · simp
  · -- entering rt_mutex_lock, blocked on nothing
    refine h.of_step h.links rfl (fun u _ => .inr rfl) fun n hn => ?_
    rw [h.blockedOn_of_idle hpc] at hn
    cases hn
  · -- the first critical section of the loop
    have hbt := h.blockedOn_of_pc (by rw [hpc]; rfl)
    obtain ⟨hl, hu, ht⟩ := h.links.lockAttempt hbt hr
    exact h.of_step hl rfl (fun u hne => .inr (hu u hne)) ht
  · -- the re-check of the owner
    refine h.of_step h.links rfl (fun u _ => .inr rfl) fun n hn => ?_
    have := h.blocked_pc t n hn
    rw [hpc] at this
    rw [LockPc.afterRecheck_mutex]
    exact this
  · -- pi_waiter_remove after wait_queue_cancel
    obtain ⟨hl, hb⟩ := h.links.piWaiterRemove hr
    refine h.of_step hl rfl (fun u hne => .inr (by rw [hb, if_neg hne])) fun n hn => ?_
    rw [hb, if_pos rfl] at hn
    cases hn
  · -- the section after task_block, which changes nothing
    rw [h.links.lockAfterWake m t, Option.some.injEq] at hr
    subst hr
    refine h.of_step h.links rfl (fun u _ => .inr rfl) fun n hn => ?_
    have := h.blocked_pc t n hn
    rw [hpc] at this
    exact this
  · -- rt_mutex_unlock
    obtain ⟨hl, hb⟩ := h.links.rtMutexUnlock hr
    exact h.of_state hl hb

theorem reachable {sys : PiSystem} (h : PiReachable sys) : LockInv sys := by
  induction h with
  | init pids => exact init pids
  | step fuel t a _ hs ih => exact ih.piStep hs

end LockInv

/-- Over every interleaving of the rt_mutex operations, a task is in a
mutex's PI tree exactly when its blocked_on names the mutex, and it is then
inside rt_mutex_lock on that mutex; a mutex with waiters has an owner, and no
owner waits on its own mutex.  The section after task_block changes nothing
and never returns EOWNERDEAD. -/
theorem rtMutex_lock_links {sys : PiSystem} (h : PiReachable sys) :
    (∀ m t, t ∈ (sys.state.mutexes m).piWaiters ↔ (sys.state.tasks t).blockedOn = some m) ∧
    (∀ t m, (sys.state.tasks t).blockedOn = some m → (sys.pc t).mutex = some m) ∧
    (∀ m, (sys.state.mutexes m).piWaiters ≠ [] → (sys.state.mutexes m).owner ≠ none) ∧
    (∀ m o, (sys.state.mutexes m).owner = some o → (sys.state.tasks o).blockedOn ≠ some m) ∧
    (∀ fuel t m, sys.pc t = .sleeping m → lockAfterWake fuel sys.state m t = some (sys.state, none)) := by
  have hinv := LockInv.reachable h
  exact ⟨hinv.links.mem_waiters, hinv.blocked_pc, hinv.links.owner_of_waiting,
    hinv.links.owner_not_waiting, fun _ t m _ => hinv.links.lockAfterWake m t⟩

/-- Task 2 sleeps on mutex 0 and task 1 hands it over: task 2 wakes as the
owner, already out of the tree, and its wake section changes nothing. -/
theorem rtMutex_lock_links_after_hand_off :
    let sys := (piRun 1 (PiSystem.init some) [(1, .trylock 0), (2, .lock 0), (2, .attempt),
      (2, .recheck), (1, .unlock 0)]).get rfl
    PiReachable sys ∧ (sys.state.mutexes 0).owner = some 2 ∧
      lockAfterWake 1 sys.state 0 2 = some (sys.state, none) := by
  intro sys
  have hr : PiReachable sys := (PiReachable.init some).run (Option.some_get _).symm
  exact ⟨hr, by decide, (rtMutex_lock_links hr).2.2.2.2 1 2 0 (by decide)⟩

/-! ## The chain walk round a cycle -/

/-- A set of tasks the chain walk never leaves: each is blocked on a mutex
owned by one of them. -/
def ChainClosed (s : PiState) (S : Nat → Prop) : Prop :=
  ∀ x, S x → ∃ m y, (s.tasks x).blockedOn = some m ∧ (s.mutexes m).owner = some y ∧ S y

theorem ChainClosed.of_sameLinks {S : Nat → Prop} (h : ChainClosed s S) (hf : SameLinks s s') :
    ChainClosed s' S := fun x hx => by
  obtain ⟨m, y, hb, ho, hy⟩ := h x hx
  exact ⟨m, y, by rw [hf.blockedOn_eq]; exact hb, by rw [hf.mutexes_eq]; exact ho, hy⟩

/-- From a task of a closed set, pi_propagate_chain runs out of every fuel:
the loop of the source does not end. -/
theorem piPropagateChain_eq_none_of_closed {S : Nat → Prop} :
    ∀ {fuel : Nat} {s : PiState} {o : Nat}, ChainClosed s S → S o →
      piPropagateChain fuel s (some o) = none
  | 0, _, _, _, _ => rfl
  | fuel + 1, s, o, hS, ho => by
    obtain ⟨m, y, hb, hy, hSy⟩ := hS o ho
    have hf := (WeightsOnly.condSetWeight s o (piEffectiveWeight s o)).sameLinks
    simp only [piPropagateChain, hb]
    rw [hf.mutexes_eq, hy]
    exact piPropagateChain_eq_none_of_closed (hS.of_sameLinks hf) hSy

/-- Changing the waiters of a mutex keeps every owner. -/
theorem owner_modifyWaiters (s : PiState) (m n : Nat) (f : List Nat → List Nat) :
    ((s.modifyMutex m fun x => { x with piWaiters := f x.piWaiters }).mutexes n).owner =
      (s.mutexes n).owner := by
  rw [modifyMutex_mutexes]
  split
  · next hn => rw [hn]
  · rfl

/-- rt_mutex_lock that closes an ABBA cycle does not return: task b, which
owns m₂, queues on m₁, whose owner a waits for m₂, and the chain walk from a
goes round a and b for ever, with m₁'s spinlock held. -/
theorem piStep_attempt_hangs_of_cycle {sys : PiSystem} {a b m₁ m₂ : Nat} {waited : Bool}
    (hpc : sys.pc b = .attempt m₁ waited) (h₁ : (sys.state.mutexes m₁).owner = some a)
    (hab : a ≠ b) (ha : (sys.state.tasks a).blockedOn = some m₂)
    (h₂ : (sys.state.mutexes m₂).owner = some b) (hb : (sys.state.tasks b).blockedOn ≠ some m₁)
    (fuel : Nat) : piStep fuel sys b .attempt = none := by
  unfold piStep lockAttempt
  simp only [hpc, h₁, if_neg hab, resetWeights_blockedOn, ne_eq, hb, not_false_eq_true, if_true,
    Option.map_eq_none_iff]
  unfold piWaiterAdd
  dsimp only
  rw [owner_modifyWaiters, setBlockedOn_mutexes, resetWeights_mutexes, h₁]
  -- after b queues on m₁, a and b are each blocked on a mutex the other owns
  refine piPropagateChain_eq_none_of_closed (S := fun x => x = a ∨ x = b) ?_ (.inl rfl)
  rintro x (rfl | rfl)
  · refine ⟨m₂, b, ?_, ?_, .inr rfl⟩
    · simp [hab, ha]
    · rw [owner_modifyWaiters, setBlockedOn_mutexes, resetWeights_mutexes, h₂]
  · refine ⟨m₁, a, by simp, ?_, .inl rfl⟩
    rw [owner_modifyWaiters, setBlockedOn_mutexes, resetWeights_mutexes, h₁]

/-- Task 1 holds mutex 0 and waits for mutex 1, which task 2 holds; task 2's
rt_mutex_lock of mutex 0 never returns. -/
theorem piStep_attempt_hangs_of_abba :
    let sys := (piRun 4 (PiSystem.init some) [(1, .trylock 0), (2, .trylock 1), (1, .lock 1),
      (1, .attempt), (2, .lock 0)]).get rfl
    PiReachable sys ∧ ∀ fuel, piStep fuel sys 2 .attempt = none := by
  intro sys
  refine ⟨(PiReachable.init some).run (Option.some_get _).symm, fun fuel => ?_⟩
  exact piStep_attempt_hangs_of_cycle (show sys.pc 2 = .attempt 0 false by decide)
    (show (sys.state.mutexes 0).owner = some 1 by decide) (by decide)
    (show (sys.state.tasks 1).blockedOn = some 1 by decide) (by decide) (by decide) fuel

end Uinxed.Pi
