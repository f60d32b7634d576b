/-
  Ipc/RtMutexSpec.lean --- the weights priority inheritance leaves, over every
  interleaving of the rt_mutex operations.

  Every task the kernel creates runs at SCHED_NICE_0_LOAD, and nothing in the
  kernel changes a weight but pi_propagate_chain, which stores either a base
  weight or a waiter's pi_weight, both of them copies of a weight taken when
  the task locked.  So every task keeps running at SCHED_NICE_0_LOAD, and no
  waiter donates more (WeightInv).  Priority inheritance then holds along
  every owner chain, and an owner that releases a mutex runs at its base
  weight, although pi_effective_weight reads the top waiter of the mutex the
  owner is itself blocked on and not of the mutexes it owns.  The boot tasks,
  whose base and pi weights are 0, join an owner chain or a PI tree only after
  rt_mutex_lock or rt_mutex_trylock has reset both.
-/
import Uinxed.Ipc.RtMutex

set_option autoImplicit false

namespace Uinxed.Pi

open PiState

/-! ## Reachable systems -/

/-- The systems a booted kernel reaches by steps of its tasks. -/
inductive PiReachable : PiSystem → Prop where
  | init (pids : Nat → Option Nat) : PiReachable (PiSystem.init pids)
  | step {sys sys' : PiSystem} (fuel t : Nat) (a : PiAction) :
      PiReachable sys → piStep fuel sys t a = some sys' → PiReachable sys'

/-- Every run from a reachable system ends in a reachable system. -/
theorem PiReachable.run {fuel : Nat} :
    ∀ {sys sys' : PiSystem} {steps : List (Nat × PiAction)}, PiReachable sys →
      piRun fuel sys steps = some sys' → PiReachable sys'
  | _, _, [], h, hr => by
    simp only [piRun, Option.some.injEq] at hr
    exact hr ▸ h
  | _, _, (t, a) :: _, h, hr => by
    simp only [piRun] at hr
    obtain ⟨mid, hmid, hrest⟩ := Option.bind_eq_some_iff.mp hr
    exact PiReachable.run (h.step fuel t a hmid) hrest

/-- What a step of task t can do: one case per section of the operations,
with the action and the program counter it starts from. -/
theorem piStep_cases {fuel t : Nat} {sys sys' : PiSystem} {a : PiAction}
    (h : piStep fuel sys t a = some sys') :
    (∃ m, a = .trylock m ∧ sys.pc t = .idle ∧ sys' = ⟨(rtMutexTrylock sys.state m t).1, sys.pc⟩) ∨
    (∃ m, a = .lock m ∧ sys.pc t = .idle ∧
      sys' = ⟨sys.state, Function.update sys.pc t (.attempt m false)⟩) ∨
    (∃ m waited r, a = .attempt ∧ sys.pc t = .attempt m waited ∧
      lockAttempt fuel sys.state m t waited = some r ∧
      sys' = ⟨r.1, Function.update sys.pc t (LockPc.afterAttempt m waited r.2)⟩) ∨
    (∃ m waited, a = .recheck ∧ sys.pc t = .prepared m waited ∧
      sys' = ⟨sys.state, Function.update sys.pc t
        (LockPc.afterRecheck (sys.state.mutexes m).owner t m waited)⟩) ∨
    (∃ m waited s, a = .withdraw ∧ sys.pc t = .withdrawing m waited ∧
      lockWithdraw fuel sys.state t = some s ∧
      sys' = ⟨s, Function.update sys.pc t (.attempt m waited)⟩) ∨
    (∃ m r, a = .wake ∧ sys.pc t = .sleeping m ∧ lockAfterWake fuel sys.state m t = some r ∧
      sys' = ⟨r.1, Function.update sys.pc t (LockPc.afterWake m r.2)⟩) ∨
    (∃ m r, a = .unlock m ∧ sys.pc t = .idle ∧ rtMutexUnlock fuel sys.state m t = some r ∧
      sys' = ⟨r.1, sys.pc⟩) := by
  unfold piStep at h
  split at h
  next m hpc => exact .inl ⟨m, rfl, hpc, (Option.some.inj h).symm⟩
  next m hpc => exact .inr <| .inl ⟨m, rfl, hpc, (Option.some.inj h).symm⟩
  next m waited hpc =>
    obtain ⟨r, hr, rfl⟩ := Option.map_eq_some_iff.mp h
    exact .inr <| .inr <| .inl ⟨m, waited, r, rfl, hpc, hr, rfl⟩
  next m waited hpc =>
    exact .inr <| .inr <| .inr <| .inl ⟨m, waited, rfl, hpc, (Option.some.inj h).symm⟩
  next m waited hpc =>
    obtain ⟨s, hs, rfl⟩ := Option.map_eq_some_iff.mp h
    exact .inr <| .inr <| .inr <| .inr <| .inl ⟨m, waited, s, rfl, hpc, hs, rfl⟩
  next m hpc =>
    obtain ⟨r, hr, rfl⟩ := Option.map_eq_some_iff.mp h
    exact .inr <| .inr <| .inr <| .inr <| .inr <| .inl ⟨m, r, rfl, hpc, hr, rfl⟩
  next m hpc =>
    obtain ⟨r, hr, rfl⟩ := Option.map_eq_some_iff.mp h
    exact .inr <| .inr <| .inr <| .inr <| .inr <| .inr ⟨m, r, rfl, hpc, hr, rfl⟩
  next => cases h

/-! ## The chain walk changes weights only -/

/-- s' has the links and the base and pi weights of s: at most the weights
differ. -/
structure WeightsOnly (s s' : PiState) : Prop where
  mutexes_eq : s'.mutexes = s.mutexes
  blockedOn_eq : ∀ t, (s'.tasks t).blockedOn = (s.tasks t).blockedOn
  baseWeight_eq : ∀ t, (s'.tasks t).baseWeight = (s.tasks t).baseWeight
  piWeight_eq : ∀ t, (s'.tasks t).piWeight = (s.tasks t).piWeight

namespace WeightsOnly

theorem refl (s : PiState) : WeightsOnly s s :=
  ⟨rfl, fun _ => rfl, fun _ => rfl, fun _ => rfl⟩

theorem trans {s₁ s₂ s₃ : PiState} (h₁ : WeightsOnly s₁ s₂) (h₂ : WeightsOnly s₂ s₃) :
    WeightsOnly s₁ s₃ :=
  ⟨h₂.mutexes_eq.trans h₁.mutexes_eq, fun t => (h₂.blockedOn_eq t).trans (h₁.blockedOn_eq t),
    fun t => (h₂.baseWeight_eq t).trans (h₁.baseWeight_eq t),
    fun t => (h₂.piWeight_eq t).trans (h₁.piWeight_eq t)⟩

theorem setWeight (s : PiState) (o w : Nat) : WeightsOnly s (s.setWeight o w) :=
  ⟨rfl, fun t => by simp, fun t => by simp, fun t => by simp⟩

/-- The write pi_propagate_chain makes when the weight changes. -/
theorem condSetWeight (s : PiState) (o w : Nat) :
    WeightsOnly s (if (s.tasks o).weight ≠ w then s.setWeight o w else s) := by
  split
  · exact setWeight s o w
  · exact refl s

end WeightsOnly

/-- The weight pi_propagate_chain leaves after its write: the new one, whether
it wrote it or found it already there. -/
theorem condSetWeight_weight (s : PiState) (o w u : Nat) :
    ((if (s.tasks o).weight ≠ w then s.setWeight o w else s).tasks u).weight =
      if u = o then w else (s.tasks u).weight := by
  split
  · exact setWeight_weight o w u
  · next hw =>
    rw [not_not] at hw
    split
    · next hu => exact hu ▸ hw
    · rfl

/-- pi_propagate_chain changes weights only. -/
theorem piPropagateChain_weightsOnly {fuel : Nat} {s s' : PiState} {start : Option Nat}
    (hp : piPropagateChain fuel s start = some s') : WeightsOnly s s' := by
  induction fuel, s, start using piPropagateChain.induct with
  | case1 fuel s =>
    simp only [piPropagateChain, Option.some.injEq] at hp
    exact hp ▸ WeightsOnly.refl s
  | case2 s o => simp [piPropagateChain] at hp
  | case3 fuel s o hb =>
    simp only [piPropagateChain, hb, Option.some.injEq] at hp
    exact hp ▸ WeightsOnly.condSetWeight s o _
  | case4 fuel s o m hb _ _ ih =>
    simp only [piPropagateChain, hb] at hp
    exact (WeightsOnly.condSetWeight s o _).trans (ih hp)

/-! ## Every task runs at SCHED_NICE_0_LOAD -/

/-- Every task runs at SCHED_NICE_0_LOAD and donates at most that; a task that
owns a mutex or waits in a PI tree has base weight SCHED_NICE_0_LOAD. -/
structure WeightInv (s : PiState) : Prop where
  weight_eq : ∀ t, (s.tasks t).weight = schedNice0Load
  piWeight_le : ∀ t, (s.tasks t).piWeight ≤ schedNice0Load
  owner_base : ∀ m o, (s.mutexes m).owner = some o → (s.tasks o).baseWeight = schedNice0Load
  waiter_base : ∀ m t, t ∈ (s.mutexes m).piWaiters → (s.tasks t).baseWeight = schedNice0Load

namespace WeightInv

variable {s : PiState}

theorem init (pids : Nat → Option Nat) : WeightInv (PiState.init pids) where
  weight_eq t := by
    dsimp only [PiState.init]
    split <;> rfl
  piWeight_le t := by
    dsimp only [PiState.init]
    split <;> simp [PiTask.create, PiTask.boot]
  owner_base m o ho := by cases ho
  waiter_base m t ht := by cases ht

/-- A change of weights only keeps the invariant when every weight stays
SCHED_NICE_0_LOAD. -/
theorem of_weightsOnly {s' : PiState} (h : WeightInv s) (hf : WeightsOnly s s')
    (hw : ∀ t, (s'.tasks t).weight = schedNice0Load) : WeightInv s' where
  weight_eq := hw
  piWeight_le t := hf.piWeight_eq t ▸ h.piWeight_le t
  owner_base m o ho := by
    rw [hf.baseWeight_eq]
    exact h.owner_base m o (hf.mutexes_eq ▸ ho)
  waiter_base m t ht := by
    rw [hf.baseWeight_eq]
    exact h.waiter_base m t (hf.mutexes_eq ▸ ht)

/-- The weight pi_effective_weight computes for a task of base weight
SCHED_NICE_0_LOAD: no waiter donates more. -/
theorem piEffectiveWeight_eq (h : WeightInv s) {o : Nat}
    (ho : (s.tasks o).baseWeight = schedNice0Load) : piEffectiveWeight s o = schedNice0Load := by
  unfold piEffectiveWeight
  split
  · exact ho
  · split
    · exact ho
    · next top _ _ =>
      rw [if_neg (by rw [ho]; exact Nat.not_lt.mpr (h.piWeight_le top)), ho]

/-- The walk keeps the invariant when it starts at a task of base weight
SCHED_NICE_0_LOAD: it goes on to owners only, and writes SCHED_NICE_0_LOAD. -/
theorem piPropagateChain {fuel : Nat} {s' : PiState} {start : Option Nat} (h : WeightInv s)
    (hs : ∀ o, start = some o → (s.tasks o).baseWeight = schedNice0Load)
    (hp : Uinxed.Pi.piPropagateChain fuel s start = some s') : WeightInv s' := by
  induction fuel, s, start using Uinxed.Pi.piPropagateChain.induct with
  | case1 fuel s =>
    simp only [Uinxed.Pi.piPropagateChain, Option.some.injEq] at hp
    exact hp ▸ h
  | case2 s o => simp [Uinxed.Pi.piPropagateChain] at hp
  | case3 fuel s o hb =>
    simp only [Uinxed.Pi.piPropagateChain, hb, Option.some.injEq] at hp
    subst hp
    refine h.of_weightsOnly (WeightsOnly.condSetWeight s o _) fun t => ?_
    rw [condSetWeight_weight]
    split
    · exact hs o rfl
    · exact h.weight_eq t
  | case4 fuel s o m hb _ _ ih =>
    simp only [Uinxed.Pi.piPropagateChain, hb] at hp
    have hf := WeightsOnly.condSetWeight s o (piEffectiveWeight s o)
    have h' : WeightInv (if (s.tasks o).weight ≠ piEffectiveWeight s o then
        s.setWeight o (piEffectiveWeight s o) else s) := by
      refine h.of_weightsOnly hf fun t => ?_
      rw [condSetWeight_weight]
      split
      · exact h.piEffectiveWeight_eq (hs o rfl)
      · exact h.weight_eq t
    -- the walk goes on to the owner of the mutex o is blocked on
    refine ih h' (fun o' ho' => h'.owner_base m o' ho') hp

theorem setBlockedOn (h : WeightInv s) (t : Nat) (m : Option Nat) :
    WeightInv (s.setBlockedOn t m) where
  weight_eq u := by simpa using h.weight_eq u
  piWeight_le u := by simpa using h.piWeight_le u
  owner_base n o ho := by simpa using h.owner_base n o ho
  waiter_base n u hu := by simpa using h.waiter_base n u hu

theorem resetWeights (h : WeightInv s) (t : Nat) : WeightInv (s.resetWeights t) where
  weight_eq u := by simpa using h.weight_eq u
  piWeight_le u := by
    rw [resetWeights_piWeight]
    split
    · exact Nat.le_of_eq (h.weight_eq u)
    · exact h.piWeight_le u
  owner_base n o ho := by
    rw [resetWeights_baseWeight]
    split
    · exact h.weight_eq o
    · exact h.owner_base n o ho
  waiter_base n u hu := by
    rw [resetWeights_baseWeight]
    split
    · exact h.weight_eq u
    · exact h.waiter_base n u hu

/-- A write of one mutex keeps the invariant when its new owner and its new
waiters have base weight SCHED_NICE_0_LOAD. -/
theorem modifyMutex (h : WeightInv s) (m : Nat) (f : RtMutex → RtMutex)
    (ho : ∀ o, (f (s.mutexes m)).owner = some o → (s.tasks o).baseWeight = schedNice0Load)
    (hw : ∀ t ∈ (f (s.mutexes m)).piWaiters, (s.tasks t).baseWeight = schedNice0Load) :
    WeightInv (s.modifyMutex m f) where
  weight_eq := h.weight_eq
  piWeight_le := h.piWeight_le
  owner_base n o hn := by
    rw [modifyMutex_mutexes] at hn
    split at hn
    · next hnm => exact ho o (hnm ▸ hn)
    · exact h.owner_base n o hn
  waiter_base n t hn := by
    rw [modifyMutex_mutexes] at hn
    split at hn
    · next hnm => exact hw t (hnm ▸ hn)
    · exact h.waiter_base n t hn

/-- Taking a free mutex, as rt_mutex_trylock and rt_mutex_lock do: the new
owner's base weight is reset to its weight. -/
theorem take (h : WeightInv s) (m self : Nat) :
    WeightInv ((s.modifyMutex m fun x => { x with owner := some self, ownerDied := false }).resetWeights
      self) where
  weight_eq u := by simpa using h.weight_eq u
  piWeight_le u := by
    rw [resetWeights_piWeight]
    split
    · exact Nat.le_of_eq (h.weight_eq u)
    · exact h.piWeight_le u
  owner_base n o ho := by
    rw [resetWeights_baseWeight, modifyMutex_tasks]
    split
    · exact h.weight_eq o
    · next hos =>
      rw [resetWeights_mutexes, modifyMutex_mutexes] at ho
      split at ho
      · exact absurd (Option.some.inj ho).symm hos
      · exact h.owner_base n o ho
  waiter_base n u hu := by
    rw [resetWeights_baseWeight, modifyMutex_tasks]
    rw [resetWeights_mutexes, modifyMutex_mutexes] at hu
    split
    · exact h.weight_eq u
    · split at hu
      · next hnm => exact h.waiter_base m u (hnm ▸ hu)
      · exact h.waiter_base n u hu

end WeightInv

/-! ## The operations keep it -/

variable {s s' : PiState} {fuel : Nat}

theorem mem_insertWaiter {less : Nat → Nat → Bool} {t x : Nat} :
    ∀ {l : List Nat}, x ∈ insertWaiter less t l ↔ x = t ∨ x ∈ l
  | [] => by simp [insertWaiter]
  | e :: rest => by
    unfold insertWaiter
    split
    · simp
    · rw [List.mem_cons, mem_insertWaiter, List.mem_cons]
      exact or_left_comm

theorem WeightInv.piWaiterRemove (h : WeightInv s) {waiter : Nat}
    (hp : Uinxed.Pi.piWaiterRemove fuel s waiter = some s') : WeightInv s' := by
  unfold Uinxed.Pi.piWaiterRemove at hp
  split at hp
  · exact (Option.some.inj hp) ▸ h
  · next m _ =>
    -- erasing the waiter keeps the owner and leaves fewer waiters
    have he : WeightInv (if (s.mutexes m).piWaiters ≠ [] then
        s.modifyMutex m fun x => { x with piWaiters := x.piWaiters.erase waiter } else s) := by
      split
      · exact h.modifyMutex m _ (h.owner_base m) fun t ht => h.waiter_base m t (List.mem_of_mem_erase ht)
      · exact h
    refine (he.setBlockedOn waiter none).piPropagateChain (fun o ho => ?_) hp
    simp only [setBlockedOn_mutexes, setBlockedOn_baseWeight] at ho ⊢
    exact he.owner_base m o ho

theorem WeightInv.piWaiterAdd (h : WeightInv s) {waiter m : Nat}
    (hw : (s.tasks waiter).baseWeight = schedNice0Load)
    (hp : Uinxed.Pi.piWaiterAdd fuel s waiter m = some s') : WeightInv s' := by
  unfold Uinxed.Pi.piWaiterAdd at hp
  dsimp only at hp
  have hb := h.setBlockedOn waiter (some m)
  -- the waiter joins the tree; the owner stays
  have hi := hb.modifyMutex m
    (fun x => { x with piWaiters := insertWaiter (piWaiterLess (s.setBlockedOn waiter (some m))) waiter x.piWaiters })
    (hb.owner_base m) (fun t ht => by
      rcases mem_insertWaiter.mp ht with rfl | ht
      · simpa using hw
      · exact hb.waiter_base m t ht)
  exact hi.piPropagateChain (fun o ho => hi.owner_base m o ho) hp

theorem WeightInv.rtMutexTrylock (h : WeightInv s) (m self : Nat) :
    WeightInv (Uinxed.Pi.rtMutexTrylock s m self).1 := by
  unfold Uinxed.Pi.rtMutexTrylock
  split
  · exact h
  · exact h.take m self

theorem WeightInv.lockAttempt (h : WeightInv s) {m self : Nat} {waited : Bool}
    {r : PiState × LockAttempt} (hp : Uinxed.Pi.lockAttempt fuel s m self waited = some r) :
    WeightInv r.1 := by
  unfold Uinxed.Pi.lockAttempt at hp
  split at hp
  · cases hp
    exact h.take m self
  · next o _ =>
    by_cases hown : o = self
    · rw [if_pos hown] at hp
      cases hp
      exact h
    · rw [if_neg hown] at hp
      dsimp only at hp
      split at hp
      · -- queue as a waiter, with the base weight just reset
        obtain ⟨s', hs', rfl⟩ := Option.map_eq_some_iff.mp hp
        exact (h.resetWeights self).piWaiterAdd (by simpa using h.weight_eq self) hs'
      · cases hp
        exact h.resetWeights self

theorem WeightInv.lockAfterWake (h : WeightInv s) {m self : Nat} {r : PiState × Option Int}
    (hp : Uinxed.Pi.lockAfterWake fuel s m self = some r) : WeightInv r.1 := by
  unfold Uinxed.Pi.lockAfterWake at hp
  obtain ⟨s', hs', rfl⟩ := Option.map_eq_some_iff.mp hp
  split at hs'
  · exact h.piWaiterRemove hs'
  · exact (Option.some.inj hs') ▸ h

/-- The tasks after rt_mutex_unlock's hand-off: the top waiter is no longer
blocked. -/
theorem unlockHandOff_tasks (m u : Nat) :
    (unlockHandOff s m).tasks u =
      if (s.mutexes m).piWaiters.head? = some u then { s.tasks u with blockedOn := none }
      else s.tasks u := by
  unfold unlockHandOff rtMutexWakeTopWaiter
  rcases hw : (s.mutexes m).piWaiters with _ | ⟨top, rest⟩
  · simp [hw]
  · simp only [modifyMutex_mutexes, hw, setBlockedOn, List.head?_cons, Option.some.injEq]
    by_cases hu : u = top
    · simp [hu]
    · simp [hu, Ne.symm hu]

/-- The mutexes after rt_mutex_unlock's hand-off: the top waiter leaves the
tree and owns the mutex, which is free when the tree was empty. -/
theorem unlockHandOff_mutexes (m n : Nat) :
    (unlockHandOff s m).mutexes n =
      if n = m then
        { s.mutexes m with
          owner := (s.mutexes m).piWaiters.head?
          piWaiters := (s.mutexes m).piWaiters.tail }
      else s.mutexes n := by
  unfold unlockHandOff rtMutexWakeTopWaiter
  rcases hw : (s.mutexes m).piWaiters with _ | ⟨top, rest⟩
  · by_cases hn : n = m
    · subst hn
      simp [hw]
    · simp [hw, hn]
  · by_cases hn : n = m
    · subst hn
      simp [hw]
    · simp [hw, hn]

theorem unlockHandOff_owner (m n : Nat) :
    ((unlockHandOff s m).mutexes n).owner =
      if n = m then (s.mutexes m).piWaiters.head? else (s.mutexes n).owner := by
  rw [unlockHandOff_mutexes]
  split <;> rfl

theorem unlockHandOff_piWaiters (m n : Nat) :
    ((unlockHandOff s m).mutexes n).piWaiters =
      if n = m then (s.mutexes m).piWaiters.tail else (s.mutexes n).piWaiters := by
  rw [unlockHandOff_mutexes]
  split <;> rfl

theorem unlockHandOff_ownerDied (m n : Nat) :
    ((unlockHandOff s m).mutexes n).ownerDied = (s.mutexes n).ownerDied := by
  rw [unlockHandOff_mutexes]
  split
  · next hn => rw [hn]
  · rfl

theorem unlockHandOff_blockedOn (m u : Nat) :
    ((unlockHandOff s m).tasks u).blockedOn =
      if (s.mutexes m).piWaiters.head? = some u then none else (s.tasks u).blockedOn := by
  rw [unlockHandOff_tasks]
  split <;> rfl

/-- The hand-off changes no weight. -/
theorem unlockHandOff_weights (m u : Nat) :
    ((unlockHandOff s m).tasks u).weight = (s.tasks u).weight ∧
      ((unlockHandOff s m).tasks u).baseWeight = (s.tasks u).baseWeight ∧
      ((unlockHandOff s m).tasks u).piWeight = (s.tasks u).piWeight := by
  rw [unlockHandOff_tasks]
  split <;> exact ⟨rfl, rfl, rfl⟩

/-- The hand-off of rt_mutex_unlock moves the top waiter from the tree to the
owner field. -/
theorem WeightInv.unlockHandOff (h : WeightInv s) (m : Nat) : WeightInv (unlockHandOff s m) where
  weight_eq u := by
    rw [(unlockHandOff_weights m u).1]
    exact h.weight_eq u
  piWeight_le u := by
    rw [(unlockHandOff_weights m u).2.2]
    exact h.piWeight_le u
  owner_base n o ho := by
    rw [(unlockHandOff_weights m o).2.1]
    rw [unlockHandOff_mutexes] at ho
    split at ho
    · exact h.waiter_base m o (List.mem_of_mem_head? ho)
    · exact h.owner_base n o ho
  waiter_base n t ht := by
    rw [(unlockHandOff_weights m t).2.1]
    rw [unlockHandOff_mutexes] at ht
    split at ht
    · exact h.waiter_base m t (List.mem_of_mem_tail ht)
    · exact h.waiter_base n t ht

theorem WeightInv.rtMutexUnlock (h : WeightInv s) {m self : Nat} {r : PiState × Int}
    (hp : Uinxed.Pi.rtMutexUnlock fuel s m self = some r) : WeightInv r.1 := by
  unfold Uinxed.Pi.rtMutexUnlock at hp
  split_ifs at hp with hown
  · cases hp
    exact h
  · obtain ⟨s', hs', rfl⟩ := Option.map_eq_some_iff.mp hp
    have hself := h.owner_base m self (not_not.mp hown)
    refine (h.unlockHandOff m).piPropagateChain (fun o ho => ?_) hs'
    cases ho
    rw [(unlockHandOff_weights m self).2.1, hself]

/-- rt_mutex_unlock changes no base weight. -/
theorem rtMutexUnlock_baseWeight {m self : Nat} {r : PiState × Int}
    (hp : rtMutexUnlock fuel s m self = some r) (u : Nat) :
    (r.1.tasks u).baseWeight = (s.tasks u).baseWeight := by
  unfold rtMutexUnlock at hp
  split_ifs at hp
  · cases hp
    rfl
  · obtain ⟨s', hs', rfl⟩ := Option.map_eq_some_iff.mp hp
    rw [(piPropagateChain_weightsOnly hs').baseWeight_eq, (unlockHandOff_weights m u).2.1]

/-! ## Over every run -/

/-- Every section of every task keeps the invariant. -/
theorem WeightInv.piStep {sys sys' : PiSystem} {t : Nat} {a : PiAction} (h : WeightInv sys.state)
    (hs : piStep fuel sys t a = some sys') : WeightInv sys'.state := by
  rcases piStep_cases hs with ⟨m, -, -, rfl⟩ | ⟨m, -, -, rfl⟩ | ⟨m, waited, r, -, -, hr, rfl⟩ |
    ⟨m, waited, -, -, rfl⟩ | ⟨m, waited, s, -, -, hr, rfl⟩ | ⟨m, r, -, -, hr, rfl⟩ |
    ⟨m, r, -, -, hr, rfl⟩
  · exact h.rtMutexTrylock m t
  · exact h
  · exact h.lockAttempt hr
  · exact h
  · exact h.piWaiterRemove hr
  · exact h.lockAfterWake hr
  · exact h.rtMutexUnlock hr

theorem WeightInv.reachable {sys : PiSystem} (h : PiReachable sys) : WeightInv sys.state := by
  induction h with
  | init pids => exact WeightInv.init pids
  | step fuel t a _ hs ih => exact ih.piStep hs

/-- o' is reached from o by following blocked_on to a mutex and on to its
owner, any number of times: the tasks pi_propagate_chain walks from o. -/
inductive OwnerChain (s : PiState) : Nat → Nat → Prop where
  | refl (o : Nat) : OwnerChain s o o
  | step {o m o' o'' : Nat} : (s.tasks o).blockedOn = some m → (s.mutexes m).owner = some o' →
      OwnerChain s o' o'' → OwnerChain s o o''

/-- Over every interleaving of the rt_mutex operations, a task waiting on a
mutex donates no more than the weight of every task on the owner chain from
the mutex's owner, and a task that releases a mutex runs at its base weight
afterwards. -/
theorem rtMutex_priority_inheritance {sys : PiSystem} (h : PiReachable sys) :
    (∀ w m o o', (sys.state.tasks w).blockedOn = some m → (sys.state.mutexes m).owner = some o →
      OwnerChain sys.state o o' → (sys.state.tasks w).piWeight ≤ (sys.state.tasks o').weight) ∧
    (∀ fuel m o sys', (sys.state.mutexes m).owner = some o →
      piStep fuel sys o (.unlock m) = some sys' →
      (sys'.state.tasks o).weight = (sys'.state.tasks o).baseWeight ∨
      ∃ m' w, (sys'.state.mutexes m').owner = some o ∧ (sys'.state.tasks w).blockedOn = some m' ∧
        (sys'.state.tasks o).baseWeight < (sys'.state.tasks w).piWeight) := by
  have hinv := WeightInv.reachable h
  refine ⟨fun w m o o' _ _ _ => ?_, fun fuel m o sys' ho hs => .inl ?_⟩
  · rw [hinv.weight_eq o']
    exact hinv.piWeight_le w
  · -- only the unlock section starts with this action
    rcases piStep_cases hs with ⟨_, ha, -⟩ | ⟨_, ha, -⟩ | ⟨_, _, _, ha, -⟩ | ⟨_, _, ha, -⟩ |
      ⟨_, _, _, ha, -⟩ | ⟨_, _, ha, -⟩ | ⟨m', r, ha, -, hr, rfl⟩ <;> cases ha
    rw [(hinv.rtMutexUnlock hr).weight_eq o, rtMutexUnlock_baseWeight hr o, hinv.owner_base m o ho]

/-- Task 3 holds mutex 1 and task 1 holds mutex 0; task 1 waits for mutex 1,
then task 2 for mutex 0: task 2's donation is covered along the chain 1, 3. -/
theorem rtMutex_priority_inheritance_chain_of_two :
    let sys := (piRun 2 (PiSystem.init some) [(3, .trylock 1), (1, .trylock 0), (1, .lock 1),
      (1, .attempt), (2, .lock 0), (2, .attempt)]).get rfl
    PiReachable sys ∧ (sys.state.tasks 2).blockedOn = some 0 ∧ (sys.state.mutexes 0).owner = some 1 ∧
      OwnerChain sys.state 1 3 ∧ (sys.state.tasks 2).piWeight ≤ (sys.state.tasks 3).weight := by
  intro sys
  have hr : PiReachable sys := (PiReachable.init some).run (Option.some_get _).symm
  have hb : (sys.state.tasks 2).blockedOn = some 0 := by decide
  have ho : (sys.state.mutexes 0).owner = some 1 := by decide
  have hc : OwnerChain sys.state 1 3 := .step (m := 1) (by decide) (by decide) (.refl 3)
  exact ⟨hr, hb, ho, hc, (rtMutex_priority_inheritance hr).1 2 0 1 3 hb ho hc⟩

end Uinxed.Pi
