/-
  Security/SeccompRun.lean --- filter chains over every run of the seccomp
  entry points.

  Each step of SeccompEvent keeps SeccompInv, and each takes every task that
  lives through it to a task that Grows from it.  A fork takes a reference on
  the parent's head; task_free puts the head of the task it frees; a ptrace
  lookup holds a reference on a filter of some chain until its put; the
  install paths are the ones of Security/SeccompInv.lean.  By induction over
  the run, every reachable state satisfies SeccompInv.  So in every
  reachable state every filter on a task's chain is live with a positive
  count, and from every reachable state each step only adds filters in front
  of a task's chain, never leaves strict or filter mode, and never clears
  no_new_privs.
-/
import Uinxed.Security.SeccompInv

set_option autoImplicit false

namespace Uinxed.Seccomp

open RcChain SeccompSystem

/-! ## Adding and removing tasks -/

/-- A new task on the list adds the reference its head holds. -/
theorem refs_addTask {s : SeccompSystem} {t : Nat} (ht : t ∉ s.threads) (u : SeccompTask) (f : Nat) :
    { s.setTask t u with threads := s.threads ++ [t] }.refs f = s.refs f + if u.filter = some f then 1 else 0 := by
  have h := countP_update_of_not_mem (fun o : Option SeccompTask => decide (o.bind SeccompTask.filter = some f))
    s.tasks ht (some u)
  show (s.threads ++ [t]).countP (fun g => (Function.update s.tasks t (some u) g).bind SeccompTask.filter = some f) +
      s.held.count f = _
  rw [List.countP_append, h]
  simp only [List.countP_singleton, Function.update_self, Option.bind_some, decide_eq_true_eq]
  unfold refs
  omega

/-- A task without a head leaves the list without changing any count. -/
theorem refs_removeTask {s : SeccompSystem} (hnd : s.threads.Nodup) {t : Nat} (hmem : t ∈ s.threads)
    {u : SeccompTask} (hu : s.tasks t = some u) (hf : u.filter = none) :
    { s with tasks := Function.update s.tasks t none, threads := s.threads.erase t }.refs = s.refs := by
  funext f
  have hout := countP_update_of_not_mem (fun o : Option SeccompTask => decide (o.bind SeccompTask.filter = some f))
    s.tasks (hnd.not_mem_erase (a := t)) none
  have hperm := (List.perm_cons_erase hmem).countP_eq
    (fun g => decide ((s.tasks g).bind SeccompTask.filter = some f))
  simp only [List.countP_cons, hu, hf, Option.bind_some, reduceCtorEq, decide_false, Bool.false_eq_true, if_false,
    Nat.add_zero] at hperm
  show (s.threads.erase t).countP (fun g => (Function.update s.tasks t none g).bind SeccompTask.filter = some f) +
      s.held.count f = _
  rw [hout]
  unfold refs
  omega

/-- A reference held outside the tasks, as the ptrace lookup takes one. -/
theorem refs_hold (s : SeccompSystem) (g z : Nat) :
    { s with held := g :: s.held }.refs z = s.refs z + if z = g then 1 else 0 := by
  unfold refs
  by_cases hz : z = g
  · subst hz
    simp only [List.count_cons_self, if_true]
    omega
  · simp only [List.count_cons, beq_iff_eq, Ne.symm hz, hz, if_false, Nat.add_zero]

/-- Dropping a held reference, as the put after the lookup does. -/
theorem refs_release {s : SeccompSystem} {f : Nat} (hf : f ∈ s.held) (z : Nat) :
    { s with held := s.held.erase f }.refs z + (if z = f then 1 else 0) = s.refs z := by
  have hcount := List.count_erase (a := z) (b := f) (l := s.held)
  unfold refs
  by_cases hz : z = f
  · subst hz
    have hpos : 0 < s.held.count z := List.count_pos_iff.mpr hf
    simp only [beq_self_eq_true, if_true] at hcount ⊢
    omega
  · have hbeq : (f == z) = false := by simpa using Ne.symm hz
    simp only [hbeq, hz, Bool.false_eq_true, if_false, Nat.sub_zero, Nat.add_zero] at hcount ⊢
    rw [hcount]

theorem nodup_append_fresh {l : List Nat} (hl : l.Nodup) {t : Nat} (ht : t ∉ l) : (l ++ [t]).Nodup := by
  refine List.nodup_append.mpr ⟨hl, List.nodup_singleton t, fun a ha b hb => ?_⟩
  rw [List.mem_singleton] at hb
  subst hb
  rintro rfl
  exact ht ha

section Events

variable {s : SeccompSystem} (hinv : SeccompInv s)
include hinv

omit hinv in
/-- A step that adds one fresh task and changes no chain and no other task. -/
theorem grows_of_fresh {s' : SeccompSystem} {t : Nat} (hfresh : s.tasks t = none)
    (htasks : ∀ q, q ≠ t → s'.tasks q = s.tasks q) (hchain : s'.chain = s.chain) : s.Grows s' := by
  refine grows_of_chains (fun q u u' hu hu' => ?_) fun _ _ _ _ _ _ _ => by rw [hchain]
  have hq : q ≠ t := fun h => by simp [h, hfresh] at hu
  rw [htasks q hq, hu, Option.some.injEq] at hu'
  exact hu'.symm

omit hinv in
theorem seccompCreate_of_fresh {t : Nat} (hfresh : s.tasks t = none) :
    seccompCreate s t = { s.setTask t ⟨t, false, .disabled, false, none⟩ with threads := s.threads ++ [t] } := by
  simp [seccompCreate, hfresh]

/-- process_create. -/
theorem SeccompInv.create (t : Nat) : SeccompInv (seccompCreate s t) ∧ s.Grows (seccompCreate s t) := by
  cases hfresh : s.tasks t with
  | some _ =>
    simp only [seccompCreate, hfresh]
    exact ⟨hinv, Grows.refl s⟩
  | none =>
    rw [seccompCreate_of_fresh hfresh]
    generalize hu : (⟨t, false, .disabled, false, none⟩ : SeccompTask) = u
    have hout : t ∉ s.threads := fun h => (hinv.mem_threads t).mpr h hfresh
    have hrefs : { s.setTask t u with threads := s.threads ++ [t] }.refs = s.refs :=
      funext fun f => by rw [refs_addTask hout, ← hu]; simp
    refine ⟨⟨hrefs ▸ hinv.accounted, ?_, fun q => ?_⟩, ?_⟩
    · exact nodup_append_fresh hinv.nodup hout
    · by_cases hq : q = t
      · subst hq
        simp
      · have hq' : ({ s.setTask t u with threads := s.threads ++ [t] }).tasks q = s.tasks q :=
          setTask_tasks_of_ne s _ hq
        rw [hq']
        simp only [List.mem_append, List.mem_singleton, hq, or_false]
        exact hinv.mem_threads q
    · exact grows_of_fresh hfresh (fun q hq => setTask_tasks_of_ne s _ hq) rfl

omit hinv in
theorem seccompFork_of_fresh {parent child : Nat} {pt : SeccompTask} (hparent : s.tasks parent = some pt)
    (hchild : s.tasks child = none) (thread : Bool) :
    seccompFork s parent child thread =
      seccompFilterGet { s.setTask child { (⟨if thread then pt.tgid else child, false, .disabled, false, none⟩ :
        SeccompTask) with mode := pt.mode, noNewPrivs := pt.noNewPrivs, filter := pt.filter } with
          threads := s.threads ++ [child] } pt.filter := by
  simp only [seccompFork, hparent, hchild]
  rfl

/-- fork and clone: the child shares the parent's head, with a reference of
its own. -/
theorem SeccompInv.fork (parent child : Nat) (thread : Bool) :
    SeccompInv (seccompFork s parent child thread) ∧ s.Grows (seccompFork s parent child thread) := by
  cases hparent : s.tasks parent with
  | none =>
    simp only [seccompFork, hparent]
    exact ⟨hinv, Grows.refl s⟩
  | some pt =>
    cases hchild : s.tasks child with
    | some _ =>
      simp only [seccompFork, hparent, hchild]
      exact ⟨hinv, Grows.refl s⟩
    | none =>
      rw [seccompFork_of_fresh hparent hchild thread]
      generalize hu : ({ (⟨if thread then pt.tgid else child, false, .disabled, false, none⟩ : SeccompTask) with
        mode := pt.mode, noNewPrivs := pt.noNewPrivs, filter := pt.filter } : SeccompTask) = u
      have huf : u.filter = pt.filter := by rw [← hu]
      have hout : child ∉ s.threads := fun h => (hinv.mem_threads child).mpr h hchild
      have hrefs := refs_addTask hout u
      refine ⟨⟨?_, nodup_append_fresh hinv.nodup hout, fun q => ?_⟩, ?_⟩
      · -- the child's reference is the one get takes
        cases hf : pt.filter with
        | none =>
          have hsame : { s.setTask child u with threads := s.threads ++ [child] }.refs = s.refs :=
            funext fun f => by rw [hrefs, huf, hf]; simp
          show Accounted s.filters s.nextFilter { s.setTask child u with threads := s.threads ++ [child] }.refs
          rw [hsame]
          exact hinv.accounted
        | some g =>
          refine hinv.accounted.get (hinv.accounted.refs_live g (hinv.refs_ne_zero hparent hf)) fun z => ?_
          rw [refs_seccompFilterGet, hrefs, huf, hf]
          simp [eq_comm]
      · by_cases hq : q = child
        · subst hq
          simp
        · have hq' : (seccompFilterGet { s.setTask child u with threads := s.threads ++ [child] } pt.filter).tasks q =
              s.tasks q := setTask_tasks_of_ne s _ hq
          rw [hq']
          simp only [seccompFilterGet_threads, List.mem_append, List.mem_singleton, hq, or_false]
          exact hinv.mem_threads q
      · exact grows_of_fresh hchild (fun q hq => setTask_tasks_of_ne s _ hq) (chain_seccompFilterGet _ _)

/-- The task becomes a zombie: nothing of its seccomp state changes. -/
theorem SeccompInv.exit (t : Nat) : SeccompInv (seccompExit s t) ∧ s.Grows (seccompExit s t) := by
  unfold seccompExit
  split
  · exact ⟨hinv, Grows.refl s⟩
  · rename_i u hu
    exact ⟨hinv.setTask hu rfl, grows_setTask hu rfl (.inr rfl) id⟩

/-- task_free: the task's head is put, then the task leaves the list. -/
theorem SeccompInv.free (t : Nat) : SeccompInv (taskFree s t) ∧ s.Grows (taskFree s t) := by
  cases hu : s.tasks t with
  | none =>
    -- nothing to release, and the task is not on the list
    have hout : t ∉ s.threads := fun h => (hinv.mem_threads t).mpr h hu
    have heq : taskFree s t = s := by
      have htasks : Function.update s.tasks t none = s.tasks := by
        rw [← hu, Function.update_eq_self]
      simp only [taskFree, seccompTaskRelease, hu, htasks, List.erase_of_not_mem hout]
    rw [heq]
    exact ⟨hinv, Grows.refl s⟩
  | some u =>
    set u₀ : SeccompTask := { u with filter := none, mode := .disabled }
    have hmem := hinv.mem_threads_of hu
    have hfree : taskFree s t = { seccompFilterPut (s.setTask t u₀) u.filter with
        tasks := Function.update (s.setTask t u₀).tasks t none, threads := s.threads.erase t } := by
      simp only [taskFree, seccompTaskRelease, hu]
      rfl
    have hmove : ∀ z, (s.setTask t u₀).refs z + (if u.filter = some z then 1 else 0) = s.refs z := by
      intro z
      simpa [u₀] using refs_setTask hinv.nodup hmem hu u₀ z
    -- the release drops the reference of the head
    have hrel : Accounted (seccompFilterPut (s.setTask t u₀) u.filter).filters s.nextFilter (s.setTask t u₀).refs ∧
        ∀ h, (s.setTask t u₀).refs h ≠ 0 →
          (seccompFilterPut (s.setTask t u₀) u.filter).chain (some h) = s.chain (some h) := by
      cases hg : u.filter with
      | none =>
        have : (s.setTask t u₀).refs = s.refs := funext fun z => by simpa [hg] using hmove z
        simp only [seccompFilterPut, put_none]
        exact ⟨this ▸ hinv.accounted, fun h _ => rfl⟩
      | some g =>
        have hR : ∀ z, (s.setTask t u₀).refs z + (if z = g then 1 else 0) = s.refs z := fun z => by
          simpa [hg, eq_comm] using hmove z
        obtain ⟨hA, hkeep⟩ := hinv.accounted.put_spec (hinv.head_lt hu hg) hR
        exact ⟨hA, fun h hh => hkeep h hh s.nextFilter⟩
    obtain ⟨hA, hkeep⟩ := hrel
    -- then the task leaves the list, without a head
    have hrefs : (taskFree s t).refs = (s.setTask t u₀).refs := by
      rw [hfree, ← refs_removeTask (s := s.setTask t u₀) hinv.nodup hmem (u := u₀) (by simp) rfl]
      rfl
    have hfree_tasks : ∀ q, (taskFree s t).tasks q = if q = t then none else s.tasks q := by
      intro q
      rw [hfree]
      split
      · next hq => subst hq; simp
      · next hq => exact (Function.update_of_ne hq _ _).trans (setTask_tasks_of_ne s _ hq)
    have hinv' : SeccompInv (taskFree s t) := by
      refine ⟨?_, ?_, fun q => ?_⟩
      · rw [hrefs, hfree]
        exact hA
      · rw [hfree]
        exact hinv.nodup.erase t
      · rw [hfree_tasks, show (taskFree s t).threads = s.threads.erase t by rw [hfree]]
        split
        · next hq => subst hq; simpa using hinv.nodup.not_mem_erase
        · next hq => rw [List.mem_erase_of_ne hq]; exact hinv.mem_threads q
    -- a task that survives kept its head, which still counts, so its chain stays
    have hsurvive : ∀ q w w', s.tasks q = some w → (taskFree s t).tasks q = some w' → w' = w := by
      intro q w w' hw hw'
      rw [hfree_tasks] at hw'
      split at hw'
      · cases hw'
      · rw [hw, Option.some.injEq] at hw'
        exact hw'.symm
    refine ⟨hinv', grows_of_chains hsurvive fun q w w' h hw hw' hh => ?_⟩
    have hw'h : w'.filter = some h := by rw [hsurvive q w w' hw hw', hh]
    rw [hfree]
    exact hkeep h (hrefs ▸ hinv'.refs_ne_zero hw' hw'h)

/-- seccomp_install_filter, on top of the lemmas of its locked section. -/
theorem SeccompInv.installFilter (cur : Nat) (flags : UInt64) (env : InstallEnv) :
    SeccompInv (seccompInstallFilter s cur flags env).1 ∧ s.Grows (seccompInstallFilter s cur flags env).1 := by
  have hkeep : SeccompInv s ∧ s.Grows s := ⟨hinv, Grows.refl s⟩
  unfold seccompInstallFilter
  split
  · exact hkeep
  split
  · exact hkeep
  split
  · exact hkeep
  split
  · exact hkeep
  split
  · exact hkeep
  · rename_i t ht
    split
    · exact hkeep
    split
    · exact hkeep
    · exact hinv.installLocked ht _ flags env

/-- seccomp_install_strict: only a task without seccomp enters strict mode. -/
theorem SeccompInv.installStrict (cur : Nat) :
    SeccompInv (seccompInstallStrict s cur).1 ∧ s.Grows (seccompInstallStrict s cur).1 := by
  unfold seccompInstallStrict
  split
  · exact ⟨hinv, Grows.refl s⟩
  · rename_i t ht
    split
    · exact ⟨hinv, Grows.refl s⟩
    · rename_i hmode
      exact ⟨hinv.setTask ht rfl, grows_setTask ht rfl (.inl (by simpa using hmode)) id⟩

theorem SeccompInv.sysSeccomp (cur : Nat) (operation flags userArgs : UInt64) (env : InstallEnv) :
    SeccompInv (sysSeccomp s cur operation flags userArgs env).1 ∧
      s.Grows (sysSeccomp s cur operation flags userArgs env).1 := by
  have hkeep : SeccompInv s ∧ s.Grows s := ⟨hinv, Grows.refl s⟩
  unfold Uinxed.Seccomp.sysSeccomp
  split
  · split
    · exact hkeep
    · exact hinv.installStrict cur
  split
  · exact hinv.installFilter cur flags env
  split
  · split
    · exact hkeep
    · split <;> exact hkeep
  split
  · split <;> exact hkeep
  · exact hkeep

theorem SeccompInv.prctlSet (cur : Nat) (mode : UInt64) (env : InstallEnv) :
    SeccompInv (seccompPrctlSet s cur mode env).1 ∧ s.Grows (seccompPrctlSet s cur mode env).1 := by
  unfold seccompPrctlSet
  split
  · exact hinv.installStrict cur
  split
  · exact hinv.installFilter cur 0 env
  · exact ⟨hinv, Grows.refl s⟩

/-- PR_SET_NO_NEW_PRIVS only ever sets the bit. -/
theorem SeccompInv.setNoNewPrivs (cur : Nat) (value arg3 arg4 arg5 : UInt64) :
    SeccompInv (seccompSetNoNewPrivs s cur value arg3 arg4 arg5).1 ∧
      s.Grows (seccompSetNoNewPrivs s cur value arg3 arg4 arg5).1 := by
  unfold seccompSetNoNewPrivs
  split
  · exact ⟨hinv, Grows.refl s⟩
  split
  · exact ⟨hinv, Grows.refl s⟩
  · rename_i t ht
    exact ⟨hinv.setTask ht rfl, grows_setTask ht rfl (.inr rfl) fun _ => rfl⟩

/-! ## The ptrace lookup -/

omit hinv in
/-- seccomp_get_nth_filter either finds nothing, or takes a reference on a
filter of the target's chain. -/
theorem seccompGetNthFilter_cases (target offset : Nat) :
    seccompGetNthFilter s target offset = (s, none) ∨
      ∃ t f, s.tasks target = some t ∧ f ∈ s.chain t.filter ∧
        seccompGetNthFilter s target offset = (seccompFilterGet s (some f), some f) := by
  unfold seccompGetNthFilter
  split
  · exact .inl rfl
  · rename_i t ht
    split
    · exact .inl rfl
    dsimp only
    split
    · exact .inl rfl
    split
    · exact .inl rfl
    · rename_i f hf
      exact .inr ⟨t, f, ht, List.mem_of_getElem? hf, rfl⟩

/-- The lookup of seccomp_ptrace_get_filter holds a reference on a live
filter. -/
theorem SeccompInv.ptraceGetFilter (cur target offset uid : Nat) :
    SeccompInv (seccompPtraceGetFilter s cur target offset uid).1 ∧
      s.Grows (seccompPtraceGetFilter s cur target offset uid).1 := by
  have hkeep : SeccompInv s ∧ s.Grows s := ⟨hinv, Grows.refl s⟩
  unfold seccompPtraceGetFilter
  split
  · exact hkeep
  split
  · exact hkeep
  split
  · rename_i s' heq
    rcases seccompGetNthFilter_cases target offset with h | ⟨t, f, ht, hf, h⟩
    · rw [h, Prod.mk.injEq] at heq
      rw [← heq.1]
      exact hkeep
    · rw [h] at heq
      simp at heq
  · rename_i s' f heq
    rcases seccompGetNthFilter_cases target offset with h | ⟨t, g, ht, hg, h⟩
    · rw [h] at heq
      simp at heq
    · rw [h, Prod.mk.injEq, Option.some.injEq] at heq
      obtain ⟨rfl, rfl⟩ := heq
      -- g lies on the target's chain, so it is live
      cases hh : t.filter with
      | none => simp [chain, hh] at hg
      | some h =>
        rw [hh] at hg
        obtain ⟨c, hc, _⟩ := hinv.accounted.pos_of_mem_follow (hinv.refs_ne_zero ht hh) hg
        refine ⟨⟨hinv.accounted.get (by simp [hc]) fun z => ?_, hinv.nodup, hinv.mem_threads⟩, ?_⟩
        · exact refs_hold _ g z
        · refine grows_of_chains (fun q w w' hw hw' => ?_) fun _ _ _ _ _ _ _ => ?_
          · rw [show (seccompFilterGet s (some g)).tasks q = s.tasks q from rfl, hw, Option.some.injEq] at hw'
            exact hw'.symm
          · exact congrFun (chain_seccompFilterGet s (some g)) _

/-- The put after the copy drops the reference the lookup held. -/
theorem SeccompInv.ptraceDone (f : Nat) :
    SeccompInv (seccompPtraceDone s f) ∧ s.Grows (seccompPtraceDone s f) := by
  unfold seccompPtraceDone
  split
  · rename_i hf
    have hdrop := refs_release hf
    have hfN : f < s.nextFilter := by
      have hrefs : s.refs f ≠ 0 := by
        have := hdrop f
        simp only [if_true] at this
        omega
      exact hinv.accounted.lt_bound f (hinv.accounted.refs_live f hrefs)
    obtain ⟨hA, hkeep⟩ := hinv.accounted.put_spec hfN hdrop
    have hinv' : SeccompInv (seccompFilterPut { s with held := s.held.erase f } (some f)) :=
      ⟨hA, hinv.nodup, hinv.mem_threads⟩
    refine ⟨hinv', grows_of_chains (fun q w w' hw hw' => ?_) fun q w w' h hw hw' hh => ?_⟩
    · simp only [seccompFilterPut_tasks, hw, Option.some.injEq] at hw'
      exact hw'.symm
    · exact hkeep h (hinv'.refs_ne_zero hw' (by
        simp only [seccompFilterPut_tasks, hw, Option.some.injEq] at hw'
        rw [← hw', hh])) s.nextFilter
  · exact ⟨hinv, Grows.refl s⟩

/-! ## Runs -/

/-- Every step keeps the invariant, and every task that lives through it
grows. -/
theorem SeccompInv.step (e : SeccompEvent) : SeccompInv (seccompStep s e) ∧ s.Grows (seccompStep s e) := by
  cases e with
  | create t => exact hinv.create t
  | fork parent child thread => exact hinv.fork parent child thread
  | exit t => exact hinv.exit t
  | free t => exact hinv.free t
  | seccomp t operation flags userArgs env => exact hinv.sysSeccomp t operation flags userArgs env
  | prctlSet t mode env => exact hinv.prctlSet t mode env
  | prctlGet _ => exact ⟨hinv, Grows.refl s⟩
  | setNoNewPrivs t value arg3 arg4 arg5 => exact hinv.setNoNewPrivs t value arg3 arg4 arg5
  | ptraceGetFilter t target offset uid => exact hinv.ptraceGetFilter t target offset uid
  | ptraceDone f => exact hinv.ptraceDone f

theorem SeccompInv.run (events : List SeccompEvent) : SeccompInv (seccompRun s events) := by
  induction events generalizing s with
  | nil => exact hinv
  | cons e rest ih => exact ih (hinv.step e).1

end Events

theorem seccompInv_init : SeccompInv SeccompSystem.init :=
  ⟨⟨fun _ h => absurd rfl h, fun _ _ h => by simp [link, SeccompSystem.init] at h,
    fun _ _ h => by simp [link, SeccompSystem.init] at h, fun x h => by simp [refs, SeccompSystem.init] at h,
    fun _ _ h => by simp [SeccompSystem.init] at h⟩,
    List.nodup_nil, fun _ => by simp [SeccompSystem.init]⟩

/-- In every reachable state every filter on a task's chain is live with a
positive count, and each further step keeps every task's chain as a suffix
of its new chain, never takes a task back to SECCOMP_MODE_DISABLED or from
strict to filter mode or back, and never clears no_new_privs. -/
theorem seccomp_filter_chains_grow (events : List SeccompEvent) (e : SeccompEvent) :
    (seccompRun SeccompSystem.init events).ChainsLive ∧
      (seccompRun SeccompSystem.init events).Grows (seccompStep (seccompRun SeccompSystem.init events) e) := by
  have hinv := seccompInv_init.run events
  exact ⟨hinv.chainsLive, (hinv.step e).2⟩

end Uinxed.Seccomp
