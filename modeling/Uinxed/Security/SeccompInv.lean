/-
  Security/SeccompInv.lean --- the reference counts of the filter chains.

  The references to a filter from outside the heap are the tasks whose head
  it is and the ptrace lookups that hold it; SeccompInv says the heap of
  filters is accounted for exactly these (RcChain.Accounted), with the list
  of tasks free of repetitions.  Each operation of seccomp.c then moves
  references in one of the ways RcChain proves once: a task changes its
  head, a filter is taken, dropped, allocated or linked.

  Grows s s' is what a step may do to a task that lives through it: its
  chain before is a suffix of its chain after, its mode leaves
  SECCOMP_MODE_DISABLED at most once and never changes after, and
  no_new_privs stays set.  The lemmas here give SeccompInv and Grows for the
  parts of seccomp_install_filter: the prepared filter put back on an error
  path, the link on the installer's chain, and the TSYNC loop.
-/
import Uinxed.Security.SeccompFilter
import Mathlib.Data.List.Nodup

set_option autoImplicit false

namespace Uinxed.Seccomp

open RcChain SeccompSystem

namespace SeccompSystem

/-- The references to the filter f from outside the heap. -/
def refs (s : SeccompSystem) (f : Nat) : Nat :=
  s.threads.countP (fun p => (s.tasks p).bind SeccompTask.filter = some f) + s.held.count f

/-- Every filter on a task's chain is live, with a positive count. -/
def ChainsLive (s : SeccompSystem) : Prop :=
  ∀ p t, s.tasks p = some t → ∀ f ∈ s.chain t.filter, ∃ c, s.filters f = some c ∧ 1 ≤ c.refcount

/-- What a step may do to a task that lives through it. -/
def Grows (s s' : SeccompSystem) : Prop :=
  ∀ p t t', s.tasks p = some t → s'.tasks p = some t' →
    s.chain t.filter <:+ s'.chain t'.filter ∧ (t.mode = .disabled ∨ t'.mode = t.mode) ∧
      (t.noNewPrivs = true → t'.noNewPrivs = true)

@[simp] theorem setTask_tasks_self (s : SeccompSystem) (p : Nat) (t : SeccompTask) : (s.setTask p t).tasks p = some t := by
  simp [setTask]

theorem setTask_tasks_of_ne (s : SeccompSystem) {p q : Nat} (t : SeccompTask) (h : q ≠ p) :
    (s.setTask p t).tasks q = s.tasks q := by
  simp [setTask, Function.update_of_ne h]

@[simp] theorem setTask_filters (s : SeccompSystem) (p : Nat) (t : SeccompTask) : (s.setTask p t).filters = s.filters := rfl
@[simp] theorem setTask_threads (s : SeccompSystem) (p : Nat) (t : SeccompTask) : (s.setTask p t).threads = s.threads := rfl
@[simp] theorem setTask_nextFilter (s : SeccompSystem) (p : Nat) (t : SeccompTask) :
    (s.setTask p t).nextFilter = s.nextFilter := rfl
@[simp] theorem setTask_held (s : SeccompSystem) (p : Nat) (t : SeccompTask) : (s.setTask p t).held = s.held := rfl
@[simp] theorem chain_setTask (s : SeccompSystem) (p : Nat) (t : SeccompTask) : (s.setTask p t).chain = s.chain := rfl

end SeccompSystem

@[simp] theorem seccompFilterGet_tasks (s : SeccompSystem) (f : Option Nat) : (seccompFilterGet s f).tasks = s.tasks := rfl
@[simp] theorem seccompFilterGet_threads (s : SeccompSystem) (f : Option Nat) :
    (seccompFilterGet s f).threads = s.threads := rfl
@[simp] theorem seccompFilterGet_nextFilter (s : SeccompSystem) (f : Option Nat) :
    (seccompFilterGet s f).nextFilter = s.nextFilter := rfl
@[simp] theorem seccompFilterGet_held (s : SeccompSystem) (f : Option Nat) : (seccompFilterGet s f).held = s.held := rfl
@[simp] theorem seccompFilterPut_tasks (s : SeccompSystem) (f : Option Nat) : (seccompFilterPut s f).tasks = s.tasks := rfl
@[simp] theorem seccompFilterPut_threads (s : SeccompSystem) (f : Option Nat) :
    (seccompFilterPut s f).threads = s.threads := rfl
@[simp] theorem seccompFilterPut_nextFilter (s : SeccompSystem) (f : Option Nat) :
    (seccompFilterPut s f).nextFilter = s.nextFilter := rfl
@[simp] theorem seccompFilterPut_held (s : SeccompSystem) (f : Option Nat) : (seccompFilterPut s f).held = s.held := rfl

@[simp] theorem chain_seccompFilterGet (s : SeccompSystem) (f : Option Nat) : (seccompFilterGet s f).chain = s.chain := by
  funext head
  simp [chain, seccompFilterGet]

@[simp] theorem refs_seccompFilterGet (s : SeccompSystem) (f : Option Nat) : (seccompFilterGet s f).refs = s.refs := rfl
@[simp] theorem refs_seccompFilterPut (s : SeccompSystem) (f : Option Nat) : (seccompFilterPut s f).refs = s.refs := rfl

namespace SeccompSystem

theorem Grows.refl (s : SeccompSystem) : s.Grows s := by
  intro p t t' ht ht'
  rw [ht] at ht'
  cases ht'
  exact ⟨List.suffix_refl _, .inr rfl, id⟩

/-- Steps compose, as long as the middle state keeps every task the two ends
share. -/
theorem Grows.trans {s₁ s₂ s₃ : SeccompSystem} (h₁₂ : s₁.Grows s₂) (h₂₃ : s₂.Grows s₃)
    (hdom : ∀ p, s₁.tasks p ≠ none → s₂.tasks p ≠ none) : s₁.Grows s₃ := by
  intro p t t'' ht ht''
  obtain ⟨t', ht'⟩ := Option.ne_none_iff_exists'.mp (hdom p (by simp [ht]))
  obtain ⟨hc₁, hm₁, hn₁⟩ := h₁₂ p t t' ht ht'
  obtain ⟨hc₂, hm₂, hn₂⟩ := h₂₃ p t' t'' ht' ht''
  refine ⟨hc₁.trans hc₂, ?_, hn₂ ∘ hn₁⟩
  rcases hm₁ with h | h
  · exact .inl h
  · rcases hm₂ with h' | h'
    · exact .inl (h.symm.trans h')
    · exact .inr (h'.trans h)

end SeccompSystem

/-! ## The invariant -/

/-- The invariant of every reachable state: the heap of filters is
accounted for the references of the tasks and of the ptrace lookups, and the
list of tasks names each live task once. -/
structure SeccompInv (s : SeccompSystem) : Prop where
  accounted : Accounted s.filters s.nextFilter s.refs
  nodup : s.threads.Nodup
  mem_threads : ∀ p, s.tasks p ≠ none ↔ p ∈ s.threads

theorem SeccompInv.mem_threads_of {s : SeccompSystem} (hinv : SeccompInv s) {p : Nat} {t : SeccompTask}
    (ht : s.tasks p = some t) : p ∈ s.threads :=
  (hinv.mem_threads p).mp (by simp [ht])

/-- A task's head counts among the references to it. -/
theorem SeccompInv.refs_ne_zero {s : SeccompSystem} (hinv : SeccompInv s) {p : Nat} {t : SeccompTask}
    (ht : s.tasks p = some t) {f : Nat} (hf : t.filter = some f) : s.refs f ≠ 0 := by
  have hpos : 0 < s.threads.countP (fun q => (s.tasks q).bind SeccompTask.filter = some f) :=
    List.countP_pos_iff.mpr ⟨p, hinv.mem_threads_of ht, by simp [ht, hf]⟩
  unfold refs
  omega

theorem SeccompInv.head_lt {s : SeccompSystem} (hinv : SeccompInv s) {p : Nat} {t : SeccompTask}
    (ht : s.tasks p = some t) {f : Nat} (hf : t.filter = some f) : f < s.nextFilter :=
  hinv.accounted.lt_bound f (hinv.accounted.refs_live f (hinv.refs_ne_zero ht hf))

theorem SeccompInv.chainsLive {s : SeccompSystem} (hinv : SeccompInv s) : s.ChainsLive := by
  intro p t ht f hf
  cases hhead : t.filter with
  | none => simp [chain, hhead] at hf
  | some h =>
    rw [hhead] at hf
    obtain ⟨c, hc, hpos⟩ := hinv.accounted.pos_of_mem_follow (hinv.refs_ne_zero ht hhead) hf
    exact ⟨c, hc, hpos⟩

/-- A task that changes its head moves one reference. -/
theorem refs_setTask {s : SeccompSystem} (hnd : s.threads.Nodup) {p : Nat} (hp : p ∈ s.threads) {u : SeccompTask}
    (hu : s.tasks p = some u) (u' : SeccompTask) (f : Nat) :
    (s.setTask p u').refs f + (if u.filter = some f then 1 else 0) = s.refs f + (if u'.filter = some f then 1 else 0) := by
  have h := countP_update (fun o : Option SeccompTask => decide (o.bind SeccompTask.filter = some f)) s.tasks hnd hp
    (some u')
  simp only [hu, Option.bind_some, decide_eq_true_eq] at h
  show s.threads.countP (fun g => (Function.update s.tasks p (some u') g).bind SeccompTask.filter = some f) +
      s.held.count f + _ = _
  unfold refs
  omega

theorem refs_setTask_of_filter {s : SeccompSystem} (hnd : s.threads.Nodup) {p : Nat} (hp : p ∈ s.threads)
    {u : SeccompTask} (hu : s.tasks p = some u) {u' : SeccompTask} (hf : u'.filter = u.filter) :
    (s.setTask p u').refs = s.refs := by
  funext f
  have := refs_setTask hnd hp hu u' f
  rw [hf] at this
  omega

/-- A change to a task that keeps its head keeps the invariant. -/
theorem SeccompInv.setTask {s : SeccompSystem} (hinv : SeccompInv s) {p : Nat} {u : SeccompTask}
    (hu : s.tasks p = some u) {u' : SeccompTask} (hf : u'.filter = u.filter) : SeccompInv (s.setTask p u') := by
  have hrefs := refs_setTask_of_filter hinv.nodup (hinv.mem_threads_of hu) hu hf
  refine ⟨by rw [hrefs]; exact hinv.accounted, hinv.nodup, fun q => ?_⟩
  by_cases hq : q = p
  · subst hq
    simp only [setTask_tasks_self, ne_eq, reduceCtorEq, not_false_eq_true, true_iff, setTask_threads]
    exact hinv.mem_threads_of hu
  · rw [setTask_tasks_of_ne s u' hq]
    exact hinv.mem_threads q

/-- A change to one task that keeps its head, its mode once set and its
no_new_privs once set. -/
theorem grows_setTask {s : SeccompSystem} {p : Nat} {u : SeccompTask} (hu : s.tasks p = some u) {u' : SeccompTask}
    (hf : u'.filter = u.filter) (hmode : u.mode = .disabled ∨ u'.mode = u.mode)
    (hnnp : u.noNewPrivs = true → u'.noNewPrivs = true) : s.Grows (s.setTask p u') := by
  intro q t t' ht ht'
  by_cases hq : q = p
  · subst hq
    rw [hu] at ht
    cases ht
    simp only [setTask_tasks_self, Option.some.injEq] at ht'
    subst ht'
    rw [chain_setTask, hf]
    exact ⟨List.suffix_refl _, hmode, hnnp⟩
  · rw [setTask_tasks_of_ne s u' hq, ht] at ht'
    cases ht'
    exact ⟨List.suffix_refl _, .inr rfl, id⟩

/-- A step that changes no task that lives through it, and no chain from a
head of those tasks. -/
theorem grows_of_chains {s s' : SeccompSystem} (htasks : ∀ p t t', s.tasks p = some t → s'.tasks p = some t' → t' = t)
    (hchain : ∀ p t t' h, s.tasks p = some t → s'.tasks p = some t' → t.filter = some h →
      s'.chain (some h) = s.chain (some h)) : s.Grows s' := by
  intro p t t' ht ht'
  rw [htasks p t t' ht ht']
  refine ⟨?_, .inr rfl, id⟩
  cases hh : t.filter with
  | none => simp [chain]
  | some h => rw [hchain p t t' h ht ht' hh]

/-! ## Chains and the filters above them -/

/-- A chain from a live head reads only filters below nextFilter: changes at
or above it, and more fuel, leave it as it was. -/
theorem chain_eq_of_below {s s' : SeccompSystem} (hd : Descends (link s.filters)) {h : Nat} (hh : h < s.nextFilter)
    (hN : s.nextFilter ≤ s'.nextFilter) (hlink : ∀ g, g < s.nextFilter → link s'.filters g = link s.filters g) :
    s'.chain (some h) = s.chain (some h) := by
  unfold chain
  rw [follow_fuel hd hh (Nat.lt_of_lt_of_le hh hN)]
  apply follow_congr
  intro g hg
  exact hlink g (Nat.lt_of_le_of_lt (le_of_mem_follow hd hg) hh)

@[simp] theorem allocFilter_tasks (s : SeccompSystem) (d : FilterData) : (s.allocFilter d).tasks = s.tasks := rfl
@[simp] theorem allocFilter_threads (s : SeccompSystem) (d : FilterData) : (s.allocFilter d).threads = s.threads := rfl
@[simp] theorem allocFilter_held (s : SeccompSystem) (d : FilterData) : (s.allocFilter d).held = s.held := rfl
@[simp] theorem allocFilter_nextFilter (s : SeccompSystem) (d : FilterData) :
    (s.allocFilter d).nextFilter = s.nextFilter + 1 := rfl
@[simp] theorem refs_allocFilter (s : SeccompSystem) (d : FilterData) : (s.allocFilter d).refs = s.refs := rfl

theorem link_allocFilter_of_lt (s : SeccompSystem) (d : FilterData) {g : Nat} (hg : g < s.nextFilter) :
    link (s.allocFilter d).filters g = link s.filters g := by
  simp [allocFilter, link_update, Function.update_of_ne (Nat.ne_of_lt hg)]

section Install

variable {s : SeccompSystem} (hinv : SeccompInv s)
include hinv

/-- The prepared filter is accounted with the one reference the installer
holds. -/
theorem SeccompInv.alloc (d : FilterData) :
    Accounted (s.allocFilter d).filters (s.allocFilter d).nextFilter
      (fun z => s.refs z + if z = s.nextFilter then 1 else 0) :=
  hinv.accounted.alloc d fun _ => rfl

theorem SeccompInv.chain_allocFilter (d : FilterData) {h : Nat} (hh : s.refs h ≠ 0) :
    (s.allocFilter d).chain (some h) = s.chain (some h) :=
  chain_eq_of_below hinv.accounted.descends (hinv.accounted.lt_bound h (hinv.accounted.refs_live h hh))
    (Nat.le_succ _) fun _ hg => link_allocFilter_of_lt s d hg

/-- An error path after seccomp_prepare_filter: the new filter is put back,
and no task and no chain changes. -/
theorem SeccompInv.discard (d : FilterData) :
    SeccompInv (seccompFilterPut (s.allocFilter d) (some s.nextFilter)) ∧
      s.Grows (seccompFilterPut (s.allocFilter d) (some s.nextFilter)) := by
  -- the put takes the allocation's reference back: the counts of s remain
  obtain ⟨hA, hkeep⟩ := (hinv.alloc d).put_spec (n := s.nextFilter + 1) (Nat.lt_succ_self _)
    fun z => (rfl : s.refs z + _ = _)
  refine ⟨⟨hA, hinv.nodup, hinv.mem_threads⟩, grows_of_chains (fun p t t' ht ht' => ?_) fun p t _ h ht _ hh => ?_⟩
  · simp only [seccompFilterPut_tasks, allocFilter_tasks, ht, Option.some.injEq] at ht'
    exact ht'.symm
  · have hrefs := hinv.refs_ne_zero ht hh
    show follow (link (put (s.allocFilter d).filters (s.nextFilter + 1) (some s.nextFilter))) (s.nextFilter + 1) (some h) = _
    rw [hkeep h hrefs]
    exact hinv.chain_allocFilter d hrefs

end Install

/-- linkFilter on the filter just allocated sets its fields in place. -/
theorem linkFilter_allocFilter (s : SeccompSystem) (d : FilterData) (cur : Nat) (t : SeccompTask) (total : Nat) :
    (s.allocFilter d).linkFilter cur t s.nextFilter total =
      { s.allocFilter d with
        filters := Function.update (s.allocFilter d).filters s.nextFilter
          (some ⟨1, t.filter, { d with totalInsns := total }⟩) }.setTask cur
        { t with filter := some s.nextFilter, mode := .filter } := by
  simp [linkFilter, allocFilter]

/-- The links below the new filter are the old ones. -/
theorem link_allocFilter_update_of_lt (s : SeccompSystem) (d : FilterData) (c : Option (Cell FilterData)) {g : Nat}
    (hg : g < s.nextFilter) : link (Function.update (s.allocFilter d).filters s.nextFilter c) g = link s.filters g := by
  rw [link_update, Function.update_of_ne (Nat.ne_of_lt hg)]
  exact link_allocFilter_of_lt s d hg

section Link

variable {s : SeccompSystem} (hinv : SeccompInv s) {cur : Nat} {t : SeccompTask} (ht : s.tasks cur = some t)
  (d : FilterData) (total : Nat)
include hinv ht

/-- Linking the new filter on the installer's chain: the installer's head
moves to it, and its link takes over the reference the installer held on
its old head. -/
theorem SeccompInv.linked : SeccompInv ((s.allocFilter d).linkFilter cur t s.nextFilter total) := by
  rw [linkFilter_allocFilter]
  have hcur := hinv.mem_threads_of ht
  refine ⟨?_, hinv.nodup, fun q => ?_⟩
  · refine (hinv.alloc d).setLink (x := s.nextFilter) (c := ⟨1, none, d⟩) (by simp [allocFilter]) rfl
      (fun q hq => hinv.head_lt ht hq) { d with totalInsns := total } fun z => ?_
    have h := refs_setTask (s := { s.allocFilter d with
        filters := Function.update (s.allocFilter d).filters s.nextFilter
          (some ⟨1, t.filter, { d with totalInsns := total }⟩) }) hinv.nodup hcur ht
      { t with filter := some s.nextFilter, mode := .filter } z
    simp only [Option.some.injEq] at h
    rw [h]
    simp only [eq_comm]
    rfl
  · by_cases hq : q = cur
    · subst hq
      simp only [setTask_tasks_self, ne_eq, reduceCtorEq, not_false_eq_true, setTask_threads, true_iff]
      exact hcur
    · rw [setTask_tasks_of_ne _ _ hq]
      exact hinv.mem_threads q

/-- The installer's new chain is the new filter on its old one. -/
theorem SeccompInv.chain_link :
    ((s.allocFilter d).linkFilter cur t s.nextFilter total).chain (some s.nextFilter) = s.nextFilter :: s.chain t.filter := by
  rw [linkFilter_allocFilter]
  show follow _ (s.nextFilter + 1) (some s.nextFilter) = _
  rw [follow_succ_some]
  congr 1
  simp only [link, setTask_filters, Function.update_self, Option.bind_some]
  cases hh : t.filter with
  | none => simp [chain]
  | some q =>
    have hq := hinv.head_lt ht hh
    apply follow_congr
    intro g hg
    exact link_allocFilter_update_of_lt s d _ (Nat.lt_of_le_of_lt (le_of_mem_follow hinv.accounted.descends hg) hq)

omit ht in
/-- Every other chain stays. -/
theorem SeccompInv.chain_link_of_refs {h : Nat} (hh : s.refs h ≠ 0) :
    ((s.allocFilter d).linkFilter cur t s.nextFilter total).chain (some h) = s.chain (some h) := by
  rw [linkFilter_allocFilter]
  exact chain_eq_of_below hinv.accounted.descends (hinv.accounted.lt_bound h (hinv.accounted.refs_live h hh))
    (Nat.le_succ _) fun g hg => link_allocFilter_update_of_lt s d _ hg

omit hinv ht in
theorem tasks_linkFilter_allocFilter :
    ((s.allocFilter d).linkFilter cur t s.nextFilter total).tasks =
      Function.update s.tasks cur (some { t with filter := some s.nextFilter, mode := .filter }) := by
  rw [linkFilter_allocFilter]
  rfl

end Link

/-! ## The TSYNC loop -/

section Sync

variable {s : SeccompSystem} (hinv : SeccompInv s) {cur f : Nat} {tc : SeccompTask} (hcur : s.tasks cur = some tc)
  (hf : tc.filter = some f) (nnp : Bool)
include hinv hcur hf

/-- One thread moved onto the installer's head: a reference is taken on the
head, the thread's old head is put. -/
theorem SeccompInv.syncThread {p : Nat} {u : SeccompTask} (hu : s.tasks p = some u) (hp : p ≠ cur)
    (hz : u.zombie = false) :
    seccompSyncThread cur f nnp s p =
        seccompFilterPut ((seccompFilterGet s (some f)).setTask p
          { u with filter := some f, mode := .filter, noNewPrivs := u.noNewPrivs || nnp }) u.filter ∧
      SeccompInv (seccompSyncThread cur f nnp s p) ∧
      ∀ h, (seccompSyncThread cur f nnp s p).refs h ≠ 0 →
        (seccompSyncThread cur f nnp s p).chain (some h) = s.chain (some h) := by
  have heq : seccompSyncThread cur f nnp s p = seccompFilterPut ((seccompFilterGet s (some f)).setTask p
      { u with filter := some f, mode := .filter, noNewPrivs := u.noNewPrivs || nnp }) u.filter := by
    simp [seccompSyncThread, hu, hp, hz]
  rw [heq]
  refine ⟨rfl, ?_⟩
  -- the references after the move, with the one on the old head still to drop
  set u' : SeccompTask := { u with filter := some f, mode := .filter, noNewPrivs := u.noNewPrivs || nnp }
  have hmem := hinv.mem_threads_of hu
  have hA : Accounted (seccompFilterGet s (some f)).filters s.nextFilter fun z => s.refs z + if z = f then 1 else 0 :=
    hinv.accounted.get (hinv.accounted.refs_live f (hinv.refs_ne_zero hcur hf)) fun _ => rfl
  have hmove : ∀ z, ((seccompFilterGet s (some f)).setTask p u').refs z + (if u.filter = some z then 1 else 0) =
      s.refs z + if z = f then 1 else 0 := by
    intro z
    have h := refs_setTask (s := seccompFilterGet s (some f)) hinv.nodup hmem hu u' z
    simp only [refs_seccompFilterGet, u', Option.some.injEq] at h
    rw [h]
    simp only [eq_comm]
  have hmem_threads : ∀ q, ((seccompFilterGet s (some f)).setTask p u').tasks q ≠ none ↔ q ∈ s.threads := by
    intro q
    by_cases hq : q = p
    · subst hq
      simp [hmem]
    · rw [setTask_tasks_of_ne _ _ hq]
      exact hinv.mem_threads q
  cases hg : u.filter with
  | none =>
    simp only [hg, reduceCtorEq, if_false, Nat.add_zero] at hmove
    have hrefs : ((seccompFilterGet s (some f)).setTask p u').refs = fun z => s.refs z + if z = f then 1 else 0 :=
      funext hmove
    simp only [seccompFilterPut, put_none]
    refine ⟨⟨?_, hinv.nodup, hmem_threads⟩, fun h _ => ?_⟩
    · show Accounted (seccompFilterGet s (some f)).filters s.nextFilter _
      rw [hrefs]
      exact hA
    · show ((seccompFilterGet s (some f)).setTask p u').chain (some h) = _
      simp
  | some g =>
    have hgN : g < s.nextFilter := hinv.head_lt hu hg
    have hR : ∀ z, ((seccompFilterGet s (some f)).setTask p u').refs z + (if z = g then 1 else 0) =
        s.refs z + (if z = f then 1 else 0) := fun z => by
      have := hmove z
      simp only [hg, Option.some.injEq] at this
      rw [← this]
      simp only [eq_comm]
    obtain ⟨hA', hkeep⟩ := hA.put_spec hgN hR
    refine ⟨⟨hA', hinv.nodup, hmem_threads⟩, fun h hh => ?_⟩
    show follow (link (put (seccompFilterGet s (some f)).filters s.nextFilter (some g))) s.nextFilter (some h) = _
    rw [hkeep h hh]
    simp [chain, seccompFilterGet]

omit hinv hcur hf in
theorem seccompSyncThread_of_skip {p : Nat} (hskip : ∀ u, s.tasks p = some u → p = cur ∨ u.zombie = true) :
    seccompSyncThread cur f nnp s p = s := by
  unfold seccompSyncThread
  split
  · rfl
  · rename_i u hu
    rw [if_pos (hskip u hu)]

/-- One iteration of the loop, for a thread that passed the first loop's
check. -/
theorem SeccompInv.syncStep (p : Nat)
    (hok : ∀ u, s.tasks p = some u → p ≠ cur → u.zombie = false →
      u.mode ≠ .strict ∧ s.chain u.filter <:+ s.chain (some f)) :
    SeccompInv (seccompSyncThread cur f nnp s p) ∧ s.Grows (seccompSyncThread cur f nnp s p) ∧
      (seccompSyncThread cur f nnp s p).tasks cur = some tc ∧
      (∀ q, q ≠ p → (seccompSyncThread cur f nnp s p).tasks q = s.tasks q) ∧
      (∀ q, s.tasks q ≠ none → (seccompSyncThread cur f nnp s p).tasks q ≠ none) ∧
      ∀ h, (seccompSyncThread cur f nnp s p).refs h ≠ 0 →
        (seccompSyncThread cur f nnp s p).chain (some h) = s.chain (some h) := by
  by_cases hmove : ∃ u, s.tasks p = some u ∧ p ≠ cur ∧ u.zombie = false
  · obtain ⟨u, hu, hp, hz⟩ := hmove
    obtain ⟨heq, hinv₁, hkeep⟩ := hinv.syncThread hcur hf nnp hu hp hz
    obtain ⟨hmode, hsuffix⟩ := hok u hu hp hz
    -- the tasks after the move: p on f, every other task as it was
    have htasks : ∀ q, (seccompSyncThread cur f nnp s p).tasks q =
        if q = p then some { u with filter := some f, mode := .filter, noNewPrivs := u.noNewPrivs || nnp }
        else s.tasks q := by
      intro q
      rw [heq]
      split
      · next hq => subst hq; simp
      · next hq => simp [setTask_tasks_of_ne _ _ hq]
    have hcur₁ : (seccompSyncThread cur f nnp s p).tasks cur = some tc := by
      rw [htasks, if_neg (Ne.symm hp), hcur]
    have hf₁ : (seccompSyncThread cur f nnp s p).chain (some f) = s.chain (some f) :=
      hkeep f (hinv₁.refs_ne_zero hcur₁ hf)
    refine ⟨hinv₁, fun q t t' ht ht' => ?_, hcur₁, fun q hq => by rw [htasks, if_neg hq], fun q hq => ?_, hkeep⟩
    · rw [htasks] at ht'
      split at ht'
      · next hq =>
        subst hq
        rw [hu] at ht
        cases ht
        cases ht'
        refine ⟨by rw [hf₁]; exact hsuffix, ?_, fun h => by simp [h]⟩
        cases hm : u.mode with
        | disabled => exact .inl rfl
        | strict => exact absurd hm hmode
        | filter => exact .inr rfl
      · rw [ht] at ht'
        cases ht'
        refine ⟨?_, .inr rfl, id⟩
        cases hh : t.filter with
        | none => simp [chain]
        | some h =>
          have hq₁ : (seccompSyncThread cur f nnp s p).tasks q = some t := by rw [htasks, if_neg ‹_›, ht]
          rw [hkeep h (hinv₁.refs_ne_zero hq₁ hh)]
    · rw [htasks]
      split
      · simp
      · exact hq
  · -- the thread is skipped
    have hskip : ∀ u, s.tasks p = some u → p = cur ∨ u.zombie = true := by
      intro u hu
      by_contra hne
      obtain ⟨hpc, hz⟩ := not_or.mp hne
      exact hmove ⟨u, hu, hpc, by simpa using hz⟩
    rw [seccompSyncThread_of_skip nnp hskip]
    exact ⟨hinv, Grows.refl s, hcur, fun _ _ => rfl, fun _ hq => hq, fun _ _ => rfl⟩

/-- The whole loop, over threads that passed the first loop's check: each
is not in strict mode, and its chain runs into the installer's. -/
theorem SeccompInv.syncFold (L : List Nat) (hL : L.Nodup)
    (hok : ∀ p ∈ L, ∀ u, s.tasks p = some u → p ≠ cur → u.zombie = false →
      u.mode ≠ .strict ∧ s.chain u.filter <:+ s.chain (some f)) :
    SeccompInv (L.foldl (seccompSyncThread cur f nnp) s) ∧ s.Grows (L.foldl (seccompSyncThread cur f nnp) s) := by
  induction L generalizing s with
  | nil => exact ⟨hinv, Grows.refl s⟩
  | cons p rest ih =>
    obtain ⟨hp, hrest⟩ := List.nodup_cons.mp hL
    obtain ⟨hinv₁, hgrow₁, hcur₁, hother, hdom, hkeep⟩ := hinv.syncStep hcur hf nnp p (hok p List.mem_cons_self)
    -- the check still holds for the rest: their tasks and chains are as they were
    have hok₁ : ∀ q ∈ rest, ∀ u, (seccompSyncThread cur f nnp s p).tasks q = some u → q ≠ cur → u.zombie = false →
        u.mode ≠ .strict ∧ (seccompSyncThread cur f nnp s p).chain u.filter <:+
          (seccompSyncThread cur f nnp s p).chain (some f) := by
      intro q hq u hu hqc hz
      have hqp : q ≠ p := fun h => hp (h ▸ hq)
      rw [hother q hqp] at hu
      obtain ⟨hmode, hsuffix⟩ := hok q (List.mem_cons_of_mem p hq) u hu hqc hz
      have hu₁ : (seccompSyncThread cur f nnp s p).tasks q = some u := by rw [hother q hqp, hu]
      refine ⟨hmode, ?_⟩
      rw [hkeep f (hinv₁.refs_ne_zero hcur₁ hf)]
      cases hh : u.filter with
      | none => simp [chain]
      | some h =>
        rw [hkeep h (hinv₁.refs_ne_zero hu₁ hh)]
        rw [hh] at hsuffix
        exact hsuffix
    obtain ⟨hinv₂, hgrow₂⟩ := ih hinv₁ hcur₁ hrest hok₁
    rw [List.foldl_cons]
    exact ⟨hinv₂, hgrow₁.trans hgrow₂ hdom⟩

end Sync

/-! ## seccomp_install_filter -/

theorem mem_processThreads {s : SeccompSystem} {tgid p : Nat} :
    p ∈ s.processThreads tgid ↔ p ∈ s.threads ∧ ∃ u, s.tasks p = some u ∧ u.tgid = tgid := by
  unfold processThreads
  rw [List.mem_filter]
  cases s.tasks p <;> simp

theorem seccompFilterIsAncestor_some {s : SeccompSystem} {g : Nat} {head : Option Nat} :
    seccompFilterIsAncestor s (some g) head = true ↔ g ∈ s.chain head := by
  simp [seccompFilterIsAncestor]

/-- What the first TSYNC loop checks of every other live thread of the
installer's process, when it finds no offender. -/
theorem seccompTsyncOffender_eq_none {s : SeccompSystem} {cur : Nat} {t : SeccompTask}
    (hnone : seccompTsyncOffender s cur t = none) {p : Nat} (hp : p ∈ s.threads) {u : SeccompTask}
    (hu : s.tasks p = some u) (htg : u.tgid = t.tgid) (hpc : p ≠ cur) (hz : u.zombie = false) :
    u.mode ≠ .strict ∧ seccompFilterIsAncestor s u.filter t.filter = true := by
  have hmem : p ∈ s.processThreads t.tgid := mem_processThreads.mpr ⟨hp, u, hu, htg⟩
  have h := List.find?_eq_none.mp hnone p hmem
  have hpc' : (p != cur) = true := bne_iff_ne.mpr hpc
  simp only [hu, hpc', hz, Bool.not_false, Bool.and_true, Bool.true_and, Bool.or_eq_true, beq_iff_eq,
    Bool.not_eq_true', not_or] at h
  exact ⟨h.1, by simpa using h.2⟩

section Locked

variable {s : SeccompSystem} (hinv : SeccompInv s) {cur : Nat} {t : SeccompTask} (ht : s.tasks cur = some t)
  (d : FilterData)
include hinv ht

/-- The link alone: the installer's chain gains the new filter, every other
chain stays. -/
theorem SeccompInv.grows_link (hstrict : t.mode ≠ .strict) (total : Nat) :
    s.Grows ((s.allocFilter d).linkFilter cur t s.nextFilter total) := by
  intro q u u' hu hu'
  rw [tasks_linkFilter_allocFilter] at hu'
  by_cases hq : q = cur
  · subst hq
    rw [ht] at hu
    cases hu
    simp only [Function.update_self, Option.some.injEq] at hu'
    subst hu'
    refine ⟨?_, ?_, id⟩
    · rw [hinv.chain_link ht]
      exact List.suffix_cons _ _
    · cases hm : t.mode with
      | disabled => exact .inl rfl
      | strict => exact absurd hm hstrict
      | filter => exact .inr rfl
  · rw [Function.update_of_ne hq, hu] at hu'
    cases hu'
    refine ⟨?_, .inr rfl, id⟩
    cases hh : u.filter with
    | none => simp [chain]
    | some h => rw [hinv.chain_link_of_refs d total (hinv.refs_ne_zero hu hh)]

/-- The first TSYNC loop found no offender: every other live thread of the
process passes its check after the link too. -/
theorem SeccompInv.tsync_ok (total : Nat) (hoff : seccompTsyncOffender (s.allocFilter d) cur t = none) :
    ∀ p ∈ ((s.allocFilter d).linkFilter cur t s.nextFilter total).processThreads t.tgid, ∀ u,
      ((s.allocFilter d).linkFilter cur t s.nextFilter total).tasks p = some u → p ≠ cur → u.zombie = false →
      u.mode ≠ .strict ∧ ((s.allocFilter d).linkFilter cur t s.nextFilter total).chain u.filter <:+
        ((s.allocFilter d).linkFilter cur t s.nextFilter total).chain (some s.nextFilter) := by
  intro p hp u hu hpc hz
  rw [tasks_linkFilter_allocFilter, Function.update_of_ne hpc] at hu
  obtain ⟨hthreads, u', hu', htg⟩ := mem_processThreads.mp hp
  rw [tasks_linkFilter_allocFilter, Function.update_of_ne hpc, hu, Option.some.injEq] at hu'
  subst hu'
  obtain ⟨hmode, hanc⟩ := seccompTsyncOffender_eq_none hoff hthreads hu htg hpc hz
  refine ⟨hmode, ?_⟩
  cases hg : u.filter with
  | none => simp [chain]
  | some g =>
    rw [hg, seccompFilterIsAncestor_some] at hanc
    -- the installer had a head h, and g lies on its chain
    cases hh : t.filter with
    | none => simp [hh, chain] at hanc
    | some h =>
      have hrefs_h := hinv.refs_ne_zero ht hh
      rw [hh, hinv.chain_allocFilter d hrefs_h] at hanc
      rw [hinv.chain_link ht, hh, hinv.chain_link_of_refs d total (hinv.refs_ne_zero hu hg)]
      exact (follow_suffix_of_mem hinv.accounted.descends (hinv.head_lt ht hh) hanc).trans (List.suffix_cons _ _)

/-- The link, and with TSYNC the second loop. -/
theorem SeccompInv.installLinked (hstrict : t.mode ≠ .strict) (total : Nat) (c : Prop) [Decidable c]
    (hoff : c → seccompTsyncOffender (s.allocFilter d) cur t = none) :
    SeccompInv (if c then seccompSyncThreads ((s.allocFilter d).linkFilter cur t s.nextFilter total) cur t s.nextFilter
      else (s.allocFilter d).linkFilter cur t s.nextFilter total) ∧
    s.Grows (if c then seccompSyncThreads ((s.allocFilter d).linkFilter cur t s.nextFilter total) cur t s.nextFilter
      else (s.allocFilter d).linkFilter cur t s.nextFilter total) := by
  have hlinked := hinv.linked ht d total
  have hgrow := hinv.grows_link ht d hstrict total
  by_cases hc : c
  · rw [if_pos hc]
    have hcur : ((s.allocFilter d).linkFilter cur t s.nextFilter total).tasks cur =
        some { t with filter := some s.nextFilter, mode := .filter } := by
      rw [tasks_linkFilter_allocFilter, Function.update_self]
    obtain ⟨hinv₃, hgrow₃⟩ := hlinked.syncFold hcur rfl t.noNewPrivs _ (hlinked.nodup.filter _)
      (hinv.tsync_ok ht d total (hoff hc))
    refine ⟨hinv₃, hgrow.trans hgrow₃ fun q hq => ?_⟩
    rw [tasks_linkFilter_allocFilter]
    by_cases hqc : q = cur
    · subst hqc
      simp
    · rw [Function.update_of_ne hqc]
      exact hq
  · rw [if_neg hc]
    exact ⟨hlinked, hgrow⟩

/-- The section under proc->seccomp_lock: either the prepared filter is put
back, or it is linked and, with TSYNC, every other live thread of the
process moves onto it. -/
theorem SeccompInv.installLocked (flags : UInt64) (env : InstallEnv) :
    SeccompInv (seccompInstallLocked (s.allocFilter d) cur t s.nextFilter d flags env).1 ∧
      s.Grows (seccompInstallLocked (s.allocFilter d) cur t s.nextFilter d flags env).1 := by
  have hdiscard := hinv.discard d
  unfold seccompInstallLocked
  by_cases hstrict : t.mode = .strict
  · rw [if_pos hstrict]
    exact hdiscard
  rw [if_neg hstrict]
  dsimp only
  split
  · exact hdiscard
  split
  · exact hdiscard
  · rename_i hoff
    split
    · exact hdiscard
    · exact hinv.installLinked ht d hstrict _ _ fun hc => by simpa [hc] using hoff

end Locked

end Uinxed.Seccomp
