/-
  Ipc/SemCount.lean --- what semncnt and semzcnt count.

  Before it sleeps, sys_semtimedop raises semcnt[sem_num] once for each
  decrement of its array and semzcnt[sem_num] once for each wait-for-zero;
  woken, it lowers them again under the lock.  So along every run from boot,
  for every live set and every semaphore i, semcnt[i] is the number of
  decrements on i, counted with multiplicity, among the arrays of the tasks
  asleep on the set or woken and not yet recounted, and semzcnt[i] the same
  for the waits for zero (semcnt_eq_pending).  GETNCNT returns that number,
  which is not the number of blocked callers once an array names a
  semaphore twice.

  The invariant (CountsOk) carries what the counting needs besides: an
  address is never handed out twice, each array a task holds past its check
  names semaphores of its set, and the count arrays have nsems entries.  A
  woken task's own operations are part of the sum, so its lowering never
  meets a count of 0 (lowerCounts_counts).
-/
import Mathlib.Algebra.GroupWithZero.Nat
import Uinxed.Ipc.SemSys
import Mathlib.Algebra.Order.BigOperators.Group.List
import Mathlib.Algebra.Order.Group.Nat

set_option autoImplicit false

namespace Uinxed.Sem

/-! ## Counting the operations of an array -/

/-- The decrements of an array on semaphore i. -/
def decrementsOn (i : Nat) (ops : List SemBuf) : Nat := ops.countP fun o => o.semNum = i ∧ o.semOp < 0

/-- The waits for zero of an array on semaphore i. -/
def zeroWaitsOn (i : Nat) (ops : List SemBuf) : Nat := ops.countP fun o => o.semNum = i ∧ o.semOp = 0

theorem decrementsOn_cons (i : Nat) (o : SemBuf) (ops : List SemBuf) :
    decrementsOn i (o :: ops) = decrementsOn i ops + if o.semNum = i ∧ o.semOp < 0 then 1 else 0 := by
  simp [decrementsOn, List.countP_cons]

theorem zeroWaitsOn_cons (i : Nat) (o : SemBuf) (ops : List SemBuf) :
    zeroWaitsOn i (o :: ops) = zeroWaitsOn i ops + if o.semNum = i ∧ o.semOp = 0 then 1 else 0 := by
  simp [zeroWaitsOn, List.countP_cons]

/-- The operations a task's counts hold on the set at addr: its array while it
is asleep there, or woken and not yet recounted. -/
def SemPc.pendingOps (addr : Nat) : SemPc → List SemBuf
  | .asleep a _ ops _ => if a = addr then ops else []
  | .woken a _ ops => if a = addr then ops else []
  | _ => []

/-! ## Raising and lowering the counts -/

section Counts

variable {l : List Nat} {i j : Nat}

theorem bump_getD (hj : j < l.length) : (bump l j).getD i 0 = l.getD i 0 + if j = i then 1 else 0 := by
  unfold bump
  by_cases hji : j = i
  · subst hji
    simp [List.getD_eq_getElem?_getD, hj]
  · simp [hji]

theorem unbump_getD (hj : j < l.length) : (unbump l j).getD i 0 = l.getD i 0 - if j = i then 1 else 0 := by
  unfold unbump
  by_cases hji : j = i
  · subst hji
    simp [List.getD_eq_getElem?_getD, hj]
  · simp [hji]

@[simp] theorem bump_length : (bump l j).length = l.length := List.length_set

@[simp] theorem unbump_length : (unbump l j).length = l.length := List.length_set

end Counts

/-- The count arrays of a set have an entry for every semaphore an array names. -/
def SemArray.CountsCover (sem : SemArray) (ops : List SemBuf) : Prop :=
  ∀ o ∈ ops, o.semNum < sem.semcnt.length ∧ o.semNum < sem.semzcnt.length

section Raise

variable (sem : SemArray) (o : SemBuf)

@[simp] theorem raiseCount_nsems : (raiseCount sem o).nsems = sem.nsems := by
  unfold raiseCount
  split_ifs <;> rfl

@[simp] theorem raiseCount_semcnt_length : (raiseCount sem o).semcnt.length = sem.semcnt.length := by
  unfold raiseCount
  split_ifs <;> simp

@[simp] theorem raiseCount_semzcnt_length : (raiseCount sem o).semzcnt.length = sem.semzcnt.length := by
  unfold raiseCount
  split_ifs <;> simp

@[simp] theorem lowerCount_nsems : (lowerCount sem o).nsems = sem.nsems := by
  unfold lowerCount
  split_ifs <;> rfl

@[simp] theorem lowerCount_semcnt_length : (lowerCount sem o).semcnt.length = sem.semcnt.length := by
  unfold lowerCount
  split_ifs <;> simp

@[simp] theorem lowerCount_semzcnt_length : (lowerCount sem o).semzcnt.length = sem.semzcnt.length := by
  unfold lowerCount
  split_ifs <;> simp

end Raise

/-- One operation raised: its own count goes up by one. -/
theorem raiseCount_getD (sem : SemArray) (o : SemBuf) (i : Nat)
    (ho : o.semNum < sem.semcnt.length ∧ o.semNum < sem.semzcnt.length) :
    (raiseCount sem o).semcnt.getD i 0 = sem.semcnt.getD i 0 + (if o.semNum = i ∧ o.semOp < 0 then 1 else 0) ∧
      (raiseCount sem o).semzcnt.getD i 0 = sem.semzcnt.getD i 0 + (if o.semNum = i ∧ o.semOp = 0 then 1 else 0) := by
  unfold raiseCount
  by_cases hneg : o.semOp < 0
  · have hz : o.semOp ≠ 0 := by omega
    simp only [hneg, ↓reduceIte]
    rw [bump_getD ho.1]
    simp [hz]
  · by_cases hz : o.semOp = 0
    · rw [if_neg hneg, if_pos hz]
      dsimp only
      rw [bump_getD ho.2]
      simp [hz]
    · simp [hneg, hz]

/-- One operation lowered, where its own count is above 0. -/
theorem lowerCount_getD (sem : SemArray) (o : SemBuf) (i : Nat)
    (ho : o.semNum < sem.semcnt.length ∧ o.semNum < sem.semzcnt.length)
    (hpos : (o.semOp < 0 → 0 < sem.semcnt.getD o.semNum 0) ∧ (o.semOp = 0 → 0 < sem.semzcnt.getD o.semNum 0)) :
    (lowerCount sem o).semcnt.getD i 0 = sem.semcnt.getD i 0 - (if o.semNum = i ∧ o.semOp < 0 then 1 else 0) ∧
      (lowerCount sem o).semzcnt.getD i 0 = sem.semzcnt.getD i 0 - (if o.semNum = i ∧ o.semOp = 0 then 1 else 0) := by
  unfold lowerCount
  by_cases hneg : o.semOp < 0
  · have hz : o.semOp ≠ 0 := by omega
    simp only [hneg, hpos.1 hneg, and_self, ↓reduceIte]
    rw [unbump_getD ho.1]
    simp [hz]
  · by_cases hz : o.semOp = 0
    · rw [if_neg fun h => hneg h.1, if_pos ⟨hz, hpos.2 hz⟩]
      dsimp only
      rw [unbump_getD ho.2]
      simp [hz]
    · simp [hneg, hz]

/-- raiseCounts adds the array's decrements and waits for zero, semaphore by
semaphore, and keeps nsems and the lengths of the count arrays. -/
theorem raiseCounts_counts (ops : List SemBuf) :
    ∀ (sem : SemArray), sem.CountsCover ops →
      (raiseCounts sem ops).nsems = sem.nsems ∧
      (raiseCounts sem ops).semcnt.length = sem.semcnt.length ∧
      (raiseCounts sem ops).semzcnt.length = sem.semzcnt.length ∧
      ∀ i, (raiseCounts sem ops).semcnt.getD i 0 = sem.semcnt.getD i 0 + decrementsOn i ops ∧
        (raiseCounts sem ops).semzcnt.getD i 0 = sem.semzcnt.getD i 0 + zeroWaitsOn i ops := by
  induction ops with
  | nil => intro sem _; simp [raiseCounts, decrementsOn, zeroWaitsOn]
  | cons o rest ih =>
    intro sem hcov
    have hcov' : (raiseCount sem o).CountsCover rest := fun o' ho' => by
      simpa using hcov o' (List.mem_cons_of_mem _ ho')
    obtain ⟨hn, hl, hlz, hc⟩ := ih (raiseCount sem o) hcov'
    refine ⟨by simpa [raiseCounts] using hn, by simpa [raiseCounts] using hl, by simpa [raiseCounts] using hlz, fun i => ?_⟩
    obtain ⟨h1, h2⟩ := hc i
    obtain ⟨h3, h4⟩ := raiseCount_getD sem o i (hcov o List.mem_cons_self)
    simp only [raiseCounts, List.foldl_cons] at h1 h2 ⊢
    rw [h1, h2, h3, h4, decrementsOn_cons, zeroWaitsOn_cons]
    omega

/-- lowerCounts takes the array's decrements and waits for zero off again,
where the counts hold at least that many: no count it lowers is 0 then. -/
theorem lowerCounts_counts (ops : List SemBuf) :
    ∀ (sem : SemArray), sem.CountsCover ops →
      (∀ i, decrementsOn i ops ≤ sem.semcnt.getD i 0 ∧ zeroWaitsOn i ops ≤ sem.semzcnt.getD i 0) →
      (lowerCounts sem ops).nsems = sem.nsems ∧
      (lowerCounts sem ops).semcnt.length = sem.semcnt.length ∧
      (lowerCounts sem ops).semzcnt.length = sem.semzcnt.length ∧
      ∀ i, (lowerCounts sem ops).semcnt.getD i 0 = sem.semcnt.getD i 0 - decrementsOn i ops ∧
        (lowerCounts sem ops).semzcnt.getD i 0 = sem.semzcnt.getD i 0 - zeroWaitsOn i ops := by
  induction ops with
  | nil => intro sem _ _; simp [lowerCounts, decrementsOn, zeroWaitsOn]
  | cons o rest ih =>
    intro sem hcov hge
    -- the count o lowers holds o itself, so it is above 0
    have hpos : (o.semOp < 0 → 0 < sem.semcnt.getD o.semNum 0) ∧ (o.semOp = 0 → 0 < sem.semzcnt.getD o.semNum 0) := by
      have hown := hge o.semNum
      rw [decrementsOn_cons, zeroWaitsOn_cons] at hown
      constructor
      · intro hneg
        simp only [hneg, and_self, ↓reduceIte] at hown
        omega
      · intro hz
        simp only [hz, and_self, ↓reduceIte] at hown
        omega
    have hstep := fun i => lowerCount_getD sem o i (hcov o List.mem_cons_self) hpos
    have hcov' : (lowerCount sem o).CountsCover rest := fun o' ho' => by
      simpa using hcov o' (List.mem_cons_of_mem _ ho')
    have hge' : ∀ i, decrementsOn i rest ≤ (lowerCount sem o).semcnt.getD i 0 ∧
        zeroWaitsOn i rest ≤ (lowerCount sem o).semzcnt.getD i 0 := by
      intro i
      obtain ⟨h1, h2⟩ := hge i
      obtain ⟨h3, h4⟩ := hstep i
      rw [decrementsOn_cons] at h1
      rw [zeroWaitsOn_cons] at h2
      rw [h3, h4]
      omega
    obtain ⟨hn, hl, hlz, hc⟩ := ih (lowerCount sem o) hcov' hge'
    refine ⟨by simpa [lowerCounts] using hn, by simpa [lowerCounts] using hl, by simpa [lowerCounts] using hlz, fun i => ?_⟩
    obtain ⟨h1, h2⟩ := hc i
    obtain ⟨h3, h4⟩ := hstep i
    simp only [lowerCounts, List.foldl_cons] at h1 h2 ⊢
    rw [h1, h2, h3, h4, decrementsOn_cons, zeroWaitsOn_cons]
    omega

/-! ## The invariant -/

/-- The pending decrements of all tasks on semaphore i of the set at addr. -/
def SemSystem.pendingDecrements (s : SemSystem) (addr i : Nat) : Nat :=
  (s.tasks.map fun pc => decrementsOn i (pc.pendingOps addr)).sum

/-- The pending waits for zero of all tasks on semaphore i of the set at addr. -/
def SemSystem.pendingZeroWaits (s : SemSystem) (addr i : Nat) : Nat :=
  (s.tasks.map fun pc => zeroWaitsOn i (pc.pendingOps addr)).sum

/-- An array held past its check fits its set: the pointer is an address malloc
returned, and every sem_num is below the set's nsems while the set is there. -/
def OpsFit (s : SemSystem) (a : Nat) (ops : List SemBuf) : Prop :=
  a < s.fresh ∧ ∀ sem, s.heap a = some sem → ∀ o ∈ ops, o.semNum < sem.nsems

/-- What a task holds fits the state. -/
def SemPc.Fits (s : SemSystem) : SemPc → Prop
  | .idle => True
  | .looked a _ _ => a < s.fresh
  | .retry a _ ops => OpsFit s a ops
  | .asleep a _ ops _ => OpsFit s a ops
  | .woken a _ ops => OpsFit s a ops
  | .ctl a _ _ => a < s.fresh
  | .rmidFree a => a < s.fresh
  | .freedAccess a => a < s.fresh

/-- The counts of every live set are the pending operations of the tasks on
it, with what that needs: no address is handed out twice, the slots and the
tasks point below fresh, and each set's count arrays have nsems entries. -/
structure CountsOk (s : SemSystem) : Prop where
  fresh : ∀ a, s.fresh ≤ a → s.heap a = none
  slots : ∀ i a, s.slots i = some a → a < s.fresh
  fits : ∀ pc ∈ s.tasks, pc.Fits s
  lengths : ∀ a sem, s.heap a = some sem → sem.semcnt.length = sem.nsems ∧ sem.semzcnt.length = sem.nsems
  counts : ∀ a sem, s.heap a = some sem → ∀ i,
    sem.semcnt.getD i 0 = s.pendingDecrements a i ∧ sem.semzcnt.getD i 0 = s.pendingZeroWaits a i

/-! ## Sums over the tasks -/

/-- A store into a list moves its sum by the difference. -/
theorem sum_map_set {α : Type} (f : α → Nat) (d : α) :
    ∀ (l : List α) (t : Nat) (a : α), t < l.length → ((l.set t a).map f).sum + f (l.getD t d) = (l.map f).sum + f a
  | [], _, _, h => absurd h (Nat.not_lt_zero _)
  | x :: xs, 0, a, _ => by
    simp only [List.set_cons_zero, List.map_cons, List.sum_cons, List.getD_cons_zero]
    omega
  | x :: xs, t + 1, a, h => by
    have ih := sum_map_set f d xs t a (by simpa using h)
    simp only [List.set_cons_succ, List.map_cons, List.sum_cons, List.getD_cons_succ]
    omega

/-- A task that changes from one state to another moves a sum over the tasks
by the difference; an index past the table changes nothing. -/
theorem SemSystem.sum_setPc (s : SemSystem) (t : Nat) (pc : SemPc) (f : SemPc → Nat) (hidle : f .idle = 0) :
    ((s.setPc t pc).tasks.map f).sum + f (s.pc t) = (s.tasks.map f).sum + if t < s.tasks.length then f pc else 0 := by
  by_cases ht : t < s.tasks.length
  · rw [if_pos ht]
    exact sum_map_set f .idle s.tasks t pc ht
  · rw [if_neg ht, SemSystem.pc_of_length_le (by omega), hidle, SemSystem.setPc_tasks,
      List.set_eq_of_length_le (by omega)]

theorem decrementsOn_nil (i : Nat) : decrementsOn i [] = 0 := rfl

theorem zeroWaitsOn_nil (i : Nat) : zeroWaitsOn i [] = 0 := rfl

/-! ## What keeps the invariant -/

/-- s' keeps the sets s has (with their nsems) or frees them, and hands out
only addresses from s.fresh on. -/
def HeapKeeps (s s' : SemSystem) : Prop :=
  s.fresh ≤ s'.fresh ∧ ∀ a sem', s'.heap a = some sem' → a < s.fresh → ∃ sem, s.heap a = some sem ∧ sem.nsems = sem'.nsems

theorem OpsFit.mono {s s' : SemSystem} {a : Nat} {ops : List SemBuf} (h : OpsFit s a ops) (hk : HeapKeeps s s') :
    OpsFit s' a ops := by
  refine ⟨Nat.lt_of_lt_of_le h.1 hk.1, fun sem' hs' o ho => ?_⟩
  obtain ⟨sem, hs, hn⟩ := hk.2 a sem' hs' h.1
  rw [← hn]
  exact h.2 sem hs o ho

theorem SemPc.Fits.mono {s s' : SemSystem} {pc : SemPc} (h : pc.Fits s) (hk : HeapKeeps s s') : pc.Fits s' := by
  cases pc with
  | idle => trivial
  | retry a _ ops => exact OpsFit.mono h hk
  | asleep a _ ops _ => exact OpsFit.mono h hk
  | woken a _ ops => exact OpsFit.mono h hk
  | looked a _ _ => exact Nat.lt_of_lt_of_le h hk.1
  | ctl a _ _ => exact Nat.lt_of_lt_of_le h hk.1
  | rmidFree a => exact Nat.lt_of_lt_of_le h hk.1
  | freedAccess a => exact Nat.lt_of_lt_of_le h hk.1

theorem heapKeeps_of_heap {s s' : SemSystem} (hf : s'.fresh = s.fresh) (hh : s'.heap = s.heap) : HeapKeeps s s' :=
  ⟨hf ▸ Nat.le_refl _, fun _ sem' hs' _ => ⟨sem', hh ▸ hs', rfl⟩⟩

theorem wakePc_pendingOps (addr : Nat) (qs : List Nat) (pc : SemPc) (a : Nat) :
    (SemSystem.wakePc addr qs pc).pendingOps a = pc.pendingOps a := by
  cases pc with
  | asleep b semid ops q =>
    simp only [SemSystem.wakePc]
    split <;> rfl
  | _ => rfl

section Keep

variable {s : SemSystem} (h : CountsOk s)
include h

theorem CountsOk.lt_fresh {a : Nat} {sem : SemArray} (hs : s.heap a = some sem) : a < s.fresh := by
  by_contra hge
  rw [h.fresh a (by omega)] at hs
  cases hs

/-- A task may take any state that fits, as long as neither state holds counts
on a live set. -/
theorem CountsOk.setPc {t : Nat} {pc : SemPc}
    (hpend : ∀ a, (∃ sem, s.heap a = some sem) → (s.pc t).pendingOps a = [] ∧ pc.pendingOps a = [])
    (hfit : pc.Fits s) : CountsOk (s.setPc t pc) where
  fresh := h.fresh
  slots := h.slots
  fits pc' hpc' := by
    rcases List.mem_or_eq_of_mem_set hpc' with hmem | rfl
    · exact (h.fits pc' hmem).mono (heapKeeps_of_heap rfl rfl)
    · exact hfit.mono (heapKeeps_of_heap rfl rfl)
  lengths := h.lengths
  counts a sem hs i := by
    obtain ⟨hold, hnew⟩ := hpend a ⟨sem, hs⟩
    have hd := s.sum_setPc t pc (fun pc => decrementsOn i (pc.pendingOps a)) rfl
    have hz := s.sum_setPc t pc (fun pc => zeroWaitsOn i (pc.pendingOps a)) rfl
    simp only [hold, hnew, decrementsOn_nil, zeroWaitsOn_nil, Nat.add_zero, ite_self] at hd hz
    obtain ⟨h1, h2⟩ := h.counts a sem hs i
    exact ⟨h1.trans hd.symm, h2.trans hz.symm⟩

/-- A wake-up moves sleepers to woken, which holds the same counts. -/
theorem CountsOk.wake (addr : Nat) (qs : List Nat) : CountsOk (s.wake addr qs) where
  fresh := h.fresh
  slots := h.slots
  fits pc hpc := by
    obtain ⟨pc₀, hmem, rfl⟩ := List.mem_map.mp hpc
    have hfit : pc₀.Fits (s.wake addr qs) := (h.fits pc₀ hmem).mono (heapKeeps_of_heap rfl rfl)
    cases pc₀ with
    | asleep b semid ops q =>
      -- woken holds what asleep held
      simp only [SemSystem.wakePc]
      split
      · exact hfit
      · exact hfit
    | _ => exact hfit
  lengths := h.lengths
  counts a sem hs i := by
    simp only [SemSystem.pendingDecrements, SemSystem.pendingZeroWaits, SemSystem.wake_tasks, List.map_map,
      Function.comp_def]
    simp only [wakePc_pendingOps]
    exact h.counts a sem hs i

/-- A set at addr replaced by one with the same nsems and counts. -/
theorem CountsOk.setHeap_keep {addr : Nat} {sem sem' : SemArray} (hs : s.heap addr = some sem) (hn : sem'.nsems = sem.nsems)
    (hc : sem'.semcnt = sem.semcnt) (hz : sem'.semzcnt = sem.semzcnt) : CountsOk (s.setHeap addr (some sem')) where
  fresh a ha := by
    have := h.lt_fresh hs
    simp only [SemSystem.setHeap_heap, SemSystem.setHeap_fresh] at ha ⊢
    rw [if_neg (by omega)]
    exact h.fresh a ha
  slots := h.slots
  fits pc hpc := by
    refine (h.fits pc hpc).mono ⟨Nat.le_refl _, fun a sem'' hs'' _ => ?_⟩
    simp only [SemSystem.setHeap_heap] at hs''
    split at hs''
    · next ha =>
      cases hs''
      exact ⟨sem, ha ▸ hs, hn.symm⟩
    · exact ⟨sem'', hs'', rfl⟩
  lengths a sem'' hs'' := by
    simp only [SemSystem.setHeap_heap] at hs''
    split at hs''
    · next ha =>
      cases hs''
      rw [hn, hc, hz]
      exact h.lengths addr sem hs
    · exact h.lengths a sem'' hs''
  counts a sem'' hs'' i := by
    simp only [SemSystem.setHeap_heap] at hs''
    simp only [SemSystem.pendingDecrements, SemSystem.pendingZeroWaits, SemSystem.setHeap_tasks]
    split at hs''
    · next ha =>
      cases hs''
      rw [hc, hz]
      exact ha ▸ h.counts addr sem hs i
    · exact h.counts a sem'' hs'' i

/-- The set at addr freed. -/
theorem CountsOk.free (addr : Nat) : CountsOk (s.setHeap addr none) where
  fresh a ha := by
    simp only [SemSystem.setHeap_heap, SemSystem.setHeap_fresh] at ha ⊢
    split
    · rfl
    · exact h.fresh a ha
  slots := h.slots
  fits pc hpc := by
    refine (h.fits pc hpc).mono ⟨Nat.le_refl _, fun a sem' hs' _ => ?_⟩
    simp only [SemSystem.setHeap_heap] at hs'
    split at hs'
    · cases hs'
    · exact ⟨sem', hs', rfl⟩
  lengths a sem hs := by
    simp only [SemSystem.setHeap_heap] at hs
    split at hs
    · cases hs
    · exact h.lengths a sem hs
  counts a sem hs i := by
    simp only [SemSystem.setHeap_heap] at hs
    split at hs
    · cases hs
    · exact h.counts a sem hs i

theorem CountsOk.withUndos (us : List SemUndo) : CountsOk { s with undos := us } :=
  ⟨h.fresh, h.slots, h.fits, h.lengths, h.counts⟩

/-- What a task holds fits, idle or not. -/
theorem CountsOk.fits_pc (t : Nat) : (s.pc t).Fits s := by
  by_cases hi : s.pc t = .idle
  · rw [hi]
    trivial
  · exact h.fits _ (s.pc_mem hi).2

/-- A task's own pending operations are part of the counts. -/
theorem CountsOk.own_le {t addr : Nat} {sem : SemArray} (hs : s.heap addr = some sem) (i : Nat) :
    decrementsOn i ((s.pc t).pendingOps addr) ≤ sem.semcnt.getD i 0 ∧
      zeroWaitsOn i ((s.pc t).pendingOps addr) ≤ sem.semzcnt.getD i 0 := by
  by_cases hi : s.pc t = .idle
  · rw [hi]
    exact ⟨Nat.zero_le _, Nat.zero_le _⟩
  · have hmem := (s.pc_mem hi).2
    obtain ⟨h1, h2⟩ := h.counts addr sem hs i
    rw [h1, h2]
    exact ⟨List.le_sum_of_mem (List.mem_map_of_mem hmem), List.le_sum_of_mem (List.mem_map_of_mem hmem)⟩

/-- The counts of the set at addr replaced while task t moves to pc: the
invariant holds when the counts move by what t's pending operations on the
set move, and t holds nothing on any other set. -/
theorem CountsOk.setCounts {t addr : Nat} {sem sem' : SemArray} {pc : SemPc} (hs : s.heap addr = some sem)
    (hn : sem'.nsems = sem.nsems) (hl : sem'.semcnt.length = sem.semcnt.length ∧ sem'.semzcnt.length = sem.semzcnt.length)
    (hc : ∀ i, sem'.semcnt.getD i 0 + decrementsOn i ((s.pc t).pendingOps addr) =
      sem.semcnt.getD i 0 + decrementsOn i (pc.pendingOps addr))
    (hz : ∀ i, sem'.semzcnt.getD i 0 + zeroWaitsOn i ((s.pc t).pendingOps addr) =
      sem.semzcnt.getD i 0 + zeroWaitsOn i (pc.pendingOps addr))
    (hother : ∀ a, a ≠ addr → (s.pc t).pendingOps a = [] ∧ pc.pendingOps a = []) (ht : t < s.tasks.length)
    (hfit : pc.Fits s) : CountsOk ((s.setHeap addr (some sem')).setPc t pc) := by
  have hlt := h.lt_fresh hs
  have hk : HeapKeeps s ((s.setHeap addr (some sem')).setPc t pc) := by
    refine ⟨Nat.le_refl _, fun a sem'' hs'' _ => ?_⟩
    simp only [SemSystem.setPc_heap, SemSystem.setHeap_heap] at hs''
    split at hs''
    · next ha =>
      cases hs''
      exact ⟨sem, ha ▸ hs, hn.symm⟩
    · exact ⟨sem'', hs'', rfl⟩
  refine ⟨fun a ha => ?_, h.slots, fun pc' hpc' => ?_, fun a sem'' hs'' => ?_, fun a sem'' hs'' i => ?_⟩
  · simp only [SemSystem.setPc_heap, SemSystem.setHeap_heap, SemSystem.setPc_fresh, SemSystem.setHeap_fresh] at ha ⊢
    rw [if_neg (by omega)]
    exact h.fresh a ha
  · rcases List.mem_or_eq_of_mem_set hpc' with hmem | rfl
    · exact (h.fits pc' hmem).mono hk
    · exact hfit.mono hk
  · simp only [SemSystem.setPc_heap, SemSystem.setHeap_heap] at hs''
    split at hs''
    · next ha =>
      cases hs''
      rw [hn, hl.1, hl.2]
      exact h.lengths addr sem hs
    · exact h.lengths a sem'' hs''
  · -- the sums move by t's own change, the counts at addr by the same
    have hd := (s.setHeap addr (some sem')).sum_setPc t pc (fun pc => decrementsOn i (pc.pendingOps a)) rfl
    have hzs := (s.setHeap addr (some sem')).sum_setPc t pc (fun pc => zeroWaitsOn i (pc.pendingOps a)) rfl
    simp only [SemSystem.setHeap_tasks, ht, ↓reduceIte] at hd hzs
    change ((s.setHeap addr (some sem')).setPc t pc).pendingDecrements a i + decrementsOn i ((s.pc t).pendingOps a) =
      s.pendingDecrements a i + decrementsOn i (pc.pendingOps a) at hd
    change ((s.setHeap addr (some sem')).setPc t pc).pendingZeroWaits a i + zeroWaitsOn i ((s.pc t).pendingOps a) =
      s.pendingZeroWaits a i + zeroWaitsOn i (pc.pendingOps a) at hzs
    simp only [SemSystem.setPc_heap, SemSystem.setHeap_heap] at hs''
    split at hs''
    · next ha =>
      cases hs''
      subst ha
      obtain ⟨h1, h2⟩ := h.counts a sem hs i
      have hc' := hc i
      have hz' := hz i
      constructor <;> omega
    · next ha =>
      obtain ⟨hold, hnew⟩ := hother a ha
      obtain ⟨h1, h2⟩ := h.counts a sem'' hs'' i
      simp only [hold, hnew, decrementsOn_nil, zeroWaitsOn_nil, Nat.add_zero] at hd hzs
      exact ⟨h1.trans hd.symm, h2.trans hzs.symm⟩

/-- ipc_id_remove only empties a slot. -/
theorem CountsOk.idRemove {semid : Nat} {s' : SemSystem} (hr : s.idRemove semid = some s') : CountsOk s' := by
  rw [s.idRemove_eq hr]
  refine ⟨h.fresh, fun i a ha => ?_, h.fits, h.lengths, h.counts⟩
  simp only at ha
  split at ha
  · cases ha
  · exact h.slots i a ha

/-- Replaying an undo record changes values and wakes queues. -/
theorem CountsOk.semUndoReplay (u : SemUndo) : CountsOk (Uinxed.Sem.semUndoReplay s u) := by
  unfold Uinxed.Sem.semUndoReplay
  split
  · exact h
  · split
    · exact h
    · next sem hs =>
      -- the replay stores values only
      have hn : (semUndoApply u sem).1.nsems = sem.nsems := rfl
      exact (h.setHeap_keep hs hn rfl rfl).wake _ _

end Keep

theorem countsOk_foldl_semUndoReplay (us : List SemUndo) :
    ∀ (s : SemSystem), CountsOk s → CountsOk (us.foldl semUndoReplay s) := by
  induction us with
  | nil => exact fun _ h => h
  | cons u rest ih => exact fun s h => ih _ (h.semUndoReplay u)

/-- Process exit. -/
theorem CountsOk.semUndoRelease {s : SemSystem} (h : CountsOk s) (proc : Nat) :
    CountsOk (Uinxed.Sem.semUndoRelease s proc) :=
  (countsOk_foldl_semUndoReplay _ s h).withUndos _

/-- No task holds operations on the address malloc returns next. -/
theorem SemPc.pendingOps_fresh {s : SemSystem} {pc : SemPc} (h : pc.Fits s) : pc.pendingOps s.fresh = [] := by
  cases pc with
  | asleep a _ ops _ =>
    have hne : a ≠ s.fresh := Nat.ne_of_lt h.1
    simp [SemPc.pendingOps, hne]
  | woken a _ ops =>
    have hne : a ≠ s.fresh := Nat.ne_of_lt h.1
    simp [SemPc.pendingOps, hne]
  | _ => rfl

theorem getD_replicate_zero (n i : Nat) : (List.replicate n 0).getD i 0 = 0 := by
  simp only [List.getD_eq_getElem?_getD, List.getElem?_replicate]
  split <;> rfl

/-- sys_semget's new set, at the fresh address, in a free slot. -/
theorem CountsOk.newSet {s : SemSystem} (h : CountsOk s) (idx seq key nsems : Nat) :
    CountsOk { s with
      slots := fun i => if i = idx then some s.fresh else s.slots i
      seqs := fun i => if i = idx then seq else s.seqs i
      heap := fun a => if a = s.fresh then some (SemArray.new key seq nsems) else s.heap a
      fresh := s.fresh + 1 } := by
  refine ⟨fun a ha => ?_, fun i a ha => ?_, fun pc hpc => (h.fits pc hpc).mono ⟨by simp, fun a sem' hs' ha => ?_⟩,
    fun a sem hs => ?_, fun a sem hs i => ?_⟩
  · simp only at ha ⊢
    rw [if_neg (by omega)]
    exact h.fresh a (by omega)
  · simp only at ha ⊢
    split at ha
    · cases ha
      omega
    · have := h.slots i a ha
      omega
  · simp only at hs'
    rw [if_neg (Nat.ne_of_lt ha)] at hs'
    exact ⟨sem', hs', rfl⟩
  · simp only at hs
    split at hs
    · cases hs
      simp [SemArray.new]
    · exact h.lengths a sem hs
  · simp only at hs
    simp only [SemSystem.pendingDecrements, SemSystem.pendingZeroWaits]
    split at hs
    · -- a fresh set: counts 0, and no task holds anything on it
      next ha =>
      cases hs
      subst ha
      have hsum : ∀ f : List SemBuf → Nat, f [] = 0 → (s.tasks.map fun pc => f (pc.pendingOps s.fresh)).sum = 0 := by
        intro f hf
        apply List.sum_eq_zero
        intro x hx
        obtain ⟨pc, hpc, rfl⟩ := List.mem_map.mp hx
        rw [SemPc.pendingOps_fresh (h.fits pc hpc), hf]
      exact ⟨(getD_replicate_zero _ _).trans (hsum _ rfl).symm, (getD_replicate_zero _ _).trans (hsum _ rfl).symm⟩
    · exact h.counts a sem hs i

/-- sys_semget keeps the invariant: its only store is a new set. -/
theorem CountsOk.sysSemget {s : SemSystem} (h : CountsOk s) (key nsems semflg : Nat) :
    CountsOk (Uinxed.Sem.sysSemget s key nsems semflg).1 := by
  unfold Uinxed.Sem.sysSemget
  split
  · exact h
  split
  · exact h
  cases hk : (if key ≠ 0 then s.findKey key else none) with
  | some found =>
    -- an existing set: only an id or an error comes back
    simp only
    split_ifs <;> exact h
  | none =>
    simp only
    split
    · exact h
    cases ha : s.idAlloc with
    | none => exact h
    | some slot => exact h.newSet slot.1 slot.2 key nsems

/-! ## Each section keeps the invariant -/

section Sections

variable {s : SemSystem} (h : CountsOk s)
include h

/-- A task that holds no counts returns. -/
theorem CountsOk.ret {t : Nat} (hold : ∀ a, (s.pc t).pendingOps a = []) (r : Int) : CountsOk (s.ret t r).1 :=
  h.setPc (fun a _ => ⟨hold a, rfl⟩) trivial

/-- A task goes through its pointer to the freed set at addr: what it held
there counts on no live set. -/
theorem CountsOk.freed {t addr : Nat} (hfree : s.heap addr = none) (hpend : ∀ a, a ≠ addr → (s.pc t).pendingOps a = [])
    (hlt : addr < s.fresh) : CountsOk (s.freed t addr).1 := by
  refine h.setPc (fun a ⟨sem, hs⟩ => ⟨hpend a fun he => ?_, rfl⟩) hlt
  rw [he, hfree] at hs
  cases hs

/-- A pass that blocks: the counts go up by the array, which the sleeper now holds. -/
theorem CountsOk.block {t addr semid q : Nat} {ops : List SemBuf} {sem : SemArray} (hpc : s.pc t = .retry addr semid ops)
    (hs : s.heap addr = some sem) : CountsOk ((s.setHeap addr (some (raiseCounts sem ops))).setPc t (.asleep addr semid ops q)) := by
  have hfit : OpsFit s addr ops := by
    have := h.fits_pc t
    rw [hpc] at this
    exact this
  have hcov : sem.CountsCover ops := fun o ho => by
    have hl := h.lengths addr sem hs
    have := hfit.2 sem hs o ho
    omega
  have ht : t < s.tasks.length := (s.pc_mem (by rw [hpc]; exact SemPc.noConfusion)).1
  obtain ⟨hn, hl1, hl2, hc⟩ := raiseCounts_counts ops sem hcov
  refine h.setCounts hs hn ⟨hl1, hl2⟩ (fun i => ?_) (fun i => ?_) (fun a ha => ?_) ht hfit
  · rw [hpc, (hc i).1]
    simp [SemPc.pendingOps, decrementsOn_nil]
  · rw [hpc, (hc i).2]
    simp [SemPc.pendingOps, zeroWaitsOn_nil]
  · rw [hpc]
    simp [SemPc.pendingOps, Ne.symm ha]

/-- A woken task takes its counts back, which its own operations are part of. -/
theorem CountsOk.recount {t addr semid : Nat} {ops : List SemBuf} {sem : SemArray} (hpc : s.pc t = .woken addr semid ops)
    (hs : s.heap addr = some sem) : CountsOk ((s.setHeap addr (some (lowerCounts sem ops))).setPc t (.retry addr semid ops)) := by
  have hfit : OpsFit s addr ops := by
    have := h.fits_pc t
    rw [hpc] at this
    exact this
  have hcov : sem.CountsCover ops := fun o ho => by
    have hl := h.lengths addr sem hs
    have := hfit.2 sem hs o ho
    omega
  have ht : t < s.tasks.length := (s.pc_mem (by rw [hpc]; exact SemPc.noConfusion)).1
  have hge : ∀ i, decrementsOn i ops ≤ sem.semcnt.getD i 0 ∧ zeroWaitsOn i ops ≤ sem.semzcnt.getD i 0 := by
    intro i
    have hown := h.own_le (t := t) hs i
    rw [hpc] at hown
    simpa [SemPc.pendingOps] using hown
  obtain ⟨hn, hl1, hl2, hc⟩ := lowerCounts_counts ops sem hcov hge
  refine h.setCounts hs hn ⟨hl1, hl2⟩ (fun i => ?_) (fun i => ?_) (fun a ha => ?_) ht hfit
  · have := (hge i).1
    rw [hpc, (hc i).1]
    simp only [SemPc.pendingOps, ↓reduceIte, decrementsOn_nil]
    omega
  · have := (hge i).2
    rw [hpc, (hc i).2]
    simp only [SemPc.pendingOps, ↓reduceIte, zeroWaitsOn_nil]
    omega
  · rw [hpc]
    simp [SemPc.pendingOps, Ne.symm ha]

/-- The first section of a call, from idle. -/
theorem CountsOk.semCall {t : Nat} (hidle : s.pc t = .idle) (c : SemCall) : CountsOk (Uinxed.Sem.semCall s t c).1 := by
  have hold : ∀ a, (s.pc t).pendingOps a = [] := fun a => by rw [hidle]; rfl
  cases c with
  | semget key nsems semflg =>
    have hold' : ∀ a, ((Uinxed.Sem.sysSemget s key nsems semflg).1.pc t).pendingOps a = [] := by
      intro a
      simp only [SemSystem.pc, sysSemget_tasks]
      exact hold a
    exact (h.sysSemget key nsems semflg).ret hold' _
  | semop semid ops =>
    simp only [Uinxed.Sem.semCall]
    split
    · exact h.ret hold _
    · split
      · exact h.ret hold _
      · next addr hl =>
        obtain ⟨i, hi⟩ := s.lookup_some hl
        exact h.setPc (fun a _ => ⟨hold a, rfl⟩) (h.slots i addr hi)
  | semctl semid cmd =>
    simp only [Uinxed.Sem.semCall]
    split
    · exact h.ret hold _
    · next addr hl =>
      obtain ⟨i, hi⟩ := s.lookup_some hl
      exact h.setPc (fun a _ => ⟨hold a, rfl⟩) (h.slots i addr hi)
  | exit => exact h.semUndoRelease t

theorem CountsOk.semopCheck {t addr semid : Nat} {ops : List SemBuf} (hpc : s.pc t = .looked addr semid ops) :
    CountsOk (Uinxed.Sem.semopCheck s t addr semid ops).1 := by
  have hold : ∀ a, (s.pc t).pendingOps a = [] := fun a => by rw [hpc]; rfl
  have hlt : addr < s.fresh := by
    have := h.fits_pc t
    rw [hpc] at this
    exact this
  unfold Uinxed.Sem.semopCheck
  split
  · next hs => exact h.freed hs (fun a _ => hold a) hlt
  · next sem hs =>
    split
    · exact h.ret hold _
    · next hany =>
      -- every sem_num passed the check against this set's nsems
      refine h.setPc (fun a _ => ⟨hold a, rfl⟩) ⟨hlt, fun sem' hs' o ho => ?_⟩
      rw [hs] at hs'
      cases hs'
      by_contra hge
      exact hany (List.any_eq_true.mpr ⟨o, ho, by simpa using Nat.le_of_not_lt hge⟩)

theorem CountsOk.semopPass {t addr semid : Nat} {ops : List SemBuf} (hpc : s.pc t = .retry addr semid ops) :
    CountsOk (Uinxed.Sem.semopPass s t addr semid ops).1 := by
  have hold : ∀ a, (s.pc t).pendingOps a = [] := fun a => by rw [hpc]; rfl
  have hlt : addr < s.fresh := by
    have := h.fits_pc t
    rw [hpc] at this
    exact this.1
  unfold Uinxed.Sem.semopPass
  split
  · next hs => exact h.freed hs (fun a _ => hold a) hlt
  · next sem hs =>
    split
    · exact h.ret hold _
    · exact h.ret hold _
    · next sem' q hp =>
      rw [semPass_block hp]
      exact h.block hpc hs
    · next sem' adj hp =>
      rw [semPass_apply hp]
      -- the values stored, the undo record kept, queues woken, then the return
      have hn : ({ sem with values := (semApply sem.values (List.replicate sem.nsems 0) ops).1 } : SemArray).nsems = sem.nsems :=
        rfl
      refine (((h.setHeap_keep hs hn rfl rfl).withUndos _).wake addr _).ret (fun a => ?_) 0
      rw [SemSystem.wake_pc, wakePc_pendingOps]
      exact hold a

theorem CountsOk.semopRecount {t addr semid : Nat} {ops : List SemBuf} (hpc : s.pc t = .woken addr semid ops) :
    CountsOk (Uinxed.Sem.semopRecount s t addr semid ops).1 := by
  have hlt : addr < s.fresh := by
    have := h.fits_pc t
    rw [hpc] at this
    exact this.1
  unfold Uinxed.Sem.semopRecount
  split
  · next hs =>
    refine h.freed hs (fun a ha => ?_) hlt
    rw [hpc]
    simp [SemPc.pendingOps, Ne.symm ha]
  · next sem hs => exact h.recount hpc hs

theorem CountsOk.semctlRun {t addr semid : Nat} {cmd : SemCtl} (hpc : s.pc t = .ctl addr semid cmd) :
    CountsOk (Uinxed.Sem.semctlRun s t addr semid cmd).1 := by
  have hold : ∀ a, (s.pc t).pendingOps a = [] := fun a => by rw [hpc]; rfl
  have hlt : addr < s.fresh := by
    have := h.fits_pc t
    rw [hpc] at this
    exact this
  -- after a store and a wake-up, the task still holds no counts
  have hwake : ∀ v qs a, (((s.setHeap addr v).wake addr qs).pc t).pendingOps a = [] := by
    intro v qs a
    rw [SemSystem.wake_pc, wakePc_pendingOps, SemSystem.setHeap_pc]
    exact hold a
  unfold Uinxed.Sem.semctlRun
  split
  · next hs => exact h.freed hs (fun a _ => hold a) hlt
  · next sem hs =>
    cases cmd with
    | rmid =>
      simp only
      split
      · exact h.ret hold _
      · next s' hr =>
        -- the slot emptied, the set marked, every queue woken
        have hs' : s'.heap addr = some sem := by rw [s.idRemove_eq hr]; exact hs
        have hn : ({ sem with deleted := true } : SemArray).nsems = sem.nsems := rfl
        have h1 := ((h.idRemove hr).setHeap_keep hs' hn rfl rfl).wake addr (List.range sem.nsems)
        refine h1.setPc (fun a _ => ⟨?_, rfl⟩) (by rw [s.idRemove_eq hr] at *; exact hlt)
        rw [SemSystem.wake_pc, wakePc_pendingOps, SemSystem.setHeap_pc, s.idRemove_eq hr]
        exact hold a
    | setval semnum arg =>
      simp only
      split
      · exact h.ret hold _
      · have hn : ({ sem with values := sem.values.set semnum (setvalValue arg) } : SemArray).nsems = sem.nsems := rfl
        exact ((h.setHeap_keep hs hn rfl rfl).wake addr [semnum]).ret (hwake _ _) 0
    | setall vals =>
      simp only
      split
      · exact h.ret hold _
      · have hn : ({ sem with values := (vals.take sem.nsems).map (· % 65536) } : SemArray).nsems = sem.nsems := rfl
        exact ((h.setHeap_keep hs hn rfl rfl).wake addr (List.range sem.nsems)).ret (hwake _ _) 0
    | getval semnum => exact h.ret hold _
    | getncnt semnum => exact h.ret hold _
    | getzcnt semnum => exact h.ret hold _

/-- Every event keeps the invariant. -/
theorem CountsOk.semStep (e : SemEvent) : CountsOk (Uinxed.Sem.semStep s e).1 := by
  cases e with
  | call t c =>
    simp only [Uinxed.Sem.semStep]
    split
    · next hc => exact h.semCall hc.2 c
    · exact h
  | run t =>
    simp only [Uinxed.Sem.semStep]
    split
    · next addr semid ops hpc => exact h.semopCheck hpc
    · next addr semid ops hpc => exact h.semopPass hpc
    · next addr semid ops hpc => exact h.semopRecount hpc
    · next addr semid cmd hpc => exact h.semctlRun hpc
    · next addr hpc =>
      refine (h.free addr).ret (fun a => ?_) 0
      rw [SemSystem.setHeap_pc, hpc]
      rfl
    · exact h

end Sections

/-- Every run keeps the invariant. -/
theorem countsOk_semRun : ∀ (evs : List SemEvent) (s : SemSystem), CountsOk s → CountsOk (semRun s evs).1
  | [], _, h => h
  | e :: es, s, h => countsOk_semRun es (semStep s e).1 (h.semStep e)

theorem countsOk_boot (n : Nat) : CountsOk (SemSystem.boot n) where
  fresh _ _ := rfl
  slots _ _ h := by cases h
  fits pc hpc := by
    rw [List.eq_of_mem_replicate hpc]
    trivial
  lengths _ _ h := by cases h
  counts _ _ h := by cases h

/-- Along every run from boot, each count of a live set is the number of
pending operations of its kind on that semaphore, counted with multiplicity,
over the tasks asleep on the set or woken and not yet recounted. -/
theorem semcnt_eq_pending (n : Nat) (evs : List SemEvent) (addr : Nat) (sem : SemArray)
    (h : (semRun (SemSystem.boot n) evs).1.heap addr = some sem) (i : Nat) :
    sem.semcnt.getD i 0 = (semRun (SemSystem.boot n) evs).1.pendingDecrements addr i ∧
      sem.semzcnt.getD i 0 = (semRun (SemSystem.boot n) evs).1.pendingZeroWaits addr i :=
  (countsOk_semRun evs _ (countsOk_boot n)).counts addr sem h i

theorem semcnt_eq_pending_double_decrement :
    (semRun (SemSystem.boot 2) [.call 0 (.semget 7 1 (Uinxed.Shm.ipcCreat ||| 0x180)),
        .call 0 (.semop 65536 [⟨0, -1, 0⟩, ⟨0, -1, 0⟩]), .run 0, .run 0]).1.heap 0 = some ⟨7, 1, 1, [0], [2], [0], false⟩ ∧
    ([2] : List Nat).getD 0 0 = (semRun (SemSystem.boot 2) [.call 0 (.semget 7 1 (Uinxed.Shm.ipcCreat ||| 0x180)),
        .call 0 (.semop 65536 [⟨0, -1, 0⟩, ⟨0, -1, 0⟩]), .run 0, .run 0]).1.pendingDecrements 0 0 ∧
      ([0] : List Nat).getD 0 0 = (semRun (SemSystem.boot 2) [.call 0 (.semget 7 1 (Uinxed.Shm.ipcCreat ||| 0x180)),
        .call 0 (.semop 65536 [⟨0, -1, 0⟩, ⟨0, -1, 0⟩]), .run 0, .run 0]).1.pendingZeroWaits 0 0 :=
  ⟨by decide, semcnt_eq_pending 2 _ 0 ⟨7, 1, 1, [0], [2], [0], false⟩ (by decide) 0⟩

end Uinxed.Sem
