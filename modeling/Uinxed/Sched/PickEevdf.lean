/-
  Sched/PickEevdf.lean --- the heap search of pick_eevdf against the scan of
  the timeline.

  The timeline is an augmented red-black tree: every node carries the least
  vruntime of its subtree, which update_min_vruntime recomputes from the
  node's task and its two children.  pick_eevdf tries the cached leftmost task
  first, then walks down from the root, committing to the left subtree when
  its least vruntime is eligible.  Eligibility compares the key
  (vruntime - min_vruntime, read as int64) times the load with the weighted
  sum.  When every queued vruntime lies within 2^63 of min_vruntime the key
  grows with the vruntime, so eligibility is downward closed in the vruntime
  over the queued tasks, the stored minimum tells whether a subtree holds an
  eligible task, and the walk returns the first eligible task in timeline
  order: pick_eevdf over the tree is the list model of Sched/Eevdf.lean.

  With the accounting identity holding without overflow some task of the
  runqueue is eligible, the one of least key, which lies at or below the
  weighted average.  So when no queued task is eligible the running task is,
  and pick_eevdf never reaches its leftmost or idle fallback.

  The colours and rotations of the red-black tree are left out: the search
  reads only the shape, the tasks and the stored min_vruntime, and
  rb_insert_augmented and rb_erase_augmented keep the in-order sequence and
  the augmentation, which is what TimelineTree states.  rq->timeline.leftmost
  is the cached rb_first of the root.
-/
import Uinxed.Sched.Accounting
import Uinxed.Lib.AugTree
import Uinxed.Lib.SignedArith
import Mathlib.Data.Finset.Max
import Mathlib.Algebra.BigOperators.Ring.Finset

set_option autoImplicit false

namespace Uinxed.Sched

open OffsetSum SignedArith

/-! ## The augmented timeline -/

/-- update_min_vruntime: the least of the node's vruntime and the
min_vruntime of its children. -/
def updateMinVruntime (tasks : Nat → SchedTask) (t : Nat) (left right : Option UInt64) : UInt64 :=
  let minVr := (tasks t).vruntime
  let minVr := match left with
    | some l => if l < minVr then l else minVr
    | none => minVr
  match right with
  | some r => if r < minVr then r else minVr
  | none => minVr

/-- The timeline of runqueue c as a tree of tasks carrying min_vruntime: its
in-order sequence is the timeline, and every node holds what
update_min_vruntime computes for it. -/
structure TimelineTree (s : SchedState) (c : Nat) (root : AugTree Nat UInt64) : Prop where
  toList_eq : root.toList = (s.rqs c).timeline
  augmented : root.Augmented (updateMinVruntime s.tasks)

/-- pick_eevdf on the tree: the cached leftmost when eligible, then the
heap search that prunes with min_vruntime, then the running task, the
leftmost task and the idle task. -/
def pickEevdfTree (s : SchedState) (c : Nat) (root : AugTree Nat UInt64) : Nat :=
  let rq := s.rqs c
  if rq.nrRunning = 0 then rq.idle
  else
    let curr : Option Nat :=
      if (s.tasks rq.curr).state ≠ .running ∨ entityEligible s c rq.curr = false then none else some rq.curr
    let choose (se : Nat) : Nat := match curr with
      | none => se
      | some cu => if entityBefore (s.tasks se) (s.tasks cu) then se else cu
    let search := match root.heapSearch (entityEligibleVruntime s c) (entityEligible s c) with
      | some se => choose se
      | none => match curr with
        | some cu => if (s.tasks cu).state = .running then cu else root.leftmost?.getD rq.idle
        | none => root.leftmost?.getD rq.idle
    match root.leftmost? with
    | some leftmost => if entityEligible s c leftmost then choose leftmost else search
    | none => search

/-- One step of update_min_vruntime: take a child's min_vruntime when it is
below the least so far. -/
def minVruntimeStep (child : Option UInt64) (minVr : UInt64) : UInt64 :=
  match child with
  | some m => if m < minVr then m else minVr
  | none => minVr

theorem updateMinVruntime_eq_steps (tasks : Nat → SchedTask) (t : Nat) (left right : Option UInt64) :
    updateMinVruntime tasks t left right =
      minVruntimeStep right (minVruntimeStep left (tasks t).vruntime) := by
  cases left <;> cases right <;> rfl

/-- A step keeps the least so far or takes the child's value, whichever is
smaller. -/
theorem minVruntimeStep_spec (child : Option UInt64) (minVr : UInt64) :
    minVruntimeStep child minVr ≤ minVr ∧ (∀ m ∈ child, minVruntimeStep child minVr ≤ m) ∧
      (minVruntimeStep child minVr = minVr ∨ minVruntimeStep child minVr ∈ child) := by
  cases child with
  | none => simp [minVruntimeStep]
  | some m =>
    by_cases hlt : m < minVr
    · simp [minVruntimeStep, hlt, UInt64.le_of_lt]
    · simp [minVruntimeStep, hlt, UInt64.not_lt.mp hlt]

/-- update_min_vruntime stores the least vruntime of the node and its
children, and that is one of them. -/
theorem updateMinVruntime_minCombine (tasks : Nat → SchedTask) :
    AugTree.MinCombine (fun t => (tasks t).vruntime) (updateMinVruntime tasks) := by
  -- the two steps: first the left child, then the right one
  have hsteps := fun t bl br =>
    And.intro (minVruntimeStep_spec bl (tasks t).vruntime)
      (minVruntimeStep_spec br (minVruntimeStep bl (tasks t).vruntime))
  constructor <;> intro t bl br <;> rw [updateMinVruntime_eq_steps] <;>
    obtain ⟨⟨hl₁, hl₂, hl₃⟩, hr₁, hr₂, hr₃⟩ := hsteps t bl br
  · exact UInt64.le_trans hr₁ hl₁
  · exact fun m hm => UInt64.le_trans hr₁ (hl₂ m hm)
  · exact hr₂
  · rcases hr₃ with hr₃ | hr₃
    · rw [hr₃]
      rcases hl₃ with hl₃ | hl₃
      · exact .inl hl₃
      · exact .inr (.inl hl₃)
    · exact .inr (.inr hr₃)

/-! ## Eligibility is monotone in the vruntime -/

/-- The weighted sum entity_eligible_vruntime compares with: avg_vruntime,
plus the term of the running task. -/
def eligibleAvg (s : SchedState) (c : Nat) : Int :=
  let rq := s.rqs c
  let curr := s.tasks rq.curr
  if curr.state = .running then
    rq.avgVruntime.toInt + (curr.vruntime - rq.minVruntime).toInt64.toInt * curr.weight.toNat
  else rq.avgVruntime.toInt

/-- The load entity_eligible_vruntime multiplies the key by. -/
def eligibleLoad (s : SchedState) (c : Nat) : UInt64 :=
  let rq := s.rqs c
  let curr := s.tasks rq.curr
  if curr.state = .running then rq.avgLoad + curr.weight.toUInt64 else rq.avgLoad

/-- The key of a vruntime: its distance from min_vruntime read as int64. -/
def vruntimeKey (s : SchedState) (c : Nat) (v : UInt64) : Int :=
  (v - (s.rqs c).minVruntime).toInt64.toInt

theorem entityEligibleVruntime_eq (s : SchedState) (c : Nat) (v : UInt64) :
    entityEligibleVruntime s c v =
      decide (vruntimeKey s c v * (eligibleLoad s c).toNat ≤ eligibleAvg s c) := rfl

/-- A vruntime within 2^63 of min_vruntime, on either side. -/
def InWindow (s : SchedState) (c : Nat) (v : UInt64) : Prop :=
  -2 ^ 63 ≤ (v.toNat : Int) - (s.rqs c).minVruntime.toNat ∧ (v.toNat : Int) - (s.rqs c).minVruntime.toNat < 2 ^ 63

instance (s : SchedState) (c : Nat) (v : UInt64) : Decidable (InWindow s c v) :=
  inferInstanceAs (Decidable (_ ∧ _))

variable {s : SchedState} {c : Nat}

/-- In the window the key is the integer distance. -/
theorem vruntimeKey_of_inWindow {v : UInt64} (h : InWindow s c v) :
    vruntimeKey s c v = (v.toNat : Int) - (s.rqs c).minVruntime.toNat :=
  toInt_toInt64_sub h.1 h.2 (by omega)

/-- Within the window, a smaller vruntime is eligible when a larger one is. -/
theorem entityEligibleVruntime_mono {u v : UInt64} (hu : InWindow s c u) (hv : InWindow s c v)
    (huv : u ≤ v) (h : entityEligibleVruntime s c v = true) : entityEligibleVruntime s c u = true := by
  rw [entityEligibleVruntime_eq, decide_eq_true_iff] at h ⊢
  have hkey : vruntimeKey s c u ≤ vruntimeKey s c v := by
    rw [vruntimeKey_of_inWindow hu, vruntimeKey_of_inWindow hv]
    have := UInt64.le_iff_toNat_le.mp huv
    omega
  exact le_trans (Int.mul_le_mul_of_nonneg_right hkey (by omega)) h

/-! ## The heap search is the scan -/

variable {root : AugTree Nat UInt64}

/-- With the queued vruntimes in the window, min_vruntime tells at every
subtree whether it holds an eligible task. -/
theorem TimelineTree.decides (htree : TimelineTree s c root)
    (hwin : ∀ t ∈ (s.rqs c).timeline, InWindow s c (s.tasks t).vruntime) :
    root.Decides (entityEligibleVruntime s c) (entityEligible s c) := by
  apply htree.augmented.decides (updateMinVruntime_minCombine s.tasks)
  · intro t _
    rfl
  · intro t ht u hu hle
    rw [htree.toList_eq] at ht hu
    exact entityEligibleVruntime_mono (hwin u hu) (hwin t ht) hle

/-- pick_eevdf over the tree is pick_eevdf over the timeline: the heap search
returns the first eligible task in order, and the leftmost node is the head
of the timeline. -/
theorem pickEevdfTree_eq_pickEevdf (htree : TimelineTree s c root)
    (hwin : ∀ t ∈ (s.rqs c).timeline, InWindow s c (s.tasks t).vruntime) :
    pickEevdfTree s c root = pickEevdf s c := by
  have hsearch := AugTree.heapSearch_eq_find? (htree.decides hwin)
  have hleft := root.leftmost?_eq_head?
  rw [htree.toList_eq] at hsearch hleft
  unfold pickEevdfTree pickEevdf
  dsimp only
  rw [hsearch, hleft]
  by_cases hnr : (s.rqs c).nrRunning = 0
  · simp [hnr]
  simp only [hnr, if_false]
  -- both keep the running task exactly when it runs and is eligible
  by_cases hkeep : (s.tasks (s.rqs c).curr).state = .running ∧ entityEligible s c (s.rqs c).curr = true
  · have hcurr : (if (s.tasks (s.rqs c).curr).state ≠ .running ∨ entityEligible s c (s.rqs c).curr = false
        then none else some (s.rqs c).curr) = some (s.rqs c).curr := by simp [hkeep]
    rw [hcurr]
    cases (s.rqs c).timeline with
    | nil => simp [hkeep.1]
    | cons x xs => cases List.find? (entityEligible s c) (x :: xs) <;> simp [hkeep.1]
  · have hcurr : (if (s.tasks (s.rqs c).curr).state ≠ .running ∨ entityEligible s c (s.rqs c).curr = false
        then none else some (s.rqs c).curr) = none := by
      rw [if_pos]
      by_contra hno
      simp only [ne_eq, Bool.not_eq_false, not_or, not_not] at hno
      exact hkeep hno
    rw [hcurr]
    cases (s.rqs c).timeline with
    | nil => rfl
    | cons x xs => cases List.find? (entityEligible s c) (x :: xs) <;> rfl

/-! ## Exact sums -/

/-- The load of the queued tasks, exactly. -/
def queuedLoad (s : SchedState) (c : Nat) : Nat :=
  ((s.rqs c).timeline.map fun t => (s.tasks t).weight.toNat).sum

/-- The weighted sum of the keys of the queued tasks, exactly. -/
def queuedKeySum (s : SchedState) (c : Nat) : Int :=
  ((s.rqs c).timeline.map fun t => vruntimeKey s c (s.tasks t).vruntime * (s.tasks t).weight.toNat).sum

/-- The weighted sums do not overflow: the queued load, with the weight of the
running task, stays below 2^64, and the weighted sum of the queued keys fits
in int64. -/
structure SumsFit (s : SchedState) (c : Nat) : Prop where
  load : queuedLoad s c + (if (s.tasks (s.rqs c).curr).state = .running
    then (s.tasks (s.rqs c).curr).weight.toNat else 0) < 2 ^ 64
  keySum : -2 ^ 63 ≤ queuedKeySum s c ∧ queuedKeySum s c < 2 ^ 63

theorem weightSum_loadWeight_toNat (tasks : Nat → SchedTask) (l : List Nat) :
    (weightSum (loadWeight tasks) l).toNat = (l.map fun t => (tasks t).weight.toNat).sum % 2 ^ 64 := by
  induction l with
  | nil => rfl
  | cons t l ih =>
    rw [weightSum_cons, UInt64.toNat_add, ih, loadWeight, UInt32.toNat_toUInt64, List.map_cons,
      List.sum_cons, Nat.add_mod_mod]

theorem offsetSum_toInt (tasks : Nat → SchedTask) (m : UInt64) (l : List Nat) :
    (offsetSum (taskVruntime tasks) (loadWeight tasks) m l).toInt64.toInt =
      (l.map fun t => ((tasks t).vruntime - m).toInt64.toInt * (tasks t).weight.toNat).sum.bmod (2 ^ 64) := by
  induction l with
  | nil => rfl
  | cons t l ih =>
    have hw : (loadWeight tasks t).toInt64.toInt = (tasks t).weight.toNat := by
      rw [loadWeight, toInt_toInt64_of_lt (by rw [UInt32.toNat_toUInt64]; have := UInt32.toNat_lt (tasks t).weight; omega),
        UInt32.toNat_toUInt64]
    rw [offsetSum_cons, UInt64.toInt64_add, UInt64.toInt64_mul, Int64.toInt_add, Int64.toInt_mul, ih, hw,
      Int.bmod_add_bmod, Int.add_bmod_bmod, List.map_cons, List.sum_cons]
    rfl

variable {s : SchedState} {c : Nat}

/-- Without overflow avg_load is the queued load. -/
theorem RqAccounted.avgLoad_toNat (h : RqAccounted s c) (hfit : queuedLoad s c < 2 ^ 64) :
    (s.rqs c).avgLoad.toNat = queuedLoad s c := by
  rw [h.avg_load, timelineLoad, weightSum_loadWeight_toNat]
  exact Nat.mod_eq_of_lt hfit

/-- Without overflow avg_vruntime is the weighted sum of the queued keys. -/
theorem RqAccounted.avgVruntime_toInt (h : RqAccounted s c)
    (hfit : -2 ^ 63 ≤ queuedKeySum s c ∧ queuedKeySum s c < 2 ^ 63) :
    (s.rqs c).avgVruntime.toInt = queuedKeySum s c := by
  have hv : (s.rqs c).avgVruntime = (timelineOffsetSum s c).toInt64 := by
    rw [← h.avg_vruntime, Int64.toInt64_toUInt64]
  rw [hv, timelineOffsetSum, offsetSum_toInt]
  exact Int.bmod_eq_of_le (by exact hfit.1) (by exact hfit.2)

/-- The load and the sum eligibility reads are the queued ones, with the
running task's weight and term when it runs. -/
theorem eligible_sums (h : RqAccounted s c) (hfit : SumsFit s c) :
    (((eligibleLoad s c).toNat : Nat) : Int) = queuedLoad s c + (if (s.tasks (s.rqs c).curr).state = .running
      then ((s.tasks (s.rqs c).curr).weight.toNat : Int) else 0) ∧
    eligibleAvg s c = queuedKeySum s c + (if (s.tasks (s.rqs c).curr).state = .running
      then vruntimeKey s c (s.tasks (s.rqs c).curr).vruntime * (s.tasks (s.rqs c).curr).weight.toNat else 0) := by
  have hload := hfit.load
  have hq : queuedLoad s c < 2 ^ 64 := by split at hload <;> omega
  unfold eligibleLoad eligibleAvg
  dsimp only
  rw [h.avgVruntime_toInt hfit.keySum]
  by_cases hr : (s.tasks (s.rqs c).curr).state = .running
  · simp only [hr, if_true] at hload ⊢
    rw [UInt64.toNat_add, h.avgLoad_toNat hq, UInt32.toNat_toUInt64, Nat.mod_eq_of_lt hload]
    exact ⟨Nat.cast_add _ _, rfl⟩
  · simp only [hr, if_false, add_zero, and_true]
    rw [h.avgLoad_toNat hq]

/-! ## Some task is eligible -/

/-- With exact sums the task of least key among the queued tasks and the
running one lies at or below the weighted average: some queued task is
eligible, or the running task is. -/
theorem exists_eligible (h : RqAccounted s c) (hfit : SumsFit s c) (hne : (s.rqs c).timeline ≠ []) :
    (∃ t ∈ (s.rqs c).timeline, entityEligible s c t = true) ∨
      ((s.tasks (s.rqs c).curr).state = .running ∧ entityEligible s c (s.rqs c).curr = true) := by
  let key := fun t => vruntimeKey s c (s.tasks t).vruntime
  let w := fun t => ((s.tasks t).weight.toNat : Int)
  -- the queued task of least key
  obtain ⟨t₀, ht₀, hmin⟩ := Finset.exists_min_image (s.rqs c).timeline.toFinset key
    (by simpa [List.toFinset_nonempty_iff] using hne)
  rw [List.mem_toFinset] at ht₀
  have hbound : ∀ m, (∀ t ∈ (s.rqs c).timeline, m ≤ key t) → m * queuedLoad s c ≤ queuedKeySum s c := by
    intro m hm
    have := mul_weightSum_le key w hm (fun t _ => by positivity)
    simpa [weightSum, queuedLoad, queuedKeySum, Nat.cast_list_sum, List.map_map, Function.comp_def, key, w] using this
  have hmin' : ∀ t ∈ (s.rqs c).timeline, key t₀ ≤ key t := fun t ht => hmin t (List.mem_toFinset.mpr ht)
  obtain ⟨hL, hA⟩ := eligible_sums h hfit
  simp only [entityEligible, entityEligibleVruntime_eq, decide_eq_true_eq, hL, hA]
  by_cases hr : (s.tasks (s.rqs c).curr).state = .running
  · simp only [hr, if_true, true_and]
    by_cases hk : key (s.rqs c).curr ≤ key t₀
    · -- the running task has the least key
      right
      have hc := hbound (key (s.rqs c).curr) fun t ht => le_trans hk (hmin' t ht)
      calc key (s.rqs c).curr * (queuedLoad s c + w (s.rqs c).curr)
          = key (s.rqs c).curr * queuedLoad s c + key (s.rqs c).curr * w (s.rqs c).curr := mul_add _ _ _
        _ ≤ queuedKeySum s c + key (s.rqs c).curr * w (s.rqs c).curr := add_le_add_left hc _
    · -- a queued task has the least key
      left
      refine ⟨t₀, ht₀, ?_⟩
      have hc := hbound (key t₀) hmin'
      have hw : key t₀ * w (s.rqs c).curr ≤ key (s.rqs c).curr * w (s.rqs c).curr :=
        mul_le_mul_of_nonneg_right (le_of_lt (lt_of_not_ge hk)) (by positivity)
      calc key t₀ * (queuedLoad s c + w (s.rqs c).curr)
          = key t₀ * queuedLoad s c + key t₀ * w (s.rqs c).curr := mul_add _ _ _
        _ ≤ queuedKeySum s c + key (s.rqs c).curr * w (s.rqs c).curr := add_le_add hc hw
  · simp only [hr, if_false, add_zero, false_and, or_false]
    exact ⟨t₀, ht₀, hbound (key t₀) hmin'⟩

/-! ## The reference choice -/

/-- The EEVDF choice stated over the timeline: the first eligible queued task
in timeline order, unless the running task is eligible and that task does not
beat it by more than the wakeup granularity; with no eligible queued task,
the running task when it runs, and the leftmost task otherwise. -/
def pickReference (s : SchedState) (c : Nat) : Nat :=
  let rq := s.rqs c
  let curr := s.tasks rq.curr
  match rq.timeline.find? (entityEligible s c) with
  | some e =>
    if curr.state = .running ∧ entityEligible s c rq.curr = true ∧ entityBefore (s.tasks e) curr = false
    then rq.curr else e
  | none => if curr.state = .running then rq.curr else rq.timeline.headD rq.idle

/-- A runqueue with tasks accounted for has a non-empty timeline. -/
theorem RqAccounted.timeline_ne_nil (h : RqAccounted s c) (hnr : (s.rqs c).nrRunning ≠ 0) :
    (s.rqs c).timeline ≠ [] := by
  intro hnil
  have hlen := h.nr_running
  rw [hnil, List.length_nil] at hlen
  exact hnr (UInt64.toNat_inj.mp (by rw [hlen]; rfl))

/-- With no eligible queued task the running task is running and eligible. -/
theorem curr_eligible_of_find?_none (h : RqAccounted s c) (hfit : SumsFit s c)
    (hnr : (s.rqs c).nrRunning ≠ 0) (hnone : (s.rqs c).timeline.find? (entityEligible s c) = none) :
    (s.tasks (s.rqs c).curr).state = .running ∧ entityEligible s c (s.rqs c).curr = true := by
  rcases exists_eligible h hfit (h.timeline_ne_nil hnr) with ⟨t, ht, hel⟩ | hcurr
  · exact absurd hel (List.find?_eq_none.mp hnone t ht)
  · exact hcurr

/-- pick_eevdf over the timeline makes the reference choice: an eligible
leftmost task is the first eligible one, and the fallbacks after an empty
search are never reached with a running task that is not eligible. -/
theorem pickEevdf_eq_reference (h : RqAccounted s c) (hfit : SumsFit s c) (hnr : (s.rqs c).nrRunning ≠ 0) :
    pickEevdf s c = pickReference s c := by
  obtain ⟨x, xs, hl⟩ := List.exists_cons_of_ne_nil (h.timeline_ne_nil hnr)
  have hnone := curr_eligible_of_find?_none h hfit hnr
  unfold pickEevdf pickReference
  dsimp only
  rw [hl] at hnone ⊢
  simp only [hnr, if_false]
  -- the search result decides the reference; an eligible head is that result
  cases hf : List.find? (entityEligible s c) (x :: xs) with
  | some e =>
    have hhead : entityEligible s c x = true → e = x := fun hx => by
      rw [List.find?_cons_of_pos hx] at hf
      exact (Option.some.inj hf).symm
    by_cases hx : entityEligible s c x = true
    on_goal 1 =>
      rw [← hhead hx]
      simp only [List.find?_some hf, if_true]
    on_goal 2 => simp only [hx, Bool.false_eq_true, if_false]
    -- both paths now choose between e and the running task
    all_goals
      by_cases hkeep : (s.tasks (s.rqs c).curr).state = .running ∧ entityEligible s c (s.rqs c).curr = true
      · by_cases hb : entityBefore (s.tasks e) (s.tasks (s.rqs c).curr) = true <;> simp [hkeep, hb]
      · simp only [not_and] at hkeep
        by_cases hr : (s.tasks (s.rqs c).curr).state = .running <;> simp [hr, hkeep]
  | none =>
    have hx : entityEligible s c x = false := by
      by_contra hx
      rw [List.find?_cons_of_pos (by simpa using hx)] at hf
      cases hf
    by_cases hr : (s.tasks (s.rqs c).curr).state = .running
    · simp [hx, hr, (hnone hf).2]
    · simp [hx, hr]

/-- The reference choice is a queued task or the running task. -/
theorem pickReference_mem (h : RqAccounted s c) (hfit : SumsFit s c) (hnr : (s.rqs c).nrRunning ≠ 0) :
    pickReference s c ∈ (s.rqs c).timeline ∨
      (pickReference s c = (s.rqs c).curr ∧ (s.tasks (s.rqs c).curr).state = .running) := by
  unfold pickReference
  dsimp only
  cases hf : List.find? (entityEligible s c) (s.rqs c).timeline with
  | some e =>
    dsimp only
    by_cases hcurr : (s.tasks (s.rqs c).curr).state = .running ∧ entityEligible s c (s.rqs c).curr = true ∧
        entityBefore (s.tasks e) (s.tasks (s.rqs c).curr) = false
    · exact .inr ⟨if_pos hcurr, hcurr.1⟩
    · exact .inl (by rw [if_neg hcurr]; exact List.mem_of_find?_eq_some hf)
  | none =>
    dsimp only
    have hr := (curr_eligible_of_find?_none h hfit hnr hf).1
    exact .inr ⟨if_pos hr, hr⟩

/-- pick_eevdf, walking the augmented tree, makes the reference EEVDF
choice when the runqueue is accounted for without overflow and every queued
vruntime lies within 2^63 of min_vruntime; it returns a queued task or the
running one, so never the idle task unless that is queued or running. -/
theorem pickEevdfTree_eq_reference (h : RqAccounted s c) (htree : TimelineTree s c root)
    (hwin : ∀ t ∈ (s.rqs c).timeline, InWindow s c (s.tasks t).vruntime) (hfit : SumsFit s c)
    (hnr : (s.rqs c).nrRunning ≠ 0) :
    pickEevdfTree s c root = pickReference s c ∧
      (pickEevdfTree s c root ∈ (s.rqs c).timeline ∨
        (pickEevdfTree s c root = (s.rqs c).curr ∧ (s.tasks (s.rqs c).curr).state = .running)) ∧
      ((s.rqs c).idle ∉ (s.rqs c).timeline → (s.tasks (s.rqs c).idle).state ≠ .running →
        pickEevdfTree s c root ≠ (s.rqs c).idle) := by
  have heq : pickEevdfTree s c root = pickReference s c := by
    rw [pickEevdfTree_eq_pickEevdf htree hwin, pickEevdf_eq_reference h hfit hnr]
  have hmem := pickReference_mem h hfit hnr
  rw [← heq] at hmem
  refine ⟨heq, hmem, fun hidle hrun hpick => ?_⟩
  rcases hmem with hm | ⟨hc, hr⟩
  · exact hidle (hpick ▸ hm)
  · rw [hpick] at hc
    exact hrun (hc ▸ hr)

/-- Three queued tasks of weight 1024 with vruntimes 30, 0 and 10 and
deadlines 1, 2 and 3, the idle task current. -/
def skipsLeftmostState : SchedState :=
  { tasks := fun t =>
      if t = 1 then { SchedTask.alloc with vruntime := 30, deadline := 1 }
      else if t = 2 then { SchedTask.alloc with vruntime := 0, deadline := 2 }
      else if t = 3 then { SchedTask.alloc with vruntime := 10, deadline := 3 }
      else SchedTask.idleTask 0,
    rqs := fun _ => { EevdfRq.boot 0 with
      timeline := [1, 2, 3], nrRunning := 3, avgVruntime := 40960, avgLoad := 3072 },
    cpuSchedulerCount := 1, ticks := 0 }

/-- The timeline of skipsLeftmostState, each node keeping its subtree's
least vruntime. -/
def skipsLeftmostTree : AugTree Nat UInt64 :=
  .node (.node .nil 1 30 .nil) 2 0 (.node .nil 3 10 .nil)

/-- The leftmost task is not eligible, the search skips its subtree by its
min_vruntime and returns the second task, the reference choice. -/
theorem pickEevdfTree_eq_reference_skips_leftmost :
    entityEligible skipsLeftmostState 0 1 = false ∧
      pickEevdfTree skipsLeftmostState 0 skipsLeftmostTree = pickReference skipsLeftmostState 0 ∧
      pickReference skipsLeftmostState 0 = 2 := by
  have h := pickEevdfTree_eq_reference (s := skipsLeftmostState) (c := 0)
    ⟨by decide, by decide, by decide, by decide⟩
    (show TimelineTree skipsLeftmostState 0 skipsLeftmostTree from ⟨by decide, by decide⟩)
    (by decide) ⟨by decide, by decide⟩ (by decide)
  exact ⟨by decide, h.1, by decide⟩

end Uinxed.Sched
