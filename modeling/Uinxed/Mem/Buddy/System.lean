/-
  Mem/Buddy/System.lean --- the buddy allocator as a system: runs of operations.

  A client of buddy.c holds one allocator and calls the four mutating entry
  points in any order with any arguments.  BuddyOp names one such call and
  runOps performs a list of them from a given state, discarding the return
  values just as a state-only view of the allocator does.

  buddy_add_range trusts its caller not to pass pages that lie inside a free
  block.  A run whose add_range calls keep to that is admissible; every such
  run from a successful buddy_init keeps the invariant, so buddy_validate
  returns 0 after it.  Without the condition the allocator breaks: the failing
  runs are written out at the end, at the smallest allocator that shows them.
-/
import Uinxed.Mem.Buddy.Free
import Uinxed.Mem.Buddy.ValidateSpec

set_option autoImplicit false

namespace Uinxed.Buddy

/-! ## Runs -/

/-- One call of a mutating entry point of buddy.c. -/
inductive BuddyOp where
  | addRange (start count : Nat)
  | alloc (order : Nat)
  | free (index order : Nat)
  | trim (index order keepUnits : Nat)
  deriving DecidableEq, Repr

/-- The state after one call. -/
def BuddyOp.apply (a : BuddyAllocator) : BuddyOp → BuddyAllocator
  | .addRange start count => (buddyAddRange a start count).1
  | .alloc order => (buddyAlloc a order).1
  | .free index order => (buddyFree a index order).1
  | .trim index order keepUnits => (buddyTrimAllocation a index order keepUnits).1

/-- The state after a run of calls, performed left to right. -/
def runOps (a : BuddyAllocator) (ops : List BuddyOp) : BuddyAllocator :=
  ops.foldl BuddyOp.apply a

@[simp] theorem runOps_nil (a : BuddyAllocator) : runOps a [] = a := rfl

@[simp] theorem runOps_cons (a : BuddyAllocator) (op : BuddyOp) (ops : List BuddyOp) :
    runOps a (op :: ops) = runOps (op.apply a) ops := rfl

/-! ## Admissible runs -/

/-- Page j lies inside a free block: some free head at or below j reaches it. -/
def inFreeBlock (a : BuddyAllocator) (j : Nat) : Bool :=
  (List.range (j + 1)).any fun i =>
    (a.pages i).state = .freeHead ∧ j < i + orderUnits (a.pages i).order

/-- The condition buddy_add_range leaves to its caller: no page of the range
lies inside a free block.  Every other call may take any arguments. -/
def BuddyOp.admissible (a : BuddyAllocator) : BuddyOp → Bool
  | .addRange start count => (List.range' start count).all fun j => !inFreeBlock a j
  | _ => true

/-- Every call of the run is admissible in the state it is made in. -/
def admissibleRun : BuddyAllocator → List BuddyOp → Bool
  | _, [] => true
  | a, op :: ops => op.admissible a && admissibleRun (op.apply a) ops

variable {a : BuddyAllocator} {L : Nat → List Nat}

/-- Under the invariant, inFreeBlock reads the covered pages off the page array. -/
theorem inFreeBlock_iff (h : BuddyInv a L) (j : Nat) : inFreeBlock a j = true ↔ Covered L j := by
  simp only [inFreeBlock, List.any_eq_true, List.mem_range, decide_eq_true_eq]
  constructor
  · rintro ⟨i, hij, hs, hjl⟩
    obtain ⟨k, hk⟩ := (h.lists.head_iff i).mp hs
    rw [h.lists.order_eq k i hk, orderUnits_eq] at hjl
    exact ⟨k, i, hk, by omega, hjl⟩
  · rintro ⟨k, i, hk, hij, hjl⟩
    refine ⟨i, by omega, h.lists.state_of_mem hk, ?_⟩
    rw [h.lists.order_eq k i hk, orderUnits_eq]
    exact hjl

/-- buddy_init leaves the invariant with every free list empty. -/
theorem buddyInit_inv {pageCount maxOrder : Nat} (hinit : buddyInit pageCount maxOrder = some a) :
    BuddyInv a fun _ => [] := by
  unfold buddyInit at hinit
  split_ifs at hinit with hbad
  cases hinit
  exact
  { lists :=
      { isList := fun _ => ThreadedList.isList_nil _ _ _
        count := fun _ => rfl
        head_iff := fun _ => iff_of_false (fun hs => by cases hs) fun ⟨_, hk⟩ => List.not_mem_nil hk
        order_eq := fun _ _ hk => absurd hk List.not_mem_nil }
    pageCount_pos := by simp only; omega
    pageCount_le := by simp only; omega
    maxOrder_le := by simp only; omega
    high_nil := fun _ _ => rfl
    freePages_eq := by simp [freeTotal]
    free_block := fun _ _ hk => absurd hk List.not_mem_nil
    free_interior := fun _ _ _ hk => absurd hk List.not_mem_nil
    coalesced := fun _ _ hk => absurd hk List.not_mem_nil
    alloc_block := fun _ hi => by cases hi
    tail_owned := fun _ hj => by cases hj
    cleared := fun _ _ => rfl }

/-- One admissible call keeps the invariant. -/
theorem BuddyOp.apply_inv (h : BuddyInv a L) (op : BuddyOp) (hop : op.admissible a = true) :
    ∃ L', BuddyInv (op.apply a) L' := by
  cases op with
  | addRange start count =>
    have hout : ∀ j, start ≤ j → j < start + count → ¬ Covered L j := by
      intro j hj₁ hj₂ hc
      have hall := List.all_eq_true.mp hop j (List.mem_range'_1.mpr ⟨hj₁, hj₂⟩)
      rw [(inFreeBlock_iff h j).mpr hc] at hall
      cases hall
    rcases buddyAddRange_added h hout with ⟨-, he⟩ | ⟨-, L', hL'⟩
    · exact ⟨L, by rw [BuddyOp.apply, he]; exact h⟩
    · exact ⟨L', hL'.inv⟩
  | alloc order =>
    rcases buddyAlloc_spec h order with ⟨-, he, -⟩ | ⟨i, L', -, hL'⟩
    · exact ⟨L, by rw [BuddyOp.apply, he]; exact h⟩
    · exact ⟨L', hL'.inv⟩
  | free index order =>
    rcases buddyFree_spec h index order with ⟨-, he, -⟩ | ⟨-, -, -, L', hL'⟩
    · exact ⟨L, by rw [BuddyOp.apply, he]; exact h⟩
    · exact ⟨L', hL'.inv⟩
  | trim index order keepUnits =>
    rcases buddyTrimAllocation_spec h index order keepUnits with ⟨-, he, -⟩ | ⟨-, -, -, -, -, L', hL'⟩
    · exact ⟨L, by rw [BuddyOp.apply, he]; exact h⟩
    · exact ⟨L', hL'.inv⟩

/-- An admissible run keeps the invariant. -/
theorem runOps_inv (ops : List BuddyOp) :
    ∀ {a : BuddyAllocator} {L : Nat → List Nat}, BuddyInv a L → admissibleRun a ops = true →
      ∃ L', BuddyInv (runOps a ops) L' := by
  induction ops with
  | nil => intro a L h _; exact ⟨L, h⟩
  | cons op ops ih =>
    intro a L h hrun
    simp only [admissibleRun, Bool.and_eq_true] at hrun
    obtain ⟨L₁, h₁⟩ := op.apply_inv h hrun.1
    exact ih h₁ hrun.2

/-- From a successful buddy_init, buddy_validate returns 0 after every
admissible run. -/
theorem buddyValidate_runOps {pageCount maxOrder : Nat}
    (hinit : buddyInit pageCount maxOrder = some a) (ops : List BuddyOp)
    (hrun : admissibleRun a ops = true) : buddyValidate (runOps a ops) = 0 := by
  obtain ⟨L', h'⟩ := runOps_inv ops (buddyInit_inv hinit) hrun
  exact buddyValidate_of_inv h'

/-- On four pages: the range added, a block of order 1 allocated, split to
one page by a trim, and freed. -/
theorem buddyValidate_runOps_alloc_trim_free :
    ∃ a, buddyInit 4 2 = some a ∧ admissibleRun a [.addRange 0 4, .alloc 1, .trim 0 1 1, .free 0 0] = true ∧
      buddyValidate (runOps a [.addRange 0 4, .alloc 1, .trim 0 1 1, .free 0 0]) = 0 :=
  ⟨_, rfl, by decide, @buddyValidate_runOps _ 4 2 rfl _ (by decide)⟩

/-! ## A range added inside a free block

buddy_add_range refuses a range unless all its pages are
BUDDY_PAGE_RESERVED, which is meant to keep pages that are already managed
out.  The pages inside a free block other than its head are also
BUDDY_PAGE_RESERVED, so a range that lies inside a free block is accepted a
second time.  On four pages: the whole range becomes one free block of order
2 headed by page 0; adding page 1 again is accepted, makes page 1 a free head
inside that block, and raises free_pages to 5. -/

/-- After adding [0, 4) and then [1, 2) to a four-page allocator of maximal
order 2, the second call succeeds and buddy_validate, which accepted the state
before it, rejects the state after it. -/
theorem buddyValidate_fails_after_nested_add :
    ∃ a, buddyInit 4 2 = some a ∧
      buddyValidate (runOps a [.addRange 0 4]) = 0 ∧
      (buddyAddRange (runOps a [.addRange 0 4]) 1 1).2 = 0 ∧
      (runOps a [.addRange 0 4, .addRange 1 1]).freePages = 5 ∧
      buddyValidate (runOps a [.addRange 0 4, .addRange 1 1]) = -1 :=
  ⟨_, rfl, by decide, by decide, by decide, by decide⟩

/-- From the same state two allocations hand out overlapping blocks: order 2
returns page 0, the block [0, 4), and order 0 then returns page 1, which lies
inside it, while page 0 still heads the allocated order-2 block. -/
theorem buddyAlloc_overlaps_after_nested_add :
    ∃ a, buddyInit 4 2 = some a ∧
      (buddyAlloc (runOps a [.addRange 0 4, .addRange 1 1]) 2).2 = some 0 ∧
      (buddyAlloc (runOps a [.addRange 0 4, .addRange 1 1, .alloc 2]) 0).2 = some 1 ∧
      ((runOps a [.addRange 0 4, .addRange 1 1, .alloc 2, .alloc 0]).pages 0).state = .allocHead ∧
      ((runOps a [.addRange 0 4, .addRange 1 1, .alloc 2, .alloc 0]).pages 0).order = 2 :=
  ⟨_, rfl, by decide, by decide, by decide, by decide⟩

end Uinxed.Buddy
