/-
  Mem/Buddy/Basic.lean --- the data model of the generic binary buddy allocator.

  Normative source: src/mem/buddy.c and src/include/mem/buddy.h.

  The allocator manages an array of 16-byte page descriptors.  Each order
  k <= BUDDY_MAX_ORDER has a free list threaded through the descriptors by
  int32 next/prev indices, with BUDDY_INDEX_NONE (= -1) as the null link.

  Representation choices.  The descriptor array is a total function
  Nat -> BuddyPage; indices at or beyond page_count are never read by the code
  on the paths modelled here.  int32 links stay Int, so that the range checks
  of buddy_validate (node < 0, node >= page_count) are expressible.  size_t
  counters are Nat: every counter stays far below 2^64 (page_count is bounded
  by 0x7fffffff at init), and the invariant module shows that a decrement is
  only ever applied to a positive counter.
-/
import Mathlib.Algebra.GroupWithZero.Nat
import Mathlib.Logic.Function.Basic
import Mathlib.Tactic.SplitIfs

set_option autoImplicit false

namespace Uinxed.Buddy

/-! ## Constants and page descriptors -/

/-- BUDDY_MAX_ORDER: the largest order any allocator can be configured for. -/
def buddyMaxOrder : Nat := 30

/-- BUDDY_INDEX_NONE: the null link of the int32 free-list fields. -/
def buddyIndexNone : Int := -1

/-- buddy_page_state_t. -/
inductive BuddyPageState where
  /-- BUDDY_PAGE_RESERVED: never added, or inside a block but not its head -/
  | reserved
  /-- BUDDY_PAGE_FREE_HEAD: first page of a block on a free list -/
  | freeHead
  /-- BUDDY_PAGE_ALLOC_HEAD: first page of an allocated block -/
  | allocHead
  /-- BUDDY_PAGE_ALLOC_TAIL: any later page of an allocated block -/
  | allocTail
  deriving DecidableEq, Repr, Inhabited

/-- buddy_page_t.  The tag and reserved fields are owned by callers while the
page is allocated; the allocator only ever clears them. -/
structure BuddyPage where
  next : Int
  prev : Int
  tag : Nat
  order : Nat
  state : BuddyPageState
  reserved : Nat
  deriving DecidableEq, Repr, Inhabited

/-- The descriptor buddy_init writes into every slot. -/
def BuddyPage.initial : BuddyPage :=
  { next := buddyIndexNone, prev := buddyIndexNone, tag := 0, order := 0,
    state := .reserved, reserved := 0 }

/-- buddy_allocator_t.  The arrays free_head and free_count have
BUDDY_MAX_ORDER + 1 entries; as functions they are total, and entries above
max_order are never changed after init. -/
structure BuddyAllocator where
  pages : Nat → BuddyPage
  pageCount : Nat
  freePages : Nat
  maxOrder : Nat
  freeHead : Nat → Int
  freeCount : Nat → Nat

/-- order_units: number of pages covered by a block of the given order. -/
def orderUnits (order : Nat) : Nat := 2 ^ order

@[simp] theorem orderUnits_eq (order : Nat) : orderUnits order = 2 ^ order := rfl

/-! ## Descriptor updates

Every C statement of the form pages[i].field = v is one application of
setPage; these lemmas let later proofs read a page back without unfolding. -/

namespace BuddyAllocator

/-- Apply f to the descriptor at index i. -/
def setPage (a : BuddyAllocator) (i : Nat) (f : BuddyPage → BuddyPage) : BuddyAllocator :=
  { a with pages := Function.update a.pages i (f (a.pages i)) }

@[simp] theorem setPage_pages (a : BuddyAllocator) (i : Nat) (f : BuddyPage → BuddyPage)
    (j : Nat) : (a.setPage i f).pages j = if j = i then f (a.pages j) else a.pages j := by
  by_cases h : j = i
  · subst h; simp [setPage]
  · simp [setPage, h]

@[simp] theorem setPage_pageCount (a : BuddyAllocator) (i : Nat) (f : BuddyPage → BuddyPage) :
    (a.setPage i f).pageCount = a.pageCount := rfl
@[simp] theorem setPage_freePages (a : BuddyAllocator) (i : Nat) (f : BuddyPage → BuddyPage) :
    (a.setPage i f).freePages = a.freePages := rfl
@[simp] theorem setPage_maxOrder (a : BuddyAllocator) (i : Nat) (f : BuddyPage → BuddyPage) :
    (a.setPage i f).maxOrder = a.maxOrder := rfl
@[simp] theorem setPage_freeHead (a : BuddyAllocator) (i : Nat) (f : BuddyPage → BuddyPage) :
    (a.setPage i f).freeHead = a.freeHead := rfl
@[simp] theorem setPage_freeCount (a : BuddyAllocator) (i : Nat) (f : BuddyPage → BuddyPage) :
    (a.setPage i f).freeCount = a.freeCount := rfl

/-- Apply f to the descriptors start, start + 1, ..., start + len - 1, in that
order: the shape of every for-loop over a block in buddy.c. -/
def setPages (a : BuddyAllocator) (start len : Nat) (f : BuddyPage → BuddyPage) :
    BuddyAllocator :=
  (List.range' start len).foldl (fun b i => b.setPage i f) a

theorem setPages_fields (a : BuddyAllocator) (start len : Nat) (f : BuddyPage → BuddyPage) :
    (a.setPages start len f).pageCount = a.pageCount ∧
    (a.setPages start len f).freePages = a.freePages ∧
    (a.setPages start len f).maxOrder = a.maxOrder ∧
    (a.setPages start len f).freeHead = a.freeHead ∧
    (a.setPages start len f).freeCount = a.freeCount := by
  unfold setPages
  induction len generalizing start a with
  | zero => simp
  | succ n ih =>
    rw [List.range'_succ, List.foldl_cons]
    exact ih _ _

@[simp] theorem setPages_pageCount (a : BuddyAllocator) (start len : Nat)
    (f : BuddyPage → BuddyPage) : (a.setPages start len f).pageCount = a.pageCount :=
  (setPages_fields a start len f).1
@[simp] theorem setPages_freePages (a : BuddyAllocator) (start len : Nat)
    (f : BuddyPage → BuddyPage) : (a.setPages start len f).freePages = a.freePages :=
  (setPages_fields a start len f).2.1
@[simp] theorem setPages_maxOrder (a : BuddyAllocator) (start len : Nat)
    (f : BuddyPage → BuddyPage) : (a.setPages start len f).maxOrder = a.maxOrder :=
  (setPages_fields a start len f).2.2.1
@[simp] theorem setPages_freeHead (a : BuddyAllocator) (start len : Nat)
    (f : BuddyPage → BuddyPage) : (a.setPages start len f).freeHead = a.freeHead :=
  (setPages_fields a start len f).2.2.2.1
@[simp] theorem setPages_freeCount (a : BuddyAllocator) (start len : Nat)
    (f : BuddyPage → BuddyPage) : (a.setPages start len f).freeCount = a.freeCount :=
  (setPages_fields a start len f).2.2.2.2

/-- A range write touches exactly the pages of the range, each once. -/
@[simp] theorem setPages_pages (a : BuddyAllocator) (start len : Nat)
    (f : BuddyPage → BuddyPage) (j : Nat) :
    (a.setPages start len f).pages j =
      if start ≤ j ∧ j < start + len then f (a.pages j) else a.pages j := by
  unfold setPages
  induction len generalizing start a with
  | zero =>
    simp only [List.range'_zero, List.foldl_nil]
    rw [if_neg (by omega)]
  | succ n ih =>
    rw [List.range'_succ, List.foldl_cons, ih]
    by_cases hj : j = start
    · subst hj; simp [show ¬ (j + 1 ≤ j) by omega]
    · have h1 : (start + 1 ≤ j ∧ j < start + 1 + n) ↔ (start ≤ j ∧ j < start + (n + 1)) := by
        omega
      simp only [setPage_pages, hj, if_false, h1]

end BuddyAllocator

/-! ## Free-list primitives -/

/-- list_add: push a block onto the head of its order's free list. -/
def listAdd (a : BuddyAllocator) (index order : Nat) : BuddyAllocator :=
  let head := a.freeHead order
  let a := a.setPage index fun p =>
    { p with prev := buddyIndexNone, next := head, order := order, state := .freeHead }
  let a := if head ≠ buddyIndexNone then a.setPage head.toNat fun p => { p with prev := index }
    else a
  { a with
    freeHead := Function.update a.freeHead order index
    freeCount := Function.update a.freeCount order (a.freeCount order + 1)
    freePages := a.freePages + orderUnits order }

/-- The first statement of list_remove: the predecessor of page index, or the
list head when there is none, takes over page index's next link. -/
def unlinkPrev (a : BuddyAllocator) (index order : Nat) : BuddyAllocator :=
  let p := a.pages index
  if p.prev = buddyIndexNone then { a with freeHead := Function.update a.freeHead order p.next }
  else a.setPage p.prev.toNat fun q => { q with next := p.next }

/-- The second statement of list_remove: the successor of page index, when
there is one, takes over page index's prev link. -/
def unlinkNext (a : BuddyAllocator) (index : Nat) : BuddyAllocator :=
  let p := a.pages index
  if p.next ≠ buddyIndexNone then a.setPage p.next.toNat fun q => { q with prev := p.prev }
  else a

/-- list_remove: unlink a block from its order's free list.  Each step reads
page index afresh, as the source does through its page pointer. -/
def listRemove (a : BuddyAllocator) (index order : Nat) : BuddyAllocator :=
  let a := unlinkNext (unlinkPrev a index order) index
  let a := a.setPage index fun q =>
    { q with next := buddyIndexNone, prev := buddyIndexNone, state := .reserved }
  { a with
    freeCount := Function.update a.freeCount order (a.freeCount order - 1)
    freePages := a.freePages - orderUnits order }

/-! ## Order arithmetic and initialisation -/

/-- The doubling loop of buddy_order_for_units, with order and units as its
two accumulators.  The fuel is BUDDY_MAX_ORDER - order, which the loop guard
never exceeds. -/
def orderForUnitsLoop (count : Nat) : Nat → Nat → Nat → Nat × Nat
  | 0, order, units => (order, units)
  | fuel + 1, order, units =>
    if units < count ∧ order < buddyMaxOrder then
      orderForUnitsLoop count fuel (order + 1) (units * 2)
    else (order, units)

/-- buddy_order_for_units: the smallest order able to hold count units, or
BUDDY_MAX_ORDER + 1 when even the largest order is too small. -/
def buddyOrderForUnits (count : Nat) : Nat :=
  if count = 0 then 0
  else
    let r := orderForUnitsLoop count buddyMaxOrder 0 1
    if r.2 < count then buddyMaxOrder + 1 else r.1

/-- buddy_init: reset the allocator over page_count descriptors.  The two
pointer arguments are non-null in every call of the kernel and are not
modelled; a rejected call returns none and writes nothing. -/
def buddyInit (pageCount maxOrder : Nat) : Option BuddyAllocator :=
  if pageCount = 0 ∨ pageCount > 0x7fffffff ∨ maxOrder > buddyMaxOrder then none
  else some
    { pages := fun _ => BuddyPage.initial
      pageCount := pageCount
      freePages := 0
      maxOrder := maxOrder
      freeHead := fun _ => buddyIndexNone
      freeCount := fun _ => 0 }

end Uinxed.Buddy
