/-
  Mem/Buddy/Ops.lean --- the five mutating operations of src/mem/buddy.c.

  Every while-loop of the source becomes a structurally recursive function
  whose fuel argument is a bound the loop guard already enforces, so the fuel
  never runs out before the guard fails:

      add_block            max_order - order merges
      buddy_add_range      count pieces (each piece has at least one page)
      buddy_alloc search   max_order + 1 - order orders
      buddy_alloc split    found - order halvings (recursion on found itself)

  Operations that can fail return the C return value beside the new state.
  Each of them performs all its checks before its first write, except
  buddy_trim_allocation, whose final buddy_add_range runs after the block has
  been rewritten; the model keeps that order.
-/
import Uinxed.Mem.Buddy.Basic

set_option autoImplicit false

namespace Uinxed.Buddy

open BuddyAllocator

/-! ## add_block -/

/-- The merge loop of add_block.  While the block's buddy is a free head of the
same order the buddy is unlinked and the two halves become one block of the
next order, headed by the lower index. -/
def addBlockLoop : Nat → BuddyAllocator → Nat → Nat → BuddyAllocator
  | 0, a, index, order => listAdd a index order
  | fuel + 1, a, index, order =>
    if order < a.maxOrder then
      let buddy := index ^^^ orderUnits order
      if buddy ≥ a.pageCount then listAdd a index order
      else if (a.pages buddy).state ≠ .freeHead ∨ (a.pages buddy).order ≠ order then
        listAdd a index order
      else
        addBlockLoop fuel (listRemove a buddy order) (if buddy < index then buddy else index)
          (order + 1)
    else listAdd a index order

/-- add_block: insert a block into its free list, merging buddies up while
possible. -/
def addBlock (a : BuddyAllocator) (index order : Nat) : BuddyAllocator :=
  addBlockLoop (a.maxOrder - order) a index order

/-! ## buddy_add_range -/

/-- The alignment loop of buddy_add_range: lower the order until start is a
multiple of its block size. -/
def alignOrder (start : Nat) : Nat → Nat
  | 0 => 0
  | order + 1 =>
    if start &&& (orderUnits (order + 1) - 1) ≠ 0 then alignOrder start order else order + 1

/-- The order of the next piece buddy_add_range carves from [start, start +
count): the largest order that fits in count, is at most max_order, and to
which start is aligned. -/
def rangeOrder (maxOrder start count : Nat) : Nat :=
  let order := buddyOrderForUnits count
  let order := if order > maxOrder then maxOrder else order
  let order := if orderUnits order > count then order - 1 else order
  alignOrder start order

/-- The carving loop of buddy_add_range. -/
def addRangeLoop : Nat → BuddyAllocator → Nat → Nat → BuddyAllocator
  | 0, a, _, _ => a
  | fuel + 1, a, start, count =>
    if count = 0 then a
    else
      let order := rangeOrder a.maxOrder start count
      addRangeLoop fuel (addBlock a start order) (start + orderUnits order)
        (count - orderUnits order)

/-- buddy_add_range: add the pages [start, start + count) to the allocator, split
into aligned blocks.  The range is refused unless every page in it is
BUDDY_PAGE_RESERVED. -/
def buddyAddRange (a : BuddyAllocator) (start count : Nat) : BuddyAllocator × Int :=
  if count = 0 ∨ start ≥ a.pageCount ∨ count > a.pageCount - start then (a, -1)
  else if (List.range' start count).any (fun i => (a.pages i).state ≠ .reserved) then (a, -1)
  else (addRangeLoop count a start count, 0)

/-! ## buddy_alloc -/

/-- The search loop of buddy_alloc: the first order from found upwards whose
free list is not empty, or a value above max_order. -/
def findFreeOrder (a : BuddyAllocator) : Nat → Nat → Nat
  | 0, found => found
  | fuel + 1, found =>
    if found ≤ a.maxOrder ∧ a.freeHead found = buddyIndexNone then findFreeOrder a fuel (found + 1)
    else found

/-- The split loop of buddy_alloc: while found > order, halve the block and
free its upper half at the lower order. -/
def splitBlock (index order : Nat) : Nat → BuddyAllocator → BuddyAllocator
  | 0, a => a
  | found + 1, a =>
    if found + 1 > order then splitBlock index order found (listAdd a (index + orderUnits found) found)
    else a

/-- The head and tail writes that end buddy_alloc. -/
def markAllocated (a : BuddyAllocator) (index order : Nat) : BuddyAllocator :=
  let a := a.setPage index fun p => { p with state := .allocHead, order := order }
  a.setPages (index + 1) (orderUnits order - 1) fun p => { p with state := .allocTail, order := 0 }

/-- buddy_alloc: allocate a block of the given order, splitting a larger one if
needed.  The failure value SIZE_MAX is none. -/
def buddyAlloc (a : BuddyAllocator) (order : Nat) : BuddyAllocator × Option Nat :=
  if order > a.maxOrder then (a, none)
  else
    let found := findFreeOrder a (a.maxOrder + 1 - order) order
    if found > a.maxOrder then (a, none)
    else
      let index := (a.freeHead found).toNat
      let a := listRemove a index found
      let a := splitBlock index order found a
      (markAllocated a index order, some index)

/-! ## buddy_free and buddy_trim_allocation -/

/-- The page reset shared by buddy_free and buddy_trim_allocation. -/
def clearPage (p : BuddyPage) : BuddyPage := { p with state := .reserved, order := 0, tag := 0 }

/-- The write of buddy_trim_allocation's second loop: a kept page becomes an
allocated head of order 0. -/
def keepPage (p : BuddyPage) : BuddyPage := { p with state := .allocHead, order := 0 }

/-- The argument and block checks that open buddy_free and
buddy_trim_allocation: the page at index heads an allocated block of this
order whose tail pages are all BUDDY_PAGE_ALLOC_TAIL. -/
def allocatedBlockAt (a : BuddyAllocator) (index order : Nat) : Bool :=
  (a.pages index).state = .allocHead ∧ (a.pages index).order = order ∧
    (List.range' (index + 1) (orderUnits order - 1)).all fun j => (a.pages j).state = .allocTail

/-- buddy_free: return a block of the given order to the allocator.  The two
rejected cases that print a diagnostic (wrong head, corrupted tail) change no
state, like the others. -/
def buddyFree (a : BuddyAllocator) (index order : Nat) : BuddyAllocator × Int :=
  if order > a.maxOrder ∨ index ≥ a.pageCount then (a, -1)
  else
    let units := orderUnits order
    if index &&& (units - 1) ≠ 0 ∨ units > a.pageCount - index then (a, -1)
    else if !allocatedBlockAt a index order then (a, -1)
    else
      let a := a.setPages index units clearPage
      (addBlock a index order, 0)

/-- buddy_trim_allocation: shrink an allocated block to keep_units
individually allocated order-0 pages and return its suffix. -/
def buddyTrimAllocation (a : BuddyAllocator) (index order keepUnits : Nat) :
    BuddyAllocator × Int :=
  if order > a.maxOrder ∨ index ≥ a.pageCount then (a, -1)
  else
    let units := orderUnits order
    if keepUnits = 0 ∨ keepUnits > units ∨ units > a.pageCount - index then (a, -1)
    else if !allocatedBlockAt a index order then (a, -1)
    else
      let a := a.setPages index units clearPage
      let a := a.setPages index keepUnits keepPage
      if keepUnits < units then buddyAddRange a (index + keepUnits) (units - keepUnits)
      else (a, 0)

end Uinxed.Buddy
