/-
  Mem/Buddy/Validate.lean --- buddy_validate and node_in_list.

  Normative source: src/mem/buddy.c, lines 211-266.

  buddy_validate is the allocator's own statement of its invariant: it walks
  every free list (links, order, alignment, bounds, interior pages, the
  coalescing rule), compares the walk with free_count and free_pages, and then
  checks that every BUDDY_PAGE_FREE_HEAD page is on the list of its order.
  Both walks are bounded by counters in the source (count++ > page_count and
  guard++ <= page_count); those counters become the fuel here, so the model
  returns on exactly the iterations the code does.

  A walk that returns -1 is none; a successful walk returns its count.
-/
import Uinxed.Mem.Buddy.Ops

set_option autoImplicit false

namespace Uinxed.Buddy

/-! ## node_in_list -/

/-- The loop of node_in_list; the fuel is the guard counter's budget
page_count + 1. -/
def nodeInListLoop (a : BuddyAllocator) (wanted : Nat) : Nat → Int → Bool
  | 0, _ => false
  | fuel + 1, node =>
    if node = buddyIndexNone then false
    else if node = wanted then true
    else if node < 0 ∨ node ≥ a.pageCount then false
    else nodeInListLoop a wanted fuel (a.pages node.toNat).next

/-- node_in_list: whether index wanted sits on the free list of the given order. -/
def nodeInList (a : BuddyAllocator) (wanted order : Nat) : Bool :=
  nodeInListLoop a wanted (a.pageCount + 1) (a.freeHead order)

/-! ## The per-order walk of buddy_validate -/

/-- The checks buddy_validate makes on one node of the order-k list, given the
node visited before it. -/
def nodeValid (a : BuddyAllocator) (order index : Nat) (previous : Int) : Bool :=
  let units := orderUnits order
  let page := a.pages index
  page.state = .freeHead ∧ page.order = order ∧ page.prev = previous ∧
    index &&& (units - 1) = 0 ∧ units ≤ a.pageCount - index ∧
    (List.range' (index + 1) (units - 1)).all (fun j => (a.pages j).state ≠ .freeHead) ∧
    (order < a.maxOrder →
      let buddy := index ^^^ units
      ¬ (buddy < a.pageCount ∧ (a.pages buddy).state = .freeHead ∧ (a.pages buddy).order = order))

/-- The inner while-loop of buddy_validate over the order-k list: returns the
number of nodes, or none where the source returns -1. -/
def walkList (a : BuddyAllocator) (order : Nat) : Nat → Int → Int → Nat → Option Nat
  | 0, node, _, count => if node = buddyIndexNone then some count else none
  | fuel + 1, node, previous, count =>
    if node = buddyIndexNone then some count
    else if node < 0 ∨ node ≥ a.pageCount ∨ count > a.pageCount then none
    else if !nodeValid a order node.toNat previous then none
    else walkList a order fuel (a.pages node.toNat).next node (count + 1)

/-- The for-loop of buddy_validate over the orders order, ..., max_order,
accumulating (total_heads, total_free). -/
def walkOrders (a : BuddyAllocator) : Nat → Nat → Nat × Nat → Option (Nat × Nat)
  | 0, _, acc => some acc
  | fuel + 1, order, (heads, free) =>
    if order > a.maxOrder then some (heads, free)
    else
      match walkList a order (a.pageCount + 2) (a.freeHead order) buddyIndexNone 0 with
      | none => none
      | some count =>
        if count ≠ a.freeCount order then none
        else walkOrders a fuel (order + 1) (heads + count, free + count * orderUnits order)

/-- The final for-loop of buddy_validate over the pages: the number of free
heads, or none where a free head is not on the list of its order. -/
def countHeads (a : BuddyAllocator) : List Nat → Option Nat
  | [] => some 0
  | i :: rest =>
    if (a.pages i).state = .freeHead then
      if (a.pages i).order > a.maxOrder ∨ !nodeInList a i (a.pages i).order then none
      else (countHeads a rest).map (· + 1)
    else countHeads a rest

/-- buddy_validate: 0 when every free-list and coalescing invariant it checks
holds, -1 otherwise.  The metadata pointer is non-null in every model state. -/
def buddyValidate (a : BuddyAllocator) : Int :=
  if a.pageCount = 0 ∨ a.maxOrder > buddyMaxOrder then -1
  else
    match walkOrders a (a.maxOrder + 1) 0 (0, 0) with
    | none => -1
    | some (totalHeads, totalFree) =>
      if totalFree ≠ a.freePages then -1
      else
        match countHeads a (List.range a.pageCount) with
        | none => -1
        | some observed => if observed = totalHeads then 0 else -1

end Uinxed.Buddy
