/-
  Mem/Buddy/ValidateSpec.lean --- buddy_validate accepts every state that
  satisfies the invariant.

  buddy_validate walks each free list from its head link, checking every node
  against the clauses of BuddyInv, then scans the pages for free heads and
  looks each one up with node_in_list.  Over a state with ghost lists L, each
  walk follows the thread of L k (ThreadedList.Chain), so the walks succeed and
  count the lengths of the L k; the scan counts the free heads, which are
  exactly the members of the L k, so the two counts agree.
-/
import Uinxed.Mem.Buddy.Invariant
import Uinxed.Mem.Buddy.Validate
import Mathlib.Data.List.Perm.Basic

set_option autoImplicit false

namespace Uinxed.Buddy

open AlignedBlock ThreadedList

variable {a : BuddyAllocator} {L : Nat → List Nat}

/-! ## One node of a free list -/

/-- Every node of the order-k list passes the checks of buddy_validate. -/
theorem nodeValid_of_mem (h : BuddyInv a L) {k x : Nat} (hx : x ∈ L k) {p : Int}
    (hp : (a.pages x).prev = p) : nodeValid a k x p = true := by
  obtain ⟨hal, hin⟩ := h.free_block k x hx
  unfold nodeValid
  dsimp only
  rw [decide_eq_true_iff]
  simp only [orderUnits_eq]
  refine ⟨h.lists.state_of_mem hx, h.lists.order_eq k x hx, hp,
    by rw [Nat.and_two_pow_sub_one_eq_mod]; exact hal, by omega, ?_, ?_⟩
  · -- the interior pages are reserved
    refine List.all_eq_true.mpr fun j hj => ?_
    obtain ⟨hj₁, hj₂⟩ := List.mem_range'_1.mp hj
    have hr := h.free_interior k x j hx ⟨by omega, by omega⟩ (by omega)
    simp [hr]
  · -- a free head of order k at the buddy would put the buddy on L k
    rintro hk ⟨-, hbs, hbo⟩
    obtain ⟨k', hk'⟩ := (h.lists.head_iff _).mp hbs
    have hkk : k' = k := (h.lists.order_eq k' _ hk').symm.trans hbo
    rw [hkk] at hk'
    exact h.coalesced k x hx hk hk'

/-! ## The walk over one free list -/

/-- Walking a thread of nodes of L k from the node after p counts them. -/
theorem walkList_chain (h : BuddyInv a L) (k : Nat) :
    ∀ (l : List Nat) (p : Option Nat) (fuel count : Nat),
      Chain link (nextOf a) (prevOf a) p l → (∀ x ∈ l, x ∈ L k) → l.length ≤ fuel →
      count + l.length ≤ a.pageCount + 1 →
      walkList a k fuel (link l.head?) (link p) count = some (count + l.length) := by
  intro l
  induction l with
  | nil =>
    intro p fuel count _ _ _ _
    cases fuel <;> simp [walkList, buddyIndexNone]
  | cons x xs ih =>
    intro p fuel count hc hmem hfuel hcount
    obtain ⟨hprev, hnext, hrest⟩ := hc
    obtain ⟨f, rfl⟩ : ∃ f, fuel = f + 1 := ⟨fuel - 1, by simp at hfuel; omega⟩
    have hx := hmem x List.mem_cons_self
    have hxr := (h.free_block k x hx).2
    have hpos := Nat.two_pow_pos k
    have hvalid := nodeValid_of_mem h hx hprev
    have hstep := ih (some x) f (count + 1) hrest (fun y hy => hmem y (List.mem_cons_of_mem x hy))
      (by simp at hfuel; omega) (by simp at hcount; omega)
    simp only [List.length_cons] at hcount ⊢
    rw [List.head?_cons, link_some, walkList,
      if_neg (show (x : Int) ≠ buddyIndexNone by unfold buddyIndexNone; omega),
      if_neg (show ¬ ((x : Int) < 0 ∨ (x : Int) ≥ a.pageCount ∨ count > a.pageCount) by omega),
      Int.toNat_natCast, hvalid]
    simp only [Bool.not_true, Bool.false_eq_true, if_false]
    rw [link_some] at hstep
    rw [show (a.pages x).next = link xs.head? from hnext, hstep]
    congr 1
    omega

/-- A free list holds at most page_count pages. -/
theorem length_le_pageCount (h : BuddyInv a L) (k : Nat) : (L k).length ≤ a.pageCount :=
  length_le_of_nodup (h.lists.isList k).nodup fun x hx => by
    have := (h.free_block k x hx).2
    have := Nat.two_pow_pos k
    omega

/-- The walk of buddy_validate over the order-k list counts L k. -/
theorem walkList_freeList (h : BuddyInv a L) (k : Nat) :
    walkList a k (a.pageCount + 2) (a.freeHead k) buddyIndexNone 0 = some (L k).length := by
  have hlen := length_le_pageCount h k
  rw [(h.lists.isList k).head_eq, show buddyIndexNone = link none from rfl,
    walkList_chain h k (L k) none _ 0 (h.lists.isList k).chain (fun _ hx => hx) (by omega)
      (by omega), Nat.zero_add]

/-! ## The walk over all orders -/

/-- From order o on, the loop over the orders adds the lengths of the remaining
lists to the heads count and their pages to the free count. -/
theorem walkOrders_eq (h : BuddyInv a L) (fuel : Nat) :
    ∀ o, o + fuel = a.maxOrder + 1 →
      walkOrders a fuel o (∑ k ∈ Finset.range o, (L k).length,
          ∑ k ∈ Finset.range o, (L k).length * 2 ^ k) =
        some (∑ k ∈ Finset.range (a.maxOrder + 1), (L k).length, freeTotal L a.maxOrder) := by
  induction fuel with
  | zero =>
    intro o ho
    rw [Nat.add_zero] at ho
    subst ho
    rfl
  | succ fuel ih =>
    intro o ho
    rw [walkOrders, if_neg (by omega), walkList_freeList h o]
    dsimp only
    rw [if_neg fun hne => hne (h.lists.count o).symm, orderUnits_eq, ← Finset.sum_range_succ,
      ← Finset.sum_range_succ (fun k => (L k).length * 2 ^ k)]
    exact ih (o + 1) (by omega)

/-! ## node_in_list and the scan over the pages -/

/-- node_in_list, walking a thread of nodes of L k, finds every node on it. -/
theorem nodeInListLoop_chain (h : BuddyInv a L) (k wanted : Nat) :
    ∀ (l : List Nat) (p : Option Nat) (fuel : Nat),
      Chain link (nextOf a) (prevOf a) p l → (∀ x ∈ l, x ∈ L k) → wanted ∈ l →
      l.length ≤ fuel → nodeInListLoop a wanted fuel (link l.head?) = true := by
  intro l
  induction l with
  | nil => intro p fuel _ _ hw; cases hw
  | cons x xs ih =>
    intro p fuel hc hmem hw hfuel
    obtain ⟨-, hnext, hrest⟩ := hc
    obtain ⟨f, rfl⟩ : ∃ f, fuel = f + 1 := ⟨fuel - 1, by simp at hfuel; omega⟩
    have hxr := (h.free_block k x (hmem x List.mem_cons_self)).2
    have hpos := Nat.two_pow_pos k
    rw [List.head?_cons, link_some, nodeInListLoop,
      if_neg (show (x : Int) ≠ buddyIndexNone by unfold buddyIndexNone; omega)]
    by_cases hxw : x = wanted
    · rw [if_pos (by rw [hxw])]
    -- not found yet: the node is in range, so the walk moves to the next one
    rw [if_neg (show (x : Int) ≠ wanted by omega),
      if_neg (show ¬ ((x : Int) < 0 ∨ (x : Int) ≥ a.pageCount) by omega), Int.toNat_natCast,
      show (a.pages x).next = link xs.head? from hnext]
    have hw' : wanted ∈ xs := (List.mem_cons.mp hw).resolve_left (Ne.symm hxw)
    exact ih (some x) f hrest (fun y hy => hmem y (List.mem_cons_of_mem x hy)) hw'
      (by simp at hfuel; omega)

/-- node_in_list finds every member of L k on the order-k list. -/
theorem nodeInList_of_mem (h : BuddyInv a L) {k x : Nat} (hx : x ∈ L k) :
    nodeInList a x k = true := by
  have hlen := length_le_pageCount h k
  unfold nodeInList
  rw [(h.lists.isList k).head_eq]
  exact nodeInListLoop_chain h k x (L k) none _ (h.lists.isList k).chain (fun _ hy => hy) hx
    (by omega)

/-- The scan over the pages counts the free heads: each is on the list of its
order, so the scan never fails. -/
theorem countHeads_eq (h : BuddyInv a L) (l : List Nat) :
    countHeads a l = some (l.countP fun i => decide ((a.pages i).state = .freeHead)) := by
  induction l with
  | nil => rfl
  | cons i rest ih =>
    by_cases hs : (a.pages i).state = .freeHead
    · obtain ⟨k, hk⟩ := (h.lists.head_iff i).mp hs
      have ho := h.lists.order_eq k i hk
      have hle := h.order_le_of_mem hk
      rw [countHeads, if_pos hs, ho, nodeInList_of_mem h hk,
        if_neg (by simp only [Bool.not_true, Bool.false_eq_true, or_false]; omega), ih]
      simp [hs]
    · rw [countHeads, if_neg hs, ih]
      simp [hs]

/-- The free heads among the pages are exactly the members of the free lists,
so the scan counts as many as the walks. -/
theorem countP_freeHead (h : BuddyInv a L) :
    (List.range a.pageCount).countP (fun i => decide ((a.pages i).state = .freeHead)) =
      ∑ k ∈ Finset.range (a.maxOrder + 1), (L k).length := by
  -- the free lists of orders 0..max_order, one after the other
  have hF : ((List.range (a.maxOrder + 1)).flatMap L).Nodup := by
    refine List.nodup_flatMap.mpr ⟨fun k _ => (h.lists.isList k).nodup, ?_⟩
    exact List.nodup_range.imp fun hne x hx hx' => hne (h.lists.eq_of_mem hx hx')
  have hperm : ((List.range a.pageCount).filter fun i => decide ((a.pages i).state = .freeHead)).Perm
      ((List.range (a.maxOrder + 1)).flatMap L) := by
    refine (List.perm_ext_iff_of_nodup (List.nodup_range.filter _) hF).mpr fun i => ?_
    simp only [List.mem_filter, List.mem_range, decide_eq_true_eq, List.mem_flatMap]
    constructor
    · rintro ⟨-, hs⟩
      obtain ⟨k, hk⟩ := (h.lists.head_iff i).mp hs
      exact ⟨k, by have := h.order_le_of_mem hk; omega, hk⟩
    · rintro ⟨k, -, hk⟩
      have := (h.free_block k i hk).2
      have := Nat.two_pow_pos k
      exact ⟨by omega, h.lists.state_of_mem hk⟩
  rw [List.countP_eq_length_filter, hperm.length_eq, List.length_flatMap,
    ← List.sum_toFinset _ List.nodup_range,
    show (List.range (a.maxOrder + 1)).toFinset = Finset.range (a.maxOrder + 1) from
      Multiset.toFinset_range _]

/-! ## buddy_validate -/

/-- buddy_validate returns 0 on every state that satisfies the invariant. -/
theorem buddyValidate_of_inv (h : BuddyInv a L) : buddyValidate a = 0 := by
  have hwalk := walkOrders_eq h (a.maxOrder + 1) 0 (by omega)
  simp only [Finset.range_zero, Finset.sum_empty] at hwalk
  unfold buddyValidate
  rw [if_neg (by have := h.pageCount_pos; have := h.maxOrder_le; omega), hwalk]
  dsimp only
  rw [if_neg fun hne => hne h.freePages_eq.symm, countHeads_eq h, countP_freeHead h]
  dsimp only
  rw [if_pos rfl]

end Uinxed.Buddy
