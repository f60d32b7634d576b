/-
  Mem/Buddy/Invariant.lean --- the invariant of the buddy allocator.

  BuddyInv a L says what a consistent buddy allocator is, relative to ghost
  free lists L: the concrete lists are L (FreeLists), every free block is an
  aligned block of order at most max_order inside the managed pages, pages
  inside a free block other than its head are BUDDY_PAGE_RESERVED, no free
  block has its buddy free at the same order, every allocated head heads a
  well-formed block of ALLOC_TAIL pages, and free_pages is the size of all free
  blocks together.  These are the clauses buddy_validate checks, plus the
  allocated-block layout the allocation paths rely on.

  The two list primitives are the only writers of the lists.  This file proves
  what each does to the invariant: list_remove of a listed block keeps it and
  leaves the block "floating" (reserved and covered by no free block), and
  list_add of a floating block keeps it when its buddy is not free at the same
  order.  The operations of buddy.c are proved from these two in later files.
-/
import Uinxed.Mem.Buddy.Lists
import Uinxed.Lib.AlignedBlock
import Mathlib.Algebra.BigOperators.Group.Finset.Basic

set_option autoImplicit false

namespace Uinxed.Buddy

open AlignedBlock ThreadedList

/-! ## Free blocks and their total -/

/-- Page j lies inside one of the free blocks listed by L. -/
def Covered (L : Nat → List Nat) (j : Nat) : Prop :=
  ∃ k i, i ∈ L k ∧ InBlock i k j

/-- The number of pages in the free blocks of orders 0..m. -/
def freeTotal (L : Nat → List Nat) (m : Nat) : Nat :=
  ∑ k ∈ Finset.range (m + 1), (L k).length * 2 ^ k

/-- Replacing one free list changes the total by the difference of the two
lists' sizes at that order. -/
theorem freeTotal_update (L : Nat → List Nat) {k m : Nat} (l : List Nat) (hk : k ≤ m) :
    freeTotal (Function.update L k l) m + (L k).length * 2 ^ k =
      freeTotal L m + l.length * 2 ^ k := by
  have hmem : k ∈ Finset.range (m + 1) := Finset.mem_range.mpr (by omega)
  have hrest : ∑ j ∈ (Finset.range (m + 1)).erase k, (Function.update L k l j).length * 2 ^ j =
      ∑ j ∈ (Finset.range (m + 1)).erase k, (L j).length * 2 ^ j := by
    refine Finset.sum_congr rfl fun j hj => ?_
    rw [Function.update_of_ne (Finset.ne_of_mem_erase hj)]
  unfold freeTotal
  rw [← Finset.add_sum_erase _ _ hmem, ← Finset.add_sum_erase _ _ hmem, hrest,
    Function.update_self]
  omega

/-- The ghost lists after removing b from order k. -/
abbrev eraseAt (L : Nat → List Nat) (k b : Nat) : Nat → List Nat :=
  Function.update L k ((L k).erase b)

/-- The ghost lists after pushing i on order k. -/
abbrev pushAt (L : Nat → List Nat) (k i : Nat) : Nat → List Nat :=
  Function.update L k (i :: L k)

theorem freeTotal_eraseAt {L : Nat → List Nat} {k m b : Nat} (hb : b ∈ L k) (hk : k ≤ m) :
    freeTotal (eraseAt L k b) m + 2 ^ k = freeTotal L m := by
  have hsum := freeTotal_update L ((L k).erase b) hk
  obtain ⟨n, hn⟩ : ∃ n, (L k).length = n + 1 :=
    ⟨_, (Nat.succ_pred_eq_of_pos (List.length_pos_of_mem hb)).symm⟩
  rw [List.length_erase_of_mem hb, hn, Nat.add_sub_cancel, Nat.succ_mul] at hsum
  unfold eraseAt
  omega

theorem freeTotal_pushAt (L : Nat → List Nat) {k m : Nat} (i : Nat) (hk : k ≤ m) :
    freeTotal (pushAt L k i) m = freeTotal L m + 2 ^ k := by
  have hsum := freeTotal_update L (i :: L k) hk
  rw [List.length_cons, Nat.succ_mul] at hsum
  unfold pushAt
  omega

/-! ## The invariant -/

/-- Page i heads a well-formed allocated block: its order is at most max_order,
the block is aligned and inside the managed pages, and every other page of it
is BUDDY_PAGE_ALLOC_TAIL. -/
structure AllocBlock (a : BuddyAllocator) (i : Nat) : Prop where
  order_le : (a.pages i).order ≤ a.maxOrder
  aligned : i % 2 ^ (a.pages i).order = 0
  in_range : i + 2 ^ (a.pages i).order ≤ a.pageCount
  tails : ∀ j, InBlock i (a.pages i).order j → j ≠ i → (a.pages j).state = .allocTail

/-- The buddy allocator invariant, relative to ghost free lists L. -/
structure BuddyInv (a : BuddyAllocator) (L : Nat → List Nat) : Prop where
  lists : FreeLists a L
  pageCount_pos : 0 < a.pageCount
  pageCount_le : a.pageCount ≤ 0x7fffffff
  maxOrder_le : a.maxOrder ≤ buddyMaxOrder
  high_nil : ∀ k, a.maxOrder < k → L k = []
  freePages_eq : a.freePages = freeTotal L a.maxOrder
  free_block : ∀ k i, i ∈ L k → i % 2 ^ k = 0 ∧ i + 2 ^ k ≤ a.pageCount
  free_interior : ∀ k i j, i ∈ L k → InBlock i k j → j ≠ i → (a.pages j).state = .reserved
  coalesced : ∀ k i, i ∈ L k → k < a.maxOrder → i ^^^ 2 ^ k ∉ L k
  alloc_block : ∀ i, (a.pages i).state = .allocHead → AllocBlock a i
  tail_owned : ∀ j, (a.pages j).state = .allocTail →
    ∃ i, (a.pages i).state = .allocHead ∧ InBlock i (a.pages i).order j ∧ j ≠ i
  cleared : ∀ i, (a.pages i).state = .reserved ∨ (a.pages i).state = .freeHead →
    (a.pages i).tag = 0

/-- [i, i + 2^k) may be handed to list_add: an aligned block of order at most
max_order inside the managed pages, all of whose pages are reserved and lie in
no free block. -/
structure Floating (a : BuddyAllocator) (L : Nat → List Nat) (i k : Nat) : Prop where
  aligned : i % 2 ^ k = 0
  in_range : i + 2 ^ k ≤ a.pageCount
  order_le : k ≤ a.maxOrder
  reserved : ∀ j, InBlock i k j → (a.pages j).state = .reserved
  uncovered : ∀ j, InBlock i k j → ¬ Covered L j

namespace BuddyInv

variable {a : BuddyAllocator} {L : Nat → List Nat}

theorem order_le_of_mem (h : BuddyInv a L) {k i : Nat} (hi : i ∈ L k) : k ≤ a.maxOrder := by
  by_contra hk
  rw [h.high_nil k (by omega)] at hi
  cases hi

/-- Two free blocks that share a page are the same block. -/
theorem head_eq_of_overlap (h : BuddyInv a L) {k k' b c j : Nat} (hb : b ∈ L k) (hc : c ∈ L k')
    (hjb : InBlock b k j) (hjc : InBlock c k' j) : b = c := by
  by_contra hne
  -- the later head would be an interior page of the other block, hence reserved
  rcases head_mem_of_overlap hjb hjc with hcb | hbc
  · have hr := h.free_interior k b c hb hcb (Ne.symm hne)
    rw [h.lists.state_of_mem hc] at hr
    cases hr
  · have hr := h.free_interior k' c b hc hbc hne
    rw [h.lists.state_of_mem hb] at hr
    cases hr

/-! ## The pages are partitioned into blocks -/

/-- Two allocated blocks that share a page are the same block. -/
theorem alloc_head_eq_of_overlap (h : BuddyInv a L) {x y j : Nat}
    (hx : (a.pages x).state = .allocHead) (hy : (a.pages y).state = .allocHead)
    (hjx : InBlock x (a.pages x).order j) (hjy : InBlock y (a.pages y).order j) : x = y := by
  by_contra hne
  -- the later head would be a tail page of the other block
  rcases head_mem_of_overlap hjx hjy with hyx | hxy
  · have ht := (h.alloc_block x hx).tails y hyx (Ne.symm hne)
    rw [hy] at ht
    cases ht
  · have ht := (h.alloc_block y hy).tails x hxy hne
    rw [hx] at ht
    cases ht

/-- No page of an allocated block lies in a free block. -/
theorem not_covered_of_alloc (h : BuddyInv a L) {x j : Nat} (hx : (a.pages x).state = .allocHead)
    (hj : InBlock x (a.pages x).order j) : ¬ Covered L j := by
  rintro ⟨k, c, hc, hjc⟩
  have hcs := h.lists.state_of_mem hc
  rcases head_mem_of_overlap hj hjc with hcx | hxc
  · -- the free head c would be the allocated head or one of its tails
    by_cases hcx' : c = x
    · rw [hcx', hx] at hcs
      cases hcs
    · have ht := (h.alloc_block x hx).tails c hcx hcx'
      rw [hcs] at ht
      cases ht
  · -- the allocated head x would be an interior page of the free block
    by_cases hxc' : x = c
    · rw [hxc', hcs] at hx
      cases hx
    · have hr := h.free_interior k c x hc hxc hxc'
      rw [hx] at hr
      cases hr

/-! ## list_remove of a free block -/

section Remove

variable {a : BuddyAllocator} {L : Nat → List Nat} {b k : Nat}

theorem mem_eraseAt (h : BuddyInv a L) (hb : b ∈ L k) {k' c : Nat} :
    c ∈ eraseAt L k b k' ↔ c ∈ L k' ∧ c ≠ b := by
  have hnd := (h.lists.isList k).nodup
  rw [mem_update_iff]
  constructor
  · rintro (⟨rfl, hc⟩ | ⟨hk, hc⟩)
    · exact ⟨List.mem_of_mem_erase hc, fun e => by subst e; exact hnd.not_mem_erase hc⟩
    · exact ⟨hc, fun e => by subst e; exact hk (h.lists.eq_of_mem hb hc).symm⟩
  · rintro ⟨hc, hne⟩
    by_cases hk : k' = k
    · subst hk; exact Or.inl ⟨rfl, (List.mem_erase_of_ne hne).mpr hc⟩
    · exact Or.inr ⟨hk, hc⟩

/-- Removing a free block takes exactly its pages out of the covered set. -/
theorem covered_eraseAt (h : BuddyInv a L) (hb : b ∈ L k) (j : Nat) :
    Covered (eraseAt L k b) j ↔ Covered L j ∧ ¬ InBlock b k j := by
  constructor
  · rintro ⟨k', c, hc, hj⟩
    obtain ⟨hc, hne⟩ := (mem_eraseAt h hb).mp hc
    exact ⟨⟨k', c, hc, hj⟩, fun hjb => hne (h.head_eq_of_overlap hb hc hjb hj).symm⟩
  · rintro ⟨⟨k', c, hc, hj⟩, hjb⟩
    have hne : c ≠ b := by
      rintro rfl
      exact hjb (h.lists.eq_of_mem hb hc ▸ hj)
    exact ⟨k', c, (mem_eraseAt h hb).mpr ⟨hc, hne⟩, hj⟩

/-- list_remove of a listed block keeps the invariant. -/
theorem remove (h : BuddyInv a L) (hb : b ∈ L k) :
    BuddyInv (listRemove a b k) (eraseAt L k b) where
  lists := h.lists.listRemove hb
  pageCount_pos := by simpa using h.pageCount_pos
  pageCount_le := by simpa using h.pageCount_le
  maxOrder_le := by simpa using h.maxOrder_le
  high_nil := by
    intro k' hk'
    rw [listRemove_maxOrder] at hk'
    have hk : k' ≠ k := by have := h.order_le_of_mem hb; omega
    simp only [eraseAt, Function.update_of_ne hk]
    exact h.high_nil k' hk'
  freePages_eq := by
    have hsum := freeTotal_eraseAt hb (h.order_le_of_mem hb)
    simp only [listRemove_freePages, listRemove_maxOrder, orderUnits_eq, h.freePages_eq]
    omega
  free_block := by
    intro k' c hc
    simpa using h.free_block k' c ((mem_eraseAt h hb).mp hc).1
  free_interior := by
    intro k' c j hc hj hjc
    rw [listRemove_state]
    split_ifs
    · rfl
    · exact h.free_interior k' c j ((mem_eraseAt h hb).mp hc).1 hj hjc
  coalesced := by
    intro k' c hc hk' hbud
    exact h.coalesced k' c ((mem_eraseAt h hb).mp hc).1 (by simpa using hk')
      ((mem_eraseAt h hb).mp hbud).1
  alloc_block := by
    intro i hi
    -- page b was a free head, so the allocated heads and tails are those of a
    have hib : i ≠ b := by rintro rfl; simp at hi
    rw [listRemove_state, if_neg hib] at hi
    have hblk := h.alloc_block i hi
    refine ⟨by simpa using hblk.order_le, by simpa using hblk.aligned,
      by simpa using hblk.in_range, fun j hj hji => ?_⟩
    rw [listRemove_order] at hj
    have ht := hblk.tails j hj hji
    have hjb : j ≠ b := by rintro rfl; rw [h.lists.state_of_mem hb] at ht; cases ht
    rw [listRemove_state, if_neg hjb, ht]
  tail_owned := by
    intro j hj
    have hjb : j ≠ b := by rintro rfl; simp at hj
    rw [listRemove_state, if_neg hjb] at hj
    obtain ⟨i, hi, hin, hji⟩ := h.tail_owned j hj
    have hib : i ≠ b := by rintro rfl; rw [h.lists.state_of_mem hb] at hi; cases hi
    exact ⟨i, by rw [listRemove_state, if_neg hib, hi], by rw [listRemove_order]; exact hin, hji⟩
  cleared := by
    intro i hi
    rw [listRemove_tag]
    by_cases hib : i = b
    · subst hib
      exact h.cleared i (Or.inr (h.lists.state_of_mem hb))
    · rw [listRemove_state, if_neg hib] at hi
      exact h.cleared i hi

/-- After list_remove the removed block is floating. -/
theorem floating_remove (h : BuddyInv a L) (hb : b ∈ L k) :
    Floating (listRemove a b k) (eraseAt L k b) b k where
  aligned := (h.free_block k b hb).1
  in_range := by simpa using (h.free_block k b hb).2
  order_le := by simpa using h.order_le_of_mem hb
  reserved := by
    intro j hj
    rw [listRemove_state]
    split_ifs with hjb
    · rfl
    · exact h.free_interior k b j hb hj hjb
  uncovered := fun j hj hc => ((covered_eraseAt h hb j).mp hc).2 hj

/-- list_remove writes only pages of the list it unlinks from. -/
theorem remove_pages_of_not_mem (h : BuddyInv a L) (hb : b ∈ L k) {j : Nat} (hj : j ∉ L k) :
    (listRemove a b k).pages j = a.pages j := by
  refine listRemove_pages_of_ne a b k (fun e => hj (e ▸ hb)) ?_ ?_
  · rintro ⟨hp, rfl⟩
    exact hj (h.lists.prev_mem hb hp)
  · rintro ⟨hn, rfl⟩
    exact hj (h.lists.next_mem hb hn)

end Remove

/-! ## list_add of a floating block -/

section Insert

variable {a : BuddyAllocator} {L : Nat → List Nat} {i k : Nat}

theorem mem_pushAt {k' c : Nat} : c ∈ pushAt L k i k' ↔ (k' = k ∧ c = i) ∨ c ∈ L k' := by
  rw [mem_update_iff]
  by_cases hk : k' = k
  · subst hk; simp
  · simp [hk]

/-- Pushing a block adds exactly its pages to the covered set. -/
theorem covered_pushAt (j : Nat) : Covered (pushAt L k i) j ↔ Covered L j ∨ InBlock i k j := by
  constructor
  · rintro ⟨k', c, hc, hj⟩
    rcases mem_pushAt.mp hc with ⟨rfl, rfl⟩ | hc
    · exact Or.inr hj
    · exact Or.inl ⟨k', c, hc, hj⟩
  · rintro (⟨k', c, hc, hj⟩ | hj)
    · exact ⟨k', c, mem_pushAt.mpr (Or.inr hc), hj⟩
    · exact ⟨k, i, mem_pushAt.mpr (Or.inl ⟨rfl, rfl⟩), hj⟩

/-- list_add of a floating block whose buddy is not free at the same order
keeps the invariant. -/
theorem insert (h : BuddyInv a L) (hf : Floating a L i k)
    (hbud : k < a.maxOrder → i ^^^ 2 ^ k ∉ L k) :
    BuddyInv (listAdd a i k) (pushAt L k i) where
  lists := h.lists.listAdd (by rw [hf.reserved i (inBlock_self i k)]; decide)
  pageCount_pos := by simpa using h.pageCount_pos
  pageCount_le := by simpa using h.pageCount_le
  maxOrder_le := by simpa using h.maxOrder_le
  high_nil := by
    intro k' hk'
    rw [listAdd_maxOrder] at hk'
    have hk : k' ≠ k := by have := hf.order_le; omega
    simp only [pushAt, Function.update_of_ne hk]
    exact h.high_nil k' hk'
  freePages_eq := by
    simp only [listAdd_freePages, listAdd_maxOrder, orderUnits_eq, h.freePages_eq,
      freeTotal_pushAt L i hf.order_le]
  free_block := by
    intro k' c hc
    rcases mem_pushAt.mp hc with ⟨rfl, rfl⟩ | hc
    · exact ⟨hf.aligned, by simpa using hf.in_range⟩
    · simpa using h.free_block k' c hc
  free_interior := by
    intro k' c j hc hj hjc
    rw [listAdd_state]
    rcases mem_pushAt.mp hc with ⟨rfl, rfl⟩ | hc
    · rw [if_neg hjc]
      exact hf.reserved j hj
    · -- page i lies in no free block, so it is not inside the block of c
      have hji : j ≠ i := fun hji => hf.uncovered i (inBlock_self i k) ⟨k', c, hc, hji ▸ hj⟩
      rw [if_neg hji]
      exact h.free_interior k' c j hc hj hjc
  coalesced := by
    intro k' c hc hk' hmem
    rw [listAdd_maxOrder] at hk'
    rcases mem_pushAt.mp hc with ⟨rfl, rfl⟩ | hcL
    · rcases mem_pushAt.mp hmem with ⟨-, he⟩ | hmem
      · exact xor_two_pow_ne _ _ he
      · exact hbud hk' hmem
    · rcases mem_pushAt.mp hmem with ⟨hk, he⟩ | hmem
      · -- the buddy of c is i, so the buddy of i is c, which is free at this order
        subst hk
        apply hbud hk'
        rw [← he, xor_xor_two_pow]
        exact hcL
      · exact h.coalesced k' c hcL hk' hmem
  alloc_block := by
    intro x hx
    have hxi : x ≠ i := by rintro rfl; simp at hx
    rw [listAdd_state, if_neg hxi] at hx
    have hblk := h.alloc_block x hx
    refine ⟨by simpa [hxi] using hblk.order_le, by simpa [hxi] using hblk.aligned,
      by simpa [hxi] using hblk.in_range, fun j hj hjx => ?_⟩
    rw [listAdd_order, if_neg hxi] at hj
    have ht := hblk.tails j hj hjx
    have hji : j ≠ i := by
      rintro rfl
      rw [hf.reserved _ (inBlock_self _ _)] at ht
      cases ht
    rw [listAdd_state, if_neg hji, ht]
  tail_owned := by
    intro j hj
    have hji : j ≠ i := by rintro rfl; simp at hj
    rw [listAdd_state, if_neg hji] at hj
    obtain ⟨x, hx, hin, hjx⟩ := h.tail_owned j hj
    have hxi : x ≠ i := by
      rintro rfl
      rw [hf.reserved _ (inBlock_self _ _)] at hx
      cases hx
    exact ⟨x, by rw [listAdd_state, if_neg hxi, hx], by rw [listAdd_order, if_neg hxi]; exact hin,
      hjx⟩
  cleared := by
    intro x hx
    rw [listAdd_tag]
    by_cases hxi : x = i
    · subst hxi
      exact h.cleared _ (Or.inl (hf.reserved _ (inBlock_self _ _)))
    · rw [listAdd_state, if_neg hxi] at hx
      exact h.cleared x hx

/-- list_add writes only page i and pages of the list it pushes on. -/
theorem insert_pages_of_not_mem (h : BuddyInv a L) {j : Nat} (hji : j ≠ i) (hj : j ∉ L k) :
    (listAdd a i k).pages j = a.pages j := by
  refine listAdd_pages_of_ne a i k hji fun hh => hj ?_
  exact List.mem_of_mem_head? ((h.lists.head_cond k j).mp hh)

end Insert

end BuddyInv

end Uinxed.Buddy
