/-
  Mem/Buddy/Alloc.lean --- buddy_alloc keeps the invariant.

  buddy_alloc finds the lowest non-empty free list at or above the requested
  order, unlinks its first block, halves it down to the requested order, pushing
  each upper half on the free list of its order, and marks the remaining lower
  half allocated.  Each stage is proved against the ghost lists: the unlinked
  block is floating (Invariant.lean), each halving adds the upper half (Added,
  Add.lean) and leaves the lower half floating, and marking a floating block
  allocated keeps the invariant.  The result is Allocated: the returned block
  lay inside a free block, is now an allocated block, and free_pages fell by its
  size.
-/
import Uinxed.Mem.Buddy.Add

set_option autoImplicit false

namespace Uinxed.Buddy

open AlignedBlock BuddyAllocator

/-! ## Marking a block allocated -/

section Mark

variable (a : BuddyAllocator) (i k : Nat)

theorem markAllocated_pages (j : Nat) :
    (markAllocated a i k).pages j =
      if InBlock i k j ∧ j ≠ i then { a.pages j with state := .allocTail, order := 0 }
      else if j = i then { a.pages j with state := .allocHead, order := k }
      else a.pages j := by
  have hpos := Nat.two_pow_pos k
  simp only [markAllocated, setPages_pages, setPage_pages, orderUnits_eq]
  unfold InBlock
  split_ifs <;> first | rfl | (exfalso; omega)

@[simp] theorem markAllocated_state (j : Nat) :
    ((markAllocated a i k).pages j).state =
      if j = i then .allocHead else if InBlock i k j then .allocTail else (a.pages j).state := by
  rw [markAllocated_pages]
  split_ifs <;> first | rfl | (exfalso; simp_all)

@[simp] theorem markAllocated_order (j : Nat) :
    ((markAllocated a i k).pages j).order =
      if j = i then k else if InBlock i k j then 0 else (a.pages j).order := by
  rw [markAllocated_pages]
  split_ifs <;> first | rfl | (exfalso; simp_all)

@[simp] theorem markAllocated_tag (j : Nat) :
    ((markAllocated a i k).pages j).tag = (a.pages j).tag := by
  rw [markAllocated_pages]
  split_ifs <;> rfl

@[simp] theorem markAllocated_reserved (j : Nat) :
    ((markAllocated a i k).pages j).reserved = (a.pages j).reserved := by
  rw [markAllocated_pages]
  split_ifs <;> rfl

@[simp] theorem markAllocated_nextOf : nextOf (markAllocated a i k) = nextOf a := by
  funext j
  unfold nextOf
  rw [markAllocated_pages]
  split_ifs <;> rfl

@[simp] theorem markAllocated_prevOf : prevOf (markAllocated a i k) = prevOf a := by
  funext j
  unfold prevOf
  rw [markAllocated_pages]
  split_ifs <;> rfl

theorem markAllocated_pages_of_not_mem {j : Nat} (hj : ¬ InBlock i k j) :
    (markAllocated a i k).pages j = a.pages j := by
  rw [markAllocated_pages, if_neg fun h => hj h.1,
    if_neg fun (e : j = i) => hj (e ▸ inBlock_self i k)]

theorem markAllocated_fields :
    (markAllocated a i k).pageCount = a.pageCount ∧ (markAllocated a i k).maxOrder = a.maxOrder ∧
      (markAllocated a i k).freePages = a.freePages ∧
      (markAllocated a i k).freeHead = a.freeHead ∧
      (markAllocated a i k).freeCount = a.freeCount := by
  simp [markAllocated]

@[simp] theorem markAllocated_pageCount : (markAllocated a i k).pageCount = a.pageCount :=
  (markAllocated_fields a i k).1
@[simp] theorem markAllocated_maxOrder : (markAllocated a i k).maxOrder = a.maxOrder :=
  (markAllocated_fields a i k).2.1
@[simp] theorem markAllocated_freePages : (markAllocated a i k).freePages = a.freePages :=
  (markAllocated_fields a i k).2.2.1
@[simp] theorem markAllocated_freeHead : (markAllocated a i k).freeHead = a.freeHead :=
  (markAllocated_fields a i k).2.2.2.1
@[simp] theorem markAllocated_freeCount : (markAllocated a i k).freeCount = a.freeCount :=
  (markAllocated_fields a i k).2.2.2.2

end Mark

namespace BuddyInv

variable {a : BuddyAllocator} {L : Nat → List Nat} {i k : Nat}

/-- Marking a floating block allocated keeps the invariant: its pages were
reserved and in no free block, so no list, free block or other allocated block
sees the change. -/
theorem mark (h : BuddyInv a L) (hf : Floating a L i k) : BuddyInv (markAllocated a i k) L where
  lists :=
    { isList := fun k' => by
        rw [markAllocated_nextOf, markAllocated_prevOf, markAllocated_freeHead]
        exact h.lists.isList k'
      count := fun k' => by rw [markAllocated_freeCount]; exact h.lists.count k'
      head_iff := fun j => by
        by_cases hj : InBlock i k j
        · -- the block's pages are on no list, before or after
          have hnot : ¬ ∃ k', j ∈ L k' :=
            fun ⟨k', hk'⟩ => hf.uncovered j hj ⟨k', j, hk', inBlock_self j k'⟩
          simp only [markAllocated_state, hj, if_true]
          split_ifs <;> exact iff_of_false (by decide) hnot
        · rw [markAllocated_pages_of_not_mem a i k hj]
          exact h.lists.head_iff j
      order_eq := fun k' j hj => by
        have hnot : ¬ InBlock i k j := fun hb => hf.uncovered j hb ⟨k', j, hj, inBlock_self j k'⟩
        rw [markAllocated_pages_of_not_mem a i k hnot]
        exact h.lists.order_eq k' j hj }
  pageCount_pos := by simpa using h.pageCount_pos
  pageCount_le := by simpa using h.pageCount_le
  maxOrder_le := by simpa using h.maxOrder_le
  high_nil := by simpa using h.high_nil
  freePages_eq := by simpa using h.freePages_eq
  free_block := by simpa using h.free_block
  free_interior := by
    intro k' c j hc hj hjc
    have hnot : ¬ InBlock i k j := fun hb => hf.uncovered j hb ⟨k', c, hc, hj⟩
    rw [markAllocated_pages_of_not_mem a i k hnot]
    exact h.free_interior k' c j hc hj hjc
  coalesced := by simpa using h.coalesced
  alloc_block := by
    intro x hx
    by_cases hxi : x = i
    · -- the new block
      subst hxi
      refine ⟨by simpa using hf.order_le, by simpa using hf.aligned, by simpa using hf.in_range,
        fun j hj hjx => ?_⟩
      simp only [markAllocated_order, if_true] at hj
      simp [hjx, hj]
    · by_cases hxb : InBlock i k x
      · simp [hxi, hxb] at hx
      -- an old block: its pages are allocated, so none of them is in the new block
      rw [markAllocated_pages_of_not_mem a i k hxb] at hx
      have hblk := h.alloc_block x hx
      refine ⟨by simpa [markAllocated_pages_of_not_mem a i k hxb] using hblk.order_le,
        by simpa [markAllocated_pages_of_not_mem a i k hxb] using hblk.aligned,
        by simpa [markAllocated_pages_of_not_mem a i k hxb] using hblk.in_range,
        fun j hj hjx => ?_⟩
      rw [markAllocated_pages_of_not_mem a i k hxb] at hj
      have ht := hblk.tails j hj hjx
      have hjb : ¬ InBlock i k j := fun hb => by rw [hf.reserved j hb] at ht; cases ht
      rw [markAllocated_pages_of_not_mem a i k hjb, ht]
  tail_owned := by
    intro j hj
    by_cases hjb : InBlock i k j
    · have hji : j ≠ i := fun e => by simp [e] at hj
      refine ⟨i, by simp, by simpa using hjb, hji⟩
    · rw [markAllocated_pages_of_not_mem a i k hjb] at hj
      obtain ⟨x, hx, hin, hjx⟩ := h.tail_owned j hj
      have hxb : ¬ InBlock i k x := fun hb => by rw [hf.reserved x hb] at hx; cases hx
      exact ⟨x, by rw [markAllocated_pages_of_not_mem a i k hxb, hx],
        by rw [markAllocated_pages_of_not_mem a i k hxb]; exact hin, hjx⟩
  cleared := by
    intro x hx
    by_cases hxb : InBlock i k x
    · exfalso
      by_cases hxi : x = i <;> simp [hxi, hxb] at hx
    · rw [markAllocated_pages_of_not_mem a i k hxb] at hx ⊢
      exact h.cleared x hx

end BuddyInv

/-! ## The split loop -/

section Split

variable {L : Nat → List Nat} {index order : Nat}

@[simp] theorem splitBlock_fields (index order found : Nat) (a : BuddyAllocator) :
    (splitBlock index order found a).pageCount = a.pageCount ∧
      (splitBlock index order found a).maxOrder = a.maxOrder := by
  induction found generalizing a with
  | zero => exact ⟨rfl, rfl⟩
  | succ found ih =>
    simp only [splitBlock]
    split_ifs
    · obtain ⟨h₁, h₂⟩ := ih (listAdd a (index + orderUnits found) found)
      rw [h₁, h₂, listAdd_pageCount, listAdd_maxOrder]
      exact ⟨rfl, rfl⟩
    · exact ⟨rfl, rfl⟩

@[simp] theorem splitBlock_tag (index order found : Nat) (a : BuddyAllocator) (j : Nat) :
    ((splitBlock index order found a).pages j).tag = (a.pages j).tag := by
  induction found generalizing a with
  | zero => rfl
  | succ found ih =>
    simp only [splitBlock]
    split_ifs
    · rw [ih, listAdd_tag]
    · rfl

@[simp] theorem splitBlock_reserved (index order found : Nat) (a : BuddyAllocator) (j : Nat) :
    ((splitBlock index order found a).pages j).reserved = (a.pages j).reserved := by
  induction found generalizing a with
  | zero => rfl
  | succ found ih =>
    simp only [splitBlock]
    split_ifs
    · rw [ih, listAdd_reserved]
    · rfl

/-- Halving a floating block of order f + 1: its upper half is floating, and its
lower half's buddy is that upper half. -/
theorem Floating.upper {a : BuddyAllocator} {f : Nat} (hf : Floating a L index (f + 1)) :
    Floating a L (index + 2 ^ f) f where
  aligned := by
    have := (mod_two_pow_succ_eq_zero_iff.mp hf.aligned).1
    rw [Nat.add_mod_right]
    exact this
  in_range := by have := hf.in_range; rw [Nat.pow_succ] at this; omega
  order_le := by have := hf.order_le; omega
  reserved := fun j hj => hf.reserved j (by unfold InBlock at hj ⊢; rw [Nat.pow_succ]; omega)
  uncovered := fun j hj => hf.uncovered j (by unfold InBlock at hj ⊢; rw [Nat.pow_succ]; omega)

/-- The split loop, from a floating block of order found ≥ order: the upper
halves are added as free blocks and the lower block of the requested order is
left floating. -/
theorem splitBlock_added (found : Nat) :
    ∀ {a : BuddyAllocator} {L : Nat → List Nat}, BuddyInv a L → Floating a L index found →
      order ≤ found →
      ∃ L', Added a L (fun j => InBlock index found j ∧ ¬ InBlock index order j)
          (2 ^ found - 2 ^ order) (splitBlock index order found a) L' ∧
        Floating (splitBlock index order found a) L' index order := by
  induction found with
  | zero =>
    intro a L h hf ho
    obtain rfl : order = 0 := by omega
    exact ⟨L, Added.refl h fun j (hj : InBlock index 0 j ∧ ¬ InBlock index 0 j) => hj.2 hj.1, hf⟩
  | succ f ih =>
    intro a L h hf ho
    simp only [splitBlock]
    by_cases hlt : f + 1 > order
    swap
    · rw [if_neg hlt]
      obtain rfl : order = f + 1 := by omega
      rw [Nat.sub_self]
      exact ⟨L, Added.refl h fun j (hj : InBlock index (f + 1) j ∧ ¬ InBlock index (f + 1) j) =>
        hj.2 hj.1, hf⟩
    rw [if_pos hlt]
    -- list_add of the upper half: its buddy, the lower half, is not free
    have hup := hf.upper
    have hbud : f < a.maxOrder → (index + 2 ^ f) ^^^ 2 ^ f ∉ L f := by
      intro _ hmem
      rw [add_two_pow_xor hf.aligned] at hmem
      exact hf.uncovered index (inBlock_self index (f + 1)) ⟨f, index, hmem, inBlock_self index f⟩
    have h₁ := added_listAdd h hup hbud
    -- the lower half is floating after the upper half was added
    have hlow : Floating (listAdd a (index + 2 ^ f) f) (pushAt L f (index + 2 ^ f)) index f :=
      { aligned := (mod_two_pow_succ_eq_zero_iff.mp hf.aligned).1
        in_range := by have := hf.in_range; rw [Nat.pow_succ] at this; simp; omega
        order_le := by have := hf.order_le; simp; omega
        reserved := fun j hj => by
          have hjf : InBlock index (f + 1) j := by
            unfold InBlock at hj ⊢; rw [Nat.pow_succ]; omega
          have hju : ¬ InBlock (index + 2 ^ f) f j := by unfold InBlock at hj ⊢; omega
          rw [h₁.frame j (hf.uncovered j hjf) hju]
          exact hf.reserved j hjf
        uncovered := fun j hj hc => by
          have hjf : InBlock index (f + 1) j := by
            unfold InBlock at hj ⊢; rw [Nat.pow_succ]; omega
          have hju : ¬ InBlock (index + 2 ^ f) f j := by unfold InBlock at hj ⊢; omega
          exact ((h₁.covered j).mp hc).elim (hf.uncovered j hjf) hju }
    obtain ⟨L₂, h₂, hfl⟩ := ih h₁.inv hlow (by omega)
    refine ⟨L₂, (h₁.trans h₂).congr (fun j => ?_) ?_, hfl⟩
    · have := Nat.pow_le_pow_right Nat.zero_lt_two (show order ≤ f by omega)
      unfold InBlock
      rw [Nat.pow_succ]
      omega
    · have := Nat.pow_le_pow_right Nat.zero_lt_two (show order ≤ f by omega)
      rw [Nat.pow_succ]
      omega

end Split

/-! ## buddy_alloc -/

/-- buddy_alloc handed out the block [i, i + 2^k): the block lay inside the free
blocks, it is now an allocated block headed by i, it left the free pages, and
no page outside the old free blocks changed. -/
structure Allocated (a : BuddyAllocator) (L : Nat → List Nat) (i k : Nat)
    (a' : BuddyAllocator) (L' : Nat → List Nat) : Prop where
  inv : BuddyInv a' L'
  head : (a'.pages i).state = .allocHead ∧ (a'.pages i).order = k
  was_free : ∀ j, InBlock i k j → Covered L j
  covered : ∀ j, Covered L' j ↔ Covered L j ∧ ¬ InBlock i k j
  freePages : a'.freePages + 2 ^ k = a.freePages
  frame : ∀ j, ¬ Covered L j → a'.pages j = a.pages j
  tags : ∀ j, (a'.pages j).tag = (a.pages j).tag
  shape : a'.pageCount = a.pageCount ∧ a'.maxOrder = a.maxOrder

section Alloc

variable {a : BuddyAllocator} {L : Nat → List Nat}

/-- The search loop of buddy_alloc, with fuel for the orders up to max_order:
it skips only empty lists and stops at a non-empty one or above max_order. -/
theorem findFreeOrder_spec (h : BuddyInv a L) (fuel : Nat) :
    ∀ found, a.maxOrder + 1 ≤ found + fuel →
      found ≤ findFreeOrder a fuel found ∧
      (∀ k, found ≤ k → k < findFreeOrder a fuel found → L k = []) ∧
      (findFreeOrder a fuel found ≤ a.maxOrder → L (findFreeOrder a fuel found) ≠ []) := by
  induction fuel with
  | zero =>
    intro found hfuel
    simp only [findFreeOrder]
    exact ⟨le_refl _, fun k hk hk' => absurd hk' (by omega), fun hle => absurd hle (by omega)⟩
  | succ fuel ih =>
    intro found hfuel
    simp only [findFreeOrder]
    split_ifs with hg
    · -- the list at found is empty: continue upwards
      obtain ⟨hge, hskip, hhit⟩ := ih (found + 1) (by omega)
      refine ⟨by omega, fun k hk hk' => ?_, hhit⟩
      rcases Nat.eq_or_lt_of_le hk with hkf | hk
      · rw [← hkf]
        exact (h.lists.freeHead_eq_none_iff found).mp hg.2
      · exact hskip k hk hk'
    · refine ⟨le_refl _, fun k hk hk' => absurd hk' (by omega), fun hle hnil => hg ⟨hle, ?_⟩⟩
      exact (h.lists.freeHead_eq_none_iff found).mpr hnil

/-- The allocation path once a block x of order found ≥ order has been chosen
from its free list. -/
theorem allocated_of_found (h : BuddyInv a L) {x found order : Nat} (hx : x ∈ L found)
    (ho : order ≤ found) :
    ∃ L', Allocated a L x order
      (markAllocated (splitBlock x order found (listRemove a x found)) x order) L' := by
  have h₁ := h.remove hx
  obtain ⟨L₂, h₂, hf₂⟩ := splitBlock_added found h₁ (h.floating_remove hx) ho
  have hpow := Nat.pow_le_pow_right Nat.zero_lt_two ho
  -- the requested block lies in the chosen one
  have hsub : ∀ j, InBlock x order j → InBlock x found j := fun j hj => by
    unfold InBlock at hj ⊢
    omega
  have hcovf : ∀ j, InBlock x found j → Covered L j := fun j hj => ⟨found, x, hx, hj⟩
  refine ⟨L₂,
    { inv := h₂.inv.mark hf₂
      head := by simp
      was_free := fun j hj => hcovf j (hsub j hj)
      covered := fun j => ?_
      freePages := ?_
      frame := fun j hj => ?_
      tags := fun j => by simp
      shape := by simp }⟩
  · rw [h₂.covered, h.covered_eraseAt hx]
    by_cases hjo : InBlock x order j
    · simp only [hjo, hsub j hjo, not_true_eq_false, and_false, false_or]
    · by_cases hjf : InBlock x found j
      · simp only [hjf, hcovf j hjf, hjo, not_false_eq_true, and_self, or_true]
      · simp only [hjf, hjo, not_false_eq_true, and_true, or_false]
  · have hsum := freeTotal_eraseAt hx (h.order_le_of_mem hx)
    rw [markAllocated_freePages, h₂.freePages, listRemove_freePages, orderUnits_eq,
      h.freePages_eq]
    omega
  · have hjf : ¬ InBlock x found j := fun hjf => hj (hcovf j hjf)
    have hjo : ¬ InBlock x order j := fun hjo => hjf (hsub j hjo)
    have hj₁ : ¬ Covered (eraseAt L found x) j :=
      fun hc => hj ((h.covered_eraseAt hx j).mp hc).1
    rw [markAllocated_pages_of_not_mem _ _ _ hjo, h₂.frame j hj₁ fun hs => hjf hs.1]
    exact h.remove_pages_of_not_mem hx fun hjL => hj ⟨found, j, hjL, inBlock_self j found⟩

/-- buddy_alloc either fails, changing nothing, when the order is above
max_order or no free list at or above the order holds a block, or hands out a
block of the requested order. -/
theorem buddyAlloc_spec (h : BuddyInv a L) (order : Nat) :
    ((buddyAlloc a order).2 = none ∧ (buddyAlloc a order).1 = a ∧
        (a.maxOrder < order ∨ ∀ k, order ≤ k → L k = [])) ∨
      ∃ i L', (buddyAlloc a order).2 = some i ∧ Allocated a L i order (buddyAlloc a order).1 L' := by
  obtain ⟨hge, hskip, hhit⟩ := findFreeOrder_spec h (a.maxOrder + 1 - order) order (by omega)
  unfold buddyAlloc
  generalize findFreeOrder a (a.maxOrder + 1 - order) order = found at hge hskip hhit ⊢
  by_cases ho : order > a.maxOrder
  · rw [if_pos ho]
    exact Or.inl ⟨rfl, rfl, Or.inl ho⟩
  rw [if_neg ho]
  by_cases hfd : found > a.maxOrder
  · -- every list from the order up is empty
    rw [if_pos hfd]
    refine Or.inl ⟨rfl, rfl, Or.inr fun k hk => ?_⟩
    by_cases hkm : k ≤ a.maxOrder
    · exact hskip k hk (by omega)
    · exact h.high_nil k (by omega)
  rw [if_neg hfd]
  obtain ⟨x, hx⟩ : ∃ x, (L found).head? = some x := by
    cases hl : L found with
    | nil => exact absurd hl (hhit (by omega))
    | cons y ys => exact ⟨y, rfl⟩
  rw [(h.lists.head_toNat hx).2]
  obtain ⟨L', hL'⟩ := allocated_of_found h (List.mem_of_mem_head? hx) hge
  exact Or.inr ⟨x, L', rfl, hL'⟩

/-- buddy_alloc never writes the reserved field. -/
@[simp] theorem buddyAlloc_reserved (a : BuddyAllocator) (order j : Nat) :
    ((buddyAlloc a order).1.pages j).reserved = (a.pages j).reserved := by
  unfold buddyAlloc
  dsimp only
  split_ifs <;> simp

end Alloc

end Uinxed.Buddy
