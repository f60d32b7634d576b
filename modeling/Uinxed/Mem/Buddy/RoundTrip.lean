/-
  Mem/Buddy/RoundTrip.lean --- buddy_free undoes buddy_alloc, and a refused
  call changes nothing.

  Under the invariant the free blocks are determined by the free pages: a
  fully free aligned block of order at most max_order lies inside one free
  block (within_free_block), because two free halves of one block would be
  free buddies of each other, which coalescing rules out.  So two invariant
  states with the same free pages have the same free blocks
  (mem_of_covered).  buddy_alloc takes the pages of one block out of the free
  pages and buddy_free puts them back, so the free blocks come back as they
  were, whatever order the block was split from; only their places in the
  free lists may differ.

  buddy_add_range, buddy_free and buddy_trim_allocation make every check
  before their first write.  buddy_trim_allocation ends with a
  buddy_add_range of the tail of the block it has just rewritten; the tail
  lies inside the managed pages and is all reserved, so that call never
  fails and trimming fails only before it has written anything.
-/
import Uinxed.Mem.Buddy.System

set_option autoImplicit false

namespace Uinxed.Buddy

open AlignedBlock

namespace BuddyInv

variable {a a' : BuddyAllocator} {L L' : Nat → List Nat}

/-- A page heads a free block of order k exactly when it is on free list k. -/
theorem freeHead_iff (h : BuddyInv a L) (j k : Nat) :
    (a.pages j).state = .freeHead ∧ (a.pages j).order = k ↔ j ∈ L k := by
  constructor
  · rintro ⟨hs, rfl⟩
    obtain ⟨k', hk'⟩ := (h.lists.head_iff j).mp hs
    rw [h.lists.order_eq k' j hk']
    exact hk'
  · intro hj
    exact ⟨h.lists.state_of_mem hj, h.lists.order_eq k j hj⟩

/-- An aligned block of order at most max_order whose pages are all free lies
inside one free block of at least its order. -/
theorem within_free_block (h : BuddyInv a L) :
    ∀ k i, k ≤ a.maxOrder → i % 2 ^ k = 0 → (∀ j, InBlock i k j → Covered L j) →
      ∃ k' c, c ∈ L k' ∧ k ≤ k' ∧ ∀ j, InBlock i k j → InBlock c k' j := by
  intro k
  induction k with
  | zero =>
    intro i _ _ hcov
    obtain ⟨k', c, hc, hic⟩ := hcov i (inBlock_self i 0)
    refine ⟨k', c, hc, Nat.zero_le _, fun j hj => ?_⟩
    -- a block of order 0 is the page i alone
    have hji : j = i := by
      unfold InBlock at hj
      omega
    exact hji ▸ hic
  | succ k ih =>
    intro i hk hal hcov
    obtain ⟨hal₁, heven⟩ := mod_two_pow_succ_eq_zero_iff.mp hal
    have hup : (i + 2 ^ k) % 2 ^ k = 0 := by rw [Nat.add_mod_right]; exact hal₁
    have hpow : 2 ^ (k + 1) = 2 ^ k + 2 ^ k := by rw [Nat.pow_succ]; omega
    have hmid : InBlock i (k + 1) (i + 2 ^ k) := ⟨by omega, by omega⟩
    -- each half lies inside one free block
    obtain ⟨k₁, c₁, hc₁, hk₁, hin₁⟩ := ih i (by omega) hal₁ fun j hj =>
      hcov j ⟨hj.1, by unfold InBlock at hj; omega⟩
    obtain ⟨k₂, c₂, hc₂, hk₂, hin₂⟩ := ih (i + 2 ^ k) (by omega) hup fun j hj =>
      hcov j ⟨by unfold InBlock at hj; omega, by unfold InBlock at hj; omega⟩
    by_cases h₁ : k + 1 ≤ k₁
    · -- the lower half's free block is large enough to hold the whole block
      exact ⟨k₁, c₁, hc₁, h₁, fun j hj =>
        inBlock_of_overlap (h.free_block k₁ c₁ hc₁).1 hal h₁ (hin₁ i (inBlock_self i k)) (inBlock_self i _) hj⟩
    by_cases h₂ : k + 1 ≤ k₂
    · exact ⟨k₂, c₂, hc₂, h₂, fun j hj =>
        inBlock_of_overlap (h.free_block k₂ c₂ hc₂).1 hal h₂ (hin₂ _ (inBlock_self _ k)) hmid hj⟩
    -- otherwise the halves are themselves free blocks of order k, and buddies
    have hk₁' : k₁ = k := by omega
    have hk₂' : k₂ = k := by omega
    rw [hk₁'] at hc₁ hin₁
    rw [hk₂'] at hc₂ hin₂
    have he₁ : c₁ = i := eq_of_inBlock_of_mod (h.free_block k c₁ hc₁).1 hal₁ (hin₁ i (inBlock_self i k))
    have he₂ : c₂ = i + 2 ^ k := eq_of_inBlock_of_mod (h.free_block k c₂ hc₂).1 hup (hin₂ _ (inBlock_self _ k))
    rw [he₁] at hc₁
    rw [he₂, ← xor_two_pow_of_even hal₁ heven] at hc₂
    exact absurd hc₂ (h.coalesced k i hc₁ (by omega))

/-- A free block of one invariant state is a free block of every other with
the same free pages and the same maximal order. -/
theorem mem_of_covered (h : BuddyInv a L) (h' : BuddyInv a' L') (hmax : a'.maxOrder = a.maxOrder)
    (hcov : ∀ j, Covered L j ↔ Covered L' j) {k i : Nat} (hi : i ∈ L k) : i ∈ L' k := by
  have hal := (h.free_block k i hi).1
  -- i's block lies inside a free block c of a'
  obtain ⟨k', c, hc, hkk', hin⟩ := h'.within_free_block k i (hmax ▸ h.order_le_of_mem hi) hal
    fun j hj => (hcov j).mp ⟨k, i, hi, hj⟩
  -- which lies inside a free block d of a
  obtain ⟨k'', d, hd, hk'k'', hin'⟩ := h.within_free_block k' c (hmax ▸ h'.order_le_of_mem hc)
    (h'.free_block k' c hc).1 fun j hj => (hcov j).mpr ⟨k', c, hc, hj⟩
  -- d shares page i with i's own block, so it is that block, and the orders agree
  have hdi : d = i := h.head_eq_of_overlap hd hi (hin' i (hin i (inBlock_self i k))) (inBlock_self i k)
  rw [hdi] at hd
  have hk'' : k'' = k := h.lists.eq_of_mem hd hi
  have hk' : k' = k := by omega
  rw [hk'] at hc hin
  have hci : c = i := eq_of_inBlock_of_mod (h'.free_block k c hc).1 hal (hin i (inBlock_self i k))
  exact hci ▸ hc

/-- Two invariant states with the same free pages have the same free blocks
and the same free counts. -/
theorem lists_of_covered (h : BuddyInv a L) (h' : BuddyInv a' L') (hmax : a'.maxOrder = a.maxOrder)
    (hcov : ∀ j, Covered L j ↔ Covered L' j) :
    (∀ k i, i ∈ L' k ↔ i ∈ L k) ∧ a'.freeCount = a.freeCount := by
  have hmem : ∀ k i, i ∈ L' k ↔ i ∈ L k := fun k i =>
    ⟨h'.mem_of_covered h hmax.symm (fun j => (hcov j).symm), h.mem_of_covered h' hmax hcov⟩
  refine ⟨hmem, funext fun k => ?_⟩
  rw [h'.lists.count, h.lists.count]
  exact ((List.perm_ext_iff_of_nodup (h'.lists.isList k).nodup (h.lists.isList k).nodup).mpr (hmem k)).length_eq

end BuddyInv

/-! ## buddy_free after buddy_alloc -/

variable {a : BuddyAllocator} {L : Nat → List Nat}

theorem buddyFree_maxOrder (b : BuddyAllocator) (index order : Nat) :
    (buddyFree b index order).1.maxOrder = b.maxOrder := by
  unfold buddyFree
  dsimp only
  split_ifs <;> simp [addBlock]

/-- From a state that keeps the invariant, freeing the block buddy_alloc just
returned succeeds and restores the free blocks (which pages head a free block,
and of which order), the free counts and the free pages. -/
theorem buddyFree_after_buddyAlloc (h : BuddyInv a L) {order i : Nat}
    (halloc : (buddyAlloc a order).2 = some i) :
    (buddyFree (buddyAlloc a order).1 i order).2 = 0 ∧
      (∀ j k, ((buddyFree (buddyAlloc a order).1 i order).1.pages j).state = .freeHead ∧
          ((buddyFree (buddyAlloc a order).1 i order).1.pages j).order = k ↔
        (a.pages j).state = .freeHead ∧ (a.pages j).order = k) ∧
      (buddyFree (buddyAlloc a order).1 i order).1.freeCount = a.freeCount ∧
      (buddyFree (buddyAlloc a order).1 i order).1.freePages = a.freePages := by
  rcases buddyAlloc_spec h order with ⟨hnone, -, -⟩ | ⟨x, L₁, hx, hA⟩
  · rw [hnone] at halloc
    cases halloc
  rw [hx, Option.some.injEq] at halloc
  subst halloc
  rcases buddyFree_spec hA.inv x order with ⟨-, -, hbad⟩ | ⟨hcode, -, -, L₂, hF⟩
  · exact absurd hA.head hbad
  -- the pages handed out were free, and they are free again
  have hcov : ∀ j, Covered L j ↔ Covered L₂ j := by
    intro j
    rw [hF.covered, hA.covered]
    by_cases hj : InBlock x order j
    · simp only [hj, hA.was_free j hj, not_true_eq_false, and_false, or_true]
    · simp only [hj, not_false_eq_true, and_true, or_false]
  have hmax : (buddyFree (buddyAlloc a order).1 x order).1.maxOrder = a.maxOrder := by
    rw [buddyFree_maxOrder, hA.shape.2]
  obtain ⟨hmem, hcount⟩ := h.lists_of_covered hF.inv hmax hcov
  refine ⟨hcode, fun j k => ?_, hcount, ?_⟩
  · rw [hF.inv.freeHead_iff, h.freeHead_iff]
    exact hmem k j
  · rw [hF.freePages]
    exact hA.freePages

/-- On four pages added as one block of order 2, an allocation of order 0
splits the block into pages 1, 2-3 and 0; freeing page 0 merges them back. -/
theorem buddyFree_after_buddyAlloc_split :
    ∃ a, buddyInit 4 2 = some a ∧
      (buddyFree (buddyAlloc (runOps a [.addRange 0 4]) 0).1 0 0).2 = 0 ∧
      (∀ j k, ((buddyFree (buddyAlloc (runOps a [.addRange 0 4]) 0).1 0 0).1.pages j).state = .freeHead ∧
          ((buddyFree (buddyAlloc (runOps a [.addRange 0 4]) 0).1 0 0).1.pages j).order = k ↔
        ((runOps a [.addRange 0 4]).pages j).state = .freeHead ∧ ((runOps a [.addRange 0 4]).pages j).order = k) ∧
      (buddyFree (buddyAlloc (runOps a [.addRange 0 4]) 0).1 0 0).1.freeCount = (runOps a [.addRange 0 4]).freeCount ∧
      (buddyFree (buddyAlloc (runOps a [.addRange 0 4]) 0).1 0 0).1.freePages = (runOps a [.addRange 0 4]).freePages := by
  obtain ⟨L, hL⟩ := runOps_inv [.addRange 0 4] (buddyInit_inv (show buddyInit 4 2 = some _ from rfl)) (by decide)
  exact ⟨_, rfl, buddyFree_after_buddyAlloc hL (by decide)⟩

/-! ## Refused calls -/

/-- buddy_add_range accepts a non-empty range of reserved pages inside the
managed pages. -/
theorem buddyAddRange_of_reserved (b : BuddyAllocator) {start count : Nat} (hc : 0 < count)
    (hr : start + count ≤ b.pageCount)
    (hres : ∀ j, start ≤ j → j < start + count → (b.pages j).state = .reserved) :
    (buddyAddRange b start count).2 = 0 := by
  have hany : ((List.range' start count).any fun j => (b.pages j).state ≠ .reserved) = false := by
    refine List.any_eq_false.mpr fun j hj => ?_
    obtain ⟨hj₁, hj₂⟩ := List.mem_range'_1.mp hj
    simpa using hres j hj₁ hj₂
  unfold buddyAddRange
  rw [if_neg (by omega), hany, if_neg Bool.false_ne_true]

/-- The checks of buddy_trim_allocation, in the order the source makes them. -/
def trimChecks (b : BuddyAllocator) (index order keepUnits : Nat) : Prop :=
  order ≤ b.maxOrder ∧ index < b.pageCount ∧ 0 < keepUnits ∧ keepUnits ≤ 2 ^ order ∧
    2 ^ order ≤ b.pageCount - index ∧ allocatedBlockAt b index order = true

/-- Past its checks buddy_trim_allocation returns 0: the tail it hands to
buddy_add_range is inside the managed pages and was just reset to reserved. -/
theorem buddyTrimAllocation_of_checks (b : BuddyAllocator) {index order keepUnits : Nat}
    (hchk : trimChecks b index order keepUnits) : (buddyTrimAllocation b index order keepUnits).2 = 0 := by
  obtain ⟨hord, hidx, hk0, hk, hfit, hblock⟩ := hchk
  have hu : orderUnits order = 2 ^ order := rfl
  have hargs : ¬(order > b.maxOrder ∨ index ≥ b.pageCount) := by omega
  have hkeep : ¬(keepUnits = 0 ∨ keepUnits > orderUnits order ∨ orderUnits order > b.pageCount - index) := by
    omega
  unfold buddyTrimAllocation
  rw [if_neg hargs]
  dsimp only
  rw [if_neg hkeep, hblock, Bool.not_true, if_neg Bool.false_ne_true]
  split_ifs with hlt
  · refine buddyAddRange_of_reserved _ (by omega) (by simp; omega) fun j hj₁ hj₂ => ?_
    rw [release_pages b index (orderUnits order) keepUnits (by omega) j, if_neg (by omega),
      if_pos ⟨by omega, by omega⟩]
    rfl
  · rfl

/-- A buddy_trim_allocation whose checks fail returns -1 before any write. -/
theorem buddyTrimAllocation_of_not_checks (b : BuddyAllocator) {index order keepUnits : Nat}
    (hchk : ¬ trimChecks b index order keepUnits) : buddyTrimAllocation b index order keepUnits = (b, -1) := by
  have hu : orderUnits order = 2 ^ order := rfl
  unfold trimChecks at hchk
  unfold buddyTrimAllocation
  dsimp only
  split_ifs with h₁ h₂ h₃
  · rfl
  · rfl
  · rfl
  all_goals
    exfalso
    exact hchk ⟨by omega, by omega, by omega, by omega, by omega, by simpa using h₃⟩

/-- A call of buddy_add_range, buddy_free or buddy_trim_allocation that
returns -1 leaves the allocator as it was, page array, free lists and counters
alike; buddy_trim_allocation returns -1 exactly when one of its checks fails,
so never once it has begun to rewrite the block. -/
theorem buddy_failed_calls_change_nothing (b : BuddyAllocator) :
    (∀ start count, (buddyAddRange b start count).2 = -1 → (buddyAddRange b start count).1 = b) ∧
      (∀ index order, (buddyFree b index order).2 = -1 → (buddyFree b index order).1 = b) ∧
      (∀ index order keepUnits, (buddyTrimAllocation b index order keepUnits).2 = -1 →
        (buddyTrimAllocation b index order keepUnits).1 = b) ∧
      (∀ index order keepUnits, (buddyTrimAllocation b index order keepUnits).2 = -1 ↔
        ¬ trimChecks b index order keepUnits) := by
  refine ⟨fun start count hr => ?_, fun index order hr => ?_, fun index order keepUnits hr => ?_,
    fun index order keepUnits => ⟨fun hr hchk => ?_, fun hchk => ?_⟩⟩
  · unfold buddyAddRange at hr ⊢
    split_ifs at hr ⊢
    · rfl
    · rfl
  · unfold buddyFree at hr ⊢
    dsimp only at hr ⊢
    split_ifs at hr ⊢
    · rfl
    · rfl
    · rfl
  · -- past the checks the call returns 0, so the checks failed
    by_cases hchk : trimChecks b index order keepUnits
    · rw [buddyTrimAllocation_of_checks b hchk] at hr
      cases hr
    · rw [buddyTrimAllocation_of_not_checks b hchk]
  · rw [buddyTrimAllocation_of_checks b hchk] at hr
    cases hr
  · rw [buddyTrimAllocation_of_not_checks b hchk]

end Uinxed.Buddy
