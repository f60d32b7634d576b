/-
  Mem/Buddy/Free.lean --- buddy_free and buddy_trim_allocation keep the
  invariant.

  Both entry points accept only an allocated block: a head page of the given
  order followed by its tail pages.  Both then reset every page of the block
  (reserved, order 0, tag 0); buddy_trim_allocation next turns the first
  keep_units pages into allocated heads of order 0, and buddy_free is the same
  rewrite with nothing kept.  Because an allocated block is disjoint from every
  free block and every other allocated block, the rewrite keeps the invariant
  and leaves the rest of the block fresh.  buddy_free hands the whole block to
  add_block, buddy_trim_allocation the rest to buddy_add_range, which accepts
  it.
-/
import Uinxed.Mem.Buddy.Alloc

set_option autoImplicit false

namespace Uinxed.Buddy

open AlignedBlock BuddyAllocator

/-! ## Releasing the pages of an allocated block -/

section Release

variable (a : BuddyAllocator) (i units keep : Nat)

/-- The pages after the reset loop and the keep loop, for keep ≤ units. -/
theorem release_pages (hk : keep ≤ units) (j : Nat) :
    ((a.setPages i units clearPage).setPages i keep keepPage).pages j =
      if i ≤ j ∧ j < i + keep then keepPage (clearPage (a.pages j))
      else if i ≤ j ∧ j < i + units then clearPage (a.pages j) else a.pages j := by
  simp only [setPages_pages]
  split_ifs <;> first | rfl | (exfalso; omega)

@[simp] theorem release_fields :
    ((a.setPages i units clearPage).setPages i keep keepPage).pageCount = a.pageCount ∧
      ((a.setPages i units clearPage).setPages i keep keepPage).maxOrder = a.maxOrder ∧
      ((a.setPages i units clearPage).setPages i keep keepPage).freePages = a.freePages ∧
      ((a.setPages i units clearPage).setPages i keep keepPage).freeHead = a.freeHead ∧
      ((a.setPages i units clearPage).setPages i keep keepPage).freeCount = a.freeCount := by
  simp

variable {i keep} {k : Nat}

/-- Outside the block nothing changed. -/
theorem release_pages_of_not_mem (hk : keep ≤ 2 ^ k) {j : Nat} (hj : ¬ InBlock i k j) :
    ((a.setPages i (2 ^ k) clearPage).setPages i keep keepPage).pages j = a.pages j := by
  unfold InBlock at hj
  rw [release_pages a i (2 ^ k) keep hk, if_neg (by omega), if_neg (by omega)]

/-- Inside the block every page is a kept head of order 0 or reserved, with tag 0. -/
theorem release_of_mem (hk : keep ≤ 2 ^ k) {j : Nat} (hj : InBlock i k j) :
    (((a.setPages i (2 ^ k) clearPage).setPages i keep keepPage).pages j).state =
        (if i ≤ j ∧ j < i + keep then .allocHead else .reserved) ∧
      (((a.setPages i (2 ^ k) clearPage).setPages i keep keepPage).pages j).order = 0 ∧
      (((a.setPages i (2 ^ k) clearPage).setPages i keep keepPage).pages j).tag = 0 := by
  unfold InBlock at hj
  rw [release_pages a i (2 ^ k) keep hk]
  split_ifs <;> exact ⟨rfl, rfl, rfl⟩

/-- No link changes. -/
theorem release_links (hk : keep ≤ 2 ^ k) :
    nextOf ((a.setPages i (2 ^ k) clearPage).setPages i keep keepPage) = nextOf a ∧
      prevOf ((a.setPages i (2 ^ k) clearPage).setPages i keep keepPage) = prevOf a := by
  constructor
  · funext j
    unfold nextOf
    rw [release_pages a i (2 ^ k) keep hk]
    split_ifs <;> rfl
  · funext j
    unfold prevOf
    rw [release_pages a i (2 ^ k) keep hk]
    split_ifs <;> rfl

end Release

namespace BuddyInv

variable {a : BuddyAllocator} {L : Nat → List Nat} {i k keep : Nat}

/-- Rewriting an allocated block of order k as keep allocated pages of order 0
followed by reserved pages keeps the invariant. -/
theorem release (h : BuddyInv a L) (hx : (a.pages i).state = .allocHead)
    (hko : (a.pages i).order = k) (hk : keep ≤ 2 ^ k) :
    BuddyInv ((a.setPages i (2 ^ k) clearPage).setPages i keep keepPage) L := by
  have htails : ∀ j, InBlock i k j → j ≠ i → (a.pages j).state = .allocTail := by
    rw [← hko]
    exact (h.alloc_block i hx).tails
  have hrange : i + 2 ^ k ≤ a.pageCount := hko ▸ (h.alloc_block i hx).in_range
  have hunc : ∀ j, InBlock i k j → ¬ Covered L j :=
    fun j hj => h.not_covered_of_alloc hx (hko ▸ hj)
  have hnotfree : ∀ j, InBlock i k j →
      (((a.setPages i (2 ^ k) clearPage).setPages i keep keepPage).pages j).state ≠ .freeHead := by
    intro j hj
    rw [(release_of_mem a hk hj).1]
    split_ifs <;> decide
  exact
  { lists :=
      { isList := fun k' => by
          rw [(release_links a hk).1, (release_links a hk).2, (release_fields a i (2 ^ k) keep).2.2.2.1]
          exact h.lists.isList k'
        count := fun k' => by rw [(release_fields a i (2 ^ k) keep).2.2.2.2]; exact h.lists.count k'
        head_iff := fun j => by
          by_cases hj : InBlock i k j
          · exact iff_of_false (hnotfree j hj)
              fun ⟨k', hk'⟩ => hunc j hj ⟨k', j, hk', inBlock_self j k'⟩
          · rw [release_pages_of_not_mem a hk hj]
            exact h.lists.head_iff j
        order_eq := fun k' j hj => by
          rw [release_pages_of_not_mem a hk fun hb => hunc j hb ⟨k', j, hj, inBlock_self j k'⟩]
          exact h.lists.order_eq k' j hj }
    pageCount_pos := by simpa using h.pageCount_pos
    pageCount_le := by simpa using h.pageCount_le
    maxOrder_le := by simpa using h.maxOrder_le
    high_nil := by simpa using h.high_nil
    freePages_eq := by simpa using h.freePages_eq
    free_block := by simpa using h.free_block
    free_interior := fun k' c j hc hj hjc => by
      rw [release_pages_of_not_mem a hk fun hb => hunc j hb ⟨k', c, hc, hj⟩]
      exact h.free_interior k' c j hc hj hjc
    coalesced := by simpa using h.coalesced
    alloc_block := fun x hx' => by
      by_cases hxb : InBlock i k x
      · -- a kept page: an allocated block of order 0
        have ho := (release_of_mem a hk hxb).2.1
        refine ⟨by rw [ho]; exact Nat.zero_le _, by rw [ho]; exact Nat.mod_one x,
          by rw [ho]; simp only [pow_zero, release_fields]; unfold InBlock at hxb; omega,
          fun j hj hjx => ?_⟩
        rw [ho] at hj
        unfold InBlock at hj
        omega
      · -- an old block, disjoint from this one
        have hpx := release_pages_of_not_mem a hk hxb
        rw [hpx] at hx'
        have hblk' := h.alloc_block x hx'
        refine ⟨by rw [hpx]; simpa using hblk'.order_le, by rw [hpx]; exact hblk'.aligned,
          by rw [hpx]; simpa using hblk'.in_range, fun j hj hjx => ?_⟩
        rw [hpx] at hj
        have hjb : ¬ InBlock i k j := fun hb =>
          hxb (h.alloc_head_eq_of_overlap hx' hx hj (hko ▸ hb) ▸ inBlock_self i k)
        rw [release_pages_of_not_mem a hk hjb]
        exact hblk'.tails j hj hjx
    tail_owned := fun j hj => by
      have hjb : ¬ InBlock i k j := fun hb => by
        rw [(release_of_mem a hk hb).1] at hj
        split_ifs at hj
      rw [release_pages_of_not_mem a hk hjb] at hj
      obtain ⟨x, hx', hin', hjx⟩ := h.tail_owned j hj
      have hxb : ¬ InBlock i k x := by
        intro hb
        by_cases hxi : x = i
        · rw [hxi, hko] at hin'
          exact hjb hin'
        · have ht := htails x hb hxi
          rw [hx'] at ht
          cases ht
      rw [← release_pages_of_not_mem a hk hxb] at hx' hin'
      exact ⟨x, hx', hin', hjx⟩
    cleared := fun x hx' => by
      by_cases hxb : InBlock i k x
      · exact (release_of_mem a hk hxb).2.2
      · rw [release_pages_of_not_mem a hk hxb] at hx' ⊢
        exact h.cleared x hx' }

/-- After the rewrite the pages of the block past the kept ones are fresh. -/
theorem release_fresh (h : BuddyInv a L) (hx : (a.pages i).state = .allocHead)
    (hko : (a.pages i).order = k) (hk : keep ≤ 2 ^ k) :
    Fresh ((a.setPages i (2 ^ k) clearPage).setPages i keep keepPage) L (i + keep) (2 ^ k - keep) := by
  intro j hj₁ hj₂
  have hb : InBlock i k j := ⟨by omega, by omega⟩
  refine ⟨?_, h.not_covered_of_alloc hx (hko ▸ hb)⟩
  rw [(release_of_mem a hk hb).1, if_neg (by omega)]

end BuddyInv

/-! ## buddy_free -/

section Free

variable {a : BuddyAllocator} {L : Nat → List Nat}

/-- The block checks of buddy_free and buddy_trim_allocation: page index heads
an allocated block of this order. -/
theorem allocatedBlockAt_head {index order : Nat} (hab : allocatedBlockAt a index order = true) :
    (a.pages index).state = .allocHead ∧ (a.pages index).order = order := by
  simp only [allocatedBlockAt, decide_eq_true_eq] at hab
  exact ⟨hab.1, hab.2.1⟩

/-- Under the invariant every head of an allocated block passes the argument and
block checks of buddy_free and buddy_trim_allocation. -/
theorem BuddyInv.block_checks (h : BuddyInv a L) {i k : Nat} (hx : (a.pages i).state = .allocHead)
    (hko : (a.pages i).order = k) :
    k ≤ a.maxOrder ∧ i + 2 ^ k ≤ a.pageCount ∧ i &&& (orderUnits k - 1) = 0 ∧
      allocatedBlockAt a i k = true := by
  obtain ⟨hle, hal, hin, htails⟩ := h.alloc_block i hx
  rw [hko] at hle hal hin htails
  refine ⟨hle, hin, ?_, ?_⟩
  · rw [orderUnits_eq, Nat.and_two_pow_sub_one_eq_mod]
    exact hal
  · simp only [allocatedBlockAt, decide_eq_true_eq]
    refine ⟨hx, hko, List.all_eq_true.mpr fun j hj => ?_⟩
    obtain ⟨hj₁, hj₂⟩ := List.mem_range'_1.mp hj
    rw [orderUnits_eq] at hj₂
    simpa using htails j ⟨by omega, by omega⟩ (by omega)

/-- buddy_free refuses, changing nothing, exactly when page index does not head
an allocated block of the given order; otherwise it frees the block and its
pages are added back as free pages. -/
theorem buddyFree_spec (h : BuddyInv a L) (index order : Nat) :
    ((buddyFree a index order).2 = -1 ∧ (buddyFree a index order).1 = a ∧
        ¬ ((a.pages index).state = .allocHead ∧ (a.pages index).order = order)) ∨
      ((buddyFree a index order).2 = 0 ∧ (a.pages index).state = .allocHead ∧
        (a.pages index).order = order ∧
        ∃ L', Added a L (InBlock index order) (2 ^ order) (buddyFree a index order).1 L') := by
  have hpos := Nat.two_pow_pos order
  unfold buddyFree
  dsimp only
  split_ifs with h₁ h₂ h₃
  -- each refusal contradicts one of the checks an allocated head passes
  · exact Or.inl ⟨rfl, rfl, fun ⟨hx, hko⟩ => by have := h.block_checks hx hko; omega⟩
  · refine Or.inl ⟨rfl, rfl, fun ⟨hx, hko⟩ => ?_⟩
    have := h.block_checks hx hko
    rw [orderUnits_eq] at h₂ this
    omega
  · refine Or.inl ⟨rfl, rfl, fun ⟨hx, hko⟩ => ?_⟩
    rw [(h.block_checks hx hko).2.2.2] at h₃
    exact absurd h₃ Bool.false_ne_true
  -- the checks found an allocated block; with nothing kept the rewrite is the reset
  obtain ⟨hx, hko⟩ := allocatedBlockAt_head (by simpa using h₃)
  have hal : index % 2 ^ order = 0 := hko ▸ (h.alloc_block index hx).aligned
  have hir : index + 2 ^ order ≤ a.pageCount := hko ▸ (h.alloc_block index hx).in_range
  have hle : order ≤ a.maxOrder := hko ▸ (h.alloc_block index hx).order_le
  have hrel : BuddyInv (a.setPages index (2 ^ order) clearPage) L :=
    h.release hx hko (Nat.zero_le _)
  have hf : Floating (a.setPages index (2 ^ order) clearPage) L index order :=
    (h.release_fresh hx hko (Nat.zero_le _)).floating hal (by omega) (by simpa using hir)
      (by simpa using hle)
  obtain ⟨L', hL'⟩ := addBlock_added hrel hf
  exact Or.inr ⟨rfl, hx, hko, L', hL'.pre (by simp)
    fun j hj => release_pages_of_not_mem a (Nat.zero_le _) hj⟩

end Free

/-! ## buddy_trim_allocation -/

/-- buddy_trim_allocation shrank the allocated block [i, i + 2^k) to keep
allocated pages of order 0 and returned the rest of it to the free pages. -/
structure Trimmed (a : BuddyAllocator) (L : Nat → List Nat) (i k keep : Nat)
    (a' : BuddyAllocator) (L' : Nat → List Nat) : Prop where
  inv : BuddyInv a' L'
  kept : ∀ j, i ≤ j → j < i + keep →
    (a'.pages j).state = .allocHead ∧ (a'.pages j).order = 0 ∧ (a'.pages j).tag = 0
  covered : ∀ j, Covered L' j ↔ Covered L j ∨ (i + keep ≤ j ∧ j < i + 2 ^ k)
  freePages : a'.freePages = a.freePages + (2 ^ k - keep)
  frame : ∀ j, ¬ Covered L j → ¬ InBlock i k j → a'.pages j = a.pages j

section Trim

variable {a : BuddyAllocator} {L : Nat → List Nat} {i k keep : Nat}

/-- Adding the rest of the block after the rewrite trims the block. -/
theorem trimmed_of_added (h : BuddyInv a L) (hx : (a.pages i).state = .allocHead)
    (hko : (a.pages i).order = k) (hk : keep ≤ 2 ^ k) {a' : BuddyAllocator}
    {L' : Nat → List Nat}
    (hadd : Added ((a.setPages i (2 ^ k) clearPage).setPages i keep keepPage) L
      (fun j => i + keep ≤ j ∧ j < i + keep + (2 ^ k - keep)) (2 ^ k - keep) a' L') :
    Trimmed a L i k keep a' L' where
  inv := hadd.inv
  kept := by
    intro j hj₁ hj₂
    have hb : InBlock i k j := ⟨hj₁, by omega⟩
    rw [hadd.frame j (h.not_covered_of_alloc hx (hko ▸ hb)) (by omega)]
    obtain ⟨hs, ho, ht⟩ := release_of_mem a hk hb
    exact ⟨by rw [hs, if_pos ⟨hj₁, hj₂⟩], ho, ht⟩
  covered := by
    intro j
    rw [hadd.covered]
    have : i + keep + (2 ^ k - keep) = i + 2 ^ k := by omega
    rw [this]
  freePages := by rw [hadd.freePages, (release_fields a i (2 ^ k) keep).2.2.1]
  frame := by
    intro j hj hjb
    rw [hadd.frame j hj fun hs => hjb ⟨by omega, by omega⟩]
    exact release_pages_of_not_mem a hk hjb

/-- buddy_trim_allocation either refuses, changing nothing, or trims an allocated
block of the given order to keep_units pages.  Its final buddy_add_range
always accepts the rest of the block. -/
theorem buddyTrimAllocation_spec (h : BuddyInv a L) (index order keepUnits : Nat) :
    ((buddyTrimAllocation a index order keepUnits).2 = -1 ∧
        (buddyTrimAllocation a index order keepUnits).1 = a ∧
        ¬ ((a.pages index).state = .allocHead ∧ (a.pages index).order = order ∧
          0 < keepUnits ∧ keepUnits ≤ 2 ^ order)) ∨
      ((buddyTrimAllocation a index order keepUnits).2 = 0 ∧
        (a.pages index).state = .allocHead ∧ (a.pages index).order = order ∧
        0 < keepUnits ∧ keepUnits ≤ 2 ^ order ∧
        ∃ L', Trimmed a L index order keepUnits (buddyTrimAllocation a index order keepUnits).1 L') := by
  have hpos := Nat.two_pow_pos order
  unfold buddyTrimAllocation
  dsimp only
  split_ifs with h₁ h₂ h₃ h₄
  · exact Or.inl ⟨rfl, rfl, fun ⟨hx, hko, _⟩ => by have := h.block_checks hx hko; omega⟩
  · refine Or.inl ⟨rfl, rfl, fun ⟨hx, hko, hk0, hk⟩ => ?_⟩
    have := h.block_checks hx hko
    rw [orderUnits_eq] at h₂
    omega
  · refine Or.inl ⟨rfl, rfl, fun ⟨hx, hko, _⟩ => ?_⟩
    rw [(h.block_checks hx hko).2.2.2] at h₃
    exact absurd h₃ Bool.false_ne_true
  all_goals
    obtain ⟨hx, hko⟩ := allocatedBlockAt_head (by simpa using h₃)
    have hir : index + 2 ^ order ≤ a.pageCount := hko ▸ (h.alloc_block index hx).in_range
    have hk : keepUnits ≤ 2 ^ order := by simp only [orderUnits_eq] at h₂; omega
    have hrel := h.release hx hko hk
  · -- part of the block is returned: buddy_add_range accepts it
    obtain ⟨hcode, L', hL'⟩ :=
      buddyAddRange_fresh hrel (by simp only [orderUnits_eq] at h₄; omega)
        (by simp only [release_fields]; omega) (h.release_fresh hx hko hk)
    exact Or.inr ⟨hcode, hx, hko, by omega, hk, L', trimmed_of_added h hx hko hk hL'⟩
  · -- the whole block is kept
    have hfull : keepUnits = 2 ^ order := by simp only [orderUnits_eq] at h₄; omega
    have hnone : ∀ j, ¬ (index + keepUnits ≤ j ∧ j < index + keepUnits + (2 ^ order - keepUnits)) :=
      fun j hj => by omega
    exact Or.inr ⟨rfl, hx, hko, by omega, hk, L, trimmed_of_added h hx hko hk
      ((Added.refl hrel hnone).congr (fun _ => Iff.rfl) (by omega))⟩

/-- buddy_free and buddy_trim_allocation never write the reserved field. -/
@[simp] theorem buddyFree_reserved (a : BuddyAllocator) (index order j : Nat) :
    ((buddyFree a index order).1.pages j).reserved = (a.pages j).reserved := by
  unfold buddyFree addBlock
  dsimp only
  split_ifs
  all_goals simp only [addBlockLoop_reserved, setPages_pages]
  split_ifs <;> rfl

@[simp] theorem buddyTrimAllocation_reserved (a : BuddyAllocator) (index order keepUnits j : Nat) :
    ((buddyTrimAllocation a index order keepUnits).1.pages j).reserved = (a.pages j).reserved := by
  unfold buddyTrimAllocation
  dsimp only
  split_ifs
  all_goals simp only [buddyAddRange_reserved, setPages_pages]
  all_goals split_ifs <;> rfl

end Trim

end Uinxed.Buddy
