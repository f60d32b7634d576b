/-
  Mem/Buddy/Add.lean --- add_block and buddy_add_range keep the invariant.

  Adding pages is described by Added a L S n a' L': from the allocator a with
  ghost free lists L, the pages S (n of them) were added and the result is a'
  with lists L'.  The invariant holds of a' and L', the free blocks of L' cover
  exactly the old free blocks and S, free_pages grew by n, and every page outside
  both is untouched.  Added composes, so the merge loop of add_block and the
  carving loop of buddy_add_range are proved one step at a time.

  add_block needs its block floating: reserved and outside every free block.
  buddy_add_range checks the first half of that and not the second, which is
  the defect shown in System.lean; here the second half is a hypothesis of the
  range, and buddy_trim_allocation discharges it for the tail it returns.
-/
import Uinxed.Mem.Buddy.Invariant
import Uinxed.Mem.Buddy.Ops

set_option autoImplicit false

namespace Uinxed.Buddy

open AlignedBlock

/-! ## Adding pages -/

/-- The pages S, n of them, were added to a with lists L, giving a' with lists
L'. -/
structure Added (a : BuddyAllocator) (L : Nat → List Nat) (S : Nat → Prop) (n : Nat)
    (a' : BuddyAllocator) (L' : Nat → List Nat) : Prop where
  inv : BuddyInv a' L'
  covered : ∀ j, Covered L' j ↔ Covered L j ∨ S j
  freePages : a'.freePages = a.freePages + n
  frame : ∀ j, ¬ Covered L j → ¬ S j → a'.pages j = a.pages j

namespace Added

variable {a a' a'' : BuddyAllocator} {L L' L'' : Nat → List Nat} {S S' : Nat → Prop}
  {n n' : Nat}

/-- Adding S and then S' adds both. -/
theorem trans (h₁ : Added a L S n a' L') (h₂ : Added a' L' S' n' a'' L'') :
    Added a L (fun j => S j ∨ S' j) (n + n') a'' L'' where
  inv := h₂.inv
  covered := by
    intro j
    rw [h₂.covered, h₁.covered, or_assoc]
  freePages := by rw [h₂.freePages, h₁.freePages, Nat.add_assoc]
  frame := by
    intro j hj hS
    have hj' : ¬ Covered L' j := by
      rw [h₁.covered]
      exact fun hc => hc.elim hj fun hs => hS (Or.inl hs)
    rw [h₂.frame j hj' fun hs => hS (Or.inr hs), h₁.frame j hj fun hs => hS (Or.inl hs)]

/-- Adding nothing. -/
theorem refl (h : BuddyInv a L) (hS : ∀ j, ¬ S j) : Added a L S 0 a L where
  inv := h
  covered := fun j => by simp only [hS, or_false]
  freePages := rfl
  frame := fun _ _ _ => rfl

/-- The added set and count may be restated. -/
theorem congr (h : Added a L S n a' L') (hS : ∀ j, S j ↔ S' j) (hn : n = n') :
    Added a L S' n' a' L' where
  inv := h.inv
  covered := fun j => by rw [h.covered, hS]
  freePages := hn ▸ h.freePages
  frame := fun j hj hs => h.frame j hj fun hs' => hs ((hS j).mp hs')

/-- Pages rewritten only inside S before the adding: the adding still adds S
to the earlier state. -/
theorem pre {b : BuddyAllocator} (h : Added b L S n a' L') (hfp : b.freePages = a.freePages)
    (hpg : ∀ j, ¬ S j → b.pages j = a.pages j) : Added a L S n a' L' where
  inv := h.inv
  covered := h.covered
  freePages := by rw [h.freePages, hfp]
  frame := fun j hj hs => (h.frame j hj hs).trans (hpg j hs)

end Added

/-! ## add_block -/

section AddBlock

variable {a : BuddyAllocator} {L : Nat → List Nat} {i k : Nat}

@[simp] theorem addBlockLoop_pageCount (fuel : Nat) (a : BuddyAllocator) (i k : Nat) :
    (addBlockLoop fuel a i k).pageCount = a.pageCount := by
  induction fuel generalizing a i k with
  | zero => simp [addBlockLoop]
  | succ fuel ih => simp only [addBlockLoop]; split_ifs <;> simp [ih]

@[simp] theorem addBlockLoop_maxOrder (fuel : Nat) (a : BuddyAllocator) (i k : Nat) :
    (addBlockLoop fuel a i k).maxOrder = a.maxOrder := by
  induction fuel generalizing a i k with
  | zero => simp [addBlockLoop]
  | succ fuel ih => simp only [addBlockLoop]; split_ifs <;> simp [ih]

/-- add_block never writes the tag and reserved fields, which belong to the
caller. -/
@[simp] theorem addBlockLoop_reserved (fuel : Nat) (a : BuddyAllocator) (i k j : Nat) :
    ((addBlockLoop fuel a i k).pages j).reserved = (a.pages j).reserved := by
  induction fuel generalizing a i k with
  | zero => simp [addBlockLoop]
  | succ fuel ih => simp only [addBlockLoop]; split_ifs <;> simp [ih]

@[simp] theorem addBlockLoop_tag (fuel : Nat) (a : BuddyAllocator) (i k j : Nat) :
    ((addBlockLoop fuel a i k).pages j).tag = (a.pages j).tag := by
  induction fuel generalizing a i k with
  | zero => simp [addBlockLoop]
  | succ fuel ih => simp only [addBlockLoop]; split_ifs <;> simp [ih]

/-- The final list_add of add_block adds the block. -/
theorem added_listAdd (h : BuddyInv a L) (hf : Floating a L i k)
    (hbud : k < a.maxOrder → i ^^^ 2 ^ k ∉ L k) :
    Added a L (InBlock i k) (2 ^ k) (listAdd a i k) (pushAt L k i) where
  inv := h.insert hf hbud
  covered := BuddyInv.covered_pushAt
  freePages := by simp
  frame := by
    intro j hj hji
    refine h.insert_pages_of_not_mem (fun e => hji (e ▸ inBlock_self i k)) fun hjL => ?_
    exact hj ⟨k, j, hjL, inBlock_self j k⟩

/-- Merging with a free buddy: after unlinking the buddy, the block and its
buddy together form a floating block of the next order. -/
theorem floating_merge (h : BuddyInv a L) (hf : Floating a L i k) (hb : i ^^^ 2 ^ k ∈ L k)
    (hk : k < a.maxOrder) :
    Floating (listRemove a (i ^^^ 2 ^ k) k) (eraseAt L k (i ^^^ 2 ^ k))
      (min i (i ^^^ 2 ^ k)) (k + 1) where
  aligned := min_buddy_mod hf.aligned
  in_range := by
    -- the last page of the merged block lies in one of the two halves
    have hpos := Nat.two_pow_pos (k + 1)
    have hlast := (inBlock_merge hf.aligned (min i (i ^^^ 2 ^ k) + 2 ^ (k + 1) - 1)).mp
      ⟨by omega, by omega⟩
    have hbr := (h.free_block k _ hb).2
    have hir := hf.in_range
    simp only [listRemove_pageCount]
    unfold InBlock at hlast
    omega
  order_le := by
    simp only [listRemove_maxOrder]
    omega
  reserved := by
    intro j hj
    rcases (inBlock_merge hf.aligned j).mp hj with hji | hjb
    · rw [listRemove_state]
      split_ifs
      · rfl
      · exact hf.reserved j hji
    · exact (h.floating_remove hb).reserved j hjb
  uncovered := by
    intro j hj hc
    obtain ⟨hcL, hjb⟩ := (h.covered_eraseAt hb j).mp hc
    rcases (inBlock_merge hf.aligned j).mp hj with hji | hjb'
    · exact hf.uncovered j hji hcL
    · exact hjb hjb'

/-- One merge step: adding the merged block after unlinking the buddy adds the
original block. -/
theorem added_merge (h : BuddyInv a L) (hf : Floating a L i k) (hb : i ^^^ 2 ^ k ∈ L k)
    {a' : BuddyAllocator} {L' : Nat → List Nat}
    (hadd : Added (listRemove a (i ^^^ 2 ^ k) k) (eraseAt L k (i ^^^ 2 ^ k))
      (InBlock (min i (i ^^^ 2 ^ k)) (k + 1)) (2 ^ (k + 1)) a' L') :
    Added a L (InBlock i k) (2 ^ k) a' L' where
  inv := hadd.inv
  covered := by
    intro j
    have hcov : InBlock (i ^^^ 2 ^ k) k j → Covered L j := fun hj => ⟨k, _, hb, hj⟩
    rw [hadd.covered, h.covered_eraseAt hb, inBlock_merge hf.aligned]
    by_cases hjb : InBlock (i ^^^ 2 ^ k) k j
    · simp only [hjb, hcov hjb, not_true_eq_false, and_false, or_true, true_or]
    · simp only [hjb, not_false_eq_true, and_true, or_false]
  freePages := by
    have hsum := freeTotal_eraseAt hb (h.order_le_of_mem hb)
    have hpow : 2 ^ (k + 1) = 2 ^ k + 2 ^ k := by rw [Nat.pow_succ]; omega
    rw [hadd.freePages, listRemove_freePages, orderUnits_eq, h.freePages_eq, hpow]
    omega
  frame := by
    intro j hj hji
    have hjb : ¬ InBlock (i ^^^ 2 ^ k) k j := fun hjb => hj ⟨k, _, hb, hjb⟩
    have hjc : ¬ Covered (eraseAt L k (i ^^^ 2 ^ k)) j :=
      fun hc => hj ((h.covered_eraseAt hb j).mp hc).1
    have hjm : ¬ InBlock (min i (i ^^^ 2 ^ k)) (k + 1) j := by
      rw [inBlock_merge hf.aligned]
      exact fun hm => hm.elim hji hjb
    rw [hadd.frame j hjc hjm]
    exact h.remove_pages_of_not_mem hb fun hjL => hj ⟨k, j, hjL, inBlock_self j k⟩

/-- The merge loop adds its floating block, given fuel for the orders left. -/
theorem addBlockLoop_added (fuel : Nat) :
    ∀ {a : BuddyAllocator} {L : Nat → List Nat} {i k : Nat}, BuddyInv a L →
      Floating a L i k → a.maxOrder - k ≤ fuel →
      ∃ L', Added a L (InBlock i k) (2 ^ k) (addBlockLoop fuel a i k) L' := by
  induction fuel with
  | zero =>
    intro a L i k h hf hfuel
    exact ⟨_, added_listAdd h hf fun hk => absurd hk (by omega)⟩
  | succ fuel ih =>
    intro a L i k h hf hfuel
    simp only [addBlockLoop]
    by_cases hk : k < a.maxOrder
    swap
    · -- the block has reached max_order
      rw [if_neg hk]
      exact ⟨_, added_listAdd h hf fun hk' => absurd hk' hk⟩
    rw [if_pos hk]
    by_cases hpc : i ^^^ orderUnits k ≥ a.pageCount
    · -- the buddy lies past the last page, so it is on no free list
      rw [if_pos hpc]
      refine ⟨_, added_listAdd h hf fun _ hb => ?_⟩
      have := (h.free_block k _ hb).2
      have := Nat.two_pow_pos k
      rw [orderUnits_eq] at hpc
      omega
    rw [if_neg hpc]
    by_cases hst : (a.pages (i ^^^ orderUnits k)).state ≠ .freeHead ∨
        (a.pages (i ^^^ orderUnits k)).order ≠ k
    · -- the buddy is not a free head of this order
      rw [if_pos hst]
      refine ⟨_, added_listAdd h hf fun _ hb => ?_⟩
      rcases hst with hs | ho
      · exact hs (h.lists.state_of_mem hb)
      · exact ho (h.lists.order_eq k _ hb)
    -- the buddy is free at this order: unlink it and merge
    have hmin : (if i ^^^ orderUnits k < i then i ^^^ orderUnits k else i) =
        min i (i ^^^ 2 ^ k) := by
      rw [orderUnits_eq]
      split <;> omega
    rw [if_neg hst, hmin]
    obtain ⟨hs, ho⟩ := not_or.mp hst
    obtain ⟨k', hk'⟩ := (h.lists.head_iff (i ^^^ 2 ^ k)).mp (not_not.mp hs)
    have hb : i ^^^ 2 ^ k ∈ L k := by
      have hkk : k' = k := (h.lists.order_eq k' _ hk').symm.trans (not_not.mp ho)
      rwa [hkk] at hk'
    obtain ⟨L', hL'⟩ := ih (h.remove hb) (floating_merge h hf hb hk) (by simp; omega)
    exact ⟨L', added_merge h hf hb hL'⟩

/-- add_block adds a floating block. -/
theorem addBlock_added (h : BuddyInv a L) (hf : Floating a L i k) :
    ∃ L', Added a L (InBlock i k) (2 ^ k) (addBlock a i k) L' :=
  addBlockLoop_added _ h hf (le_refl _)

end AddBlock

/-! ## The order of each piece of buddy_add_range -/

/-- The search loop of buddy_order_for_units keeps units = 2^order and climbs
only past orders too small for count; it stops below BUDDY_MAX_ORDER only when
units reaches count. -/
theorem orderForUnitsLoop_spec (count fuel : Nat) :
    ∀ order, (∀ o < order, 2 ^ o < count) → order + fuel = buddyMaxOrder →
      ∃ o, orderForUnitsLoop count fuel order (2 ^ order) = (o, 2 ^ o) ∧
        (∀ o' < o, 2 ^ o' < count) ∧ (2 ^ o < count → o = buddyMaxOrder) := by
  induction fuel with
  | zero =>
    intro order hlt hsum
    exact ⟨order, rfl, hlt, fun _ => by omega⟩
  | succ fuel ih =>
    intro order hlt hsum
    simp only [orderForUnitsLoop]
    split_ifs with hg
    · rw [← Nat.pow_succ]
      refine ih (order + 1) (fun o ho => ?_) (by omega)
      rcases Nat.lt_succ_iff_lt_or_eq.mp ho with ho | rfl
      · exact hlt o ho
      · exact hg.1
    · -- with fuel left the guard fails only once units reaches count
      exact ⟨order, rfl, hlt, fun hc => absurd ⟨hc, by omega⟩ hg⟩

/-- Every order below buddy_order_for_units count is too small for count. -/
theorem buddyOrderForUnits_lt {count o : Nat} (hc : 0 < count)
    (ho : o < buddyOrderForUnits count) : 2 ^ o < count := by
  obtain ⟨r, hr, hlt, hmax⟩ :=
    orderForUnitsLoop_spec count buddyMaxOrder 0 (fun _ h => absurd h (Nat.not_lt_zero _)) rfl
  have hr' : orderForUnitsLoop count buddyMaxOrder 0 1 = (r, 2 ^ r) := hr
  simp only [buddyOrderForUnits, if_neg (Nat.pos_iff_ne_zero.mp hc), hr'] at ho
  split_ifs at ho with hbig
  · -- even the largest order is too small: every order up to it is
    have hr30 := hmax hbig
    rcases Nat.lt_succ_iff_lt_or_eq.mp ho with ho | rfl
    · exact hlt o (by omega)
    · rwa [← hr30]
  · exact hlt o ho

/-- An order buddy_order_for_units returns within BUDDY_MAX_ORDER holds count. -/
theorem buddyOrderForUnits_fits {count : Nat} (hc : 0 < count)
    (hmax : buddyOrderForUnits count ≤ buddyMaxOrder) : count ≤ 2 ^ buddyOrderForUnits count := by
  obtain ⟨r, hr, -, -⟩ :=
    orderForUnitsLoop_spec count buddyMaxOrder 0 (fun _ h => absurd h (Nat.not_lt_zero _)) rfl
  have hr' : orderForUnitsLoop count buddyMaxOrder 0 1 = (r, 2 ^ r) := hr
  simp only [buddyOrderForUnits, if_neg (Nat.pos_iff_ne_zero.mp hc), hr'] at hmax ⊢
  split_ifs at hmax ⊢ with hbig
  · exact absurd hmax (by omega)
  · omega

theorem alignOrder_le (start : Nat) : ∀ order, alignOrder start order ≤ order
  | 0 => le_refl 0
  | order + 1 => by
    unfold alignOrder
    split
    · exact Nat.le_succ_of_le (alignOrder_le start order)
    · exact le_refl _

/-- The alignment loop stops at an order to which start is aligned. -/
theorem alignOrder_aligned (start : Nat) : ∀ order, start % 2 ^ alignOrder start order = 0
  | 0 => Nat.mod_one start
  | order + 1 => by
    unfold alignOrder
    split
    · exact alignOrder_aligned start order
    · next h =>
      rw [orderUnits_eq, Nat.and_two_pow_sub_one_eq_mod] at h
      exact not_not.mp h

/-- The order of each piece: at most max_order, no larger than the pages left,
and aligned at start. -/
theorem rangeOrder_spec (maxOrder start : Nat) {count : Nat} (hc : 0 < count) :
    rangeOrder maxOrder start count ≤ maxOrder ∧ 2 ^ rangeOrder maxOrder start count ≤ count ∧
      start % 2 ^ rangeOrder maxOrder start count = 0 := by
  -- o₁ is the order for count capped at max_order, o₂ the order after lowering
  -- it once if its block is larger than count
  let o₁ := if buddyOrderForUnits count > maxOrder then maxOrder else buddyOrderForUnits count
  let o₂ := if orderUnits o₁ > count then o₁ - 1 else o₁
  have h₁ : o₁ ≤ maxOrder ∧ o₁ ≤ buddyOrderForUnits count := by
    simp only [o₁]
    split <;> omega
  have h₂ : o₂ ≤ maxOrder ∧ 2 ^ o₂ ≤ count := by
    simp only [o₂]
    split
    · next hbig =>
      have hpos : 0 < o₁ := by
        refine Nat.pos_of_ne_zero fun h0 => ?_
        rw [h0, orderUnits_eq, pow_zero] at hbig
        omega
      exact ⟨by omega, le_of_lt (buddyOrderForUnits_lt hc (by omega))⟩
    · next hfit => exact ⟨h₁.1, by simpa using hfit⟩
  have hr : rangeOrder maxOrder start count = alignOrder start o₂ := rfl
  have hal := alignOrder_le start o₂
  refine ⟨by rw [hr]; omega, ?_, by rw [hr]; exact alignOrder_aligned start o₂⟩
  rw [hr]
  exact le_trans (Nat.pow_le_pow_right Nat.zero_lt_two hal) h₂.2

/-! ## buddy_add_range -/

section AddRange

variable {a : BuddyAllocator} {L : Nat → List Nat} {start count : Nat}

/-- The pages [start, start + count) are reserved and lie in no free block: the
range may be added. -/
def Fresh (a : BuddyAllocator) (L : Nat → List Nat) (start count : Nat) : Prop :=
  ∀ j, start ≤ j → j < start + count → (a.pages j).state = .reserved ∧ ¬ Covered L j

/-- The first piece of a fresh range is floating. -/
theorem Fresh.floating (hfresh : Fresh a L start count) {o : Nat} (hal : start % 2 ^ o = 0)
    (hfit : 2 ^ o ≤ count) (hr : start + count ≤ a.pageCount) (ho : o ≤ a.maxOrder) :
    Floating a L start o where
  aligned := hal
  in_range := by omega
  order_le := ho
  reserved := fun j hj => (hfresh j hj.1 (by unfold InBlock at hj; omega)).1
  uncovered := fun j hj => (hfresh j hj.1 (by unfold InBlock at hj; omega)).2

/-- What is left of a fresh range after its first piece was added is fresh. -/
theorem Fresh.rest (hfresh : Fresh a L start count) {o : Nat} {a' : BuddyAllocator}
    {L' : Nat → List Nat} (hadd : Added a L (InBlock start o) (2 ^ o) a' L') :
    Fresh a' L' (start + 2 ^ o) (count - 2 ^ o) := by
  intro j hj₁ hj₂
  have hnot : ¬ InBlock start o j := fun hj => by unfold InBlock at hj; omega
  have hpos := Nat.two_pow_pos o
  obtain ⟨hres, hcov⟩ := hfresh j (by omega) (by omega)
  refine ⟨by rw [hadd.frame j hcov hnot]; exact hres, ?_⟩
  rw [hadd.covered]
  exact fun hc => hc.elim hcov hnot

@[simp] theorem addRangeLoop_pageCount (fuel : Nat) (a : BuddyAllocator) (start count : Nat) :
    (addRangeLoop fuel a start count).pageCount = a.pageCount := by
  induction fuel generalizing a start count with
  | zero => rfl
  | succ fuel ih => simp only [addRangeLoop]; split_ifs <;> simp [ih, addBlock]

@[simp] theorem addRangeLoop_reserved (fuel : Nat) (a : BuddyAllocator) (start count j : Nat) :
    ((addRangeLoop fuel a start count).pages j).reserved = (a.pages j).reserved := by
  induction fuel generalizing a start count with
  | zero => rfl
  | succ fuel ih => simp only [addRangeLoop]; split_ifs <;> simp [ih, addBlock]

@[simp] theorem buddyAddRange_reserved (a : BuddyAllocator) (start count j : Nat) :
    ((buddyAddRange a start count).1.pages j).reserved = (a.pages j).reserved := by
  unfold buddyAddRange
  split_ifs <;> simp

@[simp] theorem buddyAddRange_pageCount (a : BuddyAllocator) (start count : Nat) :
    (buddyAddRange a start count).1.pageCount = a.pageCount := by
  unfold buddyAddRange
  split_ifs <;> simp

@[simp] theorem addRangeLoop_tag (fuel : Nat) (a : BuddyAllocator) (start count j : Nat) :
    ((addRangeLoop fuel a start count).pages j).tag = (a.pages j).tag := by
  induction fuel generalizing a start count with
  | zero => rfl
  | succ fuel ih => simp only [addRangeLoop]; split_ifs <;> simp [ih, addBlock]

@[simp] theorem buddyAddRange_tag (a : BuddyAllocator) (start count j : Nat) :
    ((buddyAddRange a start count).1.pages j).tag = (a.pages j).tag := by
  unfold buddyAddRange
  split_ifs <;> simp

/-- The carving loop adds a fresh range piece by piece, given one unit of fuel
per page. -/
theorem addRangeLoop_added (fuel : Nat) :
    ∀ {a : BuddyAllocator} {L : Nat → List Nat} {start count : Nat}, BuddyInv a L →
      count ≤ fuel → start + count ≤ a.pageCount → Fresh a L start count →
      ∃ L', Added a L (fun j => start ≤ j ∧ j < start + count) count
        (addRangeLoop fuel a start count) L' := by
  induction fuel with
  | zero =>
    intro a L start count h hc _ _
    obtain rfl : count = 0 := by omega
    exact ⟨L, Added.refl h fun j (hj : start ≤ j ∧ j < start + 0) => by omega⟩
  | succ fuel ih =>
    intro a L start count h hc hr hfresh
    simp only [addRangeLoop]
    by_cases h0 : count = 0
    · rw [if_pos h0]
      subst h0
      exact ⟨L, Added.refl h fun j (hj : start ≤ j ∧ j < start + 0) => by omega⟩
    rw [if_neg h0]
    -- the first piece, of the order rangeOrder picks, is added by add_block
    obtain ⟨hle, hfit, hal⟩ := rangeOrder_spec a.maxOrder start (Nat.pos_of_ne_zero h0)
    obtain ⟨L₁, h₁⟩ := addBlock_added h (hfresh.floating hal hfit hr hle)
    have hpos := Nat.two_pow_pos (rangeOrder a.maxOrder start count)
    obtain ⟨L₂, h₂⟩ := ih h₁.inv (by omega) (by simp [addBlock]; omega) (hfresh.rest h₁)
    refine ⟨L₂, (h₁.trans h₂).congr (fun j => ?_) (by omega)⟩
    unfold InBlock
    omega

/-- buddy_add_range of a range that lies in no free block either refuses it and
changes nothing, or succeeds and adds it. -/
theorem buddyAddRange_added (h : BuddyInv a L)
    (hout : ∀ j, start ≤ j → j < start + count → ¬ Covered L j) :
    ((buddyAddRange a start count).2 = -1 ∧ (buddyAddRange a start count).1 = a) ∨
      ((buddyAddRange a start count).2 = 0 ∧
        ∃ L', Added a L (fun j => start ≤ j ∧ j < start + count) count
          (buddyAddRange a start count).1 L') := by
  unfold buddyAddRange
  split_ifs with hbad hany
  · exact Or.inl ⟨rfl, rfl⟩
  · exact Or.inl ⟨rfl, rfl⟩
  · -- every page of the range passed the reserved check
    have hres : ∀ j, start ≤ j → j < start + count → (a.pages j).state = .reserved := by
      intro j hj₁ hj₂
      have hj : j ∈ List.range' start count := List.mem_range'_1.mpr ⟨hj₁, hj₂⟩
      have := List.any_eq_false.mp (Bool.not_eq_true _ ▸ hany) j hj
      simpa using this
    exact Or.inr ⟨rfl, addRangeLoop_added count h (le_refl _) (by omega)
      fun j hj₁ hj₂ => ⟨hres j hj₁ hj₂, hout j hj₁ hj₂⟩⟩

/-- A fresh range inside the managed pages is accepted and added. -/
theorem buddyAddRange_fresh (h : BuddyInv a L) (hc : 0 < count) (hr : start + count ≤ a.pageCount)
    (hfresh : Fresh a L start count) :
    (buddyAddRange a start count).2 = 0 ∧
      ∃ L', Added a L (fun j => start ≤ j ∧ j < start + count) count
        (buddyAddRange a start count).1 L' := by
  have hany : ((List.range' start count).any fun i => (a.pages i).state ≠ .reserved) = false := by
    refine List.any_eq_false.mpr fun j hj => ?_
    obtain ⟨hj₁, hj₂⟩ := List.mem_range'_1.mp hj
    simpa using (hfresh j hj₁ hj₂).1
  unfold buddyAddRange
  rw [if_neg (by omega), hany, if_neg Bool.false_ne_true]
  exact ⟨rfl, addRangeLoop_added count h (le_refl _) hr hfresh⟩

end AddRange

end Uinxed.Buddy
