/-
  Mem/Buddy/Owned.lean --- the page fields the buddy leaves to its callers.

  buddy.c never reads the reserved field of a page, and reads the tag only of
  the pages it takes back or keeps free (buddy_free and the free lists clear
  it).  Its callers use both: the frame allocator keeps a reference count in
  the tag and a hand-over mark in the reserved field, the heap tags every page
  of a block with the block's first index.  Retagged says that only those
  fields changed, and only on allocated pages for the tag; BuddyInv.retag
  shows that such writes keep the buddy invariant.
-/
import Uinxed.Mem.Buddy.Alloc

set_option autoImplicit false

namespace Uinxed.Buddy

open AlignedBlock

/-- q is p with only its caller-owned fields rewritten, and the tag only if p is
allocated (a head or a tail). -/
structure Retag (p q : BuddyPage) : Prop where
  next : q.next = p.next
  prev : q.prev = p.prev
  state : q.state = p.state
  order : q.order = p.order
  tag : p.state = .reserved ∨ p.state = .freeHead → q.tag = p.tag

namespace Retag

theorem refl (p : BuddyPage) : Retag p p := ⟨rfl, rfl, rfl, rfl, fun _ => rfl⟩

theorem trans {p q r : BuddyPage} (h₁ : Retag p q) (h₂ : Retag q r) : Retag p r where
  next := h₂.next.trans h₁.next
  prev := h₂.prev.trans h₁.prev
  state := h₂.state.trans h₁.state
  order := h₂.order.trans h₁.order
  tag := fun hp => (h₂.tag (by rw [h₁.state]; exact hp)).trans (h₁.tag hp)

/-- A tag write on an allocated page. -/
theorem of_tag {p : BuddyPage} (hp : p.state = .allocHead ∨ p.state = .allocTail) (t : Nat) :
    Retag p { p with tag := t } :=
  ⟨rfl, rfl, rfl, rfl, fun h => by rcases hp with hp | hp <;> rcases h with h | h <;> rw [hp] at h <;> cases h⟩

/-- A write of the reserved field, on any page. -/
theorem of_reserved (p : BuddyPage) (r : Nat) : Retag p { p with reserved := r } :=
  ⟨rfl, rfl, rfl, rfl, fun _ => rfl⟩

end Retag

/-- a' is a with only caller-owned fields of its pages rewritten. -/
structure Retagged (a a' : BuddyAllocator) : Prop where
  pageCount : a'.pageCount = a.pageCount
  maxOrder : a'.maxOrder = a.maxOrder
  freePages : a'.freePages = a.freePages
  freeHead : a'.freeHead = a.freeHead
  freeCount : a'.freeCount = a.freeCount
  pages : ∀ j, Retag (a.pages j) (a'.pages j)

namespace Retagged

variable {a a' a'' : BuddyAllocator}

theorem trans (h₁ : Retagged a a') (h₂ : Retagged a' a'') : Retagged a a'' where
  pageCount := h₂.pageCount.trans h₁.pageCount
  maxOrder := h₂.maxOrder.trans h₁.maxOrder
  freePages := h₂.freePages.trans h₁.freePages
  freeHead := h₂.freeHead.trans h₁.freeHead
  freeCount := h₂.freeCount.trans h₁.freeCount
  pages := fun j => (h₁.pages j).trans (h₂.pages j)

theorem setPage (a : BuddyAllocator) (i : Nat) (g : BuddyPage → BuddyPage)
    (hg : Retag (a.pages i) (g (a.pages i))) : Retagged a (a.setPage i g) where
  pageCount := rfl
  maxOrder := rfl
  freePages := rfl
  freeHead := rfl
  freeCount := rfl
  pages := fun j => by
    rw [BuddyAllocator.setPage_pages]
    split_ifs with hj
    · rw [hj]; exact hg
    · exact Retag.refl _

theorem setPages (a : BuddyAllocator) (start n : Nat) (g : BuddyPage → BuddyPage)
    (hg : ∀ j, start ≤ j → j < start + n → Retag (a.pages j) (g (a.pages j))) :
    Retagged a (a.setPages start n g) where
  pageCount := by simp
  maxOrder := by simp
  freePages := by simp
  freeHead := by simp
  freeCount := by simp
  pages := fun j => by
    rw [BuddyAllocator.setPages_pages]
    split_ifs with hj
    · exact hg j hj.1 hj.2
    · exact Retag.refl _

end Retagged

variable {a a' : BuddyAllocator} {L L' : Nat → List Nat}

/-- Rewriting caller-owned fields keeps the buddy invariant: the invariant reads
the tag only of free and reserved pages, and never the reserved field. -/
theorem BuddyInv.retag (h : BuddyInv a L) (hr : Retagged a a') : BuddyInv a' L := by
  have hs : ∀ j, (a'.pages j).state = (a.pages j).state := fun j => (hr.pages j).state
  have ho : ∀ j, (a'.pages j).order = (a.pages j).order := fun j => (hr.pages j).order
  have hn : nextOf a' = nextOf a := funext fun j => (hr.pages j).next
  have hp : prevOf a' = prevOf a := funext fun j => (hr.pages j).prev
  exact
  { lists :=
      { isList := fun k => by rw [hn, hp, hr.freeHead]; exact h.lists.isList k
        count := fun k => by rw [hr.freeCount]; exact h.lists.count k
        head_iff := fun j => by rw [hs]; exact h.lists.head_iff j
        order_eq := fun k j hj => by rw [ho]; exact h.lists.order_eq k j hj }
    pageCount_pos := by rw [hr.pageCount]; exact h.pageCount_pos
    pageCount_le := by rw [hr.pageCount]; exact h.pageCount_le
    maxOrder_le := by rw [hr.maxOrder]; exact h.maxOrder_le
    high_nil := by rw [hr.maxOrder]; exact h.high_nil
    freePages_eq := by rw [hr.freePages, hr.maxOrder]; exact h.freePages_eq
    free_block := by rw [hr.pageCount]; exact h.free_block
    free_interior := fun k i j hi hj hji => by rw [hs]; exact h.free_interior k i j hi hj hji
    coalesced := by rw [hr.maxOrder]; exact h.coalesced
    alloc_block := fun i hi => by
      rw [hs] at hi
      have hb := h.alloc_block i hi
      refine ⟨?_, ?_, ?_, fun j hj hji => ?_⟩
      · rw [ho, hr.maxOrder]; exact hb.order_le
      · rw [ho]; exact hb.aligned
      · rw [ho, hr.pageCount]; exact hb.in_range
      · rw [ho] at hj
        rw [hs]
        exact hb.tails j hj hji
    tail_owned := fun j hj => by
      rw [hs] at hj
      obtain ⟨i, hi, hin, hji⟩ := h.tail_owned j hj
      exact ⟨i, by rw [hs]; exact hi, by rw [ho]; exact hin, hji⟩
    cleared := fun i hi => by
      rw [hs] at hi
      rw [(hr.pages i).tag hi]
      exact h.cleared i hi }

/-! ## Blocks handed out -/

section Allocated

variable {b : BuddyAllocator} {i k : Nat}

/-- The pages of a block buddy_alloc handed out are its head and its tails. -/
theorem Allocated.allocated_of_inBlock (hA : Allocated a L i k b L') {j : Nat}
    (hj : AlignedBlock.InBlock i k j) :
    (b.pages j).state = .allocHead ∨ (b.pages j).state = .allocTail := by
  by_cases hji : j = i
  · rw [hji]
    exact Or.inl hA.head.1
  · have hb := hA.inv.alloc_block i hA.head.1
    exact Or.inr (hb.tails j (by rw [hA.head.2]; exact hj) hji)

/-- Writing one tag on every page of a block buddy_alloc handed out keeps the
buddy invariant. -/
theorem Allocated.inv_tagBlock (hA : Allocated a L i k b L') (t : Nat) :
    BuddyInv (b.setPages i (2 ^ k) fun p => { p with tag := t }) L' :=
  hA.inv.retag (Retagged.setPages b i (2 ^ k) _ fun _ hj₁ hj₂ =>
    Retag.of_tag (hA.allocated_of_inBlock ⟨hj₁, hj₂⟩) t)

end Allocated

end Uinxed.Buddy
