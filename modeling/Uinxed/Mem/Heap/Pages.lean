/-
  Mem/Heap/Pages.lean --- the page layer of the heap: heap_init, page_alloc
  and pointer_owner.

  PagesInv is the shape of the page layer of an online heap: its buddy keeps
  BuddyInv over page_count pages, and the arena is page_count whole pages at a
  non-null page-aligned base.  A successful heap_init establishes it with
  every page after the metadata free.  page_alloc hands out a free block and
  tags its pages, after which pointer_owner maps every address of the block
  back to the block's first page.
-/
import Uinxed.Mem.Heap.Basic
import Uinxed.Mem.Buddy.System
import Uinxed.Mem.Buddy.Owned

set_option autoImplicit false

namespace Uinxed.Heap

open Uinxed.Buddy
open Uinxed.Frame (page4kSize sizeMax)

/-- The page layer of an online heap.  The arena lies in the 64-bit address
space, as every C object does. -/
structure PagesInv (s : HeapState) (L : Nat → List Nat) : Prop where
  buddy : BuddyInv s.pages L
  pageCount_eq : s.pages.pageCount = s.pageCount
  size_eq : s.size = s.pageCount * page4kSize
  base_pos : 0 < s.base
  base_aligned : s.base % page4kSize = 0
  arena_le : s.base + s.size ≤ 2 ^ 64
  online : s.online = true

namespace PagesInv

variable {s : HeapState} {L : Nat → List Nat}

/-- A header write leaves the page layer alone. -/
theorem write (h : PagesInv s L) (a : Nat) (hd : Header) : PagesInv (s.write a hd) L :=
  ⟨h.buddy, h.pageCount_eq, h.size_eq, h.base_pos, h.base_aligned, h.arena_le, h.online⟩

end PagesInv

/-! ## heap_init -/

/-- A successful heap_init over an arena in the address space leaves an online
heap whose free pages are exactly the pages after the buddy metadata; it
writes no header. -/
theorem heapInit_spec (s : HeapState) (address size : Nat) (harena : address + size ≤ 2 ^ 64)
    (h : (heapInit s address size).2 = 0) :
    ∃ L, PagesInv (heapInit s address size).1 L ∧
      (∀ j, Covered L j ↔
        (heapInit s address size).1.metadataPages ≤ j ∧ j < (heapInit s address size).1.pageCount) ∧
      (heapInit s address size).1.base = address ∧ (heapInit s address size).1.mem = s.mem := by
  unfold heapInit at h ⊢
  dsimp only at h ⊢
  split_ifs at h ⊢ with hargs hcount hmeta
  -- the three argument checks before the memset
  · simp at h
  · simp at h
  · simp at h
  set pageCount := (size - size % page4kSize) / page4kSize with hpc
  set metadataPages := (pageCount * buddyPageSize + page4kSize - 1) / page4kSize with hmp
  split at h
  · simp at h
  next b hb =>
  split_ifs at h ⊢ with hadd
  · simp at h
  split at h
  · simp at h
  next caches hcaches =>
  -- the single buddy_add_range over a fresh buddy frees exactly its range
  rcases buddyAddRange_added (buddyInit_inv hb)
    (fun j (_ : metadataPages ≤ j) (_ : j < metadataPages + (pageCount - metadataPages))
      ⟨k, i, hi, _⟩ => by cases hi) with ⟨hr, -⟩ | ⟨-, L, hL⟩
  · exact (hadd (by rw [hr]; decide)).elim
  dsimp only
  refine ⟨L, ⟨hL.inv, ?_, ?_, ?_, ?_, ?_, rfl⟩, fun j => ?_, rfl, rfl⟩
  · rw [buddyAddRange_pageCount]
    unfold buddyInit at hb
    split_ifs at hb
    cases hb
    rfl
  · rw [hpc]
    exact (Nat.div_mul_cancel (Nat.dvd_sub_mod size)).symm
  · exact Nat.pos_of_ne_zero fun h0 => hargs (Or.inl h0)
  · exact not_not.mp fun hne => hargs (Or.inr (Or.inl hne))
  · show address + (size - size % page4kSize) ≤ 2 ^ 64
    omega
  · rw [hL.covered j]
    constructor
    · rintro (⟨k, i, hi, _⟩ | hj)
      · cases hi
      · omega
    · intro hj
      exact Or.inr (by omega)

/-! ## page_alloc -/

variable {s : HeapState} {L : Nat → List Nat}

/-- page_alloc either changes nothing, because no free block of the order or
above exists (or the order is above max_order), or hands out a free block
[i, i + 2^order) with every page of it tagged i + 1. -/
theorem pageAlloc_spec (h : BuddyInv s.pages L) (order : Nat) :
    ((pageAlloc s order).2 = none ∧ (pageAlloc s order).1 = s ∧
        (s.pages.maxOrder < order ∨ ∀ k, order ≤ k → L k = [])) ∨
      ∃ i b L', (pageAlloc s order).2 = some i ∧ Allocated s.pages L i order b L' ∧
        (pageAlloc s order).1 = { s with pages := b.setPages i (2 ^ order) (tagOwner i) } := by
  unfold pageAlloc
  rcases buddyAlloc_spec h order with ⟨hn, he, hwhy⟩ | ⟨i, L', hi, hA⟩
  · generalize buddyAlloc s.pages order = r at hn he
    obtain ⟨b, _ | i⟩ := r
    · left
      dsimp only at he ⊢
      rw [he]
      exact ⟨rfl, rfl, hwhy⟩
    · cases hn
  · generalize buddyAlloc s.pages order = r at hi hA
    obtain ⟨b, _ | i'⟩ := r
    · cases hi
    · cases hi
      exact Or.inr ⟨i, b, L', rfl, hA, rfl⟩

/-- A heap with a free page serves page_alloc at order 0. -/
theorem pageAlloc_zero (h : BuddyInv s.pages L) {j : Nat} (hj : Covered L j) :
    ∃ i b L', (pageAlloc s 0).2 = some i ∧ Allocated s.pages L i 0 b L' ∧
      (pageAlloc s 0).1 = { s with pages := b.setPages i 1 (tagOwner i) } := by
  rcases pageAlloc_spec h 0 with ⟨-, -, hlt | hnil⟩ | hok
  · exact absurd hlt (Nat.not_lt_zero _)
  · obtain ⟨k, x, hx, -⟩ := hj
    rw [hnil k (Nat.zero_le k)] at hx
    cases hx
  · exact hok

/-! ## pointer_owner -/

@[simp] theorem pointerOwner_write (a : Nat) (hd : Header) (address : Nat) :
    pointerOwner (s.write a hd) address = pointerOwner s address := rfl

@[simp] theorem pointerOwner_modifyCache (c : CacheRef) (f : SlabCache → SlabCache) (address : Nat) :
    pointerOwner (s.modifyCache c f) address = pointerOwner s address := rfl

/-- pointer_owner maps an address inside page j of the arena to the block
named by page j's tag. -/
theorem pointerOwner_of_tag (h : PagesInv s L) {address j i : Nat}
    (hj₁ : s.pageAddress j ≤ address) (hj₂ : address < s.pageAddress j + page4kSize)
    (hj : j < s.pageCount) (htag : (s.pages.pages j).tag = i + 1) (hi : i < s.pageCount) :
    pointerOwner s address = some i := by
  unfold HeapState.pageAddress at hj₁ hj₂
  have hsize := h.size_eq
  have hpage : (address - s.base) / page4kSize = j := by
    simp only [page4kSize] at hj₁ hj₂ ⊢
    omega
  have hin : address < s.base + s.size := by
    have hle : (j + 1) * page4kSize ≤ s.pageCount * page4kSize := Nat.mul_le_mul_right _ hj
    rw [hsize]
    simp only [page4kSize] at hj₂ hle ⊢
    omega
  unfold pointerOwner
  rw [h.online, if_neg (by simp only [Bool.not_true, Bool.false_eq_true, false_or, not_or]; omega)]
  dsimp only
  rw [hpage, htag, if_neg (by omega)]
  rfl

end Uinxed.Heap
