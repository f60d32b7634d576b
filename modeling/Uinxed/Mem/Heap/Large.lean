/-
  Mem/Heap/Large.lean --- the large path of malloc.

  malloc serves sizes above the largest size class (8192 bytes) from
  large_alloc, which rounds 64 header bytes, the size and the alignment slack
  up to whole pages.  The rounding is done in size_t: for the sizes within a
  page of SIZE_MAX that the guard of large_alloc still admits, needed +
  PAGE_4K_SIZE - 1 wraps to a value below one page, the page count is 0, and
  buddy_order_for_units(0) is order 0.  Such a request is then served by a
  single page, with 4032 usable bytes, on every heap that has a free page.
-/
import Uinxed.Mem.Heap.Pages
import Uinxed.Mem.Heap.Api

set_option autoImplicit false

namespace Uinxed.Heap

open Uinxed.Buddy
open Uinxed.Frame (page4kSize sizeMax)

/-! ## Size classes -/

/-- No size class holds more than 8192 bytes. -/
theorem cacheForSize_eq_none {size : Nat} (hsize : 8192 < size) : cacheForSize size = none := by
  unfold cacheForSize
  rw [Option.map_eq_none_iff, List.findIdx?_eq_none_iff]
  intro c hc
  simp only [sizeClasses, List.mem_cons, List.not_mem_nil, or_false] at hc
  simp only [decide_eq_false_iff_not, not_le]
  rcases hc with rfl | rfl | rfl | rfl | rfl | rfl | rfl | rfl | rfl | rfl | rfl | rfl | rfl | rfl |
    rfl | rfl | rfl <;> omega

/-! ## The page count of large_alloc -/

/-- The page count large_alloc computes for malloc: (needed + PAGE_4K_SIZE -
1) / PAGE_4K_SIZE in size_t, with needed = 64 + size + 15. -/
def largePages (size : Nat) : Nat :=
  (((largeHeaderSize + size + heapMinAlignment - 1) % 2 ^ 64 + page4kSize - 1) % 2 ^ 64) / page4kSize

/-- For the sizes from SIZE_MAX - 4173 to SIZE_MAX - 80 the rounding wraps and
the page count is 0. -/
theorem largePages_of_wrap {size : Nat} (hlo : sizeMax - 4174 < size) (hhi : size ≤ sizeMax - 80) :
    largePages size = 0 := by
  unfold largePages
  simp only [largeHeaderSize, heapMinAlignment, page4kSize, sizeMax] at hlo hhi ⊢
  omega

/-! ## usable_size of a large block -/

variable {s : HeapState} {L : Nat → List Nat}

/-- usable_size of the user pointer of a large block reads its header's usable
field: pointer_owner finds the block through the tag of the pointer's page, and
the header there passes the large checks. -/
theorem usableSize_of_large (h : PagesInv s L) {i j p : Nat} {l : LargeHeader}
    (hp₁ : s.pageAddress j ≤ p) (hp₂ : p < s.pageAddress j + page4kSize) (hj : j < s.pageCount)
    (htag : (s.pages.pages j).tag = i + 1) (hi : i < s.pageCount)
    (hl : s.mem (s.pageAddress i) = some (.large l)) (hmagic : l.magic = largeMagic)
    (hcookie : l.cookie = largeCookie s.cookie (s.pageAddress i)) (hstate : l.state = largeAllocated)
    (huser : l.user = p) : usableSize s p = l.usable := by
  have hp0 : p ≠ 0 := by
    have := h.base_pos
    unfold HeapState.pageAddress at hp₁
    omega
  have hm : s.magicAt (s.pageAddress i) = largeMagic := by
    simp only [HeapState.magicAt, hl, Header.magic, hmagic]
  have hla : s.largeAt (s.pageAddress i) = l := by
    simp only [HeapState.largeAt, hl, Header.asLarge]
  unfold usableSize
  rw [if_neg hp0, pointerOwner_of_tag h hp₁ hp₂ hj htag hi]
  dsimp only
  rw [hm, hla, if_neg (fun hc => absurd hc.1 (by decide)), if_pos ⟨rfl, hcookie, hstate, huser⟩]

/-- The same right after the header is written, as large_alloc does. -/
theorem usableSize_write_large (h : PagesInv s L) {i j p a : Nat} (l : LargeHeader)
    (ha : s.pageAddress i = a) (hp₁ : s.pageAddress j ≤ p) (hp₂ : p < s.pageAddress j + page4kSize)
    (hj : j < s.pageCount) (htag : (s.pages.pages j).tag = i + 1) (hi : i < s.pageCount)
    (hmagic : l.magic = largeMagic) (hcookie : l.cookie = largeCookie s.cookie a)
    (hstate : l.state = largeAllocated) (huser : l.user = p) :
    usableSize (s.write a (.large l)) p = l.usable := by
  subst ha
  exact usableSize_of_large (h.write _ _) hp₁ hp₂ hj htag hi (by simp) hmagic hcookie hstate huser

/-! ## malloc of a size near SIZE_MAX -/

/-- malloc of a size within a page of SIZE_MAX that large_alloc's guard admits
returns a non-null pointer whose usable size is one page minus the header:
4032 bytes, on every heap with a free page. -/
theorem malloc_near_size_max (h : PagesInv s L) {j : Nat} (hj : Covered L j) {n : Nat}
    (hlo : sizeMax - 4174 < n) (hhi : n ≤ sizeMax - 80) :
    (malloc s n).2 ≠ 0 ∧ usableSize (malloc s n).1 (malloc s n).2 = page4kSize - largeHeaderSize := by
  have hcount := h.buddy.pageCount_pos
  rw [h.pageCount_eq] at hcount
  have hsize : page4kSize ≤ s.size := by
    rw [h.size_eq]
    exact Nat.le_mul_of_pos_left page4kSize hcount
  -- malloc takes the large path, whose guard admits n and whose page count is 0
  have hmalloc : malloc s n = largeAlloc s heapMinAlignment n := by
    unfold malloc
    rw [h.online, if_neg (by simp only [Bool.not_true, Bool.false_eq_true, or_false]; omega),
      cacheForSize_eq_none (by simp only [sizeMax] at hlo; omega)]
  have hpages : largePages n = 0 := largePages_of_wrap hlo hhi
  unfold largePages at hpages
  unfold largeAlloc at hmalloc
  rw [if_neg (by simp only [heapMinAlignment, largeHeaderSize, page4kSize, sizeMax] at hsize hhi ⊢; omega)]
    at hmalloc
  dsimp only at hmalloc
  rw [hpages, show buddyOrderForUnits 0 = 0 from rfl, if_neg (Nat.not_lt_zero _)] at hmalloc
  -- page_alloc hands out a free page i, tagged i + 1
  obtain ⟨i, b, L', hi, hA, hs'⟩ := pageAlloc_zero h.buddy hj
  generalize hr : pageAlloc s 0 = r at hi hs' hmalloc
  obtain ⟨t, _ | i'⟩ := r
  · cases hi
  cases hi
  dsimp only at hs' hmalloc
  subst hs'
  rw [hmalloc]
  have hi_lt : i < s.pageCount := by
    obtain ⟨k, x, hx, hix⟩ := hA.was_free i ⟨le_refl i, by simp⟩
    have hfb := (h.buddy.free_block k x hx).2
    rw [h.pageCount_eq] at hfb
    unfold AlignedBlock.InBlock at hix
    omega
  have hP : PagesInv { s with pages := b.setPages i 1 (tagOwner i) } L' :=
    { buddy := hA.inv_tagBlock (i + 1)
      pageCount_eq := by simp [hA.shape.1, h.pageCount_eq]
      size_eq := h.size_eq
      base_pos := h.base_pos
      base_aligned := h.base_aligned
      arena_le := h.arena_le
      online := h.online }
  -- the header is page i; the user pointer is 64 bytes into it
  have hend : s.base + i * page4kSize + page4kSize ≤ 2 ^ 64 := by
    have hle : (i + 1) * page4kSize ≤ s.pageCount * page4kSize := Nat.mul_le_mul_right _ hi_lt
    have harena := h.arena_le
    rw [h.size_eq] at harena
    simp only [page4kSize] at hle harena ⊢
    omega
  have hhdr : HeapState.pageAddress { s with pages := b.setPages i 1 (tagOwner i) } i =
      s.base + i * page4kSize := rfl
  have huser : alignUpSize (s.base + i * page4kSize + largeHeaderSize) heapMinAlignment =
      s.base + i * page4kSize + largeHeaderSize := by
    have hbase := h.base_aligned
    unfold alignUpSize
    rw [if_neg (by simp only [page4kSize, largeHeaderSize, heapMinAlignment, sizeMax] at hend ⊢; omega)]
    simp only [page4kSize, largeHeaderSize, heapMinAlignment] at hbase ⊢
    omega
  rw [hhdr, huser]
  refine ⟨by have := h.base_pos; omega, ?_⟩
  rw [usableSize_write_large hP (j := i) (p := s.base + i * page4kSize + largeHeaderSize) _ hhdr
      (by rw [hhdr]; omega) (by rw [hhdr]; simp only [largeHeaderSize, page4kSize]; omega) hi_lt
      (by simp [BuddyAllocator.setPages_pages, tagOwner]) hi_lt rfl rfl rfl rfl]
  simp only [sub64, page4kSize, largeHeaderSize] at hend ⊢
  omega

/-- heap_init over 64 KiB at 2 MiB, then malloc(2^64 - 100): a non-null pointer
with 4032 usable bytes. -/
theorem malloc_near_size_max_at_two_mib :
    (malloc (heapInit HeapState.zero 0x200000 0x10000).1 (2 ^ 64 - 100)).2 ≠ 0 ∧
      usableSize (malloc (heapInit HeapState.zero 0x200000 0x10000).1 (2 ^ 64 - 100)).1
        (malloc (heapInit HeapState.zero 0x200000 0x10000).1 (2 ^ 64 - 100)).2 =
        page4kSize - largeHeaderSize := by
  obtain ⟨L, hP, hcov, -, -⟩ := heapInit_spec HeapState.zero 0x200000 0x10000 (by decide) (by decide)
  exact malloc_near_size_max hP ((hcov _).mpr ⟨le_refl _, by decide⟩) (by decide) (by decide)

end Uinxed.Heap
