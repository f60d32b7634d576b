/-
  Mem/Heap/Api.lean --- the entry points of src/mem/alloc.c: malloc,
  aligned_alloc, usable_size, free, realloc, the slab cache interface and
  heap_validate.

  A pointer is resolved to its block through the page tags (pointer_owner);
  the header at the block's first page then says whether it is a slab or a
  large block, by its magic and its cookie.  free reports a rejected pointer
  to the error handler and changes nothing; the handler is not modelled.
-/
import Uinxed.Mem.Heap.Slab
import Uinxed.Mem.Buddy.Validate

set_option autoImplicit false

namespace Uinxed.Heap

open Uinxed.Buddy
open Uinxed.Frame (page4kSize sizeMax)

/-! ## Allocation -/

/-- malloc: a size-class object for sizes up to 8192 bytes, a large block
above; 0 for NULL. -/
def malloc (s : HeapState) (size : Nat) : HeapState × Nat :=
  if size = 0 ∨ !s.online then (s, 0)
  else
    match cacheForSize size with
    | some c => cacheAllocRequested s c size
    | none => largeAlloc s heapMinAlignment size

/-- aligned_alloc: alignments up to HEAP_MIN_ALIGNMENT go through malloc,
larger ones through the large path. -/
def alignedAlloc (s : HeapState) (alignment size : Nat) : HeapState × Nat :=
  if size = 0 ∨ !validAlignment alignment ∨ alignment < 8 ∨ !s.online then (s, 0)
  else if alignment ≤ heapMinAlignment then malloc s size
  else largeAlloc s alignment size

/-! ## Queries -/

/-- usable_size: the capacity of the allocation at pointer, 0 when pointer is
not one. -/
def usableSize (s : HeapState) (pointer : Nat) : Nat :=
  if pointer = 0 then 0
  else
    match pointerOwner s pointer with
    | none => 0
    | some ownerIndex =>
      let owner := s.pageAddress ownerIndex
      let slab := s.slabAt owner
      if s.magicAt owner = slabMagic ∧ slab.cookie = slabCookie s.cookie owner then
        let cache := s.cacheOf slab.cache
        let payloadStart := slab.objectStart + cache.payloadOffset
        if pointer < payloadStart ∨ (pointer - payloadStart) % cache.stride ≠ 0 then 0
        else
          let object := pointer - cache.payloadOffset
          let o := s.objectAt object
          if s.magicAt object ≠ slabObjectMagic ∨ o.cookie ≠ objectCookie s.cookie object ∨
              o.state ≠ objectAllocated then 0
          else cache.objectSize
      else
        let large := s.largeAt owner
        if s.magicAt owner = largeMagic ∧ large.cookie = largeCookie s.cookie owner ∧
            large.state = largeAllocated ∧ large.user = pointer then large.usable
        else 0

/-- requested_size: the size the allocation at pointer was asked for, 0 when
pointer is not one.  A slab pointer whose object fails its checks falls
through to the large-header check, as in the source. -/
def requestedSize (s : HeapState) (pointer : Nat) : Nat :=
  match pointerOwner s pointer with
  | none => 0
  | some ownerIndex =>
    let owner := s.pageAddress ownerIndex
    let slab := s.slabAt owner
    let large := s.largeAt owner
    let largeRequested :=
      if s.magicAt owner = largeMagic ∧ large.cookie = largeCookie s.cookie owner ∧
          large.state = largeAllocated ∧ large.user = pointer then large.requested
      else 0
    if s.magicAt owner = slabMagic ∧ slab.cookie = slabCookie s.cookie owner then
      let cache := s.cacheOf slab.cache
      let payloadStart := slab.objectStart + cache.payloadOffset
      if pointer < payloadStart ∨ (pointer - payloadStart) % cache.stride ≠ 0 ∨
          (pointer - payloadStart) / cache.stride ≥ slab.objectCount then 0
      else
        let object := pointer - cache.payloadOffset
        let o := s.objectAt object
        if s.magicAt object = slabObjectMagic ∧ o.cookie = objectCookie s.cookie object ∧
            o.state = objectAllocated then
          if o.requested ≤ cache.objectSize then o.requested else 0
        else largeRequested
    else largeRequested

/-! ## Release -/

/-- free: give an allocation back to its slab or, for a large block, its pages
to the buddy.  A rejected pointer changes nothing. -/
def free (s : HeapState) (pointer : Nat) : HeapState :=
  if pointer = 0 then s
  else
    match pointerOwner s pointer with
    | none => s
    | some ownerIndex =>
      let owner := s.pageAddress ownerIndex
      if s.magicAt owner = slabMagic then (cacheFreeObject s none owner pointer).1
      else
        let large := s.largeAt owner
        if s.magicAt owner ≠ largeMagic ∨ large.cookie ≠ largeCookie s.cookie owner ∨
            large.state ≠ largeAllocated ∨ large.user ≠ pointer ∨ large.pageIndex ≠ ownerIndex then s
        else
          let s := s.modifyLarge owner fun l => { l with state := 0, magic := 0 }
          (pageFree s ownerIndex large.order).1

/-- realloc: resize in place when the capacity allows, else allocate, copy and
free the old allocation (the copy is payload and not modelled). -/
def realloc (s : HeapState) (pointer newSize : Nat) : HeapState × Nat :=
  if pointer = 0 then malloc s newSize
  else if newSize = 0 then (free s pointer, 0)
  else
    let oldSize := requestedSize s pointer
    let capacity := usableSize s pointer
    if oldSize = 0 ∨ capacity = 0 then (s, 0)
    else if newSize ≤ capacity then
      match pointerOwner s pointer with
      | none => (s, 0)
      | some ownerIndex =>
        let owner := s.pageAddress ownerIndex
        if s.magicAt owner = slabMagic then
          let object := pointer - (s.cacheOf (s.slabAt owner).cache).payloadOffset
          (s.modifyObject object fun o => { o with requested := newSize }, pointer)
        else (s.modifyLarge owner fun l => { l with requested := newSize }, pointer)
    else
      match malloc s newSize with
      | (s, 0) => (s, 0)
      | (s, replacement) => (free s pointer, replacement)

/-! ## The slab cache interface -/

/-- slab_cache_create: a dynamic cache whose slab_cache_t is itself allocated
with malloc; the cache is named by that address. -/
def slabCacheCreate (s : HeapState) (objectSize alignment : Nat) :
    HeapState × Option CacheRef :=
  if !s.online then (s, none)
  else
    match malloc s slabCacheSize with
    | (s, 0) => (s, none)
    | (s, address) =>
      match cacheInit objectSize alignment true with
      | none => (free s address, none)
      | some cache => ({ s with caches := Function.update s.caches (.dynamic address) cache },
          some (.dynamic address))

/-- slab_cache_alloc. -/
def slabCacheAlloc (s : HeapState) (c : CacheRef) : HeapState × Nat :=
  cacheAllocRequested s c (s.caches c).objectSize

/-- slab_cache_free: the return value of cache_free_object, or -1 for a
pointer outside the heap's blocks. -/
def slabCacheFree (s : HeapState) (c : CacheRef) (object : Nat) : HeapState × Int :=
  if object = 0 then (s, -1)
  else
    match pointerOwner s object with
    | none => (s, -1)
    | some ownerIndex =>
      let r := cacheFreeObject s (some c) (s.pageAddress ownerIndex) object
      (r.1, r.2.1)

/-- The loop of slab_cache_shrink and slab_cache_destroy: release the head of
the empty list while there is one, counting the pages released.  The fuel is
the number of iterations; slabCacheShrink passes empty_count, which is the
length of the empty list in every state the invariant describes. -/
def shrinkLoop (c : CacheRef) : Nat → HeapState → Nat → HeapState × Nat
  | 0, s, pages => (s, pages)
  | fuel + 1, s, pages =>
    let slab := (s.caches c).emptyHead
    if slab = 0 then (s, pages)
    else shrinkLoop c fuel (slabReleaseLocked s c slab) (pages + 2 ^ (s.slabAt slab).order)

/-- slab_cache_shrink: release every empty slab; the pages released. -/
def slabCacheShrink (s : HeapState) (c : CacheRef) : HeapState × Nat :=
  shrinkLoop c (s.caches c).emptyCount s 0

/-- slab_cache_destroy: a dynamic cache with no object in use releases its
empty slabs and frees its own slab_cache_t. -/
def slabCacheDestroy (s : HeapState) (c : CacheRef) : HeapState × Int :=
  if !(s.caches c).dynamic then (s, -1)
  else if (s.caches c).objects ≠ 0 then (s, -1)
  else
    let s := s.modifyCache c fun cache => { cache with destroying := true }
    let s := (shrinkLoop c (s.caches c).emptyCount s 0).1
    match c with
    | .dynamic address => (free s address, 0)
    | .size _ => (s, 0)

/-! ## heap_validate -/

/-- The walk of validate_list from slab, with previous the slab before it and
count the slabs seen; none as soon as a check fails.  The check count >
slab_count bounds the walk, so slab_count + 2 iterations always suffice. -/
def validateLoop (s : HeapState) (c : CacheRef) (expected : SlabList) :
    Nat → Nat → Nat → Nat → Option Nat
  | 0, _, _, count => some count
  | fuel + 1, slab, previous, count =>
    if slab = 0 then some count
    else
      let h := s.slabAt slab
      if count > (s.caches c).slabCount ∨ h.previous ≠ previous ∨ h.list ≠ expected ∨
          h.cache ≠ some c ∨ s.magicAt slab ≠ slabMagic ∨ h.cookie ≠ slabCookie s.cookie slab then
        none
      else if expected = .emptyList ∧ h.inuse ≠ 0 then none
      else if expected = .fullList ∧ h.inuse ≠ h.objectCount then none
      else if expected = .partialList ∧ (h.inuse = 0 ∨ h.inuse = h.objectCount) then none
      else validateLoop s c expected fuel h.next slab (count + 1)

/-- validate_list: 0 when the list from head is well linked, every slab on it
belongs to the cache and to this list, and it has expected_count slabs. -/
def validateList (s : HeapState) (c : CacheRef) (head : Nat) (expected : SlabList)
    (expectedCount : Nat) : Int :=
  match validateLoop s c expected ((s.caches c).slabCount + 2) head 0 0 with
  | some count => if count = expectedCount then 0 else -1
  | none => -1

/-- The per-cache check of heap_validate: the three lists and the slab count. -/
def cacheValid (s : HeapState) (c : CacheRef) : Bool :=
  let cache := s.caches c
  validateList s c cache.partialHead .partialList cache.partialCount = 0 ∧
    validateList s c cache.fullHead .fullList cache.fullCount = 0 ∧
    validateList s c cache.emptyHead .emptyList cache.emptyCount = 0 ∧
    cache.slabCount = cache.partialCount + cache.fullCount + cache.emptyCount

/-- heap_validate: the buddy's own check, then the lists of every size cache. -/
def heapValidate (s : HeapState) : Int :=
  if !s.online then -1
  else
    let result := buddyValidate s.pages
    if result ≠ 0 then result
    else if (List.range sizeCacheCount).all fun i => cacheValid s (.size i) then 0 else -1

end Uinxed.Heap
