/-
  Mem/Heap/Slab.lean --- the slab caches of src/mem/alloc.c.

  A cache keeps its slabs on three doubly linked lists, threaded through the
  previous and next fields of the slab headers: partial (some objects in use),
  full and empty.  Each slab keeps its free objects on a singly linked list
  through the next_free fields of the object headers.  Allocation takes the
  first object of the first partial slab, else of the empty slab, else of a
  new slab; freeing puts the object back and releases the slab when it leaves
  a second empty slab in the cache.

  Every function reads and writes the headers one statement at a time, in the
  order of the source, so that a field read after a write sees the write.
-/
import Uinxed.Mem.Heap.Basic

set_option autoImplicit false

namespace Uinxed.Heap

open Uinxed.Buddy
open Uinxed.Frame (page4kSize sizeMax)

/-! ## The slab lists -/

/-- list_insert: push a slab on the front of one of its cache's lists. -/
def listInsert (s : HeapState) (c : CacheRef) (slab : Nat) (list : SlabList) : HeapState :=
  let head := (s.caches c).head list
  let s := s.modifySlab slab fun h => { h with previous := 0, next := head, list := list }
  let s := if head ≠ 0 then s.modifySlab head fun h => { h with previous := slab } else s
  s.modifyCache c fun cache => (cache.setHead list slab).setCount list (cache.count list + 1)

/-- list_remove: unlink a slab from the list its header names; a slab on no
list is left alone. -/
def listRemove (s : HeapState) (c : CacheRef) (slab : Nat) : HeapState :=
  let list := (s.slabAt slab).list
  if list = .none then s
  else
    let h := s.slabAt slab
    let s := if h.previous ≠ 0 then s.modifySlab h.previous fun p => { p with next := h.next }
      else s.modifyCache c fun cache => cache.setHead list h.next
    -- slab->next and slab->previous are read again after the first write
    let h := s.slabAt slab
    let s := if h.next ≠ 0 then s.modifySlab h.next fun n => { n with previous := h.previous }
      else s
    let s := s.modifySlab slab fun h => { h with previous := 0, next := 0, list := .none }
    s.modifyCache c fun cache => cache.setCount list (cache.count list - 1)

/-! ## Creating and releasing slabs -/

/-- The carving loop of slab_create_locked, for i = object_count down to 1:
object i - 1 gets a fresh free header and is pushed on the slab's free list,
so that the list runs in address order. -/
def carveObjects (slab objectStart stride : Nat) : Nat → HeapState → HeapState
  | 0, s => s
  | i + 1, s =>
    let object := objectStart + i * stride
    let s := s.write object (.object
      { magic := slabObjectMagic
        slab := slab
        nextFree := (s.slabAt slab).freeList
        requested := 0
        state := objectFree
        cookie := objectCookie s.cookie object })
    let s := s.modifySlab slab fun h => { h with freeList := object }
    carveObjects slab objectStart stride i s

/-- slab_create_locked: a new slab of the cache's order, its objects placed
after the header at the next colour offset, all free, on the empty list.
none when page_alloc fails. -/
def slabCreateLocked (s : HeapState) (c : CacheRef) : HeapState × Option Nat :=
  let cache := s.caches c
  match pageAlloc s cache.slabOrder with
  | (s, none) => (s, none)
  | (s, some pageIndex) =>
    let slab := s.pageAddress pageIndex
    let bytes := page4kSize * 2 ^ cache.slabOrder
    let baseOffset := alignUpSize slabHeaderSize cache.alignment
    let objectCount := (bytes - baseOffset) / cache.stride
    let leftover := bytes - baseOffset - objectCount * cache.stride
    let colors := leftover / cache.alignment + 1
    let color := cache.colorNext % colors * cache.alignment
    let s := s.modifyCache c fun cache => { cache with colorNext := cache.colorNext + 1 }
    let objectStart := slab + baseOffset + color
    let s := s.write slab (.slab
      { SlabHeader.zero with
        magic := slabMagic
        cookie := slabCookie s.cookie slab
        cache := some c
        pageIndex := pageIndex
        objectCount := objectCount
        order := cache.slabOrder
        objectStart := objectStart })
    let s := carveObjects slab objectStart cache.stride objectCount s
    let s := s.modifyCache c fun cache => { cache with slabCount := cache.slabCount + 1 }
    (listInsert s c slab .emptyList, some slab)

/-- slab_release_locked: unlink the slab, clear its magic and give its pages
back (a failure of page_free is ignored, as in the source). -/
def slabReleaseLocked (s : HeapState) (c : CacheRef) (slab : Nat) : HeapState :=
  let pageIndex := (s.slabAt slab).pageIndex
  let order := (s.slabAt slab).order
  let s := listRemove s c slab
  let s := s.modifyCache c fun cache => { cache with slabCount := cache.slabCount - 1 }
  let s := s.modifySlab slab fun h => { h with magic := 0 }
  (pageFree s pageIndex order).1

/-! ## Objects -/

/-- cache_alloc_requested: one object of the cache, recorded with the size the
caller asked for; the payload address, 0 for NULL.  The slab found or created
moves to the full or the partial list.  A destroyed cache refuses. -/
def cacheAllocRequested (s : HeapState) (c : CacheRef) (requested : Nat) : HeapState × Nat :=
  if (s.caches c).destroying then (s, 0)
  else
    let cache := s.caches c
    let found := if cache.partialHead ≠ 0 then cache.partialHead else cache.emptyHead
    let (s, slab) := if found ≠ 0 then (s, some found) else slabCreateLocked s c
    match slab with
    | none => (s, 0)
    | some slab =>
      if (s.slabAt slab).freeList = 0 then (s, 0)
      else
        let s := listRemove s c slab
        let object := (s.slabAt slab).freeList
        let s := s.modifySlab slab fun h => { h with freeList := (s.objectAt object).nextFree }
        let s := s.modifyObject object fun o =>
          { o with nextFree := 0, requested := requested, state := objectAllocated }
        let s := s.modifySlab slab fun h => { h with inuse := h.inuse + 1 }
        let s := s.modifyCache c fun cache => { cache with objects := cache.objects + 1 }
        let h := s.slabAt slab
        let s := listInsert s c slab (if h.inuse = h.objectCount then .fullList else .partialList)
        (s, object + (s.caches c).payloadOffset)

/-- cache_free_object: return the object at pointer to the slab at address
slab; expected, when given, is the cache the caller names.  The result is the
new state, the return value (0, or -1 for a pointer that is not an allocated
object, -2 for a header that fails its checks) and the size the object was
allocated with.  Every rejection leaves the state unchanged. -/
def cacheFreeObject (s : HeapState) (expected : Option CacheRef) (slab pointer : Nat) :
    HeapState × Int × Nat :=
  match s.cacheWordAt slab with
  | none => (s, -1, 0)
  | some c =>
    if expected.any (· != c) then (s, -1, 0)
    else
      let h := s.slabAt slab
      if s.magicAt slab ≠ slabMagic ∨ h.cookie ≠ slabCookie s.cookie slab ∨ h.cache ≠ some c ∨
          h.list = .none then (s, -2, 0)
      else
        let cache := s.caches c
        let payloadStart := h.objectStart + cache.payloadOffset
        if pointer < payloadStart ∨ (pointer - payloadStart) % cache.stride ≠ 0 ∨
            (pointer - payloadStart) / cache.stride ≥ h.objectCount then (s, -1, 0)
        else
          let object := pointer - cache.payloadOffset
          let o := s.objectAt object
          if s.magicAt object ≠ slabObjectMagic ∨ o.slab ≠ slab ∨
              o.cookie ≠ objectCookie s.cookie object then (s, -2, 0)
          else if o.state ≠ objectAllocated then (s, -1, 0)
          else if o.requested = 0 ∨ o.requested > cache.objectSize then (s, -2, 0)
          else
            let s := listRemove s c slab
            let s := s.modifyObject object fun o =>
              { o with requested := 0, state := objectFree, nextFree := (s.slabAt slab).freeList }
            let s := s.modifySlab slab fun h => { h with freeList := object, inuse := h.inuse - 1 }
            let s := s.modifyCache c fun cache => { cache with objects := cache.objects - 1 }
            let inuse := (s.slabAt slab).inuse
            let s := listInsert s c slab (if inuse ≠ 0 then .partialList else .emptyList)
            -- keep one warm empty slab per cache and release any second one
            let s := if inuse = 0 ∧ (s.caches c).emptyCount > 1 then slabReleaseLocked s c slab
              else s
            (s, 0, o.requested)

end Uinxed.Heap
