/-
  Mem/Heap/Basic.lean --- the state of the kernel heap of src/mem/alloc.c and
  its page-level operations.

  The heap is one arena of 4 KiB pages handed out by a buddy allocator whose
  page descriptors sit in the first pages of the arena.  Blocks of pages are
  either slabs (a slab header, then objects each behind an object header) or
  large blocks (a large header, then the user bytes).  page_alloc tags every
  page of a block with the block's first page index plus one, so that
  pointer_owner finds the header of the block any interior pointer lies in.

  Memory is modelled at the level of the three header records the allocator
  writes: mem maps an address to the header last written there.  A field read
  through a pointer reads the record at that address; the magic word at offset
  0, which all three header types share, is read from whatever record is there
  (magicAt), and memory the allocator never wrote reads as zero.  Payload
  bytes (the poison pattern, the client's data, constructor and destructor
  callbacks) are not modelled; no header read in the allocator depends on them.

  Scalars are Nat.  Where size_t arithmetic can wrap, the model reduces it
  modulo 2^64 explicitly: large_alloc's page count is the one place it does.
  Locks, the statistics counters that only heap_get_stats reads, the error
  handler and the diagnostics are not modelled.
-/
import Uinxed.Mem.Frame.Basic

set_option autoImplicit false

namespace Uinxed.Heap

open Uinxed.Buddy
open Uinxed.Frame (page4kSize sizeMax)

/-! ## Constants -/

/-- HEAP_MIN_ALIGNMENT. -/
def heapMinAlignment : Nat := 16

/-- SLAB_MAX_ORDER: the largest order cache_layout tries for a slab. -/
def slabMaxOrder : Nat := 8

/-- SLAB_MAGIC. -/
def slabMagic : Nat := 0x534c414255494e58

/-- SLAB_OBJECT_MAGIC. -/
def slabObjectMagic : Nat := 0x4f424a55494e5844

/-- LARGE_MAGIC. -/
def largeMagic : Nat := 0x4c41524755494e58

/-- OBJECT_FREE. -/
def objectFree : Nat := 0

/-- OBJECT_ALLOCATED. -/
def objectAllocated : Nat := 1

/-- LARGE_ALLOCATED. -/
def largeAllocated : Nat := 1

/-- The SLAB_LIST_* values of slab_header_t.list: on no list, or on the
partial, full or empty list of its cache. -/
inductive SlabList where
  | none
  | partialList
  | fullList
  | emptyList
  deriving DecidableEq, Repr

/-- sizeof(slab_object_header_t): magic, slab, next_free, requested of 8 bytes,
state and cookie of 4. -/
def slabObjectHeaderSize : Nat := 40

/-- sizeof(slab_header_t): six words, page_index, object_count and inuse,
list, order and reserved, then object_start at offset 72. -/
def slabHeaderSize : Nat := 80

/-- sizeof(large_header_t): seven words, then order, state, reserved16 and
reserved32. -/
def largeHeaderSize : Nat := 64

/-- sizeof(slab_cache_t): the lock, a 32-byte name, and the cache fields. -/
def slabCacheSize : Nat := 200

/-- sizeof(buddy_page_t). -/
def buddyPageSize : Nat := 16

/-- size_classes: the object sizes of the seventeen kmalloc caches. -/
def sizeClasses : List Nat :=
  [16, 32, 64, 96, 128, 192, 256, 384, 512, 768, 1024, 1536, 2048, 3072, 4096, 6144, 8192]

/-- SIZE_CACHE_COUNT. -/
def sizeCacheCount : Nat := 17

/-! ## Arithmetic helpers -/

/-- align_up_size: round value up to a multiple of a power-of-two alignment,
or SIZE_MAX when that would overflow.  For a power of two,
x & ~(alignment - 1) is x rounded down to a multiple of alignment. -/
def alignUpSize (value alignment : Nat) : Nat :=
  if value > sizeMax - (alignment - 1) then sizeMax
  else (value + alignment - 1) / alignment * alignment

/-- valid_alignment: a non-zero power of two. -/
def validAlignment (alignment : Nat) : Bool :=
  alignment != 0 && alignment &&& (alignment - 1) == 0

/-- Unsigned subtraction of two 64-bit words. -/
def sub64 (a b : Nat) : Nat := (a + 2 ^ 64 - b) % 2 ^ 64

/-- object_cookie: the 32-bit guard of the object header at address object. -/
def objectCookie (heapCookie object : Nat) : Nat :=
  ((object >>> 4) ^^^ heapCookie ^^^ 0xa55a31c7) % 2 ^ 32

/-- slab_cookie: the guard of the slab header at address slab. -/
def slabCookie (heapCookie slab : Nat) : Nat :=
  slab ^^^ heapCookie ^^^ 0x91e10da5c79e7b1d

/-- large_cookie: the guard of the large header at address header. -/
def largeCookie (heapCookie header : Nat) : Nat :=
  header ^^^ heapCookie ^^^ 0xd6e8feb86659fd93

/-! ## Headers and caches -/

/-- A slab_cache_t pointer: one of the static size_caches, or a cache that
slab_cache_create allocated at the given heap address. -/
inductive CacheRef where
  | size (index : Nat)
  | dynamic (address : Nat)
  deriving DecidableEq, Repr

/-- slab_object_header_t.  Pointers are addresses, 0 for NULL. -/
structure ObjectHeader where
  magic : Nat
  slab : Nat
  nextFree : Nat
  requested : Nat
  state : Nat
  cookie : Nat
  deriving DecidableEq, Repr

/-- slab_header_t.  The cache pointer is none for NULL; previous, next and
free_list are addresses, 0 for NULL. -/
structure SlabHeader where
  magic : Nat
  cookie : Nat
  cache : Option CacheRef
  previous : Nat
  next : Nat
  freeList : Nat
  pageIndex : Nat
  objectCount : Nat
  inuse : Nat
  list : SlabList
  order : Nat
  objectStart : Nat
  deriving DecidableEq, Repr

/-- large_header_t without its reserved fields. -/
structure LargeHeader where
  magic : Nat
  cookie : Nat
  user : Nat
  requested : Nat
  usable : Nat
  pageIndex : Nat
  alignment : Nat
  order : Nat
  state : Nat
  deriving DecidableEq, Repr

/-- The header record stored at an address of the arena. -/
inductive Header where
  | slab (h : SlabHeader)
  | object (h : ObjectHeader)
  | large (h : LargeHeader)
  deriving DecidableEq, Repr

/-- A slab header whose bytes are all zero. -/
def SlabHeader.zero : SlabHeader :=
  ⟨0, 0, none, 0, 0, 0, 0, 0, 0, .none, 0, 0⟩

/-- An object header whose bytes are all zero. -/
def ObjectHeader.zero : ObjectHeader := ⟨0, 0, 0, 0, 0, 0⟩

/-- A large header whose bytes are all zero. -/
def LargeHeader.zero : LargeHeader := ⟨0, 0, 0, 0, 0, 0, 0, 0, 0⟩

/-- The word at offset 0 of a header: its magic, in all three layouts. -/
def Header.magic : Header → Nat
  | .slab h => h.magic
  | .object h => h.magic
  | .large h => h.magic

/-- A header read as a slab header; the fields of another layout are not
modelled and read as zero. -/
def Header.asSlab : Header → SlabHeader
  | .slab h => h
  | _ => SlabHeader.zero

/-- A header read as an object header. -/
def Header.asObject : Header → ObjectHeader
  | .object h => h
  | _ => ObjectHeader.zero

/-- A header read as a large header. -/
def Header.asLarge : Header → LargeHeader
  | .large h => h
  | _ => LargeHeader.zero

/-- The word at offset 16 of a header, which cache_free_object reads as
slab->cache: the cache of a slab header, the next_free pointer of an object
header, the user pointer of a large header. -/
def Header.cacheWord : Header → Option CacheRef
  | .slab h => h.cache
  | .object h => if h.nextFree = 0 then none else some (.dynamic h.nextFree)
  | .large h => if h.user = 0 then none else some (.dynamic h.user)

/-- slab_cache_t as the modelled functions read it; the name, the
constructor and destructor and the allocations/frees statistics are not
modelled.  The heads of the partial, full and empty lists are slab
addresses, 0 for NULL. -/
structure SlabCache where
  objectSize : Nat
  alignment : Nat
  payloadOffset : Nat
  stride : Nat
  slabOrder : Nat
  colorNext : Nat
  partialHead : Nat
  fullHead : Nat
  emptyHead : Nat
  slabCount : Nat
  partialCount : Nat
  fullCount : Nat
  emptyCount : Nat
  objects : Nat
  dynamic : Bool
  destroying : Bool
  deriving DecidableEq, Repr

/-- A slab cache whose bytes are all zero (memset in cache_init). -/
def SlabCache.zero : SlabCache :=
  ⟨0, 0, 0, 0, 0, 0, 0, 0, 0, 0, 0, 0, 0, 0, false, false⟩

/-- The head of one of a cache's three lists. -/
def SlabCache.head (c : SlabCache) : SlabList → Nat
  | .partialList => c.partialHead
  | .fullList => c.fullHead
  | _ => c.emptyHead

/-- The count of one of a cache's three lists. -/
def SlabCache.count (c : SlabCache) : SlabList → Nat
  | .partialList => c.partialCount
  | .fullList => c.fullCount
  | _ => c.emptyCount

/-- Set the head of one of a cache's lists; SLAB_LIST_NONE names the empty
list, as in list_insert. -/
def SlabCache.setHead (c : SlabCache) (list : SlabList) (head : Nat) : SlabCache :=
  match list with
  | .partialList => { c with partialHead := head }
  | .fullList => { c with fullHead := head }
  | _ => { c with emptyHead := head }

/-- Set the count of one of a cache's lists. -/
def SlabCache.setCount (c : SlabCache) (list : SlabList) (count : Nat) : SlabCache :=
  match list with
  | .partialList => { c with partialCount := count }
  | .fullList => { c with fullCount := count }
  | _ => { c with emptyCount := count }

/-- heap_state_t with the static size_caches array and the dynamic caches:
everything the modelled functions read. -/
structure HeapState where
  base : Nat
  size : Nat
  pageCount : Nat
  metadataPages : Nat
  pages : BuddyAllocator
  cookie : Nat
  online : Bool
  mem : Nat → Option Header
  caches : CacheRef → SlabCache

/-- The static heap before heap_init: all zero. -/
def HeapState.zero : HeapState :=
  { base := 0, size := 0, pageCount := 0, metadataPages := 0, pages := Frame.BuddyAllocator.zero,
    cookie := 0, online := false, mem := fun _ => none, caches := fun _ => SlabCache.zero }

/-! ## Reading and writing headers -/

namespace HeapState

variable (s : HeapState)

/-- The magic word at an address. -/
def magicAt (a : Nat) : Nat :=
  match s.mem a with
  | some h => h.magic
  | none => 0

/-- The slab header at an address. -/
def slabAt (a : Nat) : SlabHeader :=
  match s.mem a with
  | some h => h.asSlab
  | none => SlabHeader.zero

/-- The object header at an address. -/
def objectAt (a : Nat) : ObjectHeader :=
  match s.mem a with
  | some h => h.asObject
  | none => ObjectHeader.zero

/-- The large header at an address. -/
def largeAt (a : Nat) : LargeHeader :=
  match s.mem a with
  | some h => h.asLarge
  | none => LargeHeader.zero

/-- slab->cache read at an address (see Header.cacheWord). -/
def cacheWordAt (a : Nat) : Option CacheRef :=
  match s.mem a with
  | some h => h.cacheWord
  | none => none

/-- Write a header at an address. -/
def write (a : Nat) (h : Header) : HeapState :=
  { s with mem := Function.update s.mem a (some h) }

/-- Rewrite fields of the slab header at an address. -/
def modifySlab (a : Nat) (f : SlabHeader → SlabHeader) : HeapState :=
  s.write a (.slab (f (s.slabAt a)))

/-- Rewrite fields of the object header at an address. -/
def modifyObject (a : Nat) (f : ObjectHeader → ObjectHeader) : HeapState :=
  s.write a (.object (f (s.objectAt a)))

/-- Rewrite fields of the large header at an address. -/
def modifyLarge (a : Nat) (f : LargeHeader → LargeHeader) : HeapState :=
  s.write a (.large (f (s.largeAt a)))

/-- The cache a slab header points to; a slab header with its magic and
cookie never holds NULL, through which the source would fault. -/
def cacheOf (c : Option CacheRef) : SlabCache :=
  match c with
  | some c => s.caches c
  | none => SlabCache.zero

/-- Rewrite fields of a cache. -/
def modifyCache (c : CacheRef) (f : SlabCache → SlabCache) : HeapState :=
  { s with caches := Function.update s.caches c (f (s.caches c)) }

/-- page_address: the address of a page of the arena. -/
def pageAddress (index : Nat) : Nat := s.base + index * page4kSize

/-! ### Reading back what was written

Every header write is a write; these lemmas read any header back after it, so
that no later proof unfolds the readers. -/

variable {s}

@[simp] theorem write_mem (a : Nat) (h : Header) (b : Nat) :
    (s.write a h).mem b = if b = a then some h else s.mem b := by
  simp only [write, Function.update_apply]

@[simp] theorem modifySlab_eq (a : Nat) (f : SlabHeader → SlabHeader) :
    s.modifySlab a f = s.write a (.slab (f (s.slabAt a))) := rfl

@[simp] theorem modifyObject_eq (a : Nat) (f : ObjectHeader → ObjectHeader) :
    s.modifyObject a f = s.write a (.object (f (s.objectAt a))) := rfl

@[simp] theorem modifyLarge_eq (a : Nat) (f : LargeHeader → LargeHeader) :
    s.modifyLarge a f = s.write a (.large (f (s.largeAt a))) := rfl

@[simp] theorem write_caches (a : Nat) (h : Header) : (s.write a h).caches = s.caches := rfl
@[simp] theorem write_pages (a : Nat) (h : Header) : (s.write a h).pages = s.pages := rfl
@[simp] theorem write_cookie (a : Nat) (h : Header) : (s.write a h).cookie = s.cookie := rfl
@[simp] theorem write_online (a : Nat) (h : Header) : (s.write a h).online = s.online := rfl
@[simp] theorem write_base (a : Nat) (h : Header) : (s.write a h).base = s.base := rfl
@[simp] theorem write_size (a : Nat) (h : Header) : (s.write a h).size = s.size := rfl
@[simp] theorem write_pageCount (a : Nat) (h : Header) : (s.write a h).pageCount = s.pageCount := rfl
@[simp] theorem pageAddress_write (a : Nat) (h : Header) (i : Nat) :
    (s.write a h).pageAddress i = s.pageAddress i := rfl

@[simp] theorem modifyCache_mem (c : CacheRef) (f : SlabCache → SlabCache) :
    (s.modifyCache c f).mem = s.mem := rfl
@[simp] theorem modifyCache_pages (c : CacheRef) (f : SlabCache → SlabCache) :
    (s.modifyCache c f).pages = s.pages := rfl
@[simp] theorem modifyCache_cookie (c : CacheRef) (f : SlabCache → SlabCache) :
    (s.modifyCache c f).cookie = s.cookie := rfl
@[simp] theorem modifyCache_online (c : CacheRef) (f : SlabCache → SlabCache) :
    (s.modifyCache c f).online = s.online := rfl
@[simp] theorem magicAt_modifyCache (c : CacheRef) (f : SlabCache → SlabCache) (a : Nat) :
    (s.modifyCache c f).magicAt a = s.magicAt a := rfl
@[simp] theorem slabAt_modifyCache (c : CacheRef) (f : SlabCache → SlabCache) (a : Nat) :
    (s.modifyCache c f).slabAt a = s.slabAt a := rfl
@[simp] theorem objectAt_modifyCache (c : CacheRef) (f : SlabCache → SlabCache) (a : Nat) :
    (s.modifyCache c f).objectAt a = s.objectAt a := rfl
@[simp] theorem largeAt_modifyCache (c : CacheRef) (f : SlabCache → SlabCache) (a : Nat) :
    (s.modifyCache c f).largeAt a = s.largeAt a := rfl
@[simp] theorem cacheWordAt_modifyCache (c : CacheRef) (f : SlabCache → SlabCache) (a : Nat) :
    (s.modifyCache c f).cacheWordAt a = s.cacheWordAt a := rfl
@[simp] theorem pageAddress_modifyCache (c : CacheRef) (f : SlabCache → SlabCache) (i : Nat) :
    (s.modifyCache c f).pageAddress i = s.pageAddress i := rfl

end HeapState

/-! ## Pages -/

/-- heap_max_order: the order of the page count, lowered by one when it is too
large.  (The unsigned decrement from order 0 cannot happen: heap_init asks for
at least sixteen pages.) -/
def heapMaxOrder (pages : Nat) : Nat :=
  let order := buddyOrderForUnits pages
  if order > buddyMaxOrder ∨ 2 ^ order > pages then order - 1 else order

/-- The tag write of page_alloc: the page belongs to the block whose first
page is index.  (index + 1 fits in uint32: page_count is below 2^31.) -/
def tagOwner (index : Nat) (p : BuddyPage) : BuddyPage := { p with tag := index + 1 }

/-- page_alloc: a block of 2^order pages from the buddy, every page tagged
with the block's first index plus one.  SIZE_MAX is none. -/
def pageAlloc (s : HeapState) (order : Nat) : HeapState × Option Nat :=
  match buddyAlloc s.pages order with
  | (b, none) => ({ s with pages := b }, none)
  | (b, some index) => ({ s with pages := b.setPages index (2 ^ order) (tagOwner index) }, some index)

/-- page_free: buddy_free, which also clears the tags. -/
def pageFree (s : HeapState) (index order : Nat) : HeapState × Int :=
  let r := buddyFree s.pages index order
  ({ s with pages := r.1 }, r.2)

/-- pointer_owner: the index of the first page of the block the address lies
in, read from its page's tag; none for an address outside the arena or on a
page no allocated block owns. -/
def pointerOwner (s : HeapState) (address : Nat) : Option Nat :=
  if !s.online ∨ address < s.base ∨ address ≥ s.base + s.size then none
  else
    let page := (address - s.base) / page4kSize
    let tag := (s.pages.pages page).tag
    if tag = 0 ∨ tag > s.pageCount then none else some (tag - 1)

/-! ## Cache layout -/

/-- The search loop of cache_layout over the orders order, order + 1, ...,
SLAB_MAX_ORDER: the order wasting the least bytes, unless an order holds at
least eight objects with at most an eighth wasted, which ends the search.
Returns best_order; BUDDY_MAX_ORDER + 1 when no order holds an object. -/
def layoutLoop (alignment stride : Nat) : Nat → Nat → Nat → Nat → Nat
  | 0, _, bestOrder, _ => bestOrder
  | fuel + 1, order, bestOrder, bestWaste =>
    let bytes := page4kSize * 2 ^ order
    let base := alignUpSize slabHeaderSize alignment
    if base ≥ bytes then layoutLoop alignment stride fuel (order + 1) bestOrder bestWaste
    else
      let objects := (bytes - base) / stride
      if objects = 0 then layoutLoop alignment stride fuel (order + 1) bestOrder bestWaste
      else
        let waste := bytes - base - objects * stride
        let (bestOrder, bestWaste) := if waste < bestWaste then (order, waste) else (bestOrder, bestWaste)
        if objects ≥ 8 ∧ waste ≤ bytes / 8 then order
        else layoutLoop alignment stride fuel (order + 1) bestOrder bestWaste

/-- cache_layout: the payload offset, the stride and the slab order of a
cache whose object size and alignment are set; none when it returns -1. -/
def cacheLayout (c : SlabCache) : Option SlabCache :=
  let payloadOffset := alignUpSize slabObjectHeaderSize c.alignment
  if payloadOffset = sizeMax ∨ c.objectSize > sizeMax - payloadOffset then none
  else
    let stride := alignUpSize (payloadOffset + c.objectSize) c.alignment
    if stride = sizeMax then none
    else
      let bestOrder := layoutLoop c.alignment stride (slabMaxOrder + 1) 0 (buddyMaxOrder + 1) sizeMax
      if bestOrder > slabMaxOrder then none
      else some { c with payloadOffset := payloadOffset, stride := stride, slabOrder := bestOrder }

/-- cache_init: a zeroed cache with the object size, the alignment (at least
HEAP_MIN_ALIGNMENT) and the layout; none when it returns -1. -/
def cacheInit (size alignment : Nat) (dynamic : Bool) : Option SlabCache :=
  if size = 0 ∨ !validAlignment alignment ∨ alignment < 8 ∨ alignment > page4kSize then none
  else
    cacheLayout { SlabCache.zero with
      objectSize := size
      alignment := if alignment < heapMinAlignment then heapMinAlignment else alignment
      dynamic := dynamic }

/-- cache_for_size: the first size class that holds size. -/
def cacheForSize (size : Nat) : Option CacheRef :=
  (sizeClasses.findIdx? fun c => size ≤ c).map CacheRef.size

/-! ## The large path -/

/-- large_alloc: a block of pages behind a large header, with the user
pointer aligned.  The page count is computed in size_t: needed +
PAGE_4K_SIZE - 1 wraps for sizes within a page of SIZE_MAX, which the guard
does not exclude. -/
def largeAlloc (s : HeapState) (alignment size : Nat) : HeapState × Nat :=
  if alignment > s.size ∨ size > sizeMax - largeHeaderSize - alignment then (s, 0)
  else
    let needed := (largeHeaderSize + size + alignment - 1) % 2 ^ 64
    let pages := ((needed + page4kSize - 1) % 2 ^ 64) / page4kSize
    let order := buddyOrderForUnits pages
    if order > s.pages.maxOrder then (s, 0)
    else
      match pageAlloc s order with
      | (s, none) => (s, 0)
      | (s, some pageIndex) =>
        let header := s.pageAddress pageIndex
        let user := alignUpSize (header + largeHeaderSize) alignment
        let blockBytes := page4kSize * 2 ^ order
        (s.write header (.large
          { magic := largeMagic
            cookie := largeCookie s.cookie header
            user := user
            requested := size
            usable := sub64 (header + blockBytes) user
            pageIndex := pageIndex
            alignment := alignment
            order := order
            state := largeAllocated }), user)

/-! ## heap_init -/

/-- The loop of heap_init over the size classes: cache_init of each kmalloc
cache, stopping at the first failure (none). -/
def initSizeCaches (caches : CacheRef → SlabCache) : List Nat → Nat → Option (CacheRef → SlabCache)
  | [], _ => some caches
  | size :: rest, i =>
    match cacheInit size heapMinAlignment false with
    | none => none
    | some c => initSizeCaches (Function.update caches (.size i) c) rest (i + 1)

/-- heap_init: the arena at address of size bytes.  The result is the new state
and the return value; a call rejected before the memset leaves the state as
it was, a later failure leaves it offline. -/
def heapInit (s : HeapState) (address size : Nat) : HeapState × Int :=
  if address = 0 ∨ address % page4kSize ≠ 0 ∨ size < page4kSize * 16 then (s, -1)
  else
    let size := size - size % page4kSize
    let pageCount := size / page4kSize
    if pageCount > 0x7fffffff then (s, -1)
    else
      let metadataPages := (pageCount * buddyPageSize + page4kSize - 1) / page4kSize
      if metadataPages ≥ pageCount then (s, -1)
      else
        let s := { s with
          base := address
          size := size
          pageCount := pageCount
          metadataPages := metadataPages
          pages := Frame.BuddyAllocator.zero
          cookie := address ^^^ size ^^^ 0x9e3779b97f4a7c15
          online := false }
        match buddyInit pageCount (heapMaxOrder pageCount) with
        | none => (s, -1)
        | some b =>
          let r := buddyAddRange b metadataPages (pageCount - metadataPages)
          let s := { s with pages := r.1 }
          if r.2 ≠ 0 then (s, -1)
          else
            match initSizeCaches s.caches sizeClasses 0 with
            | none => (s, -1)
            | some caches => ({ s with caches := caches, online := true }, 0)

end Uinxed.Heap
