/-
  Mem/PageCache/Mapping.lean --- one mapping of the page cache of
  src/mem/pagecache.c, run sequentially: its cached pages with their data and
  flags, its size and readahead window, and the object behind it.

  pagecache_read and pagecache_write walk a byte range page by page: each
  page is found or created (pc_get_page), loaded from the backing object when
  it is not UPTODATE (pc_load_locked reads the page's part of the file below
  the mapping size and zero-fills the rest), and copied from or into.  A write
  to a page that is not UPTODATE loads it only when it keeps bytes of the page
  below the old size, and otherwise zeroes it; it zeroes the gap between the
  old end of file and the write inside the page, marks the page dirty and
  grows the size.  pagecache_writeback writes the dirty pages of a range in
  index order, each clipped to the size; pagecache_invalidate and
  pagecache_evict drop pages, refusing dirty ones unless told to discard them;
  pagecache_truncate resizes the object, drops the pages past the new size and
  zeroes the tail of the last page; readahead loads pages ahead of a read;
  pagecache_reclaim ages pages through the LRU and frees clean ones, writing
  back a dirty one when it finds no clean victim.

  The backing object is a ByteFile: its read returns the bytes of a range
  clipped to its length, its write stores bytes (growing it with zeros), its
  resize cuts or zero-extends, and none of them fails; its sync does nothing.
  Page allocation always succeeds, and max_pages with the reclaim pc_get_page
  runs when the cache is full is left out.  A mapping's pages are one list in
  LRU order, most recently used first: it is the global LRU restricted to the
  mapping, and it also stands for the order in which the bucket walks of
  pagecache_invalidate and pagecache_evict meet the pages (the hash function
  and the chain order are not modelled).  Page references, locks, EVICTING and
  WRITEBACK (set and cleared inside one call), ERROR, WAS_DIRTY, the
  statistics, the mapping's error field, its pins and its UNEVICTABLE flag are
  left out; so are the writeback flags, which only select ops.sync and the
  error reset.  Offsets, sizes and page indices are Nat; the callers' values
  are below 2^64, and the one sum that can pass it, pagecache_truncate's
  first_dead rounding, wraps as the uint64_t arithmetic does.
-/
import Uinxed.Lib.ByteFile
import Mathlib.Data.UInt

set_option autoImplicit false

namespace Uinxed.PageCache

/-! ## Constants -/

/-- PAGECACHE_PAGE_SIZE. -/
def pageSize : Nat := 4096

/-- UINT64_MAX, also SIZE_MAX. -/
def u64Max : Nat := 2 ^ 64 - 1

/-- PAGECACHE_READAHEAD_MIN and PAGECACHE_READAHEAD_MAX. -/
def readaheadMin : Nat := 2
def readaheadMax : Nat := 16

/-- PAGECACHE_RECLAIM_MIN_SCAN, PAGECACHE_RECLAIM_SCAN_PER_PAGE and
PAGECACHE_RECLAIM_MAX_WRITEBACK. -/
def reclaimMinScan : Nat := 4096
def reclaimScanPerPage : Nat := 32
def reclaimMaxWriteback : Nat := 4

/-- EBUSY, EINVAL and EFBIG. -/
def ebusy : Int := 16
def einval : Int := 22
def efbig : Int := 27

/-! ## Pages and the mapping -/

/-- A cached page: its 4 KiB of data and the flags the modelled paths read
(PC_PAGE_UPTODATE, DIRTY, REFERENCED, ACTIVE and READAHEAD). -/
structure CachePage where
  data : Nat → UInt8
  uptodate : Bool
  dirty : Bool
  referenced : Bool
  active : Bool
  readahead : Bool

/-- A mapping: its pages by index in LRU order, most recently used first, its
size, its readahead window, and the object behind it. -/
structure Mapping where
  pages : List (Nat × CachePage)
  size : Nat
  readaheadLast : Nat
  readaheadEnd : Nat
  readaheadWindow : Nat
  readaheadValid : Bool
  store : ByteFile UInt8

/-- pagecache_mapping_create over a backing object, with the object's size. -/
def Mapping.create (store : ByteFile UInt8) : Mapping :=
  { pages := [], size := store.size, readaheadLast := 0, readaheadEnd := 0, readaheadWindow := 0,
    readaheadValid := false, store := store }

namespace Mapping

/-- pc_find_locked: the page of an index. -/
def find (m : Mapping) (index : Nat) : Option CachePage :=
  (m.pages.find? fun e => e.1 == index).map Prod.snd

/-- Replace the page of an index by f of it. -/
def modifyPage (m : Mapping) (index : Nat) (f : CachePage → CachePage) : Mapping :=
  { m with pages := m.pages.map fun e => if e.1 = index then (e.1, f e.2) else e }

/-- pc_unlink_page and pc_free_page: the page of an index leaves the hash
chains and the LRU. -/
def removePage (m : Mapping) (index : Nat) : Mapping :=
  { m with pages := m.pages.filter fun e => e.1 != index }

/-- Move the page of an index to the head of the LRU (pc_lru_remove_locked
and pc_lru_add_head_locked). -/
def toHead (m : Mapping) (index : Nat) : Mapping :=
  match m.find index with
  | some p => { m with pages := (index, p) :: m.pages.filter fun e => e.1 != index }
  | none => m

/-- The page before an index in the LRU, towards the head (lru_prev). -/
def prevOf (m : Mapping) (index : Nat) : Option Nat :=
  ((m.pages.map Prod.fst).zip ((m.pages.map Prod.fst).drop 1)).find? (fun e => e.2 == index) |>.map Prod.fst

/-- The LRU tail. -/
def tail? (m : Mapping) : Option Nat := (m.pages.map Prod.fst).getLast?

/-- The data of the page of an index. -/
def pageData (m : Mapping) (index : Nat) : Nat → UInt8 :=
  match m.find index with
  | some p => p.data
  | none => fun _ => 0

theorem pageData_of_find {m : Mapping} {i : Nat} {p : CachePage} (h : m.find i = some p) :
    m.pageData i = p.data := by
  unfold pageData
  rw [h]

/-- The page indices, in LRU order. -/
def keys (m : Mapping) : List Nat := m.pages.map Prod.fst

/-! ### Lookup after the list operations -/

theorem mem_of_find {m : Mapping} {i : Nat} {p : CachePage} (h : m.find i = some p) : (i, p) ∈ m.pages := by
  unfold find at h
  obtain ⟨e, he, rfl⟩ := Option.map_eq_some_iff.mp h
  have hi : e.1 = i := by simpa using List.find?_some he
  rw [← hi]
  exact List.mem_of_find?_eq_some he

/-- With one page per index, a page of the list is the one its index finds. -/
theorem find_of_mem {m : Mapping} (hk : m.keys.Nodup) {i : Nat} {p : CachePage} (h : (i, p) ∈ m.pages) :
    m.find i = some p := by
  unfold find
  cases he : m.pages.find? (fun e => e.1 == i) with
  | none =>
    have := List.find?_eq_none.mp he (i, p) h
    simp at this
  | some e =>
    have hi : e.1 = i := by simpa using List.find?_some he
    have heq : e = (i, p) := List.inj_on_of_nodup_map hk (List.mem_of_find?_eq_some he) h hi
    simp [heq]

theorem find_eq_none_iff {m : Mapping} {i : Nat} : m.find i = none ↔ i ∉ m.keys := by
  simp only [find, keys, Option.map_eq_none_iff, List.find?_eq_none, beq_iff_eq, List.mem_map]
  constructor
  · rintro h ⟨e, he, rfl⟩
    exact h e he rfl
  · intro h e he hei
    exact h ⟨e, he, hei⟩

@[simp] theorem find_modifyPage (m : Mapping) (i j : Nat) (f : CachePage → CachePage) :
    (m.modifyPage i f).find j = if j = i then (m.find i).map f else m.find j := by
  unfold find modifyPage
  have hkey : ((fun e : Nat × CachePage => e.1 == j) ∘ fun e => if e.1 = i then (e.1, f e.2) else e) =
      fun e => e.1 == j := by
    funext e
    by_cases h : e.1 = i <;> simp [h]
  rw [List.find?_map, hkey]
  cases he : m.pages.find? (fun e => e.1 == j) with
  | none =>
    by_cases hji : j = i
    · subst hji
      simp [he]
    · simp [hji]
  | some e =>
    have hj : e.1 = j := by simpa using List.find?_some he
    by_cases hji : j = i
    · subst hji
      simp [he, hj]
    · simp [hji, hj]

@[simp] theorem find_removePage (m : Mapping) (i j : Nat) :
    (m.removePage i).find j = if j = i then none else m.find j := by
  unfold find removePage
  rw [List.find?_filter]
  by_cases hji : j = i
  · subst hji
    rw [if_pos rfl, List.find?_eq_none.mpr (fun e _ => by simp), Option.map_none]
  · rw [if_neg hji]
    congr 2
    funext e
    by_cases h : e.1 = j <;> simp [h, hji]

@[simp] theorem find_toHead (m : Mapping) (i j : Nat) : (m.toHead i).find j = m.find j := by
  unfold toHead
  cases h : m.find i with
  | none => rfl
  | some p =>
    by_cases hji : j = i
    · subst hji
      rw [h]
      simp [find]
    · have hrest := find_removePage m i j
      rw [if_neg hji] at hrest
      simp only [find, removePage] at hrest ⊢
      rw [List.find?_cons_of_neg (by simpa using Ne.symm hji), hrest]

@[simp] theorem keys_modifyPage (m : Mapping) (i : Nat) (f : CachePage → CachePage) :
    (m.modifyPage i f).keys = m.keys := by
  unfold keys modifyPage
  rw [List.map_map]
  congr 1
  funext e
  by_cases h : e.1 = i <;> simp [h]

@[simp] theorem keys_removePage (m : Mapping) (i : Nat) : (m.removePage i).keys = m.keys.filter (· != i) := by
  unfold keys removePage
  rw [List.filter_map]
  rfl

theorem nodup_keys_toHead {m : Mapping} (hk : m.keys.Nodup) (i : Nat) : (m.toHead i).keys.Nodup := by
  unfold toHead
  cases m.find i with
  | none => exact hk
  | some p =>
    have hrest : (m.removePage i).keys.Nodup := by
      rw [keys_removePage]
      exact hk.filter _
    refine List.nodup_cons.mpr ⟨?_, hrest⟩
    show i ∉ (m.removePage i).keys
    simp

@[simp] theorem size_modifyPage (m : Mapping) (i : Nat) (f : CachePage → CachePage) :
    (m.modifyPage i f).size = m.size := rfl

@[simp] theorem store_modifyPage (m : Mapping) (i : Nat) (f : CachePage → CachePage) :
    (m.modifyPage i f).store = m.store := rfl

@[simp] theorem size_removePage (m : Mapping) (i : Nat) : (m.removePage i).size = m.size := rfl

@[simp] theorem store_removePage (m : Mapping) (i : Nat) : (m.removePage i).store = m.store := rfl

@[simp] theorem size_toHead (m : Mapping) (i : Nat) : (m.toHead i).size = m.size := by
  unfold toHead
  split <;> rfl

@[simp] theorem store_toHead (m : Mapping) (i : Nat) : (m.toHead i).store = m.store := by
  unfold toHead
  split <;> rfl

end Mapping

/-! ## Finding, creating and loading pages -/

/-- pc_touch: a hot active page only gets its access bit; otherwise the
readahead mark goes, a second access makes the page active, and the page
moves to the LRU head. -/
def touch (m : Mapping) (index : Nat) : Mapping :=
  match m.find index with
  | none => m
  | some p =>
    if p.active ∧ p.readahead = false then m.modifyPage index fun p => { p with referenced := true }
    else
      let p := { p with readahead := false }
      let p := if p.referenced then { p with active := true } else { p with referenced := true }
      (m.modifyPage index fun _ => p).toHead index

/-- pc_get_page(mapping, index, create, accessed): the page of index, touched
when accessed, or a new page, not UPTODATE, at the LRU head when accessed and
at its tail with READAHEAD otherwise; false for NULL. -/
def getPage (m : Mapping) (index : Nat) (create accessed : Bool) : Mapping × Bool :=
  match m.find index with
  | some _ => (if accessed then touch m index else m, true)
  | none =>
    if create = false then (m, false)
    else
      let p : CachePage :=
        { data := fun _ => 0, uptodate := false, dirty := false, referenced := accessed, active := false,
          readahead := !accessed }
      ({ m with pages := if accessed then (index, p) :: m.pages else m.pages ++ [(index, p)] }, true)

/-- What of a page the file's contents depend on: its data and its UPTODATE
and DIRTY flags. -/
def CachePage.view (p : CachePage) : (Nat → UInt8) × Bool × Bool := (p.data, p.uptodate, p.dirty)

/-- Changing flags other than UPTODATE and DIRTY keeps every page's view. -/
theorem Mapping.find_modifyPage_view (m : Mapping) (i : Nat) (f : CachePage → CachePage)
    (hf : ∀ p, m.find i = some p → (f p).view = p.view) (j : Nat) :
    ((m.modifyPage i f).find j).map CachePage.view = (m.find j).map CachePage.view := by
  rw [Mapping.find_modifyPage]
  split
  · next hji =>
    subst hji
    cases h : m.find j with
    | none => rfl
    | some p => simp [hf p h]
  · rfl

@[simp] theorem find_touch (m : Mapping) (i j : Nat) :
    ((touch m i).find j).map CachePage.view = (m.find j).map CachePage.view := by
  unfold touch
  cases h : m.find i with
  | none => rfl
  | some p =>
    dsimp only
    split
    · refine Mapping.find_modifyPage_view m i _ ?_ j
      intro q _
      rfl
    · rw [Mapping.find_toHead]
      refine Mapping.find_modifyPage_view m i _ (fun q hq => ?_) j
      cases h.symm.trans hq
      split <;> rfl

@[simp] theorem size_touch (m : Mapping) (i : Nat) : (touch m i).size = m.size := by
  unfold touch
  split
  · rfl
  · split <;> simp

@[simp] theorem store_touch (m : Mapping) (i : Nat) : (touch m i).store = m.store := by
  unfold touch
  split
  · rfl
  · split <;> simp

theorem nodup_keys_touch {m : Mapping} (hk : m.keys.Nodup) (i : Nat) : (touch m i).keys.Nodup := by
  unfold touch
  split
  · exact hk
  · split
    · simpa using hk
    · exact Mapping.nodup_keys_toHead (by simpa using hk) i

/-- The view of a page pc_get_page creates: no data yet, not UPTODATE, not
dirty. -/
def freshView : (Nat → UInt8) × Bool × Bool := (fun _ => 0, false, false)

/-- pc_get_page changes no page's view, and adds a fresh page when it
creates one. -/
theorem find_getPage (m : Mapping) (i : Nat) (create accessed : Bool) (j : Nat) :
    ((getPage m i create accessed).1.find j).map CachePage.view =
      if j = i ∧ m.find i = none ∧ create = true then some freshView else (m.find j).map CachePage.view := by
  unfold getPage
  cases h : m.find i with
  | some p =>
    rw [if_neg (show ¬(j = i ∧ some p = none ∧ create = true) by simp)]
    cases accessed
    · rfl
    · exact find_touch m i j
  | none =>
    have hnone : m.pages.find? (fun e => e.1 == i) = none := by simpa [Mapping.find] using h
    cases create
    · simp
    · by_cases hji : j = i
      · subst hji
        rw [if_pos (show j = j ∧ (none : Option CachePage) = none ∧ true = true from ⟨rfl, rfl, rfl⟩)]
        cases accessed
        · simp [Mapping.find, List.find?_append, hnone, freshView, CachePage.view]
        · simp [Mapping.find, freshView, CachePage.view]
      · rw [if_neg (show ¬(j = i ∧ (none : Option CachePage) = none ∧ true = true) from fun hc => hji hc.1)]
        have hij : i ≠ j := Ne.symm hji
        cases accessed
        · simp [Mapping.find, List.find?_append, hij]
        · simp [Mapping.find, hij]

@[simp] theorem size_getPage (m : Mapping) (i : Nat) (create accessed : Bool) :
    (getPage m i create accessed).1.size = m.size := by
  unfold getPage
  split
  · cases accessed <;> simp
  · split <;> rfl

@[simp] theorem store_getPage (m : Mapping) (i : Nat) (create accessed : Bool) :
    (getPage m i create accessed).1.store = m.store := by
  unfold getPage
  split
  · cases accessed <;> simp
  · split <;> rfl

theorem nodup_keys_getPage {m : Mapping} (hk : m.keys.Nodup) (i : Nat) (create accessed : Bool) :
    (getPage m i create accessed).1.keys.Nodup := by
  unfold getPage
  split
  · cases accessed
    · exact hk
    · exact nodup_keys_touch hk i
  · next h =>
    have hi : i ∉ m.keys := Mapping.find_eq_none_iff.mp h
    split
    · exact hk
    · unfold Mapping.keys at hi hk ⊢
      cases accessed
      · simp only [Bool.false_eq_true, ↓reduceIte, List.map_append, List.map_cons, List.map_nil]
        exact List.nodup_append_comm.mp (List.nodup_cons.mpr ⟨hi, hk⟩)
      · simp only [↓reduceIte, List.map_cons]
        exact List.nodup_cons.mpr ⟨hi, hk⟩

/-- The bytes of page index that lie below a size. -/
def pageCount (size index : Nat) : Nat :=
  if size ≤ index * pageSize then 0 else min pageSize (size - index * pageSize)

/-- Byte x lies in page i. -/
theorem div_pageSize_eq_iff {x i : Nat} : x / pageSize = i ↔ i * pageSize ≤ x ∧ x < i * pageSize + pageSize := by
  rw [Nat.div_eq_iff (by decide)]
  unfold pageSize
  omega

theorem pageCount_le (size i : Nat) : pageCount size i ≤ pageSize := by
  unfold pageCount
  split <;> omega

/-- The bytes of a page from its count on lie at or past the size. -/
theorem size_le_of_pageCount_le {size i k : Nat} (hk : pageCount size i ≤ k) (hlt : k < pageSize) :
    size ≤ i * pageSize + k := by
  unfold pageCount at hk
  split at hk <;> omega

/-- The counted bytes of a page end at or below the size. -/
theorem add_pageCount_le {size i : Nat} (h : pageCount size i ≠ 0) : i * pageSize + pageCount size i ≤ size := by
  unfold pageCount at h ⊢
  by_cases hs : size ≤ i * pageSize
  · rw [if_pos hs] at h
    exact absurd rfl h
  · rw [if_neg hs]
    omega

/-- The counted bytes of the page of the last byte end at the size. -/
theorem add_pageCount_eq_of_last {size i : Nat} (hs : 0 < size) (h : (size - 1) / pageSize = i) :
    i * pageSize + pageCount size i = size := by
  have hi := div_pageSize_eq_iff.mp h
  unfold pageCount
  split <;> omega

/-- pc_load_locked: a page that is not UPTODATE is read from the backing
object, its part below the mapping size, and the rest zero-filled. -/
def loadLocked (m : Mapping) (index : Nat) : Mapping :=
  match m.find index with
  | none => m
  | some p =>
    if p.uptodate then m
    else
      let count := pageCount m.size index
      let bytes := m.store.read (index * pageSize) count
      m.modifyPage index fun p => { p with data := fun k => if k < count then bytes.getD k 0 else 0, uptodate := true }

theorem loadLocked_of_none {m : Mapping} {i : Nat} (h : m.find i = none) : loadLocked m i = m := by
  unfold loadLocked
  rw [h]

theorem loadLocked_of_uptodate {m : Mapping} {i : Nat} {p : CachePage} (h : m.find i = some p)
    (hu : p.uptodate = true) : loadLocked m i = m := by
  unfold loadLocked
  simp [h, hu]

/-- A page that is not UPTODATE is loaded, and no other page changes. -/
theorem loadLocked_of_not_uptodate {m : Mapping} {i : Nat} {p : CachePage} (h : m.find i = some p)
    (hu : p.uptodate = false) :
    loadLocked m i = m.modifyPage i fun p => { p with
      data := fun k => if k < pageCount m.size i then (m.store.read (i * pageSize) (pageCount m.size i)).getD k 0 else 0,
      uptodate := true } := by
  unfold loadLocked
  simp [h, hu]

@[simp] theorem size_loadLocked (m : Mapping) (i : Nat) : (loadLocked m i).size = m.size := by
  unfold loadLocked
  split
  · rfl
  · split <;> rfl

@[simp] theorem store_loadLocked (m : Mapping) (i : Nat) : (loadLocked m i).store = m.store := by
  unfold loadLocked
  split
  · rfl
  · split <;> rfl

@[simp] theorem keys_loadLocked (m : Mapping) (i : Nat) : (loadLocked m i).keys = m.keys := by
  unfold loadLocked
  split
  · rfl
  · split
    · rfl
    · exact Mapping.keys_modifyPage _ _ _

theorem find_loadLocked_ne (m : Mapping) {i j : Nat} (hji : j ≠ i) : (loadLocked m i).find j = m.find j := by
  unfold loadLocked
  split
  · rfl
  · split
    · rfl
    · simp [hji]

/-! ## Readahead -/

/-- pc_readahead_pages: create and load up to count pages from first, none
past the end of the file. -/
def readaheadPages (m : Mapping) (first count : Nat) : Mapping :=
  let filePages := m.size / pageSize + (if m.size % pageSize ≠ 0 then 1 else 0)
  if filePages = 0 ∨ filePages ≤ first then m
  else
    (List.range (min count (filePages - first))).foldl
      (fun m offset => loadLocked (getPage m (first + offset) true false).1 (first + offset)) m

/-- pc_adaptive_readahead: a read of pages first..last that follows the last
one grows the window and prefetches past it once it is consumed; any other
read restarts the window. -/
def adaptiveReadahead (m : Mapping) (first last : Nat) : Mapping :=
  let sequential := m.readaheadValid = true ∧ m.readaheadLast ≠ u64Max ∧ first = m.readaheadLast + 1
  let (m, prefetchFirst, prefetchCount) :=
    if ¬sequential then (({ m with readaheadWindow := 1, readaheadEnd := last } : Mapping), 0, 0)
    else if m.readaheadEnd ≤ last then
      let window := if m.readaheadWindow < readaheadMin then readaheadMin
        else if m.readaheadWindow < readaheadMax / 2 then m.readaheadWindow * 2 else readaheadMax
      (({ m with
          readaheadWindow := window
          readaheadEnd := if u64Max - last < window then u64Max else last + window } : Mapping), last + 1, window)
    else (m, 0, 0)
  let m : Mapping := { m with readaheadLast := last, readaheadValid := true }
  if prefetchCount ≠ 0 ∧ last ≠ u64Max then readaheadPages m prefetchFirst prefetchCount else m

/-- The window loop of pagecache_readahead over pages first..last. -/
def readaheadWindows : Nat → Mapping → Nat → Nat → Mapping
  | 0, m, _, _ => m
  | fuel + 1, m, first, last =>
    if last < first then m
    else
      let remaining := last - first + 1
      let window := min remaining readaheadMax
      let m := readaheadPages m first window
      if remaining ≤ window then m else readaheadWindows fuel m (first + window) last

/-- pagecache_readahead. -/
def pagecacheReadahead (m : Mapping) (offset size : Nat) : Mapping × Int :=
  if size ≠ 0 ∧ u64Max - size < offset then (m, -einval)
  else if size = 0 then (m, 0)
  else (readaheadWindows size m (offset / pageSize) ((offset + size - 1) / pageSize), 0)

/-! ## Reading and writing -/

/-- One turn of pagecache_read's copy loop: count bytes from pos, all inside
page pos / pageSize, which is found or created and loaded first. -/
def readChunk (m : Mapping) (pos count : Nat) : Mapping × List UInt8 :=
  let index := pos / pageSize
  let m := loadLocked (getPage m index true true).1 index
  (m, (List.range count).map fun k => m.pageData index (pos % pageSize + k))

/-- The copy loop of pagecache_read from pos with remaining bytes to go; each
turn copies from one page.  fuel bounds the turns. -/
def readLoop : Nat → Mapping → Nat → Nat → Mapping × List UInt8
  | 0, m, _, _ => (m, [])
  | fuel + 1, m, pos, remaining =>
    if remaining = 0 then (m, [])
    else
      let count := min (pageSize - pos % pageSize) remaining
      let (m, bytes) := readChunk m pos count
      let (m, rest) := readLoop fuel m (pos + count) (remaining - count)
      (m, bytes ++ rest)

/-- pagecache_read: the bytes of [offset, offset + size) below the mapping
size, then the adaptive readahead. -/
def pagecacheRead (m : Mapping) (offset size : Nat) : Mapping × List UInt8 :=
  if m.size ≤ offset ∨ size = 0 then (m, [])
  else
    let size := min size (m.size - offset)
    let (m, bytes) := readLoop size m offset size
    (adaptiveReadahead m (offset / pageSize) ((offset + size - 1) / pageSize), bytes)

/-- The page of one turn of pagecache_write before its bytes are copied: a
page that is not UPTODATE is loaded when the write leaves bytes of it below
the old size, and zeroed otherwise. -/
def prepareWrite (m : Mapping) (index inside count : Nat) : Mapping :=
  match m.find index with
  | none => m
  | some p =>
    if p.uptodate then m
    else if (inside ≠ 0 ∨ count ≠ pageSize) ∧ index * pageSize < m.size then loadLocked m index
    else m.modifyPage index fun p => { p with data := fun _ => 0, uptodate := true }

@[simp] theorem size_prepareWrite (m : Mapping) (i inside count : Nat) :
    (prepareWrite m i inside count).size = m.size := by
  unfold prepareWrite
  split
  · rfl
  · split
    · rfl
    · split <;> simp

@[simp] theorem store_prepareWrite (m : Mapping) (i inside count : Nat) :
    (prepareWrite m i inside count).store = m.store := by
  unfold prepareWrite
  split
  · rfl
  · split
    · rfl
    · split <;> simp

@[simp] theorem keys_prepareWrite (m : Mapping) (i inside count : Nat) :
    (prepareWrite m i inside count).keys = m.keys := by
  unfold prepareWrite
  split
  · rfl
  · split
    · rfl
    · split <;> simp

theorem find_prepareWrite_ne (m : Mapping) {i j : Nat} (inside count : Nat) (hji : j ≠ i) :
    (prepareWrite m i inside count).find j = m.find j := by
  unfold prepareWrite
  split
  · rfl
  · split
    · rfl
    · split
      · exact find_loadLocked_ne m hji
      · simp [hji]

/-- The page after pagecache_write copies chunk into it at inside: the gap
from the old end of file oldInPage up to inside zeroed, the bytes copied, and
the page marked dirty (pagecache_mark_dirty). -/
def copyChunk (inside oldInPage : Nat) (chunk : List UInt8) (p : CachePage) : CachePage :=
  { p with
    data := fun k => if inside ≤ k ∧ k < inside + chunk.length then chunk.getD (k - inside) 0
      else if oldInPage ≤ k ∧ k < inside then 0 else p.data k,
    dirty := true, uptodate := true, referenced := true }

/-- One turn of pagecache_write's copy loop: the bytes of chunk written from
pos, all inside page pos / pageSize.  The page is found or created, prepared
and copied into, and the size grows (pc_extend_size). -/
def writeChunk (m : Mapping) (pos : Nat) (chunk : List UInt8) : Mapping :=
  let index := pos / pageSize
  let m := (getPage m index true true).1
  let oldInPage := min pageSize (m.size - index * pageSize)
  let m := (prepareWrite m index (pos % pageSize) chunk.length).modifyPage index
    (copyChunk (pos % pageSize) oldInPage chunk)
  { m with size := max m.size (pos + chunk.length) }

theorem find_writeChunk (m : Mapping) (pos : Nat) (chunk : List UInt8) (j : Nat) :
    (writeChunk m pos chunk).find j =
      ((prepareWrite (getPage m (pos / pageSize) true true).1 (pos / pageSize) (pos % pageSize)
        chunk.length).modifyPage (pos / pageSize)
          (copyChunk (pos % pageSize) (min pageSize (m.size - pos / pageSize * pageSize)) chunk)).find j := by
  rw [← size_getPage m (pos / pageSize) true true]
  rfl

@[simp] theorem size_writeChunk (m : Mapping) (pos : Nat) (chunk : List UInt8) :
    (writeChunk m pos chunk).size = max m.size (pos + chunk.length) := by
  simp [writeChunk]

@[simp] theorem store_writeChunk (m : Mapping) (pos : Nat) (chunk : List UInt8) :
    (writeChunk m pos chunk).store = m.store := by
  simp [writeChunk]

@[simp] theorem keys_writeChunk (m : Mapping) (pos : Nat) (chunk : List UInt8) :
    (writeChunk m pos chunk).keys = (getPage m (pos / pageSize) true true).1.keys := by
  show ((prepareWrite _ _ _ _).modifyPage _ _).keys = _
  rw [Mapping.keys_modifyPage, keys_prepareWrite]

/-- The copy loop of pagecache_write from pos with the bytes still to write,
one page a turn.  fuel bounds the turns. -/
def writeLoop : Nat → Mapping → Nat → List UInt8 → Mapping
  | 0, m, _, _ => m
  | fuel + 1, m, pos, data =>
    if data.length = 0 then m
    else
      let count := min (pageSize - pos % pageSize) data.length
      writeLoop fuel (writeChunk m pos (data.take count)) (pos + count) (data.drop count)

/-- pagecache_write: the number of bytes written, or -EFBIG. -/
def pagecacheWrite (m : Mapping) (offset : Nat) (data : List UInt8) : Mapping × Int :=
  if data.length = 0 then (m, 0)
  else if u64Max - data.length < offset then (m, -efbig)
  else (writeLoop data.length { m with readaheadValid := false } offset data, data.length)

/-! ## Writeback, invalidation, eviction and truncation -/

/-- Whether page index overlaps the byte range [start, stop]. -/
def overlaps (start stop index : Nat) : Bool :=
  start ≤ index * pageSize + pageSize - 1 ∧ index * pageSize ≤ stop

/-- pc_writeback_page_locked: a dirty page's bytes below the size go to the
backing object, and the page is clean. -/
def writebackPage (m : Mapping) (index : Nat) : Mapping :=
  match m.find index with
  | none => m
  | some p =>
    if p.dirty = false then m
    else
      let count := pageCount m.size index
      let m : Mapping := if count = 0 then m
        else { m with store := m.store.write (index * pageSize) ((List.range count).map p.data) }
      m.modifyPage index fun p => { p with dirty := false }

theorem writebackPage_of_clean {m : Mapping} {i : Nat} (h : (m.find i).any CachePage.dirty = false) :
    writebackPage m i = m := by
  unfold writebackPage
  cases hf : m.find i with
  | none => rfl
  | some p =>
    rw [hf] at h
    simp [show p.dirty = false from h]

/-- A dirty page's counted bytes go to the object and the page is clean. -/
theorem writebackPage_of_dirty {m : Mapping} {i : Nat} {p : CachePage} (h : m.find i = some p)
    (hd : p.dirty = true) :
    writebackPage m i =
      ({ m with store := if pageCount m.size i = 0 then m.store
          else m.store.write (i * pageSize) ((List.range (pageCount m.size i)).map p.data) } : Mapping).modifyPage i
        fun p => { p with dirty := false } := by
  unfold writebackPage
  rw [h]
  simp only [hd, Bool.true_eq_false, if_false]
  split <;> rfl

/-- pagecache_writeback over [start, stop]: the dirty pages of the range, in
index order (pc_sort_pages); -EFBIG past a million of them. -/
def pagecacheWriteback (m : Mapping) (start stop : Nat) : Mapping × Int :=
  if stop < start then (m, 0)
  else
    let dirty := (m.pages.filter fun e => e.2.dirty && overlaps start stop e.1).map Prod.fst
    if dirty.length = 0 then (m, 0)
    else if 1000000 < dirty.length then (m, -efbig)
    else ((dirty.mergeSort fun a b => decide (a ≤ b)).foldl writebackPage m, 0)

/-- The loop of pagecache_invalidate: drop the first page of the range the
walk meets, until none is left; a dirty one ends the walk with -EBUSY unless
dirty pages are discarded. -/
def invalidateLoop : Nat → Mapping → Nat → Nat → Bool → Mapping × Int
  | 0, m, _, _, _ => (m, 0)
  | fuel + 1, m, start, stop, discard =>
    match m.pages.find? fun e => overlaps start stop e.1 with
    | none => (m, 0)
    | some (index, p) =>
      if p.dirty ∧ discard = false then (m, -ebusy)
      else invalidateLoop fuel (m.removePage index) start stop discard

/-- pagecache_invalidate over [start, stop]; discard is
PAGECACHE_INVALIDATE_DISCARD_DIRTY. -/
def pagecacheInvalidate (m : Mapping) (start stop : Nat) (discard : Bool) : Mapping × Int :=
  if stop < start then (m, 0) else invalidateLoop (m.pages.length + 1) m start stop discard

/-- pagecache_evict over [start, stop] with PAGECACHE_EVICT_WRITEBACK and
PAGECACHE_EVICT_DISCARD_DIRTY as writeback and discard. -/
def pagecacheEvict (m : Mapping) (start stop : Nat) (writeback discard : Bool) : Mapping × Int :=
  if stop < start ∨ (writeback ∧ discard) then (m, -einval)
  else
    let dirty := m.pages.any fun e => overlaps start stop e.1 && e.2.dirty
    if dirty ∧ writeback = false ∧ discard = false then (m, -ebusy)
    else
      let (m, result) := if dirty ∧ writeback then pagecacheWriteback m start stop else (m, 0)
      if result ≠ 0 then (m, result) else pagecacheInvalidate m start stop discard

/-- A page with its bytes from inside on zeroed. -/
def CachePage.zeroFrom (inside : Nat) (p : CachePage) : CachePage :=
  { p with data := fun k => if inside ≤ k ∧ k < pageSize then 0 else p.data k }

/-- The end of pagecache_truncate: when the new size ends inside a page and
pagecache_get_page(mapping, size / PAGECACHE_PAGE_SIZE, 0) finds that page,
its bytes from the size on are zeroed. -/
def zeroTail (m : Mapping) (size : Nat) : Mapping :=
  if size % pageSize ≠ 0 then
    match getPage m (size / pageSize) false true with
    | (m, true) => m.modifyPage (size / pageSize) (CachePage.zeroFrom (size % pageSize))
    | (m, false) => m
  else m

theorem CachePage.view_zeroFrom (inside : Nat) (p : CachePage) :
    (p.zeroFrom inside).view = (fun k => if inside ≤ k ∧ k < pageSize then 0 else p.data k, p.uptodate, p.dirty) :=
  rfl

/-- pc_get_page finds the page and touches it, or finds nothing. -/
theorem zeroTail_eq (m : Mapping) (size : Nat) :
    zeroTail m size = if size % pageSize ≠ 0 ∧ (m.find (size / pageSize)).isSome then
      (touch m (size / pageSize)).modifyPage (size / pageSize) (CachePage.zeroFrom (size % pageSize)) else m := by
  unfold zeroTail getPage
  by_cases hne : size % pageSize ≠ 0
  · rw [if_pos hne]
    cases m.find (size / pageSize) <;> simp [hne]
  · rw [if_neg hne, if_neg fun hc => hne hc.1]

/-- The tail zeroing changes the data of the page it zeroes and no other
page's view. -/
theorem find_zeroTail (m : Mapping) (size j : Nat) :
    ((zeroTail m size).find j).map CachePage.view =
      (m.find j).map fun p =>
        (if size % pageSize ≠ 0 ∧ j = size / pageSize then p.zeroFrom (size % pageSize) else p).view := by
  rw [zeroTail_eq]
  split
  · next hc =>
    rw [Mapping.find_modifyPage]
    by_cases hj : j = size / pageSize
    · -- the touched page is the page found, its view zeroed from the size on
      subst hj
      obtain ⟨p, hp⟩ := Option.isSome_iff_exists.mp hc.2
      have ht := find_touch m (size / pageSize) (size / pageSize)
      rw [hp] at ht
      obtain ⟨q, hq, hqp⟩ := Option.map_eq_some_iff.mp ht
      simp only [CachePage.view, Prod.mk.injEq] at hqp
      rw [if_pos rfl, hq, hp]
      simp [CachePage.view_zeroFrom, hc.1, hqp.1, hqp.2.1, hqp.2.2]
    · rw [if_neg hj, find_touch]
      simp only [hj, and_false, if_false]
  · next hc =>
    by_cases hj : size % pageSize ≠ 0 ∧ j = size / pageSize
    · -- no page there to zero
      obtain ⟨hne, rfl⟩ := hj
      have hnone : m.find (size / pageSize) = none := by simpa [hne] using hc
      rw [hnone]
      rfl
    · simp only [hj, if_false]

@[simp] theorem size_zeroTail (m : Mapping) (size : Nat) : (zeroTail m size).size = m.size := by
  rw [zeroTail_eq]
  split <;> simp

@[simp] theorem store_zeroTail (m : Mapping) (size : Nat) : (zeroTail m size).store = m.store := by
  rw [zeroTail_eq]
  split <;> simp

theorem nodup_keys_zeroTail {m : Mapping} (hk : m.keys.Nodup) (size : Nat) : (zeroTail m size).keys.Nodup := by
  rw [zeroTail_eq]
  split
  · simpa using nodup_keys_touch hk _
  · exact hk

/-- pagecache_truncate: resize the backing object and the mapping; when it
shrinks, drop the pages past the new size, dirty or not, and zero the tail of
the last page if it is cached. -/
def pagecacheTruncate (m : Mapping) (size : Nat) : Mapping × Int :=
  if size = m.size then (m, 0)
  else
    let oldSize := m.size
    let m : Mapping := { m with readaheadValid := false, store := m.store.resize size, size := size }
    if size < oldSize then
      -- first_dead is computed in uint64_t: the rounding up wraps for a size within a page of 2^64
      let firstDead := (size + pageSize - 1) % 2 ^ 64 / pageSize
      let m := if firstDead ≤ u64Max / pageSize then (pagecacheInvalidate m (firstDead * pageSize) u64Max true).1
        else m
      (zeroTail m size, 0)
    else (m, 0)

/-! ## Reclaim -/

/-- One pass of pagecache_reclaim's walk from page cur towards the LRU head,
each page counted against the budget: a referenced page becomes active and
an active one inactive, both moving to the head; the first inactive clean
page is the victim; the first dirty one is remembered.  The result is the
mapping, the pages scanned, the victim and the dirty page. -/
def reclaimScan : Nat → Mapping → Option Nat → Nat → Nat → Option Nat → Mapping × Nat × Option Nat × Option Nat
  | 0, m, _, scanned, _, dirty => (m, scanned, none, dirty)
  | _ + 1, m, none, scanned, _, dirty => (m, scanned, none, dirty)
  | fuel + 1, m, some index, scanned, budget, dirty =>
    if budget ≤ scanned then (m, scanned, none, dirty)
    else
      let prev := m.prevOf index
      match m.find index with
      | none => (m, scanned + 1, none, dirty)
      | some p =>
        if p.referenced then
          reclaimScan fuel ((m.modifyPage index fun p => { p with referenced := false, active := true }).toHead index)
            prev (scanned + 1) budget dirty
        else if p.active then
          reclaimScan fuel ((m.modifyPage index fun p => { p with active := false }).toHead index)
            prev (scanned + 1) budget dirty
        else if p.dirty then reclaimScan fuel m prev (scanned + 1) budget (dirty.or (some index))
        else (m, scanned + 1, some index, dirty)

/-- The outer loop of pagecache_reclaim: scan, free the victim, or write back
the dirty page when there is no victim (at most four times unless the
target is unlimited), until the target is met or the budget spent. -/
def reclaimLoop : Nat → Mapping → Nat → Bool → Nat → Nat → Nat → Nat → Mapping × Nat
  | 0, m, _, _, reclaimed, _, _, _ => (m, reclaimed)
  | fuel + 1, m, target, unlimited, reclaimed, scanned, writebacks, budget =>
    if ¬(reclaimed < target ∧ scanned < budget) then (m, reclaimed)
    else
      let (m, scanned, victim, dirty) := reclaimScan (budget - scanned) m m.tail? scanned budget none
      match victim, dirty with
      | some v, _ => reclaimLoop fuel (m.removePage v) target unlimited (reclaimed + 1) scanned writebacks budget
      | none, some d =>
        if unlimited = false ∧ reclaimMaxWriteback ≤ writebacks then (m, reclaimed)
        else reclaimLoop fuel (writebackPage m d) target unlimited reclaimed scanned (writebacks + 1) budget
      | none, none => (m, reclaimed)

/-- pagecache_reclaim over the mapping's pages: the number of pages freed. -/
def pagecacheReclaim (m : Mapping) (target : Nat) : Mapping × Nat :=
  let unlimited := target = u64Max
  let budget := if unlimited then u64Max
    else max reclaimMinScan (if u64Max / reclaimScanPerPage < target then u64Max else target * reclaimScanPerPage)
  reclaimLoop budget m target unlimited 0 0 0 budget

/-! ## Runs -/

/-- The calls a run is made of. -/
inductive CacheOp where
  | read (offset size : Nat)
  | write (offset : Nat) (data : List UInt8)
  | truncate (size : Nat)
  | writeback (start stop : Nat)
  | evict (start stop : Nat) (writeback discard : Bool)
  | invalidate (start stop : Nat) (discard : Bool)
  | readahead (offset size : Nat)
  | reclaim (target : Nat)

/-- One call. -/
def cacheStep (m : Mapping) : CacheOp → Mapping
  | .read offset size => (pagecacheRead m offset size).1
  | .write offset data => (pagecacheWrite m offset data).1
  | .truncate size => (pagecacheTruncate m size).1
  | .writeback start stop => (pagecacheWriteback m start stop).1
  | .evict start stop writeback discard => (pagecacheEvict m start stop writeback discard).1
  | .invalidate start stop discard => (pagecacheInvalidate m start stop discard).1
  | .readahead offset size => (pagecacheReadahead m offset size).1
  | .reclaim target => (pagecacheReclaim m target).1

/-- A run of calls. -/
def runCacheOps (m : Mapping) : List CacheOp → Mapping
  | [] => m
  | op :: ops => runCacheOps (cacheStep m op) ops

end Uinxed.PageCache
