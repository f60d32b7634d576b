/-
  Mem/PageCache/Refinement.lean --- every call of a sequential run keeps a
  mapping caching the file the run stands for, so that pagecache_read returns
  the file's bytes and a writeback of the whole range leaves the backing
  object holding the file.

  Invariant.lean proves that the page operations keep Refines; here the loops
  of the calls are joined to them.  pagecache_read's copy loop returns the
  file's bytes, pagecache_write's stores them chunk by chunk, writeback writes
  dirty pages back, invalidate and evict without DISCARD_DIRTY drop clean
  pages only, readahead creates and loads pages below the end of file,
  reclaim's aging changes no page's view and its victims are clean, and a
  truncation drops the pages past the new size and zeroes the tail of the
  last one.  The run lemma composes the calls CacheOp.Allowed admits.

  pagecache_truncate rounds first_dead up in uint64_t: for a size within a
  page of 2^64 the sum wraps, first_dead is 0, and the invalidation it starts
  discards every page, dirty ones below the new size included.
-/
import Uinxed.Mem.PageCache.Invariant

set_option autoImplicit false

namespace Uinxed.PageCache

variable {m : Mapping} {a : ByteFile UInt8}

/-! ## Calls that change no page's view -/

/-- The invariant reads a mapping's pages, size and object only. -/
theorem Refines.of_fields {m' : Mapping} (h : Refines m a) (hp : m'.pages = m.pages) (hs : m'.size = m.size)
    (hst : m'.store = m.store) : Refines m' a := by
  have hf : ∀ j, m'.find j = m.find j := fun j => by simp only [Mapping.find, hp]
  refine h.of_pages (by simpa only [Mapping.keys, hp] using h.keys_nodup) hs hst (fun j q hq => ?_)
    (fun j => by rw [hf])
  exact h.page_ok j q (by rwa [← hf])

/-- One aging step of pagecache_reclaim: flags other than UPTODATE and DIRTY
change, and the page moves to the LRU head. -/
theorem Refines.age (h : Refines m a) (i : Nat) (f : CachePage → CachePage) (hf : ∀ p, (f p).view = p.view) :
    Refines ((m.modifyPage i f).toHead i) a := by
  have h1 : Refines (m.modifyPage i f) a :=
    h.of_view (by simpa using h.keys_nodup) (Mapping.find_modifyPage_view m i f fun p _ => hf p) rfl rfl
  exact h1.of_view (Mapping.nodup_keys_toHead h1.keys_nodup i) (fun j => by rw [Mapping.find_toHead])
    (Mapping.size_toHead _ _) (Mapping.store_toHead _ _)

/-! ## Readahead -/

/-- A page below the end of a file of uint64_t size starts at a uint64_t
offset. -/
theorem index_le_of_lt_filePages {size i : Nat} (hs : size ≤ u64Max)
    (hi : i < size / pageSize + (if size % pageSize ≠ 0 then 1 else 0)) : i * pageSize ≤ u64Max := by
  have hd := Nat.div_add_mod size pageSize
  unfold pageSize at *
  split at hi <;> omega

theorem Refines.readaheadPages (h : Refines m a) (first count : Nat) : Refines (readaheadPages m first count) a := by
  unfold PageCache.readaheadPages
  dsimp only
  generalize hfile : m.size / pageSize + (if m.size % pageSize ≠ 0 then 1 else 0) = filePages
  split
  · exact h
  · -- every page the loop creates lies below the end of file, and the loop keeps the size
    refine (List.foldlRecOn (motive := fun m' => Refines m' a ∧ m'.size = m.size) _ _ ⟨h, rfl⟩
      fun m' hm' offset hoff => ?_).1
    have hlt : first + offset < filePages := by
      rw [List.mem_range] at hoff
      omega
    have hidx := index_le_of_lt_filePages (hm'.2 ▸ hm'.1.size_le) (hm'.2 ▸ hfile ▸ hlt :
      first + offset < m'.size / pageSize + (if m'.size % pageSize ≠ 0 then 1 else 0))
    exact ⟨(hm'.1.getPage _ true false hidx).loadLocked _, by simp [hm'.2]⟩

theorem Refines.readaheadWindows (h : Refines m a) (fuel first last : Nat) :
    Refines (readaheadWindows fuel m first last) a := by
  induction fuel generalizing m first with
  | zero => exact h
  | succ fuel ih =>
    unfold PageCache.readaheadWindows
    dsimp only
    split
    · exact h
    · split
      · exact h.readaheadPages _ _
      · exact ih (h.readaheadPages _ _) _

theorem Refines.adaptiveReadahead (h : Refines m a) (first last : Nat) :
    Refines (adaptiveReadahead m first last) a := by
  unfold PageCache.adaptiveReadahead
  lift_lets
  intro sequential window
  -- each of the three window updates keeps m's pages, size and object, and the prefetch follows or not
  split <;> (try split) <;> dsimp only <;> split
  all_goals
    try apply Refines.readaheadPages
    exact h.of_fields rfl rfl rfl

theorem Refines.pagecacheReadahead (h : Refines m a) (offset size : Nat) :
    Refines (pagecacheReadahead m offset size).1 a := by
  unfold PageCache.pagecacheReadahead
  split_ifs
  · exact h
  · exact h
  · exact h.readaheadWindows _ _ _

/-! ## Reading -/

/-- pagecache_read's copy loop, given a turn for each byte at least, copies
the file's bytes of the range and keeps the invariant. -/
theorem readLoop_spec (h : Refines m a) {fuel pos remaining : Nat} (hfuel : remaining ≤ fuel)
    (hend : pos + remaining ≤ u64Max + 1) :
    Refines (readLoop fuel m pos remaining).1 a ∧
      (readLoop fuel m pos remaining).2 = (List.range remaining).map fun k => a.byte (pos + k) := by
  induction fuel generalizing m pos remaining with
  | zero =>
    obtain rfl : remaining = 0 := by omega
    exact ⟨h, rfl⟩
  | succ fuel ih =>
    by_cases h0 : remaining = 0
    · subst h0
      exact ⟨h, rfl⟩
    · simp only [readLoop, if_neg h0]
      -- one turn copies count bytes from the page of pos, and the loop goes on from pos + count
      generalize hc : min (pageSize - pos % pageSize) remaining = count
      have hpage : pos % pageSize < pageSize := Nat.mod_lt _ (by decide)
      obtain ⟨h1, hbytes⟩ := readChunk_spec h (show pos % pageSize + count ≤ pageSize by omega)
        (show pos ≤ u64Max by omega)
      obtain ⟨h2, hrest⟩ := ih h1 (show remaining - count ≤ fuel by omega)
        (show pos + count + (remaining - count) ≤ u64Max + 1 by omega)
      refine ⟨h2, ?_⟩
      have hsplit : remaining = count + (remaining - count) := by omega
      rw [hbytes, hrest]
      conv_rhs => rw [hsplit, List.range_add, List.map_append, List.map_map]
      congr 2
      funext k
      simp only [Function.comp_apply, Nat.add_assoc]

/-- pagecache_read returns the file's bytes of the range, clipped to the
size, and keeps the invariant. -/
theorem pagecacheRead_spec (h : Refines m a) (offset size : Nat) :
    Refines (pagecacheRead m offset size).1 a ∧ (pagecacheRead m offset size).2 = a.read offset size := by
  have hs := h.size_eq
  unfold pagecacheRead ByteFile.read
  split
  · -- past the end of file, or no bytes: nothing is copied
    have hzero : min size (a.size - offset) = 0 := by omega
    rw [hzero]
    exact ⟨h, rfl⟩
  · have hle := h.size_le
    obtain ⟨h1, hbytes⟩ := readLoop_spec h (Nat.le_refl (min size (m.size - offset)))
      (show offset + min size (m.size - offset) ≤ u64Max + 1 by omega)
    dsimp only
    refine ⟨h1.adaptiveReadahead _ _, ?_⟩
    rw [hbytes, hs]

/-! ## Writing -/

/-- pagecache_write's copy loop, given a turn for each byte at least, keeps
the invariant against the file with the bytes written. -/
theorem Refines.writeLoop (h : Refines m a) {fuel pos : Nat} {data : List UInt8} (hfuel : data.length ≤ fuel)
    (hend : pos + data.length ≤ u64Max) : Refines (writeLoop fuel m pos data) (a.write pos data) := by
  induction fuel generalizing m a pos data with
  | zero =>
    obtain rfl : data = [] := List.eq_nil_of_length_eq_zero (by omega)
    rwa [ByteFile.write_nil]
  | succ fuel ih =>
    by_cases h0 : data.length = 0
    · obtain rfl : data = [] := List.eq_nil_of_length_eq_zero h0
      rwa [ByteFile.write_nil]
    · simp only [PageCache.writeLoop, if_neg h0]
      -- one turn writes the count bytes that fit in the page of pos
      generalize hc : min (pageSize - pos % pageSize) data.length = count
      have hpage : pos % pageSize < pageSize := Nat.mod_lt _ (by decide)
      have hchunk : (data.take count).length = count := by
        rw [List.length_take]
        omega
      have h1 := h.writeChunk (show data.take count ≠ [] from fun hnil => by
          rw [hnil, List.length_nil] at hchunk
          omega)
        (show pos % pageSize + (data.take count).length ≤ pageSize by omega)
        (show pos + (data.take count).length ≤ u64Max by omega)
      have hfile : a.write pos data = (a.write pos (data.take count)).write (pos + count) (data.drop count) := by
        rw [show pos + count = pos + (data.take count).length by rw [hchunk], ← ByteFile.write_append,
          List.take_append_drop]
      rw [hfile]
      exact ih h1 (by simp only [List.length_drop]; omega) (by simp only [List.length_drop]; omega)

theorem Refines.pagecacheWrite (h : Refines m a) (offset : Nat) {data : List UInt8} (hlen : data.length ≤ u64Max) :
    Refines (pagecacheWrite m offset data).1 (fileStep a (.write offset data)) := by
  rw [fileStep]
  by_cases hskip : data.length = 0 ∨ u64Max - data.length < offset
  · -- an empty write, or one past UINT64_MAX, returns before the mapping changes
    have hm : (PageCache.pagecacheWrite m offset data).1 = m := by
      unfold PageCache.pagecacheWrite
      split_ifs <;> first | rfl | omega
    rw [hm, if_pos hskip]
    exact h
  · have h0 : data.length ≠ 0 := fun h0 => hskip (Or.inl h0)
    have hfit : ¬u64Max - data.length < offset := fun hc => hskip (Or.inr hc)
    simp only [PageCache.pagecacheWrite, if_neg h0, if_neg hfit, if_neg hskip]
    refine Refines.writeLoop ?_ (Nat.le_refl _) ?_
    · exact h.of_fields rfl rfl rfl
    · omega

/-! ## Writeback -/

/-- pagecache_writeback writes back a list of pages in turn; when it returns
0 for a range that is not empty, the list holds every dirty page of the
range. -/
theorem pagecacheWriteback_eq_foldl (m : Mapping) (start stop : Nat) :
    ∃ l : List Nat, (pagecacheWriteback m start stop).1 = l.foldl writebackPage m ∧
      ((pagecacheWriteback m start stop).2 = 0 → start ≤ stop →
        ∀ j p, m.find j = some p → p.dirty = true → overlaps start stop j = true → j ∈ l) := by
  -- the page at j is one the walk collects
  have hcollect : ∀ j p, m.find j = some p → p.dirty = true → overlaps start stop j = true →
      j ∈ (m.pages.filter fun e => e.2.dirty && overlaps start stop e.1).map Prod.fst := fun j p hp hd hov =>
    List.mem_map.mpr ⟨(j, p), List.mem_filter.mpr ⟨Mapping.mem_of_find hp, by simp [hd, hov]⟩, rfl⟩
  unfold PageCache.pagecacheWriteback
  dsimp only
  split_ifs with hstop hnone
  · exact ⟨[], rfl, fun _ hle => absurd hstop (by omega)⟩
  · exact ⟨[], rfl, fun _ _ j p hp hd hov => absurd hnone (List.length_pos_of_mem (hcollect j p hp hd hov)).ne'⟩
  · exact ⟨[], rfl, fun hr => absurd hr (by simp [efbig])⟩
  · refine ⟨_, rfl, fun _ _ j p hp hd hov => ?_⟩
    rw [List.mem_mergeSort]
    exact hcollect j p hp hd hov

theorem Refines.pagecacheWriteback (h : Refines m a) (start stop : Nat) :
    Refines (pagecacheWriteback m start stop).1 a := by
  obtain ⟨l, hl, -⟩ := pagecacheWriteback_eq_foldl m start stop
  rw [hl]
  exact List.foldlRecOn (motive := fun m' => Refines m' a) _ _ h fun m' hm' i _ => hm'.writebackPage i

/-- pc_writeback_page_locked cleans the page it writes back and no other. -/
theorem dirty_writebackPage (m : Mapping) (i j : Nat) :
    ((writebackPage m i).find j).any CachePage.dirty = (j != i && (m.find j).any CachePage.dirty) := by
  cases hd : (m.find i).any CachePage.dirty
  · rw [writebackPage_of_clean hd]
    by_cases hji : j = i
    · subst hji
      simp [hd]
    · simp [hji]
  · obtain ⟨p, hp, hpd⟩ := (Option.any_eq_true _ _).mp hd
    rw [writebackPage_of_dirty hp hpd, Mapping.find_modifyPage]
    by_cases hji : j = i
    · subst hji
      rw [if_pos rfl]
      change ((m.find j).map _).any _ = _
      simp [hp]
    · rw [if_neg hji]
      change (m.find j).any _ = _
      simp [hji]

/-- Writing back a list of pages leaves those clean and the others as they
were. -/
theorem dirty_foldl_writebackPage (l : List Nat) (m : Mapping) (j : Nat) :
    ((l.foldl writebackPage m).find j).any CachePage.dirty = (!l.contains j && (m.find j).any CachePage.dirty) := by
  induction l generalizing m with
  | nil => simp
  | cons i l ih =>
    rw [List.foldl_cons, ih, dirty_writebackPage]
    by_cases hji : j = i
    · simp [hji]
    · have hne : (j != i) = true := bne_iff_ne.mpr hji
      simp [hne, hji]

/-- A writeback of [0, UINT64_MAX] that returns 0 leaves no page dirty, so
the object holds the file. -/
theorem store_pagecacheWriteback_all (h : Refines m a) (hr : (pagecacheWriteback m 0 u64Max).2 = 0) :
    (pagecacheWriteback m 0 u64Max).1.store = a := by
  obtain ⟨l, hl, hall⟩ := pagecacheWriteback_eq_foldl m 0 u64Max
  refine (h.pagecacheWriteback 0 u64Max).store_eq_of_clean fun x => ?_
  rw [Mapping.dirtyAt, hl, dirty_foldl_writebackPage]
  cases hd : (m.find (x / pageSize)).any CachePage.dirty
  · exact Bool.and_false _
  · -- a dirty page lies at a uint64_t offset, so the range holds it and the list writes it back
    obtain ⟨p, hp, hpd⟩ := (Option.any_eq_true _ _).mp hd
    have hov : overlaps 0 u64Max (x / pageSize) = true := by
      simp [overlaps, (h.page_ok _ p hp).index_le]
    simpa using hall hr (Nat.zero_le _) _ p hp hpd hov

/-! ## Invalidation and eviction -/

/-- Without DISCARD_DIRTY, pagecache_invalidate's loop drops clean pages only. -/
theorem Refines.invalidateLoop (h : Refines m a) (fuel start stop : Nat) :
    Refines (invalidateLoop fuel m start stop false).1 a := by
  induction fuel generalizing m with
  | zero => exact h
  | succ fuel ih =>
    unfold PageCache.invalidateLoop
    split
    · exact h
    · next index p hfind =>
      split
      · exact h
      · next hclean =>
        have hp : m.find index = some p := Mapping.find_of_mem h.keys_nodup (List.mem_of_find?_eq_some hfind)
        have hd : p.dirty = false := by simpa using hclean
        exact ih (h.removePage (by rw [hp]; exact hd))

theorem Refines.pagecacheInvalidate (h : Refines m a) (start stop : Nat) :
    Refines (pagecacheInvalidate m start stop false).1 a := by
  unfold PageCache.pagecacheInvalidate
  split
  · exact h
  · exact h.invalidateLoop _ _ _

theorem Refines.pagecacheEvict (h : Refines m a) (start stop : Nat) (writeback : Bool) :
    Refines (pagecacheEvict m start stop writeback false).1 a := by
  unfold PageCache.pagecacheEvict
  dsimp only
  -- each branch returns the mapping it has, or the one the writeback or invalidation made
  split_ifs
  all_goals first
    | exact h
    | exact h.pagecacheWriteback _ _
    | exact (h.pagecacheWriteback _ _).pagecacheInvalidate _ _
    | exact h.pagecacheInvalidate _ _

/-! ## Truncation -/

/-- pagecache_invalidate's loop drops pages and changes nothing else. -/
theorem invalidateLoop_fields (fuel : Nat) {m : Mapping} (hk : m.keys.Nodup) (start stop : Nat) (discard : Bool) :
    (invalidateLoop fuel m start stop discard).1.keys.Nodup ∧
      (invalidateLoop fuel m start stop discard).1.size = m.size ∧
      (invalidateLoop fuel m start stop discard).1.store = m.store := by
  induction fuel generalizing m with
  | zero => exact ⟨hk, rfl, rfl⟩
  | succ fuel ih =>
    unfold PageCache.invalidateLoop
    split
    · exact ⟨hk, rfl, rfl⟩
    · next index _ _ =>
      split
      · exact ⟨hk, rfl, rfl⟩
      · exact ih (show (m.removePage index).keys.Nodup by simpa using hk.filter _)

/-- With DISCARD_DIRTY and a turn per page, pagecache_invalidate's loop drops
every page of the range and keeps the others. -/
theorem find_invalidateLoop_discard {fuel : Nat} {m : Mapping} (start stop : Nat) (hfuel : m.pages.length < fuel)
    (j : Nat) :
    (invalidateLoop fuel m start stop true).1.find j = if overlaps start stop j then none else m.find j := by
  induction fuel generalizing m with
  | zero => omega
  | succ fuel ih =>
    unfold PageCache.invalidateLoop
    split
    · next hnone =>
      split
      · -- the walk found no page of the range, so there is none at j
        next hov =>
        rw [Mapping.find_eq_none_iff]
        intro hj
        obtain ⟨e, he, rfl⟩ := List.mem_map.mp hj
        exact List.find?_eq_none.mp hnone e he hov
      · rfl
    · next index p hfind =>
      rw [if_neg (by simp)]
      have hov : overlaps start stop index = true := by simpa using List.find?_some hfind
      -- the page found leaves the list, so the turns left still suffice
      have hlen : (m.removePage index).pages.length < fuel := by
        have hlt : (m.pages.filter fun e => e.1 != index).length < m.pages.length :=
          List.length_filter_lt_length_iff_exists.mpr ⟨(index, p), List.mem_of_find?_eq_some hfind, by simp⟩
        exact Nat.lt_of_lt_of_le hlt (Nat.le_of_lt_succ hfuel)
      rw [ih hlen, Mapping.find_removePage]
      by_cases hji : j = index
      · subst hji
        simp [hov]
      · simp [hji]

/-- pagecache_truncate's invalidation from first_dead on keeps the pages below
first_dead as they were.  A page lies at a uint64_t offset, so when first_dead
is past UINT64_MAX / PAGECACHE_PAGE_SIZE and no invalidation runs, there is no
page from first_dead on either. -/
theorem truncateDrop_spec (h : Refines m a) (size firstDead : Nat) :
    let m1 : Mapping := { m with readaheadValid := false, store := m.store.resize size, size := size }
    let m2 := if firstDead ≤ u64Max / pageSize then (pagecacheInvalidate m1 (firstDead * pageSize) u64Max true).1
      else m1
    m2.keys.Nodup ∧ m2.size = size ∧ m2.store = m.store.resize size ∧
      ∀ j, m2.find j = if firstDead ≤ j then none else m.find j := by
  intro m1 m2
  have hidx : ∀ j q, m.find j = some q → j * pageSize ≤ u64Max := fun j q hq => (h.page_ok j q hq).index_le
  by_cases hfd : firstDead ≤ u64Max / pageSize
  · have hstart : ¬u64Max < firstDead * pageSize := by
      unfold pageSize at *
      omega
    have hm2 : m2 = (invalidateLoop (m.pages.length + 1) m1 (firstDead * pageSize) u64Max true).1 := by
      simp only [m2, if_pos hfd, PageCache.pagecacheInvalidate, if_neg hstart]
      rfl
    obtain ⟨hk, hs, hst⟩ := invalidateLoop_fields (m.pages.length + 1) (show m1.keys.Nodup from h.keys_nodup)
      (firstDead * pageSize) u64Max true
    refine ⟨hm2 ▸ hk, hm2 ▸ hs, hm2 ▸ hst, fun j => ?_⟩
    rw [hm2, find_invalidateLoop_discard _ _ (show m1.pages.length < m.pages.length + 1 from Nat.lt_succ_self _) j]
    show (if overlaps _ _ j then none else m.find j) = _
    cases hq : m.find j with
    | none => split <;> split <;> rfl
    | some q =>
      -- a page overlaps [first_dead * PAGECACHE_PAGE_SIZE, UINT64_MAX] exactly when it lies from first_dead on
      have hj := hidx j q hq
      have hov : overlaps (firstDead * pageSize) u64Max j = decide (firstDead ≤ j) := by
        simp only [overlaps, decide_eq_decide]
        unfold pageSize at *
        omega
      rw [hov]
      by_cases hle : firstDead ≤ j <;> simp [hle]
  · have hm2 : m2 = m1 := if_neg hfd
    refine ⟨hm2 ▸ h.keys_nodup, hm2 ▸ rfl, hm2 ▸ rfl, fun j => ?_⟩
    rw [hm2]
    show m.find j = _
    cases hq : m.find j with
    | none => split <;> rfl
    | some q =>
      have hj := hidx j q hq
      rw [if_neg (by unfold pageSize at *; omega)]

/-- A page whose view is another's, up to a change that keeps the dirty bit,
is dirty when the other is. -/
theorem any_dirty_eq_of_view {o o' : Option CachePage} {f : CachePage → CachePage}
    (hf : ∀ p, (f p).dirty = p.dirty) (h : o.map CachePage.view = o'.map fun p => (f p).view) :
    o.any CachePage.dirty = o'.any CachePage.dirty := by
  cases o <;> cases o' <;> simp_all [CachePage.view]

/-- A truncation that grows the file keeps every page, the object resized
with zeros. -/
theorem Refines.resize_grow (h : Refines m a) {size : Nat} (hle : m.size ≤ size) (hsize : size ≤ u64Max) :
    Refines { m with readaheadValid := false, store := m.store.resize size, size := size } (a.resize size) where
  keys_nodup := h.keys_nodup
  size_eq := rfl
  size_le := hsize
  page_ok j p hp := (h.page_ok j p hp).congr fun _ _ => ByteFile.byte_resize_of_le (h.size_eq ▸ hle) _
  store_byte x hx := by
    rw [ByteFile.byte_resize, ByteFile.byte_resize, h.store_byte x hx]
  store_size_le := Nat.le_refl _
  dirty_of_store_lt hlt := absurd hlt (Nat.lt_irrefl _)

/-- After the pages from first_dead on are dropped, zeroing the tail of the
last page leaves a mapping caching the shrunk file. -/
theorem Refines.zeroTail_of_drop (h : Refines m a) {size : Nat} {m2 : Mapping} (hk : m2.keys.Nodup)
    (hs : m2.size = size) (hsize : size ≤ u64Max) (hst : m2.store = m.store.resize size)
    (hf : ∀ j, m2.find j = if (size + pageSize - 1) / pageSize ≤ j then none else m.find j) :
    Refines (zeroTail m2 size) (a.resize size) := by
  refine ⟨nodup_keys_zeroTail hk size, by rw [size_zeroTail, hs]; rfl, by rw [size_zeroTail, hs]; exact hsize,
    fun j q hq => ?_, fun x hx => ?_, by rw [store_zeroTail, size_zeroTail, hst, hs]; exact Nat.le_refl _,
    fun hlt => ?_⟩
  · -- a kept page lies below first_dead: it holds the file's bytes below the size, and zeros past it
    have hj := find_zeroTail m2 size j
    rw [hq, hf j] at hj
    by_cases hfd : (size + pageSize - 1) / pageSize ≤ j
    · rw [if_pos hfd] at hj
      cases hj
    · rw [if_neg hfd] at hj
      obtain ⟨p, hp, hpq⟩ := Option.map_eq_some_iff.mp hj.symm
      have hok := h.page_ok j p hp
      by_cases hc : size % pageSize ≠ 0 ∧ j = size / pageSize
      · -- the page of the last byte, zeroed from the size on
        rw [if_pos hc] at hpq
        have hzero : PageOk (a.resize size) j (p.zeroFrom (size % pageSize)) := by
          refine ⟨hok.index_le, fun hu k hk => ?_, hok.uptodate_of_dirty⟩
          simp only [CachePage.zeroFrom, ByteFile.byte_resize]
          unfold pageSize at *
          split_ifs
          · omega
          · rfl
          · exact hok.data_eq hu k hk
          · omega
        exact hzero.of_view hpq.symm
      · -- a page that ends at or below the size
        rw [if_neg hc] at hpq
        refine PageOk.of_view (hok.congr fun k hk => ?_) hpq.symm
        rw [ByteFile.byte_resize, if_pos]
        unfold pageSize at *
        omega
  · -- below the size the page of x is m's with its dirty bit; past it the object and the file read zero
    rw [store_zeroTail, hst, ByteFile.byte_resize, ByteFile.byte_resize]
    split
    · next hx' =>
      refine h.store_byte x ?_
      have hj := find_zeroTail m2 size (x / pageSize)
      rw [hf, if_neg (by unfold pageSize at *; omega)] at hj
      rw [Mapping.dirtyAt] at hx ⊢
      rw [← hx]
      exact (any_dirty_eq_of_view (fun p => by split <;> rfl) hj).symm
    · rfl
  · rw [store_zeroTail, size_zeroTail, hst, hs, ByteFile.size_resize] at hlt
    exact absurd hlt (Nat.lt_irrefl _)

/-- pagecache_truncate keeps the invariant against the resized file when
first_dead does not wrap. -/
theorem Refines.pagecacheTruncate (h : Refines m a) {size : Nat} (hsize : size + pageSize - 1 ≤ u64Max) :
    Refines (pagecacheTruncate m size).1 (a.resize size) := by
  have hs := h.size_eq
  have hle : size ≤ u64Max := by
    unfold pageSize at hsize
    omega
  unfold PageCache.pagecacheTruncate
  split
  · next heq =>
    rw [heq, hs, ByteFile.resize_size]
    exact h
  · dsimp only
    split
    · -- the file shrinks, and first_dead does not wrap
      have hmod : (size + pageSize - 1) % 2 ^ 64 = size + pageSize - 1 :=
        Nat.mod_eq_of_lt (by unfold u64Max at hsize; omega)
      rw [hmod]
      obtain ⟨hk, hs2, hst2, hf2⟩ := truncateDrop_spec h size ((size + pageSize - 1) / pageSize)
      exact h.zeroTail_of_drop hk hs2 hle hst2 hf2
    · exact h.resize_grow (by omega) hle

/-- The run that writes byte 7 at offset 0 and one byte at UINT64_MAX - 1,
then truncates to UINT64_MAX - 1.  first_dead wraps to 0, so the dirty page 0
is discarded with the others, and a read of offset 0 returns the object's 0
where the file holds 7. -/
def truncateWrapRun : List CacheOp := [.write 0 [7], .write (u64Max - 1) [1], .truncate (u64Max - 1)]

theorem truncate_wrap_loses_write :
    (pagecacheRead (runCacheOps (Mapping.create ByteFile.empty) truncateWrapRun) 0 1).2 = [0] ∧
      (fileRun ByteFile.empty truncateWrapRun).read 0 1 = [7] := by
  decide +kernel

/-! ## Reclaim -/

/-- pagecache_reclaim's scan keeps the invariant, and the victim it returns
is clean. -/
theorem reclaimScan_spec (h : Refines m a) (fuel : Nat) (cur : Option Nat) (scanned budget : Nat)
    (dirty : Option Nat) :
    Refines (reclaimScan fuel m cur scanned budget dirty).1 a ∧
      ∀ v, (reclaimScan fuel m cur scanned budget dirty).2.2.1 = some v →
        ((reclaimScan fuel m cur scanned budget dirty).1.find v).any CachePage.dirty = false := by
  induction fuel generalizing m cur scanned dirty with
  | zero => exact ⟨h, fun _ hv => by cases hv⟩
  | succ fuel ih =>
    cases cur with
    | none => exact ⟨h, fun _ hv => by cases hv⟩
    | some index =>
      simp only [reclaimScan]
      split
      · exact ⟨h, fun _ hv => by cases hv⟩
      · split
        · exact ⟨h, fun _ hv => by cases hv⟩
        · next p hp =>
          -- aging moves a referenced or active page to the head; a dirty page is passed over
          split
          · exact ih (h.age index _ (by intro; rfl)) _ _ _
          · split
            · exact ih (h.age index _ (by intro; rfl)) _ _ _
            · split
              · exact ih h _ _ _
              · next hd =>
                refine ⟨h, fun v hv => ?_⟩
                cases hv
                rw [hp]
                simpa using hd

theorem Refines.reclaimLoop (h : Refines m a) (fuel target : Nat) (unlimited : Bool)
    (reclaimed scanned writebacks budget : Nat) :
    Refines (reclaimLoop fuel m target unlimited reclaimed scanned writebacks budget).1 a := by
  induction fuel generalizing m reclaimed scanned writebacks with
  | zero => exact h
  | succ fuel ih =>
    simp only [PageCache.reclaimLoop]
    split
    · exact h
    · obtain ⟨hscan, hvictim⟩ := reclaimScan_spec h (budget - scanned) m.tail? scanned budget none
      -- a victim is freed, or the dirty page found is written back
      split
      · next _ _ v hv => exact ih (hscan.removePage (hvictim v hv)) _ _ _
      · split
        · exact hscan
        · exact ih (hscan.writebackPage _) _ _ _
      · exact hscan

theorem Refines.pagecacheReclaim (h : Refines m a) (target : Nat) : Refines (pagecacheReclaim m target).1 a :=
  h.reclaimLoop _ _ _ _ _ _ _

/-! ## Runs -/

/-- Every call CacheOp.Allowed admits keeps the invariant against the file the
call leaves. -/
theorem Refines.cacheStep (h : Refines m a) {op : CacheOp} (hop : op.Allowed = true) :
    Refines (cacheStep m op) (fileStep a op) := by
  cases op with
  | read offset size => exact (pagecacheRead_spec h offset size).1
  | write offset data => exact h.pagecacheWrite offset (by simpa [CacheOp.Allowed] using hop)
  | truncate size => exact h.pagecacheTruncate (by simpa [CacheOp.Allowed] using hop)
  | writeback start stop => exact h.pagecacheWriteback start stop
  | evict start stop writeback discard =>
    obtain rfl : discard = false := by simpa [CacheOp.Allowed] using hop
    exact h.pagecacheEvict start stop writeback
  | invalidate start stop discard =>
    obtain rfl : discard = false := by simpa [CacheOp.Allowed] using hop
    exact h.pagecacheInvalidate start stop
  | readahead offset size => exact h.pagecacheReadahead offset size
  | reclaim target => exact h.pagecacheReclaim target

/-- The run lemma: a run of admitted calls keeps the invariant against the
file of the run. -/
theorem Refines.runCacheOps (h : Refines m a) {ops : List CacheOp} (hops : ∀ op ∈ ops, op.Allowed = true) :
    Refines (runCacheOps m ops) (fileRun a ops) := by
  induction ops generalizing m a with
  | nil => exact h
  | cons op ops ih =>
    exact ih (h.cacheStep (hops op List.mem_cons_self)) fun op' hop' => hops op' (List.mem_cons_of_mem op hop')

/-- From a mapping created over an object of uint64_t size, after any run of
the calls CacheOp.Allowed admits, pagecache_read returns the bytes of the
file the run's writes and truncations make, clipped to its size, and a
writeback of [0, UINT64_MAX] that returns 0 leaves the object holding that
file. -/
theorem pagecache_run_matches_file (store : ByteFile UInt8) (hs : store.size ≤ u64Max) {ops : List CacheOp}
    (hops : ∀ op ∈ ops, op.Allowed = true) :
    (∀ offset size, (pagecacheRead (runCacheOps (Mapping.create store) ops) offset size).2 =
        (fileRun store ops).read offset size) ∧
      ((pagecacheWriteback (runCacheOps (Mapping.create store) ops) 0 u64Max).2 = 0 →
        (pagecacheWriteback (runCacheOps (Mapping.create store) ops) 0 u64Max).1.store = fileRun store ops) := by
  have h := (Refines.create store hs).runCacheOps hops
  exact ⟨fun offset size => (pagecacheRead_spec h offset size).2, store_pagecacheWriteback_all h⟩

/-- A run over an empty object: a write across a page boundary, an eviction
that its dirty pages make fail with -EBUSY, a truncation into the second
page, a readahead and a reclaim. -/
def crossPageRun : List CacheOp :=
  [.write 4094 [1, 2, 3, 4], .evict 0 8191 false false, .truncate 4097, .readahead 0 8192, .reclaim 1]

theorem pagecache_run_matches_file_cross_page :
    ((ByteFile.empty : ByteFile UInt8).size ≤ u64Max ∧ ∀ op ∈ crossPageRun, op.Allowed = true) ∧
      (∀ offset size, (pagecacheRead (runCacheOps (Mapping.create ByteFile.empty) crossPageRun) offset size).2 =
          (fileRun ByteFile.empty crossPageRun).read offset size) ∧
        ((pagecacheWriteback (runCacheOps (Mapping.create ByteFile.empty) crossPageRun) 0 u64Max).2 = 0 →
          (pagecacheWriteback (runCacheOps (Mapping.create ByteFile.empty) crossPageRun) 0 u64Max).1.store =
            fileRun ByteFile.empty crossPageRun) :=
  ⟨⟨by decide, by decide⟩, pagecache_run_matches_file ByteFile.empty (by decide) (by decide)⟩

example : (pagecacheRead (runCacheOps (Mapping.create ByteFile.empty) crossPageRun) 4093 8).2 = [0, 1, 2, 3] := by
  decide +kernel

end Uinxed.PageCache
