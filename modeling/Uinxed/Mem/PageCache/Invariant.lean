/-
  Mem/PageCache/Invariant.lean --- what a mapping's pages and backing object
  say about the file they stand for, and the page operations that keep it.

  The file is a byte array that only pagecache_write and pagecache_truncate
  change.  A mapping caches it when its size is the file's size, every
  UPTODATE page holds the file's bytes (past the size too, where both are
  zero), every dirty page is UPTODATE, and the backing object holds the
  file's bytes wherever no dirty page covers them; the object is no longer
  than the mapping, and when it is shorter the page of the last byte is
  dirty.  The page operations below keep this: creating, touching, loading
  and dropping a clean page change no byte, writing back a page moves its
  bytes to the object, and a write chunk changes the file and the page
  together.
-/
import Uinxed.Mem.PageCache.Mapping

set_option autoImplicit false

namespace Uinxed.PageCache

/-! ## The file a run stands for -/

/-- The file after one call: a write pagecache_write accepts stores its
bytes, a truncation resizes, and every other call leaves the file. -/
def fileStep (a : ByteFile UInt8) : CacheOp → ByteFile UInt8
  | .write offset data => if data.length = 0 ∨ u64Max - data.length < offset then a else a.write offset data
  | .truncate size => a.resize size
  | _ => a

/-- The file after a run of calls. -/
def fileRun (a : ByteFile UInt8) : List CacheOp → ByteFile UInt8
  | [] => a
  | op :: ops => fileRun (fileStep a op) ops

/-- The calls the refinement covers: a write's size is a size_t, none
discards dirty pages, and a truncation's size rounded up to a page still fits
a uint64_t, so that pagecache_truncate's first_dead does not wrap. -/
def CacheOp.Allowed : CacheOp → Bool
  | .write _ data => decide (data.length ≤ u64Max)
  | .truncate size => decide (size + pageSize - 1 ≤ u64Max)
  | .evict _ _ _ discard => !discard
  | .invalidate _ _ discard => !discard
  | _ => true

/-! ## The invariant -/

/-- Whether the page holding byte x is cached and dirty. -/
def Mapping.dirtyAt (m : Mapping) (x : Nat) : Bool := (m.find (x / pageSize)).any CachePage.dirty

/-- Page j of a mapping against the file a: a page of a uint64_t offset,
holding the file's bytes once UPTODATE, and UPTODATE once dirty. -/
structure PageOk (a : ByteFile UInt8) (j : Nat) (p : CachePage) : Prop where
  index_le : j * pageSize ≤ u64Max
  data_eq : p.uptodate = true → ∀ k < pageSize, p.data k = a.byte (j * pageSize + k)
  uptodate_of_dirty : p.dirty = true → p.uptodate = true

/-- The mapping m caches the file a. -/
structure Refines (m : Mapping) (a : ByteFile UInt8) : Prop where
  keys_nodup : m.keys.Nodup
  size_eq : m.size = a.size
  size_le : m.size ≤ u64Max
  page_ok : ∀ j p, m.find j = some p → PageOk a j p
  store_byte : ∀ x, m.dirtyAt x = false → m.store.byte x = a.byte x
  store_size_le : m.store.size ≤ m.size
  dirty_of_store_lt : m.store.size < m.size → m.dirtyAt (m.size - 1) = true

theorem PageOk.of_view {a : ByteFile UInt8} {j : Nat} {p q : CachePage} (h : PageOk a j p)
    (hv : q.view = p.view) : PageOk a j q := by
  simp only [CachePage.view, Prod.mk.injEq] at hv
  obtain ⟨hd, hu, hdi⟩ := hv
  exact ⟨h.index_le, by rw [hu, hd]; exact h.data_eq, by rw [hdi, hu]; exact h.uptodate_of_dirty⟩

/-- A page keeps its standing against a file that agrees with the old one on
the page's bytes. -/
theorem PageOk.congr {a a' : ByteFile UInt8} {j : Nat} {p : CachePage} (h : PageOk a j p)
    (hb : ∀ k < pageSize, a'.byte (j * pageSize + k) = a.byte (j * pageSize + k)) : PageOk a' j p := by
  refine ⟨h.index_le, fun hu k hk => ?_, h.uptodate_of_dirty⟩
  rw [hb k hk]
  exact h.data_eq hu k hk

/-- A page past the size of the file holds zeros once UPTODATE. -/
theorem byte_eq_zero_of_refines {m : Mapping} {a : ByteFile UInt8} (h : Refines m a) {x : Nat}
    (hx : m.size ≤ x) : a.byte x = 0 :=
  a.byte_of_le x (h.size_eq ▸ hx)

/-- The invariant depends only on the pages' views and their dirty bits: a
mapping with the same size and object, whose pages all stand against the
file and whose dirty pages are the same, caches the file too. -/
theorem Refines.of_pages {m m' : Mapping} {a : ByteFile UInt8} (h : Refines m a) (hk : m'.keys.Nodup)
    (hs : m'.size = m.size) (hst : m'.store = m.store) (hpage : ∀ j q, m'.find j = some q → PageOk a j q)
    (hdirty : ∀ j, (m'.find j).any CachePage.dirty = (m.find j).any CachePage.dirty) : Refines m' a where
  keys_nodup := hk
  size_eq := hs ▸ h.size_eq
  size_le := hs ▸ h.size_le
  page_ok := hpage
  store_byte x hx := by
    rw [hst]
    exact h.store_byte x (by rw [Mapping.dirtyAt, ← hdirty]; exact hx)
  store_size_le := by
    rw [hst, hs]
    exact h.store_size_le
  dirty_of_store_lt hlt := by
    rw [Mapping.dirtyAt, hdirty, hs]
    exact h.dirty_of_store_lt (by rw [← hst, ← hs]; exact hlt)

/-- Changing only flags the file does not depend on keeps the invariant. -/
theorem Refines.of_view {m m' : Mapping} {a : ByteFile UInt8} (h : Refines m a) (hk : m'.keys.Nodup)
    (hv : ∀ j, (m'.find j).map CachePage.view = (m.find j).map CachePage.view)
    (hs : m'.size = m.size) (hst : m'.store = m.store) : Refines m' a := by
  refine h.of_pages hk hs hst (fun j q hq => ?_) (fun j => ?_)
  · have hj := hv j
    rw [hq] at hj
    obtain ⟨p, hp, hpq⟩ := Option.map_eq_some_iff.mp hj.symm
    exact (h.page_ok j p hp).of_view hpq.symm
  · have hj := hv j
    cases hq : m'.find j <;> cases hp : m.find j <;> simp_all [CachePage.view]

/-- A mapping just created over an object caches the object. -/
theorem Refines.create (store : ByteFile UInt8) (hs : store.size ≤ u64Max) :
    Refines (Mapping.create store) store where
  keys_nodup := List.nodup_nil
  size_eq := rfl
  size_le := hs
  page_ok j p hp := by simp [Mapping.create, Mapping.find] at hp
  store_byte _ _ := rfl
  store_size_le := le_refl _
  dirty_of_store_lt hlt := absurd hlt (lt_irrefl _)

/-- Without dirty pages the object is the file. -/
theorem Refines.store_eq_of_clean {m : Mapping} {a : ByteFile UInt8} (h : Refines m a)
    (hc : ∀ x, m.dirtyAt x = false) : m.store = a := by
  have hsize : m.store.size = m.size := by
    by_contra hne
    have := h.dirty_of_store_lt (lt_of_le_of_ne h.store_size_le hne)
    rw [hc] at this
    exact Bool.false_ne_true this
  apply ByteFile.ext
  · rw [hsize, h.size_eq]
  · intro x
    exact h.store_byte x (hc x)

/-! ## Pages created, touched, loaded and dropped -/

/-- pc_get_page keeps the invariant when the page it may create is a page of
a uint64_t offset. -/
theorem Refines.getPage {m : Mapping} {a : ByteFile UInt8} (h : Refines m a) (i : Nat) (create accessed : Bool)
    (hi : i * pageSize ≤ u64Max) : Refines (getPage m i create accessed).1 a := by
  refine h.of_pages (nodup_keys_getPage h.keys_nodup i create accessed) (size_getPage ..) (store_getPage ..)
    (fun j q hq => ?_) (fun j => ?_)
  · have hj := find_getPage m i create accessed j
    rw [hq] at hj
    split at hj
    · next hnew =>
      obtain ⟨rfl, -, -⟩ := hnew
      simp only [Option.map_some, Option.some.injEq, CachePage.view, freshView, Prod.mk.injEq] at hj
      exact ⟨hi, fun hu => absurd (hj.2.1 ▸ hu) Bool.false_ne_true,
        fun hd => absurd (hj.2.2 ▸ hd) Bool.false_ne_true⟩
    · obtain ⟨p, hp, hpq⟩ := Option.map_eq_some_iff.mp hj.symm
      exact (h.page_ok j p hp).of_view hpq.symm
  · have hj := find_getPage m i create accessed j
    split at hj
    · next hnew =>
      obtain ⟨rfl, hnone, -⟩ := hnew
      rw [hnone]
      cases hq : (PageCache.getPage m j create accessed).1.find j <;> simp_all [CachePage.view, freshView]
    · cases hq : (PageCache.getPage m i create accessed).1.find j <;> cases hp : m.find j <;>
        simp_all [CachePage.view]

/-- pc_get_page with create set leaves a page at the index. -/
theorem find_getPage_isSome (m : Mapping) (i : Nat) (accessed : Bool) :
    ((getPage m i true accessed).1.find i).isSome := by
  have hj := find_getPage m i true accessed i
  rw [← Option.isSome_map (f := CachePage.view), hj]
  split
  · rfl
  · next hold =>
    have : (m.find i).isSome := by
      cases hm : m.find i
      · exact absurd ⟨rfl, hm, rfl⟩ hold
      · rfl
    simpa using this

/-- The bytes pc_load_locked reads are the file's: the page is clean, so the
object holds the file there, and past the size both are zero. -/
theorem loaded_byte_eq {m : Mapping} {a : ByteFile UInt8} (h : Refines m a) {i : Nat} {p : CachePage}
    (hp : m.find i = some p) (hd : p.dirty = false) {k : Nat} (hk : k < pageSize) :
    (if k < pageCount m.size i then (m.store.read (i * pageSize) (pageCount m.size i)).getD k 0 else 0) =
      a.byte (i * pageSize + k) := by
  by_cases hc : k < pageCount m.size i
  · rw [if_pos hc, ByteFile.getD_read, if_pos hc]
    refine h.store_byte _ ?_
    have hdiv : (i * pageSize + k) / pageSize = i := div_pageSize_eq_iff.mpr ⟨by omega, by omega⟩
    rw [Mapping.dirtyAt, hdiv, hp]
    exact hd
  · rw [if_neg hc]
    exact (byte_eq_zero_of_refines h (size_le_of_pageCount_le (Nat.le_of_not_lt hc) hk)).symm

theorem Refines.loadLocked {m : Mapping} {a : ByteFile UInt8} (h : Refines m a) (i : Nat) :
    Refines (loadLocked m i) a := by
  cases hp : m.find i with
  | none => rwa [loadLocked_of_none hp]
  | some p =>
    cases hu : p.uptodate
    · have hd : p.dirty = false := by
        cases hd : p.dirty
        · rfl
        · exact absurd ((h.page_ok i p hp).uptodate_of_dirty hd) (by rw [hu]; decide)
      rw [loadLocked_of_not_uptodate hp hu]
      refine h.of_pages (by simpa using h.keys_nodup) rfl rfl (fun j q hq => ?_) (fun j => ?_)
      · rw [Mapping.find_modifyPage] at hq
        split at hq
        · next hji =>
          subst hji
          rw [hp] at hq
          cases hq
          exact ⟨(h.page_ok j p hp).index_le, fun _ k hk => loaded_byte_eq h hp hd hk, fun _ => rfl⟩
        · exact h.page_ok j q hq
      · rw [Mapping.find_modifyPage]
        split
        · next hji =>
          subst hji
          rw [hp]
          rfl
        · rfl
    · rwa [loadLocked_of_uptodate hp hu]

/-- After pc_load_locked a cached page is UPTODATE, with its dirty bit as it
was. -/
theorem find_loadLocked_uptodate {m : Mapping} {i : Nat} {p : CachePage} (hp : m.find i = some p) :
    ∃ q, (loadLocked m i).find i = some q ∧ q.uptodate = true ∧ q.dirty = p.dirty := by
  cases hu : p.uptodate
  · rw [loadLocked_of_not_uptodate hp hu, Mapping.find_modifyPage, if_pos rfl, hp, Option.map_some]
    exact ⟨_, rfl, rfl, rfl⟩
  · rw [loadLocked_of_uptodate hp hu]
    exact ⟨p, hp, hu, rfl⟩

/-- Dropping a clean page (pc_unlink_page and pc_free_page) keeps the
invariant: the object already holds its bytes. -/
theorem Refines.removePage {m : Mapping} {a : ByteFile UInt8} (h : Refines m a) {i : Nat}
    (hc : (m.find i).any CachePage.dirty = false) : Refines (m.removePage i) a := by
  refine h.of_pages (by simpa using h.keys_nodup.filter _) rfl rfl (fun j q hq => ?_) (fun j => ?_)
  · rw [Mapping.find_removePage] at hq
    split at hq
    · cases hq
    · exact h.page_ok j q hq
  · rw [Mapping.find_removePage]
    split
    · next hji =>
      subst hji
      exact hc.symm
    · rfl

/-! ## Writing a page back -/

/-- The object after pc_writeback_page_locked writes a dirty page holds the
file's bytes on the page and its old bytes elsewhere. -/
theorem writeback_store_byte {m : Mapping} {a : ByteFile UInt8} (h : Refines m a) {i : Nat} {p : CachePage}
    (hp : m.find i = some p) (hpu : p.uptodate = true) (x : Nat) :
    (if pageCount m.size i = 0 then m.store
      else m.store.write (i * pageSize) ((List.range (pageCount m.size i)).map p.data)).byte x =
      if x / pageSize = i then a.byte x else m.store.byte x := by
  have hle := pageCount_le m.size i
  by_cases hx : x / pageSize = i
  · rw [if_pos hx]
    have hxi := div_pageSize_eq_iff.mp hx
    by_cases hk : x - i * pageSize < pageCount m.size i
    · rw [if_neg (by omega), ByteFile.byte_write,
        if_pos (by simp only [List.length_map, List.length_range]; omega), ByteFile.getD_map_range, if_pos hk,
        (h.page_ok i p hp).data_eq hpu _ (by omega)]
      congr 1
      omega
    · have hsize : m.size ≤ x := by
        have := size_le_of_pageCount_le (Nat.le_of_not_lt hk) (show x - i * pageSize < pageSize by omega)
        omega
      have hstore : m.store.byte x = 0 := m.store.byte_of_le x (le_trans h.store_size_le hsize)
      rw [byte_eq_zero_of_refines h hsize]
      split
      · exact hstore
      · rw [ByteFile.byte_write, if_neg (by simp only [List.length_map, List.length_range]; omega), hstore]
  · rw [if_neg hx]
    split
    · rfl
    · rw [ByteFile.byte_write, if_neg]
      intro hin
      exact hx (div_pageSize_eq_iff.mpr ⟨by omega, by simp only [List.length_map, List.length_range] at hin; omega⟩)

/-- The object after a page is written back: no shorter than before, and no
longer than the mapping. -/
theorem writeback_store_size_le {m : Mapping} (hle : m.store.size ≤ m.size) (i : Nat) (data : Nat → UInt8) :
    m.store.size ≤ (if pageCount m.size i = 0 then m.store
      else m.store.write (i * pageSize) ((List.range (pageCount m.size i)).map data)).size ∧
    (if pageCount m.size i = 0 then m.store
      else m.store.write (i * pageSize) ((List.range (pageCount m.size i)).map data)).size ≤ m.size := by
  split
  · exact ⟨le_refl _, hle⟩
  · next hc =>
    have := add_pageCount_le hc
    rw [ByteFile.size_write, List.length_map, List.length_range, if_neg hc]
    omega

/-- Writing back the page of the last byte makes the object as long as the
mapping. -/
theorem writeback_store_size_of_last {m : Mapping} (hle : m.store.size ≤ m.size) {i : Nat} (data : Nat → UInt8)
    (hs : 0 < m.size) (hlast : (m.size - 1) / pageSize = i) :
    (if pageCount m.size i = 0 then m.store
      else m.store.write (i * pageSize) ((List.range (pageCount m.size i)).map data)).size = m.size := by
  have hend := add_pageCount_eq_of_last hs hlast
  have hc : pageCount m.size i ≠ 0 := by
    have := div_pageSize_eq_iff.mp hlast
    omega
  rw [if_neg hc, ByteFile.size_write, List.length_map, List.length_range, if_neg hc]
  omega

theorem Refines.writebackPage {m : Mapping} {a : ByteFile UInt8} (h : Refines m a) (i : Nat) :
    Refines (writebackPage m i) a := by
  cases hd : (m.find i).any CachePage.dirty
  · rwa [writebackPage_of_clean hd]
  · obtain ⟨p, hp, hpd⟩ : ∃ p, m.find i = some p ∧ p.dirty = true := by
      cases hp : m.find i with
      | none => rw [hp] at hd; cases hd
      | some p => rw [hp] at hd; exact ⟨p, rfl, hd⟩
    have hpu := (h.page_ok i p hp).uptodate_of_dirty hpd
    have hsize := writeback_store_size_le h.store_size_le i p.data
    rw [writebackPage_of_dirty hp hpd]
    refine ⟨?_, h.size_eq, h.size_le, fun j q hq => ?_, fun x hx => ?_, ?_, fun hlt => ?_⟩
    · rw [Mapping.keys_modifyPage]
      exact h.keys_nodup
    · rw [Mapping.find_modifyPage] at hq
      split at hq
      · next hji =>
        subst hji
        change (m.find j).map _ = some q at hq
        rw [hp] at hq
        cases hq
        have hok := h.page_ok j p hp
        exact ⟨hok.index_le, hok.data_eq, fun _ => hpu⟩
      · exact h.page_ok j q hq
    · simp only [Mapping.store_modifyPage]
      rw [writeback_store_byte h hp hpu x]
      split
      · rfl
      · next hxi =>
        refine h.store_byte x ?_
        rwa [Mapping.dirtyAt, Mapping.find_modifyPage, if_neg hxi] at hx
    · exact hsize.2
    · simp only [Mapping.store_modifyPage, Mapping.size_modifyPage] at hlt ⊢
      by_cases hlast : (m.size - 1) / pageSize = i
      · rw [writeback_store_size_of_last h.store_size_le p.data (by omega) hlast] at hlt
        exact absurd hlt (lt_irrefl _)
      · rw [Mapping.dirtyAt, Mapping.find_modifyPage, if_neg hlast]
        exact h.dirty_of_store_lt (lt_of_le_of_lt hsize.1 hlt)

/-! ## One turn of a read or a write -/

/-- Every byte of a run that stays inside one page lies in that page. -/
theorem div_pageSize_of_chunk {pos len y : Nat} (hin : pos % pageSize + len ≤ pageSize) (hy : pos ≤ y)
    (hyl : y < pos + len) : y / pageSize = pos / pageSize := by
  have hd := Nat.div_add_mod pos pageSize
  rw [div_pageSize_eq_iff]
  rw [Nat.mul_comm] at hd
  constructor <;> omega

/-- The page a turn of pagecache_write copies into, once prepared: UPTODATE,
dirty as before, and holding the file's bytes wherever the write does not
cover it. -/
theorem prepareWrite_page {m : Mapping} {a : ByteFile UInt8} (h : Refines m a) {i : Nat} {p : CachePage}
    (hp : m.find i = some p) (inside count : Nat) :
    ∃ q, (prepareWrite m i inside count).find i = some q ∧ q.uptodate = true ∧ q.dirty = p.dirty ∧
      ∀ k < pageSize, (k < inside ∨ inside + count ≤ k) → q.data k = a.byte (i * pageSize + k) := by
  unfold prepareWrite
  rw [hp]
  dsimp only
  cases hu : p.uptodate
  · rw [if_neg Bool.false_ne_true]
    split
    · obtain ⟨q, hq, hqu, hqd⟩ := find_loadLocked_uptodate hp
      exact ⟨q, hq, hqu, hqd, fun k hk _ => ((h.loadLocked i).page_ok i q hq).data_eq hqu k hk⟩
    · next hcond =>
      -- the page is zeroed: either the write covers all of it, or it lies past the end of file
      rw [Mapping.find_modifyPage, if_pos rfl, hp, Option.map_some]
      refine ⟨_, rfl, rfl, rfl, fun k hk hout => ?_⟩
      have hpast : m.size ≤ i * pageSize + k := by
        by_cases hfull : inside = 0 ∧ count = pageSize
        · omega
        · have : ¬ i * pageSize < m.size := fun hlt => hcond ⟨by omega, hlt⟩
          omega
      exact (byte_eq_zero_of_refines h hpast).symm
  · rw [if_pos rfl]
    exact ⟨p, hp, hu, rfl, fun k hk _ => (h.page_ok i p hp).data_eq hu k hk⟩

/-- One turn of pagecache_read keeps the invariant and copies the file's
bytes. -/
theorem readChunk_spec {m : Mapping} {a : ByteFile UInt8} (h : Refines m a) {pos count : Nat}
    (hin : pos % pageSize + count ≤ pageSize) (hpos : pos ≤ u64Max) :
    Refines (readChunk m pos count).1 a ∧
      (readChunk m pos count).2 = (List.range count).map fun k => a.byte (pos + k) := by
  have hi : pos / pageSize * pageSize ≤ u64Max := le_trans (Nat.div_mul_le_self pos pageSize) hpos
  have h1 := h.getPage (pos / pageSize) true true hi
  obtain ⟨p, hp⟩ := Option.isSome_iff_exists.mp (find_getPage_isSome m (pos / pageSize) true)
  obtain ⟨q, hq, hqu, -⟩ := find_loadLocked_uptodate hp
  have h2 := h1.loadLocked (pos / pageSize)
  refine ⟨h2, List.map_congr_left fun k hk => ?_⟩
  rw [List.mem_range] at hk
  have hd := Nat.div_add_mod pos pageSize
  rw [Mapping.pageData_of_find hq, (h2.page_ok _ q hq).data_eq hqu _ (by omega)]
  congr 1
  rw [Nat.mul_comm] at hd
  omega

/-- The page a write turn leaves holds the written file's bytes: the chunk
where it copied, zeros in the gap past the old end of file, and the file's
bytes elsewhere. -/
theorem copyChunk_data {a : ByteFile UInt8} {i inside oldInPage : Nat} {chunk : List UInt8} {q : CachePage}
    (hold : ∀ k, oldInPage ≤ k → k < pageSize → a.byte (i * pageSize + k) = 0)
    (hq : ∀ k < pageSize, (k < inside ∨ inside + chunk.length ≤ k) → q.data k = a.byte (i * pageSize + k))
    {k : Nat} (hk : k < pageSize) :
    (copyChunk inside oldInPage chunk q).data k = (a.write (i * pageSize + inside) chunk).byte (i * pageSize + k) := by
  have hw : (a.write (i * pageSize + inside) chunk).byte (i * pageSize + k) =
      if inside ≤ k ∧ k < inside + chunk.length then chunk.getD (k - inside) 0 else a.byte (i * pageSize + k) := by
    rw [ByteFile.byte_write]
    by_cases hc : inside ≤ k ∧ k < inside + chunk.length
    · rw [if_pos hc, if_pos (by omega)]
      congr 1
      omega
    · rw [if_neg hc, if_neg (by omega)]
  rw [hw]
  unfold copyChunk
  dsimp only
  by_cases hc : inside ≤ k ∧ k < inside + chunk.length
  · simp only [if_pos hc]
  · simp only [if_neg hc]
    by_cases hg : oldInPage ≤ k ∧ k < inside
    · rw [if_pos hg, hold k hg.1 hk]
    · rw [if_neg hg, hq k hk (by omega)]

/-- One turn of pagecache_write keeps the invariant against the file with the
chunk written. -/
theorem Refines.writeChunk {m : Mapping} {a : ByteFile UInt8} (h : Refines m a) {pos : Nat} {chunk : List UInt8}
    (hne : chunk ≠ []) (hin : pos % pageSize + chunk.length ≤ pageSize) (hend : pos + chunk.length ≤ u64Max) :
    Refines (writeChunk m pos chunk) (a.write pos chunk) := by
  have hlen : chunk.length ≠ 0 := by simpa using hne
  have hd := Nat.div_add_mod pos pageSize
  rw [Nat.mul_comm] at hd
  generalize hi : pos / pageSize = i at hd
  have hidx : i * pageSize ≤ u64Max := by omega
  have h1 := h.getPage i true true hidx
  obtain ⟨p1, hp1⟩ := Option.isSome_iff_exists.mp (find_getPage_isSome m i true)
  obtain ⟨p2, hp2, -, -, hp2data⟩ := prepareWrite_page h1 hp1 (pos % pageSize) chunk.length
  -- a byte outside page i is outside the write
  have hout : ∀ x, x / pageSize ≠ i → (a.write pos chunk).byte x = a.byte x := by
    intro x hx
    rw [ByteFile.byte_write, if_neg]
    intro hxr
    exact hx (hi ▸ div_pageSize_of_chunk hin hxr.1 hxr.2)
  have hfind : ∀ j, (PageCache.writeChunk m pos chunk).find j =
      if j = i then some (copyChunk (pos % pageSize) (min pageSize (m.size - i * pageSize)) chunk p2)
      else (PageCache.getPage m i true true).1.find j := by
    intro j
    rw [find_writeChunk, hi, Mapping.find_modifyPage, hp2, Option.map_some]
    split
    · rfl
    · next hji => exact find_prepareWrite_ne _ _ _ hji
  refine ⟨by simpa [hi] using h1.keys_nodup, ?_, ?_, fun j q hq => ?_, fun x hx => ?_, ?_, fun hlt => ?_⟩
  · rw [size_writeChunk, ByteFile.size_write, if_neg hlen, h.size_eq]
  · rw [size_writeChunk]
    exact max_le h.size_le hend
  · rw [hfind] at hq
    split at hq
    · next hji =>
      subst hji
      cases hq
      have hold : ∀ k, min pageSize (m.size - j * pageSize) ≤ k → k < pageSize → a.byte (j * pageSize + k) = 0 :=
        fun k hk1 hk2 => byte_eq_zero_of_refines h (by omega)
      refine ⟨hidx, fun _ k hk => ?_, fun _ => rfl⟩
      have hk' := copyChunk_data hold hp2data hk
      rwa [hd] at hk'
    · next hji =>
      refine (h1.page_ok j q hq).congr fun k hk => hout _ ?_
      have hdiv : (j * pageSize + k) / pageSize = j := div_pageSize_eq_iff.mpr ⟨by omega, by omega⟩
      rw [hdiv]
      exact hji
  · have hxi : x / pageSize ≠ i := by
      intro hxi
      rw [Mapping.dirtyAt, hfind, if_pos hxi] at hx
      cases hx
    rw [store_writeChunk, hout x hxi]
    refine (store_getPage m i true true) ▸ h1.store_byte x ?_
    rwa [Mapping.dirtyAt, hfind, if_neg hxi] at hx
  · rw [store_writeChunk, size_writeChunk]
    exact le_trans h.store_size_le (le_max_left _ _)
  · rw [size_writeChunk, store_writeChunk] at *
    by_cases hlast : (max m.size (pos + chunk.length) - 1) / pageSize = i
    · rw [Mapping.dirtyAt, hfind, if_pos hlast]
      rfl
    · -- the last byte is not in page i, so the write did not grow the file
      have hgrow : max m.size (pos + chunk.length) = m.size := by
        by_contra hne
        exact hlast (hi ▸ div_pageSize_of_chunk hin (by omega) (by omega))
      rw [hgrow] at hlast hlt ⊢
      rw [Mapping.dirtyAt, hfind, if_neg hlast]
      have hdirty := h1.dirty_of_store_lt (by simpa using hlt)
      rwa [size_getPage] at hdirty

end Uinxed.PageCache
