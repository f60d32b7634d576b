/-
  Process/ElfPages.lean --- the pages load_elf_segments_source maps and what
  they hold.

  The first loop accepts a table only when every PT_LOAD segment has its file
  bytes inside the image, no more file than memory, and a page range inside
  the user range [PROCESS_HEAP_START, PROCESS_USER_STACK_TOP) (SegmentOk);
  the lowest start and highest end it finds bound every segment's page range
  (validateSegments_ok).  On a page-aligned address, the test of
  elf_page_attributes (page ranges) is the plain intersection of the page
  with the segment's memory range (pageCovers_iff).

  The copy loop reads, for each segment in program-header order, the bytes of
  its file range that fall on the page, over what earlier segments wrote:
  byte j of the page is that of the last segment whose file range holds
  va + j, and zero when none does (imageByte).  The page loop maps each
  covered page once, fresh, with these bytes (PagesLoaded), and every range it
  reads lies inside the image.
-/
import Uinxed.Process.ElfRead

set_option autoImplicit false

namespace Uinxed.Process

open TraceExcept

/-! ## Segments -/

/-- The memory range [vaddr + bias, vaddr + bias + memsz) of a PT_LOAD segment
meets the page at va. -/
def SegmentMeetsPage (bias va : Nat) (seg : Phdr) : Prop :=
  seg.type = ptLoad ∧ 0 < seg.memsz ∧ va < seg.vaddr + bias + seg.memsz ∧ seg.vaddr + bias < va + page4kSize

/-- The file range [vaddr + bias, vaddr + bias + filesz) of a PT_LOAD segment
holds the address a. -/
def segmentHolds (bias a : Nat) (seg : Phdr) : Bool :=
  seg.type == ptLoad && decide (seg.vaddr + bias ≤ a) && decide (a < seg.vaddr + bias + seg.filesz)

/-- The file byte a segment puts at address a. -/
def segmentByte (image : Nat → UInt8) (bias a : Nat) (seg : Phdr) : UInt8 :=
  image (seg.offset + (a - (seg.vaddr + bias)))

/-- The byte at address a of the loaded image: that of the last PT_LOAD
segment, in program-header order, whose file range holds a; zero when none
does. -/
def imageByte (image : Nat → UInt8) (phdrs : List Phdr) (bias a : Nat) : UInt8 :=
  (((phdrs.filter (segmentHolds bias a)).getLast?).map (segmentByte image bias a)).getD 0

/-- What the first loop checks of a PT_LOAD segment. -/
structure SegmentOk (size bias : Nat) (seg : Phdr) : Prop where
  filesz_le : seg.filesz ≤ seg.memsz
  file_le : seg.offset + seg.filesz ≤ size
  range : seg.memsz = 0 ∨
    ∃ r, elfSegmentRange seg bias = .ok (some r) ∧ processHeapStart ≤ r.start ∧ r.stop ≤ processUserStackTop

variable {seg : Phdr} {bias : Nat} {r : SegmentRange}

/-- A range elf_segment_range returns is that of the segment's memory. -/
theorem elfSegmentRange_some (h : elfSegmentRange seg bias = .ok (some r)) :
    seg.memsz ≠ 0 ∧ r.base = seg.vaddr + bias ∧ r.start = alignDown (seg.vaddr + bias) ∧
      r.stop = alignUp (seg.vaddr + bias + seg.memsz) := by
  unfold elfSegmentRange at h
  split at h
  · cases h
  · next hm =>
    split at h
    · cases h
    split at h
    · cases h
    split at h
    · cases h
    split at h
    · cases h
    · cases h
      exact ⟨hm, rfl, rfl, rfl⟩

theorem elfSegmentRange_none (h : elfSegmentRange seg bias = .ok none) : seg.memsz = 0 := by
  unfold elfSegmentRange at h
  split at h
  · assumption
  · repeat (split at h; · cases h)
    cases h

/-- A segment with memory that the first loop accepted has a range. -/
theorem SegmentOk.exists_range {size : Nat} (h : SegmentOk size bias seg) (hm : seg.memsz ≠ 0) :
    ∃ r, elfSegmentRange seg bias = .ok (some r) ∧ processHeapStart ≤ r.start ∧ r.stop ≤ processUserStackTop :=
  h.range.resolve_left hm

/-- On a page-aligned address, the test of elf_page_attributes is the
intersection of the page with the segment's memory. -/
theorem pageCovers_iff {va : Nat} (hva : va % page4kSize = 0)
    (hr : seg.type = ptLoad → seg.memsz = 0 ∨ ∃ r, elfSegmentRange seg bias = .ok (some r)) :
    pageCovers bias va seg = true ↔ SegmentMeetsPage bias va seg := by
  unfold pageCovers SegmentMeetsPage
  by_cases ht : seg.type = ptLoad
  swap
  · simp [ht]
  rcases Nat.eq_zero_or_pos seg.memsz with hm | hm
  · simp [hm]
  obtain ⟨r, hr⟩ := (hr ht).resolve_left (by omega)
  obtain ⟨-, -, hstart, hstop⟩ := elfSegmentRange_some hr
  rw [hr]
  simp only [Bool.and_eq_true, beq_iff_eq, bne_iff_ne, ne_eq, Bool.not_eq_true', Bool.or_eq_false_iff,
    decide_eq_false_iff_not, Nat.not_le]
  rw [hstart, hstop]
  unfold alignUp alignDown page4kSize at *
  omega

/-- A page a segment covers lies in the segment's page range. -/
theorem le_of_pageCovers {va : Nat} (hva : va % page4kSize = 0) (h : elfSegmentRange seg bias = .ok (some r))
    (hc : pageCovers bias va seg = true) : r.start ≤ va ∧ va < r.stop := by
  unfold pageCovers at hc
  rw [h] at hc
  simp only [Bool.and_eq_true, Bool.not_eq_true', Bool.or_eq_false_iff, decide_eq_false_iff_not,
    Nat.not_le] at hc
  obtain ⟨-, -, hstart, -⟩ := elfSegmentRange_some h
  have : r.start % page4kSize = 0 := by rw [hstart]; unfold alignDown page4kSize; omega
  unfold page4kSize at *
  omega

/-- A segment covers a page only through a range elf_segment_range returns. -/
theorem pageCovers_range {va : Nat} (hc : pageCovers bias va seg = true) :
    seg.type = ptLoad ∧ ∃ r, elfSegmentRange seg bias = .ok (some r) := by
  unfold pageCovers at hc
  simp only [Bool.and_eq_true, beq_iff_eq] at hc
  obtain ⟨⟨ht, -⟩, hc'⟩ := hc
  refine ⟨ht, ?_⟩
  split at hc'
  · next r hr => exact ⟨r, hr⟩
  · cases hc'

/-! ## The first loop -/

/-- The first loop accepts only PT_LOAD segments it has checked, and the
lowest start and highest end it returns bound the page range of each. -/
theorem validateSegments_ok {size : Nat} :
    ∀ {phdrs : List Phdr} {lo₀ hi₀ lo hi : Nat}, validateSegments size bias phdrs lo₀ hi₀ = .ok (lo, hi) →
      lo ≤ lo₀ ∧ hi₀ ≤ hi ∧ (lo = lo₀ ∨ lo % page4kSize = 0 ∧ processHeapStart ≤ lo) ∧
        ∀ seg ∈ phdrs, seg.type = ptLoad → SegmentOk size bias seg ∧
          ∀ r, elfSegmentRange seg bias = .ok (some r) → lo ≤ r.start ∧ r.stop ≤ hi
  | [], lo₀, hi₀, lo, hi, h => by
    cases h
    exact ⟨Nat.le_refl _, Nat.le_refl _, .inl rfl, by simp⟩
  | seg :: rest, lo₀, hi₀, lo, hi, h => by
    unfold validateSegments at h
    split at h
    · -- not PT_LOAD: skipped
      next ht =>
      obtain ⟨hlo, hhi, hal, hrest⟩ := validateSegments_ok h
      exact ⟨hlo, hhi, hal, fun s hs hst => (List.mem_cons.mp hs).elim (fun he => absurd (he ▸ hst) ht)
        (fun hs => hrest s hs hst)⟩
    next ht =>
    split at h
    · cases h
    split at h
    · cases h
    split at h
    · cases h
    next hfile halign =>
    split at h
    · cases h
    · -- no memory: skipped
      next hnone =>
      obtain ⟨hlo, hhi, hal, hrest⟩ := validateSegments_ok h
      refine ⟨hlo, hhi, hal, fun s hs hst => ?_⟩
      rcases List.mem_cons.mp hs with rfl | hs
      · refine ⟨⟨by omega, by omega, .inl (elfSegmentRange_none hnone)⟩, fun r hr => ?_⟩
        rw [hnone] at hr
        cases hr
      · exact hrest s hs hst
    · next r hr =>
      split at h
      · cases h
      · next hbound =>
        obtain ⟨hlo, hhi, hal, hrest⟩ := validateSegments_ok h
        have hstart : r.start % page4kSize = 0 := by
          rw [(elfSegmentRange_some hr).2.2.1]; unfold alignDown page4kSize; omega
        refine ⟨by omega, by omega, ?_, fun s hs hst => ?_⟩
        · -- the lowest start is the first one, or a segment's, which is aligned
          rcases hal with hal | hal
          · rcases Nat.le_total lo₀ r.start with hle | hle
            · exact .inl (by rw [hal]; exact Nat.min_eq_left hle)
            · exact .inr (by rw [hal, Nat.min_eq_right hle]; exact ⟨hstart, by omega⟩)
          · exact .inr hal
        rcases List.mem_cons.mp hs with rfl | hs
        · refine ⟨⟨by omega, by omega, .inr ⟨r, hr, by omega, by omega⟩⟩, fun r' hr' => ?_⟩
          rw [hr] at hr'
          cases hr'
          omega
        · exact hrest s hs hst

/-! ## The copy loop -/

variable {env : LoadEnv} {va : Nat}

/-- The copy of a segment's bytes on the page at va: byte j of the page is
the segment's file byte where its file range holds va + j. -/
theorem copyIn_segment {image : Nat → UInt8} {page : Nat → UInt8} (hr : elfSegmentRange seg bias = .ok (some r))
    (hpt : seg.type = ptLoad) (hlt : max va r.base < min (va + page4kSize) (r.base + seg.filesz)) {j : Nat}
    (hj : j < page4kSize) :
    copyIn page (max va r.base - va) (fun i => image (seg.offset + (max va r.base - r.base) + i))
        (min (va + page4kSize) (r.base + seg.filesz) - max va r.base) j =
      if segmentHolds bias (va + j) seg then segmentByte image bias (va + j) seg else page j := by
  obtain ⟨-, hbase, -, -⟩ := elfSegmentRange_some hr
  simp only [copyIn, segmentHolds, segmentByte, hpt, beq_self_eq_true, Bool.true_and, Bool.and_eq_true,
    decide_eq_true_eq]
  rw [← hbase]
  by_cases hin : r.base ≤ va + j ∧ va + j < r.base + seg.filesz
  · rw [if_pos (by omega), if_pos hin]
    congr 1
    omega
  · rw [if_neg (by omega), if_neg hin]

/-- A segment whose file range misses the page leaves the last-byte choice
on the page as it is. -/
theorem filter_cons_of_not_holds {a : Nat} {rest : List Phdr} (h : segmentHolds bias a seg = false) :
    (seg :: rest).filter (segmentHolds bias a) = rest.filter (segmentHolds bias a) :=
  List.filter_cons_of_neg (by simp [h])

/-- The byte the copies of segs leave over a page byte b. -/
def lastByte (image : Nat → UInt8) (segs : List Phdr) (bias a : Nat) (b : UInt8) : UInt8 :=
  (((segs.filter (segmentHolds bias a)).getLast?).map (segmentByte image bias a)).getD b

theorem lastByte_cons {image : Nat → UInt8} {rest : List Phdr} {a : Nat} {b : UInt8} :
    lastByte image (seg :: rest) bias a b =
      lastByte image rest bias a (if segmentHolds bias a seg then segmentByte image bias a seg else b) := by
  unfold lastByte
  by_cases h : segmentHolds bias a seg = true
  · rw [List.filter_cons_of_pos h, if_pos h, List.getLast?_cons]
    cases (rest.filter (segmentHolds bias a)).getLast? <;> rfl
  · rw [Bool.not_eq_true] at h
    rw [filter_cons_of_not_holds h, if_neg (by simp [h])]

section CopyLoop

variable {size : Nat}

/-- The copy loop over segs leaves byte j of the page as the last of segs
whose file range holds va + j wrote it, and keeps the source. -/
theorem returns_copySegments :
    ∀ {segs : List Phdr} {src : ElfSource} {page : Nat → UInt8}, src.WindowOk →
      (∀ seg ∈ segs, seg.type = ptLoad → SegmentOk src.size bias seg) →
      Returns (fun res : ElfSource × (Nat → UInt8) => src.Keeps res.1 ∧
          ∀ j < page4kSize, res.2 j = lastByte src.image segs bias (va + j) (page j))
        (copySegments env bias va segs src page)
  | [], src, page, hw, _ => returns_pure ⟨.refl hw, fun j _ => rfl⟩
  | seg :: rest, src, page, hw, hsegs => by
    have hrest := fun s hs => hsegs s (List.mem_cons_of_mem _ hs)
    -- the segments after seg, from the page and source seg leaves
    have hnext : ∀ page', (∀ j < page4kSize, page' j = if segmentHolds bias (va + j) seg
          then segmentByte src.image bias (va + j) seg else page j) →
        Returns (fun res : ElfSource × (Nat → UInt8) => src.Keeps res.1 ∧
          ∀ j < page4kSize, res.2 j = lastByte src.image (seg :: rest) bias (va + j) (page j))
          (copySegments env bias va rest src page') := fun page' hpage' =>
      (@returns_copySegments rest src page' hw hrest).mono fun res ⟨hk, hres⟩ =>
        ⟨hk, fun j hj => by rw [hres j hj, lastByte_cons, hpage' j hj]⟩
    -- a segment the loop skips holds no byte of the page
    have hskip : (∀ j < page4kSize, segmentHolds bias (va + j) seg = false) →
        Returns (fun res : ElfSource × (Nat → UInt8) => src.Keeps res.1 ∧
          ∀ j < page4kSize, res.2 j = lastByte src.image (seg :: rest) bias (va + j) (page j))
          (copySegments env bias va rest src page) := fun hmiss =>
      hnext page fun j hj => by rw [if_neg (by simp [hmiss j hj])]
    unfold copySegments
    split
    · next hskip' =>
      refine hskip fun j _ => ?_
      simp only [segmentHolds, Bool.and_eq_false_iff, beq_eq_false_iff_ne, decide_eq_false_iff_not]
      omega
    next hload =>
    have hpt : seg.type = ptLoad := by omega
    obtain ⟨r, hr, -⟩ := (hsegs seg List.mem_cons_self hpt).exists_range
      (by have := (hsegs seg List.mem_cons_self hpt).filesz_le; omega)
    obtain ⟨-, hbase, -, -⟩ := elfSegmentRange_some hr
    rw [hr]
    dsimp only
    split
    · next hempty =>
      refine hskip fun j hj => ?_
      simp only [segmentHolds, Bool.and_eq_false_iff, beq_eq_false_iff_ne, decide_eq_false_iff_not]
      omega
    split
    · exact returns_throw _
    split
    · exact returns_throw _
    next hlt _ _ =>
    -- the read puts the segment's file bytes on the page, then the rest copy over it
    refine returns_bind (returns_elfSourceRead hw _ _ _ _) fun res ⟨hk, hres⟩ => ?_
    refine ((@returns_copySegments rest res.1 res.2 hk.window fun s hs hst => hk.size ▸ hrest s hs hst).mono
      fun res' ⟨hk', hres'⟩ => ⟨hk.trans hk', fun j hj => ?_⟩)
    rw [hres' j hj, hk.image, hres, copyIn_segment hr hpt (Nat.lt_of_not_le hlt) hj, lastByte_cons]

end CopyLoop

/-! ## The page loop -/

/-- What the page loop leaves of the pages of vas: each covered page mapped
fresh with its PTE flags and the bytes of the image, every other page as it
was. -/
structure PagesLoaded (phdrs : List Phdr) (bias : Nat) (image : Nat → UInt8) (vas : List Nat)
    (pages pages' : Nat → Option UserPage) : Prop where
  other : ∀ va, (va ∉ vas ∨ elfPageAttributes phdrs bias va = none) → pages' va = pages va
  loaded : ∀ va ∈ vas, ∀ pf vf, elfPageAttributes phdrs bias va = some (pf, vf) →
    pages va = none ∧ ∃ data, pages' va = some ⟨pf, data⟩ ∧
      ∀ j < page4kSize, data j = imageByte image phdrs bias (va + j)

variable {phdrs : List Phdr} {st : ElfProcess} {src : ElfSource}

/-- One step of the page loop maps a covered page fresh, with the bytes of
the image, and leaves the other pages as they were. -/
theorem returns_loadPage (hw : src.WindowOk) (hsegs : ∀ seg ∈ phdrs, seg.type = ptLoad → SegmentOk src.size bias seg) :
    Returns (fun res : ElfProcess × ElfSource => src.Keeps res.2 ∧ res.1.vmas = st.vmas ∧
        (elfPageAttributes phdrs bias va = none → res.1.pages = st.pages) ∧
        ∀ pf vf, elfPageAttributes phdrs bias va = some (pf, vf) → st.pages va = none ∧
          ∃ data, res.1.pages = Function.update st.pages va (some ⟨pf, data⟩) ∧
            ∀ j < page4kSize, data j = imageByte src.image phdrs bias (va + j))
      (loadPage env phdrs bias st src va) := by
  unfold loadPage
  split
  · next hnone =>
    refine returns_pure ⟨.refl hw, rfl, fun _ => rfl, fun pf vf h => ?_⟩
    rw [hnone] at h
    cases h
  · next pf vf hattr =>
    split
    · exact returns_throw _
    split
    · exact returns_throw _
    · next pages hmap =>
      unfold pageMapNewTo at hmap
      split at hmap
      · cases hmap
      · next hfree =>
        cases hmap
        refine returns_bind (returns_copySegments hw hsegs) fun res ⟨hk, hres⟩ => returns_pure ⟨hk, rfl, ?_, ?_⟩
        · intro h
          rw [hattr] at h
          cases h
        · intro pf' vf' h
          rw [hattr] at h
          cases h
          refine ⟨by simp at hfree; exact hfree.1, res.2, ?_, fun j hj => by rw [hres j hj]; rfl⟩
          simp

/-- The page loop over distinct page addresses maps each covered one fresh
with the bytes of the image. -/
theorem returns_loadPages (hsegs : ∀ seg ∈ phdrs, seg.type = ptLoad → SegmentOk src.size bias seg) :
    ∀ {vas : List Nat} {st : ElfProcess} {src : ElfSource}, vas.Nodup → src.WindowOk →
      (∀ seg ∈ phdrs, seg.type = ptLoad → SegmentOk src.size bias seg) →
      Returns (fun res : ElfProcess × ElfSource => src.Keeps res.2 ∧ res.1.vmas = st.vmas ∧
          PagesLoaded phdrs bias src.image vas st.pages res.1.pages)
        (loadPages env phdrs bias vas st src)
  | [], st, src, _, hw, _ => returns_pure ⟨.refl hw, rfl, ⟨fun _ _ => rfl, fun _ h => by cases h⟩⟩
  | va :: rest, st, src, hnd, hw, hsegs' => by
    obtain ⟨hva, hnd⟩ := List.nodup_cons.mp hnd
    unfold loadPages
    refine returns_bind (returns_loadPage hw hsegs') fun res ⟨hk, hvmas, hnone, hsome⟩ => ?_
    refine (returns_loadPages hsegs hnd hk.window (fun s hs hst => hk.size ▸ hsegs' s hs hst)).mono
      fun res' ⟨hk', hvmas', hloaded⟩ => ⟨hk.trans hk', hvmas'.trans hvmas, ⟨fun va' hva' => ?_, ?_⟩⟩
    · -- a page the loop does not map keeps what it had
      rw [hloaded.other va' (hva'.imp_left fun h h' => h (List.mem_cons_of_mem _ h'))]
      rcases hattr : elfPageAttributes phdrs bias va with _ | ⟨pf, vf⟩
      · rw [hnone hattr]
      · obtain ⟨-, data, hpages, -⟩ := hsome pf vf hattr
        rw [hpages, Function.update_of_ne]
        rintro rfl
        rcases hva' with hva' | hva'
        · exact hva' List.mem_cons_self
        · rw [hattr] at hva'
          cases hva'
    · intro va' hmem pf vf hattr
      rcases List.mem_cons.mp hmem with rfl | hmem
      · -- the page of this step, which no later step maps again
        obtain ⟨hfree, data, hpages, hdata⟩ := hsome pf vf hattr
        refine ⟨hfree, data, ?_, fun j hj => by rw [hdata j hj]⟩
        rw [hloaded.other va' (.inl hva), hpages, Function.update_self]
      · obtain ⟨hfree, data, hpages, hdata⟩ := hloaded.loaded va' hmem pf vf hattr
        have hne : va' ≠ va := fun h => hva (h ▸ hmem)
        have hst : res.1.pages va' = st.pages va' := by
          rcases hattr' : elfPageAttributes phdrs bias va with _ | ⟨pf', vf'⟩
          · rw [hnone hattr']
          · obtain ⟨-, d, hp, -⟩ := hsome pf' vf' hattr'
            rw [hp, Function.update_of_ne hne]
        exact ⟨hst ▸ hfree, data, hpages, fun j hj => by rw [hdata j hj, hk.image]⟩

/-! ## The reads of the page loop -/

/-- Every range the copy loop reads lies inside the image. -/
theorem logsIn_copySegments :
    ∀ {segs : List Phdr} {src : ElfSource} {page : Nat → UInt8}, src.WindowOk →
      LogsIn (fun x : Nat × Nat => x.1 + x.2 ≤ src.size) (copySegments env bias va segs src page)
  | [], _, _, _ => logsIn_pure _
  | seg :: rest, src, page, hw => by
    unfold copySegments
    split
    · exact logsIn_copySegments hw
    split
    · dsimp only
      split
      · exact logsIn_copySegments hw
      split
      · exact logsIn_throw _
      split
      · exact logsIn_throw _
      -- the read keeps the image, so the rest reads inside it too
      exact logsIn_bind_of_returns (logsIn_elfSourceRead _ _ _ _ _) ((returns_elfSourceRead hw _ _ _ _).mono
        fun res h => h.1) fun res hk => hk.size ▸ logsIn_copySegments hk.window
    · exact logsIn_copySegments hw

theorem logsIn_loadPage (hw : src.WindowOk) :
    LogsIn (fun x : Nat × Nat => x.1 + x.2 ≤ src.size) (loadPage env phdrs bias st src va) := by
  unfold loadPage
  split
  · exact logsIn_pure _
  split
  · exact logsIn_throw _
  split
  · exact logsIn_throw _
  · exact logsIn_bind (logsIn_copySegments hw) fun _ => logsIn_pure _

/-- Every range the page loop reads lies inside the image. -/
theorem logsIn_loadPages (hsegs : ∀ seg ∈ phdrs, seg.type = ptLoad → SegmentOk src.size bias seg) :
    ∀ {vas : List Nat} {st : ElfProcess} {src : ElfSource}, vas.Nodup → src.WindowOk →
      (∀ seg ∈ phdrs, seg.type = ptLoad → SegmentOk src.size bias seg) →
      LogsIn (fun x : Nat × Nat => x.1 + x.2 ≤ src.size) (loadPages env phdrs bias vas st src)
  | [], _, _, _, _, _ => logsIn_pure _
  | va :: rest, st, src, hnd, hw, hsegs' => by
    unfold loadPages
    refine logsIn_bind_of_returns (logsIn_loadPage hw) ((returns_loadPage hw hsegs').mono fun res h => h.1)
      fun res hk => hk.size ▸ logsIn_loadPages hsegs (List.nodup_cons.mp hnd).2 hk.window
        fun s hs hst => hk.size ▸ hsegs' s hs hst

end Uinxed.Process
