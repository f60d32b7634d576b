/-
  Process/ElfLoad.lean --- what a successful load_elf_segments_source leaves.

  The pages the process receives are exactly the page-aligned ones that some
  PT_LOAD segment's memory range meets (LoadsPage), all inside the user range
  and free before; each holds the image's bytes as the copy loop leaves them
  (imageByte: the last segment in program-header order whose file range holds
  the byte), with PTE flags that are writable iff some segment on the page
  has PF_W and executable iff some has PF_X.  Every range the loader reads
  lies inside the image.  The areas it adds are exactly those of the maximal
  runs of loaded pages with equal vm flags (ElfLoaded).

  The area loop keeps an open run with a start of 0 for none; no loaded page
  is at 0, since every one is at or above PROCESS_HEAP_START.  Over page
  numbers, the loop is Runs.scan followed by one insert_elf_vma per run
  (buildVmas_scan), so its areas are the maximal runs (Runs.mem_scan_iff).
-/
import Uinxed.Process.ElfPages
import Uinxed.Lib.Runs

set_option autoImplicit false

namespace Uinxed.Process

open TraceExcept Runs

/-! ## The page addresses of the loops -/

theorem range'_mul (d : Nat) : ∀ k n, List.range' (k * d) n d = (List.range' k n).map (· * d)
  | _, 0 => rfl
  | k, n + 1 => by
    rw [List.range'_succ, List.range'_succ, List.map_cons, ← range'_mul d (k + 1) n, Nat.succ_mul]

/-- The number of pages from lo up to hi. -/
def pageCount (lo hi : Nat) : Nat := (hi - lo + page4kSize - 1) / page4kSize

/-- From a page-aligned lo, the loop visits the pages numbered lo / 4096 on. -/
theorem pageSteps_eq {lo hi : Nat} (hlo : lo % page4kSize = 0) :
    pageSteps lo hi = (List.range' (lo / page4kSize) (pageCount lo hi)).map (· * page4kSize) := by
  rw [← range'_mul, Nat.div_mul_cancel (Nat.dvd_of_mod_eq_zero hlo)]
  rfl

/-- From a page-aligned lo, the loop visits the page-aligned addresses in
[lo, hi). -/
theorem mem_pageSteps {lo hi va : Nat} (hlo : lo % page4kSize = 0) :
    va ∈ pageSteps lo hi ↔ lo ≤ va ∧ va < hi ∧ va % page4kSize = 0 := by
  rw [pageSteps_eq hlo, List.mem_map]
  simp only [List.mem_range'_1, pageCount, page4kSize] at *
  constructor
  · rintro ⟨n, hn, rfl⟩
    omega
  · intro h
    exact ⟨va / 0x1000, by omega, by omega⟩

theorem nodup_pageSteps (lo hi : Nat) : (pageSteps lo hi).Nodup :=
  List.nodup_range' _ (by decide)

/-! ## The pages -/

/-- The loader maps the page at va: it is page-aligned and some PT_LOAD
segment's memory meets it. -/
def LoadsPage (phdrs : List Phdr) (bias va : Nat) : Prop :=
  va % page4kSize = 0 ∧ ∃ seg ∈ phdrs, SegmentMeetsPage bias va seg

section Checked

variable {phdrs : List Phdr} {bias size : Nat}
  (hsegs : ∀ seg ∈ phdrs, seg.type = ptLoad → SegmentOk size bias seg)
include hsegs

theorem segment_range_of_checked {seg : Phdr} (hseg : seg ∈ phdrs) :
    seg.type = ptLoad → seg.memsz = 0 ∨ ∃ r, elfSegmentRange seg bias = .ok (some r) := fun ht =>
  (hsegs seg hseg ht).range.imp_right fun ⟨r, hr, _⟩ => ⟨r, hr⟩

/-- On an aligned page, some segment on it has the permission bit iff some
segment whose memory meets it has it. -/
theorem pagePermits_iff {va : Nat} (hva : va % page4kSize = 0) (bit : Nat) :
    pagePermits phdrs bias va bit = true ↔ ∃ seg ∈ phdrs, SegmentMeetsPage bias va seg ∧ seg.flags &&& bit ≠ 0 := by
  simp only [pagePermits, List.any_eq_true, Bool.and_eq_true, bne_iff_ne, ne_eq]
  constructor
  · rintro ⟨seg, hseg, hc, hbit⟩
    exact ⟨seg, hseg, (pageCovers_iff hva (segment_range_of_checked hsegs hseg)).mp hc, hbit⟩
  · rintro ⟨seg, hseg, hm, hbit⟩
    exact ⟨seg, hseg, (pageCovers_iff hva (segment_range_of_checked hsegs hseg)).mpr hm, hbit⟩

/-- On an aligned page, elf_page_attributes answers exactly when some
segment's memory meets the page. -/
theorem elfPageAttributes_isSome_iff {va : Nat} (hva : va % page4kSize = 0) :
    (elfPageAttributes phdrs bias va).isSome ↔ ∃ seg ∈ phdrs, SegmentMeetsPage bias va seg := by
  unfold elfPageAttributes
  split
  · next h =>
    simp only [Bool.not_eq_true', List.any_eq_false] at h
    simp only [Option.isSome_none, Bool.false_eq_true, false_iff, not_exists, not_and]
    intro seg hseg hm
    exact h seg hseg ((pageCovers_iff hva (segment_range_of_checked hsegs hseg)).mpr hm)
  · next h =>
    obtain ⟨seg, hseg, hc⟩ := List.any_eq_true.mp (by simpa using h)
    simp only [Option.isSome_some, true_iff]
    exact ⟨seg, hseg, (pageCovers_iff hva (segment_range_of_checked hsegs hseg)).mp hc⟩

end Checked

/-- The PTE flags of a loaded page: user and present, writable iff a segment
on it has PF_W, and no-execute iff none has PF_X. -/
theorem elfPageAttributes_pte {phdrs : List Phdr} {bias va pf vf : Nat}
    (h : elfPageAttributes phdrs bias va = some (pf, vf)) :
    pf &&& (pteUser ||| ptePresent) = pteUser ||| ptePresent ∧
      (pf &&& pteWriteable ≠ 0 ↔ pagePermits phdrs bias va pfW = true) ∧
      (pf &&& pteNoExecute = 0 ↔ pagePermits phdrs bias va pfX = true) := by
  unfold elfPageAttributes at h
  split at h
  · cases h
  · cases h
    generalize pagePermits phdrs bias va pfW = w
    generalize pagePermits phdrs bias va pfX = x
    cases w <;> cases x <;> decide

/-! ## The areas -/

/-- The vm flags of the page numbered n, when the loader maps it. -/
def pageVmFlags (phdrs : List Phdr) (bias n : Nat) : Option Nat :=
  (elfPageAttributes phdrs bias (n * page4kSize)).map Prod.snd

/-- The area of a run of pages. -/
def runArea (r : Run Nat) : VmArea := vmAreaAlloc (r.start * page4kSize) (r.stop * page4kSize) r.label

/-- insert_elf_vma for each run, in order. -/
def insertRuns (env : LoadEnv) : List VmArea → List (Run Nat) → Except Int (List VmArea)
  | vmas, [] => .ok vmas
  | vmas, r :: rs => insertElfVma env vmas (r.start * page4kSize) (r.stop * page4kSize) r.label >>= fun vmas =>
      insertRuns env vmas rs

/-- The run of the area loop that stands for an open run of page numbers:
a start of 0 for none. -/
def RunEnc (rs : RunState) : Option (Run Nat) → Prop
  | none => rs.runStart = 0
  | some r => 0 < r.start ∧ rs = ⟨r.start * page4kSize, r.stop * page4kSize, r.label⟩

variable {env : LoadEnv} {phdrs : List Phdr} {bias : Nat}

theorem insertRuns_append (vmas : List VmArea) (l₁ l₂ : List (Run Nat)) :
    insertRuns env vmas (l₁ ++ l₂) = insertRuns env vmas l₁ >>= fun vmas => insertRuns env vmas l₂ := by
  induction l₁ generalizing vmas with
  | nil => rfl
  | cons r rs ih =>
    simp only [List.cons_append, insertRuns, bind_assoc]
    congr 1
    funext vmas'
    exact ih vmas'

theorem buildVmas_cons_none {va : Nat} {rest : List Nat} {rs : RunState} {vmas : List VmArea}
    (h : elfPageAttributes phdrs bias va = none) :
    buildVmas env phdrs bias (va :: rest) rs vmas =
      (if rs.runStart ≠ 0 then insertElfVma env vmas rs.runStart rs.runEnd rs.runFlags else pure vmas) >>=
        fun vmas => buildVmas env phdrs bias rest { rs with runStart := 0 } vmas := by
  rw [buildVmas, h]

theorem buildVmas_cons_some {va pf vf : Nat} {rest : List Nat} {rs : RunState} {vmas : List VmArea}
    (h : elfPageAttributes phdrs bias va = some (pf, vf)) :
    buildVmas env phdrs bias (va :: rest) rs vmas =
      if rs.runStart = 0 then buildVmas env phdrs bias rest ⟨va, va + page4kSize, vf⟩ vmas
      else if rs.runEnd ≠ va ∨ rs.runFlags ≠ vf then
        insertElfVma env vmas rs.runStart rs.runEnd rs.runFlags >>= fun vmas =>
          buildVmas env phdrs bias rest ⟨va, va + page4kSize, vf⟩ vmas
      else buildVmas env phdrs bias rest { rs with runEnd := rs.runEnd + page4kSize } vmas := by
  rw [buildVmas, h]

/-- The run opened at page k. -/
theorem runEnc_open {k vf : Nat} (hk : 0 < k) :
    RunEnc ⟨k * page4kSize, k * page4kSize + page4kSize, vf⟩ (some ⟨k, k + 1, vf⟩) :=
  ⟨hk, by rw [Nat.succ_mul]⟩

/-- Over the pages numbered k, k + 1, ..., the area loop and the recording of
the run left open insert the runs of Runs.scan, in order. -/
theorem buildVmas_scan {k : Nat} (hk : 0 < k) :
    ∀ m {cur : Option (Run Nat)} {rs : RunState} (vmas : List VmArea), RunEnc rs cur →
      (buildVmas env phdrs bias ((List.range' k m).map (· * page4kSize)) rs vmas >>= closeRun env) =
        insertRuns env vmas (scan (pageVmFlags phdrs bias) cur (List.range' k m)) := by
  intro m
  induction m generalizing k with
  | zero =>
    intro cur rs vmas hrs
    show closeRun env (rs, vmas) = insertRuns env vmas cur.toList
    unfold closeRun
    cases cur with
    | none =>
      have h0 : rs.runStart = 0 := hrs
      rw [if_neg (not_not.mpr h0)]
      rfl
    | some r =>
      obtain ⟨hr, rfl⟩ := hrs
      rw [if_pos (by unfold page4kSize; simp only; omega)]
      simp only [Option.toList_some, insertRuns]
      cases insertElfVma env vmas _ _ _ <;> rfl
  | succ m ih =>
    intro cur rs vmas hrs
    rw [List.range'_succ, List.map_cons]
    have ih' := @ih (k + 1) (Nat.succ_pos k)
    rcases hattr : elfPageAttributes phdrs bias (k * page4kSize) with _ | ⟨pf, vf⟩
    · -- no segment on page k: the open run is recorded, and none is open after it
      have hf : pageVmFlags phdrs bias k = none := by simp [pageVmFlags, hattr]
      rw [buildVmas_cons_none hattr, scan_cons_none hf, insertRuns_append, bind_assoc]
      cases cur with
      | none =>
        have h0 : rs.runStart = 0 := hrs
        rw [if_neg (not_not.mpr h0)]
        exact ih' vmas rfl
      | some r =>
        obtain ⟨hr, rfl⟩ := hrs
        rw [if_pos (by unfold page4kSize; simp only; omega)]
        simp only [Option.toList_some, insertRuns, bind_assoc]
        congr 1
        funext vmas'
        exact ih' vmas' (show RunEnc _ none from rfl)
    · have hf : pageVmFlags phdrs bias k = some vf := by simp [pageVmFlags, hattr]
      rw [buildVmas_cons_some hattr]
      cases cur with
      | none =>
        -- a run opens at page k
        have h0 : rs.runStart = 0 := hrs
        rw [if_pos h0, scan_cons_open hf]
        exact ih' vmas (runEnc_open hk)
      | some r =>
        obtain ⟨hr, rfl⟩ := hrs
        have hstart : r.start * page4kSize ≠ 0 := by unfold page4kSize; omega
        rw [if_neg hstart, scan_cons_some hf]
        simp only [ne_eq]
        have hend : r.stop * page4kSize = k * page4kSize ↔ r.stop = k :=
          Nat.mul_left_inj (by unfold page4kSize; omega)
        by_cases hc : r.stop = k ∧ r.label = vf
        · -- page k follows the run with its flags: the run grows
          rw [if_neg (by rw [hend]; omega), if_pos hc]
          refine ih' vmas ⟨hr, ?_⟩
          simp only [hc.1, Nat.succ_mul]
        · -- the run ends before page k, which opens a new one
          rw [if_pos (by rw [hend]; exact not_and_or.mp hc), if_neg hc]
          simp only [insertRuns, bind_assoc]
          congr 1
          funext vmas'
          exact ih' vmas' (runEnc_open hk)

/-- insert_elf_vma of a non-empty range adds its area to the list. -/
theorem insertElfVma_perm {vmas vmas' : List VmArea} {start stop flags : Nat} (hlt : start < stop)
    (h : insertElfVma env vmas start stop flags = .ok vmas') : vmas'.Perm (vmAreaAlloc start stop flags :: vmas) := by
  unfold insertElfVma at h
  rw [if_neg (by omega)] at h
  split at h
  · cases h
  split at h
  · next hins =>
    cases h
    exact vmAreaInsert_perm hins
  · cases h

/-- Inserting non-empty runs adds their areas to the list. -/
theorem insertRuns_perm : ∀ {runs : List (Run Nat)} {vmas vmas' : List VmArea}, (∀ r ∈ runs, r.start < r.stop) →
    insertRuns env vmas runs = .ok vmas' → vmas'.Perm (runs.map runArea ++ vmas)
  | [], _, _, _, h => by
    cases h
    rfl
  | r :: rs, vmas, vmas', hlt, h => by
    obtain ⟨vmas₁, h₁, h₂⟩ := except_bind_ok h
    have hp₁ := insertElfVma_perm (Nat.mul_lt_mul_of_pos_right (hlt r List.mem_cons_self) (by decide)) h₁
    have hp₂ := insertRuns_perm (fun r' hr' => hlt r' (List.mem_cons_of_mem _ hr')) h₂
    -- the area of r went in first, the others after it
    exact hp₂.trans ((List.Perm.append_left _ hp₁).trans List.perm_middle)

/-! ## A successful load -/

/-- What a successful load leaves of the process. -/
structure ElfLoaded (phdrs : List Phdr) (src : ElfSource) (bias : Nat) (st st' : ElfProcess) : Prop where
  /-- A page no PT_LOAD segment meets is as it was. -/
  other : ∀ va, ¬LoadsPage phdrs bias va → st'.pages va = st.pages va
  /-- A page some segment meets is in the user range, and was free. -/
  bounds : ∀ va, LoadsPage phdrs bias va →
    processHeapStart ≤ va ∧ va + page4kSize ≤ processUserStackTop ∧ st.pages va = none
  /-- It is mapped user and present, with the bytes the copies leave, writable
  iff a segment on it has PF_W and executable iff one has PF_X. -/
  page : ∀ va, LoadsPage phdrs bias va → ∃ pg, st'.pages va = some pg ∧
    (∀ j < page4kSize, pg.data j = imageByte src.image phdrs bias (va + j)) ∧
    pg.pteFlags &&& (pteUser ||| ptePresent) = pteUser ||| ptePresent ∧
    (pg.pteFlags &&& pteWriteable ≠ 0 ↔ ∃ seg ∈ phdrs, SegmentMeetsPage bias va seg ∧ seg.flags &&& pfW ≠ 0) ∧
    (pg.pteFlags &&& pteNoExecute = 0 ↔ ∃ seg ∈ phdrs, SegmentMeetsPage bias va seg ∧ seg.flags &&& pfX ≠ 0)
  /-- The areas added are those of the maximal runs of loaded pages with
  equal vm flags. -/
  areas : ∃ added : List VmArea, st'.vmas.Perm (added ++ st.vmas) ∧
    ∀ v, v ∈ added ↔ ∃ r, MaxRun (pageVmFlags phdrs bias) r ∧ v = runArea r

section Accepted

/-! ## An accepted table

The facts below hold of a table the first loop accepted with lowest start lo
and highest end hi. -/

variable {size lo hi : Nat}
  (hsegs : ∀ seg ∈ phdrs, seg.type = ptLoad → SegmentOk size bias seg)
  (hlo : lo % page4kSize = 0)
  (hbound : ∀ seg ∈ phdrs, seg.type = ptLoad → ∀ r, elfSegmentRange seg bias = .ok (some r) →
    lo ≤ r.start ∧ r.stop ≤ hi)

include hbound in
/-- A page some segment covers lies in [lo, hi). -/
theorem covered_in_range {va : Nat} {seg : Phdr} (hseg : seg ∈ phdrs) (hva : va % page4kSize = 0)
    (hc : pageCovers bias va seg = true) : lo ≤ va ∧ va < hi := by
  obtain ⟨ht, r, hr⟩ := pageCovers_range hc
  have := le_of_pageCovers hva hr hc
  have := hbound seg hseg ht r hr
  omega

include hsegs in
/-- A page a segment's memory meets lies in the segment's page range, inside
the user range. -/
theorem meets_bounds {va : Nat} {seg : Phdr} (hseg : seg ∈ phdrs) (hva : va % page4kSize = 0)
    (hm : SegmentMeetsPage bias va seg) :
    ∃ r, elfSegmentRange seg bias = .ok (some r) ∧ pageCovers bias va seg = true ∧
      processHeapStart ≤ va ∧ va + page4kSize ≤ processUserStackTop := by
  obtain ⟨r, hr, hheap, htop⟩ := (hsegs seg hseg hm.1).exists_range (by have := hm.2.1; omega)
  have hc := (pageCovers_iff hva (segment_range_of_checked hsegs hseg)).mpr hm
  obtain ⟨hstart, hstop⟩ := le_of_pageCovers hva hr hc
  -- the end of the page range is aligned, so a page below it ends by it
  have hal : r.stop % page4kSize = 0 := by
    rw [(elfSegmentRange_some hr).2.2.2]; unfold alignUp alignDown page4kSize; omega
  refine ⟨r, hr, hc, by omega, ?_⟩
  unfold page4kSize at *
  omega

include hsegs hlo hbound in
/-- The pages the loader maps are the aligned ones some segment's memory
meets: those of the loop that elf_page_attributes answers for. -/
theorem loadsPage_iff (va : Nat) :
    LoadsPage phdrs bias va ↔ va ∈ pageSteps lo hi ∧ (elfPageAttributes phdrs bias va).isSome := by
  rw [mem_pageSteps hlo]
  constructor
  · rintro ⟨hva, seg, hseg, hm⟩
    obtain ⟨r, -, hc, -⟩ := meets_bounds hsegs hseg hva hm
    have := covered_in_range hbound hseg hva hc
    exact ⟨⟨this.1, this.2, hva⟩, (elfPageAttributes_isSome_iff hsegs hva).mpr ⟨seg, hseg, hm⟩⟩
  · rintro ⟨⟨-, -, hva⟩, hsome⟩
    exact ⟨hva, (elfPageAttributes_isSome_iff hsegs hva).mp hsome⟩

include hlo hbound in
/-- No page outside the loop's range has vm flags. -/
theorem pageVmFlags_out (i : Nat)
    (hi : i < lo / page4kSize ∨ lo / page4kSize + pageCount lo hi ≤ i) : pageVmFlags phdrs bias i = none := by
  rcases hattr : elfPageAttributes phdrs bias (i * page4kSize) with _ | ⟨pf, vf⟩
  · simp [pageVmFlags, hattr]
  · have hany : phdrs.any (pageCovers bias (i * page4kSize)) = true := by
      unfold elfPageAttributes at hattr
      split at hattr
      · cases hattr
      · next h => simpa using h
    obtain ⟨seg, hseg, hc⟩ := List.any_eq_true.mp hany
    have := covered_in_range hbound hseg (Nat.mul_mod_left _ _) hc
    unfold pageCount page4kSize at *
    omega

include hlo hbound in
/-- The areas of an accepted load are those of the maximal runs of loaded
pages with equal flags. -/
theorem areas_of_buildVmas (hheap : processHeapStart ≤ lo) {vmas vmas' : List VmArea}
    (h : (buildVmas env phdrs bias (pageSteps lo hi) ⟨0, 0, 0⟩ vmas >>= closeRun env) = .ok vmas') :
    ∃ added : List VmArea, vmas'.Perm (added ++ vmas) ∧
      ∀ v, v ∈ added ↔ ∃ r, MaxRun (pageVmFlags phdrs bias) r ∧ v = runArea r := by
  have hpos : 0 < lo / page4kSize := by unfold processHeapStart page4kSize at *; omega
  rw [pageSteps_eq hlo, buildVmas_scan hpos _ vmas (show RunEnc ⟨0, 0, 0⟩ none from rfl)] at h
  have hiff := mem_scan_iff (pageVmFlags_out hlo hbound)
  refine ⟨_, insertRuns_perm (fun r hr => ((hiff r).mp hr).lt) h, fun v => ?_⟩
  rw [List.mem_map]
  constructor
  · rintro ⟨r, hr, rfl⟩
    exact ⟨r, (hiff r).mp hr, rfl⟩
  · rintro ⟨r, hr, rfl⟩
    exact ⟨r, (hiff r).mpr hr, rfl⟩

include hsegs hlo hbound in
/-- The pages and areas the loops leave are those ElfLoaded describes. -/
theorem elfLoaded_of {src : ElfSource} {st st' : ElfProcess}
    (hloaded : PagesLoaded phdrs bias src.image (pageSteps lo hi) st.pages st'.pages)
    (hareas : ∃ added : List VmArea, st'.vmas.Perm (added ++ st.vmas) ∧
      ∀ v, v ∈ added ↔ ∃ r, MaxRun (pageVmFlags phdrs bias) r ∧ v = runArea r) :
    ElfLoaded phdrs src bias st st' := by
  refine ⟨fun va hva => ?_, fun va hva => ?_, fun va hva => ?_, hareas⟩
  · -- a page the loader does not map
    rw [loadsPage_iff hsegs hlo hbound, not_and_or, Option.not_isSome_iff_eq_none] at hva
    exact hloaded.other va hva
  · obtain ⟨hal, seg, hseg, hm⟩ := hva
    obtain ⟨-, -, -, hheap, htop⟩ := meets_bounds hsegs hseg hal hm
    obtain ⟨hmem, hsome⟩ := (loadsPage_iff hsegs hlo hbound va).mp ⟨hal, seg, hseg, hm⟩
    obtain ⟨⟨pf, vf⟩, hattr⟩ := Option.isSome_iff_exists.mp hsome
    exact ⟨hheap, htop, (hloaded.loaded va hmem pf vf hattr).1⟩
  · have hal := hva.1
    obtain ⟨hmem, hsome⟩ := (loadsPage_iff hsegs hlo hbound va).mp hva
    obtain ⟨⟨pf, vf⟩, hattr⟩ := Option.isSome_iff_exists.mp hsome
    obtain ⟨-, data, hpage, hdata⟩ := hloaded.loaded va hmem pf vf hattr
    obtain ⟨huser, hw, hx⟩ := elfPageAttributes_pte hattr
    exact ⟨⟨pf, data⟩, hpage, hdata, huser, hw.trans (pagePermits_iff hsegs hal pfW),
      hx.trans (pagePermits_iff hsegs hal pfX)⟩

end Accepted

variable {st : ElfProcess} {src : ElfSource} {setBrk : Bool}

/-- Whatever the outcome, every range the loader reads lies inside the
image. -/
theorem logsIn_loadElfSegmentsSource (hw : src.WindowOk) :
    LogsIn (fun x : Nat × Nat => x.1 + x.2 ≤ src.size) (loadElfSegmentsSource env st phdrs src bias setBrk) := by
  unfold loadElfSegmentsSource
  refine logsIn_bind_of_returns (logsIn_lift _) (returns_lift fun p hp => validateSegments_ok hp) ?_
  rintro ⟨lo, hi⟩ ⟨_, _, _, hchk⟩
  dsimp only
  split
  · exact logsIn_throw _
  have hsegs := fun seg hseg ht => (hchk seg hseg ht).1
  exact logsIn_bind (logsIn_loadPages hsegs (nodup_pageSteps lo hi) hw hsegs) fun _ =>
    logsIn_bind (logsIn_lift _) fun _ => logsIn_pure _

/-- A load that succeeds leaves what ElfLoaded describes. -/
theorem returns_loadElfSegmentsSource (hw : src.WindowOk) :
    Returns (ElfLoaded phdrs src bias st) (loadElfSegmentsSource env st phdrs src bias setBrk) := by
  unfold loadElfSegmentsSource
  refine returns_bind (returns_lift fun p hp => validateSegments_ok hp) ?_
  rintro ⟨lo, hi⟩ ⟨_, _, hal, hchk⟩
  dsimp only
  split
  · exact returns_throw _
  next hmax =>
  have hsegs := fun seg hseg ht => (hchk seg hseg ht).1
  have hbound := fun seg hseg ht => (hchk seg hseg ht).2
  have hlo := (hal.resolve_left hmax).1
  have hheap := (hal.resolve_left hmax).2
  refine returns_bind (returns_loadPages hsegs (nodup_pageSteps lo hi) hw hsegs) ?_
  rintro ⟨st₂, src₂⟩ ⟨-, hvmas, hloaded⟩
  refine returns_bind (returns_lift fun vmas h => areas_of_buildVmas hlo hbound hheap h) fun vmas hareas => ?_
  rw [hvmas] at hareas
  -- the brk update changes neither the pages nor the areas
  refine returns_pure (elfLoaded_of hsegs hlo hbound ?_ ?_) <;> split
  all_goals first | exact hloaded | exact hareas

/-- A load that succeeds maps exactly the pages its PT_LOAD segments' memory
meets, inside the user range, with the bytes the copies leave and the
permissions of their segments, and records the maximal runs of them as
areas; every range it reads lies inside the image. -/
theorem load_elf_segments_source_sound (env : LoadEnv) (st : ElfProcess) (phdrs : List Phdr) (src : ElfSource)
    (bias : Nat) (setBrk : Bool) (hw : src.WindowOk) :
    LogsIn (fun x : Nat × Nat => x.1 + x.2 ≤ src.size) (loadElfSegmentsSource env st phdrs src bias setBrk) ∧
      Returns (ElfLoaded phdrs src bias st) (loadElfSegmentsSource env st phdrs src bias setBrk) :=
  ⟨logsIn_loadElfSegmentsSource hw, returns_loadElfSegmentsSource hw⟩

/-- The theorem at an image in memory, with an empty window. -/
theorem load_elf_segments_source_sound_in_memory :
    ElfSource.WindowOk ⟨true, false, 2, fun i => if i = 0 then 1 else 2, false, 0, fun _ => 0, 0, 0⟩ ∧
      LogsIn (fun x : Nat × Nat => x.1 + x.2 ≤ 2)
        (loadElfSegmentsSource ⟨fun _ n => n, fun _ => false, fun _ => false, fun _ => false⟩
          ⟨fun _ => none, [], 0, 0⟩ [⟨1, 4, 0, 0x400000, 1, 1, 0⟩, ⟨1, 4, 1, 0x400000, 1, 1, 0⟩]
          ⟨true, false, 2, fun i => if i = 0 then 1 else 2, false, 0, fun _ => 0, 0, 0⟩ 0 false) ∧
      Returns (ElfLoaded [⟨1, 4, 0, 0x400000, 1, 1, 0⟩, ⟨1, 4, 1, 0x400000, 1, 1, 0⟩]
          ⟨true, false, 2, fun i => if i = 0 then 1 else 2, false, 0, fun _ => 0, 0, 0⟩ 0 ⟨fun _ => none, [], 0, 0⟩)
        (loadElfSegmentsSource ⟨fun _ n => n, fun _ => false, fun _ => false, fun _ => false⟩
          ⟨fun _ => none, [], 0, 0⟩ [⟨1, 4, 0, 0x400000, 1, 1, 0⟩, ⟨1, 4, 1, 0x400000, 1, 1, 0⟩]
          ⟨true, false, 2, fun i => if i = 0 then 1 else 2, false, 0, fun _ => 0, 0, 0⟩ 0 false) :=
  have hw : ElfSource.WindowOk ⟨true, false, 2, fun i => if i = 0 then 1 else 2, false, 0, fun _ => 0, 0, 0⟩ :=
    fun _ hi => absurd hi (Nat.not_lt_zero _)
  ⟨hw, load_elf_segments_source_sound _ _ _ _ 0 false hw⟩

set_option maxRecDepth 8192 in
/-- Two PT_LOAD segments at 0x400000 with one file byte each, at offsets 0
and 1 of an image holding 1 and 2: the load succeeds, and the page holds the
byte of the second segment, not the file byte 1 of the first. -/
theorem load_elf_segments_source_overlap :
    ∃ st', (loadElfSegmentsSource ⟨fun _ n => n, fun _ => false, fun _ => false, fun _ => false⟩
        ⟨fun _ => none, [], 0, 0⟩ [⟨1, 4, 0, 0x400000, 1, 1, 0⟩, ⟨1, 4, 1, 0x400000, 1, 1, 0⟩]
        ⟨true, false, 2, fun i => if i = 0 then 1 else 2, false, 0, fun _ => 0, 0, 0⟩ 0 false).exec [] =
      (.ok st', [(0, 1), (1, 1)]) ∧ (st'.pages 0x400000).map (fun pg => pg.data 0) = some 2 :=
  ⟨_, rfl, rfl⟩

end Uinxed.Process
