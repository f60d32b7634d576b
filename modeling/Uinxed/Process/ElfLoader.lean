/-
  Process/ElfLoader.lean --- loading the PT_LOAD segments of an ELF image
  (load_elf_segments_source and its helpers, src/kernel/process/elf_loader.c).

  load_elf_segments_source checks every PT_LOAD segment and finds the page
  range of the image, maps each page of it that a segment's memory range
  meets, with the permissions of every segment on it, and copies into the
  page the file bytes of each segment on it, in program-header order.  A
  second pass over the same pages records the mapped pages as memory areas,
  one per run of consecutive pages with equal vm flags.

  WHAT IS MODELLED
  - elf_source_t: the image (its size and bytes), read from memory or through
    a vfs node, with an optional window buffer.  vfs_read is an oracle for
    the amount each call returns; a call that returns n bytes writes the next
    n bytes of the image.  Every range elf_source_read takes from the image is
    logged (TraceM), so a statement about the reads is one about the log.
  - The program headers are the list phdr[0], ..., phdr[e_phnum - 1].
  - The user page directory is a map from a page address to the page mapped
    there: its PTE flags and its bytes.  page_map_new_to fails when a page is
    mapped there or when the tables down to it cannot be built (a table frame
    or a huge page on the way, an oracle of the env); alloc_frames(1) fails
    when the env says so.  The frame is written through its kernel alias after
    it is mapped; the model stores the bytes with the mapping once the copies
    are done, which is the same page whenever the load succeeds.
  - mmap_list is a list of VmArea (Vma.lean); insert_elf_vma fails when the env
    says calloc fails or when vm_area_insert refuses the area.

  Numbers are Nat.  Every uint64_t sum of the loader is guarded by a test of
  the source before it is made: elf_segment_range checks each sum against
  UINT64_MAX, and the copy loop runs only on segments the first loop
  accepted.  So no sum wraps on a segment the loader reaches.  ALIGN_DOWN and
  ALIGN_UP with PAGE_4K_SIZE clear the low twelve bits, written with %.
-/
import Uinxed.Process.Vma
import Uinxed.Lib.TraceExcept

set_option autoImplicit false

namespace Uinxed.Process

open TraceExcept

/-! ## Constants -/

/-- PT_LOAD. -/
def ptLoad : Nat := 1

/-- The segment permission bits PF_X, PF_W, PF_R. -/
def pfX : Nat := 0x1
def pfW : Nat := 0x2
def pfR : Nat := 0x4

/-- The PTE bits the loader sets. -/
def ptePresent : Nat := 0x1
def pteWriteable : Nat := 0x2
def pteUser : Nat := 0x4
def pteNoExecute : Nat := 2 ^ 63

/-- (size_t)-1, the error return of vfs_read. -/
def sizeMax : Nat := 2 ^ 64 - 1

/-! ## The image -/

/-- Elf64_Phdr: the fields the loader reads. -/
structure Phdr where
  type : Nat
  flags : Nat
  offset : Nat
  vaddr : Nat
  filesz : Nat
  memsz : Nat
  align : Nat
  deriving DecidableEq, Repr

/-- elf_source_t: the image, in memory or behind a vfs node, and the window
buffer of a node read. -/
structure ElfSource where
  /-- source->data is set: the image is a buffer in memory. -/
  inMemory : Bool
  /-- source->node is set. -/
  hasNode : Bool
  size : Nat
  /-- The bytes of the image, at data or in the file of the node. -/
  image : Nat → UInt8
  /-- source->window is set. -/
  hasWindow : Bool
  windowCapacity : Nat
  window : Nat → UInt8
  windowOffset : Nat
  windowSize : Nat

/-- memcpy(buf + dst, src, n), with the buffer seen as a map from offsets to
bytes. -/
def copyIn (buf : Nat → UInt8) (dst : Nat) (src : Nat → UInt8) (n : Nat) : Nat → UInt8 :=
  fun j => if dst ≤ j ∧ j < dst + n then src (j - dst) else buf j

/-- The vfs_read loop of elf_source_read: fill size bytes of buf at dst from
the image at offset, one call at a time; a call asks for what is left and is
logged with the range it asks for, and must return a non-zero amount, not
(size_t)-1 and no more than it asked for.  Both loops of elf_source_read (into
the window and into the caller's buffer) are this one; each call makes
progress, so the fuel size is enough. -/
def vfsReadLoop (vfsRead : Nat → Nat → Nat) (image : Nat → UInt8) (offset size dst : Nat) :
    Nat → Nat → (Nat → UInt8) → TraceM Int (Nat × Nat) (Nat → UInt8)
  | 0, _, buf => pure buf
  | fuel + 1, done, buf =>
    if done < size then do
      TraceM.record (offset + done, size - done)
      let amount := vfsRead (offset + done) (size - done)
      if amount = 0 ∨ amount = sizeMax ∨ amount > size - done then throw (-eio)
      else
        vfsReadLoop vfsRead image offset size dst fuel (done + amount)
          (copyIn buf (dst + done) (fun i => image (offset + done + i)) amount)
    else pure buf

/-- The window is cached at offset for size bytes. -/
def ElfSource.cached (src : ElfSource) (offset size : Nat) : Bool :=
  offset ≥ src.windowOffset && size ≤ src.windowSize && offset - src.windowOffset ≤ src.windowSize - size

/-- The reload of the window in elf_source_read: as much of the image from
offset as the window holds. -/
def ElfSource.loadWindow (vfsRead : Nat → Nat → Nat) (src : ElfSource) (offset : Nat) :
    TraceM Int (Nat × Nat) ElfSource := do
  let windowSize := min (src.size - offset) src.windowCapacity
  let window ← vfsReadLoop vfsRead src.image offset windowSize 0 windowSize 0 src.window
  pure { src with window, windowOffset := offset, windowSize }

/-- elf_source_read: copy size bytes of the image at offset into buf at dst,
from memory, from the window (loaded first when the range is not cached), or
straight from the node.  The buffer is never NULL here. -/
def elfSourceRead (vfsRead : Nat → Nat → Nat) (src : ElfSource) (offset : Nat) (buf : Nat → UInt8)
    (dst size : Nat) : TraceM Int (Nat × Nat) (ElfSource × (Nat → UInt8)) :=
  if offset > src.size ∨ size > src.size - offset then throw (-einval)
  else if src.inMemory then do
    TraceM.record (offset, size)
    pure (src, copyIn buf dst (fun i => src.image (offset + i)) size)
  else if !src.hasNode then throw (-eio)
  else if src.hasWindow ∧ size ≤ src.windowCapacity then
    (if src.cached offset size then pure src else src.loadWindow vfsRead offset) >>= fun src =>
      pure (src, copyIn buf dst (fun i => src.window (offset - src.windowOffset + i)) size)
  else do
    let buf ← vfsReadLoop vfsRead src.image offset size dst size 0 buf
    pure (src, buf)

/-! ## Segments and pages -/

/-- What elf_segment_range returns for a segment that has memory: the base
vaddr + load_bias and the page-aligned range around [base, base + memsz). -/
structure SegmentRange where
  base : Nat
  start : Nat
  stop : Nat
  deriving DecidableEq, Repr

/-- elf_segment_range: none (0) for a segment without memory, -ENOEXEC when a
sum would pass UINT64_MAX. -/
def elfSegmentRange (seg : Phdr) (bias : Nat) : Except Int (Option SegmentRange) :=
  if seg.memsz = 0 then .ok none
  else if seg.vaddr > uint64Max - bias then .error (-enoexec)
  else if seg.vaddr + bias > uint64Max - seg.memsz then .error (-enoexec)
  else if seg.vaddr + bias + seg.memsz > uint64Max - (page4kSize - 1) then .error (-enoexec)
  else if alignUp (seg.vaddr + bias + seg.memsz) < seg.vaddr + bias + seg.memsz then .error (-enoexec)
  else .ok (some ⟨seg.vaddr + bias, alignDown (seg.vaddr + bias), alignUp (seg.vaddr + bias + seg.memsz)⟩)

/-- The test of the loop of elf_page_attributes: a PT_LOAD segment whose page
range meets the page at va. -/
def pageCovers (bias va : Nat) (seg : Phdr) : Bool :=
  seg.type == ptLoad && seg.memsz != 0 &&
    match elfSegmentRange seg bias with
    | .ok (some r) => !(va ≥ r.stop || va + page4kSize ≤ r.start)
    | _ => false

/-- Some segment on the page at va has the permission bit: the readable,
writable and executable flags of elf_page_attributes. -/
def pagePermits (phdrs : List Phdr) (bias va bit : Nat) : Bool :=
  phdrs.any fun seg => pageCovers bias va seg && seg.flags &&& bit != 0

/-- elf_page_attributes: for a page some segment covers, its PTE flags and vm
flags. -/
def elfPageAttributes (phdrs : List Phdr) (bias va : Nat) : Option (Nat × Nat) :=
  if !phdrs.any (pageCovers bias va) then none
  else
    let writable := pagePermits phdrs bias va pfW
    let executable := pagePermits phdrs bias va pfX
    some (pteUser ||| ptePresent ||| (if writable then pteWriteable else 0) ||| (if executable then 0 else pteNoExecute),
      (if pagePermits phdrs bias va pfR then vmRead else 0) ||| (if writable then vmWrite else 0) |||
        (if executable then vmExec else 0))

/-! ## The process -/

/-- A page of the user page directory: its PTE flags and its bytes. -/
structure UserPage where
  pteFlags : Nat
  data : Nat → UInt8

/-- The parts of process_t the loader changes. -/
structure ElfProcess where
  /-- The user page directory: the page mapped at each page address. -/
  pages : Nat → Option UserPage
  /-- mmap_list. -/
  vmas : List VmArea
  startBrk : Nat
  heapBrk : Nat

/-- What the loader's environment answers. -/
structure LoadEnv where
  /-- What vfs_read returns when asked for len bytes at an offset of the
  image's node. -/
  vfsRead : Nat → Nat → Nat
  /-- alloc_frames(1) fails for the page at va. -/
  frameFails : Nat → Bool
  /-- page_map_new_to cannot build the tables down to va. -/
  tableFails : Nat → Bool
  /-- calloc fails for the area that starts at start. -/
  vmaAllocFails : Nat → Bool

/-- page_map_new_to: map page at va, failing when a page is mapped there or
the tables to it cannot be built. -/
def pageMapNewTo (env : LoadEnv) (pages : Nat → Option UserPage) (va : Nat) (page : UserPage) :
    Except Int (Nat → Option UserPage) :=
  if (pages va).isSome ∨ env.tableFails va then .error (-1)
  else .ok (Function.update pages va (some page))

/-! ## load_elf_segments_source -/

/-- The first loop of load_elf_segments_source: check every PT_LOAD segment
against the image and the user range, and find the lowest start and highest
end of their page ranges. -/
def validateSegments (size bias : Nat) : List Phdr → Nat → Nat → Except Int (Nat × Nat)
  | [], lo, hi => .ok (lo, hi)
  | seg :: rest, lo, hi =>
    if seg.type ≠ ptLoad then validateSegments size bias rest lo hi
    else if seg.filesz > seg.memsz then .error (-enoexec)
    else if seg.offset > size ∨ seg.filesz > size - seg.offset then .error (-enoexec)
    else if seg.align > 1 ∧ (seg.align &&& (seg.align - 1) ≠ 0 ∨
        seg.vaddr &&& (seg.align - 1) ≠ seg.offset &&& (seg.align - 1)) then .error (-enoexec)
    else
      match elfSegmentRange seg bias with
      | .error _ => .error (-enoexec)
      | .ok none => validateSegments size bias rest lo hi
      | .ok (some r) =>
        if r.start < processHeapStart ∨ r.stop > processUserStackTop then .error (-enoexec)
        else validateSegments size bias rest (min lo r.start) (max hi r.stop)

/-- The copy loop for the page at va: every PT_LOAD segment with file bytes
on the page has them read into it, at the offset its base gives. -/
def copySegments (env : LoadEnv) (bias va : Nat) :
    List Phdr → ElfSource → (Nat → UInt8) → TraceM Int (Nat × Nat) (ElfSource × (Nat → UInt8))
  | [], src, page => pure (src, page)
  | seg :: rest, src, page =>
    if seg.type ≠ ptLoad ∨ seg.filesz = 0 then copySegments env bias va rest src page
    else
      match elfSegmentRange seg bias with
      | .ok (some r) =>
        let fileStart := max va r.base
        let fileEnd := min (va + page4kSize) (r.base + seg.filesz)
        if fileStart ≥ fileEnd then copySegments env bias va rest src page
        else
          let fileDelta := fileStart - r.base
          if seg.offset > src.size ∨ fileDelta > src.size - seg.offset then throw (-enoexec)
          else
            let fileOffset := seg.offset + fileDelta
            let copySize := fileEnd - fileStart
            if copySize > src.size - fileOffset then throw (-enoexec)
            else do
              let (src, page) ← elfSourceRead env.vfsRead src fileOffset page (fileStart - va) copySize
              copySegments env bias va rest src page
      | _ => copySegments env bias va rest src page

/-- One step of the page loop: a page some segment covers gets a zeroed frame,
is mapped with its PTE flags, and receives the file bytes of its segments. -/
def loadPage (env : LoadEnv) (phdrs : List Phdr) (bias : Nat) (st : ElfProcess) (src : ElfSource)
    (va : Nat) : TraceM Int (Nat × Nat) (ElfProcess × ElfSource) :=
  match elfPageAttributes phdrs bias va with
  | none => pure (st, src)
  | some (pteFlags, _) =>
    if env.frameFails va then throw (-enomem)
    else
      match pageMapNewTo env st.pages va ⟨pteFlags, fun _ => 0⟩ with
      | .error _ => throw (-enomem)
      | .ok pages => do
        let (src, page) ← copySegments env bias va phdrs src (fun _ => 0)
        pure ({ st with pages := Function.update pages va (some ⟨pteFlags, page⟩) }, src)

/-- The page loop of load_elf_segments_source. -/
def loadPages (env : LoadEnv) (phdrs : List Phdr) (bias : Nat) :
    List Nat → ElfProcess → ElfSource → TraceM Int (Nat × Nat) (ElfProcess × ElfSource)
  | [], st, src => pure (st, src)
  | va :: rest, st, src => do
    let (st, src) ← loadPage env phdrs bias st src va
    loadPages env phdrs bias rest st src

/-- insert_elf_vma: record [start, stop) as an area of the process; nothing
for an empty range, -ENOMEM when calloc or vm_area_insert fails. -/
def insertElfVma (env : LoadEnv) (vmas : List VmArea) (start stop flags : Nat) : Except Int (List VmArea) :=
  if start ≥ stop then .ok vmas
  else if env.vmaAllocFails start then .error (-enomem)
  else
    match vmAreaInsert vmas (vmAreaAlloc start stop flags) with
    | .ok vmas => .ok vmas
    | .error _ => .error (-enomem)

/-- The run of the area loop: run_start (0 when no run is open), run_end and
run_flags. -/
structure RunState where
  runStart : Nat
  runEnd : Nat
  runFlags : Nat
  deriving DecidableEq, Repr

/-- The area loop of load_elf_segments_source: extend the open run by a page
that follows it with equal flags, or record it and open a new one; a page
no segment covers records the open run. -/
def buildVmas (env : LoadEnv) (phdrs : List Phdr) (bias : Nat) :
    List Nat → RunState → List VmArea → Except Int (RunState × List VmArea)
  | [], rs, vmas => .ok (rs, vmas)
  | va :: rest, rs, vmas =>
    match elfPageAttributes phdrs bias va with
    | none =>
      (if rs.runStart ≠ 0 then insertElfVma env vmas rs.runStart rs.runEnd rs.runFlags else pure vmas) >>=
        fun vmas => buildVmas env phdrs bias rest { rs with runStart := 0 } vmas
    | some (_, vmFlags) =>
      if rs.runStart = 0 then buildVmas env phdrs bias rest ⟨va, va + page4kSize, vmFlags⟩ vmas
      else if rs.runEnd ≠ va ∨ rs.runFlags ≠ vmFlags then do
        let vmas ← insertElfVma env vmas rs.runStart rs.runEnd rs.runFlags
        buildVmas env phdrs bias rest ⟨va, va + page4kSize, vmFlags⟩ vmas
      else buildVmas env phdrs bias rest { rs with runEnd := rs.runEnd + page4kSize } vmas

/-- The tail of load_elf_segments_source: record the run still open. -/
def closeRun (env : LoadEnv) (p : RunState × List VmArea) : Except Int (List VmArea) :=
  if p.1.runStart ≠ 0 then insertElfVma env p.2 p.1.runStart p.1.runEnd p.1.runFlags else pure p.2

/-- load_elf_segments_source. -/
def loadElfSegmentsSource (env : LoadEnv) (st : ElfProcess) (phdrs : List Phdr) (src : ElfSource)
    (bias : Nat) (setBrk : Bool) : TraceM Int (Nat × Nat) ElfProcess :=
  TraceM.lift (validateSegments src.size bias phdrs uint64Max 0) >>= fun (lo, hi) =>
    if lo = uint64Max then throw (-enoexec)
    else
      loadPages env phdrs bias (pageSteps lo hi) st src >>= fun (st, _) =>
        TraceM.lift (buildVmas env phdrs bias (pageSteps lo hi) ⟨0, 0, 0⟩ st.vmas >>= closeRun env) >>= fun vmas =>
          pure (if setBrk ∧ hi > processHeapStart then { st with vmas, startBrk := hi, heapBrk := hi }
            else { st with vmas })

end Uinxed.Process
