/-
  Process/Mmap.lean --- the system calls that change mmap_list
  (sys_mmap_pgoff, sys_munmap_full, sys_mprotect with vma_remove_range and
  vma_split_locked, src/kernel/syscall/mmap.c; process_unmap_complete_range
  and vm_area_free, src/kernel/process/process.c).

  Each call is a function from mmap_list to what it leaves (MmOutcome): the
  new list, the references it took and dropped on the areas' backing, in the
  order it did, and its return value.  A call that fails half-way keeps what
  it changed before: vma_remove_range leaves the areas it already trimmed or
  removed, and sys_mprotect leaves its splits when it puts the flags back.

  WHAT IS MODELLED
  - The list is rebuilt as the C loops rewrite it in place.  An area that
    vma_remove_range splits in the middle is followed by its right half, which
    starts at end and so is passed over by the next turn of the loop; the
    model goes on with the rest of the list after it.
  - The references are VmaEvents: vfs_node_retain and vfs_close on the file,
    the page-cache pin, memfd_vma_retain and memfd_vma_release, the driver's
    vm_private_get and vm_private_put, and sysv_shm_vma_get and
    sysv_shm_vma_put on a shared-memory segment.  What each does to its
    object is not followed here.
  - Each call that can fail and that the model does not follow is an oracle of
    the MmEnv, asked about the address the area it serves starts at: calloc,
    vfs_node_retain, vfs_cache_mapping_pin, sysv_shm_vma_get,
    memfd_vma_protect and page_unmap_release.  What fds[fd] names is the
    MmapFile of sys_mmap_pgoff, with what memfd_map and the driver's
    file_mmap return.
  - The page tables are not modelled: unmap_physical_pages and the page loop
    of process_unmap_complete_range only decide whether the call goes on, and
    the PTE updates of sys_mprotect are left out.
  - Sums are in uint64_t.  sys_munmap_full does not check addr + pages, so its
    end is taken mod 2^64; every other sum is checked against UINT64_MAX by
    the source before it is made.  ALIGN_UP(length) does not wrap on any
    length the calls accept.
-/
import Uinxed.Process.Vma

set_option autoImplicit false

namespace Uinxed.Process

/-! ## Constants -/

def enoent : Int := 2
def ebadf : Int := 9
def enodev : Int := 19
def eperm : Int := 1

/-- PROT_READ, PROT_WRITE, PROT_EXEC. -/
def protRead : Nat := 0x1
def protWrite : Nat := 0x2
def protExec : Nat := 0x4

/-- The MAP_ flags sys_mmap_pgoff reads or accepts. -/
def mapShared : Nat := 0x01
def mapPrivate : Nat := 0x02
def mapFixed : Nat := 0x10
def mapAnonymous : Nat := 0x20
def mapGrowsdown : Nat := 0x0100
def mapLocked : Nat := 0x2000
def mapNoreserve : Nat := 0x4000
def mapPopulate : Nat := 0x8000
def mapStack : Nat := 0x20000

/-- ~x on a uint64_t. -/
def bnot64 (x : Nat) : Nat := x ^^^ uint64Max

/-- prot_to_vm_flags. -/
def protToVmFlags (prot : Nat) : Nat :=
  (if prot &&& protRead ≠ 0 then vmRead else 0) ||| (if prot &&& protWrite ≠ 0 then vmWrite else 0) |||
    (if prot &&& protExec ≠ 0 then vmExec else 0)

/-! ## References and failures -/

/-- A reference a call takes or drops on what backs an area. -/
inductive VmaEvent where
  /-- vfs_node_retain(node) succeeded. -/
  | fileRetain (node : Nat)
  /-- vfs_close(node). -/
  | fileClose (node : Nat)
  /-- vfs_cache_mapping_pin(node) succeeded. -/
  | cachePin (node : Nat)
  /-- vfs_cache_mapping_unpin(node). -/
  | cacheUnpin (node : Nat)
  /-- memfd_vma_retain(node, flags), or the count memfd_map takes. -/
  | memfdRetain (node flags : Nat)
  /-- memfd_vma_release(node, flags). -/
  | memfdRelease (node flags : Nat)
  /-- vm_private_get(data), or the reference a driver's file_mmap leaves to the area. -/
  | privateGet (data : Nat)
  /-- vm_private_put(data). -/
  | privatePut (data : Nat)
  /-- sysv_shm_vma_get(seg) succeeded. -/
  | shmGet (seg : Nat)
  /-- sysv_shm_vma_put(seg). -/
  | shmPut (seg : Nat)
  deriving DecidableEq, Repr

/-- The calls the model does not follow, each asked about the address of the
area it serves: whether it fails. -/
structure MmEnv where
  /-- calloc of the area that starts here. -/
  callocFails : Nat → Bool
  /-- vfs_node_retain for the area that starts here. -/
  retainFails : Nat → Bool
  /-- vfs_cache_mapping_pin for the area that starts here. -/
  pinFails : Nat → Bool
  /-- sysv_shm_vma_get for the area that starts here. -/
  shmGetFails : Nat → Bool
  /-- calloc of sys_mprotect's array of changes. -/
  changesFail : Bool
  /-- memfd_vma_protect for the area that starts here (it fails with -EPERM). -/
  protectFails : Nat → Bool
  /-- page_unmap_release(proc->user_page_dir, va). -/
  unmapFails : Nat → Bool

/-- Every call succeeds. -/
def MmEnv.succeeds : MmEnv :=
  ⟨fun _ => false, fun _ => false, fun _ => false, fun _ => false, false, fun _ => false, fun _ => false⟩

/-- What a call leaves: mmap_list, the references it took and dropped, in
order, and its return value. -/
structure MmOutcome where
  vmas : List VmArea
  events : List VmaEvent
  ret : Int
  deriving Repr

/-- The list unchanged, with an error. -/
def MmOutcome.fail (list : List VmArea) (e : Int) : MmOutcome := ⟨list, [], e⟩

/-- An area kept in front of what the rest of the loop leaves. -/
def MmOutcome.cons (v : VmArea) (r : MmOutcome) : MmOutcome := { r with vmas := v :: r.vmas }

/-- References made before the rest of the loop. -/
def MmOutcome.emit (evs : List VmaEvent) (r : MmOutcome) : MmOutcome := { r with events := evs ++ r.events }

/-! ## Teardown and splits -/

/-- vma_private_get: the copy of a split takes its own reference on driver data. -/
def vmaPrivateGet (v : VmArea) : List VmaEvent :=
  match v.vmPrivateData with
  | some d => if v.vmPrivateGet && v.vmPrivatePut then [.privateGet d] else []
  | none => []

/-- vma_private_put: the reference on driver data of an area being discarded. -/
def vmaPrivatePut (v : VmArea) : List VmaEvent :=
  match v.vmPrivateData with
  | some d => if v.vmPrivatePut then [.privatePut d] else []
  | none => []

/-- The releases of the file of an area being discarded: the unpin when it
pins the page cache, memfd_vma_release and vfs_close. -/
def fileRelease (v : VmArea) : List VmaEvent :=
  match v.vmFile with
  | some n => (if v.vmPagecache then [.cacheUnpin n] else []) ++ [.memfdRelease n v.flags, .fileClose n]
  | none => []

/-- vm_area_free on one area: sysv_shm_vma_put for a shared-memory area, then
the driver's put and the releases of the file. -/
def vmAreaFree (v : VmArea) : List VmaEvent :=
  (match v.type, v.vmPrivateData with
    | .shm, some seg => [.shmPut seg]
    | _, _ => []) ++ vmaPrivatePut v ++ fileRelease v

/-- The right half of an area cut at addr: the same backing, its page offset
moved on by the pages left of addr. -/
def VmArea.rightOf (v : VmArea) (addr : Nat) : VmArea :=
  { v with start := addr, vmPgoff := v.vmPgoff + (addr - v.start) / page4kSize }

/-- The area cut back to end at addr. -/
def VmArea.leftOf (v : VmArea) (addr : Nat) : VmArea := { v with stop := addr }

/-- The references the right half of a split takes on its file: vfs_node_retain,
the pin when the area pins the page cache, and memfd_vma_retain.  When the
retain fails (-ENOENT) or the pin fails (-EIO, after closing the retained
node), the error and what was done. -/
def splitRetainFile (env : MmEnv) (right : VmArea) : Except (Int × List VmaEvent) (List VmaEvent) :=
  match right.vmFile with
  | none => .ok []
  | some n =>
    if env.retainFails right.start then .error (-enoent, [])
    else if right.vmPagecache ∧ env.pinFails right.start then .error (-eio, [.fileRetain n, .fileClose n])
    else .ok ([.fileRetain n] ++ (if right.vmPagecache then [.cachePin n] else []) ++ [.memfdRetain n right.flags])

/-- vma_remove_range: every area that meets [start, stop) is removed when it
lies inside, trimmed when it sticks out on one side, and split in two when it
sticks out on both. -/
def vmaRemoveRange (env : MmEnv) (start stop : Nat) : List VmArea → MmOutcome
  | [] => ⟨[], [], 0⟩
  | vma :: rest =>
    if stop ≤ vma.start ∨ start ≥ vma.stop then (vmaRemoveRange env start stop rest).cons vma
    else if start ≤ vma.start ∧ stop ≥ vma.stop then
      (vmaRemoveRange env start stop rest).emit (vmaPrivatePut vma ++ fileRelease vma)
    else if start ≤ vma.start then (vmaRemoveRange env start stop rest).cons (vma.rightOf stop)
    else if stop ≥ vma.stop then (vmaRemoveRange env start stop rest).cons (vma.leftOf start)
    else if env.callocFails stop then MmOutcome.fail (vma :: rest) (-enomem)
    else
      match splitRetainFile env (vma.rightOf stop) with
      | .error (e, evs) => ⟨vma :: rest, evs, e⟩
      | .ok evs =>
        -- the loop goes on from the right half, which starts at stop and is passed over
        (((vmaRemoveRange env start stop rest).cons (vma.rightOf stop)).cons (vma.leftOf start)).emit
          (evs ++ vmaPrivateGet (vma.rightOf stop))

/-- What vma_split_locked leaves in the place of vma: the areas before the one
it returns, and the one it returns (the right half, or vma itself when split
is not inside it). -/
structure Split where
  left : List VmArea
  right : VmArea
  deriving Repr

/-- vma_split_locked: split vma at split, the right half taking its own
references on the file, on a shared-memory segment and on driver data;
none when a calloc or a reference fails, with what was done and undone. -/
def vmaSplitLocked (env : MmEnv) (vma : VmArea) (split : Nat) : List VmaEvent × Option Split :=
  if split ≤ vma.start ∨ split ≥ vma.stop then ([], some ⟨[], vma⟩)
  else if env.callocFails split then ([], none)
  else
    match splitRetainFile env (vma.rightOf split) with
    | .error (_, evs) => (evs, none)
    | .ok evs =>
      match vma.type, vma.vmPrivateData with
      | .shm, some seg =>
        if env.shmGetFails split then
          -- fail_backing: the right half drops what it took, the memfd count first
          (evs ++ vmaPrivatePut (vma.rightOf split) ++
            (match vma.vmFile with
              | some n => [.memfdRelease n vma.flags] ++ (if vma.vmPagecache then [.cacheUnpin n] else []) ++ [.fileClose n]
              | none => []), none)
        else (evs ++ [.shmGet seg] ++ vmaPrivateGet (vma.rightOf split), some ⟨[vma.leftOf split], vma.rightOf split⟩)
      | _, _ => (evs ++ vmaPrivateGet (vma.rightOf split), some ⟨[vma.leftOf split], vma.rightOf split⟩)

/-! ## sys_munmap_full and process_unmap_complete_range -/

/-- unmap_physical_pages: page_unmap_release on each page of
[start, ALIGN_UP(start + length)), in uint64_t; -ENOMEM at the first that fails. -/
def unmapPhysicalPages (env : MmEnv) (start length : Nat) : Int :=
  if (pageSteps start (alignUp ((start + length) % 2 ^ 64) % 2 ^ 64)).any env.unmapFails then -enomem else 0

/-- sys_munmap_full. -/
def sysMunmapFull (env : MmEnv) (list : List VmArea) (addr length : Nat) : MmOutcome :=
  if length = 0 ∨ addr &&& (page4kSize - 1) ≠ 0 then .fail list (-einval)
  else if length > uint64Max - page4kSize then .fail list (-einval)
  else if unmapPhysicalPages env addr (alignUp length) ≠ 0 then .fail list (unmapPhysicalPages env addr (alignUp length))
  else vmaRemoveRange env addr ((addr + alignUp length) % 2 ^ 64) list

/-- process_unmap_complete_range: refuse a range that cuts an area, unmap its
pages, and free every area inside it (vm_area_free walks them in the reverse
order of the list, as they were pushed on removed). -/
def processUnmapCompleteRange (env : MmEnv) (list : List VmArea) (addr length : Nat) : MmOutcome :=
  if length = 0 ∨ addr > uint64Max - length then .fail list (-einval)
  else if list.any (fun v => addr < v.stop && addr + length > v.start && (v.start < addr || v.stop > addr + length)) then
    .fail list (-einval)
  else if (pageSteps addr (addr + length)).any env.unmapFails then .fail list (-enomem)
  else
    ⟨list.filter (fun v => !(v.start ≥ addr && v.stop ≤ addr + length)),
      ((list.filter (fun v => v.start ≥ addr && v.stop ≤ addr + length)).reverse.flatMap vmAreaFree), 0⟩

/-! ## sys_mprotect -/

/-- The coverage loop of sys_mprotect: the areas from first on cover
[covered, stop) with no gap. -/
def mprotectCovers (stop : Nat) : Nat → List VmArea → Bool
  | covered, [] => stop ≤ covered
  | covered, v :: rest =>
    if stop ≤ covered then true
    else if v.start > covered then false
    else mprotectCovers stop (if v.stop > covered then min v.stop stop else covered) rest

/-- The loop of sys_mprotect that splits at end the area that runs past it;
the loop ends at the right half, which starts at end. -/
def splitAtEnd (env : MmEnv) (stop : Nat) : List VmArea → List VmaEvent × Option (List VmArea)
  | [] => ([], some [])
  | v :: rest =>
    if v.start < stop then
      if v.stop > stop then
        match vmaSplitLocked env v stop with
        | (evs, none) => (evs, none)
        | (evs, some s) => (evs, some (s.left ++ s.right :: rest))
      else ((splitAtEnd env stop rest).1, (splitAtEnd env stop rest).2.map (v :: ·))
    else ([], some (v :: rest))

/-- The flags sys_mprotect gives an area: (flags & ~(VM_READ | VM_WRITE | VM_EXEC)) | requested. -/
def mprotectFlags (flags requested : Nat) : Nat := flags &&& bnot64 (vmRead ||| vmWrite ||| vmExec) ||| requested

/-- The flags loop of sys_mprotect over the areas that start below end: each
gets mprotectFlags, unless memfd_vma_protect refuses, and then every flag is
put back. -/
def protectFlags (env : MmEnv) (requested stop : Nat) : List VmArea → Except Int (List VmArea)
  | [] => .ok []
  | v :: rest =>
    if v.start < stop then
      if v.vmFile.isSome ∧ env.protectFails v.start then .error (-eperm)
      else
        (protectFlags env requested stop rest).map
          ({ v with flags := mprotectFlags v.flags requested } :: ·)
    else .ok (v :: rest)

/-- sys_mprotect.  The PTE updates of the changed areas are not modelled. -/
def sysMprotect (env : MmEnv) (list : List VmArea) (addr length prot : Nat) : MmOutcome :=
  if length = 0 ∨ addr &&& (page4kSize - 1) ≠ 0 then .fail list (-einval)
  else if length > uint64Max - (page4kSize - 1) then .fail list (-einval)
  else if prot &&& bnot64 (protRead ||| protWrite ||| protExec) ≠ 0 then .fail list (-einval)
  else if addr > uint64Max - alignUp length ∨ addr + alignUp length > processUserStackTop then .fail list (-enomem)
  else
    -- first is the first area that ends after addr
    match list.dropWhile (·.stop ≤ addr) with
    | [] => .fail list (-enomem)
    | first :: after =>
      if first.start > addr then .fail list (-enomem)
      else if !mprotectCovers (addr + alignUp length) addr (first :: after) then .fail list (-enomem)
      else if env.changesFail then .fail list (-enomem)
      else
        match (if first.start < addr then vmaSplitLocked env first addr else ([], some ⟨[], first⟩)) with
        | (evs, none) => ⟨list, evs, -enomem⟩
        | (evs, some s) =>
          match splitAtEnd env (addr + alignUp length) (s.right :: after) with
          | (evs', none) => ⟨list.takeWhile (·.stop ≤ addr) ++ s.left ++ s.right :: after, evs ++ evs', -enomem⟩
          | (evs', some suffix) =>
            match protectFlags env (protToVmFlags prot) (addr + alignUp length) suffix with
            | .error e => ⟨list.takeWhile (·.stop ≤ addr) ++ s.left ++ suffix, evs ++ evs', e⟩
            | .ok suffix' => ⟨list.takeWhile (·.stop ≤ addr) ++ s.left ++ suffix', evs ++ evs', 0⟩

/-! ## sys_mmap_pgoff -/

/-- vma_range_overlaps. -/
def vmaRangeOverlaps (list : List VmArea) (start stop : Nat) : Bool :=
  list.any (fun v => start < v.stop && stop > v.start)

/-- What a driver's file_mmap leaves in the area: the end it clamps the area
to, the object whose reference it leaves to the area (with both hooks set),
and 0, or the error the syscall returns for the backing it gave (-EINVAL
for an unaligned one, -ENOMEM for a page that fails to map). -/
structure DriverMmap where
  stop : Nat
  obj : Nat
  fault : Int
  deriving Repr

/-- What fds[fd] names, in the order sys_mmap_pgoff tells the cases apart. -/
inductive MmapFile where
  /-- No file at fd. -/
  | none
  /-- A memfd node; memfd_map returns mapRet. -/
  | memfd (node : Nat) (mapRet : Int)
  /-- A node whose page cache vfs_cache_mapping_pin pins. -/
  | pagecache (node : Nat)
  /-- A node with a file_mmap callback; none when it returns NULL. -/
  | driver (node : Nat) (result : Option DriverMmap)
  /-- Any other node: read into new frames. -/
  | fallback (node : Nat)
  deriving Repr

/-- The area sys_mmap_pgoff builds at mmap_addr, zeroed by calloc. -/
def mmapArea (start stop flags : Nat) (file : Option Nat) (pgoff : Nat) : VmArea :=
  { vmAreaAlloc start stop flags with vmFile := file, vmPgoff := pgoff }

/-- A file-backed mapping at mmap_addr, by what fds[fd] names. -/
def mmapFileAt (env : MmEnv) (file : MmapFile) (list : List VmArea) (mmapAddr pages vmFlags offset : Nat) :
    MmOutcome :=
  match file with
  | .none => .fail list (-ebadf)
  | .memfd n mapRet =>
    if env.callocFails mmapAddr then .fail list (-enomem)
    else if env.retainFails mmapAddr then .fail list (-enoent)
    else if mapRet ≠ 0 then ⟨list, [.fileRetain n, .fileClose n], mapRet⟩
    else
      match vmAreaInsert list (mmapArea mmapAddr (mmapAddr + pages) vmFlags (some n) (offset / page4kSize)) with
      | .ok list' => ⟨list', [.fileRetain n, .memfdRetain n vmFlags], mmapAddr⟩
      | .error _ => ⟨list, [.fileRetain n, .memfdRetain n vmFlags, .memfdRelease n vmFlags, .fileClose n], -enomem⟩
  | .pagecache n =>
    if env.callocFails mmapAddr then ⟨list, [.cachePin n, .cacheUnpin n], -enomem⟩
    else if env.retainFails mmapAddr then ⟨list, [.cachePin n, .cacheUnpin n], -enoent⟩
    else
      match vmAreaInsert list
          { mmapArea mmapAddr (mmapAddr + pages) (vmFlags ||| vmLazy) (some n) (offset / page4kSize) with
            vmPagecache := true } with
      | .ok list' => ⟨list', [.cachePin n, .fileRetain n], mmapAddr⟩
      | .error _ => ⟨list, [.cachePin n, .fileRetain n, .cacheUnpin n, .fileClose n], -enomem⟩
  | .driver n result =>
    if env.callocFails mmapAddr then .fail list (-enomem)
    else if env.retainFails mmapAddr then .fail list (-enoent)
    else
      match result with
      | none => ⟨list, [.fileRetain n, .fileClose n], -enodev⟩
      | some d =>
        -- file_mmap_vma_abort drops the driver's reference and the node
        let abort := [.fileRetain n, .privateGet d.obj, .privatePut d.obj, .fileClose n]
        if d.fault ≠ 0 then ⟨list, abort, d.fault⟩
        else
          match vmAreaInsert list
              { mmapArea mmapAddr d.stop vmFlags (some n) (offset / page4kSize) with
                vmPrivateData := some d.obj, vmPrivateGet := true, vmPrivatePut := true } with
          | .ok list' => ⟨list', [.fileRetain n, .privateGet d.obj], mmapAddr⟩
          | .error _ => ⟨list, abort, -enomem⟩
  | .fallback n =>
    if env.callocFails mmapAddr then .fail list (-enomem)
    else if env.retainFails mmapAddr then .fail list (-enoent)
    else
      match vmAreaInsert list (mmapArea mmapAddr (mmapAddr + pages) (vmFlags ||| vmLazy) (some n) (offset / page4kSize)) with
      | .ok list' => ⟨list', [.fileRetain n], mmapAddr⟩
      | .error _ => ⟨list, [.fileRetain n, .fileClose n], -enomem⟩

/-- The mapping sys_mmap_pgoff makes once it has its address: file-backed when
MAP_ANONYMOUS is clear and (int64_t)fd >= 0, anonymous and lazy otherwise. -/
def mmapAt (env : MmEnv) (file : MmapFile) (list : List VmArea) (mmapAddr pages prot flags fd offset : Nat) :
    MmOutcome :=
  if flags &&& mapAnonymous = 0 ∧ fd < 2 ^ 63 then
    mmapFileAt env file list mmapAddr pages (protToVmFlags prot ||| (if flags &&& mapShared ≠ 0 then vmShared else 0)) offset
  else if flags &&& mapAnonymous = 0 then .fail list (-ebadf)
  else if env.callocFails mmapAddr then .fail list (-enomem)
  else
    match vmAreaInsert list (vmAreaAlloc mmapAddr (mmapAddr + pages)
        (protToVmFlags prot ||| (if flags &&& mapShared ≠ 0 then vmShared else 0) ||| vmLazy)) with
    | .ok list' => ⟨list', [], mmapAddr⟩
    | .error _ => .fail list (-enomem)

/-- The flags sys_mmap_pgoff accepts. -/
def mmapSupportedFlags : Nat :=
  mapShared ||| mapPrivate ||| mapFixed ||| mapAnonymous ||| mapGrowsdown ||| mapLocked ||| mapPopulate |||
    mapNoreserve ||| mapStack

/-- The argument checks of sys_mmap_pgoff, each refused with -EINVAL. -/
def mmapArgsOk (length prot flags offset : Nat) : Bool :=
  length ≠ 0 ∧ length ≤ uint64Max - page4kSize ∧ offset &&& (page4kSize - 1) = 0 ∧
    prot &&& bnot64 (protRead ||| protWrite ||| protExec) = 0 ∧
    (flags &&& (mapShared ||| mapPrivate) = mapShared ∨ flags &&& (mapShared ||| mapPrivate) = mapPrivate) ∧
    flags &&& bnot64 mmapSupportedFlags = 0

/-- The mapping at the first free gap, or -ENOMEM when there is none. -/
def mmapAtFree (env : MmEnv) (file : MmapFile) (list : List VmArea) (pages prot flags fd offset : Nat) : MmOutcome :=
  if processFindFreeVmaRange list pages = 0 then .fail list (-enomem)
  else mmapAt env file list (processFindFreeVmaRange list pages) pages prot flags fd offset

/-- MAP_FIXED: the range is checked, its pages unmapped and its areas cleared,
then it is mapped. -/
def mmapFixed (env : MmEnv) (file : MmapFile) (list : List VmArea) (addr pages prot flags fd offset : Nat) :
    MmOutcome :=
  if addr = 0 ∨ addr &&& (page4kSize - 1) ≠ 0 then .fail list (-einval)
  else if addr > uint64Max - pages then .fail list (-einval)
  else if addr + pages > processUserStackTop then .fail list (-einval)
  else if unmapPhysicalPages env addr pages ≠ 0 then .fail list (unmapPhysicalPages env addr pages)
  else if (vmaRemoveRange env addr (addr + pages) list).ret ≠ 0 then vmaRemoveRange env addr (addr + pages) list
  else
    (mmapAt env file (vmaRemoveRange env addr (addr + pages) list).vmas addr pages prot flags fd offset).emit
      (vmaRemoveRange env addr (addr + pages) list).events

/-- sys_mmap_pgoff: a free hint, MAP_FIXED, or the first free gap. -/
def sysMmapPgoff (env : MmEnv) (file : MmapFile) (list : List VmArea) (addr length prot flags fd offset : Nat) :
    MmOutcome :=
  if !mmapArgsOk length prot flags offset then .fail list (-einval)
  else if addr ≠ 0 ∧ flags &&& mapFixed = 0 then
    -- a non-fixed address is a page-aligned hint
    if alignDown addr < processUserStackTop ∧ alignUp length ≤ processUserStackTop - alignDown addr ∧
        !vmaRangeOverlaps list (alignDown addr) (alignDown addr + alignUp length) then
      mmapAt env file list (alignDown addr) (alignUp length) prot flags fd offset
    else mmapAtFree env file list (alignUp length) prot flags fd offset
  else if flags &&& mapFixed ≠ 0 then mmapFixed env file list addr (alignUp length) prot flags fd offset
  else mmapAtFree env file list (alignUp length) prot flags fd offset

end Uinxed.Process
