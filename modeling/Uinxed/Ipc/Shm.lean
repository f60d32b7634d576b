/-
  Ipc/Shm.lean --- System V shared memory and the areas that map it
  (sys_shmget, shm_attach_get, sysv_shm_vma_get, sysv_shm_vma_put,
  shm_remove_if_unused, sys_shmat and sys_shmdt, src/ipc/sysv_ipc.c), with
  munmap, mprotect, fork and exit on the address spaces of all processes.

  A segment (shm_seg_t) is named by its identity, the pointer an area keeps in
  vm_private_data; shm_segs[idx] and shm_seq[idx] are the table, and a shmid
  is seq << 16 | idx.  A segment counts its attaches (nattch) and its
  references (its kref): the table's, until IPC_RMID and the last detach take
  it out, one for each attach, and one for each lookup in flight.  When the
  last reference goes, shm_seg_release frees it: it leaves segs.

  Each process's mmap_list is a list of VmArea, and the calls on it are those
  of Process/Mmap.lean.  What such a call does to a segment is read off its
  VmaEvents: a shmGet is a sysv_shm_vma_get that succeeded, a shmPut is a
  sysv_shm_vma_put.  Whether a call fails is an input (ShmEnv, MmEnv), as in
  Process/Mmap.lean; ipc_perm_check is one of them.  File references are not
  followed here.

  munmap does not do what shmdt does: vma_remove_range drops a shared-memory
  area with vma_private_put, which does nothing for it (SHM areas set no
  hooks), and never calls sysv_shm_vma_put; its middle split gives the right
  half no sysv_shm_vma_get.
-/
import Uinxed.Process.Mmap

set_option autoImplicit false

namespace Uinxed.Shm

open Uinxed.Process

/-! ## Constants -/

def shmMaxSegs : Nat := 128
def ipcCreat : Nat := 0x0200
def ipcExcl : Nat := 0x0400
def shmSizeMax : Nat := 0x100000000
def shmRdonly : Nat := 0x1000
def shmRnd : Nat := 0x2000
def shmRemap : Nat := 0x4000
def shmExec : Nat := 0x100000

/-- SHMLBA. -/
def shmlba : Nat := page4kSize

def uint32Max : Nat := 2 ^ 32 - 1

def eacces : Int := 13
def enospc : Int := 28

/-- IPC_ID_MASK, IPC_SEQ_SHIFT, IPC_SEQ_MASK. -/
def ipcIdMask : Nat := 0xFFFF
def ipcSeqShift : Nat := 16
def ipcSeqMask : Nat := 0xFFFF

/-! ## Segments -/

/-- shm_seg_t: the fields the attach accounting reads and writes. -/
structure ShmSeg where
  key : Nat
  size : Nat
  npages : Nat
  /-- seg->id, the shmid. -/
  id : Nat
  nattch : Nat
  /-- The count of seg->refs. -/
  refs : Nat
  deleted : Bool
  deriving DecidableEq, Repr

/-- The segments, the table, and the mmap_list of each process. -/
structure ShmWorld where
  /-- The segments not yet released, by identity. -/
  segs : Nat → Option ShmSeg
  /-- The identity of the next segment allocated. -/
  fresh : Nat
  /-- shm_segs[idx]. -/
  slots : Nat → Option Nat
  /-- shm_seq[idx]. -/
  seqs : Nat → Nat
  /-- mmap_list of each process, by pid. -/
  mms : List (List VmArea)

/-- n processes with nothing mapped, and no segment. -/
def ShmWorld.boot (n : Nat) : ShmWorld := ⟨fun _ => none, 0, fun _ => none, fun _ => 0, List.replicate n []⟩

def ShmWorld.setSeg (s : ShmWorld) (id : Nat) (seg : Option ShmSeg) : ShmWorld :=
  { s with segs := fun i => if i = id then seg else s.segs i }

def ShmWorld.setSlot (s : ShmWorld) (idx : Nat) (id : Option Nat) : ShmWorld :=
  { s with slots := fun i => if i = idx then id else s.slots i }

/-- The mmap_list of a process. -/
def ShmWorld.mm (s : ShmWorld) (pid : Nat) : List VmArea := s.mms.getD pid []

def ShmWorld.setMm (s : ShmWorld) (pid : Nat) (list : List VmArea) : ShmWorld := { s with mms := s.mms.set pid list }

/-- shm_seg_put: drop a reference; the last one releases the segment. -/
def shmSegPut (s : ShmWorld) (id : Nat) : ShmWorld :=
  match s.segs id with
  | some seg => if seg.refs ≤ 1 then s.setSeg id none else s.setSeg id (some { seg with refs := seg.refs - 1 })
  | none => s

/-- shm_remove_if_unused: a segment marked for removal with no attach leaves
the table, which drops its reference. -/
def shmRemoveIfUnused (s : ShmWorld) (id : Nat) : ShmWorld :=
  match s.segs id with
  | some seg =>
    if seg.deleted ∧ seg.nattch = 0 ∧ seg.id &&& ipcIdMask < shmMaxSegs ∧ s.slots (seg.id &&& ipcIdMask) = some id ∧
        s.seqs (seg.id &&& ipcIdMask) = (seg.id >>> ipcSeqShift) &&& ipcSeqMask then
      shmSegPut (s.setSlot (seg.id &&& ipcIdMask) none) id
    else s
  | none => s

/-- sysv_shm_vma_get once it succeeds: one more attach and one more reference. -/
def sysvShmVmaGetOk (s : ShmWorld) (id : Nat) : ShmWorld :=
  match s.segs id with
  | some seg => s.setSeg id (some { seg with nattch := seg.nattch + 1, refs := seg.refs + 1 })
  | none => s

/-- sysv_shm_vma_put: one attach less, removal once marked and unattached, and
the attach's reference dropped. -/
def sysvShmVmaPut (s : ShmWorld) (id : Nat) : ShmWorld :=
  match s.segs id with
  | some seg =>
    let s' := s.setSeg id (some { seg with nattch := seg.nattch - 1 })
    shmSegPut (if seg.deleted ∧ seg.nattch - 1 = 0 then shmRemoveIfUnused s' id else s') id
  | none => s

/-- What a reference event does to the segments. -/
def applyEvent (s : ShmWorld) : VmaEvent → ShmWorld
  | .shmGet id => sysvShmVmaGetOk s id
  | .shmPut id => sysvShmVmaPut s id
  | _ => s

def applyEvents (s : ShmWorld) (evs : List VmaEvent) : ShmWorld := evs.foldl applyEvent s

/-- A call on a process's mmap_list, its references applied to the segments. -/
def ShmWorld.runMm (s : ShmWorld) (pid : Nat) (r : MmOutcome) : ShmWorld × Int :=
  (applyEvents (s.setMm pid r.vmas) r.events, r.ret)

/-! ## shmget -/

/-- What the IPC calls meet that the model does not follow. -/
structure ShmEnv where
  /-- ipc_perm_check refuses. -/
  permDenied : Bool
  /-- alloc_frames or the descriptor's malloc fails in shmget. -/
  allocFails : Bool
  /-- frame_retain_range fails in shmat. -/
  retainFails : Bool
  /-- page_map_new_to fails on a page of the attach. -/
  mapFails : Bool

/-- Every call succeeds. -/
def ShmEnv.succeeds : ShmEnv := ⟨false, false, false, false⟩

/-- The first table entry of a live, unmarked segment with the key. -/
def findKey (s : ShmWorld) (key : Nat) : Option ShmSeg :=
  ((List.range shmMaxSegs).filterMap fun i =>
    (s.slots i).bind fun id =>
      (s.segs id).filter fun seg => !seg.deleted && seg.key == key && 0 < seg.refs).head?

/-- ipc_id_alloc: the first free slot, its sequence number bumped (never 0). -/
def ipcIdAlloc (s : ShmWorld) : Option (Nat × Nat) :=
  ((List.range shmMaxSegs).find? fun i => (s.slots i).isNone).map fun i =>
    (i, if (s.seqs i + 1) % 65536 = 0 then 1 else (s.seqs i + 1) % 65536)

/-- sys_shmget. -/
def sysShmget (env : ShmEnv) (s : ShmWorld) (key size shmflg : Nat) : ShmWorld × Int :=
  if size > shmSizeMax then (s, -einval)
  else
    match (if key ≠ 0 then findKey s key else none) with
    | some seg =>
      if shmflg &&& (ipcCreat ||| ipcExcl) = ipcCreat ||| ipcExcl then (s, -eexist)
      else if env.permDenied then (s, -eacces)
      else if size > 0 ∧ size > seg.size then (s, -einval)
      else (s, seg.id)
    | none =>
      if shmflg &&& ipcCreat = 0 then (s, -enoent)
      else if size = 0 then (s, -einval)
      else if env.allocFails then (s, -enomem)
      else
        match ipcIdAlloc s with
        | none => (s, -enospc)
        | some (idx, seq) =>
          -- the new segment holds the table's reference
          ({ (s.setSlot idx (some s.fresh)).setSeg s.fresh
                (some ⟨key, size, (size + page4kSize - 1) / page4kSize, seq <<< ipcSeqShift ||| idx, 0, 1, false⟩) with
              seqs := fun i => if i = idx then seq else s.seqs i, fresh := s.fresh + 1 },
            seq <<< ipcSeqShift ||| idx)

/-! ## shmat and shmdt -/

/-- shm_attach_get: the segment the shmid names, one more attach and one more
reference on it, or the error. -/
def shmAttachGet (env : ShmEnv) (s : ShmWorld) (shmid : Nat) : Except Int (ShmWorld × Nat) :=
  match s.slots (shmid &&& ipcIdMask) with
  | none => .error (-einval)
  | some id =>
    match s.segs id with
    | none => .error (-einval)
    | some seg =>
      if shmid &&& ipcIdMask ≥ shmMaxSegs ∨ s.seqs (shmid &&& ipcIdMask) ≠ (shmid >>> ipcSeqShift) &&& ipcSeqMask then
        .error (-einval)
      else if env.permDenied then .error (-eacces)
      else if seg.nattch = uint32Max then .error (-enomem)
      else if seg.refs = 0 then .error (-einval)
      else .ok (s.setSeg id (some { seg with nattch := seg.nattch + 1, refs := seg.refs + 1 }), id)

/-- The vm flags of an attach. -/
def shmatFlags (shmflg : Nat) : Nat :=
  vmShared ||| (if shmflg &&& shmRdonly = 0 then vmWrite else 0) ||| (if shmflg &&& shmExec ≠ 0 then vmExec else 0) |||
    vmRead

/-- The area of an attach: VM_REGION_SHM, its private data the segment. -/
def shmArea (vaddr size flags id : Nat) : VmArea :=
  { vmAreaAlloc vaddr (vaddr + size) flags with type := .shm, vmPrivateData := some id }

/-- The rest of sys_shmat once the segment is attached: the address, the
area, and its insertion; each failure gives the attach back. -/
def shmatMap (env : ShmEnv) (mmEnv : MmEnv) (s : ShmWorld) (pid id : Nat) (seg : ShmSeg) (shmaddr shmflg : Nat) :
    ShmWorld × Int :=
  let size := seg.npages * page4kSize
  let vaddr :=
    if shmaddr ≠ 0 ∧ shmflg &&& shmRemap ≠ 0 then shmaddr
    else if shmaddr ≠ 0 then (if shmflg &&& shmRnd ≠ 0 then shmaddr &&& bnot64 (shmlba - 1) else shmaddr)
    else processFindFreeVmaRange (s.mm pid) size
  if shmaddr = 0 ∧ vaddr = 0 then (sysvShmVmaPut s id, -enomem)
  else if vaddr &&& (page4kSize - 1) ≠ 0 ∨ vaddr > uint64Max - size ∨ vaddr + size > processUserStackTop then
    (sysvShmVmaPut s id, -einval)
  else if mmEnv.callocFails vaddr then (sysvShmVmaPut s id, -enomem)
  else
    -- SHM_REMAP frees the areas inside the range first, with their references
    let r := if shmflg &&& shmRemap ≠ 0 then processUnmapCompleteRange mmEnv (s.mm pid) vaddr size
      else ⟨s.mm pid, [], 0⟩
    if r.ret ≠ 0 then (sysvShmVmaPut s id, -einval)
    else
      let s := applyEvents (s.setMm pid r.vmas) r.events
      if env.retainFails ∨ env.mapFails then (sysvShmVmaPut s id, -enomem)
      else
        match vmAreaInsert (s.mm pid) (shmArea vaddr size (shmatFlags shmflg) id) with
        | .ok list' => (s.setMm pid list', vaddr)
        | .error _ => (sysvShmVmaPut s id, -enomem)

/-- sys_shmat. -/
def sysShmat (env : ShmEnv) (mmEnv : MmEnv) (s : ShmWorld) (pid shmid shmaddr shmflg : Nat) : ShmWorld × Int :=
  if shmflg &&& bnot64 (shmRdonly ||| shmRnd ||| shmRemap ||| shmExec) ≠ 0 then (s, -einval)
  else if shmflg &&& shmRemap ≠ 0 ∧ shmaddr = 0 then (s, -einval)
  else
    match shmAttachGet env s shmid with
    | .error e => (s, e)
    | .ok (s', id) =>
      match s'.segs id with
      | some seg => shmatMap env mmEnv s' pid id seg shmaddr shmflg
      | none => (s', -einval)

/-- sys_shmdt: the attach that starts at shmaddr, detached by
process_unmap_complete_range. -/
def sysShmdt (mmEnv : MmEnv) (s : ShmWorld) (pid shmaddr : Nat) : ShmWorld × Int :=
  if shmaddr = 0 then (s, -einval)
  else
    match (s.mm pid).find? (fun v => v.start == shmaddr && v.type == .shm && v.vmPrivateData.isSome) with
    | none => (s, -einval)
    | some v =>
      if v.stop - v.start = 0 then (s, -einval)
      else s.runMm pid (processUnmapCompleteRange mmEnv (s.mm pid) shmaddr (v.stop - v.start))

/-! ## fork and exit -/

/-- The copy of one area fork makes for the child: the references it takes,
and the copy, or none when it fails (with what it gave back). -/
def forkCopy (env : MmEnv) (child : List VmArea) (v : VmArea) : List VmaEvent × Option (List VmArea) :=
  if env.callocFails v.start then ([], none)
  else if v.vmFile.isSome ∧ env.retainFails v.start then ([], none)
  else
    -- the retain, the pin (its failure ignored) and the memfd count
    let fileEvs := match v.vmFile with
      | some n => [.fileRetain n] ++ (if v.vmPagecache ∧ !env.pinFails v.start then [.cachePin n] else []) ++
          [.memfdRetain n v.flags]
      | none => []
    if v.type = .shm ∧ (v.vmPrivateData.isNone ∨ env.shmGetFails v.start) then (fileEvs ++ fileRelease v, none)
    else
      let shmEvs := match v.type, v.vmPrivateData with
        | .shm, some id => [.shmGet id]
        | _, _ => []
      match vmAreaInsert child v with
      | .ok child' => (fileEvs ++ shmEvs ++ vmaPrivateGet v, some child')
      | .error _ => (fileEvs ++ shmEvs ++ vmaPrivateGet v ++ vmaPrivatePut v ++ fileRelease v, none)

/-- The copy loop of fork over the parent's areas; on a failure process_free
frees the child's areas copied so far. -/
def forkLoop (env : MmEnv) : List VmArea → List VmArea → List VmaEvent × Option (List VmArea)
  | [], child => ([], some child)
  | v :: rest, child =>
    match forkCopy env child v with
    | (evs, none) => (evs ++ child.flatMap vmAreaFree, none)
    | (evs, some child') =>
      match forkLoop env rest child' with
      | (evs', r) => (evs ++ evs', r)

/-- fork: a new process, with a copy of the parent's areas, or -ENOMEM. -/
def shmFork (mmEnv : MmEnv) (s : ShmWorld) (pid : Nat) : ShmWorld × Int :=
  match forkLoop mmEnv (s.mm pid) [] with
  | (evs, some child) => (applyEvents { s with mms := s.mms ++ [child] } evs, s.mms.length)
  | (evs, none) => (applyEvents s evs, -enomem)

/-- Process exit: mmap_list_free frees every area, in order. -/
def shmExit (s : ShmWorld) (pid : Nat) : ShmWorld × Int :=
  (applyEvents (s.setMm pid []) ((s.mm pid).flatMap vmAreaFree), 0)

/-! ## Runs -/

/-- The calls of a run, by process. -/
inductive ShmCall where
  | shmget (key size shmflg : Nat)
  | shmat (pid shmid shmaddr shmflg : Nat)
  | shmdt (pid shmaddr : Nat)
  | munmap (pid addr length : Nat)
  | mprotect (pid addr length prot : Nat)
  | fork (pid : Nat)
  | exit (pid : Nat)

/-- One call, with the failures its envs give. -/
def ShmCall.step (env : ShmEnv) (mmEnv : MmEnv) (s : ShmWorld) : ShmCall → ShmWorld × Int
  | .shmget key size shmflg => sysShmget env s key size shmflg
  | .shmat pid shmid shmaddr shmflg => sysShmat env mmEnv s pid shmid shmaddr shmflg
  | .shmdt pid shmaddr => sysShmdt mmEnv s pid shmaddr
  | .munmap pid addr length => s.runMm pid (sysMunmapFull mmEnv (s.mm pid) addr length)
  | .mprotect pid addr length prot => s.runMm pid (sysMprotect mmEnv (s.mm pid) addr length prot)
  | .fork pid => shmFork mmEnv s pid
  | .exit pid => shmExit s pid

/-- A run of calls in which no call fails. -/
def runShm (s : ShmWorld) (calls : List ShmCall) : ShmWorld :=
  calls.foldl (fun s c => (c.step ShmEnv.succeeds MmEnv.succeeds s).1) s

/-! ## What nattch should count -/

/-- The shared-memory areas of all processes that map the segment. -/
def shmAttachCount (s : ShmWorld) (id : Nat) : Nat :=
  (s.mms.map fun l => l.countP fun v => v.type == .shm && v.vmPrivateData == some id).sum

/-- Every segment's nattch counts the areas that map it. -/
def NattchCounts (s : ShmWorld) : Prop :=
  ∀ id seg, s.segs id = some seg → seg.nattch = shmAttachCount s id

/-- munmap of a whole attach removes the area but leaves the attach counted:
after shmget(IPC_PRIVATE, 0x1000, IPC_CREAT | 0600) and shmat, munmap leaves
nattch 1 and the attach's reference held with no area mapping the segment,
where shmdt gives nattch 0.  And a munmap in the middle of a three-page
attach splits it in two areas with one attach: shmdt of the first half and
exit then put the segment twice, and it is released while shm_segs[0] still
names it. -/
theorem munmap_of_shm_area_skips_detach :
    ¬ NattchCounts (runShm (ShmWorld.boot 1)
        [.shmget 0 0x1000 (ipcCreat ||| 0x180), .shmat 0 65536 0 0, .munmap 0 processMmapBase 0x1000]) ∧
      (runShm (ShmWorld.boot 1)
          [.shmget 0 0x1000 (ipcCreat ||| 0x180), .shmat 0 65536 0 0, .munmap 0 processMmapBase 0x1000]).segs 0 =
        some ⟨0, 0x1000, 1, 65536, 1, 2, false⟩ ∧
      (runShm (ShmWorld.boot 1)
          [.shmget 0 0x1000 (ipcCreat ||| 0x180), .shmat 0 65536 0 0, .shmdt 0 processMmapBase]).segs 0 =
        some ⟨0, 0x1000, 1, 65536, 0, 1, false⟩ ∧
      (runShm (ShmWorld.boot 1) [.shmget 0 0x3000 (ipcCreat ||| 0x180), .shmat 0 65536 0 0,
          .munmap 0 (processMmapBase + 0x1000) 0x1000, .shmdt 0 processMmapBase, .exit 0]).segs 0 = none ∧
      (runShm (ShmWorld.boot 1) [.shmget 0 0x3000 (ipcCreat ||| 0x180), .shmat 0 65536 0 0,
          .munmap 0 (processMmapBase + 0x1000) 0x1000, .shmdt 0 processMmapBase, .exit 0]).slots 0 = some 0 := by
  have hseg : (runShm (ShmWorld.boot 1)
      [.shmget 0 0x1000 (ipcCreat ||| 0x180), .shmat 0 65536 0 0, .munmap 0 processMmapBase 0x1000]).segs 0 =
        some ⟨0, 0x1000, 1, 65536, 1, 2, false⟩ := by decide
  refine ⟨fun h => ?_, hseg, by decide, by decide, by decide⟩
  -- the segment still counts one attach, and no area maps it
  have hcount := h 0 _ hseg
  revert hcount
  decide

end Uinxed.Shm
