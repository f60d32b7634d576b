/-
  Mem/Frame/Basic.lean --- the physical frame allocator of src/mem/frame.c.

  The frame allocator owns one buddy allocator over every 4 KiB frame below
  the highest usable address, and serves single frames from a per-CPU cache
  (the PCP) of order-0 pages.  A frame handed out carries its reference count
  in the buddy page's tag; a cached frame is an order-0 allocated page whose
  tag is 0 and which counts as free in usable_frames.

  The model is sequential and has one CPU: every lock is a no-op, an atomic
  update is a plain one, and frame_pcp_cpu always answers CPU 0, so the cache
  of CPU 0 is the only cache that ever holds frames.  The cache is a stack:
  pcp lists frame_pcp[0].frames[count - 1], ..., frames[0], the top first.

  Counters are Nat.  Every subtraction the source makes on usable_frames is
  covered by the frames it counts (FrameInv, Invariant.lean), so it never
  wraps; likewise the tag increment of frame_retain_range is guarded against
  UINT32_MAX.
-/
import Uinxed.Mem.Buddy.Validate

set_option autoImplicit false

namespace Uinxed.Frame

open Uinxed.Buddy

/-! ## Constants -/

/-- FRAME_PCP_HIGH: the capacity of a per-CPU cache. -/
def framePcpHigh : Nat := 64

/-- FRAME_PCP_BATCH: the frames a full cache returns to the buddy at once. -/
def framePcpBatch : Nat := 16

/-- PAGE_4K_SIZE. -/
def page4kSize : Nat := 0x1000

/-- SIZE_MAX on the 64-bit target. -/
def sizeMax : Nat := 2 ^ 64 - 1

/-- UINT32_MAX, the largest reference count a tag holds. -/
def uint32Max : Nat := 2 ^ 32 - 1

/-! ## State -/

/-- frame_allocator_t as the listed operations see it, with the cache of CPU 0.
origin_frames and metadata_frames only feed statistics and reclaim and are not
modelled. -/
structure FrameAllocator where
  buddy : BuddyAllocator
  frameCount : Nat
  usableFrames : Nat
  pcp : List Nat

/-- The zero-initialised buddy_allocator_t of the static frame_allocator: no
page metadata (page_count 0) and every free_head entry 0. -/
def BuddyAllocator.zero : BuddyAllocator :=
  { pages := fun _ => { BuddyPage.initial with next := 0, prev := 0 }
    pageCount := 0
    freePages := 0
    maxOrder := 0
    freeHead := fun _ => 0
    freeCount := fun _ => 0 }

/-- The static frame_allocator before init_frame: all zero. -/
def FrameAllocator.zero : FrameAllocator :=
  { buddy := BuddyAllocator.zero, frameCount := 0, usableFrames := 0, pcp := [] }

/-! ## The per-CPU cache -/

/-- frame_pcp_return_to_buddy: buddy_free each cached frame at order 0; a
failure only prints a diagnostic. -/
def pcpReturnToBuddy (b : BuddyAllocator) (frames : List Nat) : BuddyAllocator :=
  frames.foldl (fun b f => (buddyFree b f 0).1) b

/-- frame_pcp_drain_cpu for CPU 0: the whole cache, frames[0] first, goes back
to the buddy. -/
def pcpDrainCpu (s : FrameAllocator) : FrameAllocator :=
  { s with pcp := [], buddy := pcpReturnToBuddy s.buddy s.pcp.reverse }

/-- frame_pcp_drain_all: every other CPU's cache is empty in the model. -/
def pcpDrainAll (s : FrameAllocator) : FrameAllocator :=
  pcpDrainCpu s

/-- frame_pcp_put: push a logically free order-0 page; a full cache first
hands its top FRAME_PCP_BATCH frames back to the buddy. -/
def pcpPut (s : FrameAllocator) (frame : Nat) : FrameAllocator :=
  if s.pcp.length = framePcpHigh then
    { s with pcp := frame :: s.pcp.drop framePcpBatch
             buddy := pcpReturnToBuddy s.buddy (s.pcp.take framePcpBatch) }
  else { s with pcp := frame :: s.pcp }

/-- The tag write that makes a page externally owned with one reference. -/
def tagOne (p : BuddyPage) : BuddyPage := { p with tag := 1 }

/-- frame_pcp_pop: take the top cached frame and give it one reference. -/
def pcpPop (s : FrameAllocator) : FrameAllocator × Option Nat :=
  match s.pcp with
  | [] => (s, none)
  | frame :: rest =>
    ({ s with pcp := rest, buddy := s.buddy.setPage frame tagOne,
              usableFrames := s.usableFrames - 1 }, some frame)

/-- The search of frame_pcp_refill: buddy_alloc at order 4, then 3, ..., 0,
until one succeeds; the order reached is returned with the block. -/
def refillSearch (b : BuddyAllocator) : Nat → BuddyAllocator × Option Nat × Nat
  | 0 => ((buddyAlloc b 0).1, (buddyAlloc b 0).2, 0)
  | order + 1 =>
    match (buddyAlloc b (order + 1)).2 with
    | some first => ((buddyAlloc b (order + 1)).1, some first, order + 1)
    | none => refillSearch (buddyAlloc b (order + 1)).1 order

/-- The rest of frame_pcp_refill once buddy_alloc returned the block [first,
first + 2^order) into b: split it into order-0 pages, give the first one
reference and cache the others. -/
def refillBlock (s : FrameAllocator) (b : BuddyAllocator) (first order : Nat) :
    FrameAllocator × Option Nat :=
  let units := 2 ^ order
  let r := buddyTrimAllocation b first order units
  if r.2 ≠ 0 then ({ s with buddy := (buddyFree r.1 first order).1 }, none)
  else
    let b := r.1.setPages first units fun p => { p with tag := 0 }
    let s := { s with buddy := b.setPage first tagOne, usableFrames := s.usableFrames - 1 }
    ((List.range' (first + 1) (units - 1)).foldl pcpPut s, some first)

/-- frame_pcp_refill: allocate a block of up to 16 pages, split it into order-0
pages, hand out the first with one reference and cache the rest. -/
def pcpRefill (s : FrameAllocator) : FrameAllocator × Option Nat :=
  match refillSearch s.buddy 4 with
  | (b, none, _) => ({ s with buddy := b }, none)
  | (b, some first, order) => refillBlock s b first order

/-! ## Allocation -/

/-- The single-frame path of alloc_frames_aligned: pop the cache, else refill
it, else drain every cache and refill once more. -/
def allocOne (s : FrameAllocator) : FrameAllocator × Option Nat :=
  match pcpPop s with
  | (s, some f) => (s, some f)
  | (s, none) =>
    match pcpRefill s with
    | (s, some f) => (s, some f)
    | (s, none) => pcpRefill (pcpDrainAll s)

/-- The end of the block path of alloc_frames_aligned, once buddy_alloc
returned the block [index, index + 2^order): trim it to count order-0 pages,
give each one reference and take them off usable_frames. -/
def takeBlock (s : FrameAllocator) (index order count : Nat) : FrameAllocator × Nat :=
  let t := buddyTrimAllocation s.buddy index order count
  if t.2 ≠ 0 then ({ s with buddy := (buddyFree t.1 index order).1 }, 0)
  else
    ({ s with buddy := t.1.setPages index count tagOne,
              usableFrames := s.usableFrames - count }, index * page4kSize)

/-- alloc_frames_aligned: count frames at an alignment of 2^alignment_order
frames; the physical address of the first, or 0.  Single unaligned frames
come from the cache; everything else is a buddy block trimmed to count
order-0 pages of one reference each. -/
def allocFramesAligned (s : FrameAllocator) (count alignmentOrder : Nat) : FrameAllocator × Nat :=
  if count = 0 then (s, 0)
  else if buddyOrderForUnits count > buddyMaxOrder then (s, 0)
  else
    let order := if alignmentOrder > buddyOrderForUnits count then alignmentOrder
      else buddyOrderForUnits count
    if count = 1 ∧ alignmentOrder = 0 then
      let r := allocOne s
      (r.1, match r.2 with | some f => f * page4kSize | none => 0)
    else
      -- a failed buddy_alloc drains the caches and tries once more
      let r := match buddyAlloc s.buddy order with
        | (b, some i) => ({ s with buddy := b }, some i)
        | (b, none) =>
          let s := pcpDrainAll { s with buddy := b }
          ({ s with buddy := (buddyAlloc s.buddy order).1 }, (buddyAlloc s.buddy order).2)
      match r with
      | (s, none) => (s, 0)
      | (s, some i) => takeBlock s i order count

/-- alloc_frames (and alloc_frames_noreclaim). -/
def allocFrames (s : FrameAllocator) (count : Nat) : FrameAllocator × Nat :=
  allocFramesAligned s count 0

/-- alloc_frames_2M: count 2 MiB pages, 512 frames each, 2 MiB aligned. -/
def allocFrames2M (s : FrameAllocator) (count : Nat) : FrameAllocator × Nat :=
  if count = 0 ∨ count > sizeMax / 512 then (s, 0) else allocFramesAligned s (count * 512) 9

/-- alloc_frames_1G: count 1 GiB pages, 262144 frames each, 1 GiB aligned. -/
def allocFrames1G (s : FrameAllocator) (count : Nat) : FrameAllocator × Nat :=
  if count = 0 ∨ count > sizeMax / 262144 then (s, 0)
  else allocFramesAligned s (count * 262144) 18

/-! ## Reference counts -/

/-- The argument checks shared by frame_retain_range and frame_release_range:
a non-null, page-aligned address whose count frames are all managed. -/
def rangeArgsValid (s : FrameAllocator) (addr count : Nat) : Bool :=
  addr ≠ 0 ∧ count ≠ 0 ∧ addr % page4kSize = 0 ∧ addr / page4kSize < s.frameCount ∧
    count ≤ s.frameCount - addr / page4kSize

/-- frame_retain_range: add one reference to each frame of an allocated range;
every frame must be an order-0 head holding between 1 and UINT32_MAX - 1
references. -/
def frameRetainRange (s : FrameAllocator) (addr count : Nat) : FrameAllocator × Int :=
  if !rangeArgsValid s addr count then (s, -1)
  else
    let index := addr / page4kSize
    if (List.range' index count).any (fun j =>
        (s.buddy.pages j).state ≠ .allocHead ∨ (s.buddy.pages j).order ≠ 0 ∨
          (s.buddy.pages j).tag = 0 ∨ (s.buddy.pages j).tag = uint32Max) then (s, -1)
    else ({ s with buddy := s.buddy.setPages index count fun p => { p with tag := p.tag + 1 } }, 0)

/-- One iteration of the first loop of frame_release_range: drop a reference;
a frame that reaches zero is marked in its reserved field for the hand-off to
the cache and counted. -/
def releaseStep (acc : BuddyAllocator × Nat) (j : Nat) : BuddyAllocator × Nat :=
  let b := acc.1.setPage j fun p => { p with tag := p.tag - 1 }
  if (b.pages j).tag = 0 then (b.setPage j fun p => { p with reserved := 1 }, acc.2 + 1)
  else (b, acc.2)

/-- One iteration of the second loop of frame_release_range: take the hand-off
mark back and cache a frame that carried it. -/
def handoffStep (s : FrameAllocator) (j : Nat) : FrameAllocator :=
  let marked := (s.buddy.pages j).reserved ≠ 0
  let s := { s with buddy := s.buddy.setPage j fun p => { p with reserved := 0 } }
  if marked then pcpPut s j else s

/-- frame_release_range: drop one reference from each frame of an allocated
range; frames left without references count as free again and go to the
cache. -/
def frameReleaseRange (s : FrameAllocator) (addr count : Nat) : FrameAllocator × Int :=
  if !rangeArgsValid s addr count then (s, -1)
  else
    let index := addr / page4kSize
    if (List.range' index count).any (fun j =>
        (s.buddy.pages j).state ≠ .allocHead ∨ (s.buddy.pages j).order ≠ 0 ∨
          (s.buddy.pages j).tag = 0) then (s, -1)
    else
      let r := (List.range' index count).foldl releaseStep (s.buddy, 0)
      let s := { s with buddy := r.1, usableFrames := s.usableFrames + r.2 }
      if r.2 = 0 then (s, 0) else ((List.range' index count).foldl handoffStep s, 0)

/-! ## Validation -/

/-- frame_validate: drain the caches, then buddy_validate and compare
usable_frames with the buddy's free pages. -/
def frameValidate (s : FrameAllocator) : FrameAllocator × Int :=
  let s := pcpDrainAll s
  let r := buddyValidate s.buddy
  (s, if r = 0 ∧ s.usableFrames ≠ s.buddy.freePages then -1 else r)

end Uinxed.Frame
