/-
  Mem/Frame/Init.lean --- init_frame of src/mem/frame.c.

  init_frame sizes the buddy from the highest usable address, places the page
  metadata at the top of the first usable region above 1 MiB that holds it,
  and adds every usable region to the buddy except frame 0 and the metadata
  frames.  When no region holds the metadata, or buddy_init refuses, it
  returns early and the allocator keeps its all-zero static state.

  Addresses are Nat: a usable entry ends below 2^64 on every machine, so
  base + length never wraps.  For the power-of-two alignments used here
  ALIGN_DOWN(x, a) = x & ~(a - 1) is x - x % a.  The halt on a missing memory
  map response is outside the model, which takes the entries as its input.
-/
import Uinxed.Mem.Frame.Basic

set_option autoImplicit false

namespace Uinxed.Frame

open Uinxed.Buddy

/-- struct limine_memmap_entry. -/
structure MemmapEntry where
  base : Nat
  length : Nat
  type : Nat
  deriving DecidableEq, Repr

/-- LIMINE_MEMMAP_USABLE. -/
def limineMemmapUsable : Nat := 0

/-- sizeof(buddy_page_t): next, prev and tag of 4 bytes, order and state of 1,
reserved of 2. -/
def buddyPageSize : Nat := 16

/-- ALIGN_DOWN for a power-of-two alignment. -/
def alignDown (addr align : Nat) : Nat := addr - addr % align

/-- ALIGN_UP for a power-of-two alignment. -/
def alignUp (addr align : Nat) : Nat := alignDown (addr + align - 1) align

/-- The first loop of init_frame: the highest end of a usable entry. -/
def memorySize (mm : List MemmapEntry) : Nat :=
  mm.foldl (fun size e =>
    if e.type = limineMemmapUsable ∧ e.base + e.length > size then e.base + e.length else size) 0

/-- The second loop of init_frame: the metadata goes at the top of the first
usable region above 1 MiB with room for it; 0 when there is none. -/
def metadataAddress (metadataSize : Nat) : List MemmapEntry → Nat
  | [] => 0
  | e :: rest =>
    if e.type ≠ limineMemmapUsable then metadataAddress metadataSize rest
    else
      let regionStart := alignUp (max e.base 0x100000) page4kSize
      let regionEnd := alignDown (e.base + e.length) page4kSize
      if regionStart ≥ regionEnd ∨ regionEnd - regionStart < metadataSize then
        metadataAddress metadataSize rest
      else alignDown (regionEnd - metadataSize) page4kSize

/-- The max_order init_frame passes to buddy_init: the order of frame_count,
lowered by one when it is too large.  (For frame_count 0 the source's unsigned
decrement wraps and buddy_init refuses; here buddy_init refuses the page count
0 instead, with the same outcome.) -/
def frameMaxOrder (frameCount : Nat) : Nat :=
  let maxOrder := buddyOrderForUnits frameCount
  if maxOrder > buddyMaxOrder ∨ 2 ^ maxOrder > frameCount then maxOrder - 1 else maxOrder

/-- One iteration of the third loop of init_frame: add the frames of a usable
entry to the buddy, without frame 0 (physical address zero is the failure
value) and without the metadata frames. -/
def addRegion (metadataStart metadataCount : Nat) (b : BuddyAllocator) (e : MemmapEntry) :
    BuddyAllocator :=
  if e.type ≠ limineMemmapUsable then b
  else
    let start := alignUp e.base page4kSize
    let stop := alignDown (e.base + e.length) page4kSize
    if start ≥ stop then b
    else
      let startFrame := if start / page4kSize = 0 then 1 else start / page4kSize
      let count := if start / page4kSize = 0 then (stop - start) / page4kSize - 1
        else (stop - start) / page4kSize
      if count = 0 then b
      else
        let rangeEnd := startFrame + count
        if metadataStart ≥ rangeEnd ∨ metadataStart + metadataCount ≤ startFrame then
          (buddyAddRange b startFrame count).1
        else
          -- the part below the metadata, then the part above it
          let b := if metadataStart > startFrame then
            (buddyAddRange b startFrame (metadataStart - startFrame)).1 else b
          let afterMetadata := metadataStart + metadataCount
          if afterMetadata < rangeEnd then (buddyAddRange b afterMetadata (rangeEnd - afterMetadata)).1
          else b

/-- init_frame: the frame allocator over the given memory map. -/
def initFrame (mm : List MemmapEntry) : FrameAllocator :=
  let frameCount := alignUp (memorySize mm) page4kSize / page4kSize
  let metadataSize := alignUp (frameCount * buddyPageSize) page4kSize
  let address := metadataAddress metadataSize mm
  if address = 0 then FrameAllocator.zero
  else
    match buddyInit frameCount (frameMaxOrder frameCount) with
    | none => FrameAllocator.zero
    | some b =>
      let b := mm.foldl (addRegion (address / page4kSize) (metadataSize / page4kSize)) b
      { buddy := b, frameCount := frameCount, usableFrames := b.freePages, pcp := [] }

/-- Two usable entries do not overlap; the boot protocol guarantees it for
every pair of entries of its memory map. -/
def UsableDisjoint (e f : MemmapEntry) : Prop :=
  e.type = limineMemmapUsable → f.type = limineMemmapUsable →
    e.base + e.length ≤ f.base ∨ f.base + f.length ≤ e.base

instance (e f : MemmapEntry) : Decidable (UsableDisjoint e f) :=
  inferInstanceAs (Decidable (_ → _ → _))

end Uinxed.Frame
