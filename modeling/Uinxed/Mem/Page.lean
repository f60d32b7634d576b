/-
  Mem/Page.lean --- fork's copy-on-write clone of the user page tables, and
  its rollback, from src/mem/page.c.

  page_clone_user_cow walks the parent's PML4 user half.  For each present
  entry it allocates a child PDPT and calls clone_table_cow, which walks a
  table: a swap entry at the PTE level has its slot retained and is copied
  copy-on-write, a leaf (a PTE, or a 2 MiB or 1 GiB huge entry) has its frames
  retained and is copied copy-on-write, and an entry naming a lower table gets
  a freshly allocated, cleared child table and a recursive clone.  Only when
  the whole walk succeeds are the parent's leaves marked copy-on-write.  On any
  failure the child is torn down by destroy_user_entries, which walks the
  child's tables and releases what they name.

  A recursive clone that fails returns to its caller, which frees the child
  table with free_frames and clears the entry naming it.  free_frames drops
  the one reference of that table page and nothing else: the entries the
  failed clone already filled in, the frames and slots they retained and the
  lower tables they name, are no longer reachable from the child, so the
  rollback never releases them.  A fork that runs out of frames after the
  first page table of a page directory has been copied leaves its frames with
  one reference more than the PTEs that map them, and the copied page table
  allocated with nothing naming it.

  Physical memory is a map from a page-table page's address to its entries;
  a frame's reference count is the tag of its buddy page, and a frame with a
  non-zero tag stands for an allocated order-0 head; frame_count's bound on
  addresses is left out.  alloc_frames(1) hands out the frames of a list in
  order, and a released frame is not handed out again.  One swap area is
  active.
-/
import Uinxed.Mem.Swap

set_option autoImplicit false

namespace Uinxed.Page

open Uinxed.Swap (SlotMap areaRetainEntry cowLeafValue page4kMask pteHuge ptePresent swapEntryIsSwap)

/-! ## Leaves -/

/-- PAGE_2M_MASK and PAGE_1G_MASK. -/
def page2mMask : UInt64 := 0x000fffffffe00000
def page1gMask : UInt64 := 0x000fffffc0000000

/-- leaf_address_mask. -/
def leafAddressMask (level : Nat) : UInt64 :=
  if level = 3 then page1gMask else if level = 2 then page2mMask else page4kMask

/-- leaf_frame_count. -/
def leafFrameCount (level : Nat) : Nat :=
  if level = 3 then 0x40000000 / 0x1000 else if level = 2 then 0x200000 / 0x1000 else 1

/-- The frame of a table entry: value & PAGE_4K_MASK. -/
def entryFrame (value : UInt64) : Nat := (value &&& page4kMask).toNat

/-- Whether an entry at the given level maps a leaf rather than a lower
table (level == 1 || (value & PTE_HUGE)). -/
def isLeaf (level : Nat) (value : UInt64) : Bool := level = 1 || value &&& pteHuge != 0

/-! ## Physical memory -/

/-- The entries of every page-table page, by its physical address, the
reference count of every frame, the frames alloc_frames(1) hands out next,
and the one active swap area's type and slot map. -/
structure PageWorld where
  tables : Nat → Nat → UInt64
  refs : Nat → Nat
  freeFrames : List Nat
  swapType : UInt64
  slots : SlotMap

namespace PageWorld

/-- Store one entry of one table. -/
def setEntry (w : PageWorld) (table i : Nat) (v : UInt64) : PageWorld :=
  { w with tables := fun t j => if t = table ∧ j = i then v else w.tables t j }

/-- page_table_clear. -/
def clearTable (w : PageWorld) (table : Nat) : PageWorld :=
  { w with tables := fun t j => if t = table then 0 else w.tables t j }

@[simp] theorem setEntry_refs (w : PageWorld) (table i : Nat) (v : UInt64) :
    (w.setEntry table i v).refs = w.refs := rfl

@[simp] theorem setEntry_freeFrames (w : PageWorld) (table i : Nat) (v : UInt64) :
    (w.setEntry table i v).freeFrames = w.freeFrames := rfl

@[simp] theorem setEntry_slots (w : PageWorld) (table i : Nat) (v : UInt64) :
    (w.setEntry table i v).slots = w.slots := rfl

@[simp] theorem setEntry_swapType (w : PageWorld) (table i : Nat) (v : UInt64) :
    (w.setEntry table i v).swapType = w.swapType := rfl

/-- Storing the value an entry already holds changes nothing. -/
theorem setEntry_of_eq {w : PageWorld} {table i : Nat} {v : UInt64} (h : w.tables table i = v) :
    w.setEntry table i v = w := by
  cases w with
  | mk tables refs freeFrames swapType slots =>
    simp only [setEntry, mk.injEq, and_true]
    funext t j
    split_ifs with htj
    · obtain ⟨rfl, rfl⟩ := htj
      exact h.symm
    · rfl

end PageWorld

/-- alloc_frames(1): the next frame, with one reference; none for 0. -/
def allocFrame (w : PageWorld) : Option (PageWorld × Nat) :=
  match w.freeFrames with
  | [] => none
  | f :: fs => some ({ w with freeFrames := fs, refs := fun g => if g = f then 1 else w.refs g }, f)

/-- The 4 KiB frames of the range of count frames from addr. -/
def inFrameRange (addr count f : Nat) : Prop := addr ≤ f ∧ f < addr + count * 0x1000 ∧ f % 0x1000 = 0

instance (addr count f : Nat) : Decidable (inFrameRange addr count f) :=
  inferInstanceAs (Decidable (_ ∧ _))

/-- frame_retain_range; none for -1, which changes nothing. -/
def frameRetainRange (w : PageWorld) (addr count : Nat) : Option PageWorld :=
  if addr = 0 ∨ count = 0 ∨ addr % 0x1000 ≠ 0 then none
  else if (List.range count).any fun i => w.refs (addr + i * 0x1000) == 0 || w.refs (addr + i * 0x1000) == 4294967295 then
    none
  else some { w with refs := fun f => if inFrameRange addr count f then w.refs f + 1 else w.refs f }

/-- frame_release_range, and free_frames; its -1 changes nothing. -/
def frameReleaseRange (w : PageWorld) (addr count : Nat) : PageWorld :=
  if addr = 0 ∨ count = 0 ∨ addr % 0x1000 ≠ 0 then w
  else if (List.range count).any fun i => w.refs (addr + i * 0x1000) == 0 then w
  else { w with refs := fun f => if inFrameRange addr count f then w.refs f - 1 else w.refs f }

@[simp] theorem frameReleaseRange_tables (w : PageWorld) (addr count : Nat) :
    (frameReleaseRange w addr count).tables = w.tables := by
  unfold frameReleaseRange
  split_ifs <;> rfl

/-- swap_entry_retain_pte (retain) or swap_entry_release_pte; none for -1. -/
def swapEntryRetain (w : PageWorld) (pte : UInt64) (retain : Bool) : Option PageWorld :=
  (areaRetainEntry w.swapType w.slots pte retain).map fun m => { w with slots := m }

/-! ## The table walks -/

/-- A loop over table entries whose body may return -1: the body runs on
each index in turn until it fails, and what it did before stays. -/
def forEntries {σ : Type} (body : Nat → σ → σ × Bool) : List Nat → σ → σ × Bool
  | [], s => (s, true)
  | i :: is, s =>
    let (s, ok) := body i s
    if ok then forEntries body is s else (s, false)

/-- One entry i of clone_table_cow(dst, src, level); clone is the recursive
call on a lower table.  false for -1. -/
def cloneEntryCow (clone : PageWorld → Nat → Nat → PageWorld × Bool) (level dst src i : Nat)
    (w : PageWorld) : PageWorld × Bool :=
  let value := w.tables src i
  if value &&& ptePresent = 0 then
    if level = 1 ∧ swapEntryIsSwap value then
      match swapEntryRetain w value true with
      | some w => (w.setEntry dst i (cowLeafValue value), true)
      | none => (w, false)
    else (w, true)
  else if isLeaf level value then
    match frameRetainRange w (value &&& leafAddressMask level).toNat (leafFrameCount level) with
    | some w => (w.setEntry dst i (cowLeafValue value), true)
    | none => (w, false)
  else
    match allocFrame w with
    | none => (w, false)
    | some (w, tableFrame) =>
      let w := (w.clearTable tableFrame).setEntry dst i (tableFrame.toUInt64 ||| (value &&& ~~~page4kMask))
      let (w, ok) := clone w tableFrame (entryFrame value)
      -- free_frames(table_frame, 1) and clear the entry: the failed clone's
      -- own retains stay
      if ok then (w, true) else ((frameReleaseRange w tableFrame 1).setEntry dst i 0, false)

/-- clone_table_cow(dst, src, level). -/
def cloneTableCow : Nat → PageWorld → Nat → Nat → PageWorld × Bool
  | 0, w, _, _ => (w, true)
  | level + 1, w, dst, src =>
    forEntries (cloneEntryCow (cloneTableCow level) (level + 1) dst src) (List.range 512) w

/-- One entry i of mark_parent_table_cow(table, level). -/
def markEntryCow (mark : PageWorld → Nat → PageWorld) (level table i : Nat) (w : PageWorld) :
    PageWorld :=
  let value := w.tables table i
  if value &&& ptePresent = 0 then
    if level = 1 ∧ swapEntryIsSwap value then w.setEntry table i (cowLeafValue value) else w
  else if isLeaf level value then w.setEntry table i (cowLeafValue value)
  else mark w (entryFrame value)

/-- mark_parent_table_cow(table, level). -/
def markParentTableCow : Nat → PageWorld → Nat → PageWorld
  | 0, w, _ => w
  | level + 1, w, table =>
    (List.range 512).foldl (fun w i => markEntryCow (markParentTableCow level) (level + 1) table i w) w

/-- One entry i of destroy_table(table, level). -/
def destroyEntry (destroy : PageWorld → Nat → PageWorld) (level table i : Nat) (w : PageWorld) :
    PageWorld :=
  let value := w.tables table i
  if value &&& ptePresent = 0 then
    let w := if level = 1 ∧ swapEntryIsSwap value then (swapEntryRetain w value false).getD w else w
    w.setEntry table i 0
  else if isLeaf level value then
    (frameReleaseRange w (value &&& leafAddressMask level).toNat (leafFrameCount level)).setEntry table i 0
  else (destroy w (entryFrame value)).setEntry table i 0

/-- destroy_table(table, level): release what every entry names, then the
table page itself. -/
def destroyTable : Nat → PageWorld → Nat → PageWorld
  | 0, w, _ => w
  | level + 1, w, table =>
    frameReleaseRange
      ((List.range 512).foldl (fun w i => destroyEntry (destroyTable level) (level + 1) table i w) w) table 1

/-- destroy_user_entries on the directory whose PML4 is at pml4. -/
def destroyUserEntries (w : PageWorld) (pml4 : Nat) : PageWorld :=
  (List.range 256).foldl (fun w i =>
    let value := w.tables pml4 i
    if value &&& ptePresent = 0 then w.setEntry pml4 i 0
    else if value &&& pteHuge = 0 then (destroyTable 3 w (entryFrame value)).setEntry pml4 i 0
    else w.setEntry pml4 i 0) w

/-- One PML4 entry i of page_clone_user_cow's copy loop; false for goto
rollback. -/
def clonePml4Entry (child parent i : Nat) (w : PageWorld) : PageWorld × Bool :=
  let value := w.tables parent i
  if value &&& ptePresent = 0 then (w, true)
  else if value &&& pteHuge ≠ 0 then (w, false)
  else
    match allocFrame w with
    | none => (w, false)
    | some (w, pdpt) =>
      let w := (w.clearTable pdpt).setEntry child i (pdpt.toUInt64 ||| (value &&& ~~~page4kMask))
      cloneTableCow 3 w pdpt (entryFrame value)

/-- page_clone_user_cow(child, parent) for the directories whose PML4s are at
child and parent; false for -1. -/
def pageCloneUserCow (w : PageWorld) (child parent : Nat) : PageWorld × Bool :=
  if child = 0 ∨ parent = 0 ∨ child = parent then (w, false)
  else if (List.range 256).any fun i => w.tables child i != 0 then (w, false)
  else
    match forEntries (clonePml4Entry child parent) (List.range 256) w with
    | (w, true) =>
      ((List.range 256).foldl (fun w i =>
        let value := w.tables parent i
        if value &&& ptePresent ≠ 0 ∧ value &&& pteHuge = 0 then markParentTableCow 3 w (entryFrame value)
        else w) w, true)
    | (w, false) => (destroyUserEntries w child, false)

/-! ## What the page tables account for -/

/-- The present leaves of the subtree of a table at the given level that map
frame f, a huge leaf counted once for each 4 KiB frame it covers. -/
def leafMappings : Nat → PageWorld → Nat → Nat → Nat
  | 0, _, _, _ => 0
  | level + 1, w, table, f =>
    ((List.range 512).map fun i =>
      let value := w.tables table i
      if value &&& ptePresent = 0 then 0
      else if isLeaf (level + 1) value then
        if inFrameRange (value &&& leafAddressMask (level + 1)).toNat (leafFrameCount (level + 1)) f then 1
        else 0
      else leafMappings level w (entryFrame value) f).sum

/-- The present user leaves of a directory that map frame f. -/
def userLeafMappings (w : PageWorld) (pml4 f : Nat) : Nat :=
  ((List.range 256).map fun i =>
    let value := w.tables pml4 i
    if value &&& ptePresent = 0 ∨ value &&& pteHuge ≠ 0 then 0 else leafMappings 3 w (entryFrame value) f).sum

/-- The entries of a directory's user half, and of the tables below them,
that name table page t. -/
def tableMappings : Nat → PageWorld → Nat → Nat → Nat
  | 0, _, _, _ => 0
  | level + 1, w, table, t =>
    ((List.range 512).map fun i =>
      let value := w.tables table i
      if value &&& ptePresent = 0 ∨ isLeaf (level + 1) value then 0
      else (if entryFrame value = t then 1 else 0) + tableMappings level w (entryFrame value) t).sum

/-- The entries of a directory's user half that name table page t, at any
level. -/
def userTableMappings (w : PageWorld) (pml4 t : Nat) : Nat :=
  ((List.range 256).map fun i =>
    let value := w.tables pml4 i
    if value &&& ptePresent = 0 ∨ value &&& pteHuge ≠ 0 then 0
    else (if entryFrame value = t then 1 else 0) + tableMappings 3 w (entryFrame value) t).sum

/-! ## The rollback -/

/-- page_clone_user_cow on an empty child directory whose copy loop gives up:
the rollback runs on the world the copy loop leaves. -/
theorem pageCloneUserCow_of_copy_fails (w : PageWorld) (child parent : Nat) (hc : child ≠ 0) (hp : parent ≠ 0)
    (hne : child ≠ parent) (hempty : ∀ i < 256, w.tables child i = 0) (w' : PageWorld)
    (hcopy : forEntries (clonePml4Entry child parent) (List.range 256) w = (w', false)) :
    pageCloneUserCow w child parent = (destroyUserEntries w' child, false) := by
  have hany : ((List.range 256).any fun i => w.tables child i != 0) = false := by
    simp only [List.any_eq_false, List.mem_range, bne_iff_ne, ne_eq, Decidable.not_not]
    exact hempty
  simp only [pageCloneUserCow, hc, hp, hne, or_self, if_false, hany, Bool.false_eq_true, hcopy]

/-! ## Entries that are clear -/

/-- swap_entry_is_swap(0) is false. -/
theorem swapEntryIsSwap_zero : swapEntryIsSwap 0 = false := by decide

/-- destroy_table stores 0 over a clear entry, which changes nothing. -/
theorem destroyEntry_of_zero (destroy : PageWorld → Nat → PageWorld) (level table i : Nat) (w : PageWorld)
    (h : w.tables table i = 0) : destroyEntry destroy level table i w = w := by
  simp [destroyEntry, h, swapEntryIsSwap_zero, PageWorld.setEntry_of_eq h]

/-- destroy_table of a table whose entries are all clear releases the table
page alone. -/
theorem destroyTable_of_zero (level : Nat) (w : PageWorld) (table : Nat)
    (h : ∀ i < 512, w.tables table i = 0) :
    destroyTable (level + 1) w table = frameReleaseRange w table 1 := by
  -- the loop over the entries keeps w, entry by entry
  have hloop : ∀ is : List Nat, (∀ i ∈ is, w.tables table i = 0) →
      is.foldl (fun w i => destroyEntry (destroyTable level) (level + 1) table i w) w = w := by
    intro is his
    induction is with
    | nil => rfl
    | cons i is ih =>
      rw [List.foldl_cons, destroyEntry_of_zero _ _ _ _ _ (his i List.mem_cons_self)]
      exact ih fun j hj => his j (List.mem_cons_of_mem _ hj)
  rw [destroyTable, hloop _ fun i hi => h i (List.mem_range.mp hi)]

/-- destroy_user_entries of a directory whose first user entry names a table
with every entry clear, and whose other user entries are clear: that table
page is released and the first entry cleared. -/
theorem destroyUserEntries_of_first (w : PageWorld) (pml4 : Nat)
    (hp : w.tables pml4 0 &&& ptePresent ≠ 0) (hh : w.tables pml4 0 &&& pteHuge = 0)
    (hz : ∀ i < 512, w.tables (entryFrame (w.tables pml4 0)) i = 0)
    (hrest : ∀ i < 256, 0 < i → w.tables pml4 i = 0) :
    destroyUserEntries w pml4 = (frameReleaseRange w (entryFrame (w.tables pml4 0)) 1).setEntry pml4 0 0 := by
  have hsplit : List.range 256 = 0 :: List.range' 1 255 := by
    rw [List.range_eq_range']
    rfl
  -- the first entry: its table is destroyed, then it is cleared
  have hfirst : destroyUserEntries w pml4 = (List.range' 1 255).foldl (fun w i =>
      let value := w.tables pml4 i
      if value &&& ptePresent = 0 then w.setEntry pml4 i 0
      else if value &&& pteHuge = 0 then (destroyTable 3 w (entryFrame value)).setEntry pml4 i 0
      else w.setEntry pml4 i 0) ((frameReleaseRange w (entryFrame (w.tables pml4 0)) 1).setEntry pml4 0 0) := by
    rw [destroyUserEntries, hsplit, List.foldl_cons]
    simp only [hp, hh, if_false, if_true, destroyTable_of_zero 2 w _ hz]
  -- the other entries are clear, in the world after the first as before
  have hclear : ∀ i ∈ List.range' 1 255,
      ((frameReleaseRange w (entryFrame (w.tables pml4 0)) 1).setEntry pml4 0 0).tables pml4 i = 0 := by
    intro i hi
    have hi' := List.mem_range'_1.mp hi
    simp only [PageWorld.setEntry, frameReleaseRange_tables]
    rw [if_neg (by omega)]
    exact hrest i (by omega) (by omega)
  rw [hfirst]
  generalize (frameReleaseRange w (entryFrame (w.tables pml4 0)) 1).setEntry pml4 0 0 = w₁ at hclear ⊢
  generalize List.range' 1 255 = is at hclear ⊢
  induction is with
  | nil => rfl
  | cons i is ih =>
    have hi := hclear i List.mem_cons_self
    rw [List.foldl_cons]
    simp only [hi, UInt64.zero_and, if_true, PageWorld.setEntry_of_eq hi]
    exact ih fun j hj => hclear j (List.mem_cons_of_mem _ hj)

/-! ## A fork that runs out of frames -/

/-- A parent directory with its PML4 at 0x1000: one PDPT (0x2000), one page
directory (0x3000) naming two page tables (0x4000 and 0x5000), each mapping
one private writable page (frames 0x10000 and 0x11000).  Every frame in use
has one reference.  The child's PML4 (0x8000) is empty, and alloc_frames has
three frames left. -/
def forkOomStart : PageWorld :=
  { tables := fun t i =>
      if t = 0x1000 ∧ i = 0 then 0x2007
      else if t = 0x2000 ∧ i = 0 then 0x3007
      else if t = 0x3000 ∧ i = 0 then 0x4007
      else if t = 0x3000 ∧ i = 1 then 0x5007
      else if t = 0x4000 ∧ i = 0 then 0x10007
      else if t = 0x5000 ∧ i = 0 then 0x11007
      else 0,
    refs := fun f =>
      if f = 0x1000 ∨ f = 0x2000 ∨ f = 0x3000 ∨ f = 0x4000 ∨ f = 0x5000 ∨ f = 0x8000 ∨
        f = 0x10000 ∨ f = 0x11000 then 1 else 0,
    freeFrames := [0x20000, 0x21000, 0x22000],
    swapType := 0, slots := SlotMap.init 0 }

set_option maxRecDepth 20000 in
/-- The fork copies the PDPT, the page directory and the first page table,
then finds no frame for the second page table and rolls back.  Afterwards
frame 0x10000 has two references and is still mapped by the parent's PTE
alone, and the copied page table 0x22000 keeps its reference with no entry of
either directory naming it; the child's user half is empty. -/
theorem pageCloneUserCow_oom_leaks_references :
    (pageCloneUserCow forkOomStart 0x8000 0x1000).2 = false ∧
      ((pageCloneUserCow forkOomStart 0x8000 0x1000).1.refs 0x10000,
        userLeafMappings (pageCloneUserCow forkOomStart 0x8000 0x1000).1 0x1000 0x10000 +
          userLeafMappings (pageCloneUserCow forkOomStart 0x8000 0x1000).1 0x8000 0x10000) = (2, 1) ∧
      ((pageCloneUserCow forkOomStart 0x8000 0x1000).1.refs 0x22000,
        userTableMappings (pageCloneUserCow forkOomStart 0x8000 0x1000).1 0x1000 0x22000 +
          userTableMappings (pageCloneUserCow forkOomStart 0x8000 0x1000).1 0x8000 0x22000) = (1, 0) ∧
      forkOomStart.refs 0x10000 = 1 ∧ forkOomStart.refs 0x22000 = 0 ∧
      (List.range 256).all (fun i => (pageCloneUserCow forkOomStart 0x8000 0x1000).1.tables 0x8000 i == 0) := by
  -- the copy loop gives up in the page directory; the rollback finds the
  -- child's PDPT with its one entry already cleared
  have hcopy : forEntries (clonePml4Entry 0x8000 0x1000) (List.range 256) forkOomStart =
      ((forEntries (clonePml4Entry 0x8000 0x1000) (List.range 256) forkOomStart).1, false) :=
    Prod.ext rfl (by decide +kernel)
  rw [pageCloneUserCow_of_copy_fails forkOomStart 0x8000 0x1000 (by decide) (by decide) (by decide) (by decide) _ hcopy,
    destroyUserEntries_of_first _ _ (by decide +kernel) (by decide) (by decide +kernel) (by decide +kernel)]
  decide +kernel

end Uinxed.Page
