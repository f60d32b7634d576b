/-
  Mem/Swap.lean --- swap slots, swap entries and paging out against fork, from
  src/mem/swap.c and the leaf level of page_clone_user_cow in src/mem/page.c.

  A swap area keeps a bitmap of used slots and a reference count per slot.
  swap_out_page allocates a slot, replaces the present PTE of the page by the
  swap entry of the slot tagged PTE_SWAP_BUSY, writes the page out without the
  directory lock, and then, if the PTE still holds exactly that busy entry,
  drops the busy tag and releases the frame; otherwise it releases the slot
  and leaves the PTE as it finds it.  fork (page_clone_user_cow) copies every
  swap entry into the child with swap_entry_retain_pte and then rewrites the
  parent's writable private leaves, swap entries included, to copy-on-write.

  Those two meet when fork runs while a writable page is being written out.
  The child gets a copy of the busy entry and a reference on the slot; the
  parent's busy entry is rewritten to its copy-on-write form; swap_out_page
  then finds the PTE changed and drops its own reference.  Two PTEs name the
  slot, both still busy, and the slot counts one reference; the frame that was
  written out is released by nobody.

  Page tables are represented by their leaf entries, a value per directory and
  page address (swap_pte_lookup finds the leaf when the upper levels exist,
  which the model takes for granted); frame_retain_range on a present leaf is
  taken to succeed.  A slot's bit of the bitmap is a Bool.
  One swap area is modelled; its I/O is a parameter of the second phase of
  swap_out_page.
-/
import Mathlib.Data.UInt
import Mathlib.Order.Interval.Finset.Nat

set_option autoImplicit false

namespace Uinxed.Swap

/-! ## PTE bits and the swap entry layout -/

/-- PTE_PRESENT, PTE_WRITEABLE, PTE_USER, PTE_ACCESSED, PTE_HUGE, PTE_COW,
PTE_SHARED and PTE_NO_EXECUTE. -/
def ptePresent : UInt64 := 1
def pteWriteable : UInt64 := 2
def pteUser : UInt64 := 4
def pteAccessed : UInt64 := 32
def pteHuge : UInt64 := 128
def pteCow : UInt64 := 512
def pteShared : UInt64 := 1024
def pteNoExecute : UInt64 := 0x8000000000000000

/-- PTE_SWAP and PTE_SWAP_BUSY. -/
def pteSwap : UInt64 := 0x800
def pteSwapBusy : UInt64 := 0x10000000000000

/-- SWAP_TYPE_SHIFT, SWAP_TYPE_MASK, SWAP_OFFSET_SHIFT, SWAP_OFFSET_MASK. -/
def swapTypeShift : UInt64 := 12
def swapTypeMask : UInt64 := 31
def swapOffsetShift : UInt64 := 17
def swapOffsetMask : UInt64 := 0x7ffffffff

/-- PAGE_4K_MASK. -/
def page4kMask : UInt64 := 0x000ffffffffff000

/-- The flags a swap entry keeps for the page's return. -/
def preservedFlags : UInt64 := pteWriteable ||| pteUser ||| pteCow ||| pteShared ||| pteNoExecute

/-- swap_entry_encode. -/
def swapEntryEncode (type : UInt64) (offset : UInt64) (pteFlags : UInt64) : UInt64 :=
  pteSwap ||| (pteFlags &&& preservedFlags) ||| ((type &&& swapTypeMask) <<< swapTypeShift) |||
    ((offset &&& swapOffsetMask) <<< swapOffsetShift)

/-- swap_entry_offset. -/
def swapEntryOffset (pte : UInt64) : UInt64 := (pte >>> swapOffsetShift) &&& swapOffsetMask

/-- swap_entry_type. -/
def swapEntryType (pte : UInt64) : UInt64 := (pte >>> swapTypeShift) &&& swapTypeMask

/-- swap_entry_is_swap. -/
def swapEntryIsSwap (pte : UInt64) : Bool :=
  pte &&& ptePresent == 0 && pte &&& pteSwap != 0 && swapEntryOffset pte != 0

/-- cow_leaf_value: a writable private leaf becomes read-only copy-on-write. -/
def cowLeafValue (value : UInt64) : UInt64 :=
  if value &&& pteWriteable != 0 ∧ value &&& pteShared = 0 then (value &&& ~~~pteWriteable) ||| pteCow
  else value

/-! ## The slot map -/

/-- swap_slot_map_t: the used bit and the reference count of every slot,
the slot count, the allocation cursor and the free count. -/
structure SlotMap where
  used : Nat → Bool
  refs : Nat → Nat
  slots : Nat
  clusterNext : Nat
  freeSlots : Nat

/-- swap_slot_map_init on a map of n slots. -/
def SlotMap.init (n : Nat) : SlotMap :=
  { used := fun _ => false, refs := fun _ => 0, slots := n, clusterNext := 1, freeSlots := n }

/-- The slot scanned after start + scanned, wrapping past the last slot. -/
def SlotMap.probe (m : SlotMap) (start scanned : Nat) : Nat :=
  if m.slots < start + scanned then start + scanned - m.slots else start + scanned

/-- swap_slot_alloc: the first free slot from the cursor on, with one
reference; 0 when every slot is used. -/
def swapSlotAlloc (m : SlotMap) : SlotMap × Nat :=
  if m.slots = 0 then (m, 0)
  else
    let start := if m.clusterNext < 1 ∨ m.slots < m.clusterNext then 1 else m.clusterNext
    match (List.range m.slots).find? (fun scanned => !m.used (m.probe start scanned)) with
    | some scanned =>
      let slot := m.probe start scanned
      ({ m with used := fun s => if s = slot then true else m.used s,
                refs := fun s => if s = slot then 1 else m.refs s,
                clusterNext := if slot = m.slots then 1 else slot + 1,
                freeSlots := m.freeSlots - 1 }, slot)
    | none => (m, 0)

/-- swap_slot_valid. -/
def SlotMap.valid (m : SlotMap) (slot : Nat) : Bool := decide (0 < slot ∧ slot ≤ m.slots)

/-- swap_slot_retain; none stands for -1. -/
def swapSlotRetain (m : SlotMap) (slot : Nat) : Option SlotMap :=
  if !m.valid slot || !m.used slot || m.refs slot = 0 || m.refs slot = 4294967295 then none
  else some { m with refs := fun s => if s = slot then m.refs slot + 1 else m.refs s }

/-- swap_slot_release; none stands for -1. -/
def swapSlotRelease (m : SlotMap) (slot : Nat) : Option SlotMap :=
  if !m.valid slot || !m.used slot || m.refs slot = 0 then none
  else
    let m := { m with refs := fun s => if s = slot then m.refs slot - 1 else m.refs s }
    if m.refs slot = 0 then
      some { m with used := fun s => if s = slot then false else m.used s, freeSlots := m.freeSlots + 1 }
    else some m

/-! ## The slot map's bookkeeping

A slot of 1..slots has its bit set exactly when it has references, no other
slot has any, and free_slots counts the clear bits.  swap_slot_map_init
establishes this, and swap_slot_alloc, swap_slot_retain and swap_slot_release
keep it. -/

/-- The slots of 1..slots whose bit is clear. -/
def SlotMap.freeSet (m : SlotMap) : Finset Nat := (Finset.Icc 1 m.slots).filter fun s => m.used s = false

/-- The invariant of a slot map. -/
structure SlotMap.Inv (m : SlotMap) : Prop where
  used_iff : ∀ s, m.used s = true ↔ 0 < m.refs s
  refs_in_range : ∀ s, 0 < m.refs s → 0 < s ∧ s ≤ m.slots
  free_eq : m.freeSlots = m.freeSet.card

theorem SlotMap.mem_freeSet {m : SlotMap} {s : Nat} :
    s ∈ m.freeSet ↔ 0 < s ∧ s ≤ m.slots ∧ m.used s = false := by
  simp only [freeSet, Finset.mem_filter, Finset.mem_Icc, and_assoc]
  exact Iff.rfl

/-- Setting a slot's bit takes it out of the free set. -/
theorem SlotMap.freeSet_mark_used {m m' : SlotMap} {slot : Nat} (hslots : m'.slots = m.slots)
    (hused : ∀ s, m'.used s = if s = slot then true else m.used s) : m'.freeSet = m.freeSet.erase slot := by
  ext s
  simp only [SlotMap.mem_freeSet, Finset.mem_erase, hslots, hused]
  by_cases hs : s = slot <;> simp [hs]

/-- Clearing the bit of a slot of 1..slots puts it in the free set. -/
theorem SlotMap.freeSet_mark_free {m m' : SlotMap} {slot : Nat} (hslots : m'.slots = m.slots)
    (hused : ∀ s, m'.used s = if s = slot then false else m.used s) (hr : 0 < slot ∧ slot ≤ m.slots) :
    m'.freeSet = insert slot m.freeSet := by
  ext s
  simp only [SlotMap.mem_freeSet, Finset.mem_insert, hslots, hused]
  by_cases hs : s = slot
  · subst hs
    simp [hr]
  · simp [hs]

theorem SlotMap.init_inv (n : Nat) : (SlotMap.init n).Inv where
  used_iff s := by simp [SlotMap.init]
  refs_in_range s h := by simp [SlotMap.init] at h
  free_eq := by
    have hall : (SlotMap.init n).freeSet = Finset.Icc 1 n := by
      ext s
      simp only [SlotMap.mem_freeSet, SlotMap.init, Finset.mem_Icc, and_true]
      omega
    rw [hall]
    simp [SlotMap.init]

/-- Every probe of the scan lies in 1..slots. -/
theorem SlotMap.probe_mem (m : SlotMap) {start scanned : Nat} (h1 : 1 ≤ start) (h2 : start ≤ m.slots)
    (hs : scanned < m.slots) : 0 < m.probe start scanned ∧ m.probe start scanned ≤ m.slots := by
  unfold SlotMap.probe
  split_ifs <;> omega

/-- The scan from any start in 1..slots visits every slot of 1..slots. -/
theorem SlotMap.exists_probe_eq (m : SlotMap) {start s : Nat} (h1 : 1 ≤ start) (h2 : start ≤ m.slots)
    (hs : 0 < s ∧ s ≤ m.slots) : ∃ scanned < m.slots, m.probe start scanned = s := by
  by_cases hle : start ≤ s
  · refine ⟨s - start, by omega, ?_⟩
    unfold SlotMap.probe
    rw [if_neg (by omega)]
    omega
  · refine ⟨s + m.slots - start, by omega, ?_⟩
    unfold SlotMap.probe
    rw [if_pos (by omega)]
    omega

/-- The start swap_slot_alloc scans from lies in 1..slots. -/
theorem SlotMap.start_mem (m : SlotMap) (hn : m.slots ≠ 0) :
    1 ≤ (if m.clusterNext < 1 ∨ m.slots < m.clusterNext then 1 else m.clusterNext) ∧
      (if m.clusterNext < 1 ∨ m.slots < m.clusterNext then 1 else m.clusterNext) ≤ m.slots := by
  split_ifs <;> omega

/-- The invariant carries over to a map that differs from an invariant one at
one slot only, once that slot's bit agrees with its references, its
references lie in range, and free_slots is right. -/
theorem SlotMap.Inv.of_update {m m' : SlotMap} {slot : Nat} (h : m.Inv)
    (hused : ∀ s, s ≠ slot → m'.used s = m.used s) (hrefs : ∀ s, s ≠ slot → m'.refs s = m.refs s)
    (hslot : m'.used slot = true ↔ 0 < m'.refs slot) (hrange : 0 < m'.refs slot → 0 < slot ∧ slot ≤ m.slots)
    (hslots : m'.slots = m.slots) (hfree : m'.freeSlots = m'.freeSet.card) : m'.Inv where
  used_iff s := by
    by_cases hs : s = slot
    · subst hs
      exact hslot
    · rw [hused s hs, hrefs s hs]
      exact h.used_iff s
  refs_in_range s hpos := by
    rw [hslots]
    by_cases hs : s = slot
    · subst hs
      exact hrange hpos
    · exact h.refs_in_range s (hrefs s hs ▸ hpos)
  free_eq := hfree

/-- swap_slot_alloc returns 0 exactly when every slot is used, and otherwise a
slot that was free, now used with one reference; the invariant holds after. -/
theorem swapSlotAlloc_spec {m : SlotMap} (h : m.Inv) :
    (swapSlotAlloc m).1.Inv ∧ ((swapSlotAlloc m).2 = 0 ↔ m.freeSet = ∅) ∧
      ((swapSlotAlloc m).2 ≠ 0 → (swapSlotAlloc m).2 ∈ m.freeSet ∧ (swapSlotAlloc m).1.refs (swapSlotAlloc m).2 = 1) := by
  unfold swapSlotAlloc
  by_cases hn : m.slots = 0
  · -- no slot at all: the free set is empty
    have hempty : m.freeSet = ∅ := by
      ext s
      simp only [SlotMap.mem_freeSet, Finset.notMem_empty, iff_false]
      omega
    simp [hn, h, hempty]
  obtain ⟨h1, h2⟩ := m.start_mem hn
  simp only [hn, if_false]
  generalize (if m.clusterNext < 1 ∨ m.slots < m.clusterNext then 1 else m.clusterNext) = start at h1 h2 ⊢
  cases hf : (List.range m.slots).find? (fun scanned => !m.used (m.probe start scanned)) with
  | none =>
    -- every probe, so every slot, is used
    have hall := List.find?_eq_none.mp hf
    have hempty : m.freeSet = ∅ := by
      ext s
      simp only [SlotMap.mem_freeSet, Finset.notMem_empty, iff_false]
      rintro ⟨hs0, hsn, hfree⟩
      obtain ⟨scanned, hlt, rfl⟩ := m.exists_probe_eq h1 h2 ⟨hs0, hsn⟩
      have := hall scanned (List.mem_range.mpr hlt)
      simp [hfree] at this
    simp [h, hempty]
  | some scanned =>
    have hlt := List.mem_range.mp (List.mem_of_find?_eq_some hf)
    have hfree : m.used (m.probe start scanned) = false := by
      simpa using List.find?_some hf
    obtain ⟨hp0, hpn⟩ := m.probe_mem h1 h2 hlt
    have hmem : m.probe start scanned ∈ m.freeSet := SlotMap.mem_freeSet.mpr ⟨hp0, hpn, hfree⟩
    dsimp only
    generalize m.probe start scanned = slot at hfree hp0 hpn hmem ⊢
    refine ⟨@SlotMap.Inv.of_update _ _ slot h (fun s hs => if_neg hs) (fun s hs => if_neg hs) (by simp)
      (fun _ => ⟨hp0, hpn⟩) rfl ?_, ?_, fun _ => ⟨hmem, by simp⟩⟩
    · -- the found slot leaves the free set
      rw [SlotMap.freeSet_mark_used (m := m) ?_ ?_, Finset.card_erase_of_mem hmem, h.free_eq]
      · rfl
      · exact fun s => rfl
    · constructor
      · omega
      · intro he
        rw [he] at hmem
        exact absurd hmem (Finset.notMem_empty _)

/-- swap_slot_retain keeps the invariant. -/
theorem swapSlotRetain_inv {m m' : SlotMap} {slot : Nat} (h : m.Inv) (hr : swapSlotRetain m slot = some m') :
    m'.Inv := by
  unfold swapSlotRetain at hr
  split at hr
  · cases hr
  rename_i hok
  simp only [Bool.or_eq_true, Bool.not_eq_eq_eq_not, Bool.not_true, decide_eq_true_eq, not_or] at hok
  obtain ⟨⟨⟨-, hused⟩, hpos⟩, -⟩ := hok
  cases hr
  -- one more reference on a used slot: its bit stays set
  have hset : m.used slot = true := (h.used_iff slot).mpr (Nat.pos_of_ne_zero hpos)
  exact @SlotMap.Inv.of_update _ _ slot h (fun s _ => rfl) (fun s hs => if_neg hs) (by simp [hset])
    (fun _ => h.refs_in_range slot (Nat.pos_of_ne_zero hpos)) rfl h.free_eq

/-- swap_slot_release keeps the invariant: the last reference clears the bit
and counts the slot free again. -/
theorem swapSlotRelease_inv {m m' : SlotMap} {slot : Nat} (h : m.Inv) (hr : swapSlotRelease m slot = some m') :
    m'.Inv := by
  unfold swapSlotRelease at hr
  split at hr
  · cases hr
  rename_i hok
  simp only [Bool.or_eq_true, Bool.not_eq_eq_eq_not, Bool.not_true, decide_eq_true_eq, not_or] at hok
  obtain ⟨⟨hvalid, hused⟩, hpos⟩ := hok
  have hrange : 0 < slot ∧ slot ≤ m.slots := by
    simpa [SlotMap.valid] using hvalid
  simp only [if_true] at hr
  split at hr
  · -- the last reference: the slot is free again
    rename_i hzero
    cases hr
    have hnot : slot ∉ m.freeSet := by
      simp [SlotMap.mem_freeSet, hused]
    refine @SlotMap.Inv.of_update _ _ slot h (fun s hs => if_neg hs) (fun s hs => if_neg hs) (by simp [hzero])
      (fun _ => hrange) rfl ?_
    rw [SlotMap.freeSet_mark_free (m := m) ?_ ?_ hrange, Finset.card_insert_of_notMem hnot, h.free_eq]
    · rfl
    · exact fun s => rfl
  · -- references remain: the bit stays set
    rename_i hnz
    cases hr
    exact @SlotMap.Inv.of_update _ _ slot h (fun s _ => rfl) (fun s hs => if_neg hs) (by simp [hused]; omega)
      (fun _ => hrange) rfl h.free_eq

/-- The operations on a slot map. -/
inductive SlotOp where
  | alloc
  | retain (slot : Nat)
  | release (slot : Nat)
  deriving DecidableEq, Repr

/-- One operation on a slot map; a retain or release that returns -1 leaves
the map as it is. -/
def slotStep (m : SlotMap) : SlotOp → SlotMap
  | .alloc => (swapSlotAlloc m).1
  | .retain slot => (swapSlotRetain m slot).getD m
  | .release slot => (swapSlotRelease m slot).getD m

/-- A sequence of slot map operations. -/
def runSlotOps (m : SlotMap) : List SlotOp → SlotMap
  | [] => m
  | op :: ops => runSlotOps (slotStep m op) ops

theorem slotStep_inv {m : SlotMap} (h : m.Inv) : ∀ op, (slotStep m op).Inv
  | .alloc => (swapSlotAlloc_spec h).1
  | .retain slot => by
    cases hr : swapSlotRetain m slot with
    | none => simpa [slotStep, hr] using h
    | some m' => simpa [slotStep, hr] using swapSlotRetain_inv h hr
  | .release slot => by
    cases hr : swapSlotRelease m slot with
    | none => simpa [slotStep, hr] using h
    | some m' => simpa [slotStep, hr] using swapSlotRelease_inv h hr

theorem runSlotOps_inv {m : SlotMap} (h : m.Inv) (ops : List SlotOp) : (runSlotOps m ops).Inv := by
  induction ops generalizing m with
  | nil => exact h
  | cons op ops ih => exact ih (slotStep_inv h op)

/-- Over any sequence of slot allocations, retains and releases from
swap_slot_map_init, a slot of 1..slots has its bit set exactly when it has
references, no other slot has any, free_slots counts the clear bits, and
swap_slot_alloc returns 0 exactly when no slot is free and otherwise a free
slot. -/
theorem swapSlot_bookkeeping_of_run (n : Nat) (ops : List SlotOp) :
    (runSlotOps (SlotMap.init n) ops).Inv ∧
      ((swapSlotAlloc (runSlotOps (SlotMap.init n) ops)).2 = 0 ↔ (runSlotOps (SlotMap.init n) ops).freeSet = ∅) ∧
      ((swapSlotAlloc (runSlotOps (SlotMap.init n) ops)).2 ≠ 0 →
        (swapSlotAlloc (runSlotOps (SlotMap.init n) ops)).2 ∈ (runSlotOps (SlotMap.init n) ops).freeSet) := by
  have h := runSlotOps_inv (SlotMap.init_inv n) ops
  obtain ⟨-, hzero, hfree⟩ := swapSlotAlloc_spec h
  exact ⟨h, hzero, fun hne => (hfree hne).1⟩

/-! ## Address spaces and the swap area -/

/-- The leaf PTEs of every directory, the frame reference counts, and one
active swap area with its type and slot map. -/
structure SwapWorld where
  ptes : Nat → Nat → UInt64
  frameRefs : Nat → Nat
  areaType : UInt64
  slots : SlotMap

/-- Write one leaf. -/
def SwapWorld.setPte (w : SwapWorld) (dir addr : Nat) (v : UInt64) : SwapWorld :=
  { w with ptes := fun d a => if d = dir ∧ a = addr then v else w.ptes d a }

/-- swap_area_retain_entry against the one active area, of the given type:
the slot map once the slot a swap entry names is retained or released; none
for -EINVAL. -/
def areaRetainEntry (areaType : UInt64) (m : SlotMap) (pte : UInt64) (retain : Bool) : Option SlotMap :=
  if !swapEntryIsSwap pte || swapEntryType pte != areaType then none
  else
    let slot := (swapEntryOffset pte).toNat
    if retain then swapSlotRetain m slot else swapSlotRelease m slot

/-- swap_area_retain_entry: retain or release the slot a swap entry names;
false for -EINVAL. -/
def swapAreaRetainEntry (w : SwapWorld) (pte : UInt64) (retain : Bool) : SwapWorld × Bool :=
  match areaRetainEntry w.areaType w.slots pte retain with
  | some m => ({ w with slots := m }, true)
  | none => (w, false)

/-- A swap-out between its two phases: the directory, the page, the slot, the
busy entry it stored and the present PTE it replaced. -/
structure SwapOut where
  dir : Nat
  addr : Nat
  slot : Nat
  entry : UInt64
  value : UInt64
  deriving DecidableEq, Repr

/-- swap_out_page up to the write: allocate a slot, check the page, store the
busy swap entry.  none when it returns early (the slot released again). -/
def swapOutBegin (w : SwapWorld) (dir addr : Nat) (force : Bool) : SwapWorld × Option SwapOut :=
  let (m, slot) := swapSlotAlloc w.slots
  let w := { w with slots := m }
  if slot = 0 then (w, none)
  else
    let value := w.ptes dir addr
    let release (w : SwapWorld) : SwapWorld := { w with slots := (swapSlotRelease w.slots slot).getD w.slots }
    if value &&& ptePresent = 0 ∨ value &&& pteUser = 0 ∨ value &&& (pteShared ||| pteHuge) ≠ 0 ∨
        w.frameRefs (value &&& page4kMask).toNat ≠ 1 then (release w, none)
    else if !force ∧ value &&& pteAccessed ≠ 0 then (release (w.setPte dir addr (value &&& ~~~pteAccessed)), none)
    else
      let entry := swapEntryEncode w.areaType slot.toUInt64 (value &&& ~~~page4kMask) ||| pteSwapBusy
      (w.setPte dir addr entry, some ⟨dir, addr, slot, entry, value⟩)

/-- The rest of swap_out_page once the write returned (ioOk): if the PTE is
still the busy entry, publish the swap entry and release the frame, or put
the page back on an I/O error; otherwise release the slot. -/
def swapOutFinish (w : SwapWorld) (op : SwapOut) (ioOk : Bool) : SwapWorld :=
  let frame := (op.value &&& page4kMask).toNat
  let releaseSlot (w : SwapWorld) : SwapWorld := { w with slots := (swapSlotRelease w.slots op.slot).getD w.slots }
  if w.ptes op.dir op.addr = op.entry then
    if ioOk then
      let w := w.setPte op.dir op.addr (op.entry &&& ~~~pteSwapBusy)
      { w with frameRefs := fun f => if f = frame then w.frameRefs f - 1 else w.frameRefs f }
    else releaseSlot (w.setPte op.dir op.addr op.value)
  else releaseSlot w

/-! ## fork, at the leaf level -/

/-- clone_table_cow on one leaf: a swap entry is retained and copied
copy-on-write, a present leaf has its frame retained and is copied
copy-on-write; false when a retain fails. -/
def cloneLeafCow (w : SwapWorld) (child parent addr : Nat) : SwapWorld × Bool :=
  let value := w.ptes parent addr
  if value &&& ptePresent = 0 then
    if swapEntryIsSwap value then
      let (w, ok) := swapAreaRetainEntry w value true
      if ok then (w.setPte child addr (cowLeafValue value), true) else (w, false)
    else (w, true)
  else
    let frame := (value &&& page4kMask).toNat
    let w := { w with frameRefs := fun f => if f = frame then w.frameRefs f + 1 else w.frameRefs f }
    (w.setPte child addr (cowLeafValue value), true)

/-- mark_parent_table_cow on one leaf. -/
def markParentLeafCow (w : SwapWorld) (parent addr : Nat) : SwapWorld :=
  let value := w.ptes parent addr
  if value &&& ptePresent = 0 then
    if swapEntryIsSwap value then w.setPte parent addr (cowLeafValue value) else w
  else w.setPte parent addr (cowLeafValue value)

/-- destroy_table on one leaf: release the swap slot or the frame it names and
clear it. -/
def destroyLeaf (w : SwapWorld) (dir addr : Nat) : SwapWorld :=
  let value := w.ptes dir addr
  if value &&& ptePresent = 0 then
    let w := if swapEntryIsSwap value then (swapAreaRetainEntry w value false).1 else w
    w.setPte dir addr 0
  else
    let frame := (value &&& page4kMask).toNat
    let w := { w with frameRefs := fun f => if f = frame then w.frameRefs f - 1 else w.frameRefs f }
    w.setPte dir addr 0

/-- page_clone_user_cow over the parent's leaves at the given addresses: clone
them all into the child, then mark the parent's copy-on-write; on a failed
retain, tear the child down again (destroy_user_entries). -/
def pageCloneUserCow (w : SwapWorld) (child parent : Nat) (addrs : List Nat) : SwapWorld × Bool :=
  let (w, ok) := addrs.foldl (fun (acc : SwapWorld × Bool) addr =>
    if acc.2 then cloneLeafCow acc.1 child parent addr else acc) (w, true)
  if ok then (addrs.foldl (fun w addr => markParentLeafCow w parent addr) w, true)
  else (addrs.foldl (fun w addr => destroyLeaf w child addr) w, false)

/-- The PTEs among the given directories and addresses that are swap entries
of the area naming slot. -/
def swapPtesNaming (w : SwapWorld) (dirs addrs : List Nat) (slot : Nat) : Nat :=
  (dirs.map fun d => (addrs.filter fun a =>
    swapEntryIsSwap (w.ptes d a) && swapEntryType (w.ptes d a) == w.areaType &&
      (swapEntryOffset (w.ptes d a)).toNat == slot).length).sum

/-! ## The failing run -/

/-- swap_out_page of a page of directory dir, with a successful write, and a
fork of dir into child between its two phases; none when the swap-out
returns before the write. -/
def swapOutAcrossFork (w : SwapWorld) (dir addr child : Nat) (addrs : List Nat) : Option SwapWorld :=
  let (w, op) := swapOutBegin w dir addr true
  op.map fun op => swapOutFinish (pageCloneUserCow w child dir addrs).1 op true

/-- A process (directory 0) with one writable private user page at address 0
in frame 0x5000, a swap area of type 0 with four free slots, and an empty
child directory 1. -/
def forkDuringSwapOutStart : SwapWorld :=
  { ptes := fun d a => if d = 0 ∧ a = 0 then 0x5000 ||| ptePresent ||| pteWriteable ||| pteUser else 0,
    frameRefs := fun f => if f = 0x5000 then 1 else 0,
    areaType := 0, slots := SlotMap.init 4 }

/-- swap_out_page stores the busy entry of slot 1, fork runs during the write,
and the write completes: both directories' PTEs name slot 1, still busy, no
swap-out is in progress, and the slot has one reference; frame 0x5000 keeps
its reference with nothing mapping it. -/
theorem swapOut_fork_loses_slot_reference :
    (swapOutAcrossFork forkDuringSwapOutStart 0 0 1 [0]).map (fun w =>
      (swapPtesNaming w [0, 1] [0] 1, w.slots.refs 1, w.slots.used 1,
        w.ptes 0 0 &&& pteSwapBusy != 0, w.ptes 1 0 &&& pteSwapBusy != 0, w.frameRefs 0x5000)) =
      some (2, 1, true, true, true, 1) := by
  decide

end Uinxed.Swap
