/-
  Process/Vma.lean --- the memory areas of a process and vm_area_insert
  (src/kernel/process/process.c, src/include/process/process.h).

  A process keeps its memory areas (vm_area_t) in mmap_list, linked in order
  of their start.  An area is a range [start, end) with its vm flags and region
  type, and what backs it: a file at a page offset, driver data with its get
  and put hooks, and whether it pins the file's page cache.  The list is a
  Lean list in the order of the links, and end is called stop.  A file and
  driver data are named by their identity: what the areas share is all a
  statement about them needs.

  MmapOk is the shape every operation on mmap_list keeps: each area is a
  non-empty, page-aligned range below PROCESS_USER_STACK_TOP, and each ends
  at or before the next one starts.  vm_area_insert walks past the areas that
  start below the new one and links it there unless it overlaps the area
  before or after it; it keeps MmapOk (MmapOk.vmAreaInsert) and adds the one
  area (vmAreaInsert_perm).
-/
import Mathlib.Algebra.GroupWithZero.Nat
import Mathlib.Data.List.Perm.Basic

set_option autoImplicit false

namespace Uinxed.Process

/-! ## Constants -/

/-- PAGE_4K_SIZE. -/
def page4kSize : Nat := 0x1000

/-- PROCESS_HEAP_START. -/
def processHeapStart : Nat := 0x100000

/-- PROCESS_USER_STACK_TOP = PROCESS_STACK_BASE. -/
def processUserStackTop : Nat := 0x7ffffffff000

/-- PROCESS_MMAP_BASE. -/
def processMmapBase : Nat := 0x7f0000000000

def eio : Int := 5
def enoexec : Int := 8
def enomem : Int := 12
def eexist : Int := 17
def einval : Int := 22

def uint64Max : Nat := 2 ^ 64 - 1

/-- ALIGN_DOWN(x, PAGE_4K_SIZE). -/
def alignDown (x : Nat) : Nat := x - x % page4kSize

/-- ALIGN_UP(x, PAGE_4K_SIZE). -/
def alignUp (x : Nat) : Nat := alignDown (x + page4kSize - 1)

/-- The values of va in for (va = lo; va < hi; va += PAGE_4K_SIZE). -/
def pageSteps (lo hi : Nat) : List Nat :=
  List.range' lo ((hi - lo + page4kSize - 1) / page4kSize) page4kSize

/-- vm_flags_t bits. -/
def vmRead : Nat := 0x1
def vmWrite : Nat := 0x2
def vmExec : Nat := 0x4
def vmShared : Nat := 0x8
def vmLazy : Nat := 0x10

/-- vm_region_type_t. -/
inductive VmRegionType where
  | code
  | data
  | heap
  | stack
  | mmap
  | shm
  | vdso
  deriving DecidableEq, Repr

/-- vm_area_t, without its next link. -/
structure VmArea where
  start : Nat
  /-- vma->end. -/
  stop : Nat
  flags : Nat
  type : VmRegionType
  /-- The vfs node that backs the area; none for an anonymous area. -/
  vmFile : Option Nat
  vmPgoff : Nat
  vmPrivateData : Option Nat
  /-- vm_private_get is set. -/
  vmPrivateGet : Bool
  /-- vm_private_put is set. -/
  vmPrivatePut : Bool
  vmPagecache : Bool
  deriving DecidableEq, Repr

/-- vm_area_alloc: a zeroed area over [start, stop) of type VM_REGION_MMAP. -/
def vmAreaAlloc (start stop flags : Nat) : VmArea :=
  { start, stop, flags, type := .mmap, vmFile := none, vmPgoff := 0, vmPrivateData := none,
    vmPrivateGet := false, vmPrivatePut := false, vmPagecache := false }

/-- vm_area_insert: link vma into the list sorted by start, refusing an empty,
unaligned or too high range and one that overlaps a neighbour. -/
def vmAreaInsert (list : List VmArea) (vma : VmArea) : Except Int (List VmArea) :=
  if vma.start ≥ vma.stop ∨ vma.start &&& (page4kSize - 1) ≠ 0 ∨ vma.stop &&& (page4kSize - 1) ≠ 0 ∨
      vma.stop > processUserStackTop then .error (-einval)
  else
    -- the walk stops at the first area that does not start below vma
    let before := list.takeWhile (·.start < vma.start)
    let after := list.dropWhile (·.start < vma.start)
    if before.getLast?.any (·.stop > vma.start) || after.head?.any (vma.stop > ·.start) then .error (-eexist)
    else .ok (before ++ vma :: after)

/-! ## process_find_free_vma_range -/

/-- The loop of process_find_free_vma_range from addr: the first gap that holds
bytes, passing over the areas that end by addr; 0 when the gaps run past
PROCESS_USER_STACK_TOP. -/
def findFreeLoop (bytes : Nat) : Nat → List VmArea → Nat
  | addr, [] => if addr < processUserStackTop ∧ bytes ≤ processUserStackTop - addr then addr else 0
  | addr, vma :: rest =>
    if vma.stop ≤ addr then findFreeLoop bytes addr rest
    else if vma.start > addr ∧ bytes ≤ vma.start - addr then addr
    else if alignUp vma.stop ≥ processUserStackTop ∨ bytes > processUserStackTop - alignUp vma.stop then 0
    else findFreeLoop bytes (alignUp vma.stop) rest

/-- process_find_free_vma_range (SIZE_MAX is UINT64_MAX). -/
def processFindFreeVmaRange (list : List VmArea) (length : Nat) : Nat :=
  if length = 0 ∨ length > uint64Max - (page4kSize - 1) then 0
  else findFreeLoop (alignUp length) processMmapBase list

theorem alignUp_mod (x : Nat) : alignUp x % page4kSize = 0 := by
  unfold alignUp alignDown page4kSize
  omega

theorem le_alignUp (x : Nat) : x ≤ alignUp x := by
  unfold alignUp alignDown page4kSize
  omega

theorem alignUp_of_mod {x : Nat} (h : x % page4kSize = 0) : alignUp x = x := by
  unfold alignUp alignDown
  unfold page4kSize at *
  omega

theorem and_pageMask (n : Nat) : n &&& (page4kSize - 1) = n % page4kSize :=
  Nat.and_two_pow_sub_one_eq_mod n 12

/-! ## The shape of mmap_list -/

/-- A non-empty, page-aligned range below PROCESS_USER_STACK_TOP. -/
structure VmArea.WellFormed (v : VmArea) : Prop where
  lt : v.start < v.stop
  start_aligned : v.start % page4kSize = 0
  stop_aligned : v.stop % page4kSize = 0
  le_top : v.stop ≤ processUserStackTop

/-- mmap_list: well-formed areas, each ending at or before the next starts. -/
structure MmapOk (list : List VmArea) : Prop where
  wf : ∀ v ∈ list, v.WellFormed
  sorted : list.Pairwise (fun a b => a.stop ≤ b.start)

theorem mmapOk_nil : MmapOk [] := ⟨by simp, List.Pairwise.nil⟩

theorem MmapOk.cons_iff {v : VmArea} {l : List VmArea} :
    MmapOk (v :: l) ↔ v.WellFormed ∧ (∀ w ∈ l, v.stop ≤ w.start) ∧ MmapOk l := by
  constructor
  · intro h
    exact ⟨h.wf v List.mem_cons_self, fun w hw => List.rel_of_pairwise_cons h.sorted hw,
      ⟨fun w hw => h.wf w (List.mem_cons_of_mem v hw), h.sorted.of_cons⟩⟩
  · rintro ⟨hv, hvl, hl⟩
    refine ⟨fun w hw => ?_, List.pairwise_cons.mpr ⟨hvl, hl.sorted⟩⟩
    rcases List.mem_cons.mp hw with rfl | hw
    · exact hv
    · exact hl.wf w hw

variable {list list' : List VmArea} {vma : VmArea}

/-- vm_area_insert accepts exactly what its checks let through, and links
the area between the areas starting below it and the rest. -/
theorem vmAreaInsert_ok (h : vmAreaInsert list vma = .ok list') :
    vma.WellFormed ∧
      (∀ p, (list.takeWhile (·.start < vma.start)).getLast? = some p → p.stop ≤ vma.start) ∧
      (∀ n, (list.dropWhile (·.start < vma.start)).head? = some n → vma.stop ≤ n.start) ∧
      list' = list.takeWhile (·.start < vma.start) ++ vma :: list.dropWhile (·.start < vma.start) := by
  unfold vmAreaInsert at h
  split at h
  · cases h
  · next hv =>
    simp only [and_pageMask] at hv
    dsimp only at h
    split at h
    · cases h
    · next hn =>
      cases h
      simp only [Bool.or_eq_true, Option.any_eq_true, not_or, not_exists, not_and, decide_eq_true_eq] at hn
      exact ⟨⟨by omega, by omega, by omega, by omega⟩, fun p hp => Nat.le_of_not_lt (hn.1 p hp),
        fun n hn' => Nat.le_of_not_lt (hn.2 n hn'), rfl⟩

/-- vm_area_insert adds the one area to the list. -/
theorem vmAreaInsert_perm (h : vmAreaInsert list vma = .ok list') : list'.Perm (vma :: list) := by
  obtain ⟨-, -, -, rfl⟩ := vmAreaInsert_ok h
  refine List.perm_middle.trans ?_
  rw [List.takeWhile_append_dropWhile]

/-- In a sorted list of well-formed areas, every area ends no later than the
last one. -/
theorem stop_le_of_getLast? {l : List VmArea} (hwf : ∀ v ∈ l, v.WellFormed)
    (hs : l.Pairwise (fun a b => a.stop ≤ b.start)) {p : VmArea} (hp : l.getLast? = some p) :
    ∀ a ∈ l, a.stop ≤ p.stop := by
  obtain ⟨ys, rfl⟩ := List.getLast?_eq_some_iff.mp hp
  intro a ha
  rcases List.mem_append.mp ha with ha | ha
  · have hap := (List.pairwise_append.mp hs).2.2 a ha p (List.mem_singleton_self p)
    have := (hwf p (List.mem_append_right _ (List.mem_singleton_self p))).lt
    omega
  · exact List.mem_singleton.mp ha ▸ Nat.le_refl _

/-- In a sorted list of well-formed areas, every area starts no earlier than
the first one. -/
theorem start_le_of_head? {l : List VmArea} (hwf : ∀ v ∈ l, v.WellFormed)
    (hs : l.Pairwise (fun a b => a.stop ≤ b.start)) {n : VmArea} (hn : l.head? = some n) :
    ∀ b ∈ l, n.start ≤ b.start := by
  obtain ⟨rest, rfl⟩ : ∃ rest, l = n :: rest := by
    cases l with
    | nil => cases hn
    | cons x rest => exact ⟨rest, by rw [Option.some.inj hn]⟩
  intro b hb
  rcases List.mem_cons.mp hb with rfl | hb
  · exact Nat.le_refl _
  · have hnb := List.rel_of_pairwise_cons hs hb
    have := (hwf n List.mem_cons_self).lt
    omega

/-- vm_area_insert keeps the shape of mmap_list. -/
theorem MmapOk.vmAreaInsert (hl : MmapOk list) (h : vmAreaInsert list vma = .ok list') : MmapOk list' := by
  obtain ⟨hv, hprev, hnext, rfl⟩ := vmAreaInsert_ok h
  have hsplit := (List.takeWhile_append_dropWhile (p := fun v : VmArea => decide (v.start < vma.start)) (l := list))
  have hwf : ∀ v ∈ list.takeWhile (·.start < vma.start) ++ list.dropWhile (·.start < vma.start), v.WellFormed := by
    rw [hsplit]
    exact hl.wf
  have hs := hl.sorted
  rw [← hsplit] at hs
  obtain ⟨hs₁, hs₂, hs₁₂⟩ := List.pairwise_append.mp hs
  -- every area before vma ends by its start, every area after starts after its end
  have hbefore : ∀ a ∈ list.takeWhile (·.start < vma.start), a.stop ≤ vma.start := by
    intro a ha
    rcases hlast : (list.takeWhile (·.start < vma.start)).getLast? with _ | p
    · rw [List.getLast?_eq_none_iff] at hlast
      rw [hlast] at ha
      cases ha
    · exact Nat.le_trans (stop_le_of_getLast? (fun v hv => hwf v (List.mem_append_left _ hv)) hs₁ hlast a ha)
        (hprev p hlast)
  have hafter : ∀ b ∈ list.dropWhile (·.start < vma.start), vma.stop ≤ b.start := by
    intro b hb
    rcases hhead : (list.dropWhile (·.start < vma.start)).head? with _ | n
    · rw [List.head?_eq_none_iff] at hhead
      rw [hhead] at hb
      cases hb
    · exact Nat.le_trans (hnext n hhead)
        (start_le_of_head? (fun v hv => hwf v (List.mem_append_right _ hv)) hs₂ hhead b hb)
  refine ⟨fun v hv' => ?_, ?_⟩
  · rcases List.mem_append.mp hv' with hv' | hv'
    · exact hwf v (List.mem_append_left _ hv')
    · rcases List.mem_cons.mp hv' with rfl | hv'
      · exact hv
      · exact hwf v (List.mem_append_right _ hv')
  · refine List.pairwise_append.mpr ⟨hs₁, List.pairwise_cons.mpr ⟨hafter, hs₂⟩, fun a ha b hb => ?_⟩
    rcases List.mem_cons.mp hb with rfl | hb
    · exact hbefore a ha
    · exact hs₁₂ a ha b hb

end Uinxed.Process
