/-
  Process/MmapFree.lean --- process_find_free_vma_range finds the lowest gap.

  On a list of the shape MmapOk keeps, the search from PROCESS_MMAP_BASE
  returns the least address from there at which ALIGN_UP(length) bytes fit
  between the areas and below PROCESS_USER_STACK_TOP, or 0 when there is none
  (processFindFreeVmaRange_lowest).  The loop carries LowestGap: what it
  returns from addr is the least address from addr with a gap.  An area that
  ends by addr is passed over, a gap before an area that holds the bytes is
  taken, and otherwise no address before the area's end has a gap and the
  search goes on from there.

  A length of 0 returns 0 at once, although the empty range fits at
  PROCESS_MMAP_BASE; the statement is for a length above 0.
-/
import Uinxed.Process.Vma
import Mathlib.Order.Bounds.Basic

set_option autoImplicit false

namespace Uinxed.Process

/-- [a, a + bytes) lies below PROCESS_USER_STACK_TOP and meets no area. -/
def GapAt (list : List VmArea) (bytes a : Nat) : Prop :=
  a + bytes ≤ processUserStackTop ∧ ∀ v ∈ list, a + bytes ≤ v.start ∨ v.stop ≤ a

/-- An address process_find_free_vma_range may return for bytes: page-aligned,
from PROCESS_MMAP_BASE, with a gap there. -/
def FreeAt (list : List VmArea) (bytes a : Nat) : Prop :=
  a % page4kSize = 0 ∧ processMmapBase ≤ a ∧ GapAt list bytes a

/-- r is what a search from addr should return: the least address from addr
with a gap, aligned, or 0 when there is none. -/
def LowestGap (list : List VmArea) (bytes addr r : Nat) : Prop :=
  (r = 0 ∧ ∀ a, addr ≤ a → ¬ GapAt list bytes a) ∨
    (r % page4kSize = 0 ∧ addr ≤ r ∧ GapAt list bytes r ∧ ∀ a, addr ≤ a → GapAt list bytes a → r ≤ a)

section

variable {bytes : Nat} {vma : VmArea} {rest : List VmArea}

/-- An area that ends by a does not touch a gap at a. -/
theorem gapAt_cons_of_stop_le {a : Nat} (h : vma.stop ≤ a) : GapAt (vma :: rest) bytes a ↔ GapAt rest bytes a := by
  simp only [GapAt, List.mem_cons, forall_eq_or_imp]
  constructor
  · exact fun ⟨htop, _, hrest⟩ => ⟨htop, hrest⟩
  · exact fun ⟨htop, hrest⟩ => ⟨htop, .inr h, hrest⟩

/-- Passing over an area that ends by addr. -/
theorem LowestGap.cons_of_stop_le {addr r : Nat} (h : LowestGap rest bytes addr r) (hv : vma.stop ≤ addr) :
    LowestGap (vma :: rest) bytes addr r := by
  rcases h with ⟨h0, hnone⟩ | ⟨hal, hle, hgap, hmin⟩
  · exact .inl ⟨h0, fun a ha hg => hnone a ha ((gapAt_cons_of_stop_le (by omega)).mp hg)⟩
  · exact .inr ⟨hal, hle, (gapAt_cons_of_stop_le (by omega)).mpr hgap,
      fun a ha hg => hmin a ha ((gapAt_cons_of_stop_le (by omega)).mp hg)⟩

/-- Going on from the end of an area that blocks every address before it. -/
theorem LowestGap.cons_of_blocked {addr r : Nat} (h : LowestGap rest bytes vma.stop r) (hle : addr ≤ vma.stop)
    (hblock : ∀ a, addr ≤ a → a < vma.stop → ¬ GapAt (vma :: rest) bytes a) : LowestGap (vma :: rest) bytes addr r := by
  rcases h with ⟨h0, hnone⟩ | ⟨hal, hle', hgap, hmin⟩
  · refine .inl ⟨h0, fun a ha hg => ?_⟩
    by_cases hs : a < vma.stop
    · exact hblock a ha hs hg
    · exact hnone a (by omega) ((gapAt_cons_of_stop_le (by omega)).mp hg)
  · refine .inr ⟨hal, by omega, (gapAt_cons_of_stop_le hle').mpr hgap, fun a ha hg => ?_⟩
    by_cases hs : a < vma.stop
    · exact absurd hg (hblock a ha hs)
    · exact hmin a (by omega) ((gapAt_cons_of_stop_le (by omega)).mp hg)

end

/-- The loop of process_find_free_vma_range returns the lowest gap from addr. -/
theorem findFreeLoop_lowest {bytes : Nat} (hb : 0 < bytes) :
    ∀ (rest : List VmArea) (addr : Nat), MmapOk rest → addr % page4kSize = 0 →
      LowestGap rest bytes addr (findFreeLoop bytes addr rest)
  | [], addr, _, ha => by
    simp only [findFreeLoop]
    split
    · exact .inr ⟨ha, Nat.le_refl _, ⟨by omega, by simp⟩, fun a h _ => h⟩
    · next h => exact .inl ⟨rfl, fun a ha' hg => h (by have := hg.1; omega)⟩
  | vma :: rest, addr, hl, ha => by
    obtain ⟨hv, hvr, hr⟩ := MmapOk.cons_iff.mp hl
    have hlt := hv.lt
    have htop := hv.le_top
    simp only [findFreeLoop]
    split
    · next h₁ => exact (findFreeLoop_lowest hb rest addr hr ha).cons_of_stop_le h₁
    split
    · next h₁ h₂ =>
      -- the gap before vma holds the bytes: it is the lowest, since it starts at addr
      refine .inr ⟨ha, Nat.le_refl _, ⟨by omega, fun w hw => .inl ?_⟩, fun a h _ => h⟩
      rcases List.mem_cons.mp hw with rfl | hw
      · omega
      · have := hvr w hw
        omega
    · next h₁ h₂ =>
      -- no address from addr up to vma's end leaves vma's range free
      have hblock : ∀ a, addr ≤ a → a < vma.stop → ¬ GapAt (vma :: rest) bytes a := by
        intro a ha' hs hg
        rcases hg.2 vma List.mem_cons_self with hg' | hg'
        · exact h₂ ⟨by omega, by omega⟩
        · omega
      rw [alignUp_of_mod hv.stop_aligned]
      split
      · next h₃ =>
        refine .inl ⟨rfl, fun a ha' hg => ?_⟩
        by_cases hs : a < vma.stop
        · exact hblock a ha' hs hg
        · have := hg.1
          omega
      · exact (findFreeLoop_lowest hb rest vma.stop hr hv.stop_aligned).cons_of_blocked (by omega) hblock

/-- On mmap_list, process_find_free_vma_range(length) for a length above 0
returns the lowest page-aligned address from PROCESS_MMAP_BASE at which
ALIGN_UP(length) bytes fit between the areas below PROCESS_USER_STACK_TOP, or
0 when there is none. -/
theorem processFindFreeVmaRange_lowest (list : List VmArea) (length : Nat) (hl : MmapOk list) (hlen : 0 < length) :
    (processFindFreeVmaRange list length = 0 ∧ ∀ a, ¬ FreeAt list (alignUp length) a) ∨
      IsLeast {a | FreeAt list (alignUp length) a} (processFindFreeVmaRange list length) := by
  unfold processFindFreeVmaRange
  split
  · -- a length this large rounds up past the user half: nothing fits
    next h =>
    refine .inl ⟨rfl, fun a ha => ?_⟩
    have := ha.2.2.1
    have := le_alignUp length
    unfold uint64Max page4kSize processUserStackTop at *
    omega
  · have hb : 0 < alignUp length := Nat.lt_of_lt_of_le hlen (le_alignUp length)
    rcases findFreeLoop_lowest hb list processMmapBase hl (by decide) with ⟨h0, hnone⟩ | ⟨hal, hle, hgap, hmin⟩
    · exact .inl ⟨h0, fun a ha => hnone a ha.2.1 ha.2.2⟩
    · exact .inr ⟨⟨hal, hle, hgap⟩, fun a ha => hmin a ha.2.1 ha.2.2⟩

/-- Two anonymous areas from PROCESS_MMAP_BASE, with a gap of two pages
between them. -/
def twoAreas : List VmArea :=
  [⟨0x7f0000000000, 0x7f0000002000, 0, .data, none, 0, none, false, false, false⟩,
    ⟨0x7f0000004000, 0x7f0000005000, 0, .data, none, 0, none, false, false, false⟩]

theorem mmapOk_twoAreas : MmapOk twoAreas := by
  refine ⟨fun v hv => ?_, by decide⟩
  simp only [twoAreas, List.mem_cons, List.not_mem_nil, or_false] at hv
  rcases hv with rfl | rfl <;> exact ⟨by decide, by decide, by decide, by decide⟩

/-- Three pages fit neither before the first area nor in the gap, so the
search passes both areas. -/
theorem processFindFreeVmaRange_lowest_two_areas :
    MmapOk twoAreas ∧ 0 < 0x3000 ∧
      ((processFindFreeVmaRange twoAreas 0x3000 = 0 ∧ ∀ a, ¬ FreeAt twoAreas (alignUp 0x3000) a) ∨
        IsLeast {a | FreeAt twoAreas (alignUp 0x3000) a} (processFindFreeVmaRange twoAreas 0x3000)) :=
  ⟨mmapOk_twoAreas, by decide, processFindFreeVmaRange_lowest twoAreas 0x3000 mmapOk_twoAreas (by decide)⟩

example : processFindFreeVmaRange twoAreas 0x3000 = 0x7f0000005000 ∧
    processFindFreeVmaRange twoAreas 0x2000 = 0x7f0000002000 := by
  decide

end Uinxed.Process
