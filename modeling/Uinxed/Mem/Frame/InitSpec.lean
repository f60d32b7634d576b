/-
  Mem/Frame/InitSpec.lean --- a successful init_frame establishes the frame
  invariant.

  buddy_add_range trusts its caller not to pass pages of a free block.
  init_frame keeps to that because the usable entries of the memory map do not
  overlap: each range it adds lies in the bytes of one entry, and the pages
  made free so far lie in entries already processed.  The fresh buddy carries
  no tags and no marks, and the buddy never writes either.
-/
import Uinxed.Mem.Frame.Init
import Uinxed.Mem.Frame.Invariant
import Uinxed.Mem.Buddy.System

set_option autoImplicit false

namespace Uinxed.Frame

open Uinxed.Buddy

/-- Frame j lies in the bytes of entry e. -/
def InRegion (e : MemmapEntry) (j : Nat) : Prop :=
  e.base ≤ j * page4kSize ∧ (j + 1) * page4kSize ≤ e.base + e.length

theorem not_inRegion_of_disjoint {e f : MemmapEntry} (hd : UsableDisjoint e f)
    (he : e.type = limineMemmapUsable) (hf : f.type = limineMemmapUsable) {j : Nat}
    (hj : InRegion e j) : ¬ InRegion f j := fun hj' => by
  unfold InRegion page4kSize at hj hj'
  rcases hd he hf with hd | hd <;> omega

/-! ## Adding the regions -/

section Regions

variable {b : BuddyAllocator} {L : Nat → List Nat}

/-- buddy_add_range of pages none of which is free yet frees at most those
pages. -/
theorem buddyAddRange_covered (h : BuddyInv b L) (start count : Nat)
    (hout : ∀ j, start ≤ j → j < start + count → ¬ Covered L j) :
    ∃ L', BuddyInv (buddyAddRange b start count).1 L' ∧
      ∀ j, Covered L' j → Covered L j ∨ (start ≤ j ∧ j < start + count) := by
  rcases buddyAddRange_added h hout with ⟨-, he⟩ | ⟨-, L', hA⟩
  · rw [he]
    exact ⟨L, h, fun j hj => Or.inl hj⟩
  · exact ⟨L', hA.inv, fun j hj => (hA.covered j).mp hj⟩

/-- One iteration of the region loop frees at most frames of its entry. -/
theorem addRegion_inv (h : BuddyInv b L) (metadataStart metadataCount : Nat) (e : MemmapEntry)
    (hout : e.type = limineMemmapUsable → ∀ j, InRegion e j → ¬ Covered L j) :
    ∃ L', BuddyInv (addRegion metadataStart metadataCount b e) L' ∧
      ∀ j, Covered L' j → Covered L j ∨ (e.type = limineMemmapUsable ∧ InRegion e j) := by
  have hid : ∃ L', BuddyInv b L' ∧
      ∀ j, Covered L' j → Covered L j ∨ (e.type = limineMemmapUsable ∧ InRegion e j) :=
    ⟨L, h, fun j hj => Or.inl hj⟩
  unfold addRegion
  dsimp only
  by_cases hu : e.type = limineMemmapUsable
  swap
  · rw [if_pos hu]; exact hid
  rw [if_neg (not_not.mpr hu)]
  have hout := hout hu
  by_cases hempty : alignUp e.base page4kSize ≥ alignDown (e.base + e.length) page4kSize
  · rw [if_pos hempty]; exact hid
  rw [if_neg hempty]
  -- the frames the loop may add lie in the entry: frame 0 is skipped and the
  -- aligned ends lie inside the entry's bytes
  have hin : ∀ j, (if alignUp e.base page4kSize / page4kSize = 0 then 1
        else alignUp e.base page4kSize / page4kSize) ≤ j →
      j < (if alignUp e.base page4kSize / page4kSize = 0 then 1
        else alignUp e.base page4kSize / page4kSize) +
        (if alignUp e.base page4kSize / page4kSize = 0 then
          (alignDown (e.base + e.length) page4kSize - alignUp e.base page4kSize) / page4kSize - 1
        else (alignDown (e.base + e.length) page4kSize - alignUp e.base page4kSize) / page4kSize) →
      InRegion e j := by
    intro j hj₁ hj₂
    unfold InRegion
    by_cases hz : alignUp e.base page4kSize / page4kSize = 0
    · rw [if_pos hz, if_pos hz] at hj₂
      rw [if_pos hz] at hj₁
      simp only [alignUp, alignDown, page4kSize] at hz hj₁ hj₂ hempty ⊢
      omega
    · rw [if_neg hz, if_neg hz] at hj₂
      rw [if_neg hz] at hj₁
      simp only [alignUp, alignDown, page4kSize] at hz hj₁ hj₂ hempty ⊢
      omega
  generalize (if alignUp e.base page4kSize / page4kSize = 0 then 1
    else alignUp e.base page4kSize / page4kSize) = sf at hin ⊢
  generalize (if alignUp e.base page4kSize / page4kSize = 0 then
    (alignDown (e.base + e.length) page4kSize - alignUp e.base page4kSize) / page4kSize - 1
    else (alignDown (e.base + e.length) page4kSize - alignUp e.base page4kSize) / page4kSize)
    = cnt at hin ⊢
  split_ifs with hz hmeta hhigh hlow hlow
  · exact hid
  · -- the metadata is elsewhere: the whole range
    obtain ⟨L', hL', hcov⟩ := buddyAddRange_covered h sf cnt fun j hj₁ hj₂ => hout j (hin j hj₁ hj₂)
    exact ⟨L', hL', fun j hj => (hcov j hj).imp_right fun hr => ⟨hu, hin j hr.1 hr.2⟩⟩
  -- the metadata overlaps the frames: the part below it, then the part above it
  · obtain ⟨L₁, hL₁, hcov₁⟩ := buddyAddRange_covered h sf (metadataStart - sf) fun j hj₁ hj₂ =>
      hout j (hin j hj₁ (by omega))
    obtain ⟨L₂, hL₂, hcov₂⟩ := buddyAddRange_covered hL₁ (metadataStart + metadataCount)
      (sf + cnt - (metadataStart + metadataCount)) fun j hj₁ hj₂ hc =>
        ((hcov₁ j hc).elim (hout j (hin j (by omega) (by omega))) fun hr => by omega)
    refine ⟨L₂, hL₂, fun j hj => ?_⟩
    rcases hcov₂ j hj with hc | hr
    · exact (hcov₁ j hc).imp_right fun hr => ⟨hu, hin j hr.1 (by omega)⟩
    · exact Or.inr ⟨hu, hin j (by omega) (by omega)⟩
  · obtain ⟨L₂, hL₂, hcov₂⟩ := buddyAddRange_covered h (metadataStart + metadataCount)
      (sf + cnt - (metadataStart + metadataCount)) fun j hj₁ hj₂ =>
        hout j (hin j (by omega) (by omega))
    exact ⟨L₂, hL₂, fun j hj => (hcov₂ j hj).imp_right fun hr => ⟨hu, hin j (by omega) (by omega)⟩⟩
  · obtain ⟨L₁, hL₁, hcov₁⟩ := buddyAddRange_covered h sf (metadataStart - sf) fun j hj₁ hj₂ =>
      hout j (hin j hj₁ (by omega))
    exact ⟨L₁, hL₁, fun j hj => (hcov₁ j hj).imp_right fun hr => ⟨hu, hin j hr.1 (by omega)⟩⟩
  · exact hid

@[simp] theorem addRegion_tag (metadataStart metadataCount : Nat) (b : BuddyAllocator)
    (e : MemmapEntry) (j : Nat) :
    ((addRegion metadataStart metadataCount b e).pages j).tag = (b.pages j).tag := by
  unfold addRegion
  dsimp only
  split_ifs <;> simp only [buddyAddRange_tag]

@[simp] theorem addRegion_reserved (metadataStart metadataCount : Nat) (b : BuddyAllocator)
    (e : MemmapEntry) (j : Nat) :
    ((addRegion metadataStart metadataCount b e).pages j).reserved = (b.pages j).reserved := by
  unfold addRegion
  dsimp only
  split_ifs <;> simp only [buddyAddRange_reserved]

/-- The region loop, over entries whose usable ones do not overlap, starting
with the free pages outside every entry still to come: each buddy_add_range
gets pages of no free block. -/
theorem addRegions_inv (metadataStart metadataCount : Nat) (mm : List MemmapEntry) :
    ∀ {b : BuddyAllocator} {L : Nat → List Nat}, BuddyInv b L → mm.Pairwise UsableDisjoint →
      (∀ j, Covered L j → ∀ e ∈ mm, e.type = limineMemmapUsable → ¬ InRegion e j) →
      ∃ L', BuddyInv (mm.foldl (addRegion metadataStart metadataCount) b) L' := by
  induction mm with
  | nil => intro b L h _ _; exact ⟨L, h⟩
  | cons e rest ih =>
    intro b L h hpw hcov
    obtain ⟨hde, hrest⟩ := List.pairwise_cons.mp hpw
    obtain ⟨L₁, h₁, hcov₁⟩ := addRegion_inv h metadataStart metadataCount e
      fun hu j hj hc => hcov j hc e List.mem_cons_self hu hj
    refine ih h₁ hrest fun j hc f hf hfu => ?_
    rcases hcov₁ j hc with hc | ⟨heu, hj⟩
    · exact hcov j hc f (List.mem_cons_of_mem e hf) hfu
    · exact not_inRegion_of_disjoint (hde f hf) heu hfu hj

theorem addRegions_fields (metadataStart metadataCount : Nat) (mm : List MemmapEntry) :
    ∀ (b : BuddyAllocator) (j : Nat),
      ((mm.foldl (addRegion metadataStart metadataCount) b).pages j).tag = (b.pages j).tag ∧
      ((mm.foldl (addRegion metadataStart metadataCount) b).pages j).reserved =
        (b.pages j).reserved := by
  induction mm with
  | nil => intro b j; exact ⟨rfl, rfl⟩
  | cons e rest ih =>
    intro b j
    rw [List.foldl_cons, (ih _ j).1, (ih _ j).2, addRegion_tag, addRegion_reserved]
    exact ⟨rfl, rfl⟩

end Regions

/-! ## init_frame -/

/-- A successful init_frame over a memory map whose usable entries do not
overlap establishes the invariant, with an empty cache. -/
theorem initFrame_inv {mm : List MemmapEntry} (hinit : 0 < (initFrame mm).frameCount)
    (hdisj : mm.Pairwise UsableDisjoint) : ∃ L, FrameInv (initFrame mm) L [] := by
  unfold initFrame at hinit ⊢
  dsimp only at hinit ⊢
  split_ifs at hinit ⊢ with haddr
  · exact absurd hinit (Nat.lt_irrefl 0)
  split
  next hb =>
    rw [hb] at hinit
    exact absurd hinit (Nat.lt_irrefl 0)
  next b hb =>
  -- the fresh buddy: no free page, no tag, no mark
  have h₀ := buddyInit_inv hb
  have hpages : ∀ j, b.pages j = BuddyPage.initial := by
    unfold buddyInit at hb
    split_ifs at hb
    cases hb
    exact fun _ => rfl
  obtain ⟨L, hL⟩ := addRegions_inv _ _ mm h₀ hdisj fun j hc => absurd hc fun ⟨k, i, hi, _⟩ => by
    cases hi
  refine ⟨L,
    { buddy := hL
      usable := rfl
      pcp_nodup := List.nodup_nil
      pending_nodup := List.nodup_nil
      pending_not_cached := fun _ hf => absurd hf List.not_mem_nil
      cached := fun _ hf => absurd hf List.not_mem_nil
      pending := fun _ hf => absurd hf List.not_mem_nil
      tagged := fun f hf => ?_
      unmarked := fun f _ => ?_
      pcp_le := Nat.zero_le _ }⟩
  · dsimp only at hf
    rw [(addRegions_fields _ _ mm b f).1, hpages] at hf
    exact absurd hf (Nat.lt_irrefl 0)
  · dsimp only
    rw [(addRegions_fields _ _ mm b f).2, hpages]
    rfl

end Uinxed.Frame
