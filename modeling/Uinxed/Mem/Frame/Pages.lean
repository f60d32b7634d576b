/-
  Mem/Frame/Pages.lean --- what the frame allocator relies on from the buddy.

  frame.c keeps two fields of every buddy page for itself: the tag, which holds
  the reference count of a frame handed out, and the reserved field, which
  marks a frame that frame_release_range hands over to the cache.  The buddy
  never writes the reserved field, and writes the tag only of pages it takes
  back (Buddy/Owned.lean).  This module reads the buddy specs (Added,
  Allocated, Trimmed) at the pages the frame allocator owns: idle frames,
  which are order-0 allocated heads without references (the cached ones among
  them), and frames with references.

  A page lies in a free block when the block of some free head contains it
  (InFreeBlock); under the invariant these are exactly the pages the ghost
  free lists cover, so the frame allocator can speak of its free pool without
  the ghost lists.
-/
import Uinxed.Mem.Frame.Basic
import Uinxed.Mem.Buddy.Free
import Uinxed.Mem.Buddy.Owned
import Uinxed.Mem.Buddy.RoundTrip

set_option autoImplicit false

namespace Uinxed.Buddy

open AlignedBlock

variable {a a' : BuddyAllocator} {L L' : Nat → List Nat}

/-! ## Pages with references -/

namespace BuddyInv

/-- A covered page is a free head or an interior page of a free block. -/
theorem state_of_covered (h : BuddyInv a L) {j : Nat} (hj : Covered L j) :
    (a.pages j).state = .freeHead ∨ (a.pages j).state = .reserved := by
  obtain ⟨k, i, hi, hin⟩ := hj
  by_cases hji : j = i
  · rw [hji]
    exact Or.inl (h.lists.state_of_mem hi)
  · exact Or.inr (h.free_interior k i j hi hin hji)

theorem not_covered_of_head (h : BuddyInv a L) {x : Nat} (hx : (a.pages x).state = .allocHead) :
    ¬ Covered L x :=
  h.not_covered_of_alloc hx (inBlock_self x _)

/-- A page with references lies in no free block: free pages carry tag 0. -/
theorem not_covered_of_tag_pos (h : BuddyInv a L) {j : Nat} (ht : 0 < (a.pages j).tag) :
    ¬ Covered L j := fun hc => by
  have := h.cleared j (h.state_of_covered hc).symm
  omega

end BuddyInv

/-! ## Free blocks -/

/-- Page j lies in the block of a free head. -/
def InFreeBlock (b : BuddyAllocator) (j : Nat) : Prop :=
  ∃ i ≤ j, (b.pages i).state = .freeHead ∧ InBlock i (b.pages i).order j

instance (b : BuddyAllocator) (j : Nat) : Decidable (InFreeBlock b j) :=
  Nat.decidableExistsLE j

/-- Under the invariant the ghost free blocks are the blocks of the free heads. -/
theorem BuddyInv.covered_iff (h : BuddyInv a L) (j : Nat) : Covered L j ↔ InFreeBlock a j := by
  constructor
  · rintro ⟨k, i, hi, hin⟩
    obtain ⟨hs, rfl⟩ := (h.freeHead_iff i k).mpr hi
    exact ⟨i, hin.1, hs, hin⟩
  · rintro ⟨i, -, hs, hin⟩
    exact ⟨_, i, (h.freeHead_iff i _).mp ⟨hs, rfl⟩, hin⟩

/-- The free blocks are read off the states and orders of the pages alone. -/
theorem InFreeBlock.congr (hs : ∀ i, (a'.pages i).state = (a.pages i).state)
    (ho : ∀ i, (a'.pages i).order = (a.pages i).order) (j : Nat) :
    InFreeBlock a' j ↔ InFreeBlock a j := by
  unfold InFreeBlock
  simp only [hs, ho]

section Specs

variable {S : Nat → Prop} {n i k keep : Nat}

/-- A page with references after an adding is one the adding did not touch. -/
theorem Added.pages_of_tag_pos (hA : Added a L S n a' L') {j : Nat} (ht : 0 < (a'.pages j).tag) :
    a'.pages j = a.pages j := by
  have hc : ¬ Covered L' j := hA.inv.not_covered_of_tag_pos ht
  rw [hA.covered, not_or] at hc
  exact hA.frame j hc.1 hc.2

/-- Adding pages without references changes no tag: a page of a free block
carries none, before the adding and after it. -/
theorem Added.tag_eq (h : BuddyInv a L) (hA : Added a L S n a' L')
    (hS : ∀ j, S j → (a.pages j).tag = 0) (j : Nat) : (a'.pages j).tag = (a.pages j).tag := by
  by_cases hc : Covered L j ∨ S j
  · have h₀ : (a.pages j).tag = 0 :=
      hc.elim (fun hc => h.cleared j (h.state_of_covered hc).symm) (hS j)
    have h₁ : (a'.pages j).tag = 0 :=
      hA.inv.cleared j (hA.inv.state_of_covered ((hA.covered j).mpr hc)).symm
    rw [h₀, h₁]
  · rw [not_or] at hc
    rw [hA.frame j hc.1 hc.2]

theorem Added.pages_of_head (h : BuddyInv a L) (hA : Added a L S n a' L') {j : Nat}
    (hx : (a.pages j).state = .allocHead) (hS : ¬ S j) : a'.pages j = a.pages j :=
  hA.frame j (h.not_covered_of_head hx) hS

theorem Allocated.pages_of_tag_pos (h : BuddyInv a L) (hA : Allocated a L i k a' L') {j : Nat}
    (ht : 0 < (a'.pages j).tag) : a'.pages j = a.pages j :=
  hA.frame j (h.not_covered_of_tag_pos (by rw [← hA.tags]; exact ht))

/-- A page with references after a trim lies outside the trimmed block, which
the trim left without references, and is untouched. -/
theorem Trimmed.pages_of_tag_pos (hT : Trimmed a L i k keep a' L') {j : Nat}
    (ht : 0 < (a'.pages j).tag) : a'.pages j = a.pages j ∧ ¬ InBlock i k j := by
  have hc : ¬ Covered L' j := hT.inv.not_covered_of_tag_pos ht
  rw [hT.covered, not_or] at hc
  have hk : ¬ (i ≤ j ∧ j < i + keep) := fun hk => by
    have := (hT.kept j hk.1 hk.2).2.2
    omega
  have hb : ¬ InBlock i k j := fun hb => by
    unfold InBlock at hb
    omega
  exact ⟨hT.frame j hc.1 hb, hb⟩

end Specs

end Uinxed.Buddy

namespace Uinxed.Frame

open Uinxed.Buddy AlignedBlock

/-! ## Idle frames -/

/-- Frame f is an order-0 allocated head without references: a cached frame, or
one on its way into the cache. -/
def Idle (b : BuddyAllocator) (f : Nat) : Prop :=
  (b.pages f).state = .allocHead ∧ (b.pages f).order = 0 ∧ (b.pages f).tag = 0

theorem Idle.congr {b b' : BuddyAllocator} {f : Nat} (hi : Idle b f) (hb : b'.pages f = b.pages f) :
    Idle b' f := by
  unfold Idle
  rw [hb]
  exact hi

/-! ## Returning idle frames to the buddy -/

section Return

variable {b : BuddyAllocator} {L : Nat → List Nat}

/-- buddy_free accepts an idle frame at order 0 and adds it. -/
theorem buddyFree_idle (h : BuddyInv b L) {f : Nat} (hf : Idle b f) :
    ∃ L', Added b L (· = f) 1 (buddyFree b f 0).1 L' := by
  rcases buddyFree_spec h f 0 with ⟨-, -, hno⟩ | ⟨-, -, -, L', hL'⟩
  · exact absurd ⟨hf.1, hf.2.1⟩ hno
  · refine ⟨L', hL'.congr (fun j => ?_) rfl⟩
    simp only [InBlock, pow_zero]
    omega

/-- frame_pcp_return_to_buddy of distinct idle frames adds each of them. -/
theorem pcpReturnToBuddy_added (fs : List Nat) :
    ∀ {b : BuddyAllocator} {L : Nat → List Nat}, BuddyInv b L → fs.Nodup →
      (∀ f ∈ fs, Idle b f) → ∃ L', Added b L (· ∈ fs) fs.length (pcpReturnToBuddy b fs) L' := by
  induction fs with
  | nil => intro b L h _ _; exact ⟨L, Added.refl h fun j hj => List.not_mem_nil hj⟩
  | cons f fs ih =>
    intro b L h hnd hidle
    obtain ⟨hf, hnd'⟩ := List.nodup_cons.mp hnd
    obtain ⟨L₁, h₁⟩ := buddyFree_idle h (hidle f List.mem_cons_self)
    -- freeing f leaves the other frames idle
    have hidle₁ : ∀ g ∈ fs, Idle (buddyFree b f 0).1 g := fun g hg =>
      have hig := hidle g (List.mem_cons_of_mem f hg)
      hig.congr (h₁.pages_of_head h hig.1 fun e => hf (e ▸ hg))
    obtain ⟨L₂, h₂⟩ := ih h₁.inv hnd' hidle₁
    exact ⟨L₂, (h₁.trans h₂).congr (fun j => List.mem_cons.symm) (Nat.add_comm _ _)⟩

/-- Returning distinct idle frames to the buddy changes no tag and adds exactly
those frames to the free blocks. -/
theorem pcpReturnToBuddy_spec {fs : List Nat} (h : BuddyInv b L) (hnd : fs.Nodup)
    (hidle : ∀ f ∈ fs, Idle b f) :
    (∀ j, ((pcpReturnToBuddy b fs).pages j).tag = (b.pages j).tag) ∧
      ∀ j, InFreeBlock (pcpReturnToBuddy b fs) j ↔ InFreeBlock b j ∨ j ∈ fs := by
  obtain ⟨L', hA⟩ := pcpReturnToBuddy_added fs h hnd hidle
  refine ⟨hA.tag_eq h fun j hj => (hidle j hj).2.2, fun j => ?_⟩
  rw [← hA.inv.covered_iff, ← h.covered_iff, hA.covered]

@[simp] theorem pcpReturnToBuddy_reserved (b : BuddyAllocator) (fs : List Nat) (j : Nat) :
    ((pcpReturnToBuddy b fs).pages j).reserved = (b.pages j).reserved := by
  induction fs generalizing b with
  | nil => rfl
  | cons f fs ih => exact (ih _).trans (buddyFree_reserved b f 0 j)

end Return

end Uinxed.Frame
