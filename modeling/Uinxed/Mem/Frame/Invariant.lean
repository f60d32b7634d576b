/-
  Mem/Frame/Invariant.lean --- the accounting invariant of the frame allocator,
  and the operations of the per-CPU cache.

  usable_frames counts the frames that are logically free: the buddy's free
  pages and the frames of the cache.  While frame_pcp_refill hands out the
  rest of its block, and between the two loops of frame_release_range, some
  free frames are in neither; FrameInv names them P, the pending frames, and
  frame_pcp_put moves them into the cache one at a time.  Cached and pending
  frames are idle buddy pages; a frame with references is an order-0 allocated
  head; and no frame outside P carries the hand-off mark.

  The free pool is the frames in free blocks of the buddy and the cached
  frames (InPool).  The traffic of the cache only moves frames without
  references between the cache and the buddy: it changes no tag and keeps
  every frame of the pool in it.
-/
import Uinxed.Mem.Frame.Pages

set_option autoImplicit false

namespace Uinxed.Frame

open Uinxed.Buddy AlignedBlock

/-- The frame allocator invariant, relative to ghost free lists L of the buddy
and the pending frames P. -/
structure FrameInv (s : FrameAllocator) (L : Nat → List Nat) (P : List Nat) : Prop where
  buddy : BuddyInv s.buddy L
  usable : s.usableFrames = s.buddy.freePages + s.pcp.length + P.length
  pcp_nodup : s.pcp.Nodup
  pending_nodup : P.Nodup
  pending_not_cached : ∀ f ∈ P, f ∉ s.pcp
  cached : ∀ f ∈ s.pcp, Idle s.buddy f
  pending : ∀ f ∈ P, Idle s.buddy f
  tagged : ∀ f, 0 < (s.buddy.pages f).tag →
    (s.buddy.pages f).state = .allocHead ∧ (s.buddy.pages f).order = 0
  unmarked : ∀ f, f ∉ P → (s.buddy.pages f).reserved = 0
  pcp_le : s.pcp.length ≤ framePcpHigh

/-- Frame j is in the free pool: in a free block of the buddy, or cached. -/
def InPool (s : FrameAllocator) (j : Nat) : Prop := InFreeBlock s.buddy j ∨ j ∈ s.pcp

instance (s : FrameAllocator) (j : Nat) : Decidable (InPool s j) :=
  inferInstanceAs (Decidable (_ ∨ _))

variable {s : FrameAllocator} {L : Nat → List Nat} {P : List Nat}

namespace FrameInv

/-- A frame with references is in no cache and not pending. -/
theorem not_idle_of_tag_pos {b : BuddyAllocator} {f : Nat} (ht : 0 < (b.pages f).tag) :
    ¬ Idle b f := fun hi => by
  have := hi.2.2
  omega

/-- A frame with references is not in the pool. -/
theorem not_inPool_of_tag_pos (h : FrameInv s L P) {j : Nat} (ht : 0 < (s.buddy.pages j).tag) :
    ¬ InPool s j := by
  rintro (hb | hc)
  · exact h.buddy.not_covered_of_tag_pos ht ((h.buddy.covered_iff j).mpr hb)
  · exact not_idle_of_tag_pos ht (h.cached j hc)

/-- A frame of the pool carries no references. -/
theorem tag_of_inPool (h : FrameInv s L P) {j : Nat} (hj : InPool s j) :
    (s.buddy.pages j).tag = 0 :=
  Nat.eq_zero_of_not_pos fun ht => h.not_inPool_of_tag_pos ht hj

/-- Pushing the first pending frame, with its mark cleared, on a cache that is
not full. -/
theorem push {f : Nat} (h : FrameInv s L (f :: P)) (hlen : s.pcp.length < framePcpHigh)
    (hf : (s.buddy.pages f).reserved = 0) : FrameInv { s with pcp := f :: s.pcp } L P := by
  obtain ⟨hfP, hnd⟩ := List.nodup_cons.mp h.pending_nodup
  exact
  { buddy := h.buddy
    usable := by
      rw [h.usable]
      simp only [List.length_cons]
      omega
    pcp_nodup := List.nodup_cons.mpr ⟨h.pending_not_cached f List.mem_cons_self, h.pcp_nodup⟩
    pending_nodup := hnd
    pending_not_cached := fun g hg hgc => by
      rcases List.mem_cons.mp hgc with rfl | hgc
      · exact hfP hg
      · exact h.pending_not_cached g (List.mem_cons_of_mem f hg) hgc
    cached := fun g hg => by
      rcases List.mem_cons.mp hg with rfl | hg
      · exact h.pending g List.mem_cons_self
      · exact h.cached g hg
    pending := fun g hg => h.pending g (List.mem_cons_of_mem f hg)
    tagged := h.tagged
    unmarked := fun g hg => by
      by_cases hgf : g = f
      · rw [hgf]; exact hf
      · exact h.unmarked g fun hm => (List.mem_cons.mp hm).elim hgf hg
    pcp_le := by simp only [List.length_cons]; omega }

/-- Returning part fs of the cache to the buddy, keeping the rest. -/
theorem returnPart (h : FrameInv s L P) (fs rest : List Nat) (hperm : (fs ++ rest).Perm s.pcp)
    (hle : rest.length ≤ framePcpHigh) :
    ∃ L', FrameInv { s with buddy := pcpReturnToBuddy s.buddy fs, pcp := rest } L' P := by
  have hnd : (fs ++ rest).Nodup := hperm.nodup_iff.mpr h.pcp_nodup
  have hmem : ∀ g, g ∈ fs ∨ g ∈ rest ↔ g ∈ s.pcp := fun g => by
    rw [← List.mem_append]
    exact hperm.mem_iff
  obtain ⟨hfs, hrest, hdisj⟩ := List.nodup_append.mp hnd
  obtain ⟨L', hA⟩ := pcpReturnToBuddy_added fs h.buddy hfs
    fun g hg => h.cached g ((hmem g).mp (Or.inl hg))
  -- a frame kept idle outside fs is untouched
  have hkeep : ∀ g, Idle s.buddy g → g ∉ fs → Idle (pcpReturnToBuddy s.buddy fs) g :=
    fun g hi hg => hi.congr (hA.pages_of_head h.buddy hi.1 hg)
  refine ⟨L',
    { buddy := hA.inv
      usable := ?_
      pcp_nodup := hrest
      pending_nodup := h.pending_nodup
      pending_not_cached := fun g hg hgr =>
        h.pending_not_cached g hg ((hmem g).mp (Or.inr hgr))
      cached := fun g hg => hkeep g (h.cached g ((hmem g).mp (Or.inr hg)))
        fun hgf => hdisj g hgf g hg rfl
      pending := fun g hg => hkeep g (h.pending g hg)
        fun hgf => h.pending_not_cached g hg ((hmem g).mp (Or.inl hgf))
      tagged := fun g hg => by
        dsimp only at hg ⊢
        have he := hA.pages_of_tag_pos hg
        rw [he] at hg ⊢
        exact h.tagged g hg
      unmarked := fun g hg => by
        dsimp only
        rw [pcpReturnToBuddy_reserved]
        exact h.unmarked g hg
      pcp_le := hle }⟩
  have hlen := hperm.length_eq
  rw [List.length_append] at hlen
  dsimp only
  rw [hA.freePages, h.usable]
  omega

end FrameInv

/-! ## Draining and putting -/

/-- frame_pcp_drain_cpu returns the whole cache to the buddy. -/
theorem pcpDrainCpu_inv (h : FrameInv s L P) : ∃ L', FrameInv (pcpDrainCpu s) L' P :=
  h.returnPart s.pcp.reverse [] (by rw [List.append_nil]; exact List.reverse_perm _)
    (Nat.zero_le _)

theorem pcpDrainAll_inv (h : FrameInv s L P) : ∃ L', FrameInv (pcpDrainAll s) L' P :=
  pcpDrainCpu_inv h

/-- Draining the caches changes no tag and makes the free blocks the whole
pool. -/
theorem pcpDrainAll_spec (h : FrameInv s L P) :
    (∀ j, ((pcpDrainAll s).buddy.pages j).tag = (s.buddy.pages j).tag) ∧
      ∀ j, InFreeBlock (pcpDrainAll s).buddy j ↔ InPool s j := by
  obtain ⟨htag, hfree⟩ := pcpReturnToBuddy_spec h.buddy (List.nodup_reverse.mpr h.pcp_nodup)
    fun g hg => h.cached g (List.mem_reverse.mp hg)
  refine ⟨htag, fun j => ?_⟩
  show InFreeBlock (pcpReturnToBuddy s.buddy s.pcp.reverse) j ↔ _
  rw [hfree, List.mem_reverse]
  rfl

@[simp] theorem pcpDrainAll_pcp (s : FrameAllocator) : (pcpDrainAll s).pcp = [] := rfl

@[simp] theorem pcpDrainAll_usableFrames (s : FrameAllocator) :
    (pcpDrainAll s).usableFrames = s.usableFrames := rfl

/-- frame_pcp_put moves the first pending frame into the cache, first handing
the top FRAME_PCP_BATCH frames of a full cache back to the buddy. -/
theorem pcpPut_inv {f : Nat} (h : FrameInv s L (f :: P)) (hf : (s.buddy.pages f).reserved = 0) :
    ∃ L', FrameInv (pcpPut s f) L' P := by
  unfold pcpPut
  split_ifs with hfull
  · -- full: the batch goes back to the buddy, then the frame is pushed
    obtain ⟨L', h'⟩ := h.returnPart (s.pcp.take framePcpBatch) (s.pcp.drop framePcpBatch)
      (by rw [List.take_append_drop]) (by simp only [List.length_drop]; omega)
    refine ⟨L', h'.push (by simp only [List.length_drop, hfull]; decide) ?_⟩
    dsimp only
    rw [pcpReturnToBuddy_reserved]
    exact hf
  · exact ⟨L, h.push (lt_of_le_of_ne h.pcp_le hfull) hf⟩

/-- frame_pcp_put changes no tag, keeps the pool and adds the frame put to it. -/
theorem pcpPut_spec (h : FrameInv s L P) (f : Nat) :
    (∀ j, ((pcpPut s f).buddy.pages j).tag = (s.buddy.pages j).tag) ∧
      ∀ j, InPool s j ∨ j = f → InPool (pcpPut s f) j := by
  unfold pcpPut
  split_ifs with hfull
  · -- the top of a full cache goes back to the buddy
    have hsub := List.take_sublist framePcpBatch s.pcp
    obtain ⟨htag, hfree⟩ := pcpReturnToBuddy_spec h.buddy (h.pcp_nodup.sublist hsub)
      fun g hg => h.cached g (hsub.subset hg)
    refine ⟨htag, fun j hj => ?_⟩
    unfold InPool at hj ⊢
    dsimp only
    rw [hfree, List.mem_cons]
    rcases hj with (hb | hc) | rfl
    · exact Or.inl (Or.inl hb)
    · have hc' : j ∈ s.pcp.take framePcpBatch ++ s.pcp.drop framePcpBatch := by
        rwa [List.take_append_drop]
      rcases List.mem_append.mp hc' with hc | hc
      · exact Or.inl (Or.inr hc)
      · exact Or.inr (Or.inr hc)
    · exact Or.inr (Or.inl rfl)
  · refine ⟨fun j => rfl, fun j hj => ?_⟩
    unfold InPool at hj ⊢
    dsimp only
    rw [List.mem_cons]
    rcases hj with (hb | hc) | rfl
    · exact Or.inl hb
    · exact Or.inr (Or.inr hc)
    · exact Or.inr (Or.inl rfl)

@[simp] theorem pcpPut_reserved (s : FrameAllocator) (f j : Nat) :
    ((pcpPut s f).buddy.pages j).reserved = (s.buddy.pages j).reserved := by
  unfold pcpPut
  split_ifs
  · exact pcpReturnToBuddy_reserved _ _ _
  · rfl

/-- Putting the pending frames one by one, all marks clear, empties P. -/
theorem pcpPut_foldl (P : List Nat) :
    ∀ {s : FrameAllocator} {L : Nat → List Nat}, FrameInv s L P →
      (∀ j, (s.buddy.pages j).reserved = 0) →
      ∃ L', FrameInv (P.foldl pcpPut s) L' [] ∧ ∀ j, ((P.foldl pcpPut s).buddy.pages j).reserved = 0 := by
  induction P with
  | nil => intro s L h hres; exact ⟨L, h, hres⟩
  | cons f P ih =>
    intro s L h hres
    obtain ⟨L₁, h₁⟩ := pcpPut_inv h (hres f)
    exact ih h₁ fun j => by rw [pcpPut_reserved]; exact hres j

/-- Putting the pending frames one by one changes no tag. -/
theorem pcpPut_foldl_tag (P : List Nat) :
    ∀ {s : FrameAllocator} {L : Nat → List Nat}, FrameInv s L P →
      (∀ j, (s.buddy.pages j).reserved = 0) →
      ∀ j, ((P.foldl pcpPut s).buddy.pages j).tag = (s.buddy.pages j).tag := by
  induction P with
  | nil => intro s L _ _ j; rfl
  | cons f P ih =>
    intro s L h hres j
    obtain ⟨L₁, h₁⟩ := pcpPut_inv h (hres f)
    rw [List.foldl_cons, ih h₁ (fun x => by rw [pcpPut_reserved]; exact hres x) j]
    exact (pcpPut_spec h f).1 j

/-! ## frame_pcp_pop -/

/-- frame_pcp_pop takes the top of the cache. -/
@[simp] theorem pcpPop_result (s : FrameAllocator) : (pcpPop s).2 = s.pcp.head? := by
  unfold pcpPop
  split <;> simp_all

/-- frame_pcp_pop hands out the top cached frame with one reference. -/
theorem pcpPop_spec {f : Nat} (hf : (pcpPop s).2 = some f) :
    f ∈ s.pcp ∧ ((pcpPop s).1.buddy.pages f).tag = 1 := by
  rw [pcpPop_result, List.head?_eq_some_iff] at hf
  obtain ⟨rest, hpcp⟩ := hf
  refine ⟨by rw [hpcp]; exact List.mem_cons_self, ?_⟩
  unfold pcpPop
  rw [hpcp]
  simp [tagOne]

/-- An empty cache: frame_pcp_pop changes nothing. -/
theorem pcpPop_fst_of_none (hn : (pcpPop s).2 = none) : (pcpPop s).1 = s := by
  rw [pcpPop_result, List.head?_eq_none_iff] at hn
  unfold pcpPop
  rw [hn]

/-- frame_pcp_pop hands the top cached frame out with one reference. -/
theorem pcpPop_inv (h : FrameInv s L []) : FrameInv (pcpPop s).1 L [] := by
  unfold pcpPop
  split
  · exact h
  next f rest hpcp =>
  have hf : Idle s.buddy f := h.cached f (by rw [hpcp]; exact List.mem_cons_self)
  have hnd : f ∉ rest ∧ rest.Nodup := List.nodup_cons.mp (hpcp ▸ h.pcp_nodup)
  have hpg : ∀ j, (s.buddy.setPage f tagOne).pages j =
      if j = f then tagOne (s.buddy.pages j) else s.buddy.pages j :=
    BuddyAllocator.setPage_pages _ _ _
  exact
  { buddy := h.buddy.retag (Retagged.setPage _ _ _ (Retag.of_tag (Or.inl hf.1) 1))
    usable := by
      have hu := h.usable
      rw [hpcp] at hu
      simp only [List.length_cons, List.length_nil, BuddyAllocator.setPage_freePages] at hu ⊢
      omega
    pcp_nodup := hnd.2
    pending_nodup := List.nodup_nil
    pending_not_cached := fun _ hg => absurd hg List.not_mem_nil
    cached := fun g hg => by
      have hgf : g ≠ f := fun e => hnd.1 (e ▸ hg)
      refine (h.cached g (by rw [hpcp]; exact List.mem_cons_of_mem f hg)).congr ?_
      rw [hpg, if_neg hgf]
    pending := fun _ hg => absurd hg List.not_mem_nil
    tagged := fun g hg => by
      dsimp only at hg ⊢
      rw [hpg] at hg ⊢
      split_ifs at hg ⊢ with hgf
      · rw [hgf]; exact ⟨hf.1, hf.2.1⟩
      · exact h.tagged g hg
    unmarked := fun g _ => by
      dsimp only
      rw [hpg]
      split_ifs
      · exact h.unmarked g List.not_mem_nil
      · exact h.unmarked g List.not_mem_nil
    pcp_le := by
      have := h.pcp_le
      rw [hpcp] at this
      simp only [List.length_cons] at this ⊢
      omega }

end Uinxed.Frame
