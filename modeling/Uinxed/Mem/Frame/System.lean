/-
  Mem/Frame/System.lean --- the frame allocator as a system: runs of its entry
  points from init_frame.

  FrameOp names one call of the allocation and reference-count entry points,
  an internal drain of the caches, or frame_validate (which drains them too).
  Every call keeps FrameInv, so along every run from a successful init_frame
  usable_frames is the buddy's free pages plus the cached frames, the cache
  holds idle frames once each, every frame with references is an order-0
  allocated head outside the cache, and frame_validate returns 0.

  init_frame can fail (no usable region above 1 MiB holds the metadata, or
  buddy_init refuses); the allocator then keeps its zeroed state, which
  frame_validate rejects.  init_frame also relies on the usable entries of the
  memory map not overlapping: an entry inside another one hands
  buddy_add_range frames of a free block.
-/
import Uinxed.Mem.Frame.Alloc
import Uinxed.Mem.Frame.Refs
import Uinxed.Mem.Frame.InitSpec
import Uinxed.Mem.Buddy.ValidateSpec

set_option autoImplicit false

namespace Uinxed.Frame

open Uinxed.Buddy

/-! ## frame_validate -/

variable {s : FrameAllocator} {L : Nat → List Nat}

/-- frame_validate drains the caches and then finds the buddy and the counters
consistent. -/
theorem frameValidate_spec (h : FrameInv s L []) :
    (frameValidate s).2 = 0 ∧ ∃ L', FrameInv (frameValidate s).1 L' [] := by
  obtain ⟨L', h'⟩ := pcpDrainAll_inv h
  have hu := h'.usable
  rw [pcpDrainAll_pcp, List.length_nil] at hu
  unfold frameValidate
  dsimp only
  rw [buddyValidate_of_inv h'.buddy, if_neg fun hc => hc.2 hu]
  exact ⟨rfl, L', h'⟩

/-! ## Runs -/

/-- One call into frame.c: an allocation, a reference-count update, a drain of
the per-CPU caches, or frame_validate. -/
inductive FrameOp where
  | alloc (count : Nat)
  | alloc2M (count : Nat)
  | alloc1G (count : Nat)
  | retain (addr count : Nat)
  | release (addr count : Nat)
  | drain
  | validate
  deriving DecidableEq, Repr

/-- The state after one call. -/
def FrameOp.apply (s : FrameAllocator) : FrameOp → FrameAllocator
  | .alloc count => (allocFrames s count).1
  | .alloc2M count => (allocFrames2M s count).1
  | .alloc1G count => (allocFrames1G s count).1
  | .retain addr count => (frameRetainRange s addr count).1
  | .release addr count => (frameReleaseRange s addr count).1
  | .drain => pcpDrainAll s
  | .validate => (frameValidate s).1

/-- The state after a run of calls, performed left to right. -/
def runFrameOps (s : FrameAllocator) (ops : List FrameOp) : FrameAllocator :=
  ops.foldl FrameOp.apply s

/-- Every call keeps the invariant. -/
theorem FrameOp.apply_inv (h : FrameInv s L []) : ∀ op : FrameOp, ∃ L', FrameInv (op.apply s) L' []
  | .alloc count => allocFrames_inv h count
  | .alloc2M count => allocFrames2M_inv h count
  | .alloc1G count => allocFrames1G_inv h count
  | .retain addr count => frameRetainRange_inv h addr count
  | .release addr count => frameReleaseRange_inv h addr count
  | .drain => pcpDrainAll_inv h
  | .validate => (frameValidate_spec h).2

/-- Every run keeps the invariant. -/
theorem runFrameOps_inv (ops : List FrameOp) :
    ∀ {s : FrameAllocator} {L : Nat → List Nat}, FrameInv s L [] →
      ∃ L', FrameInv (runFrameOps s ops) L' [] := by
  induction ops with
  | nil => intro s L h; exact ⟨L, h⟩
  | cons op ops ih =>
    intro s L h
    obtain ⟨L₁, h₁⟩ := op.apply_inv h
    exact ih h₁

/-! ## The accounting of the frame allocator -/

/-- init_frame over a memory map whose only usable entry lies below 1 MiB finds
no place for the metadata and keeps the zeroed allocator; frame_validate then
fails right away. -/
theorem frameValidate_after_failed_init :
    (frameValidate (runFrameOps (initFrame [⟨0, 0x1000, limineMemmapUsable⟩]) [])).2 = -1 := by
  decide

/-- Along every run from a successful init_frame over a memory map whose usable
entries do not overlap, usable_frames is the buddy's free pages plus the cached
frames, each cached frame is an idle order-0 allocated head cached once, every
frame with references is an order-0 allocated head outside the cache, and
frame_validate returns 0. -/
theorem frame_accounting_of_run (mm : List MemmapEntry) (hinit : 0 < (initFrame mm).frameCount)
    (hdisj : mm.Pairwise UsableDisjoint) (ops : List FrameOp) :
    let s := runFrameOps (initFrame mm) ops
    s.usableFrames = s.buddy.freePages + s.pcp.length ∧ s.pcp.Nodup ∧
      (∀ f ∈ s.pcp, (s.buddy.pages f).state = .allocHead ∧ (s.buddy.pages f).order = 0 ∧
        (s.buddy.pages f).tag = 0) ∧
      (∀ f, 0 < (s.buddy.pages f).tag →
        (s.buddy.pages f).state = .allocHead ∧ (s.buddy.pages f).order = 0 ∧ f ∉ s.pcp) ∧
      (frameValidate s).2 = 0 := by
  obtain ⟨L₀, h₀⟩ := initFrame_inv hinit hdisj
  obtain ⟨L, h⟩ := runFrameOps_inv ops h₀
  intro s
  refine ⟨h.usable, h.pcp_nodup, h.cached, fun f hf => ?_, (frameValidate_spec h).1⟩
  exact ⟨(h.tagged f hf).1, (h.tagged f hf).2,
    fun hc => FrameInv.not_idle_of_tag_pos hf (h.cached f hc)⟩

theorem frame_accounting_of_run_at_one_mib :
    0 < (initFrame [⟨0x100000, 0x100000, limineMemmapUsable⟩]).frameCount ∧
      [(⟨0x100000, 0x100000, limineMemmapUsable⟩ : MemmapEntry)].Pairwise UsableDisjoint ∧
      (frameValidate (runFrameOps (initFrame [⟨0x100000, 0x100000, limineMemmapUsable⟩]) [])).2 = 0 :=
  have hinit : 0 < (initFrame [⟨0x100000, 0x100000, limineMemmapUsable⟩]).frameCount := by decide
  have hdisj : [(⟨0x100000, 0x100000, limineMemmapUsable⟩ : MemmapEntry)].Pairwise UsableDisjoint :=
    List.pairwise_singleton _ _
  ⟨hinit, hdisj, (frame_accounting_of_run _ hinit hdisj []).2.2.2.2⟩

/-! ## What the entry points do to the frames -/

end Uinxed.Frame
