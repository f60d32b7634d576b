/-
  Mem/Frame/Alloc.lean --- the allocation paths of frame.c keep the invariant.

  Both paths carve a buddy block: buddy_alloc hands it out (Allocated),
  buddy_trim_allocation turns its first keep pages into order-0 heads and
  returns the rest (Trimmed), and frame.c then writes the tags of the kept
  pages.  frame_pcp_refill keeps the whole block, gives its first page one
  reference and leaves the others pending for the cache; the block path of
  alloc_frames_aligned keeps count pages and gives each one reference.
  FrameInv.carve covers both.

  Every frame these paths hand out comes from the free pool without
  references and leaves it with exactly one (HandsOut): the cache path pops a
  cached frame or hands out the first frame of the block it refills the cache
  from, and the block path's block is aligned to its order, which is at least
  the alignment asked for.
-/
import Uinxed.Mem.Frame.Invariant

set_option autoImplicit false

namespace Uinxed.Frame

open Uinxed.Buddy AlignedBlock

variable {t : FrameAllocator} {L L₁ L₂ : Nat → List Nat} {b r b' : BuddyAllocator}
  {i o keep : Nat}

/-- Carving kept pages out of a freshly allocated block: the buddy went from
t.buddy through Allocated, Trimmed and a retagging to b', usable_frames to u,
and the kept pages P without references are pending for the cache. -/
theorem FrameInv.carve (h : FrameInv t L []) (hA : Allocated t.buddy L i o b L₁)
    (hT : Trimmed b L₁ i o keep r L₂) (hk : keep ≤ 2 ^ o) (hR : Retagged r b')
    (hout : ∀ j, ¬ (i ≤ j ∧ j < i + keep) → b'.pages j = r.pages j)
    (hres : ∀ j, (b'.pages j).reserved = 0)
    {P : List Nat} (hPnd : P.Nodup) (hP : ∀ f ∈ P, i ≤ f ∧ f < i + keep ∧ (b'.pages f).tag = 0)
    {u : Nat} (hu : u + keep = t.usableFrames + P.length) :
    FrameInv { t with buddy := b', usableFrames := u } L₂ P := by
  -- a cached frame lies outside the block and kept its page through every step
  have hcached : ∀ g ∈ t.pcp, ¬ InBlock i o g ∧ b'.pages g = t.buddy.pages g := by
    intro g hg
    have hnc := h.buddy.not_covered_of_head (h.cached g hg).1
    have hnb : ¬ InBlock i o g := fun hb => hnc (hA.was_free g hb)
    have hnc₁ : ¬ Covered L₁ g := fun hc => hnc ((hA.covered g).mp hc).1
    refine ⟨hnb, ?_⟩
    rw [hout g fun hj => hnb ⟨hj.1, by omega⟩, hT.frame g hnc₁ hnb, hA.frame g hnc]
  -- a kept page is an order-0 head in b'
  have hkept : ∀ j, i ≤ j → j < i + keep →
      (b'.pages j).state = .allocHead ∧ (b'.pages j).order = 0 := by
    intro j hj₁ hj₂
    rw [(hR.pages j).state, (hR.pages j).order]
    exact ⟨(hT.kept j hj₁ hj₂).1, (hT.kept j hj₁ hj₂).2.1⟩
  exact
  { buddy := hT.inv.retag hR
    usable := by
      have := h.usable
      have := hA.freePages
      have := hT.freePages
      have := hR.freePages
      simp only [List.length_nil, Nat.add_zero] at *
      omega
    pcp_nodup := h.pcp_nodup
    pending_nodup := hPnd
    pending_not_cached := fun f hf hfc => by
      obtain ⟨hf₁, hf₂, -⟩ := hP f hf
      exact (hcached f hfc).1 ⟨hf₁, by omega⟩
    cached := fun g hg => (h.cached g hg).congr (hcached g hg).2
    pending := fun f hf => by
      obtain ⟨hf₁, hf₂, ht⟩ := hP f hf
      exact ⟨(hkept f hf₁ hf₂).1, (hkept f hf₁ hf₂).2, ht⟩
    tagged := fun j ht => by
      dsimp only at ht ⊢
      by_cases hj : i ≤ j ∧ j < i + keep
      · exact hkept j hj.1 hj.2
      -- outside the kept pages the reference came from t
      rw [hout j hj] at ht ⊢
      have he₁ := (hT.pages_of_tag_pos ht).1
      rw [he₁] at ht ⊢
      have he₂ := hA.pages_of_tag_pos h.buddy ht
      rw [he₂] at ht ⊢
      exact h.tagged j ht
    unmarked := fun j _ => hres j
    pcp_le := h.pcp_le }

/-! ## frame_pcp_refill -/

section Refill

variable {s : FrameAllocator} {L : Nat → List Nat}

/-- The search of frame_pcp_refill either finds nothing and changes nothing, or
hands out a block of the order it stopped at. -/
theorem refillSearch_spec {b : BuddyAllocator} (h : BuddyInv b L) :
    ∀ order, ((refillSearch b order).2.1 = none ∧ (refillSearch b order).1 = b) ∨
      ∃ i L', (refillSearch b order).2.1 = some i ∧
        Allocated b L i (refillSearch b order).2.2 (refillSearch b order).1 L'
  | 0 => by
    rcases buddyAlloc_spec h 0 with ⟨hn, he, -⟩ | ⟨i, L', hi, hA⟩
    · exact Or.inl ⟨hn, he⟩
    · exact Or.inr ⟨i, L', hi, hA⟩
  | order + 1 => by
    rcases buddyAlloc_spec h (order + 1) with ⟨hn, he, -⟩ | ⟨i, L', hi, hA⟩
    · -- nothing at this order: the search goes on one order lower
      have hs : refillSearch b (order + 1) = refillSearch b order := by
        rw [refillSearch, hn]
        dsimp only
        rw [he]
      rw [hs]
      exact refillSearch_spec h order
    · have hs : refillSearch b (order + 1) = ((buddyAlloc b (order + 1)).1, some i, order + 1) := by
        rw [refillSearch, hi]
      rw [hs]
      exact Or.inr ⟨i, L', rfl, hA⟩

@[simp] theorem refillSearch_reserved (b : BuddyAllocator) (order j : Nat) :
    ((refillSearch b order).1.pages j).reserved = (b.pages j).reserved := by
  induction order generalizing b with
  | zero => exact buddyAlloc_reserved b 0 j
  | succ order ih =>
    rw [refillSearch]
    split
    · exact buddyAlloc_reserved b _ j
    · rw [ih]
      exact buddyAlloc_reserved b _ j

/-- The rest of frame_pcp_refill, after buddy_alloc handed out [first, first +
2^o) into b: the first page leaves with one reference, the others are cached. -/
theorem refillBlock_spec (h : FrameInv s L []) {first o : Nat}
    (hA : Allocated s.buddy L first o b L₁) (hres : ∀ j, (b.pages j).reserved = 0) :
    ∃ L', FrameInv (refillBlock s b first o).1 L' [] ∧ (refillBlock s b first o).2 = some first ∧
      ((refillBlock s b first o).1.buddy.pages first).tag = 1 := by
  have hpos := Nat.two_pow_pos o
  obtain ⟨hx, hko⟩ := hA.head
  rcases buddyTrimAllocation_spec hA.inv first o (2 ^ o) with ⟨-, -, hno⟩ |
    ⟨hcode, -, -, -, -, L₂, hT⟩
  · exact absurd ⟨hx, hko, hpos, le_refl _⟩ hno
  unfold refillBlock
  dsimp only
  rw [if_neg (not_not.mpr hcode)]
  have hresr : ∀ j, ((buddyTrimAllocation b first o (2 ^ o)).1.pages j).reserved = 0 := fun j => by
    rw [buddyTrimAllocation_reserved]
    exact hres j
  generalize (buddyTrimAllocation b first o (2 ^ o)).1 = r at hT hresr
  -- the kept block with its tags written: the first page 1, the others 0
  have hpg : ∀ j, ((r.setPages first (2 ^ o) fun p => { p with tag := 0 }).setPage first tagOne).pages j =
      if first ≤ j ∧ j < first + 2 ^ o then { r.pages j with tag := if j = first then 1 else 0 }
      else r.pages j := by
    intro j
    simp only [BuddyAllocator.setPage_pages, BuddyAllocator.setPages_pages, tagOne]
    split_ifs <;> first | rfl | omega
  have hR : Retagged r ((r.setPages first (2 ^ o) fun p => { p with tag := 0 }).setPage first tagOne) :=
    (Retagged.setPages r first (2 ^ o) _ fun j hj₁ hj₂ => Retag.of_tag (Or.inl (hT.kept j hj₁ hj₂).1) 0).trans
      (Retagged.setPage _ first tagOne (Retag.of_tag (Or.inl (by
        rw [BuddyAllocator.setPages_pages, if_pos ⟨le_refl _, by omega⟩]
        exact (hT.kept first (le_refl _) (by omega)).1)) 1))
  have hcarve := h.carve hA hT (le_refl _) hR
    (fun j hj => by rw [hpg, if_neg hj])
    (fun j => by rw [hpg]; split_ifs <;> exact hresr j)
    (P := List.range' (first + 1) (2 ^ o - 1)) List.nodup_range'
    (fun f hf => by
      obtain ⟨hf₁, hf₂⟩ := List.mem_range'_1.mp hf
      refine ⟨by omega, by omega, ?_⟩
      rw [hpg, if_pos ⟨by omega, by omega⟩]
      exact if_neg (by omega))
    (u := s.usableFrames - 1)
    (by
      have := h.usable
      have := hA.freePages
      rw [List.length_range']
      simp only [List.length_nil, Nat.add_zero] at *
      omega)
  have hres' : ∀ j, (({ s with
      buddy := (r.setPages first (2 ^ o) fun p => { p with tag := 0 }).setPage first tagOne,
      usableFrames := s.usableFrames - 1 } : FrameAllocator).buddy.pages j).reserved = 0 := fun j => by
    dsimp only
    rw [hpg]
    split_ifs <;> exact hresr j
  obtain ⟨L', h', -⟩ := pcpPut_foldl _ hcarve hres'
  refine ⟨L', h', rfl, ?_⟩
  -- the cache traffic leaves the first page's reference alone
  rw [pcpPut_foldl_tag _ hcarve hres' first]
  dsimp only
  rw [hpg, if_pos ⟨le_refl _, by omega⟩, if_pos rfl]

/-- frame_pcp_refill either finds no block and changes nothing, or hands out the
first frame of a free block with one reference. -/
theorem pcpRefill_spec (h : FrameInv s L []) :
    ∃ L', FrameInv (pcpRefill s).1 L' [] ∧ ((pcpRefill s).2 = none → (pcpRefill s).1 = s) ∧
      ∀ f, (pcpRefill s).2 = some f → Covered L f ∧ ((pcpRefill s).1.buddy.pages f).tag = 1 := by
  have hres : ∀ j, ((refillSearch s.buddy 4).1.pages j).reserved = 0 := fun j => by
    rw [refillSearch_reserved]
    exact h.unmarked j List.not_mem_nil
  have hspec := refillSearch_spec h.buddy 4
  unfold pcpRefill
  generalize refillSearch s.buddy 4 = res at hspec hres ⊢
  obtain ⟨b, _ | first, o⟩ := res
  · -- no block: the buddy is unchanged
    rcases hspec with ⟨-, he⟩ | ⟨i, L', hi, -⟩
    · dsimp only at he ⊢
      rw [he]
      exact ⟨L, h, fun _ => rfl, fun f hf => by cases hf⟩
    · cases hi
  · rcases hspec with ⟨hn, -⟩ | ⟨i, L', hi, hA⟩
    · cases hn
    · dsimp only at hi hA ⊢
      cases hi
      obtain ⟨L₂, h₂, hr, ht⟩ := refillBlock_spec h hA hres
      refine ⟨L₂, h₂, (fun hn => by rw [hr] at hn; cases hn), fun f hf => ?_⟩
      rw [hr] at hf
      cases hf
      exact ⟨hA.was_free first (inBlock_self first o), ht⟩

end Refill

/-! ## alloc_frames_aligned -/

section AllocAligned

variable {s : FrameAllocator} {L : Nat → List Nat}

/-- What an allocation returning the address a handed out: a is aligned to
2^alignment_order frames, and each of the count frames from a was in the pool
without references and has left it with exactly one. -/
structure HandsOut (s s' : FrameAllocator) (a count alignmentOrder : Nat) : Prop where
  aligned : a % (2 ^ alignmentOrder * page4kSize) = 0
  fresh : ∀ j, a / page4kSize ≤ j → j < a / page4kSize + count →
    (s.buddy.pages j).tag = 0 ∧ InPool s j
  taken : ∀ j, a / page4kSize ≤ j → j < a / page4kSize + count →
    (s'.buddy.pages j).tag = 1 ∧ ¬ InPool s' j

/-- Frames of the pool of s that carry one reference in s', which keeps the
invariant, are handed out at the address of the first. -/
theorem HandsOut.of_frames {s' : FrameAllocator} {L' : Nat → List Nat} (h : FrameInv s L [])
    (h' : FrameInv s' L' []) {index count alignmentOrder : Nat}
    (hal : index % 2 ^ alignmentOrder = 0)
    (hpool : ∀ j, index ≤ j → j < index + count → InPool s j)
    (htag : ∀ j, index ≤ j → j < index + count → (s'.buddy.pages j).tag = 1) :
    HandsOut s s' (index * page4kSize) count alignmentOrder := by
  have hdiv : index * page4kSize / page4kSize = index := Nat.mul_div_cancel index (by decide)
  refine ⟨?_, fun j hj₁ hj₂ => ?_, fun j hj₁ hj₂ => ?_⟩
  · rw [Nat.mul_mod_mul_right, hal, Nat.zero_mul]
  · rw [hdiv] at hj₁ hj₂
    exact ⟨h.tag_of_inPool (hpool j hj₁ hj₂), hpool j hj₁ hj₂⟩
  · rw [hdiv] at hj₁ hj₂
    have ht := htag j hj₁ hj₂
    exact ⟨ht, h'.not_inPool_of_tag_pos (by omega)⟩

/-- The single-frame path hands out a frame of the pool with one reference. -/
theorem allocOne_spec (h : FrameInv s L []) :
    ∃ L', FrameInv (allocOne s).1 L' [] ∧
      ∀ f, (allocOne s).2 = some f → InPool s f ∧ ((allocOne s).1.buddy.pages f).tag = 1 := by
  have h₁ := pcpPop_inv h
  have hpop₁ : ∀ f, (pcpPop s).2 = some f → f ∈ s.pcp ∧ ((pcpPop s).1.buddy.pages f).tag = 1 :=
    fun _ => pcpPop_spec
  have hpop₂ : (pcpPop s).2 = none → (pcpPop s).1 = s := pcpPop_fst_of_none
  unfold allocOne
  generalize pcpPop s = r at h₁ hpop₁ hpop₂ ⊢
  obtain ⟨s₁, _ | f⟩ := r
  · -- the cache was empty: refill it, else drain and refill
    have hs₁ : s₁ = s := hpop₂ rfl
    subst hs₁
    obtain ⟨L₂, h₂, hnone, hsome⟩ := pcpRefill_spec h
    dsimp only
    generalize pcpRefill s₁ = r at h₂ hnone hsome ⊢
    obtain ⟨s₂, _ | f⟩ := r
    · have hs₂ : s₂ = s₁ := hnone rfl
      subst hs₂
      obtain ⟨L₃, h₃⟩ := pcpDrainAll_inv h
      obtain ⟨L₄, h₄, -, hsome₄⟩ := pcpRefill_spec h₃
      refine ⟨L₄, h₄, fun f hf => ?_⟩
      obtain ⟨hc, ht⟩ := hsome₄ f hf
      exact ⟨((pcpDrainAll_spec h).2 f).mp ((h₃.buddy.covered_iff f).mp hc), ht⟩
    · refine ⟨L₂, h₂, fun g hg => ?_⟩
      cases hg
      obtain ⟨hc, ht⟩ := hsome f rfl
      exact ⟨Or.inl ((h.buddy.covered_iff f).mp hc), ht⟩
  · obtain ⟨hf, ht⟩ := hpop₁ f rfl
    exact ⟨L, h₁, fun g hg => by cases hg; exact ⟨Or.inr hf, ht⟩⟩

/-- The end of the block path for a block buddy_alloc just handed out into b,
when count fits in it: the first count pages leave with one reference each. -/
theorem takeBlock_spec (h : FrameInv s L []) {index order count : Nat}
    (hA : Allocated s.buddy L index order b L₁) (hres : ∀ j, (b.pages j).reserved = 0)
    (hc : 0 < count) (hco : count ≤ 2 ^ order) :
    ∃ L', FrameInv (takeBlock { s with buddy := b } index order count).1 L' [] ∧
      (takeBlock { s with buddy := b } index order count).2 = index * page4kSize ∧
      ∀ j, index ≤ j → j < index + count →
        ((takeBlock { s with buddy := b } index order count).1.buddy.pages j).tag = 1 := by
  obtain ⟨hx, hko⟩ := hA.head
  rcases buddyTrimAllocation_spec hA.inv index order count with ⟨-, -, hno⟩ |
    ⟨hcode, -, -, -, -, L₂, hT⟩
  · exact absurd ⟨hx, hko, hc, hco⟩ hno
  unfold takeBlock
  dsimp only
  rw [if_neg (not_not.mpr hcode)]
  have hresr : ∀ j, ((buddyTrimAllocation b index order count).1.pages j).reserved = 0 :=
    fun j => by
      rw [buddyTrimAllocation_reserved]
      exact hres j
  generalize (buddyTrimAllocation b index order count).1 = r at hT hresr
  have hR : Retagged r (r.setPages index count tagOne) :=
    Retagged.setPages r index count _ fun j hj₁ hj₂ => Retag.of_tag (Or.inl (hT.kept j hj₁ hj₂).1) 1
  have hinv := h.carve hA hT hco hR (fun j hj => by rw [BuddyAllocator.setPages_pages, if_neg hj])
    (fun j => by rw [BuddyAllocator.setPages_pages]; split_ifs <;> exact hresr j)
    List.nodup_nil (fun _ hf => absurd hf List.not_mem_nil) (u := s.usableFrames - count) (by
      have := h.usable
      have := hA.freePages
      simp only [List.length_nil, Nat.add_zero] at *
      omega)
  refine ⟨L₂, hinv, rfl, fun j hj₁ hj₂ => ?_⟩
  dsimp only
  rw [BuddyAllocator.setPages_pages, if_pos ⟨hj₁, hj₂⟩]
  rfl

/-- The block path, once buddy_alloc handed out [i, i + 2^order) from a state t
(s, or s with its caches drained) whose free blocks lie in the pool of s. -/
theorem takeBlock_handsOut (h : FrameInv s L []) {t : FrameAllocator} {L₀ : Nat → List Nat}
    (ht : FrameInv t L₀ []) (hpool : ∀ j, Covered L₀ j → InPool s j)
    {i order count alignmentOrder : Nat} (hA : Allocated t.buddy L₀ i order b L₁)
    (hres : ∀ j, (b.pages j).reserved = 0) (hc : 0 < count) (hco : count ≤ 2 ^ order)
    (hal : alignmentOrder ≤ order) :
    ∃ L', FrameInv (takeBlock { t with buddy := b } i order count).1 L' [] ∧
      HandsOut s (takeBlock { t with buddy := b } i order count).1
        (takeBlock { t with buddy := b } i order count).2 count alignmentOrder := by
  obtain ⟨L', h', hr, htag⟩ := takeBlock_spec ht hA hres hc hco
  refine ⟨L', h', ?_⟩
  rw [hr]
  -- the block is aligned to its order, which is at least the alignment asked for
  have hio : i % 2 ^ order = 0 := by
    have := (hA.inv.alloc_block i hA.head.1).aligned
    rwa [hA.head.2] at this
  have hal' : i % 2 ^ alignmentOrder = 0 :=
    Nat.mod_eq_zero_of_dvd ((Nat.pow_dvd_pow 2 hal).trans (Nat.dvd_of_mod_eq_zero hio))
  exact HandsOut.of_frames h h' hal'
    (fun j hj₁ hj₂ => hpool j (hA.was_free j ⟨hj₁, by omega⟩)) htag

/-- alloc_frames_aligned keeps the invariant, and an address other than 0 that
it returns hands out count frames of the pool, aligned to 2^alignment_order
frames, with one reference each. -/
theorem allocFramesAligned_spec (h : FrameInv s L []) (count alignmentOrder : Nat) :
    ∃ L', FrameInv (allocFramesAligned s count alignmentOrder).1 L' [] ∧
      ((allocFramesAligned s count alignmentOrder).2 ≠ 0 →
        HandsOut s (allocFramesAligned s count alignmentOrder).1
          (allocFramesAligned s count alignmentOrder).2 count alignmentOrder) := by
  unfold allocFramesAligned
  by_cases h0 : count = 0
  · rw [if_pos h0]; exact ⟨L, h, fun hne => absurd rfl hne⟩
  rw [if_neg h0]
  by_cases hbig : buddyOrderForUnits count > buddyMaxOrder
  · rw [if_pos hbig]; exact ⟨L, h, fun hne => absurd rfl hne⟩
  rw [if_neg hbig]
  dsimp only
  by_cases hone : count = 1 ∧ alignmentOrder = 0
  · -- the single-frame path
    rw [if_pos hone]
    obtain ⟨rfl, rfl⟩ := hone
    obtain ⟨L', h', hf⟩ := allocOne_spec h
    refine ⟨L', h', fun hne => ?_⟩
    dsimp only at hne ⊢
    cases hr : (allocOne s).2 with
    | none => rw [hr] at hne; exact absurd rfl hne
    | some f =>
      obtain ⟨hp, ht⟩ := hf f hr
      dsimp only
      exact HandsOut.of_frames h h' (Nat.mod_one f)
        (fun j hj₁ hj₂ => by obtain rfl : j = f := by omega
                             exact hp)
        (fun j hj₁ hj₂ => by obtain rfl : j = f := by omega
                             exact ht)
  rw [if_neg hone]
  -- the block path: the order holds count pages at the alignment asked for
  have hfit : count ≤ 2 ^ (if alignmentOrder > buddyOrderForUnits count then alignmentOrder
      else buddyOrderForUnits count) := by
    have hc := buddyOrderForUnits_fits (Nat.pos_of_ne_zero h0) (Nat.le_of_not_lt hbig)
    split_ifs with hal
    · exact hc.trans (Nat.pow_le_pow_right Nat.zero_lt_two (Nat.le_of_lt hal))
    · exact hc
  have hal : alignmentOrder ≤ (if alignmentOrder > buddyOrderForUnits count then alignmentOrder
      else buddyOrderForUnits count) := by
    split_ifs <;> omega
  generalize (if alignmentOrder > buddyOrderForUnits count then alignmentOrder
    else buddyOrderForUnits count) = order at hfit hal ⊢
  have hc : 0 < count := Nat.pos_of_ne_zero h0
  have hspec := buddyAlloc_spec h.buddy order
  have hresb : ∀ j, ((buddyAlloc s.buddy order).1.pages j).reserved = 0 := fun j => by
    rw [buddyAlloc_reserved]
    exact h.unmarked j List.not_mem_nil
  generalize buddyAlloc s.buddy order = res at hspec hresb ⊢
  obtain ⟨b, _ | i⟩ := res
  · -- nothing free at this order: drain the caches and try once more
    rcases hspec with ⟨-, he, -⟩ | ⟨_, _, hi, -⟩
    · dsimp only at he ⊢
      subst he
      obtain ⟨L₂, h₂⟩ := pcpDrainAll_inv h
      have hspec₂ := buddyAlloc_spec h₂.buddy order
      have hresb₂ : ∀ j, ((buddyAlloc (pcpDrainAll s).buddy order).1.pages j).reserved = 0 :=
        fun j => by
          rw [buddyAlloc_reserved]
          exact h₂.unmarked j List.not_mem_nil
      generalize buddyAlloc (pcpDrainAll s).buddy order = res at hspec₂ hresb₂ ⊢
      obtain ⟨b₂, _ | i₂⟩ := res
      · rcases hspec₂ with ⟨-, he₂, -⟩ | ⟨_, _, hi₂, -⟩
        · dsimp only at he₂ ⊢
          subst he₂
          exact ⟨L₂, h₂, fun hne => absurd rfl hne⟩
        · cases hi₂
      · rcases hspec₂ with ⟨hn₂, -, -⟩ | ⟨_, L₃, hi₂, hA₂⟩
        · cases hn₂
        · dsimp only at hi₂ hA₂ ⊢
          cases hi₂
          -- the free blocks of the drained state are the pool of s
          obtain ⟨L', h', hout⟩ := takeBlock_handsOut h h₂
            (fun j hj => ((pcpDrainAll_spec h).2 j).mp ((h₂.buddy.covered_iff j).mp hj))
            hA₂ hresb₂ hc hfit hal
          exact ⟨L', h', fun _ => hout⟩
    · cases hi
  · rcases hspec with ⟨hn, -, -⟩ | ⟨_, L₁, hi, hA⟩
    · cases hn
    · dsimp only at hi hA ⊢
      cases hi
      obtain ⟨L', h', hout⟩ := takeBlock_handsOut h h
        (fun j hj => Or.inl ((h.buddy.covered_iff j).mp hj)) hA hresb hc hfit hal
      exact ⟨L', h', fun _ => hout⟩

theorem allocFramesAligned_inv (h : FrameInv s L []) (count alignmentOrder : Nat) :
    ∃ L', FrameInv (allocFramesAligned s count alignmentOrder).1 L' [] := by
  obtain ⟨L', h', -⟩ := allocFramesAligned_spec h count alignmentOrder
  exact ⟨L', h'⟩

theorem allocFrames_inv (h : FrameInv s L []) (count : Nat) :
    ∃ L', FrameInv (allocFrames s count).1 L' [] :=
  allocFramesAligned_inv h count 0

theorem allocFrames2M_inv (h : FrameInv s L []) (count : Nat) :
    ∃ L', FrameInv (allocFrames2M s count).1 L' [] := by
  unfold allocFrames2M
  split_ifs
  · exact ⟨L, h⟩
  · exact allocFramesAligned_inv h _ _

theorem allocFrames1G_inv (h : FrameInv s L []) (count : Nat) :
    ∃ L', FrameInv (allocFrames1G s count).1 L' [] := by
  unfold allocFrames1G
  split_ifs
  · exact ⟨L, h⟩
  · exact allocFramesAligned_inv h _ _

theorem allocFrames2M_spec (h : FrameInv s L []) (count : Nat) :
    ∃ L', FrameInv (allocFrames2M s count).1 L' [] ∧ ((allocFrames2M s count).2 ≠ 0 →
      HandsOut s (allocFrames2M s count).1 (allocFrames2M s count).2 (count * 512) 9) := by
  unfold allocFrames2M
  split_ifs
  · exact ⟨L, h, fun hne => absurd rfl hne⟩
  · exact allocFramesAligned_spec h _ _

theorem allocFrames1G_spec (h : FrameInv s L []) (count : Nat) :
    ∃ L', FrameInv (allocFrames1G s count).1 L' [] ∧ ((allocFrames1G s count).2 ≠ 0 →
      HandsOut s (allocFrames1G s count).1 (allocFrames1G s count).2 (count * 262144) 18) := by
  unfold allocFrames1G
  split_ifs
  · exact ⟨L, h, fun hne => absurd rfl hne⟩
  · exact allocFramesAligned_spec h _ _

end AllocAligned

end Uinxed.Frame
