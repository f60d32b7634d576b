/-
  Mem/Frame/Refs.lean --- frame_retain_range and frame_release_range keep the
  invariant.

  Both check the whole range first: every frame must be an order-0 allocated
  head with at least one reference.  frame_retain_range then adds a reference
  to each.  frame_release_range drops one from each; a frame whose last
  reference went is counted free and marked in its reserved field (it becomes
  pending), and a second loop takes each mark back and puts the frame into the
  cache.  Three page writes make up both: a write to the caller-owned fields of
  frames with references (FrameInv.retagOwned), the mark that makes an idle
  frame pending (FrameInv.markPending), and the clearing of a mark
  (FrameInv.clearMark).

  A refused call returns -1 before its first write.  An accepted
  frame_release_range leaves each frame of its range with one reference less,
  and in the pool exactly when it has none left (Releases): the cache traffic
  of the second loop changes no tag and keeps the pool.
-/
import Uinxed.Mem.Frame.Invariant

set_option autoImplicit false

namespace Uinxed.Frame

open Uinxed.Buddy

variable {t : FrameAllocator} {L : Nat → List Nat} {P : List Nat}

/-! ## Three page writes -/

namespace FrameInv

/-- Rewriting the caller-owned fields of frames with references, and of no
other page, without touching any mark. -/
theorem retagOwned (h : FrameInv t L P) {b' : BuddyAllocator} (hR : Retagged t.buddy b')
    (hout : ∀ x, (t.buddy.pages x).tag = 0 → b'.pages x = t.buddy.pages x)
    (hres : ∀ x, (b'.pages x).reserved = (t.buddy.pages x).reserved) :
    FrameInv { t with buddy := b' } L P := by
  -- idle frames have no references, so they are untouched
  have hidle : ∀ x, Idle t.buddy x → Idle b' x := fun x hi => hi.congr (hout x hi.2.2)
  exact
  { buddy := h.buddy.retag hR
    usable := by rw [hR.freePages]; exact h.usable
    pcp_nodup := h.pcp_nodup
    pending_nodup := h.pending_nodup
    pending_not_cached := h.pending_not_cached
    cached := fun x hx => hidle x (h.cached x hx)
    pending := fun x hx => hidle x (h.pending x hx)
    tagged := fun x hx => by
      dsimp only at hx ⊢
      by_cases ht : (t.buddy.pages x).tag = 0
      · rw [hout x ht, ht] at hx
        exact absurd hx (Nat.lt_irrefl 0)
      · rw [(hR.pages x).state, (hR.pages x).order]
        exact h.tagged x (Nat.pos_of_ne_zero ht)
    unmarked := fun x hx => by
      dsimp only
      rw [hres x]
      exact h.unmarked x hx
    pcp_le := h.pcp_le }

/-- Marking an idle frame outside the cache makes it pending and counts it free. -/
theorem markPending (h : FrameInv t L P) {j : Nat} (hj : Idle t.buddy j) (hjc : j ∉ t.pcp)
    (hjP : j ∉ P) :
    FrameInv { t with buddy := t.buddy.setPage j fun p => { p with reserved := 1 },
                      usableFrames := t.usableFrames + 1 } L (P ++ [j]) := by
  have hpg : ∀ x, (t.buddy.setPage j fun p => { p with reserved := 1 }).pages x =
      if x = j then { t.buddy.pages x with reserved := 1 } else t.buddy.pages x :=
    BuddyAllocator.setPage_pages _ _ _
  -- every page keeps its state, order and tag
  have hsame : ∀ x, Idle (t.buddy.setPage j fun p => { p with reserved := 1 }) x ↔ Idle t.buddy x :=
    fun x => by
      unfold Idle
      rw [hpg]
      split_ifs <;> exact Iff.rfl
  exact
  { buddy := h.buddy.retag
      (Retagged.setPage t.buddy j (fun p => { p with reserved := 1 }) (Retag.of_reserved _ 1))
    usable := by
      dsimp only
      rw [h.usable, List.length_append, List.length_singleton]
      rfl
    pcp_nodup := h.pcp_nodup
    pending_nodup := List.nodup_append.mpr ⟨h.pending_nodup, List.nodup_singleton j,
      fun x hx y hy hxy => hjP (by rw [List.mem_singleton.mp hy] at hxy; exact hxy ▸ hx)⟩
    pending_not_cached := fun x hx => by
      rcases List.mem_append.mp hx with hx | hx
      · exact h.pending_not_cached x hx
      · rw [List.mem_singleton.mp hx]; exact hjc
    cached := fun x hx => (hsame x).mpr (h.cached x hx)
    pending := fun x hx => by
      rcases List.mem_append.mp hx with hx | hx
      · exact (hsame x).mpr (h.pending x hx)
      · rw [List.mem_singleton.mp hx]; exact (hsame j).mpr hj
    tagged := fun x hx => by
      dsimp only at hx ⊢
      rw [hpg] at hx ⊢
      split_ifs at hx ⊢ <;> exact h.tagged x hx
    unmarked := fun x hx => by
      have hxj : x ≠ j := fun e => hx (List.mem_append_right P (List.mem_singleton.mpr e))
      dsimp only
      rw [hpg, if_neg hxj]
      exact h.unmarked x fun hm => hx (List.mem_append_left [j] hm)
    pcp_le := h.pcp_le }

/-- Clearing the mark of any page. -/
theorem clearMark (h : FrameInv t L P) (j : Nat) :
    FrameInv { t with buddy := t.buddy.setPage j fun p => { p with reserved := 0 } } L P := by
  have hpg : ∀ x, (t.buddy.setPage j fun p => { p with reserved := 0 }).pages x =
      if x = j then { t.buddy.pages x with reserved := 0 } else t.buddy.pages x :=
    BuddyAllocator.setPage_pages _ _ _
  have hsame : ∀ x, Idle (t.buddy.setPage j fun p => { p with reserved := 0 }) x ↔ Idle t.buddy x :=
    fun x => by
      unfold Idle
      rw [hpg]
      split_ifs <;> exact Iff.rfl
  exact
  { buddy := h.buddy.retag
      (Retagged.setPage t.buddy j (fun p => { p with reserved := 0 }) (Retag.of_reserved _ 0))
    usable := h.usable
    pcp_nodup := h.pcp_nodup
    pending_nodup := h.pending_nodup
    pending_not_cached := h.pending_not_cached
    cached := fun x hx => (hsame x).mpr (h.cached x hx)
    pending := fun x hx => (hsame x).mpr (h.pending x hx)
    tagged := fun x hx => by
      dsimp only at hx ⊢
      rw [hpg] at hx ⊢
      split_ifs at hx ⊢ <;> exact h.tagged x hx
    unmarked := fun x hx => by
      dsimp only
      rw [hpg]
      split_ifs
      · rfl
      · exact h.unmarked x hx
    pcp_le := h.pcp_le }

end FrameInv

/-! ## frame_retain_range -/

variable {s : FrameAllocator}

/-- The range checks of frame_retain_range and frame_release_range: every page
of a range that passes them fails the rejecting test. -/
theorem range_checked {p : Nat → Bool} {index count : Nat}
    (hany : ¬ (List.range' index count).any p = true) {j : Nat} (hj₁ : index ≤ j)
    (hj₂ : j < index + count) : p j = false :=
  Bool.eq_false_iff.mpr
    (List.any_eq_false.mp (Bool.eq_false_iff.mpr hany) j (List.mem_range'_1.mpr ⟨hj₁, hj₂⟩))

/-- frame_retain_range keeps the invariant. -/
theorem frameRetainRange_inv (h : FrameInv s L []) (addr count : Nat) :
    ∃ L', FrameInv (frameRetainRange s addr count).1 L' [] := by
  unfold frameRetainRange
  dsimp only
  split_ifs with hbad hany
  · exact ⟨L, h⟩
  · exact ⟨L, h⟩
  -- every page of the range is an order-0 head with references
  have hok : ∀ j, addr / page4kSize ≤ j → j < addr / page4kSize + count →
      (s.buddy.pages j).state = .allocHead ∧ 0 < (s.buddy.pages j).tag := by
    intro j hj₁ hj₂
    have hj := range_checked hany hj₁ hj₂
    simp only [decide_eq_false_iff_not, not_or, not_not] at hj
    exact ⟨hj.1, Nat.pos_of_ne_zero hj.2.2.1⟩
  refine ⟨L, h.retagOwned (Retagged.setPages _ _ _ _ fun j hj₁ hj₂ =>
    Retag.of_tag (Or.inl (hok j hj₁ hj₂).1) _) (fun x hx => ?_) fun x => ?_⟩
  · rw [BuddyAllocator.setPages_pages, if_neg]
    rintro ⟨hx₁, hx₂⟩
    have := (hok x hx₁ hx₂).2
    omega
  · rw [BuddyAllocator.setPages_pages]
    split_ifs <;> rfl

/-- A refused frame_retain_range changes nothing. -/
theorem frameRetainRange_fst_of_refused {addr count : Nat}
    (hr : (frameRetainRange s addr count).2 = -1) : (frameRetainRange s addr count).1 = s := by
  unfold frameRetainRange at hr ⊢
  dsimp only at hr ⊢
  split_ifs at hr ⊢
  · rfl
  · rfl

/-! ## frame_release_range -/

section Release

variable {b : BuddyAllocator} {c j : Nat}

/-- The frame's tag is decremented; the decrement that leaves no reference
marks the frame and counts it. -/
theorem releaseStep_of_last (h1 : (b.pages j).tag = 1) :
    releaseStep (b, c) j = ((b.setPage j fun p => { p with tag := p.tag - 1 }).setPage j
      fun p => { p with reserved := 1 }, c + 1) := by
  unfold releaseStep
  dsimp only
  split_ifs with h0
  · rfl
  · simp [h1] at h0

theorem releaseStep_of_more (h1 : 1 < (b.pages j).tag) :
    releaseStep (b, c) j = (b.setPage j fun p => { p with tag := p.tag - 1 }, c) := by
  unfold releaseStep
  dsimp only
  split_ifs with h0
  · simp only [BuddyAllocator.setPage_pages, ↓reduceIte] at h0
    omega
  · rfl

/-- One release step drops a reference from frame j alone and keeps every
page's state and order. -/
theorem releaseStep_pages (acc : BuddyAllocator × Nat) (j x : Nat) :
    ((releaseStep acc j).1.pages x).tag =
        (if x = j then (acc.1.pages x).tag - 1 else (acc.1.pages x).tag) ∧
      ((releaseStep acc j).1.pages x).state = (acc.1.pages x).state ∧
      ((releaseStep acc j).1.pages x).order = (acc.1.pages x).order := by
  unfold releaseStep
  dsimp only
  by_cases hx : x = j
  · subst hx
    split_ifs <;> simp_all
  · split_ifs <;> simp [hx]

/-- The first loop of frame_release_range, over distinct heads with references:
each frame left without references becomes pending, in the order of the loop,
and is counted. -/
theorem releaseLoop_inv {s : FrameAllocator} {L : Nat → List Nat} (l : List Nat) :
    ∀ {b : BuddyAllocator} {c : Nat} {P : List Nat},
      FrameInv { s with buddy := b, usableFrames := s.usableFrames + c } L P →
      (∀ g ∈ P, (b.pages g).reserved ≠ 0) → l.Nodup →
      (∀ j ∈ l, (b.pages j).state = .allocHead ∧ 0 < (b.pages j).tag) →
      FrameInv
        { s with
          buddy := (l.foldl releaseStep (b, c)).1
          usableFrames := s.usableFrames + (l.foldl releaseStep (b, c)).2 } L
        (P ++ l.filter fun j => (b.pages j).tag = 1) ∧
      (∀ g ∈ P ++ l.filter (fun j => (b.pages j).tag = 1),
        ((l.foldl releaseStep (b, c)).1.pages g).reserved ≠ 0) ∧
      (l.foldl releaseStep (b, c)).2 = c + (l.filter fun j => (b.pages j).tag = 1).length := by
  induction l with
  | nil =>
    intro b c P h hm _ _
    rw [List.foldl_nil, List.filter_nil, List.append_nil, List.length_nil, Nat.add_zero]
    exact ⟨h, hm, rfl⟩
  | cons j l ih =>
    intro b c P h hm hnd hok
    obtain ⟨hjl, hnd'⟩ := List.nodup_cons.mp hnd
    obtain ⟨hx, ht⟩ := hok j List.mem_cons_self
    -- the frame has references, so it is neither cached nor pending
    have hidle : ¬ Idle b j := FrameInv.not_idle_of_tag_pos ht
    have hjc : j ∉ s.pcp := fun hc => hidle (h.cached j hc)
    have hjP : j ∉ P := fun hp => hidle (h.pending j hp)
    have ho : (b.pages j).order = 0 := (h.tagged j ht).2
    -- the decrement, as a write to a frame with references
    have h₁ := h.retagOwned (Retagged.setPage b j (fun p => { p with tag := p.tag - 1 })
      (Retag.of_tag (Or.inl hx) _)) (fun x hx0 => by
        rw [BuddyAllocator.setPage_pages, if_neg]
        rintro rfl
        dsimp only at hx0
        omega) (fun x => by rw [BuddyAllocator.setPage_pages]; split_ifs <;> rfl)
    -- the rest of the range is untouched by the step at j
    have hrest : ∀ {b' : BuddyAllocator}, (∀ x, x ≠ j → b'.pages x = b.pages x) →
        (l.filter fun x => (b'.pages x).tag = 1) = (l.filter fun x => (b.pages x).tag = 1) ∧
        ∀ x ∈ l, (b'.pages x).state = .allocHead ∧ 0 < (b'.pages x).tag := fun hb' =>
      ⟨List.filter_congr fun x hx' => by rw [hb' x fun e => hjl (e ▸ hx')],
        fun x hx' => by rw [hb' x fun e => hjl (e ▸ hx')]; exact hok x (List.mem_cons_of_mem j hx')⟩
    by_cases h1 : (b.pages j).tag = 1
    · -- the last reference: the frame becomes pending
      have h₂ := h₁.markPending ⟨by simpa using hx, by simpa using ho, by simp [h1]⟩ hjc hjP
      have hpg : ∀ x, x ≠ j → (((b.setPage j fun p => { p with tag := p.tag - 1 }).setPage j
          fun p => { p with reserved := 1 }).pages x) = b.pages x := fun x hxj => by
        simp only [BuddyAllocator.setPage_pages, if_neg hxj]
      obtain ⟨hf, hl⟩ := hrest hpg
      rw [List.foldl_cons, releaseStep_of_last h1]
      obtain ⟨hinv, hmark, hcount⟩ := ih (c := c + 1) (P := P ++ [j]) h₂ (fun g hg => by
        rcases List.mem_append.mp hg with hg | hg
        · rw [hpg g fun e => hjP (e ▸ hg)]; exact hm g hg
        · rw [List.mem_singleton.mp hg]; simp) hnd' hl
      rw [hf] at hinv hmark hcount
      have hP : P ++ [j] ++ l.filter (fun x => (b.pages x).tag = 1) =
          P ++ (j :: l).filter fun x => (b.pages x).tag = 1 := by
        rw [List.filter_cons_of_pos (by simpa using h1), List.append_assoc, List.singleton_append]
      rw [hP] at hinv hmark
      refine ⟨hinv, hmark, ?_⟩
      rw [hcount, List.filter_cons_of_pos (by simpa using h1), List.length_cons]
      omega
    · -- references remain
      have hmore : 1 < (b.pages j).tag := by omega
      have hpg : ∀ x, x ≠ j → ((b.setPage j fun p => { p with tag := p.tag - 1 }).pages x) =
          b.pages x := fun x hxj => by
        simp only [BuddyAllocator.setPage_pages, if_neg hxj]
      obtain ⟨hf, hl⟩ := hrest hpg
      rw [List.foldl_cons, releaseStep_of_more hmore]
      obtain ⟨hinv, hmark, hcount⟩ := ih h₁ (fun g hg => by
        rw [hpg g fun e => hjP (e ▸ hg)]; exact hm g hg) hnd' hl
      rw [hf, ← List.filter_cons_of_neg (by simpa using h1)] at hinv hmark hcount
      exact ⟨hinv, hmark, hcount⟩

/-- The first loop of frame_release_range over distinct frames drops one
reference from each of them and touches no other tag, state or order. -/
theorem releaseLoop_pages (l : List Nat) (hnd : l.Nodup) :
    ∀ (acc : BuddyAllocator × Nat) (x : Nat),
      ((l.foldl releaseStep acc).1.pages x).tag =
          (if x ∈ l then (acc.1.pages x).tag - 1 else (acc.1.pages x).tag) ∧
        ((l.foldl releaseStep acc).1.pages x).state = (acc.1.pages x).state ∧
        ((l.foldl releaseStep acc).1.pages x).order = (acc.1.pages x).order := by
  induction l with
  | nil => intro acc x; simp
  | cons j l ih =>
    intro acc x
    obtain ⟨hjl, hnd'⟩ := List.nodup_cons.mp hnd
    obtain ⟨ht, hs, ho⟩ := ih hnd' (releaseStep acc j) x
    obtain ⟨ht₁, hs₁, ho₁⟩ := releaseStep_pages acc j x
    rw [List.foldl_cons, ht, hs, ho, ht₁, hs₁, ho₁]
    refine ⟨?_, rfl, rfl⟩
    by_cases hxj : x = j
    · subst hxj
      simp [hjl]
    · by_cases hxl : x ∈ l <;> simp [hxj, hxl]

theorem handoffStep_of_marked {t : FrameAllocator} {j : Nat} (hm : (t.buddy.pages j).reserved ≠ 0) :
    handoffStep t j = pcpPut { t with buddy := t.buddy.setPage j fun p => { p with reserved := 0 } } j := by
  unfold handoffStep
  dsimp only
  rw [if_pos hm]

theorem handoffStep_of_unmarked {t : FrameAllocator} {j : Nat} (hm : (t.buddy.pages j).reserved = 0) :
    handoffStep t j = { t with buddy := t.buddy.setPage j fun p => { p with reserved := 0 } } := by
  unfold handoffStep
  dsimp only
  rw [if_neg (not_not.mpr hm)]

/-- Clearing the hand-off mark of a frame changes no tag and leaves the pool. -/
theorem clearMark_spec (t : FrameAllocator) (j : Nat) :
    (∀ x, ((t.buddy.setPage j fun p => { p with reserved := 0 }).pages x).tag =
      (t.buddy.pages x).tag) ∧
      ∀ x, InPool { t with buddy := t.buddy.setPage j fun p => { p with reserved := 0 } } x ↔
        InPool t x := by
  have hpg : ∀ x, (t.buddy.setPage j fun p => { p with reserved := 0 }).pages x =
      if x = j then { t.buddy.pages x with reserved := 0 } else t.buddy.pages x :=
    BuddyAllocator.setPage_pages _ _ _
  have hfree : ∀ x, InFreeBlock (t.buddy.setPage j fun p => { p with reserved := 0 }) x ↔
      InFreeBlock t.buddy x :=
    InFreeBlock.congr (fun i => by rw [hpg]; split_ifs <;> rfl) (fun i => by rw [hpg]; split_ifs <;> rfl)
  refine ⟨fun x => by rw [hpg]; split_ifs <;> rfl, fun x => ?_⟩
  unfold InPool
  rw [hfree]

/-- The second loop of frame_release_range, over distinct frames whose marked
ones are the pending frames in loop order: each mark is taken back and its
frame cached, so no frame is left pending, no tag changes, and the pool keeps
its frames and gains the pending ones. -/
theorem handoffLoop_spec (l : List Nat) :
    ∀ {t : FrameAllocator} {L : Nat → List Nat} {P : List Nat}, FrameInv t L P → P.Sublist l →
      l.Nodup → (∀ g ∈ P, (t.buddy.pages g).reserved ≠ 0) →
      (∃ L', FrameInv (l.foldl handoffStep t) L' []) ∧
        (∀ x, ((l.foldl handoffStep t).buddy.pages x).tag = (t.buddy.pages x).tag) ∧
        ∀ x, InPool t x ∨ x ∈ P → InPool (l.foldl handoffStep t) x := by
  induction l with
  | nil =>
    intro t L P h hP _ _
    rw [List.sublist_nil.mp hP] at h ⊢
    exact ⟨⟨L, h⟩, fun _ => rfl, fun x hx => hx.resolve_right List.not_mem_nil⟩
  | cons j l ih =>
    intro t L P h hP hnd hm
    obtain ⟨hjl, hnd'⟩ := List.nodup_cons.mp hnd
    obtain ⟨hclear, hpool⟩ := clearMark_spec t j
    -- clearing the mark of j changes no other page
    have hpg : ∀ g, g ≠ j →
        (t.buddy.setPage j fun p => { p with reserved := 0 }).pages g = t.buddy.pages g :=
      fun g hg => by rw [BuddyAllocator.setPage_pages, if_neg hg]
    rw [List.foldl_cons]
    by_cases hjP : j ∈ P
    · -- j is the first pending frame: it goes into the cache
      obtain ⟨P', rfl, hP'⟩ : ∃ P', P = j :: P' ∧ P'.Sublist l := by
        rcases List.sublist_cons_iff.mp hP with hP | ⟨r, hr, hrl⟩
        · exact absurd (hP.subset hjP) hjl
        · exact ⟨r, hr, hrl⟩
      have hjP' : j ∉ P' := (List.nodup_cons.mp h.pending_nodup).1
      rw [handoffStep_of_marked (hm j List.mem_cons_self)]
      have hc := h.clearMark j
      obtain ⟨L₁, h₁⟩ := pcpPut_inv hc (by
        dsimp only
        rw [BuddyAllocator.setPage_pages, if_pos rfl])
      obtain ⟨htag₁, hpool₁⟩ := pcpPut_spec hc j
      obtain ⟨hinv, htag, hpoolf⟩ := ih h₁ hP' hnd' fun g hg => by
        rw [pcpPut_reserved]
        dsimp only
        rw [hpg g fun e => hjP' (e ▸ hg)]
        exact hm g (List.mem_cons_of_mem j hg)
      refine ⟨hinv, fun x => by rw [htag, htag₁]; exact hclear x, fun x hx => hpoolf x ?_⟩
      rcases hx with hx | hx
      · exact Or.inl (hpool₁ x (Or.inl ((hpool x).mpr hx)))
      · rcases List.mem_cons.mp hx with rfl | hx
        · exact Or.inl (hpool₁ x (Or.inr rfl))
        · exact Or.inr hx
    · -- j carries no mark: only the exchange happens
      have hP' : P.Sublist l := by
        rcases List.sublist_cons_iff.mp hP with hP | ⟨r, hr, -⟩
        · exact hP
        · exact absurd (hr ▸ List.mem_cons_self) hjP
      rw [handoffStep_of_unmarked (h.unmarked j hjP)]
      obtain ⟨hinv, htag, hpoolf⟩ := ih (h.clearMark j) hP' hnd' fun g hg => by
        dsimp only
        rw [hpg g fun e => hjP (e ▸ hg)]
        exact hm g hg
      refine ⟨hinv, fun x => by rw [htag]; exact hclear x, fun x hx => hpoolf x ?_⟩
      rcases hx with hx | hx
      · exact Or.inl ((hpool x).mpr hx)
      · exact Or.inr hx

end Release

/-- What frame_release_range did to the frames [index, index + count): each lost
exactly one reference and is in the pool exactly when none is left, and no
other frame's references changed. -/
structure Releases (s s' : FrameAllocator) (index count : Nat) : Prop where
  decrement : ∀ j, index ≤ j → j < index + count →
    (s'.buddy.pages j).tag + 1 = (s.buddy.pages j).tag
  freed : ∀ j, index ≤ j → j < index + count → (InPool s' j ↔ (s'.buddy.pages j).tag = 0)
  others : ∀ j, ¬ (index ≤ j ∧ j < index + count) →
    (s'.buddy.pages j).tag = (s.buddy.pages j).tag

/-- A state s' keeping the invariant whose tags are those of s less one on the
range, of frames with references, and whose pool holds every frame of the
range that had a single reference, is the result of releasing the range. -/
theorem Releases.of_tags {s' : FrameAllocator} {L' : Nat → List Nat} (h' : FrameInv s' L' [])
    {index count : Nat}
    (hpos : ∀ j, index ≤ j → j < index + count → 0 < (s.buddy.pages j).tag)
    (htag : ∀ j, (s'.buddy.pages j).tag = if j ∈ List.range' index count
      then (s.buddy.pages j).tag - 1 else (s.buddy.pages j).tag)
    (hfreed : ∀ j, index ≤ j → j < index + count → (s.buddy.pages j).tag = 1 → InPool s' j) :
    Releases s s' index count where
  decrement j hj₁ hj₂ := by
    rw [htag, if_pos (List.mem_range'_1.mpr ⟨hj₁, hj₂⟩)]
    have := hpos j hj₁ hj₂
    omega
  freed j hj₁ hj₂ := by
    refine ⟨h'.tag_of_inPool, fun h0 => hfreed j hj₁ hj₂ ?_⟩
    rw [htag, if_pos (List.mem_range'_1.mpr ⟨hj₁, hj₂⟩)] at h0
    have := hpos j hj₁ hj₂
    omega
  others j hj := by
    rw [htag, if_neg fun hm => hj (List.mem_range'_1.mp hm)]

/-- frame_release_range keeps the invariant; refused, it changes nothing, and
accepted, it drops one reference from each frame of the range and returns to
the pool exactly the frames left without one. -/
theorem frameReleaseRange_spec (h : FrameInv s L []) (addr count : Nat) :
    (∃ L', FrameInv (frameReleaseRange s addr count).1 L' []) ∧
      ((frameReleaseRange s addr count).2 = -1 → (frameReleaseRange s addr count).1 = s) ∧
      ((frameReleaseRange s addr count).2 = 0 →
        Releases s (frameReleaseRange s addr count).1 (addr / page4kSize) count) := by
  unfold frameReleaseRange
  dsimp only
  split_ifs with hbad hany hnone
  · exact ⟨⟨L, h⟩, fun _ => rfl, fun h0 => by simp at h0⟩
  · exact ⟨⟨L, h⟩, fun _ => rfl, fun h0 => by simp at h0⟩
  all_goals
    have hok : ∀ j ∈ List.range' (addr / page4kSize) count,
        (s.buddy.pages j).state = .allocHead ∧ 0 < (s.buddy.pages j).tag := by
      intro j hj
      obtain ⟨hj₁, hj₂⟩ := List.mem_range'_1.mp hj
      have hj := range_checked hany hj₁ hj₂
      simp only [decide_eq_false_iff_not, not_or, not_not] at hj
      exact ⟨hj.1, Nat.pos_of_ne_zero hj.2.2⟩
    have hpos : ∀ j, addr / page4kSize ≤ j → j < addr / page4kSize + count →
        0 < (s.buddy.pages j).tag :=
      fun j hj₁ hj₂ => (hok j (List.mem_range'_1.mpr ⟨hj₁, hj₂⟩)).2
    have htag := fun j => (releaseLoop_pages (List.range' (addr / page4kSize) count)
      List.nodup_range' (s.buddy, 0) j).1
    obtain ⟨h₁, hm₁, hcount⟩ := releaseLoop_inv (List.range' (addr / page4kSize) count) (c := 0)
      (P := []) h (fun _ hg => absurd hg List.not_mem_nil) List.nodup_range' hok
    rw [List.nil_append] at h₁ hm₁
  · -- nothing was freed: no frame of the range had a single reference
    rw [hnone, Nat.zero_add, eq_comm, List.length_eq_zero_iff] at hcount
    rw [hcount] at h₁
    refine ⟨⟨L, h₁⟩, fun h1 => by simp at h1, fun _ => Releases.of_tags h₁ hpos htag ?_⟩
    intro j hj₁ hj₂ h1
    have hj : j ∈ (List.range' (addr / page4kSize) count).filter
        fun j => (s.buddy.pages j).tag = 1 :=
      List.mem_filter.mpr ⟨List.mem_range'_1.mpr ⟨hj₁, hj₂⟩, by simpa using h1⟩
    rw [hcount] at hj
    exact absurd hj List.not_mem_nil
  · -- the frames left without references are cached by the second loop
    obtain ⟨⟨L', h'⟩, htag₂, hpool⟩ :=
      handoffLoop_spec _ h₁ List.filter_sublist List.nodup_range' hm₁
    refine ⟨⟨L', h'⟩, fun h1 => by simp at h1, fun _ => Releases.of_tags h' hpos
      (fun j => (htag₂ j).trans (htag j)) ?_⟩
    intro j hj₁ hj₂ h1
    exact hpool j (Or.inr (List.mem_filter.mpr ⟨List.mem_range'_1.mpr ⟨hj₁, hj₂⟩, by simpa using h1⟩))

/-- frame_release_range keeps the invariant: the frames it frees are counted
and cached. -/
theorem frameReleaseRange_inv (h : FrameInv s L []) (addr count : Nat) :
    ∃ L', FrameInv (frameReleaseRange s addr count).1 L' [] :=
  (frameReleaseRange_spec h addr count).1

end Uinxed.Frame
