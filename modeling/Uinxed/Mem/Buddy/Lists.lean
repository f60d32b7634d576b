/-
  Mem/Buddy/Lists.lean --- the free lists of the allocator, read as lists.

  FreeLists a L relates the int32 links stored in the page descriptors to a
  family of ordinary lists, L k being the order-k free list from head to tail.
  L is ghost state: no field of the allocator holds it, but every operation
  below states how it changes.

  The two primitives list_add and list_remove get one field lemma each for the
  state, order and link fields they touch; every later proof reads pages back
  through these lemmas and never unfolds the primitives.  Their effect on the
  lists is the library's IsList.push and IsList.unlink.
-/
import Uinxed.Mem.Buddy.Basic
import Uinxed.Lib.ThreadedList

set_option autoImplicit false

namespace Uinxed.Buddy

open ThreadedList

/-! ## Links -/

/-- The int32 encoding of a free-list link: BUDDY_INDEX_NONE or an index. -/
def link : Option Nat → Int
  | none => buddyIndexNone
  | some n => n

@[simp] theorem link_none : link none = -1 := rfl
@[simp] theorem link_some (n : Nat) : link (some n) = n := rfl

theorem link_eq_none_iff (o : Option Nat) : link o = buddyIndexNone ↔ o = none := by
  cases o with
  | none => simp [buddyIndexNone]
  | some n => simp only [link_some, buddyIndexNone, reduceCtorEq]

/-- Reading a link that is not BUDDY_INDEX_NONE as a size_t index. -/
theorem link_toNat_eq {o : Option Nat} {n : Nat} :
    (link o ≠ buddyIndexNone ∧ n = (link o).toNat) ↔ o = some n := by
  cases o with
  | none => simp [buddyIndexNone]
  | some m => simp [buddyIndexNone]; omega

/-- The next links of a, as a function of the page index. -/
def nextOf (a : BuddyAllocator) (i : Nat) : Int := (a.pages i).next

/-- The prev links of a, as a function of the page index. -/
def prevOf (a : BuddyAllocator) (i : Nat) : Int := (a.pages i).prev

/-! ## The free lists -/

/-- L k is the order-k free list of a, and the free lists hold exactly the
BUDDY_PAGE_FREE_HEAD pages, each with its own order. -/
structure FreeLists (a : BuddyAllocator) (L : Nat → List Nat) : Prop where
  isList : ∀ k, IsList link (nextOf a) (prevOf a) (a.freeHead k) (L k)
  count : ∀ k, a.freeCount k = (L k).length
  head_iff : ∀ i, (a.pages i).state = .freeHead ↔ ∃ k, i ∈ L k
  order_eq : ∀ k i, i ∈ L k → (a.pages i).order = k

namespace FreeLists

variable {a : BuddyAllocator} {L : Nat → List Nat}

theorem state_of_mem (h : FreeLists a L) {k i : Nat} (hi : i ∈ L k) :
    (a.pages i).state = .freeHead :=
  (h.head_iff i).mpr ⟨k, hi⟩

/-- A page is on at most one free list. -/
theorem eq_of_mem (h : FreeLists a L) {k k' i : Nat} (hi : i ∈ L k) (hi' : i ∈ L k') :
    k = k' := by
  rw [← h.order_eq k i hi, h.order_eq k' i hi']

theorem not_mem_of_state (h : FreeLists a L) {i : Nat} (hi : (a.pages i).state ≠ .freeHead)
    (k : Nat) : i ∉ L k :=
  fun hm => hi (h.state_of_mem hm)

/-- The head link of a non-empty list names its first page. -/
theorem head_toNat (h : FreeLists a L) {k x : Nat} (hx : (L k).head? = some x) :
    a.freeHead k ≠ buddyIndexNone ∧ (a.freeHead k).toNat = x := by
  have := link_toNat_eq.mpr hx
  rw [← (h.isList k).head_eq] at this
  exact ⟨this.1, this.2.symm⟩

/-- The head link of order k is BUDDY_INDEX_NONE exactly when L k is empty. -/
theorem freeHead_eq_none_iff (h : FreeLists a L) (k : Nat) :
    a.freeHead k = buddyIndexNone ↔ L k = [] := by
  rw [(h.isList k).head_eq, link_eq_none_iff, List.head?_eq_none_iff]

/-- The previous link of a listed page names a page of the same list. -/
theorem prev_mem (h : FreeLists a L) {k b : Nat} (hb : b ∈ L k)
    (hp : (a.pages b).prev ≠ buddyIndexNone) : ((a.pages b).prev).toNat ∈ L k := by
  obtain ⟨l₁, l₂, hl⟩ := List.append_of_mem hb
  have hil := h.isList k
  rw [hl] at hil
  have hprev : (a.pages b).prev = link l₁.getLast? := hil.links.1
  rw [hl]
  cases ho : l₁.getLast? with
  | none => rw [hprev, ho] at hp; exact absurd rfl hp
  | some y =>
    rw [hprev, ho, link_some, Int.toNat_natCast]
    exact List.mem_append_left _ (List.mem_of_getLast? ho)

/-- The next link of a listed page names a page of the same list. -/
theorem next_mem (h : FreeLists a L) {k b : Nat} (hb : b ∈ L k)
    (hn : (a.pages b).next ≠ buddyIndexNone) : ((a.pages b).next).toNat ∈ L k := by
  obtain ⟨l₁, l₂, hl⟩ := List.append_of_mem hb
  have hil := h.isList k
  rw [hl] at hil
  have hnext : (a.pages b).next = link l₂.head? := hil.links.2
  rw [hl]
  cases ho : l₂.head? with
  | none => rw [hnext, ho] at hn; exact absurd rfl hn
  | some y =>
    rw [hnext, ho, link_some, Int.toNat_natCast]
    exact List.mem_append_right _ (List.mem_cons_of_mem _ (List.mem_of_mem_head? ho))

end FreeLists

/-! ## list_add -/

section ListAdd

variable (a : BuddyAllocator) (i k : Nat)

@[simp] theorem listAdd_pageCount : (listAdd a i k).pageCount = a.pageCount := by
  simp only [listAdd]; split <;> rfl
@[simp] theorem listAdd_maxOrder : (listAdd a i k).maxOrder = a.maxOrder := by
  simp only [listAdd]; split <;> rfl
@[simp] theorem listAdd_freePages : (listAdd a i k).freePages = a.freePages + orderUnits k := by
  simp only [listAdd]; split <;> rfl
@[simp] theorem listAdd_freeHead :
    (listAdd a i k).freeHead = Function.update a.freeHead k i := by
  simp only [listAdd]; split <;> rfl
@[simp] theorem listAdd_freeCount :
    (listAdd a i k).freeCount = Function.update a.freeCount k (a.freeCount k + 1) := by
  simp only [listAdd]; split <;> rfl

-- Each field lemma splits on the two writes; the branches where the old head
-- is page i itself are contradictory or agree field by field.
@[simp] theorem listAdd_state (j : Nat) :
    ((listAdd a i k).pages j).state = if j = i then .freeHead else (a.pages j).state := by
  simp only [listAdd]
  split <;> simp only [BuddyAllocator.setPage_pages] <;> split_ifs <;> rfl

@[simp] theorem listAdd_order (j : Nat) :
    ((listAdd a i k).pages j).order = if j = i then k else (a.pages j).order := by
  simp only [listAdd]
  split <;> simp only [BuddyAllocator.setPage_pages] <;> split_ifs <;> rfl

@[simp] theorem listAdd_tag (j : Nat) : ((listAdd a i k).pages j).tag = (a.pages j).tag := by
  simp only [listAdd]
  split <;> simp only [BuddyAllocator.setPage_pages] <;> split_ifs <;> rfl

@[simp] theorem listAdd_reserved (j : Nat) :
    ((listAdd a i k).pages j).reserved = (a.pages j).reserved := by
  simp only [listAdd]
  split <;> simp only [BuddyAllocator.setPage_pages] <;> split_ifs <;> rfl

/-- list_add writes no page but page i and the old head. -/
theorem listAdd_pages_of_ne {j : Nat} (hj : j ≠ i)
    (hh : ¬ (a.freeHead k ≠ buddyIndexNone ∧ j = (a.freeHead k).toNat)) :
    (listAdd a i k).pages j = a.pages j := by
  simp only [listAdd]
  split <;> simp only [BuddyAllocator.setPage_pages] <;> split_ifs <;>
    first | rfl | (exfalso; omega)

theorem listAdd_next (j : Nat) :
    nextOf (listAdd a i k) j = if j = i then a.freeHead k else nextOf a j := by
  simp only [listAdd, nextOf]
  split <;> simp only [BuddyAllocator.setPage_pages] <;> split_ifs <;> rfl

theorem listAdd_prev (j : Nat) :
    prevOf (listAdd a i k) j =
      if a.freeHead k ≠ buddyIndexNone ∧ j = (a.freeHead k).toNat then (i : Int)
      else if j = i then buddyIndexNone else prevOf a j := by
  simp only [listAdd, prevOf]
  split <;> simp only [BuddyAllocator.setPage_pages] <;> split_ifs <;>
    first | rfl | (exfalso; omega)

end ListAdd

/-! ## list_remove -/

section ListRemove

variable (a : BuddyAllocator) (i k : Nat)

theorem unlinkPrev_pages (j : Nat) :
    (unlinkPrev a i k).pages j =
      if (a.pages i).prev ≠ buddyIndexNone ∧ j = ((a.pages i).prev).toNat then
        { a.pages j with next := (a.pages i).next }
      else a.pages j := by
  simp only [unlinkPrev]
  split <;> simp only [BuddyAllocator.setPage_pages] <;> split_ifs <;>
    first | rfl | (exfalso; omega)

theorem unlinkNext_pages (j : Nat) :
    (unlinkNext a i).pages j =
      if (a.pages i).next ≠ buddyIndexNone ∧ j = ((a.pages i).next).toNat then
        { a.pages j with prev := (a.pages i).prev }
      else a.pages j := by
  simp only [unlinkNext]
  split
  · simp only [BuddyAllocator.setPage_pages]
    split_ifs <;> first | rfl | (exfalso; omega)
  · split_ifs <;> first | rfl | (exfalso; omega)

theorem unlinkPrev_fields :
    (unlinkPrev a i k).pageCount = a.pageCount ∧ (unlinkPrev a i k).maxOrder = a.maxOrder ∧
      (unlinkPrev a i k).freePages = a.freePages ∧ (unlinkPrev a i k).freeCount = a.freeCount ∧
      (unlinkPrev a i k).freeHead =
        if (a.pages i).prev = buddyIndexNone then
          Function.update a.freeHead k (a.pages i).next else a.freeHead := by
  simp only [unlinkPrev]
  split <;> exact ⟨rfl, rfl, rfl, rfl, rfl⟩

theorem unlinkNext_fields :
    (unlinkNext a i).pageCount = a.pageCount ∧ (unlinkNext a i).maxOrder = a.maxOrder ∧
      (unlinkNext a i).freePages = a.freePages ∧ (unlinkNext a i).freeCount = a.freeCount ∧
      (unlinkNext a i).freeHead = a.freeHead := by
  simp only [unlinkNext]
  split <;> exact ⟨rfl, rfl, rfl, rfl, rfl⟩

/-- The writes of list_remove, with the links of page i read once: the first
step can only write page i's next link with the value it already has, so the
second step's fresh read of page i sees the original links. -/
theorem listRemove_pages (j : Nat) :
    (listRemove a i k).pages j =
      if j = i then
        { a.pages j with next := buddyIndexNone, prev := buddyIndexNone, state := .reserved }
      else
        let q := if (a.pages i).prev ≠ buddyIndexNone ∧ j = ((a.pages i).prev).toNat then
          { a.pages j with next := (a.pages i).next } else a.pages j
        if (a.pages i).next ≠ buddyIndexNone ∧ j = ((a.pages i).next).toNat then
          { q with prev := (a.pages i).prev } else q := by
  simp only [listRemove, BuddyAllocator.setPage_pages, unlinkNext_pages, unlinkPrev_pages]
  split_ifs <;> rfl

/-- list_remove writes no page but page i and its two neighbours. -/
theorem listRemove_pages_of_ne {j : Nat} (hj : j ≠ i)
    (hp : ¬ ((a.pages i).prev ≠ buddyIndexNone ∧ j = ((a.pages i).prev).toNat))
    (hn : ¬ ((a.pages i).next ≠ buddyIndexNone ∧ j = ((a.pages i).next).toNat)) :
    (listRemove a i k).pages j = a.pages j := by
  rw [listRemove_pages, if_neg hj]
  simp only [if_neg hp, if_neg hn]

@[simp] theorem listRemove_pageCount : (listRemove a i k).pageCount = a.pageCount := by
  simp only [listRemove, BuddyAllocator.setPage_pageCount, (unlinkNext_fields _ i).1,
    (unlinkPrev_fields a i k).1]
@[simp] theorem listRemove_maxOrder : (listRemove a i k).maxOrder = a.maxOrder := by
  simp only [listRemove, BuddyAllocator.setPage_maxOrder, (unlinkNext_fields _ i).2.1,
    (unlinkPrev_fields a i k).2.1]
@[simp] theorem listRemove_freePages :
    (listRemove a i k).freePages = a.freePages - orderUnits k := by
  simp only [listRemove, BuddyAllocator.setPage_freePages, (unlinkNext_fields _ i).2.2.1,
    (unlinkPrev_fields a i k).2.2.1]
@[simp] theorem listRemove_freeCount :
    (listRemove a i k).freeCount = Function.update a.freeCount k (a.freeCount k - 1) := by
  simp only [listRemove, BuddyAllocator.setPage_freeCount, (unlinkNext_fields _ i).2.2.2.1,
    (unlinkPrev_fields a i k).2.2.2.1]
theorem listRemove_freeHead :
    (listRemove a i k).freeHead =
      if (a.pages i).prev = buddyIndexNone then
        Function.update a.freeHead k (a.pages i).next else a.freeHead := by
  simp only [listRemove, BuddyAllocator.setPage_freeHead, (unlinkNext_fields _ i).2.2.2.2,
    (unlinkPrev_fields a i k).2.2.2.2]

@[simp] theorem listRemove_state (j : Nat) :
    ((listRemove a i k).pages j).state = if j = i then .reserved else (a.pages j).state := by
  rw [listRemove_pages]; split_ifs <;> rfl

@[simp] theorem listRemove_order (j : Nat) :
    ((listRemove a i k).pages j).order = (a.pages j).order := by
  rw [listRemove_pages]; split_ifs <;> rfl

@[simp] theorem listRemove_tag (j : Nat) :
    ((listRemove a i k).pages j).tag = (a.pages j).tag := by
  rw [listRemove_pages]; split_ifs <;> rfl

@[simp] theorem listRemove_reserved (j : Nat) :
    ((listRemove a i k).pages j).reserved = (a.pages j).reserved := by
  rw [listRemove_pages]; split_ifs <;> rfl

theorem listRemove_next (j : Nat) :
    nextOf (listRemove a i k) j =
      if j = i then buddyIndexNone
      else if (a.pages i).prev ≠ buddyIndexNone ∧ j = ((a.pages i).prev).toNat then
        (a.pages i).next
      else nextOf a j := by
  unfold nextOf; rw [listRemove_pages]; split_ifs <;> rfl

theorem listRemove_prev (j : Nat) :
    prevOf (listRemove a i k) j =
      if j = i then buddyIndexNone
      else if (a.pages i).next ≠ buddyIndexNone ∧ j = ((a.pages i).next).toNat then
        (a.pages i).prev
      else prevOf a j := by
  unfold prevOf; rw [listRemove_pages]; split_ifs <;> rfl

end ListRemove

/-! ## The free lists under list_add and list_remove -/

theorem mem_update_iff (L : Nat → List Nat) (k : Nat) (l : List Nat) (k' j : Nat) :
    j ∈ Function.update L k l k' ↔ (k' = k ∧ j ∈ l) ∨ (k' ≠ k ∧ j ∈ L k') := by
  by_cases hk : k' = k
  · subst hk; simp
  · simp [hk]

namespace FreeLists

variable {a : BuddyAllocator} {L : Nat → List Nat}

/-- The head link of order k names page j exactly when j is first on L k. -/
theorem head_cond (h : FreeLists a L) (k j : Nat) :
    (a.freeHead k ≠ buddyIndexNone ∧ j = (a.freeHead k).toNat) ↔ (L k).head? = some j := by
  rw [(h.isList k).head_eq]
  exact link_toNat_eq

/-- list_add of a page that is not a free head pushes it on the front of its
order's list. -/
theorem listAdd (h : FreeLists a L) {i k : Nat} (hi : (a.pages i).state ≠ .freeHead) :
    FreeLists (Uinxed.Buddy.listAdd a i k) (Function.update L k (i :: L k)) where
  isList k' := by
    by_cases hk : k' = k
    · subst hk
      rw [Function.update_self, listAdd_freeHead, Function.update_self]
      refine (h.isList k').push (h.not_mem_of_state hi k') ?_ ?_ fun y hy => ?_
      · rw [listAdd_next, if_pos rfl]
      · -- page i is not the old head, so only its own write sets its prev link
        have hnot : ¬ (a.freeHead k' ≠ buddyIndexNone ∧ i = (a.freeHead k').toNat) := by
          rw [h.head_cond]
          exact fun hm => h.not_mem_of_state hi k' (List.mem_of_mem_head? hm)
        rw [listAdd_prev, if_neg hnot, if_pos rfl]
        rfl
      · have hyi : y ≠ i := fun e => h.not_mem_of_state hi k' (e ▸ hy)
        refine ⟨by rw [listAdd_next, if_neg hyi], ?_⟩
        rw [listAdd_prev]
        by_cases hc : (L k').head? = some y
        · rw [if_pos ((h.head_cond k' y).mpr hc), if_pos hc]
          rfl
        · rw [if_neg (mt (h.head_cond k' y).mp hc), if_neg hyi, if_neg hc]
    · rw [Function.update_of_ne hk, listAdd_freeHead, Function.update_of_ne hk]
      refine (h.isList k').congr fun y hy => ⟨?_, ?_⟩
      · have hyi : y ≠ i := fun e => h.not_mem_of_state hi k' (e ▸ hy)
        rw [listAdd_next, if_neg hyi]
      · have hyi : y ≠ i := fun e => h.not_mem_of_state hi k' (e ▸ hy)
        have hnot : (L k).head? ≠ some y :=
          fun hm => hk (h.eq_of_mem hy (List.mem_of_mem_head? hm))
        rw [listAdd_prev, if_neg (mt (h.head_cond k y).mp hnot), if_neg hyi]
  count k' := by
    by_cases hk : k' = k
    · subst hk; simp [h.count]
    · simp [hk, h.count]
  head_iff j := by
    rw [listAdd_state]
    by_cases hj : j = i
    · subst hj
      simp only [if_true, true_iff]
      exact ⟨k, by simp⟩
    · rw [if_neg hj, h.head_iff]
      simp only [mem_update_iff, List.mem_cons, hj, false_or]
      constructor
      · rintro ⟨k', hk'⟩
        by_cases hk : k' = k
        · exact ⟨k', Or.inl ⟨hk, hk ▸ hk'⟩⟩
        · exact ⟨k', Or.inr ⟨hk, hk'⟩⟩
      · rintro ⟨k', ⟨rfl, hm⟩ | ⟨-, hm⟩⟩ <;> exact ⟨_, hm⟩
  order_eq k' j hj := by
    rw [listAdd_order]
    rw [mem_update_iff] at hj
    by_cases hji : j = i
    · subst hji
      rw [if_pos rfl]
      rcases hj with ⟨hk, -⟩ | ⟨-, hm⟩
      · exact hk.symm
      · exact absurd hm (h.not_mem_of_state hi k')
    · rw [if_neg hji]
      rcases hj with ⟨rfl, hm⟩ | ⟨-, hm⟩
      · exact h.order_eq _ j ((List.mem_cons.mp hm).resolve_left hji)
      · exact h.order_eq k' j hm

/-- list_remove of a page on the order-k list unlinks it from that list. -/
theorem listRemove (h : FreeLists a L) {i k : Nat} (hi : i ∈ L k) :
    FreeLists (Uinxed.Buddy.listRemove a i k) (Function.update L k ((L k).erase i)) := by
  obtain ⟨l₁, l₂, hL⟩ := List.append_of_mem hi
  have hlist := h.isList k
  rw [hL] at hlist
  have hnd := hlist.nodup
  have hi₁ : i ∉ l₁ := fun hm => (List.nodup_append.mp hnd).2.2 i hm i List.mem_cons_self rfl
  have hi₂ : i ∉ l₂ := (List.nodup_cons.mp (List.nodup_append.mp hnd).2.1).1
  have herase : (L k).erase i = l₁ ++ l₂ := by
    rw [hL, List.erase_append_right _ hi₁, List.erase_cons_head]
  obtain ⟨hprev, hnext⟩ := hlist.links
  -- the conditions list_remove tests, read on the ghost list
  have hpc : ∀ j, ((a.pages i).prev ≠ buddyIndexNone ∧ j = ((a.pages i).prev).toNat) ↔
      l₁.getLast? = some j := fun j => by
    change (prevOf a i ≠ buddyIndexNone ∧ j = (prevOf a i).toNat) ↔ _
    rw [hprev]; exact link_toNat_eq
  have hnc : ∀ j, ((a.pages i).next ≠ buddyIndexNone ∧ j = ((a.pages i).next).toNat) ↔
      l₂.head? = some j := fun j => by
    change (nextOf a i ≠ buddyIndexNone ∧ j = (nextOf a i).toNat) ↔ _
    rw [hnext]; exact link_toNat_eq
  have hmemk : ∀ y, y ∈ l₁ ∨ y ∈ l₂ → y ∈ L k := fun y hy => by
    rw [hL]; rcases hy with hy | hy <;> simp [hy]
  refine ⟨fun k' => ?_, fun k' => ?_, fun j => ?_, fun k' j hj => ?_⟩
  · by_cases hk : k' = k
    · subst hk
      rw [Function.update_self, herase]
      refine hlist.unlink ?_ fun y hy => ?_
      · rw [listRemove_freeHead]
        by_cases h₁ : l₁ = []
        · subst h₁
          have : (a.pages i).prev = buddyIndexNone := by
            change prevOf a i = _; rw [hprev]; rfl
          rw [if_pos this, Function.update_self]
          exact hnext
        · have : (a.pages i).prev ≠ buddyIndexNone := by
            change prevOf a i ≠ _; rw [hprev, Ne, link_eq_none_iff]
            simpa using h₁
          rw [if_neg this, hlist.head_eq, List.head?_append_of_ne_nil _ h₁,
            List.head?_append_of_ne_nil _ h₁]
      · have hyi : y ≠ i := by
          rintro rfl
          rcases List.mem_append.mp hy with hm | hm
          · exact hi₁ hm
          · exact hi₂ hm
        refine ⟨?_, ?_⟩
        · rw [listRemove_next, if_neg hyi]
          by_cases hc : l₁.getLast? = some y
          · rw [if_pos ((hpc y).mpr hc), if_pos hc]
            exact hnext
          · rw [if_neg (mt (hpc y).mp hc), if_neg hc]
        · rw [listRemove_prev, if_neg hyi]
          by_cases hc : l₂.head? = some y
          · rw [if_pos ((hnc y).mpr hc), if_pos hc]
            exact hprev
          · rw [if_neg (mt (hnc y).mp hc), if_neg hc]
    · rw [Function.update_of_ne hk]
      have hfh : (Uinxed.Buddy.listRemove a i k).freeHead k' = a.freeHead k' := by
        rw [listRemove_freeHead]
        split_ifs
        · exact Function.update_of_ne hk _ _
        · rfl
      rw [hfh]
      refine (h.isList k').congr fun y hy => ⟨?_, ?_⟩
      · have hyi : y ≠ i := fun e => hk (h.eq_of_mem (e ▸ hy) hi)
        have hp : ¬ l₁.getLast? = some y := fun hm =>
          hk (h.eq_of_mem hy (hmemk y (Or.inl (List.mem_of_getLast? hm))))
        rw [listRemove_next, if_neg hyi, if_neg (mt (hpc y).mp hp)]
      · have hyi : y ≠ i := fun e => hk (h.eq_of_mem (e ▸ hy) hi)
        have hn : ¬ l₂.head? = some y := fun hm =>
          hk (h.eq_of_mem hy (hmemk y (Or.inr (List.mem_of_mem_head? hm))))
        rw [listRemove_prev, if_neg hyi, if_neg (mt (hnc y).mp hn)]
  · by_cases hk : k' = k
    · subst hk
      rw [listRemove_freeCount, Function.update_self, Function.update_self,
        List.length_erase_of_mem hi, h.count]
    · rw [listRemove_freeCount, Function.update_of_ne hk, Function.update_of_ne hk, h.count]
  · rw [listRemove_state]
    by_cases hj : j = i
    · subst hj
      simp only [if_true, reduceCtorEq, false_iff, not_exists, mem_update_iff, not_or, not_and]
      intro k'
      refine ⟨fun _ hm => ?_, fun hk hm => hk (h.eq_of_mem hm hi)⟩
      rw [herase] at hm
      rcases List.mem_append.mp hm with hm | hm
      · exact hi₁ hm
      · exact hi₂ hm
    · rw [if_neg hj, h.head_iff]
      simp only [mem_update_iff, List.mem_erase_of_ne hj]
      constructor
      · rintro ⟨k', hk'⟩
        by_cases hk : k' = k
        · exact ⟨k', Or.inl ⟨hk, hk ▸ hk'⟩⟩
        · exact ⟨k', Or.inr ⟨hk, hk'⟩⟩
      · rintro ⟨k', ⟨rfl, hm⟩ | ⟨-, hm⟩⟩ <;> exact ⟨_, hm⟩
  · rw [listRemove_order]
    rw [mem_update_iff] at hj
    rcases hj with ⟨rfl, hm⟩ | ⟨-, hm⟩
    · exact h.order_eq _ j (List.mem_of_mem_erase hm)
    · exact h.order_eq k' j hm

end FreeLists

end Uinxed.Buddy
