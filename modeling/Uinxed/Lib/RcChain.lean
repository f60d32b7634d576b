/-
  Lib/RcChain.lean --- reference-counted chains of cells in a heap.

  A heap maps addresses to cells; a cell carries a reference count, a link to
  the cell before it and a payload.  Cells share their tails: many chains may
  run into one cell.  A chain is read by following the links from a head.
  get takes a reference; put drops one and, while that leaves a count at
  zero, frees the cell and drops the reference its link held, walking down
  the chain.  Both loops run with fuel; links that always lead to a smaller
  address make any fuel above the head's address enough.

  The heap is accounted for refs when every live cell's count is exactly its
  references: refs counts those from outside the heap, and the links of live
  cells add theirs.  The operations are proved here once, each with the
  change it makes to refs:

      Accounted.get      take a reference                 refs + 1
      Accounted.put_spec drop one, freeing down the chain  refs - 1
      Accounted.alloc    a fresh cell with one reference   refs + 1
      Accounted.setLink  link a fresh cell to a chain      the link takes a reference over

  and no put changes a chain from a head that is still referenced.  Every cell
  on such a chain is live, with a positive count.
-/
import Mathlib.Data.List.Basic

set_option autoImplicit false

namespace RcChain

/-! ## Following links -/

section Follow

variable (next : Nat → Option Nat)

/-- The addresses visited from start, following next at most n times. -/
def follow : Nat → Option Nat → List Nat
  | 0, _ => []
  | _ + 1, none => []
  | n + 1, some x => x :: follow n (next x)

@[simp] theorem follow_zero (start : Option Nat) : follow next 0 start = [] := by
  cases start <;> rfl

@[simp] theorem follow_none (n : Nat) : follow next n none = [] := by
  cases n <;> rfl

@[simp] theorem follow_succ_some (n x : Nat) : follow next (n + 1) (some x) = x :: follow next n (next x) := rfl

/-- Links that always lead to a smaller address. -/
def Descends : Prop := ∀ x y, next x = some y → y < x

variable {next}

/-- Only the links of the visited addresses matter. -/
theorem follow_congr {next' : Nat → Option Nat} {n : Nat} {start : Option Nat}
    (h : ∀ x ∈ follow next n start, next' x = next x) : follow next' n start = follow next n start := by
  induction n generalizing start with
  | zero => simp
  | succ n ih =>
    cases start with
    | none => simp
    | some x =>
      simp only [follow_succ_some] at h ⊢
      rw [h x List.mem_cons_self, ih fun y hy => h y (List.mem_cons_of_mem x hy)]

/-- Every address after the first is the target of some link. -/
theorem mem_follow_cases {n x w : Nat} (hw : w ∈ follow next n (some x)) : w = x ∨ ∃ g, next g = some w := by
  induction n generalizing x with
  | zero => simp at hw
  | succ n ih =>
    rcases List.mem_cons.mp hw with rfl | hw
    · exact .inl rfl
    · cases hx : next x with
      | none => simp [hx] at hw
      | some y =>
        rw [hx] at hw
        rcases ih hw with rfl | hlink
        · exact .inr ⟨x, hx⟩
        · exact .inr hlink

section Descending

variable (hd : Descends next)
include hd

/-- With descending links any fuel above the head's address reads the whole
chain. -/
theorem follow_fuel {n m x : Nat} (hn : x < n) (hm : x < m) : follow next n (some x) = follow next m (some x) := by
  induction n generalizing m x with
  | zero => omega
  | succ n ih =>
    obtain ⟨m, rfl⟩ : ∃ m', m = m' + 1 := ⟨m - 1, by omega⟩
    simp only [follow_succ_some]
    cases hx : next x with
    | none => simp
    | some y =>
      have hy := hd x y hx
      rw [ih (m := m) (by omega) (by omega)]

theorem le_of_mem_follow {n x w : Nat} (hw : w ∈ follow next n (some x)) : w ≤ x := by
  induction n generalizing x with
  | zero => simp at hw
  | succ n ih =>
    rcases List.mem_cons.mp hw with rfl | hw
    · exact Nat.le_refl w
    · cases hx : next x with
      | none => simp [hx] at hw
      | some y =>
        rw [hx] at hw
        exact Nat.le_of_lt (Nat.lt_of_le_of_lt (ih hw) (hd x y hx))

/-- The chain from an address on a chain is a suffix of it. -/
theorem follow_suffix_of_mem {n x w : Nat} (hx : x < n) (hw : w ∈ follow next n (some x)) :
    follow next n (some w) <:+ follow next n (some x) := by
  induction n generalizing x with
  | zero => simp at hw
  | succ n ih =>
    rcases List.mem_cons.mp hw with rfl | hw
    · exact List.suffix_refl _
    · cases hx' : next x with
      | none => simp [hx'] at hw
      | some y =>
        rw [hx'] at hw
        have hyx := hd x y hx'
        have hwy := le_of_mem_follow hd hw
        rw [follow_fuel hd (x := w) (m := n) (by omega) (by omega), follow_succ_some, hx']
        exact (ih (by omega) hw).trans (List.suffix_cons x _)

end Descending

end Follow

/-! ## Counting over a list of addresses -/

section Counting

variable {β : Type*} (p : β → Bool) (f : Nat → β)

/-- Changing f where the list does not look leaves the count. -/
theorem countP_update_of_not_mem {l : List Nat} {x : Nat} (hx : x ∉ l) (v : β) :
    l.countP (fun g => p (Function.update f x v g)) = l.countP (fun g => p (f g)) := by
  apply List.countP_congr
  intro g hg
  have hgx : g ≠ x := by
    rintro rfl
    exact hx hg
  rw [Function.update_of_ne hgx]

/-- Changing f at one address of a list without repetitions changes the
count by what the old and the new value contribute. -/
theorem countP_update {l : List Nat} (hl : l.Nodup) {x : Nat} (hx : x ∈ l) (v : β) :
    l.countP (fun g => p (Function.update f x v g)) + (if p (f x) then 1 else 0) =
      l.countP (fun g => p (f g)) + (if p v then 1 else 0) := by
  induction l with
  | nil => simp at hx
  | cons a l ih =>
    obtain ⟨ha, hl⟩ := List.nodup_cons.mp hl
    simp only [List.countP_cons]
    by_cases hax : a = x
    · subst hax
      rw [countP_update_of_not_mem p f ha, Function.update_self]
      omega
    · have hxl : x ∈ l := (List.mem_cons.mp hx).resolve_left (Ne.symm hax)
      have := ih hl hxl
      rw [Function.update_of_ne hax]
      omega

end Counting

/-! ## Reference-counted cells -/

/-- A cell: its reference count, the address it links to, and its payload. -/
structure Cell (α : Type*) where
  refcount : Nat
  prev : Option Nat
  data : α

variable {α : Type*}

/-- The link of the cell at x; none where there is no cell. -/
def link (heap : Nat → Option (Cell α)) (x : Nat) : Option Nat :=
  (heap x).bind Cell.prev

/-- Take a reference on the cell at x, if x is not null. -/
def get (heap : Nat → Option (Cell α)) : Option Nat → Nat → Option (Cell α)
  | none => heap
  | some x =>
    match heap x with
    | none => heap
    | some c => Function.update heap x (some { c with refcount := c.refcount + 1 })

/-- Drop a reference on the cell at x; a cell left without references is
freed, and the reference its link held is dropped in turn. -/
def put : (Nat → Option (Cell α)) → Nat → Option Nat → Nat → Option (Cell α)
  | heap, 0, _ => heap
  | heap, _ + 1, none => heap
  | heap, n + 1, some x =>
    match heap x with
    | none => heap
    | some c =>
      if c.refcount - 1 = 0 then put (Function.update heap x none) n c.prev
      else Function.update heap x (some { c with refcount := c.refcount - 1 })

@[simp] theorem put_none (heap : Nat → Option (Cell α)) (n : Nat) : put heap n none = heap := by
  cases n <;> rfl

/-- The number of live cells below bound that link to x. -/
def inLinks (heap : Nat → Option (Cell α)) (bound x : Nat) : Nat :=
  (List.range bound).countP fun g => link heap g = some x

theorem link_update (heap : Nat → Option (Cell α)) (x : Nat) (v : Option (Cell α)) :
    link (Function.update heap x v) = Function.update (link heap) x (v.bind Cell.prev) := by
  funext g
  by_cases hg : g = x
  · subst hg
    simp [link]
  · simp [link, Function.update_of_ne hg]

/-- Changing a count keeps every link. -/
theorem link_update_count (heap : Nat → Option (Cell α)) {x : Nat} {c : Cell α} (hc : heap x = some c) (k : Nat) :
    link (Function.update heap x (some { c with refcount := k })) = link heap := by
  rw [link_update]
  funext g
  by_cases hg : g = x
  · subst hg
    simp [link, hc]
  · rw [Function.update_of_ne hg]

theorem inLinks_update (heap : Nat → Option (Cell α)) {bound x : Nat} (hx : x < bound) (v : Option (Cell α)) (y : Nat) :
    inLinks (Function.update heap x v) bound y + (if link heap x = some y then 1 else 0) =
      inLinks heap bound y + (if v.bind Cell.prev = some y then 1 else 0) := by
  unfold inLinks
  rw [link_update]
  have := countP_update (fun o => decide (o = some y)) (link heap) (List.nodup_range) (List.mem_range.mpr hx)
    (v.bind Cell.prev)
  simpa using this

theorem inLinks_pos {heap : Nat → Option (Cell α)} {bound g y : Nat} (hg : g < bound) (hl : link heap g = some y) :
    0 < inLinks heap bound y :=
  List.countP_pos_iff.mpr ⟨g, List.mem_range.mpr hg, by simp [hl]⟩

/-! ## Accounted heaps -/

/-- Every live cell lies below bound, links downwards to a live cell, and
counts exactly the references refs gives it and the links to it. -/
structure Accounted (heap : Nat → Option (Cell α)) (bound : Nat) (refs : Nat → Nat) : Prop where
  lt_bound : ∀ x, heap x ≠ none → x < bound
  descends : Descends (link heap)
  link_live : ∀ x y, link heap x = some y → heap y ≠ none
  refs_live : ∀ x, refs x ≠ 0 → heap x ≠ none
  refcount : ∀ x c, heap x = some c → c.refcount = refs x + inLinks heap bound x

variable {heap : Nat → Option (Cell α)} {bound : Nat} {refs refs' : Nat → Nat}

theorem link_ne_none {x : Nat} (h : link heap x ≠ none) : heap x ≠ none := by
  intro hx
  simp [link, hx] at h

theorem Accounted.inLinks_pos (hA : Accounted heap bound refs) {g y : Nat} (hl : link heap g = some y) :
    0 < inLinks heap bound y :=
  RcChain.inLinks_pos (hA.lt_bound g (link_ne_none (by simp [hl]))) hl

theorem Accounted.refs_eq_zero (hA : Accounted heap bound refs) {x : Nat} (hx : heap x = none) : refs x = 0 :=
  Classical.byContradiction fun h => hA.refs_live x h hx

/-- Every cell on a chain from a referenced head is referenced, hence live
with a positive count. -/
theorem Accounted.pos_of_mem_follow (hA : Accounted heap bound refs) {x w n : Nat} (hx : refs x ≠ 0)
    (hw : w ∈ follow (link heap) n (some x)) : ∃ c, heap w = some c ∧ 0 < c.refcount := by
  have hlive : heap w ≠ none := by
    rcases mem_follow_cases hw with rfl | ⟨g, hg⟩
    · exact hA.refs_live w hx
    · exact hA.link_live g w hg
  obtain ⟨c, hc⟩ := Option.ne_none_iff_exists'.mp hlive
  refine ⟨c, hc, ?_⟩
  rw [hA.refcount w c hc]
  rcases mem_follow_cases hw with rfl | ⟨g, hg⟩
  · omega
  · have := hA.inLinks_pos hg
    omega

/-- Changing the count of a live cell, with refs changed at that cell only. -/
theorem Accounted.recount (hA : Accounted heap bound refs) {y : Nat} {c : Cell α} (hc : heap y = some c) {k : Nat}
    (hk : k = refs' y + inLinks heap bound y) (hR : ∀ z, z ≠ y → refs' z = refs z) :
    Accounted (Function.update heap y (some { c with refcount := k })) bound refs' := by
  have hlink := link_update_count heap hc k
  have hlive : ∀ z, Function.update heap y (some { c with refcount := k }) z ≠ none ↔ heap z ≠ none := by
    intro z
    by_cases hz : z = y
    · subst hz
      simp [hc]
    · rw [Function.update_of_ne hz]
  refine ⟨fun x hx => hA.lt_bound x ((hlive x).mp hx), hlink ▸ hA.descends, ?_, ?_, ?_⟩
  · intro x z hxz
    rw [hlink] at hxz
    exact (hlive z).mpr (hA.link_live x z hxz)
  · intro z hz
    apply (hlive z).mpr
    by_cases hzy : z = y
    · subst hzy
      simp [hc]
    · exact hA.refs_live z (hR z hzy ▸ hz)
  · intro x c' hx
    unfold inLinks
    rw [hlink]
    by_cases hxy : x = y
    · subst hxy
      simp only [Function.update_self, Option.some.injEq] at hx
      rw [← hx]
      exact hk
    · rw [Function.update_of_ne hxy] at hx
      rw [hR x hxy]
      exact hA.refcount x c' hx

/-- get adds one reference to a live cell. -/
theorem Accounted.get (hA : Accounted heap bound refs) {y : Nat} (hy : heap y ≠ none)
    (hR : ∀ z, refs' z = refs z + if z = y then 1 else 0) : Accounted (get heap (some y)) bound refs' := by
  obtain ⟨c, hc⟩ := Option.ne_none_iff_exists'.mp hy
  simp only [RcChain.get, hc]
  apply hA.recount hc
  · rw [hR y, hA.refcount y c hc]
    simp only [if_true]
    omega
  · intro z hz
    simp [hR z, hz]

@[simp] theorem link_get (heap : Nat → Option (Cell α)) (y : Option Nat) : link (RcChain.get heap y) = link heap := by
  cases y with
  | none => rfl
  | some y =>
    simp only [RcChain.get]
    split
    · rfl
    · rename_i c hc
      exact link_update_count heap hc _

/-- Freeing a cell without references: its link's reference becomes one that
refs counts. -/
theorem Accounted.free (hA : Accounted heap bound refs) {y : Nat} {c : Cell α} (hc : heap y = some c)
    (hin : inLinks heap bound y = 0) (hy : refs' y = 0)
    (hR : ∀ z, z ≠ y → refs' z = refs z + if c.prev = some z then 1 else 0) :
    Accounted (Function.update heap y none) bound refs' := by
  have hyb := hA.lt_bound y (by simp [hc])
  have hprev : link heap y = c.prev := by simp [link, hc]
  have hnolink : ∀ g, link heap g ≠ some y := fun g hg => by
    have := hA.inLinks_pos hg
    omega
  refine ⟨?_, ?_, ?_, ?_, ?_⟩
  · intro x hx
    by_cases hxy : x = y
    · exact hxy ▸ hyb
    · exact hA.lt_bound x (by rwa [Function.update_of_ne hxy] at hx)
  · intro x z hxz
    rw [link_update] at hxz
    by_cases hxy : x = y
    · subst hxy
      simp at hxz
    · rw [Function.update_of_ne hxy] at hxz
      exact hA.descends x z hxz
  · intro x z hxz
    rw [link_update] at hxz
    by_cases hxy : x = y
    · subst hxy
      simp at hxz
    · rw [Function.update_of_ne hxy] at hxz
      have hzy : z ≠ y := fun h => hnolink x (h ▸ hxz)
      rw [Function.update_of_ne hzy]
      exact hA.link_live x z hxz
  · intro z hz
    have hzy : z ≠ y := fun h => hz (h ▸ hy)
    rw [Function.update_of_ne hzy]
    rw [hR z hzy] at hz
    by_cases hr : refs z = 0
    · have hpz : c.prev = some z := by
        by_contra hne
        simp [hr, hne] at hz
      exact hA.link_live y z (hprev.trans hpz)
    · exact hA.refs_live z hr
  · intro x c' hx
    have hxy : x ≠ y := fun h => by simp [h] at hx
    rw [Function.update_of_ne hxy] at hx
    have hcount := hA.refcount x c' hx
    have hlinks := inLinks_update heap hyb none x
    rw [hprev] at hlinks
    simp only [Option.bind_none, reduceCtorEq, if_false, Nat.add_zero] at hlinks
    rw [hR x hxy]
    omega

/-- put drops one reference to y: refs' is refs with that reference gone.
The heap stays accounted, and no chain from a head refs' still counts
changes. -/
theorem Accounted.put_spec {n y : Nat} (hyn : y < n) (hA : Accounted heap bound refs)
    (hR : ∀ z, refs' z + (if z = y then 1 else 0) = refs z) :
    Accounted (put heap n (some y)) bound refs' ∧
      ∀ x, refs' x ≠ 0 → ∀ m, follow (link (put heap n (some y))) m (some x) = follow (link heap) m (some x) := by
  induction n generalizing heap refs refs' y with
  | zero => omega
  | succ n ih =>
    have hy : refs y ≠ 0 := by
      have := hR y
      simp only [if_true] at this
      omega
    obtain ⟨c, hc⟩ := Option.ne_none_iff_exists'.mp (hA.refs_live y hy)
    have hcount := hA.refcount y c hc
    simp only [put, hc]
    by_cases hzero : c.refcount - 1 = 0
    · -- the last reference: free the cell, then drop the one its link held
      rw [if_pos hzero]
      have hin : inLinks heap bound y = 0 := by
        have := hR y
        simp only [if_true] at this
        omega
      have hy' : refs' y = 0 := by
        have := hR y
        simp only [if_true] at this
        omega
      have hnolink : ∀ g, link heap g ≠ some y := fun g hg => by
        have := hA.inLinks_pos hg
        omega
      -- the references after the free: refs' and the link's one
      let refs₁ : Nat → Nat := fun z => refs' z + if c.prev = some z then 1 else 0
      have hprev_ne : c.prev ≠ some y := fun h => by
        have := hA.descends y y (by simp [link, hc, h])
        omega
      have hA₁ : Accounted (Function.update heap y none) bound refs₁ := by
        refine hA.free hc hin ?_ ?_
        · simp [refs₁, hy', hprev_ne]
        · intro z hz
          have := hR z
          simp only [hz, if_false, Nat.add_zero] at this
          simp [refs₁, this]
      -- no chain from a head refs' counts passes through the freed cell
      have hkeep : ∀ x, refs' x ≠ 0 → ∀ m,
          follow (link (Function.update heap y none)) m (some x) = follow (link heap) m (some x) := by
        intro x hx m
        apply follow_congr
        intro w hw
        have hwy : w ≠ y := by
          rintro rfl
          rcases mem_follow_cases hw with rfl | ⟨g, hg⟩
          · exact hx hy'
          · exact hnolink g hg
        rw [link_update, Function.update_of_ne hwy]
      cases hp : c.prev with
      | none =>
        rw [put_none]
        refine ⟨?_, hkeep⟩
        convert hA₁ using 1
        funext z
        simp [refs₁, hp]
      | some q =>
        have hqy : q < y := hA.descends y q (by simp [link, hc, hp])
        have hR₁ : ∀ z, refs' z + (if z = q then 1 else 0) = refs₁ z := fun z => by simp [refs₁, hp, eq_comm]
        obtain ⟨hA₂, hkeep₂⟩ := ih (y := q) (by omega) hA₁ hR₁
        refine ⟨hA₂, fun x hx m => ?_⟩
        rw [hkeep₂ x hx m, hkeep x hx m]
    · -- other references remain: only the count changes
      rw [if_neg hzero]
      refine ⟨hA.recount hc ?_ ?_, fun x _ m => by rw [link_update_count heap hc]⟩
      · have := hR y
        simp only [if_true] at this
        omega
      · intro z hz
        have := hR z
        simp only [hz, if_false, Nat.add_zero] at this
        exact this

/-- A fresh cell at bound, with the one reference its creator holds. -/
theorem Accounted.alloc (hA : Accounted heap bound refs) (d : α)
    (hR : ∀ z, refs' z = refs z + if z = bound then 1 else 0) :
    Accounted (Function.update heap bound (some ⟨1, none, d⟩)) (bound + 1) refs' := by
  have hfresh : heap bound = none := Classical.byContradiction fun h => Nat.lt_irrefl _ (hA.lt_bound bound h)
  have hlink : link (Function.update heap bound (some ⟨1, none, d⟩)) = Function.update (link heap) bound none := by
    rw [link_update]
    rfl
  have hnolink : ∀ g, link heap g ≠ some bound := fun g hg => hA.link_live g bound hg hfresh
  -- the links below bound are the old ones, and the new cell links nowhere
  have hin : ∀ y, inLinks (Function.update heap bound (some ⟨1, none, d⟩)) (bound + 1) y = inLinks heap bound y := by
    intro y
    unfold inLinks
    rw [hlink, List.range_succ, List.countP_append]
    simp only [Function.update_self, List.countP_singleton, reduceCtorEq, decide_false, Bool.false_eq_true,
      if_false, Nat.add_zero]
    apply List.countP_congr
    intro g hg
    rw [Function.update_of_ne (Nat.ne_of_lt (List.mem_range.mp hg))]
  refine ⟨?_, ?_, ?_, ?_, ?_⟩
  · intro x hx
    by_cases hxb : x = bound
    · omega
    · exact Nat.lt_succ_of_lt (hA.lt_bound x (by rwa [Function.update_of_ne hxb] at hx))
  · intro x z hxz
    rw [hlink] at hxz
    by_cases hxb : x = bound
    · subst hxb
      simp at hxz
    · rw [Function.update_of_ne hxb] at hxz
      exact hA.descends x z hxz
  · intro x z hxz
    rw [hlink] at hxz
    by_cases hxb : x = bound
    · subst hxb
      simp at hxz
    · rw [Function.update_of_ne hxb] at hxz
      have hzb : z ≠ bound := fun h => hnolink x (h ▸ hxz)
      rw [Function.update_of_ne hzb]
      exact hA.link_live x z hxz
  · intro z hz
    by_cases hzb : z = bound
    · subst hzb
      simp
    · rw [Function.update_of_ne hzb]
      exact hA.refs_live z (by simpa [hR z, hzb] using hz)
  · intro x c hx
    rw [hin]
    by_cases hxb : x = bound
    · subst hxb
      simp only [Function.update_self, Option.some.injEq] at hx
      have h0 : inLinks heap x x = 0 :=
        List.countP_eq_zero.mpr fun g _ hg => hnolink g (by simpa using hg)
      rw [← hx, hR x, hA.refs_eq_zero hfresh, h0]
      simp
    · rw [Function.update_of_ne hxb] at hx
      rw [hR x, if_neg hxb, Nat.add_zero]
      exact hA.refcount x c hx

/-- Linking a cell that links nowhere to p, a live cell below it whose
reference the link takes over; the payload may change with it. -/
theorem Accounted.setLink (hA : Accounted heap bound refs) {x : Nat} {c : Cell α} (hc : heap x = some c)
    (hnone : c.prev = none) {p : Option Nat} (hlt : ∀ q, p = some q → q < x) (d : α)
    (hR : ∀ z, refs' z + (if p = some z then 1 else 0) = refs z) :
    Accounted (Function.update heap x (some { c with prev := p, data := d })) bound refs' := by
  have hxb := hA.lt_bound x (by simp [hc])
  have hold : link heap x = none := by simp [link, hc, hnone]
  have hlive : ∀ z, Function.update heap x (some { c with prev := p, data := d }) z ≠ none ↔ heap z ≠ none := by
    intro z
    by_cases hz : z = x
    · subst hz
      simp [hc]
    · rw [Function.update_of_ne hz]
  refine ⟨fun z hz => hA.lt_bound z ((hlive z).mp hz), ?_, ?_, ?_, ?_⟩
  · intro z w hzw
    rw [link_update] at hzw
    by_cases hzx : z = x
    · subst hzx
      simp only [Function.update_self, Option.bind_some] at hzw
      exact hlt w hzw
    · rw [Function.update_of_ne hzx] at hzw
      exact hA.descends z w hzw
  · intro z w hzw
    apply (hlive w).mpr
    rw [link_update] at hzw
    by_cases hzx : z = x
    · subst hzx
      simp only [Function.update_self, Option.bind_some] at hzw
      have := hR w
      simp only [hzw, if_true] at this
      exact hA.refs_live w (by omega)
    · rw [Function.update_of_ne hzx] at hzw
      exact hA.link_live z w hzw
  · intro z hz
    apply (hlive z).mpr
    have := hR z
    exact hA.refs_live z (by omega)
  · intro z c' hz
    have hlinks := inLinks_update heap hxb (some { c with prev := p, data := d }) z
    simp only [hold, reduceCtorEq, if_false, Nat.add_zero, Option.bind_some] at hlinks
    have hRz := hR z
    by_cases hzx : z = x
    · subst hzx
      simp only [Function.update_self, Option.some.injEq] at hz
      have hcount := hA.refcount z c hc
      rw [← hz]
      simp only
      omega
    · rw [Function.update_of_ne hzx] at hz
      have hcount := hA.refcount z c' hz
      omega

end RcChain
