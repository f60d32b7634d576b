/-
  Libs/IntrusiveList.lean --- the intrusive circular list of
  src/libs/list/intrusive_list.c, and the rings it keeps.

  A node is its two pointers, prev and next, and the memory of the nodes
  gives each node its pair (LinkRing.Links); NULL is none.  Every call reads
  and writes the nodes in the order the source does, one field at a time, so
  aliasing between the arguments is modelled as it happens.  The return
  values are the source's: 0 for success, 1 or 2 for a refusal.

  The checks of insert and remove are local: the position is self-linked or
  linked with neighbours that point back, the new node is detached or
  self-linked, the removed node is linked.  On a ring-shaped memory these
  checks are exactly what makes each accepted call one of the three rewrites
  of LinkRing: an insert splices the new node between two neighbours, a
  remove unsplices a node, an init self-links a node.  ilist_init alone checks
  nothing but NULL, and resetting a node that is still linked leaves its
  neighbours pointing at a node that no longer points back
  (ilist_init_of_linked_breaks_ring).  Runs whose init calls never reset a
  linked node keep the memory a set of disjoint rings (ilist_rings_of_run).
-/
import Uinxed.Lib.LinkRing

set_option autoImplicit false

namespace Uinxed.IntrusiveList

open LinkRing

variable {α : Type} [DecidableEq α]

/-! ## Field writes -/

/-- node->prev = v. -/
def setPrev (m : α → Links α) (x : α) (v : Option α) : α → Links α :=
  fun y => if y = x then { m x with prev := v } else m y

/-- node->next = v. -/
def setNext (m : α → Links α) (x : α) (v : Option α) : α → Links α :=
  fun y => if y = x then { m x with next := v } else m y

section Writes

variable (m : α → Links α) (x : α) (v : Option α) (y : α)

@[simp] theorem setPrev_prev : (setPrev m x v y).prev = if y = x then v else (m y).prev := by
  unfold setPrev
  split_ifs <;> rfl

@[simp] theorem setPrev_next : (setPrev m x v y).next = (m y).next := by
  unfold setPrev
  split_ifs with h
  · rw [h]
  · rfl

@[simp] theorem setNext_next : (setNext m x v y).next = if y = x then v else (m y).next := by
  unfold setNext
  split_ifs <;> rfl

@[simp] theorem setNext_prev : (setNext m x v y).prev = (m y).prev := by
  unfold setNext
  split_ifs with h
  · rw [h]
  · rfl

end Writes

/-! ## The state predicates -/

/-- node_linked_consistent. -/
def nodeLinkedConsistent (m : α → Links α) : Option α → Bool
  | none => false
  | some n =>
    match (m n).prev, (m n).next with
    | some p, some q => p != n && q != n && (m p).next == some n && (m q).prev == some n
    | _, _ => false

/-- node_insertable: DETACHED or INITED. -/
def nodeInsertable (m : α → Links α) : Option α → Bool
  | none => false
  | some n => ((m n).prev == none && (m n).next == none) || ((m n).prev == some n && (m n).next == some n)

/-- position_valid: a self-linked head, or a consistently linked node. -/
def positionValid (m : α → Links α) : Option α → Bool
  | none => false
  | some n => ((m n).next == some n && (m n).prev == some n) || nodeLinkedConsistent m (some n)

/-! ## The calls -/

/-- ilist_init. -/
def ilistInit (m : α → Links α) : Option α → (α → Links α) × Nat
  | none => (m, 1)
  | some l => (setNext (setPrev m l (some l)) l (some l), 0)

/-- ilist_insert_after. -/
def ilistInsertAfter (m : α → Links α) (node newNode : Option α) : (α → Links α) × Nat :=
  if !positionValid m node then (m, 1)
  else if !nodeInsertable m newNode then (m, 2)
  else
    match node, newNode with
    | some n, some w =>
      let m := setPrev m w (some n)
      let m := setNext m w (m n).next
      -- node->next is not NULL past position_valid
      let m := match (m n).next with
        | some b => setPrev m b (some w)
        | none => m
      (setNext m n (some w), 0)
    -- both checks refuse NULL
    | _, _ => (m, 0)

/-- ilist_insert_before. -/
def ilistInsertBefore (m : α → Links α) (node newNode : Option α) : (α → Links α) × Nat :=
  if !positionValid m node then (m, 1)
  else if !nodeInsertable m newNode then (m, 2)
  else
    match node, newNode with
    | some n, some w =>
      let prev := (m n).prev
      let m := setPrev m w prev
      let m := setNext m w (some n)
      let m := setPrev m n (some w)
      -- prev is not NULL past position_valid
      match prev with
      | some a => (setNext m a (some w), 0)
      | none => (m, 0)
    | _, _ => (m, 0)

/-- ilist_remove. -/
def ilistRemove (m : α → Links α) (node : Option α) : (α → Links α) × Nat :=
  if !nodeLinkedConsistent m node then (m, 1)
  else
    match node with
    | some n =>
      -- both links are set past node_linked_consistent
      let m := match (m n).prev with
        | some p => setNext m p (m n).next
        | none => m
      let m := match (m n).next with
        | some q => setPrev m q (m n).prev
        | none => m
      (setNext (setPrev m n none) n none, 0)
    | none => (m, 1)

/-! ## The checks read the shape of a node -/

variable {m : α → Links α}

theorem nodeLinkedConsistent_iff (x : α) : nodeLinkedConsistent m (some x) = true ↔ Linked m x := by
  unfold nodeLinkedConsistent Linked
  cases hp : (m x).prev with
  | none => simp [hp]
  | some p =>
    cases hq : (m x).next with
    | none => simp [hp, hq]
    | some q => simp [hp, hq, and_assoc]

theorem nodeInsertable_iff (x : α) : nodeInsertable m (some x) = true ↔ Detached m x ∨ SelfLinked m x := by
  simp [nodeInsertable, Detached, SelfLinked]

theorem positionValid_iff (x : α) : positionValid m (some x) = true ↔ SelfLinked m x ∨ Linked m x := by
  simp only [positionValid, Bool.or_eq_true, Bool.and_eq_true, beq_iff_eq, nodeLinkedConsistent_iff,
    SelfLinked, and_comm]

/-! ## Each accepted call is a rewrite of LinkRing -/

/-- ilist_insert_after with a node as its own new node: that node is
self-linked, and every write stores what was there. -/
theorem ilistInsertAfter_self {n : α} (hs : SelfLinked m n) : ilistInsertAfter m (some n) (some n) = (m, 0) := by
  have hval : positionValid m (some n) = true := (positionValid_iff n).mpr (.inl hs)
  have hins : nodeInsertable m (some n) = true := (nodeInsertable_iff n).mpr (.inr hs)
  obtain ⟨hsp, hsn⟩ := hs
  unfold ilistInsertAfter
  rw [hval, hins]
  simp only [Bool.not_true, Bool.false_eq_true, if_false, setPrev_next, hsn, setNext_next]
  refine Prod.ext (funext fun y => ?_) rfl
  by_cases hy : y = n <;> ext1 <;> simp [hy, hsp, hsn]

/-- ilist_insert_after past its checks, with a new node other than the
position: the new node is spliced between the position and its next node. -/
theorem ilistInsertAfter_eq_splice {n w b : α} (hn : SelfLinked m n ∨ Linked m n)
    (hw : Detached m w ∨ SelfLinked m w) (hwn : w ≠ n) (hb : (m n).next = some b) :
    ilistInsertAfter m (some n) (some w) = (splice m n b w, 0) := by
  have hval : positionValid m (some n) = true := (positionValid_iff n).mpr hn
  have hins : nodeInsertable m (some w) = true := (nodeInsertable_iff w).mpr hw
  -- b links back to n, which a free node cannot
  have hbw : b ≠ w := ne_of_free_of_prev hw hwn (prev_of_next_of_linked hn hb)
  unfold ilistInsertAfter
  rw [hval, hins]
  simp only [Bool.not_true, Bool.false_eq_true, if_false, setPrev_next, setNext_next, Ne.symm hwn, hb]
  refine Prod.ext (funext fun y => ?_) rfl
  by_cases hyw : y = w
  · subst hyw
    ext1 <;> simp [splice, hwn, hbw.symm]
  by_cases hyn : y = n <;> by_cases hyb : y = b
  · subst hyn
    subst hyb
    ext1 <;> simp [splice, hyw]
  · subst hyn
    ext1 <;> simp [splice, hyw, hyb]
  · subst hyb
    ext1 <;> simp [splice, hyw, hyn]
  · ext1 <;> simp [splice, hyw, hyn, hyb]

/-- ilist_insert_before with a node as its own new node: that node is
self-linked, and every write stores what was there. -/
theorem ilistInsertBefore_self {n : α} (hs : SelfLinked m n) : ilistInsertBefore m (some n) (some n) = (m, 0) := by
  have hval : positionValid m (some n) = true := (positionValid_iff n).mpr (.inl hs)
  have hins : nodeInsertable m (some n) = true := (nodeInsertable_iff n).mpr (.inr hs)
  obtain ⟨hsp, hsn⟩ := hs
  unfold ilistInsertBefore
  rw [hval, hins]
  simp only [Bool.not_true, Bool.false_eq_true, if_false, hsp]
  refine Prod.ext (funext fun y => ?_) rfl
  by_cases hy : y = n <;> ext1 <;> simp [hy, hsp, hsn]

/-- ilist_insert_before past its checks, with a new node other than the
position: the new node is spliced between the position's prev node and the
position. -/
theorem ilistInsertBefore_eq_splice {n w a : α} (hn : SelfLinked m n ∨ Linked m n)
    (hw : Detached m w ∨ SelfLinked m w) (hwn : w ≠ n) (ha : (m n).prev = some a) :
    ilistInsertBefore m (some n) (some w) = (splice m a n w, 0) := by
  have hval : positionValid m (some n) = true := (positionValid_iff n).mpr hn
  have hins : nodeInsertable m (some w) = true := (nodeInsertable_iff w).mpr hw
  -- a links forward to n, which a free node cannot
  have haw : a ≠ w := ne_of_free_of_next hw hwn (next_of_prev_of_linked hn ha)
  unfold ilistInsertBefore
  rw [hval, hins]
  simp only [Bool.not_true, Bool.false_eq_true, if_false, ha]
  refine Prod.ext (funext fun y => ?_) rfl
  by_cases hyw : y = w
  · subst hyw
    ext1 <;> simp [splice, hwn, haw.symm]
  by_cases hya : y = a <;> by_cases hyn : y = n
  · subst hya
    subst hyn
    ext1 <;> simp [splice, hyw]
  · subst hya
    ext1 <;> simp [splice, hyw, hyn]
  · subst hyn
    ext1 <;> simp [splice, hyw, hya]
  · ext1 <;> simp [splice, hyw, hya, hyn]

/-- ilist_remove past its check: the node is unspliced from between its
neighbours. -/
theorem ilistRemove_eq_unsplice {n p q : α} (hn : Linked m n) (hp : (m n).prev = some p) (hq : (m n).next = some q) :
    ilistRemove m (some n) = (unsplice m n p q, 0) := by
  have hchk : nodeLinkedConsistent m (some n) = true := (nodeLinkedConsistent_iff n).mpr hn
  have hpn : p ≠ n := by
    obtain ⟨p', -, hp', -, hpx, -⟩ := hn
    rw [hp, Option.some.injEq] at hp'
    exact hp' ▸ hpx
  unfold ilistRemove
  rw [hchk]
  simp only [Bool.not_true, Bool.false_eq_true, if_false, hp, hq, setNext_next, setNext_prev, Ne.symm hpn]
  refine Prod.ext (funext fun y => ?_) rfl
  by_cases hyn : y = n
  · subst hyn
    ext1 <;> simp [unsplice]
  by_cases hyp : y = p <;> by_cases hyq : y = q
  · subst hyp
    subst hyq
    ext1 <;> simp [unsplice, hyn]
  · subst hyp
    ext1 <;> simp [unsplice, hyn, hyq]
  · subst hyq
    ext1 <;> simp [unsplice, hyn, hyp]
  · ext1 <;> simp [unsplice, hyn, hyp, hyq]

/-- ilist_init self-links its node, whatever its state. -/
theorem ilistInit_eq_selfLink (x : α) : ilistInit m (some x) = (selfLink m x, 0) := by
  refine Prod.ext (funext fun y => ?_) rfl
  by_cases hy : y = x <;> ext1 <;> simp [ilistInit, selfLink, hy]

/-! ## Calls and runs -/

/-- One call of the list API, with its arguments. -/
inductive ListCall (α : Type) where
  | init (list : Option α)
  | insertAfter (node newNode : Option α)
  | insertBefore (node newNode : Option α)
  | remove (node : Option α)
  deriving DecidableEq, Repr

/-- The memory after a call, and what the call returned. -/
def ListCall.apply (m : α → Links α) : ListCall α → (α → Links α) × Nat
  | .init l => ilistInit m l
  | .insertAfter n w => ilistInsertAfter m n w
  | .insertBefore n w => ilistInsertBefore m n w
  | .remove n => ilistRemove m n

/-- A run of calls, with their return values in order. -/
def runCalls : (α → Links α) → List (ListCall α) → (α → Links α) × List Nat
  | m, [] => (m, [])
  | m, c :: cs => ((runCalls (c.apply m).1 cs).1, (c.apply m).2 :: (runCalls (c.apply m).1 cs).2)

/-- An ilist_init of a node that is linked into a ring. -/
def ListCall.resetsLinked (m : α → Links α) : ListCall α → Bool
  | .init (some x) => nodeLinkedConsistent m (some x)
  | _ => false

/-- No call of the run resets a linked node. -/
def keepsRings : (α → Links α) → List (ListCall α) → Bool
  | _, [] => true
  | m, c :: cs => !c.resetsLinked m && keepsRings (c.apply m).1 cs

/-! ## What the calls do to the shape -/

/-- A refused call writes nothing. -/
theorem ListCall.apply_of_refused (m : α → Links α) (c : ListCall α) (hr : (c.apply m).2 ≠ 0) :
    (c.apply m).1 = m := by
  cases c with
  | init l =>
    cases l with
    | none => rfl
    | some x => exact absurd (by rw [ListCall.apply, ilistInit_eq_selfLink]) hr
  | insertAfter n w =>
    simp only [ListCall.apply, ilistInsertAfter] at hr ⊢
    split_ifs at hr ⊢
    · rfl
    · rfl
    · split at hr <;> exact absurd rfl hr
  | insertBefore n w =>
    simp only [ListCall.apply, ilistInsertBefore] at hr ⊢
    split_ifs at hr ⊢
    · rfl
    · rfl
    · split at hr
      · split at hr <;> exact absurd rfl hr
      · exact absurd rfl hr
  | remove n =>
    simp only [ListCall.apply, ilistRemove] at hr ⊢
    split_ifs at hr ⊢
    · rfl
    · split at hr
      · exact absurd rfl hr
      · rfl

/-- An insert that returns 0 passed its checks. -/
theorem checks_of_insertAfter {node newNode : Option α} (h : (ilistInsertAfter m node newNode).2 = 0) :
    positionValid m node = true ∧ nodeInsertable m newNode = true := by
  by_cases h₁ : positionValid m node = true
  · by_cases h₂ : nodeInsertable m newNode = true
    · exact ⟨h₁, h₂⟩
    · simp [ilistInsertAfter, h₁, h₂] at h
  · simp [ilistInsertAfter, h₁] at h

theorem checks_of_insertBefore {node newNode : Option α} (h : (ilistInsertBefore m node newNode).2 = 0) :
    positionValid m node = true ∧ nodeInsertable m newNode = true := by
  by_cases h₁ : positionValid m node = true
  · by_cases h₂ : nodeInsertable m newNode = true
    · exact ⟨h₁, h₂⟩
    · simp [ilistInsertBefore, h₁, h₂] at h
  · simp [ilistInsertBefore, h₁] at h

/-- A remove that returns 0 found a linked node. -/
theorem linked_of_remove {node : Option α} (h : (ilistRemove m node).2 = 0) : ∃ n, node = some n ∧ Linked m n := by
  by_cases h₁ : nodeLinkedConsistent m node = true
  · cases node with
    | none => cases h₁
    | some n => exact ⟨n, rfl, (nodeLinkedConsistent_iff n).mp h₁⟩
  · simp [ilistRemove, h₁] at h

/-- A position and a new node that pass the checks of an insert. -/
theorem insert_checks {node newNode : Option α} (hval : positionValid m node = true)
    (hins : nodeInsertable m newNode = true) :
    ∃ n w, node = some n ∧ newNode = some w ∧ (SelfLinked m n ∨ Linked m n) ∧ (Detached m w ∨ SelfLinked m w) := by
  cases node with
  | none => cases hval
  | some n =>
    cases newNode with
    | none => cases hins
    | some w => exact ⟨n, w, rfl, rfl, (positionValid_iff n).mp hval, (nodeInsertable_iff w).mp hins⟩

/-- Every call but an init of a linked node keeps the memory ring-shaped. -/
theorem RingShaped.apply (hm : RingShaped m) (c : ListCall α) (hc : c.resetsLinked m = false) :
    RingShaped (c.apply m).1 := by
  -- a refused call changes nothing
  by_cases hr : (c.apply m).2 ≠ 0
  · rw [ListCall.apply_of_refused m c hr]
    exact hm
  rw [ne_eq, not_not] at hr
  cases c with
  | init l =>
    cases l with
    | none => exact hm
    | some x =>
      have hx : ¬ Linked m x := fun hl => by
        rw [ListCall.resetsLinked, (nodeLinkedConsistent_iff x).mpr hl] at hc
        cases hc
      rw [ListCall.apply, ilistInit_eq_selfLink]
      exact hm.selfLink hx
  | insertAfter node newNode =>
    obtain ⟨hval, hins⟩ := checks_of_insertAfter hr
    obtain ⟨n, w, rfl, rfl, hn, hw⟩ := insert_checks hval hins
    obtain ⟨b, hb⟩ : ∃ b, (m n).next = some b := by
      rcases hn with ⟨-, h⟩ | ⟨-, q, -, h, -⟩ <;> exact ⟨_, h⟩
    by_cases hwn : w = n
    · -- one self-linked node inserted after itself
      subst hwn
      rw [ListCall.apply, ilistInsertAfter_self (selfLinked_of_checks hn hw)]
      exact hm
    · rw [ListCall.apply, ilistInsertAfter_eq_splice hn hw hwn hb]
      exact hm.splice hb (prev_of_next_of_linked hn hb) hw hwn
        (Ne.symm (ne_of_free_of_prev hw hwn (prev_of_next_of_linked hn hb)))
  | insertBefore node newNode =>
    obtain ⟨hval, hins⟩ := checks_of_insertBefore hr
    obtain ⟨n, w, rfl, rfl, hn, hw⟩ := insert_checks hval hins
    obtain ⟨a, ha⟩ : ∃ a, (m n).prev = some a := by
      rcases hn with ⟨h, -⟩ | ⟨p, -, h, -⟩ <;> exact ⟨_, h⟩
    by_cases hwn : w = n
    · subst hwn
      rw [ListCall.apply, ilistInsertBefore_self (selfLinked_of_checks hn hw)]
      exact hm
    · rw [ListCall.apply, ilistInsertBefore_eq_splice hn hw hwn ha]
      exact hm.splice (next_of_prev_of_linked hn ha) ha hw
        (Ne.symm (ne_of_free_of_next hw hwn (next_of_prev_of_linked hn ha))) hwn
  | remove node =>
    obtain ⟨n, rfl, hn⟩ := linked_of_remove hr
    obtain ⟨p, q, hp, hq, -⟩ := id hn
    rw [ListCall.apply, ilistRemove_eq_unsplice hn hp hq]
    exact hm.unsplice hn hp hq

/-- ilist_remove succeeds exactly on a linked node. -/
theorem ilistRemove_eq_zero_iff (x : α) : (ilistRemove m (some x)).2 = 0 ↔ Linked m x := by
  constructor
  · intro h
    obtain ⟨n, hn, hl⟩ := linked_of_remove h
    rw [Option.some.injEq] at hn
    exact hn ▸ hl
  · intro hl
    obtain ⟨p, q, hp, hq, -⟩ := id hl
    rw [ilistRemove_eq_unsplice hl hp hq]

/-- A linked node is refused as the new node of an insert. -/
theorem insert_of_linked {x : α} (hx : Linked m x) (node : Option α) :
    (ilistInsertAfter m node (some x)).2 ≠ 0 ∧ (ilistInsertBefore m node (some x)).2 ≠ 0 := by
  refine ⟨fun h => ?_, fun h => ?_⟩
  · exact hx.not_free ((nodeInsertable_iff x).mp (checks_of_insertAfter h).2)
  · exact hx.not_free ((nodeInsertable_iff x).mp (checks_of_insertBefore h).2)

/-- A run that never resets a linked node keeps the memory ring-shaped. -/
theorem RingShaped.runCalls (hm : RingShaped m) (calls : List (ListCall α)) (hc : keepsRings m calls = true) :
    RingShaped (Uinxed.IntrusiveList.runCalls m calls).1 := by
  induction calls generalizing m with
  | nil => exact hm
  | cons c cs ih =>
    simp only [keepsRings, Bool.and_eq_true, Bool.not_eq_eq_eq_not, Bool.not_true] at hc
    exact ih (RingShaped.apply hm c hc.1) hc.2

/-! ## The rings over every run -/

/-- From any memory of disjoint rings, along every run of ilist_init,
ilist_insert_after, ilist_insert_before and ilist_remove calls over finitely
many nodes in which ilist_init never resets a linked node, the memory stays a
set of disjoint circular rings with detached and self-linked nodes beside
them: every node is detached, self-linked or linked with neighbours that link
back, and following next from any node comes back to it.  In every memory
reached, a refused call writes nothing, ilist_remove succeeds exactly on a
linked node, and a linked node is refused as the new node of an insert. -/
theorem ilist_rings_of_run [Finite α] (m₀ : α → Links α) (h₀ : RingShaped m₀) (calls : List (ListCall α))
    (hcalls : keepsRings m₀ calls = true) :
    RingShaped (runCalls m₀ calls).1 ∧
      (∀ x, ∃ n, 0 < n ∧ (ringNext (runCalls m₀ calls).1)^[n] x = x) ∧
      (∀ c : ListCall α, (c.apply (runCalls m₀ calls).1).2 ≠ 0 →
        (c.apply (runCalls m₀ calls).1).1 = (runCalls m₀ calls).1) ∧
      (∀ x, (ilistRemove (runCalls m₀ calls).1 (some x)).2 = 0 ↔ Linked (runCalls m₀ calls).1 x) ∧
      (∀ x node, Linked (runCalls m₀ calls).1 x →
        (ilistInsertAfter (runCalls m₀ calls).1 node (some x)).2 ≠ 0 ∧
          (ilistInsertBefore (runCalls m₀ calls).1 node (some x)).2 ≠ 0) := by
  have hm := RingShaped.runCalls h₀ calls hcalls
  exact ⟨hm, ringNext_periodic hm, ListCall.apply_of_refused _, ilistRemove_eq_zero_iff,
    fun x node hx => insert_of_linked hx node⟩

/-- Three detached nodes: a head initialised, two nodes inserted after it and
one of them removed again. -/
theorem ilist_rings_of_run_three_nodes :
    RingShaped (runCalls (fun _ : Fin 3 => (⟨none, none⟩ : Links (Fin 3)))
      [.init (some 0), .insertAfter (some 0) (some 1), .insertBefore (some 0) (some 2), .remove (some 1)]).1 :=
  (ilist_rings_of_run _ (fun _ => .inl ⟨rfl, rfl⟩) _ (by decide)).1

/-- ilist_init checks its node for NULL only.  On a ring 0 → 1 → 2 → 0 it
resets node 1, which its neighbours still name: the memory is no longer a set
of rings, and node 1, still named by node 0, is then inserted into the ring of
node 3 as well. -/
theorem ilist_init_of_linked_breaks_ring :
    (runCalls (fun _ : Fin 4 => (⟨none, none⟩ : Links (Fin 4)))
      [.init (some 0), .insertAfter (some 0) (some 1), .insertAfter (some 1) (some 2), .init (some 3),
        .init (some 1), .insertAfter (some 3) (some 1)]).2 = [0, 0, 0, 0, 0, 0] ∧
    ¬ RingShaped (runCalls (fun _ : Fin 4 => (⟨none, none⟩ : Links (Fin 4)))
      [.init (some 0), .insertAfter (some 0) (some 1), .insertAfter (some 1) (some 2), .init (some 3),
        .init (some 1), .insertAfter (some 3) (some 1)]).1 ∧
    ((runCalls (fun _ : Fin 4 => (⟨none, none⟩ : Links (Fin 4)))
      [.init (some 0), .insertAfter (some 0) (some 1), .insertAfter (some 1) (some 2), .init (some 3),
        .init (some 1), .insertAfter (some 3) (some 1)]).1 0).next = some 1 ∧
    ((runCalls (fun _ : Fin 4 => (⟨none, none⟩ : Links (Fin 4)))
      [.init (some 0), .insertAfter (some 0) (some 1), .insertAfter (some 1) (some 2), .init (some 3),
        .init (some 1), .insertAfter (some 3) (some 1)]).1 1).prev = some 3 := by
  refine ⟨by decide, fun h => ?_, by decide, by decide⟩
  -- node 0 names node 1 as its next node, which does not name it back
  have h0 := h 0
  unfold Detached SelfLinked Linked at h0
  revert h0
  decide

end Uinxed.IntrusiveList
