/-
  Lib/AugTree.lean --- binary trees augmented with a subtree summary, and the
  pruned search over them.

  An augmented tree stores at every node a value computed from the node's
  element and the values stored at its two children.  The pruned search walks
  down from the root: it commits to the left subtree when the value stored
  there passes a test, returns the node's element when that satisfies a
  predicate, and goes right otherwise.  It finds the first element of the
  in-order sequence that satisfies the predicate whenever the test on a
  subtree's stored value tells exactly whether the subtree holds such an
  element (Decides).  A min-augmentation, whose stored value is the least key
  of the subtree, decides a predicate that is downward closed in the key.
-/
import Mathlib.Order.Defs.Unbundled

set_option autoImplicit false

/-- A binary tree whose nodes carry an element and a stored value. -/
inductive AugTree (α β : Type) where
  | nil : AugTree α β
  | node (left : AugTree α β) (elem : α) (aug : β) (right : AugTree α β) : AugTree α β
  deriving DecidableEq, Repr

namespace AugTree

variable {α β : Type}

/-- The in-order sequence of elements. -/
def toList : AugTree α β → List α
  | nil => []
  | node l x _ r => l.toList ++ x :: r.toList

/-- The value stored at the root; none for the empty tree. -/
def aug? : AugTree α β → Option β
  | nil => none
  | node _ _ a _ => some a

/-- The first element in order: follow left children from the root. -/
def leftmost? : AugTree α β → Option α
  | nil => none
  | node l x _ _ => l.leftmost?.or (some x)

/-- The pruned search: go left when the stored value of the left subtree
passes keep, else return the element when it satisfies p, else go right. -/
def heapSearch (keep : β → Bool) (p : α → Bool) : AugTree α β → Option α
  | nil => none
  | node l x _ r =>
    if l.aug?.any keep then heapSearch keep p l
    else if p x then some x
    else heapSearch keep p r

@[simp] theorem toList_nil : (nil : AugTree α β).toList = [] := rfl

@[simp] theorem toList_node (l : AugTree α β) (x : α) (a : β) (r : AugTree α β) :
    (node l x a r).toList = l.toList ++ x :: r.toList := rfl

/-- A tree with an element stores a value at its root. -/
theorem exists_aug?_of_mem {t : AugTree α β} {y : α} (hy : y ∈ t.toList) : ∃ b, b ∈ t.aug? := by
  cases t with
  | nil => simp at hy
  | node l x a r => exact ⟨a, rfl⟩

theorem leftmost?_eq_head? (t : AugTree α β) : t.leftmost? = t.toList.head? := by
  induction t with
  | nil => rfl
  | node l x a r ihl _ =>
    rw [leftmost?, ihl, toList_node, List.head?_append]
    rfl

/-! ## Augmentation -/

/-- Every node stores combine of its element and its children's stored
values. -/
def Augmented (combine : α → Option β → Option β → β) : AugTree α β → Prop
  | nil => True
  | node l x a r => a = combine x l.aug? r.aug? ∧ Augmented combine l ∧ Augmented combine r

instance decAugmented [DecidableEq β] (combine : α → Option β → Option β → β) :
    ∀ t : AugTree α β, Decidable (Augmented combine t)
  | nil => isTrue trivial
  | node l _ _ r =>
    haveI := decAugmented combine l
    haveI := decAugmented combine r
    inferInstanceAs (Decidable (_ ∧ _ ∧ _))

/-- keep, read on the value stored at any subtree, tells whether that subtree
holds an element satisfying p. -/
def Decides (keep : β → Bool) (p : α → Bool) : AugTree α β → Prop
  | nil => True
  | node l x a r =>
    (keep a = true ↔ ∃ y ∈ (node l x a r).toList, p y = true) ∧ Decides keep p l ∧ Decides keep p r

theorem Decides.any_aug? {keep : β → Bool} {p : α → Bool} {t : AugTree α β} (h : Decides keep p t) :
    t.aug?.any keep = true ↔ ∃ y ∈ t.toList, p y = true := by
  cases t with
  | nil => simp [aug?]
  | node l x a r => exact h.1

/-- The pruned search finds the first element in order that satisfies p. -/
theorem heapSearch_eq_find? {keep : β → Bool} {p : α → Bool} {t : AugTree α β}
    (h : Decides keep p t) : t.heapSearch keep p = t.toList.find? p := by
  induction t with
  | nil => rfl
  | node l x a r ihl ihr =>
    obtain ⟨-, hl, hr⟩ := h
    rw [heapSearch, toList_node, List.find?_append]
    by_cases hk : l.aug?.any keep = true
    · -- the left subtree holds a match, so the first match is in it
      obtain ⟨y, hy, hpy⟩ := hl.any_aug?.mp hk
      obtain ⟨z, hz⟩ := Option.isSome_iff_exists.mp (List.find?_isSome.mpr ⟨y, hy, hpy⟩)
      rw [if_pos hk, ihl hl, hz, Option.some_or]
    · -- no match on the left: the node itself, then the right subtree
      have hnone : l.toList.find? p = none :=
        List.find?_eq_none.mpr fun y hy hpy => hk (hl.any_aug?.mpr ⟨y, hy, hpy⟩)
      rw [if_neg hk, hnone, Option.none_or, List.find?_cons]
      cases p x <;> simp [ihr hr]

/-! ## Min-augmentation -/

section MinAug

variable [LE β] [IsTrans β (· ≤ ·)] {f : α → β} {combine : α → Option β → Option β → β}

/-- combine stores the least of the element's key and the children's stored
values, and that is one of them. -/
structure MinCombine (f : α → β) (combine : α → Option β → Option β → β) : Prop where
  le_self : ∀ x bl br, combine x bl br ≤ f x
  le_left : ∀ x bl br, ∀ b ∈ bl, combine x bl br ≤ b
  le_right : ∀ x bl br, ∀ b ∈ br, combine x bl br ≤ b
  mem : ∀ x bl br, combine x bl br = f x ∨ combine x bl br ∈ bl ∨ combine x bl br ∈ br

variable (hc : MinCombine f combine)
include hc

/-- The stored value is at most the key of every element of the subtree. -/
theorem Augmented.aug_le {t : AugTree α β} (h : Augmented combine t) :
    ∀ a ∈ t.aug?, ∀ y ∈ t.toList, a ≤ f y := by
  induction t with
  | nil => simp [aug?]
  | node l x a r ihl ihr =>
    obtain ⟨ha, hl, hr⟩ := h
    intro b hb y hy
    rw [aug?, Option.mem_some_iff] at hb
    subst hb ha
    rcases List.mem_append.mp hy with hy | hy
    · -- below the left child's stored value
      obtain ⟨bl, hbl⟩ := exists_aug?_of_mem hy
      exact IsTrans.trans _ _ _ (hc.le_left x _ _ bl hbl) (ihl hl bl hbl y hy)
    rcases List.mem_cons.mp hy with rfl | hy
    · exact hc.le_self y _ _
    · obtain ⟨br, hbr⟩ := exists_aug?_of_mem hy
      exact IsTrans.trans _ _ _ (hc.le_right x _ _ br hbr) (ihr hr br hbr y hy)

omit [IsTrans β (· ≤ ·)] in
/-- The stored value is the key of some element of the subtree. -/
theorem Augmented.exists_aug {t : AugTree α β} (h : Augmented combine t) :
    ∀ a ∈ t.aug?, ∃ y ∈ t.toList, f y = a := by
  induction t with
  | nil => simp [aug?]
  | node l x a r ihl ihr =>
    obtain ⟨ha, hl, hr⟩ := h
    intro b hb
    rw [aug?, Option.mem_some_iff] at hb
    subst hb ha
    rcases hc.mem x l.aug? r.aug? with he | he | he
    · exact ⟨x, by simp, he.symm⟩
    · obtain ⟨y, hy, hfy⟩ := ihl hl _ he
      exact ⟨y, by simp [hy], hfy⟩
    · obtain ⟨y, hy, hfy⟩ := ihr hr _ he
      exact ⟨y, by simp [hy], hfy⟩

/-- A min-augmentation decides every predicate that is keep of the key and is
downward closed in the key over the elements of the tree. -/
theorem Augmented.decides {keep : β → Bool} {p : α → Bool} {t : AugTree α β}
    (h : Augmented combine t) (hp : ∀ y ∈ t.toList, keep (f y) = p y)
    (hmono : ∀ y ∈ t.toList, ∀ z ∈ t.toList, f z ≤ f y → p y = true → p z = true) :
    Decides keep p t := by
  induction t with
  | nil => trivial
  | node l x a r ihl ihr =>
    have hsub : ∀ y, y ∈ l.toList ∨ y ∈ r.toList → y ∈ (node l x a r).toList := by
      intro y hy
      rcases hy with hy | hy <;> simp [hy]
    refine ⟨?_, ihl h.2.1 (fun y hy => hp y (hsub y (.inl hy)))
        (fun y hy z hz => hmono y (hsub y (.inl hy)) z (hsub z (.inl hz))),
      ihr h.2.2 (fun y hy => hp y (hsub y (.inr hy)))
        (fun y hy z hz => hmono y (hsub y (.inr hy)) z (hsub z (.inr hz)))⟩
    -- the stored value is the key of an element y₀ below every other key
    obtain ⟨y₀, hy₀, hfy₀⟩ := h.exists_aug hc a rfl
    have hle := h.aug_le hc a rfl
    constructor
    · intro hk
      exact ⟨y₀, hy₀, by rw [← hp y₀ hy₀, hfy₀, hk]⟩
    · rintro ⟨y, hy, hpy⟩
      rw [← hfy₀, hp y₀ hy₀]
      exact hmono y hy y₀ hy₀ (hfy₀ ▸ hle y hy) hpy

end MinAug

end AugTree
