/-
  Lib/ThreadedList.lean --- doubly linked lists threaded through an array.

  A threaded list keeps its links inside the nodes it links: every node x has
  a next link and a prev link, read through two functions next, prev : ι → κ,
  and a link of type κ is the encoding enc : Option ι → κ of "no node" or of
  one node.  Kernel free lists store κ = int32 with -1 for "no node"; nothing
  below depends on that choice.

  IsList enc next prev head l says that following the links from head visits
  exactly the nodes of l, in order, each once, with every prev link pointing
  back.  The operations every such list supports are proved here once:

      IsList.push    push a node on the front      (list_add)
      IsList.unlink  unlink a node from anywhere   (list_remove)
      IsList.congr   writes to other nodes do not matter (the frame rule)
-/
import Mathlib.Data.List.Nodup

set_option autoImplicit false

namespace ThreadedList

variable {ι κ : Type*} (enc : Option ι → κ) (next prev : ι → κ)

/-- The links of the nodes of l, visited in order, where p is the node before
the first of them: every prev link points to the node before, every next link
to the node after. -/
def Chain : Option ι → List ι → Prop
  | _, [] => True
  | p, x :: xs => prev x = enc p ∧ next x = enc xs.head? ∧ Chain (some x) xs

/-- The list that starts at head is l. -/
structure IsList (head : κ) (l : List ι) : Prop where
  head_eq : head = enc l.head?
  chain : Chain enc next prev none l
  nodup : l.Nodup

@[simp] theorem chain_nil (p : Option ι) : Chain enc next prev p [] := trivial

@[simp] theorem chain_cons (p : Option ι) (x : ι) (xs : List ι) :
    Chain enc next prev p (x :: xs) ↔
      prev x = enc p ∧ next x = enc xs.head? ∧ Chain enc next prev (some x) xs := Iff.rfl

/-- The empty list. -/
theorem isList_nil : IsList enc next prev (enc none) [] := ⟨rfl, trivial, List.nodup_nil⟩

variable {enc next prev}

/-! ## The frame rule -/

/-- Only the links of the list's own nodes matter. -/
theorem Chain.congr {next' prev' : ι → κ} {p : Option ι} {l : List ι}
    (h : Chain enc next prev p l) (hl : ∀ x ∈ l, next' x = next x ∧ prev' x = prev x) :
    Chain enc next' prev' p l := by
  induction l generalizing p with
  | nil => trivial
  | cons x xs ih =>
    obtain ⟨hp, hn, hc⟩ := h
    obtain ⟨hn', hp'⟩ := hl x List.mem_cons_self
    exact ⟨hp'.trans hp, hn'.trans hn, ih hc fun y hy => hl y (List.mem_cons_of_mem x hy)⟩

theorem IsList.congr {next' prev' : ι → κ} {head : κ} {l : List ι}
    (h : IsList enc next prev head l) (hl : ∀ x ∈ l, next' x = next x ∧ prev' x = prev x) :
    IsList enc next' prev' head l :=
  ⟨h.head_eq, h.chain.congr hl, h.nodup⟩

/-! ## Reading the links of one node -/

/-- Inside a chain, a node links back to the node before it and on to the node
after it. -/
theorem Chain.links {p : Option ι} {l₁ l₂ : List ι} {x : ι}
    (h : Chain enc next prev p (l₁ ++ x :: l₂)) :
    prev x = enc (l₁.getLast?.or p) ∧ next x = enc l₂.head? := by
  induction l₁ generalizing p with
  | nil => exact ⟨h.1, h.2.1⟩
  | cons y ys ih =>
    obtain ⟨-, -, hc⟩ := h
    obtain ⟨hp, hn⟩ := ih hc
    refine ⟨?_, hn⟩
    rw [hp]
    cases ys <;> simp [List.getLast?_cons]

theorem IsList.links {head : κ} {l₁ l₂ : List ι} {x : ι}
    (h : IsList enc next prev head (l₁ ++ x :: l₂)) :
    prev x = enc l₁.getLast? ∧ next x = enc l₂.head? := by
  simpa using h.chain.links

/-! ## Pushing a node on the front -/

section Push

variable [DecidableEq ι]

/-- list_add: the new node links to the old head, and the old head's prev link
now points to the new node. -/
theorem IsList.push {next' prev' : ι → κ} {head : κ} {l : List ι} {x : ι}
    (h : IsList enc next prev head l) (hx : x ∉ l)
    (hxn : next' x = head) (hxp : prev' x = enc none)
    (hl : ∀ y ∈ l, next' y = next y ∧
      prev' y = if l.head? = some y then enc (some x) else prev y) :
    IsList enc next' prev' (enc (some x)) (x :: l) := by
  refine ⟨rfl, ⟨hxp, hxn.trans h.head_eq, ?_⟩, List.nodup_cons.mpr ⟨hx, h.nodup⟩⟩
  cases hcase : l with
  | nil => trivial
  | cons y ys =>
    subst hcase
    have hy := hl y List.mem_cons_self
    have hnd : y ∉ ys := (List.nodup_cons.mp h.nodup).1
    refine ⟨by simpa using hy.2, hy.1.trans h.chain.2.1, h.chain.2.2.congr fun z hz => ?_⟩
    have hzy : z ≠ y := fun e => hnd (e ▸ hz)
    have hz' := hl z (List.mem_cons_of_mem y hz)
    exact ⟨hz'.1, by simpa [Ne.symm hzy] using hz'.2⟩

end Push

/-! ## Unlinking a node -/

theorem getLast?_cons_or (y : ι) (ys : List ι) (p : Option ι) :
    (y :: ys).getLast?.or p = ys.getLast?.or (some y) := by
  cases ys <;> simp [List.getLast?_cons]

section Unlink

variable [DecidableEq ι]

/-- list_remove: the neighbours of the removed node are linked to each other;
every other link is untouched. -/
theorem Chain.unlink {next' prev' : ι → κ} {p : Option ι} {l₁ l₂ : List ι} {x : ι}
    (h : Chain enc next prev p (l₁ ++ x :: l₂)) (hnd : (l₁ ++ x :: l₂).Nodup)
    (hl : ∀ y ∈ l₁ ++ l₂,
      next' y = (if l₁.getLast? = some y then enc l₂.head? else next y) ∧
      prev' y = (if l₂.head? = some y then enc (l₁.getLast?.or p) else prev y)) :
    Chain enc next' prev' p (l₁ ++ l₂) := by
  induction l₁ generalizing p with
  | nil =>
    obtain ⟨-, -, hc⟩ := h
    cases l₂ with
    | nil => trivial
    | cons y ys =>
      have hnd' : y ∉ ys := (List.nodup_cons.mp (List.nodup_cons.mp hnd).2).1
      have hy := hl y List.mem_cons_self
      refine ⟨by simpa using hy.2, by simpa [hc.2.1] using hy.1, hc.2.2.congr fun z hz => ?_⟩
      have hzy : z ≠ y := fun e => hnd' (e ▸ hz)
      have hz' := hl z (List.mem_cons_of_mem y hz)
      exact ⟨by simpa using hz'.1, by simpa [Ne.symm hzy] using hz'.2⟩
  | cons w ws ih =>
    obtain ⟨hp, hn, hc⟩ := h
    have hw : w ∉ ws ++ x :: l₂ := (List.nodup_cons.mp hnd).1
    have hw₂ : w ∉ l₂ := fun hm => hw (List.mem_append_right _ (List.mem_cons_of_mem x hm))
    have hww : w ∉ ws := fun hm => hw (List.mem_append_left _ hm)
    have hwl := hl w List.mem_cons_self
    refine ⟨?_, ?_, ih hc (List.nodup_cons.mp hnd).2 fun y hy => ?_⟩
    · have : l₂.head? ≠ some w := fun e => hw₂ (List.mem_of_mem_head? e)
      have h2 := hwl.2
      rw [if_neg this] at h2
      exact h2.trans hp
    · cases ws with
      | nil => simpa using hwl.1
      | cons v vs =>
        have : (v :: vs).getLast? ≠ some w := fun e => hww (List.mem_of_getLast? e)
        simpa [this, hn] using hwl.1
    · have hyw : y ≠ w := fun e => by
        subst e
        rcases List.mem_append.mp hy with hm | hm
        · exact hww hm
        · exact hw₂ hm
      have hy' := hl y (List.mem_cons_of_mem w hy)
      have hlast : (w :: ws).getLast? = some y ↔ ws.getLast? = some y := by
        cases ws with
        | nil => simp [Ne.symm hyw]
        | cons v vs => simp [List.getLast?_cons_cons]
      rw [getLast?_cons_or] at hy'
      simpa [hlast] using hy'

theorem IsList.unlink {next' prev' : ι → κ} {head head' : κ} {l₁ l₂ : List ι} {x : ι}
    (h : IsList enc next prev head (l₁ ++ x :: l₂))
    (hhead : head' = enc (l₁ ++ l₂).head?)
    (hl : ∀ y ∈ l₁ ++ l₂,
      next' y = (if l₁.getLast? = some y then enc l₂.head? else next y) ∧
      prev' y = (if l₂.head? = some y then enc l₁.getLast? else prev y)) :
    IsList enc next' prev' head' (l₁ ++ l₂) := by
  refine ⟨hhead, h.chain.unlink h.nodup (by simpa using hl), ?_⟩
  exact h.nodup.sublist ((List.Sublist.refl l₁).append (List.sublist_cons_self x l₂))

end Unlink

/-- A duplicate-free list of indices below n has at most n elements. -/
theorem length_le_of_nodup {l : List Nat} {n : Nat} (hnd : l.Nodup) (hl : ∀ x ∈ l, x < n) :
    l.length ≤ n := by
  have hsub : l ⊆ List.range n := fun x hx => List.mem_range.mpr (hl x hx)
  simpa using List.Nodup.length_le_of_subset hnd hsub

end ThreadedList
