/-
  Lib/Digraph.lean --- acyclic relations, and what adding or removing an
  edge does to them.

  A directed graph is a relation r on its nodes; it is acyclic when no node
  reaches itself by one edge or more (TransGen).  Removing edges keeps a
  graph acyclic (Acyclic.mono).  Adding an edge u → v keeps it acyclic when v
  does not already reach u (Acyclic.insert); the proof splits a path of the
  larger graph at the new edge (transGen_of_insert).  A checker that answers
  true on every pair that is connected, and perhaps on more, guards such an
  insertion soundly (Acyclic.insert_of_check).
-/
import Mathlib.Logic.Relation

set_option autoImplicit false

namespace Digraph

variable {α : Type} {r r' : α → α → Prop}

/-- No node reaches itself. -/
def Acyclic (r : α → α → Prop) : Prop := ∀ a, ¬ Relation.TransGen r a a

/-- Fewer edges, no new cycle. -/
theorem Acyclic.mono (h : Acyclic r) (hsub : ∀ a b, r' a b → r a b) : Acyclic r' :=
  fun a hc => h a (Relation.TransGen.mono hsub a a hc)

/-- A path of r', whose edges are r's and u → v, is a path of r or goes
through the new edge: r reaches u from its start, and its end from v. -/
theorem transGen_of_insert {u v : α} (hsub : ∀ a b, r' a b → r a b ∨ (a = u ∧ b = v)) {x y : α}
    (h : Relation.TransGen r' x y) :
    Relation.TransGen r x y ∨ (Relation.ReflTransGen r x u ∧ Relation.ReflTransGen r v y) := by
  induction h with
  | single hxy =>
    rcases hsub _ _ hxy with h | ⟨rfl, rfl⟩
    · exact .inl (.single h)
    · exact .inr ⟨.refl, .refl⟩
  | tail _ hyz ih =>
    rcases hsub _ _ hyz with h | ⟨rfl, rfl⟩
    · rcases ih with ih | ⟨hxu, hvy⟩
      · exact .inl (ih.tail h)
      · exact .inr ⟨hxu, hvy.tail h⟩
    · rcases ih with ih | ⟨hxu, _⟩
      · exact .inr ⟨ih.to_reflTransGen, .refl⟩
      · exact .inr ⟨hxu, .refl⟩

/-- An edge u → v added to an acyclic graph where v does not reach u. -/
theorem Acyclic.insert {u v : α} (h : Acyclic r) (hvu : ¬ Relation.ReflTransGen r v u)
    (hsub : ∀ a b, r' a b → r a b ∨ (a = u ∧ b = v)) : Acyclic r' := by
  intro a hc
  rcases transGen_of_insert hsub hc with hc | ⟨hau, hva⟩
  · exact h a hc
  · exact hvu (hva.trans hau)

/-- The same, guarded by a checker that is true on every connected pair. -/
theorem Acyclic.insert_of_check {u v : α} (check : α → α → Bool)
    (hcheck : ∀ a b, Relation.ReflTransGen r a b → check a b = true) (h : Acyclic r) (hvu : check v u = false)
    (hsub : ∀ a b, r' a b → r a b ∨ (a = u ∧ b = v)) : Acyclic r' :=
  h.insert (fun hr => by rw [hcheck v u hr] at hvu; cases hvu) hsub

end Digraph
