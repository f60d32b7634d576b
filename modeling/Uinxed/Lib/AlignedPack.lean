/-
  Lib/AlignedPack.lean --- items laid out one after another, each from the
  next multiple of its alignment.

  A loader that places sections in one region walks them in order with an
  offset: an item that takes no place is skipped, and one of alignment a and
  length n is put at the offset rounded up to a multiple of a, after which the
  offset moves past it.  spans lists where each placed item went and finish is
  where the last one ends.  With every alignment positive, each item lies
  between the start and the finish at a multiple of its alignment, and each
  one ends before the next begins.
-/
import Mathlib.Data.List.Pairwise

set_option autoImplicit false

namespace AlignedPack

/-- x rounded up to a multiple of a. -/
def roundUp (x a : Nat) : Nat := (x + a - 1) / a * a

theorem roundUp_mod (x a : Nat) : roundUp x a % a = 0 := Nat.mul_mod_left _ _

/-- The rounded value is x plus what is missing to the next multiple. -/
theorem roundUp_add_mod (x a : Nat) : roundUp x a + (x + a - 1) % a = x + a - 1 := by
  unfold roundUp
  rw [Nat.mul_comm]
  exact Nat.div_add_mod (x + a - 1) a

theorem le_roundUp {x a : Nat} (ha : 0 < a) : x ≤ roundUp x a := by
  have h := roundUp_add_mod x a
  have hr := Nat.mod_lt (x + a - 1) ha
  omega

/-- Where a placed item went: its alignment, its start and its length. -/
structure Span where
  align : Nat
  start : Nat
  length : Nat
  deriving DecidableEq, Repr

/-- The first place after the span. -/
def Span.stop (p : Span) : Nat := p.start + p.length

/-- The span moved up by d. -/
def Span.shift (d : Nat) (p : Span) : Span := { p with start := d + p.start }

@[simp] theorem Span.shift_align (d : Nat) (p : Span) : (p.shift d).align = p.align := rfl
@[simp] theorem Span.shift_start (d : Nat) (p : Span) : (p.shift d).start = d + p.start := rfl
@[simp] theorem Span.shift_length (d : Nat) (p : Span) : (p.shift d).length = p.length := rfl

/-- Each placed item in order, from offset o: none takes no place, some (a, n)
takes n places from the next multiple of a. -/
def spans : Nat → List (Option (Nat × Nat)) → List Span
  | _, [] => []
  | o, none :: items => spans o items
  | o, some (a, n) :: items => ⟨a, roundUp o a, n⟩ :: spans (roundUp o a + n) items

/-- Where the last placed item ends. -/
def finish : Nat → List (Option (Nat × Nat)) → Nat
  | o, [] => o
  | o, none :: items => finish o items
  | o, some (a, n) :: items => finish (roundUp o a + n) items

/-- Every alignment is positive. -/
def Positive (items : List (Option (Nat × Nat))) : Prop := ∀ a n, some (a, n) ∈ items → 0 < a

theorem Positive.tail {x : Option (Nat × Nat)} {items : List (Option (Nat × Nat))} (h : Positive (x :: items)) :
    Positive items :=
  fun a n hm => h a n (List.mem_cons_of_mem x hm)

theorem Positive.head {a n : Nat} {items : List (Option (Nat × Nat))} (h : Positive (some (a, n) :: items)) : 0 < a :=
  h a n List.mem_cons_self

theorem le_finish : ∀ {o : Nat} {items : List (Option (Nat × Nat))}, Positive items → o ≤ finish o items
  | _, [], _ => Nat.le_refl _
  | o, none :: items, h => @le_finish o items h.tail
  | o, some (a, n) :: items, h => by
    have hrest := le_finish (o := roundUp o a + n) h.tail
    have hup := le_roundUp (x := o) h.head
    exact Nat.le_trans hup (Nat.le_trans (Nat.le_add_right _ n) hrest)

/-- Every placed item lies between the start and the finish, at a multiple of
its alignment. -/
theorem mem_spans : ∀ {o : Nat} {items : List (Option (Nat × Nat))}, Positive items → ∀ p ∈ spans o items,
    o ≤ p.start ∧ p.stop ≤ finish o items ∧ p.start % p.align = 0
  | _, [], _, _, hp => absurd hp List.not_mem_nil
  | o, none :: items, h, p, hp => @mem_spans o items h.tail p hp
  | o, some (a, n) :: items, h, p, hp => by
    have hup := le_roundUp (x := o) h.head
    rcases List.mem_cons.mp hp with rfl | hp
    · exact ⟨hup, @le_finish (roundUp o a + n) items h.tail, roundUp_mod o a⟩
    · obtain ⟨hstart, hstop, halign⟩ := mem_spans h.tail p hp
      exact ⟨by omega, hstop, halign⟩

/-- Each placed item ends before the next begins. -/
theorem pairwise_spans : ∀ {o : Nat} {items : List (Option (Nat × Nat))}, Positive items →
    (spans o items).Pairwise (fun p q => p.stop ≤ q.start)
  | _, [], _ => List.Pairwise.nil
  | o, none :: items, h => @pairwise_spans o items h.tail
  | o, some (a, n) :: items, h => by
    refine List.Pairwise.cons (fun q hq => ?_) (pairwise_spans h.tail)
    -- the rest starts from where this item stops
    exact (@mem_spans (roundUp o a + n) items h.tail q hq).1

end AlignedPack
