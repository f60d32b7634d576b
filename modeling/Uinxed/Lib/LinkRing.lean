/-
  Lib/LinkRing.lean --- nodes with a prev and a next link, and when they form
  disjoint circular rings.

  A configuration gives every node two optional links.  It is ring-shaped when
  every node is detached (both links empty), self-linked (both links to
  itself), or linked: both links go to other nodes, and those link back to it.
  That is a local condition, checked one node at a time.  What makes it a set
  of rings is global: following next from a linked node comes back to it.
  ringNext follows next from linked nodes and stays put elsewhere; on a
  ring-shaped configuration it is injective, so over finitely many nodes every
  node is a periodic point of it, and the rings are its cycles.

  Three rewrites keep the shape: splicing a free node w between a node a and
  its next node b (one and the same node when a is self-linked), unsplicing a
  linked node from between its two neighbours, and self-linking a node that is
  not linked.
-/
import Mathlib.Dynamics.PeriodicPts.Lemmas

set_option autoImplicit false

namespace LinkRing

/-- The two links of a node; none is the null pointer. -/
@[ext] structure Links (α : Type) where
  prev : Option α
  next : Option α
  deriving DecidableEq, Repr

variable {α : Type} (m : α → Links α)

/-- Both links empty. -/
def Detached (x : α) : Prop := (m x).prev = none ∧ (m x).next = none

/-- Both links to the node itself. -/
def SelfLinked (x : α) : Prop := (m x).prev = some x ∧ (m x).next = some x

/-- Both links to other nodes, which link back. -/
def Linked (x : α) : Prop :=
  ∃ p q, (m x).prev = some p ∧ (m x).next = some q ∧ p ≠ x ∧ q ≠ x ∧ (m p).next = some x ∧ (m q).prev = some x

/-- Every node is detached, self-linked or linked. -/
def RingShaped : Prop := ∀ x, Detached m x ∨ SelfLinked m x ∨ Linked m x

section Shape

variable {m}

/-- On a ring-shaped configuration a node whose prev link names another node
is linked. -/
theorem linked_of_prev (hm : RingShaped m) {x y : α} (hy : (m y).prev = some x) (hxy : x ≠ y) : Linked m y := by
  rcases hm y with ⟨hp, -⟩ | ⟨hp, -⟩ | hl
  · rw [hp] at hy
    cases hy
  · rw [hp, Option.some.injEq] at hy
    exact absurd hy.symm hxy
  · exact hl

/-- A linked node is neither detached nor self-linked. -/
theorem Linked.not_free {x : α} (h : Linked m x) : ¬ (Detached m x ∨ SelfLinked m x) := by
  obtain ⟨p, q, hp, -, hpx, -⟩ := h
  rintro (⟨hn, -⟩ | ⟨hs, -⟩)
  · rw [hp] at hn
    cases hn
  · rw [hp, Option.some.injEq] at hs
    exact hpx hs

/-- The node a self-linked or linked node's next link names links back to it. -/
theorem prev_of_next_of_linked {n b : α} (hn : SelfLinked m n ∨ Linked m n) (hb : (m n).next = some b) :
    (m b).prev = some n := by
  rcases hn with ⟨hsp, hsn⟩ | ⟨p, q, -, hq, -, -, -, hqp⟩
  · rw [hsn, Option.some.injEq] at hb
    rw [← hb, hsp]
  · rw [hq, Option.some.injEq] at hb
    rw [← hb, hqp]

/-- The node a self-linked or linked node's prev link names links forward to it. -/
theorem next_of_prev_of_linked {n a : α} (hn : SelfLinked m n ∨ Linked m n) (ha : (m n).prev = some a) :
    (m a).next = some n := by
  rcases hn with ⟨hsp, hsn⟩ | ⟨p, q, hp, -, -, -, hpn, -⟩
  · rw [hsp, Option.some.injEq] at ha
    rw [← ha, hsn]
  · rw [hp, Option.some.injEq] at ha
    rw [← ha, hpn]

/-- A node that is self-linked or linked, and detached or self-linked, is
self-linked. -/
theorem selfLinked_of_checks {n : α} (hn : SelfLinked m n ∨ Linked m n) (hw : Detached m n ∨ SelfLinked m n) :
    SelfLinked m n := by
  rcases hn with hs | hl
  · exact hs
  · exact absurd hw hl.not_free

/-- A node whose prev link names another node than w is not the free node w. -/
theorem ne_of_free_of_prev {w b n : α} (hw : Detached m w ∨ SelfLinked m w) (hwn : w ≠ n)
    (hbp : (m b).prev = some n) : b ≠ w := by
  rintro rfl
  rcases hw with ⟨hd, -⟩ | ⟨hs, -⟩
  · rw [hd] at hbp
    cases hbp
  · rw [hs, Option.some.injEq] at hbp
    exact hwn hbp

/-- A node whose next link names another node than w is not the free node w. -/
theorem ne_of_free_of_next {w a n : α} (hw : Detached m w ∨ SelfLinked m w) (hwn : w ≠ n)
    (han : (m a).next = some n) : a ≠ w := by
  rintro rfl
  rcases hw with ⟨-, hd⟩ | ⟨-, hs⟩
  · rw [hd] at han
    cases han
  · rw [hs, Option.some.injEq] at han
    exact hwn han

/-- A node whose next link names another node is linked. -/
theorem linked_of_next (hm : RingShaped m) {x y : α} (hy : (m y).next = some x) (hxy : x ≠ y) : Linked m y := by
  rcases hm y with ⟨-, hn⟩ | ⟨-, hn⟩ | hl
  · rw [hn] at hy
    cases hy
  · rw [hn, Option.some.injEq] at hy
    exact absurd hy.symm hxy
  · exact hl

end Shape

variable [DecidableEq α]

/-- One step along the rings: the next node of a node whose next node links
back to it, and the node itself otherwise. -/
def ringNext (x : α) : α :=
  match (m x).next with
  | some q => if (m q).prev = some x ∧ q ≠ x then q else x
  | none => x

variable {m}

theorem ringNext_of_linked {x : α} (h : Linked m x) : ∃ q, (m x).next = some q ∧ ringNext m x = q ∧ q ≠ x := by
  obtain ⟨p, q, -, hq, -, hqx, -, hqp⟩ := h
  refine ⟨q, hq, ?_, hqx⟩
  simp only [ringNext, hq, hqp, ne_eq, hqx, not_false_eq_true, and_self, if_true]

theorem ringNext_of_not_linked (hm : RingShaped m) {x : α} (h : ¬ Linked m x) : ringNext m x = x := by
  rcases hm x with ⟨-, hn⟩ | ⟨-, hn⟩ | hl
  · simp only [ringNext, hn]
  · simp only [ringNext, hn, ne_eq, not_true_eq_false, and_false, if_false]
  · exact absurd hl h

/-- The next node of a linked node is linked. -/
theorem Linked.ringNext (hm : RingShaped m) {x : α} (h : Linked m x) : Linked m (LinkRing.ringNext m x) := by
  obtain ⟨q', hq', hnext, -⟩ := ringNext_of_linked h
  obtain ⟨-, q, -, hq, -, hqx, -, hqp⟩ := h
  rw [hq, Option.some.injEq] at hq'
  rw [hnext, ← hq']
  exact linked_of_prev hm hqp (Ne.symm hqx)

/-- On a ring-shaped configuration ringNext is injective: the node before a
linked node is the one its prev link names. -/
theorem ringNext_injective (hm : RingShaped m) : Function.Injective (ringNext m) := by
  intro x y hxy
  by_cases hx : Linked m x <;> by_cases hy : Linked m y
  · obtain ⟨qx, hqx, hnx, -⟩ := ringNext_of_linked hx
    obtain ⟨qy, hqy, hny, -⟩ := ringNext_of_linked hy
    obtain ⟨-, q₁, -, hq₁, -, -, -, hb₁⟩ := hx
    obtain ⟨-, q₂, -, hq₂, -, -, -, hb₂⟩ := hy
    -- both steps end at one node, whose prev link names both
    rw [hq₁, Option.some.injEq] at hqx
    rw [hq₂, Option.some.injEq] at hqy
    rw [hnx, hny, ← hqx, ← hqy] at hxy
    rw [hxy] at hb₁
    rw [hb₁, Option.some.injEq] at hb₂
    exact hb₂
  · -- a linked node steps to a linked node, an unlinked one stays
    have := hx.ringNext hm
    rw [hxy, ringNext_of_not_linked hm hy] at this
    exact absurd this hy
  · have := hy.ringNext hm
    rw [← hxy, ringNext_of_not_linked hm hx] at this
    exact absurd this hx
  · rwa [ringNext_of_not_linked hm hx, ringNext_of_not_linked hm hy] at hxy

/-- Over finitely many nodes, following next from a node of a ring-shaped
configuration comes back to it. -/
theorem ringNext_periodic [Finite α] (hm : RingShaped m) (x : α) :
    ∃ n, 0 < n ∧ (ringNext m)^[n] x = x := by
  obtain ⟨n, hn, hper⟩ := (ringNext_injective hm).mem_periodicPts x
  exact ⟨n, hn, hper⟩

/-! ## Rewrites that keep the shape -/

variable (m)

/-- The configuration with w placed between a and its next node b. -/
def splice (a b w : α) : α → Links α := fun y =>
  if y = w then ⟨some a, some b⟩
  else if y = a ∧ y = b then ⟨some w, some w⟩
  else if y = a then { m a with next := some w }
  else if y = b then { m b with prev := some w }
  else m y

/-- The configuration with x taken out from between p and q. -/
def unsplice (x p q : α) : α → Links α := fun y =>
  if y = x then ⟨none, none⟩
  else if y = p ∧ y = q then ⟨some p, some p⟩
  else if y = p then { m p with next := some q }
  else if y = q then { m q with prev := some p }
  else m y

/-- The configuration with x linked to itself. -/
def selfLink (x : α) : α → Links α := fun y => if y = x then ⟨some x, some x⟩ else m y

section Rewrites

variable {m}

/-- A free node w spliced between a node a and its next node b. -/
theorem RingShaped.splice (hm : RingShaped m) {a b w : α} (hab : (m a).next = some b) (hba : (m b).prev = some a)
    (hw : Detached m w ∨ SelfLinked m w) (hwa : w ≠ a) (hwb : w ≠ b) : RingShaped (splice m a b w) := by
  -- w links to nothing but itself, so no node other than w names it
  have hwn : ∀ y, y ≠ w → (m w).next ≠ some y := by
    rintro y hyw hn
    rcases hw with ⟨-, h⟩ | ⟨-, h⟩ <;> rw [h] at hn <;> simp_all
  have hwp : ∀ y, y ≠ w → (m w).prev ≠ some y := by
    rintro y hyw hp
    rcases hw with ⟨h, -⟩ | ⟨h, -⟩ <;> rw [h] at hp <;> simp_all
  intro y
  by_cases hyw : y = w
  · -- the spliced node sits between a and b
    subst hyw
    refine .inr (.inr ⟨a, b, by simp [LinkRing.splice], by simp [LinkRing.splice], Ne.symm hwa, Ne.symm hwb, ?_, ?_⟩)
    · by_cases hab' : a = b
      · simp [LinkRing.splice, Ne.symm hwb, hab']
      · simp [LinkRing.splice, Ne.symm hwa, hab']
    · by_cases hab' : a = b
      · simp [LinkRing.splice, Ne.symm hwb, hab']
      · simp [LinkRing.splice, Ne.symm hwb, Ne.symm hab']
  by_cases hya : y = a <;> by_cases hyb : y = b
  · -- a was self-linked and now makes a ring of two with w
    subst hya
    subst hyb
    refine .inr (.inr ⟨w, w, by simp [LinkRing.splice, hyw], by simp [LinkRing.splice, hyw], hyw ∘ Eq.symm,
      hyw ∘ Eq.symm, by simp [LinkRing.splice], by simp [LinkRing.splice]⟩)
  · -- a keeps its prev node and now points at w
    subst hya
    have hl : Linked m y := linked_of_next hm hab (Ne.symm hyb)
    obtain ⟨p, -, hp, -, hpy, -, hpn, -⟩ := hl
    have hpw : p ≠ w := fun hpw => hwn y hyw (hpw ▸ hpn)
    refine .inr (.inr ⟨p, w, by simp [LinkRing.splice, hyw, hyb, hp], by simp [LinkRing.splice, hyw, hyb], hpy,
      Ne.symm hyw, ?_, by simp [LinkRing.splice]⟩)
    by_cases hpb : p = b
    · subst hpb
      simp [LinkRing.splice, hpw, hpy, hpn]
    · simp [LinkRing.splice, hpw, hpy, hpb, hpn]
  · -- b keeps its next node and now points back at w
    subst hyb
    have hl : Linked m y := linked_of_prev hm hba (Ne.symm hya)
    obtain ⟨-, q, -, hq, -, hqy, -, hqp⟩ := hl
    have hqw : q ≠ w := fun hqw => hwp y hyw (hqw ▸ hqp)
    refine .inr (.inr ⟨w, q, by simp [LinkRing.splice, hyw, hya], by simp [LinkRing.splice, hyw, hya, hq],
      Ne.symm hyw, hqy, by simp [LinkRing.splice], ?_⟩)
    by_cases hqa : q = a
    · subst hqa
      simp [LinkRing.splice, hqw, hqy, hqp]
    · simp [LinkRing.splice, hqw, hqy, hqa, hqp]
  · -- any other node and its neighbours keep their links to each other
    have hsy : LinkRing.splice m a b w y = m y := by simp [LinkRing.splice, hyw, hya, hyb]
    rcases hm y with hd | hs | ⟨p, q, hp, hq, hpy, hqy, hpn, hqp⟩
    · exact .inl (by unfold Detached; rw [hsy]; exact hd)
    · exact .inr (.inl (by unfold SelfLinked; rw [hsy]; exact hs))
    have hpw : p ≠ w := fun h => hwn y hyw (h ▸ hpn)
    have hqw : q ≠ w := fun h => hwp y hyw (h ▸ hqp)
    have hpa : p ≠ a := fun h => hyb (Option.some.inj ((h ▸ hpn).symm.trans hab))
    have hqb : q ≠ b := fun h => hya (Option.some.inj ((h ▸ hqp).symm.trans hba))
    refine .inr (.inr ⟨p, q, by rw [hsy]; exact hp, by rw [hsy]; exact hq, hpy, hqy, ?_, ?_⟩)
    · by_cases hpb : p = b
      · subst hpb
        simp [LinkRing.splice, hpw, hpa, hpn]
      · simp [LinkRing.splice, hpw, hpa, hpb, hpn]
    · by_cases hqa : q = a
      · subst hqa
        simp [LinkRing.splice, hqw, hqb, hqp]
      · simp [LinkRing.splice, hqw, hqa, hqb, hqp]

/-- A linked node x taken out from between its neighbours p and q. -/
theorem RingShaped.unsplice (hm : RingShaped m) {x p q : α} (hx : Linked m x) (hp : (m x).prev = some p)
    (hq : (m x).next = some q) : RingShaped (unsplice m x p q) := by
  obtain ⟨p', q', hp', hq', hpx, hqx, hpn, hqp⟩ := hx
  rw [hp, Option.some.injEq] at hp'
  rw [hq, Option.some.injEq] at hq'
  subst hp' hq'
  intro y
  by_cases hyx : y = x
  · exact .inl (by simp [Detached, LinkRing.unsplice, hyx])
  by_cases hyp : y = p <;> by_cases hyq : y = q
  · -- x was in a ring of two, and its neighbour is left self-linked
    subst hyp
    subst hyq
    exact .inr (.inl (by simp [SelfLinked, LinkRing.unsplice, hyx]))
  · -- p keeps its prev node and now points at q
    subst hyp
    have hl : Linked m y := linked_of_next hm hpn (Ne.symm hyx)
    obtain ⟨p₀, -, hp₀, -, hp₀y, -, hp₀n, -⟩ := hl
    have hp₀x : p₀ ≠ x := fun h => hyq (Option.some.inj ((h ▸ hp₀n).symm.trans hq))
    refine .inr (.inr ⟨p₀, q, by simp [LinkRing.unsplice, hyx, hyq, hp₀], by simp [LinkRing.unsplice, hyx, hyq],
      hp₀y, Ne.symm hyq, ?_, by simp [LinkRing.unsplice, hqx, Ne.symm hyq]⟩)
    by_cases hp₀q : p₀ = q
    · subst hp₀q
      simp [LinkRing.unsplice, hp₀x, hp₀y, hp₀n]
    · simp [LinkRing.unsplice, hp₀x, hp₀y, hp₀q, hp₀n]
  · -- q keeps its next node and now points back at p
    subst hyq
    have hl : Linked m y := linked_of_prev hm hqp (Ne.symm hyx)
    obtain ⟨-, q₀, -, hq₀, -, hq₀y, -, hq₀p⟩ := hl
    have hq₀x : q₀ ≠ x := fun h => hyp (Option.some.inj ((h ▸ hq₀p).symm.trans hp))
    refine .inr (.inr ⟨p, q₀, by simp [LinkRing.unsplice, hyx, hyp], by simp [LinkRing.unsplice, hyx, hyp, hq₀],
      Ne.symm hyp, hq₀y, by simp [LinkRing.unsplice, hpx, Ne.symm hyp], ?_⟩)
    by_cases hq₀p' : q₀ = p
    · subst hq₀p'
      simp [LinkRing.unsplice, hq₀x, hq₀y, hq₀p]
    · simp [LinkRing.unsplice, hq₀x, hq₀y, hq₀p', hq₀p]
  · -- any other node and its neighbours keep their links to each other
    have hsy : LinkRing.unsplice m x p q y = m y := by simp [LinkRing.unsplice, hyx, hyp, hyq]
    rcases hm y with hd | hs | ⟨p₁, q₁, hp₁, hq₁, hp₁y, hq₁y, hp₁n, hq₁p⟩
    · exact .inl (by unfold Detached; rw [hsy]; exact hd)
    · exact .inr (.inl (by unfold SelfLinked; rw [hsy]; exact hs))
    have hp₁x : p₁ ≠ x := fun h => hyq (Option.some.inj ((h ▸ hp₁n).symm.trans hq))
    have hq₁x : q₁ ≠ x := fun h => hyp (Option.some.inj ((h ▸ hq₁p).symm.trans hp))
    have hp₁p : p₁ ≠ p := fun h => hyx (Option.some.inj ((h ▸ hp₁n).symm.trans hpn))
    have hq₁q : q₁ ≠ q := fun h => hyx (Option.some.inj ((h ▸ hq₁p).symm.trans hqp))
    refine .inr (.inr ⟨p₁, q₁, by rw [hsy]; exact hp₁, by rw [hsy]; exact hq₁, hp₁y, hq₁y, ?_, ?_⟩)
    · by_cases hp₁q : p₁ = q
      · subst hp₁q
        simp [LinkRing.unsplice, hp₁x, hp₁p, hp₁n]
      · simp [LinkRing.unsplice, hp₁x, hp₁p, hp₁q, hp₁n]
    · by_cases hq₁p' : q₁ = p
      · subst hq₁p'
        simp [LinkRing.unsplice, hq₁x, hq₁q, hq₁p]
      · simp [LinkRing.unsplice, hq₁x, hq₁p', hq₁q, hq₁p]

/-- A node that is not linked, linked to itself. -/
theorem RingShaped.selfLink (hm : RingShaped m) {x : α} (hx : ¬ Linked m x) : RingShaped (selfLink m x) := by
  intro y
  by_cases hyx : y = x
  · exact .inr (.inl (by simp [SelfLinked, LinkRing.selfLink, hyx]))
  have hsy : LinkRing.selfLink m x y = m y := by simp [LinkRing.selfLink, hyx]
  rcases hm y with hd | hs | hl
  · exact .inl (by unfold Detached; rw [hsy]; exact hd)
  · exact .inr (.inl (by unfold SelfLinked; rw [hsy]; exact hs))
  -- a linked node's neighbours are linked, so neither is x
  obtain ⟨p, q, hp, hq, hpy, hqy, hpn, hqp⟩ := hl
  have hpx : p ≠ x := fun h => hx (h ▸ linked_of_next hm hpn hpy.symm)
  have hqx : q ≠ x := fun h => hx (h ▸ linked_of_prev hm hqp hqy.symm)
  exact .inr (.inr ⟨p, q, by rw [hsy]; exact hp, by rw [hsy]; exact hq, hpy, hqy,
    by simp [LinkRing.selfLink, hpx, hpn], by simp [LinkRing.selfLink, hqx, hqp]⟩)

end Rewrites

end LinkRing
