/-
  Lib/ForwardPass.lean --- one ascending pass of a forward must-analysis.

  A program whose control flow only goes forward (every successor of index i
  is larger than i) can be analysed in one pass over its indices in order.
  The pass keeps, for each index, whether some path reaches it and a fact
  that holds on every path reaching it.  Visiting a reached index checks its
  fact, computes the fact after it (the transfer out) and lets it flow into
  each successor: the first flow sets the successor's fact, every later one
  meets with it.  Since every predecessor of i is smaller than i, i's fact is
  final when the pass reaches i.

  The result of a pass that succeeds is sound: every reached index passed its
  check, and every successor of a reached index is reached with a fact below
  what flows out of it.  Facts are compared by a relation le for which meet is
  a lower bound of its arguments; nothing else is assumed of them.

  Conversely, a property P of facts that a meet only has when one of its
  arguments has it, and that the transfer out of index i only has when its
  input has it and i has a property Q, is traced back to a path (run_traced):
  whenever a reached index's fact has P, some path of successors from the
  start reaches it through indices with Q.  A pass that fails stops at the
  first reached index whose check fails (run_eq_none), so a failure is
  explained by such a path.
-/
import Mathlib.Logic.Function.Basic
import Mathlib.Logic.Relation

set_option autoImplicit false

namespace ForwardPass

/-- The state of a pass: a fact and a reached flag per index. -/
structure Facts (M : Type*) where
  val : Nat → M
  reached : Nat → Bool

variable {M : Type*} (meet : M → M → M)

/-- Let the fact x flow into index j. -/
def flow (x : M) (F : Facts M) (j : Nat) : Facts M :=
  if F.reached j then { F with val := Function.update F.val j (meet (F.val j) x) }
  else { val := Function.update F.val j x, reached := Function.update F.reached j true }

/-- Let the fact x flow into each index of a list, in order. -/
def flows (x : M) (F : Facts M) (js : List Nat) : Facts M :=
  js.foldl (flow meet x) F

variable (check : Nat → M → Bool) (out : Nat → M → M) (succ : Nat → List Nat)

/-- Visit index i: an unreached index is skipped, a reached one is checked
and its outgoing fact flows into its successors. -/
def visit (F : Facts M) (i : Nat) : Option (Facts M) :=
  if F.reached i then
    if check i (F.val i) then some (flows meet (out i (F.val i)) F (succ i)) else none
  else some F

/-- Visit indices 0, 1, ..., n - 1 in order; none as soon as a check fails. -/
def run (start : Facts M) (n : Nat) : Option (Facts M) :=
  (List.range n).foldlM (visit meet check out succ) start

section Flow

variable {meet}

theorem flow_reached (x : M) (F : Facts M) (j u : Nat) :
    (flow meet x F j).reached u = (decide (u = j) || F.reached u) := by
  unfold flow
  by_cases hu : u = j
  · subst hu
    split <;> simp_all
  · split <;> simp [hu]

theorem flow_val_of_ne (x : M) (F : Facts M) {j u : Nat} (hu : u ≠ j) :
    (flow meet x F j).val u = F.val u := by
  unfold flow
  split <;> simp [Function.update_of_ne hu]

theorem flow_val_self (x : M) (F : Facts M) (j : Nat) :
    (flow meet x F j).val j = if F.reached j then meet (F.val j) x else x := by
  unfold flow
  split <;> simp

theorem flows_reached_of (x : M) {u : Nat} :
    ∀ (js : List Nat) (F : Facts M), F.reached u = true → (flows meet x F js).reached u = true
  | [], _, h => h
  | j :: js, F, h => flows_reached_of x js _ (by rw [flow_reached, h, Bool.or_true])

theorem flows_of_not_mem (x : M) {u : Nat} :
    ∀ (js : List Nat) (F : Facts M), u ∉ js →
      (flows meet x F js).val u = F.val u ∧ (flows meet x F js).reached u = F.reached u
  | [], _, _ => ⟨rfl, rfl⟩
  | j :: js, F, h => by
    have hne : u ≠ j := fun e => h (e ▸ List.mem_cons_self)
    obtain ⟨hv, hr⟩ := flows_of_not_mem x js (flow meet x F j) (fun hm => h (List.mem_cons_of_mem j hm))
    refine ⟨hv.trans (flow_val_of_ne x F hne), hr.trans ?_⟩
    simp [flow_reached, hne]

section Order

variable (le : M → M → Prop) (le_refl : ∀ a, le a a) (le_trans : ∀ a b c, le a b → le b c → le a c)
  (meet_le_left : ∀ a b, le (meet a b) a) (meet_le_right : ∀ a b, le (meet a b) b)

include le_refl meet_le_left in
/-- A flow only lowers the fact of an index that was already reached. -/
theorem flow_val_le (x : M) (F : Facts M) (j : Nat) {u : Nat} (hu : F.reached u = true) :
    le ((flow meet x F j).val u) (F.val u) := by
  by_cases hj : u = j
  · subst hj
    simp [flow, hu, meet_le_left]
  · rw [flow_val_of_ne x F hj]
    exact le_refl _

include le_refl meet_le_right in
/-- The index a fact flows into ends below that fact. -/
theorem flow_val_self_le (x : M) (F : Facts M) (j : Nat) : le ((flow meet x F j).val j) x := by
  unfold flow
  split
  · simp [meet_le_right]
  · simp [le_refl]

include le_refl le_trans meet_le_left in
theorem flows_val_le (x : M) {u : Nat} :
    ∀ (js : List Nat) (F : Facts M), F.reached u = true → le ((flows meet x F js).val u) (F.val u)
  | [], _, _ => le_refl _
  | j :: js, F, h => by
    have h' : (flow meet x F j).reached u = true := by rw [flow_reached, h, Bool.or_true]
    exact le_trans _ _ _ (flows_val_le x js _ h') (flow_val_le le le_refl meet_le_left x F j h)

include le_refl le_trans meet_le_left meet_le_right in
/-- Every index a fact flows into is reached, with a fact below it. -/
theorem flows_target (x : M) {u : Nat} :
    ∀ (js : List Nat) (F : Facts M), u ∈ js →
      (flows meet x F js).reached u = true ∧ le ((flows meet x F js).val u) x
  | [], _, h => absurd h List.not_mem_nil
  | j :: js, F, h => by
    by_cases hu : u = j
    · subst hu
      have hr : (flow meet x F u).reached u = true := by simp [flow_reached]
      exact ⟨flows_reached_of x js _ hr,
        le_trans _ _ _ (flows_val_le le le_refl le_trans meet_le_left x js _ hr)
          (flow_val_self_le le le_refl meet_le_right x F u)⟩
    · exact flows_target x js _ ((List.mem_cons.mp h).resolve_left hu)

end Order

end Flow

section Visit

variable {meet check out succ}

/-- A visit changes only the successors of the visited index. -/
theorem visit_of_not_mem {F G : Facts M} {i u : Nat} (h : visit meet check out succ F i = some G)
    (hu : u ∉ succ i) : G.val u = F.val u ∧ G.reached u = F.reached u := by
  unfold visit at h
  split at h
  · split at h
    · cases h
      exact flows_of_not_mem _ _ _ hu
    · cases h
  · cases h
    exact ⟨rfl, rfl⟩

theorem visit_reached_of {F G : Facts M} {i u : Nat} (h : visit meet check out succ F i = some G)
    (hu : F.reached u = true) : G.reached u = true := by
  unfold visit at h
  split at h
  · split at h
    · cases h
      exact flows_reached_of _ _ _ hu
    · cases h
  · cases h
    exact hu

/-- The check of a reached index passed, if its visit succeeded. -/
theorem visit_check {F G : Facts M} {i : Nat} (h : visit meet check out succ F i = some G)
    (hi : F.reached i = true) : check i (F.val i) = true := by
  unfold visit at h
  rw [if_pos hi] at h
  split at h
  · assumption
  · cases h

section Order

variable (le : M → M → Prop) (le_refl : ∀ a, le a a) (le_trans : ∀ a b c, le a b → le b c → le a c)
  (meet_le_left : ∀ a b, le (meet a b) a) (meet_le_right : ∀ a b, le (meet a b) b)

include le_refl le_trans meet_le_left in
theorem visit_val_le {F G : Facts M} {i u : Nat} (h : visit meet check out succ F i = some G)
    (hu : F.reached u = true) : le (G.val u) (F.val u) := by
  unfold visit at h
  split at h
  · split at h
    · cases h
      exact flows_val_le le le_refl le_trans meet_le_left _ _ _ hu
    · cases h
  · cases h
    exact le_refl _

include le_refl le_trans meet_le_left meet_le_right in
/-- After visiting a reached index, each of its successors is reached with a
fact below the index's outgoing fact. -/
theorem visit_succ {F G : Facts M} {i j : Nat} (h : visit meet check out succ F i = some G)
    (hi : F.reached i = true) (hj : j ∈ succ i) :
    G.reached j = true ∧ le (G.val j) (out i (F.val i)) := by
  unfold visit at h
  rw [if_pos hi] at h
  split at h
  · cases h
    exact flows_target le le_refl le_trans meet_le_left meet_le_right _ _ _ hj
  · cases h

end Order

end Visit

section Run

variable {meet check out succ}

theorem run_zero (start : Facts M) : run meet check out succ start 0 = some start := rfl

theorem run_succ_eq (start : Facts M) (n : Nat) :
    run meet check out succ start (n + 1) = (run meet check out succ start n).bind (visit meet check out succ · n) := by
  simp [run, List.range_succ, List.foldlM_append]

/-- A visit fails exactly at a reached index whose check fails. -/
theorem visit_eq_none {F : Facts M} {i : Nat} :
    visit meet check out succ F i = none ↔ F.reached i = true ∧ check i (F.val i) = false := by
  unfold visit
  by_cases hr : F.reached i = true
  · by_cases hc : check i (F.val i) = true <;> simp [hr, hc]
  · simp [hr]

/-- A pass that fails stops at the first reached index whose check fails: the
indices before it were visited. -/
theorem run_eq_none {start : Facts M} {n : Nat} (h : run meet check out succ start n = none) :
    ∃ q < n, ∃ G, run meet check out succ start q = some G ∧ G.reached q = true ∧ check q (G.val q) = false := by
  induction n with
  | zero => cases h
  | succ n ih =>
    rw [run_succ_eq] at h
    cases hG : run meet check out succ start n with
    | none =>
      obtain ⟨q, hq, G, hrun, hfail⟩ := ih hG
      exact ⟨q, by omega, G, hrun, hfail⟩
    | some G =>
      rw [hG, Option.bind_some] at h
      exact ⟨n, by omega, G, hG, visit_eq_none.mp h⟩

/-- The last visit of a pass over n + 1 indices. -/
theorem run_succ {start F : Facts M} {n : Nat} :
    run meet check out succ start (n + 1) = some F ↔
      ∃ G, run meet check out succ start n = some G ∧ visit meet check out succ G n = some F := by
  simp only [run, List.range_succ, List.foldlM_append, List.foldlM_cons, List.foldlM_nil,
    Option.bind_eq_bind, Option.bind_eq_some_iff, Option.pure_def, Option.some.injEq]
  constructor
  · rintro ⟨G, hG, G', hG', rfl⟩
    exact ⟨G, hG, hG'⟩
  · rintro ⟨G, hG, hG'⟩
    exact ⟨G, hG, F, hG', rfl⟩
variable (le : M → M → Prop) (le_refl : ∀ a, le a a) (le_trans : ∀ a b c, le a b → le b c → le a c)
  (meet_le_left : ∀ a b, le (meet a b) a) (meet_le_right : ∀ a b, le (meet a b) b)
  (forward : ∀ i, ∀ j ∈ succ i, i < j)

/-- What the first k visits establish: every reached index below k passed its
check and its successors are reached with facts below its outgoing one. -/
def Sound (check : Nat → M → Bool) (out : Nat → M → M) (succ : Nat → List Nat) (le : M → M → Prop)
    (F : Facts M) (k : Nat) : Prop :=
  ∀ i < k, F.reached i = true →
    check i (F.val i) = true ∧ ∀ j ∈ succ i, F.reached j = true ∧ le (F.val j) (out i (F.val i))

include le_refl le_trans meet_le_left meet_le_right forward in
/-- Visiting index k extends soundness from the indices below k to k: the
earlier indices keep their facts, since k's successors lie above k. -/
theorem Sound.visit {F G : Facts M} {k : Nat} (hF : Sound check out succ le F k)
    (h : visit meet check out succ F k = some G) : Sound check out succ le G (k + 1) := by
  intro i hi hreach
  have hik : i ∉ succ k := fun hm => by have := forward k i hm; omega
  obtain ⟨hval, hreach'⟩ := visit_of_not_mem h hik
  rw [hreach'] at hreach
  rcases Nat.lt_succ_iff_lt_or_eq.mp hi with hlt | rfl
  · -- an earlier index: its successors are only reached more and lowered further
    obtain ⟨hcheck, hsucc⟩ := hF i hlt hreach
    refine ⟨hval ▸ hcheck, fun j hj => ?_⟩
    obtain ⟨hrj, hle⟩ := hsucc j hj
    exact ⟨visit_reached_of h hrj,
      hval ▸ le_trans _ _ _ (visit_val_le le le_refl le_trans meet_le_left h hrj) hle⟩
  · -- the visited index itself
    refine ⟨hval ▸ visit_check h hreach, fun j hj => ?_⟩
    rw [hval]
    exact visit_succ le le_refl le_trans meet_le_left meet_le_right h hreach hj

include le_refl le_trans meet_le_left meet_le_right forward in
/-- A pass that succeeds is sound for every index it visited, and keeps every
index the start had reached. -/
theorem run_sound {start F : Facts M} {n : Nat} (h : run meet check out succ start n = some F) :
    (∀ u, start.reached u = true → F.reached u = true) ∧ Sound check out succ le F n := by
  induction n generalizing F with
  | zero =>
    rw [run_zero, Option.some.injEq] at h
    subst h
    exact ⟨fun _ hu => hu, fun i hi => absurd hi (Nat.not_lt_zero i)⟩
  | succ n ih =>
    obtain ⟨G, hG, hG'⟩ := run_succ.mp h
    obtain ⟨hstart, hsound⟩ := ih hG
    exact ⟨fun u hu => visit_reached_of hG' (hstart u hu),
      hsound.visit le le_refl le_trans meet_le_left meet_le_right forward hG'⟩

/-- An index that is no successor of a visited index keeps its start fact. -/
theorem run_of_not_succ {start F : Facts M} {n u : Nat} (h : run meet check out succ start n = some F)
    (hu : ∀ i < n, u ∉ succ i) : F.val u = start.val u ∧ F.reached u = start.reached u := by
  induction n generalizing F with
  | zero =>
    rw [run_zero, Option.some.injEq] at h
    subst h
    exact ⟨rfl, rfl⟩
  | succ n ih =>
    obtain ⟨G, hG, hG'⟩ := run_succ.mp h
    obtain ⟨hv, hr⟩ := ih hG fun i hi => hu i (by omega)
    obtain ⟨hv', hr'⟩ := visit_of_not_mem hG' (hu n (by omega))
    exact ⟨hv'.trans hv, hr'.trans hr⟩

end Run

/-! ## Tracing a fact back to a path -/

section Trace

/-- Every reached index whose fact has P is reached from s by a path of
successors through indices with Q. -/
def Traced (succ : Nat → List Nat) (P : M → Prop) (Q : Nat → Prop) (s : Nat) (F : Facts M) : Prop :=
  ∀ j, F.reached j = true → P (F.val j) → Relation.ReflTransGen (fun i j => Q i ∧ j ∈ succ i) s j

variable {meet check out succ} {P : M → Prop} {Q : Nat → Prop} {s : Nat}
  (hmeet : ∀ a c, P (meet a c) → P a ∨ P c) (hout : ∀ i x, P (out i x) → P x ∧ Q i)

include hmeet in
/-- A flow of x into j keeps the invariant if a fact x with P explains j. -/
theorem Traced.flow {F : Facts M} {x : M} {j : Nat} (hF : Traced succ P Q s F)
    (hx : P x → Relation.ReflTransGen (fun i j => Q i ∧ j ∈ succ i) s j) : Traced succ P Q s (flow meet x F j) := by
  intro u hu hP
  by_cases huj : u = j
  · subst huj
    rw [flow_val_self] at hP
    by_cases hr : F.reached u = true
    · -- the meet has P through the old fact or through x
      rw [if_pos hr] at hP
      rcases hmeet _ _ hP with hold | hnew
      · exact hF u hr hold
      · exact hx hnew
    · rw [if_neg hr] at hP
      exact hx hP
  · rw [flow_val_of_ne x F huj] at hP
    rw [flow_reached, decide_eq_false huj, Bool.false_or] at hu
    exact hF u hu hP

include hmeet in
theorem Traced.flows {x : M} :
    ∀ (js : List Nat) {F : Facts M}, Traced succ P Q s F →
      (∀ j ∈ js, P x → Relation.ReflTransGen (fun i j => Q i ∧ j ∈ succ i) s j) → Traced succ P Q s (flows meet x F js)
  | [], _, hF, _ => hF
  | j :: js, _, hF, hx =>
    Traced.flows js (hF.flow hmeet (hx j List.mem_cons_self)) fun j' hj' => hx j' (List.mem_cons_of_mem j hj')

include hmeet hout in
/-- A visit keeps the invariant: what flows out of a reached index i has P
only if i's fact has P, which a path to i explains, and i has Q. -/
theorem Traced.visit {F G : Facts M} {i : Nat} (hF : Traced succ P Q s F)
    (h : visit meet check out succ F i = some G) : Traced succ P Q s G := by
  unfold ForwardPass.visit at h
  split at h
  · rename_i hr
    split at h
    · cases h
      refine hF.flows hmeet _ fun j hj hP => ?_
      obtain ⟨hPi, hQi⟩ := hout i _ hP
      exact (hF i hr hPi).tail ⟨hQi, hj⟩
    · cases h
  · cases h
    exact hF

include hmeet hout in
theorem run_traced {start F : Facts M} {n : Nat} (hstart : Traced succ P Q s start)
    (h : run meet check out succ start n = some F) : Traced succ P Q s F := by
  induction n generalizing F with
  | zero =>
    rw [run_zero, Option.some.injEq] at h
    exact h ▸ hstart
  | succ n ih =>
    obtain ⟨G, hG, hG'⟩ := run_succ.mp h
    exact (ih hG).visit hmeet hout hG'

end Trace

end ForwardPass
