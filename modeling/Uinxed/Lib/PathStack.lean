/-
  Lib/PathStack.lean --- the component-stack semantics of path names.

  A path is split at its separators; its empty components and "." change
  nothing, ".." drops the newest component (and nothing at the root), and
  every other component is pushed.  The stack, newest last, is written back
  as the separator before each component, or the separator alone for the
  root.  The components are taken from List.splitOn; a scanner that skips
  separators and then takes the run up to the next one meets exactly the
  non-empty components (tokens_eq_cons, tokens_eq_nil), which is how the
  loops of a C implementation are tied to the semantics.

  Everything is over a type of characters with a separator sep and a dot.
-/
import Mathlib.Algebra.GroupWithZero.Nat
import Mathlib.Data.List.Basic

set_option autoImplicit false

namespace PathStack

variable {α : Type}

/-! ## The semantics -/

/-- The non-empty components of a path. -/
def tokens [DecidableEq α] (sep : α) (s : List α) : List (List α) := (s.splitOn sep).filter fun c => !c.isEmpty

/-- One component on a stack, newest last: "" and "." change nothing, ".."
drops the newest component, anything else is pushed. -/
def push [DecidableEq α] (dot : α) (st : List (List α)) (c : List α) : List (List α) :=
  if c = [] ∨ c = [dot] then st else if c = [dot, dot] then st.dropLast else st ++ [c]

/-- Walk a path from a stack: push its components in order. -/
def walk [DecidableEq α] (sep dot : α) (st : List (List α)) (s : List α) : List (List α) := (s.splitOn sep).foldl (push dot) st

/-- Resolve a path against a base: from the root if the path starts with the
separator, from the components of the base otherwise. -/
def resolve [DecidableEq α] (sep dot : α) (base path : List α) : List (List α) :=
  walk sep dot (walk sep dot [] (if path.head? = some sep then [] else base)) path

/-- The absolute path of a stack: the separator before each component, or the
separator alone. -/
def render (sep : α) (st : List (List α)) : List α := if st = [] then [sep] else st.flatMap (sep :: ·)

/-- A component that is pushed as it is: non-empty, without a separator, and
neither "." nor "..". -/
def Plain (sep dot : α) (c : List α) : Prop := c ≠ [] ∧ sep ∉ c ∧ c ≠ [dot] ∧ c ≠ [dot, dot]

/-- A stack that is the component list of a canonical path. -/
def Canonical (sep dot : α) (st : List (List α)) : Prop := ∀ c ∈ st, Plain sep dot c

/-- The room a list of components takes written out: a separator and the
component for each. -/
def weight (cs : List (List α)) : Nat := (cs.map (·.length + 1)).sum

variable (sep dot : α)

/-! ## Weights and renderings -/

@[simp] theorem weight_nil : weight ([] : List (List α)) = 0 := rfl

@[simp] theorem weight_cons (c : List α) (cs : List (List α)) :
    weight (c :: cs) = c.length + 1 + weight cs := by
  simp [weight]

@[simp] theorem weight_append (cs ds : List (List α)) : weight (cs ++ ds) = weight cs + weight ds := by
  simp [weight]

theorem weight_filter_le (p : List α → Bool) (cs : List (List α)) : weight (cs.filter p) ≤ weight cs := by
  induction cs with
  | nil => simp
  | cons c cs ih =>
    rw [List.filter_cons]
    split <;> simp only [weight_cons] <;> omega

theorem weight_dropLast_le (st : List (List α)) : weight st.dropLast ≤ weight st := by
  rcases List.eq_nil_or_concat st with rfl | ⟨L, b, rfl⟩
  · exact Nat.le_refl _
  · simp

@[simp] theorem render_nil : render sep ([] : List (List α)) = [sep] := rfl

theorem render_of_ne_nil {st : List (List α)} (h : st ≠ []) : render sep st = st.flatMap (sep :: ·) := by
  simp [render, h]

/-- The newest component is written last, after a separator. -/
theorem render_concat (st : List (List α)) (c : List α) :
    render sep (st ++ [c]) = st.flatMap (sep :: ·) ++ sep :: c := by
  simp [render]

theorem length_flatMap (st : List (List α)) : (st.flatMap (sep :: ·)).length = weight st := by
  induction st with
  | nil => rfl
  | cons c st ih => simp [ih]; omega

theorem length_render (st : List (List α)) : (render sep st).length = max 1 (weight st) := by
  by_cases h : st = []
  · subst h
    rfl
  · obtain ⟨c, cs, rfl⟩ := List.exists_cons_of_ne_nil h
    rw [render_of_ne_nil sep h, length_flatMap]
    simp only [weight_cons]
    omega

theorem head_render (st : List (List α)) : (render sep st).head? = some sep := by
  cases st with
  | nil => rfl
  | cons c st => simp [render]

theorem canonical_append {st : List (List α)} (h : Canonical sep dot st) {c : List α} (hc : Plain sep dot c) :
    Canonical sep dot (st ++ [c]) := by
  intro d hd
  rcases List.mem_append.mp hd with hd | hd
  · exact h d hd
  · rw [List.mem_singleton.mp hd]
    exact hc

/-- What dropWhile stops at fails the test. -/
theorem head_of_dropWhile_eq_cons {p : α → Bool} {l u : List α} {b : α} (h : l.dropWhile p = b :: u) :
    p b = false := by
  induction l with
  | nil => simp at h
  | cons x l ih =>
    by_cases hx : p x
    · rw [List.dropWhile_cons_of_pos hx] at h
      exact ih h
    · rw [List.dropWhile_cons_of_neg hx, List.cons.injEq] at h
      obtain ⟨rfl, -⟩ := h
      simpa using hx

variable [DecidableEq α]

/-! ## Components -/

/-- Walking a path pushes its non-empty components only. -/
theorem walk_eq_tokens (st : List (List α)) (s : List α) :
    walk sep dot st s = (tokens sep s).foldl (push dot) st := by
  rw [walk, tokens, List.foldl_filter]
  congr 1
  funext st' c
  cases c with
  | nil => simp [push]
  | cons a as => simp

@[simp] theorem tokens_nil : tokens sep ([] : List α) = [] := rfl

theorem tokens_sep_cons (s : List α) : tokens sep (sep :: s) = tokens sep s := by
  have h := List.splitOn_append_cons_self (a := sep) [] s
  rw [List.nil_append, List.splitOn_nil, List.singleton_append] at h
  simp [tokens, h]

/-- Separators in front change no component. -/
theorem tokens_dropWhile (s : List α) : tokens sep (s.dropWhile (· = sep)) = tokens sep s := by
  induction s with
  | nil => rfl
  | cons a s ih =>
    by_cases ha : a = sep
    · subst ha
      rw [tokens_sep_cons, ← ih]
      simp
    · simp [ha]

/-- A run without separators followed by the rest: the run is a component. -/
theorem tokens_append_sep {c : List α} (hc : sep ∉ c) (hne : c ≠ []) (s : List α) :
    tokens sep (c ++ sep :: s) = c :: tokens sep s := by
  rw [tokens, List.splitOn_append_cons_self_of_not_mem hc]
  simp [tokens, hne]

theorem tokens_of_not_mem {c : List α} (hc : sep ∉ c) (hne : c ≠ []) : tokens sep c = [c] := by
  rw [tokens, List.splitOn_eq_singleton hc]
  simp [hne]

/-- The scanner of a C loop: past the separators, no component is left at
the end of the path. -/
theorem tokens_eq_nil {s : List α} (h : s.dropWhile (· = sep) = []) : tokens sep s = [] := by
  rw [← tokens_dropWhile, h]
  rfl

/-- The scanner of a C loop: past the separators, the run up to the next
separator is the first component, and the components after it are those of
the rest. -/
theorem tokens_eq_cons {s : List α} (h : s.dropWhile (· = sep) ≠ []) :
    tokens sep s = ((s.dropWhile (· = sep)).takeWhile (· ≠ sep)) ::
      tokens sep ((s.dropWhile (· = sep)).dropWhile (· ≠ sep)) := by
  rw [← tokens_dropWhile sep s]
  generalize hs' : s.dropWhile (· = sep) = s' at h
  obtain ⟨a, t, rfl⟩ := List.exists_cons_of_ne_nil h
  have ha : a ≠ sep := by simpa using head_of_dropWhile_eq_cons hs'
  have hc : sep ∉ (a :: t).takeWhile (· ≠ sep) := fun hm => by
    simpa using List.all_eq_true.mp (List.all_takeWhile (p := fun x => decide (x ≠ sep))) sep hm
  have hne : (a :: t).takeWhile (· ≠ sep) ≠ [] := by simp [ha]
  conv_lhs => rw [← List.takeWhile_append_dropWhile (p := fun x => decide (x ≠ sep)) (l := a :: t)]
  -- the run stops at the end of the path or at a separator
  cases hrest : (a :: t).dropWhile (· ≠ sep) with
  | nil => rw [List.append_nil, tokens_of_not_mem sep hc hne, tokens_eq_nil sep rfl]
  | cons b u =>
    have hb : b = sep := by simpa using head_of_dropWhile_eq_cons hrest
    subst hb
    rw [tokens_append_sep b hc hne, tokens_sep_cons]

/-- The scanner makes progress: what is left after a component is shorter
than the path. -/
theorem length_rest_lt {s : List α} (h : s.dropWhile (· = sep) ≠ []) :
    ((s.dropWhile (· = sep)).dropWhile (· ≠ sep)).length < s.length := by
  obtain ⟨a, t, hat⟩ := List.exists_cons_of_ne_nil h
  have ha : a ≠ sep := by simpa using head_of_dropWhile_eq_cons hat
  have h1 : (s.dropWhile (· = sep)).length ≤ s.length := (List.dropWhile_sublist _).length_le
  have h2 : (t.dropWhile (· ≠ sep)).length ≤ t.length := (List.dropWhile_sublist _).length_le
  rw [hat, List.dropWhile_cons_of_pos (by simpa using ha)]
  rw [hat, List.length_cons] at h1
  omega

/-- What is left after a component starts at a separator, if anything is
left: stepping over it changes no component. -/
theorem tokens_drop_one_dropWhile (s : List α) :
    tokens sep ((s.dropWhile (· ≠ sep)).drop 1) = tokens sep (s.dropWhile (· ≠ sep)) := by
  cases hr : s.dropWhile (· ≠ sep) with
  | nil => rfl
  | cons b u =>
    have hb : b = sep := by simpa using head_of_dropWhile_eq_cons hr
    rw [hb, List.drop_one, List.tail_cons, tokens_sep_cons]

/-- A component of a split is made of characters of the path other than the
separator. -/
theorem mem_of_mem_splitOn : ∀ (s : List α), ∀ c ∈ s.splitOn sep, ∀ x ∈ c, x ∈ s ∧ x ≠ sep := by
  intro s
  induction s with
  | nil => simp
  | cons y s ih =>
    rw [List.splitOn_cons_eq_if_modifyHead]
    split
    case isTrue =>
      simp only [List.mem_cons, forall_eq_or_imp, List.not_mem_nil, false_imp_iff, implies_true, true_and]
      intro c hc x hx
      exact ⟨Or.inr (ih c hc x hx).1, (ih c hc x hx).2⟩
    case isFalse hy =>
      -- y joins the first component of the rest
      obtain ⟨d, ds, hds⟩ := List.exists_cons_of_ne_nil (List.splitOn_ne_nil sep s)
      rw [hds] at ih ⊢
      simp only [List.modifyHead_cons, List.mem_cons, forall_eq_or_imp] at ih ⊢
      refine ⟨⟨⟨Or.inl trivial, by simpa using hy⟩, fun x hx => ⟨Or.inr (ih.1 x hx).1, (ih.1 x hx).2⟩⟩,
        fun c hc x hx => ⟨Or.inr (ih.2 c hc x hx).1, (ih.2 c hc x hx).2⟩⟩

theorem not_mem_of_mem_splitOn {s c : List α} (hc : c ∈ s.splitOn sep) : sep ∉ c :=
  fun hm => (mem_of_mem_splitOn sep s c hc sep hm).2 rfl

theorem plain_of_mem_tokens {s c : List α} (h : c ∈ tokens sep s) : c ≠ [] ∧ sep ∉ c := by
  simp only [tokens, List.mem_filter, Bool.not_eq_true', List.isEmpty_eq_false_iff] at h
  exact ⟨h.2, not_mem_of_mem_splitOn sep h.1⟩

/-- A split, written back with its separators, is the path and one more. -/
theorem weight_splitOn (s : List α) : weight (s.splitOn sep) = s.length + 1 := by
  induction s with
  | nil => simp
  | cons x s ih =>
    rw [List.splitOn_cons_eq_if_modifyHead]
    split
    · simp only [weight_cons, List.length_nil, ih, List.length_cons]
      omega
    · obtain ⟨d, ds, hds⟩ := List.exists_cons_of_ne_nil (List.splitOn_ne_nil sep s)
      rw [hds] at ih ⊢
      simp only [List.modifyHead_cons, weight_cons, List.length_cons] at ih ⊢
      omega

theorem weight_tokens_le (s : List α) : weight (tokens sep s) ≤ s.length + 1 :=
  weight_splitOn sep s ▸ weight_filter_le _ _

/-- One component adds at most its own room. -/
theorem weight_push_le (st : List (List α)) (c : List α) : weight (push dot st c) ≤ weight st + (c.length + 1) := by
  unfold push
  split_ifs
  · omega
  · have := weight_dropLast_le st
    omega
  · simp

/-! ## Reading a rendering back -/

/-- A component followed by the rendering of more components. -/
theorem tokens_append_flatMap {c : List α} (hc : sep ∉ c) (hne : c ≠ []) (st : List (List α)) :
    tokens sep (c ++ st.flatMap (sep :: ·)) = c :: tokens sep (st.flatMap (sep :: ·)) := by
  cases st with
  | nil => rw [List.flatMap_nil, List.append_nil, tokens_of_not_mem sep hc hne, tokens_nil]
  | cons d ds => rw [List.flatMap_cons, List.cons_append, tokens_append_sep sep hc hne, tokens_sep_cons]

theorem tokens_flatMap {st : List (List α)} (h : Canonical sep dot st) : tokens sep (st.flatMap (sep :: ·)) = st := by
  induction st with
  | nil => rfl
  | cons c st ih =>
    have hc : Plain sep dot c := h c List.mem_cons_self
    have ht : Canonical sep dot st := fun d hd => h d (List.mem_cons_of_mem c hd)
    rw [List.flatMap_cons, List.cons_append, tokens_sep_cons, tokens_append_flatMap sep hc.2.1 hc.1, ih ht]

/-- The components of a canonical stack are read back from its rendering. -/
theorem tokens_render {st : List (List α)} (h : Canonical sep dot st) : tokens sep (render sep st) = st := by
  by_cases hst : st = []
  · subst hst
    exact tokens_sep_cons sep []
  · rw [render_of_ne_nil sep hst, tokens_flatMap sep dot h]

/-! ## The stack -/

/-- A component without a separator keeps a stack canonical. -/
theorem canonical_push {st : List (List α)} (h : Canonical sep dot st) {c : List α} (hc : sep ∉ c) :
    Canonical sep dot (push dot st c) := by
  unfold push
  split_ifs with h1 h2
  · exact h
  · exact fun d hd => h d (List.dropLast_subset st hd)
  · exact canonical_append sep dot h ⟨fun hn => h1 (Or.inl hn), hc, fun hn => h1 (Or.inr hn), h2⟩

theorem canonical_foldl {st : List (List α)} (h : Canonical sep dot st) :
    ∀ {cs : List (List α)}, (∀ c ∈ cs, sep ∉ c) → Canonical sep dot (cs.foldl (push dot) st) := by
  intro cs hcs
  induction cs generalizing st with
  | nil => exact h
  | cons c cs ih =>
    exact ih (canonical_push sep dot h (hcs c List.mem_cons_self)) fun d hd => hcs d (List.mem_cons_of_mem c hd)

theorem canonical_walk {st : List (List α)} (h : Canonical sep dot st) (s : List α) :
    Canonical sep dot (walk sep dot st s) :=
  canonical_foldl sep dot h fun _ hc => not_mem_of_mem_splitOn sep hc

theorem canonical_resolve (base path : List α) : Canonical sep dot (resolve sep dot base path) :=
  canonical_walk sep dot (canonical_walk sep dot (fun _ h => absurd h List.not_mem_nil) _) path

/-- Resolving pushes the components of the starting input and then those of
the path, from the root. -/
theorem resolve_eq_foldl (base path : List α) :
    resolve sep dot base path =
      ([if path.head? = some sep then [] else base, path].flatMap (tokens sep)).foldl (push dot) [] := by
  rw [resolve, walk_eq_tokens, walk_eq_tokens]
  simp [List.foldl_append]

/-! ## Where the characters come from -/

theorem mem_push {st : List (List α)} {c d : List α} (h : d ∈ push dot st c) : d ∈ st ∨ d = c := by
  unfold push at h
  split_ifs at h
  · exact Or.inl h
  · exact Or.inl (List.dropLast_subset st h)
  · simpa using h

theorem mem_foldl_push {st : List (List α)} :
    ∀ {cs : List (List α)} {d : List α}, d ∈ cs.foldl (push dot) st → d ∈ st ∨ d ∈ cs := by
  intro cs
  induction cs generalizing st with
  | nil => exact fun h => Or.inl h
  | cons c cs ih =>
    intro d h
    rcases ih h with h | h
    · rcases mem_push dot h with h | rfl
      · exact Or.inl h
      · exact Or.inr List.mem_cons_self
    · exact Or.inr (List.mem_cons_of_mem c h)

/-- Every character of a resolved component is a character of the base or of
the path. -/
theorem mem_resolve {base path c : List α} {x : α} (hc : c ∈ resolve sep dot base path) (hx : x ∈ c) :
    x ∈ base ∨ x ∈ path := by
  rcases mem_foldl_push dot hc with hc | hc
  · rcases mem_foldl_push dot hc with hc | hc
    · cases hc
    · have := (mem_of_mem_splitOn sep _ c hc x hx).1
      split_ifs at this
      · cases this
      · exact Or.inl this
  · exact Or.inr (mem_of_mem_splitOn sep path c hc x hx).1

omit [DecidableEq α] in
theorem mem_render {st : List (List α)} {x : α} (h : x ∈ render sep st) : x = sep ∨ ∃ c ∈ st, x ∈ c := by
  unfold render at h
  split_ifs at h
  · exact Or.inl (List.mem_singleton.mp h)
  · obtain ⟨c, hc, hx⟩ := List.mem_flatMap.mp h
    rcases List.mem_cons.mp hx with rfl | hx
    · exact Or.inl rfl
    · exact Or.inr ⟨c, hc, hx⟩

end PathStack
