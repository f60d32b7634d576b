/-
  Fs/ResolvePath.lean --- vfs_resolve_path (src/fs/core/vfs.c), the
  canonicaliser of the VFS, against the component-stack semantics of
  Lib/PathStack.lean.

  The caller's buffer resolved is a byte map with the cursor out and a log of
  every write made to it.  The C loop scans each of its two inputs (base,
  unless path is absolute, then path) for components and handles one at a
  time (resolveComponent); resolveLoop_eq_foldlM shows that the scan meets
  exactly the non-empty components of the input, so every later proof is over
  a fold of resolveComponent along PathStack.tokens.

  What the buffer holds is Holds b s: the cursor stands at the end of s, the
  bytes before it are s and a NUL follows.  From a buffer holding the
  rendering of a canonical stack, "" and "." leave it, ".." leaves the
  rendering of the stack without its newest component (the scan back stops
  after the separator in front of it), and any other component is appended,
  unless the rendering with it would not fit in size bytes.

  Null pointers are not modelled (the inputs are C strings), and size_t
  arithmetic is Nat: out + len + 1 cannot wrap for strings that fit in memory.
-/
import Uinxed.Lib.PathStack

set_option autoImplicit false

namespace Uinxed.Vfs

open PathStack

/-! ## Constants -/

def eok : Int := 0
def enoent : Int := 2
def einval : Int := 22
def enametoolong : Int := 36

/-- A C string: the characters before its terminating NUL. -/
def CString : Type := {s : List Char // '\x00' ∉ s}

/-! ## The buffer -/

/-- The caller's buffer resolved with the cursor out: its bytes, and every
write made to it, in order. -/
structure ResolveBuf where
  out : Nat
  bytes : Nat → Char
  writes : List (Nat × Char)

/-- resolved[i] = c. -/
def ResolveBuf.write (b : ResolveBuf) (i : Nat) (c : Char) : ResolveBuf :=
  { b with bytes := Function.update b.bytes i c, writes := b.writes ++ [(i, c)] }

/-- memcpy(resolved + i, cs, cs.length). -/
def ResolveBuf.copy (b : ResolveBuf) (i : Nat) : List Char → ResolveBuf
  | [] => b
  | c :: cs => (b.write i c).copy (i + 1) cs

/-- The first n bytes. -/
def prefixOf (bytes : Nat → Char) (n : Nat) : List Char := (List.range n).map bytes

/-- The buffer holds the C string s: the cursor is at its end, the bytes
before it are s, and a NUL follows. -/
def Holds (b : ResolveBuf) (s : List Char) : Prop :=
  b.out = s.length ∧ prefixOf b.bytes s.length = s ∧ b.bytes s.length = '\x00'

instance (b : ResolveBuf) (s : List Char) : Decidable (Holds b s) :=
  inferInstanceAs (Decidable (_ ∧ _ ∧ _))

/-- Every write lies before resolved[size - 1], or is a NUL inside the
buffer. -/
def WritesIn (size : Nat) (ws : List (Nat × Char)) : Prop :=
  ∀ w ∈ ws, w.1 < size - 1 ∨ (w.2 = '\x00' ∧ w.1 < size)

/-! ## vfs_resolve_path -/

/-- while (out > 1 && resolved[out - 1] != '/') out--; -/
def scanBack (bytes : Nat → Char) : Nat → Nat
  | 0 => 0
  | 1 => 1
  | n + 2 => if bytes (n + 1) ≠ '/' then scanBack bytes (n + 1) else n + 2

/-- A ".." component: back to the separator in front of the last component,
and past it unless it is the root. -/
def resolveDotDot (b : ResolveBuf) : ResolveBuf :=
  if b.out > 1 then
    let out := scanBack b.bytes b.out
    let out := if out > 1 then out - 1 else out
    { b with out := out }.write out '\x00'
  else b

/-- if (out > 1) resolved[out++] = '/'; -/
def resolveSep (b : ResolveBuf) : ResolveBuf :=
  if b.out > 1 then { b.write b.out '/' with out := b.out + 1 } else b

/-- Any other component: the length check, then a separator unless at the
root, the component and a NUL. -/
def resolveAppend (size : Nat) (b : ResolveBuf) (comp : List Char) : Option ResolveBuf :=
  if b.out + comp.length + (if b.out > 1 then 1 else 0) ≥ size then none
  else
    let b := resolveSep b
    let b := { b.copy b.out comp with out := b.out + comp.length }
    some (b.write b.out '\x00')

/-- The body of the scanning loop for one component; none is the return of
-ENAMETOOLONG. -/
def resolveComponent (size : Nat) (b : ResolveBuf) (comp : List Char) : Option ResolveBuf :=
  if comp = [] ∨ comp = ['.'] then some b
  else if comp = ['.', '.'] then some (resolveDotDot b)
  else resolveAppend size b comp

/-- One component as the loop takes it: an error stops the loop with the
buffer as it was left. -/
def resolveStep (size : Nat) (b : ResolveBuf) (comp : List Char) : Except ResolveBuf ResolveBuf :=
  match resolveComponent size b comp with
  | none => .error b
  | some b' => .ok b'

/-- while (*cur) { ... } over one input, with fuel for the iterations. -/
def resolveLoop (size : Nat) : Nat → List Char → ResolveBuf → Except ResolveBuf ResolveBuf
  | 0, _, b => .ok b
  | fuel + 1, cur, b =>
    if cur = [] then .ok b
    else
      -- skip the separators, then take the component up to the next one
      let cur := cur.dropWhile (· = '/')
      (resolveStep size b (cur.takeWhile (· ≠ '/'))).bind (resolveLoop size fuel (cur.dropWhile (· ≠ '/')))

/-- for (part = 0; part < 2; part++): the inputs in turn. -/
def resolveParts (size : Nat) : List (List Char) → ResolveBuf → Except ResolveBuf ResolveBuf
  | [], b => .ok b
  | cur :: parts, b => (resolveLoop size (cur.length + 1) cur b).bind (resolveParts size parts)

/-- return -ENAMETOOLONG from inside the loop, or EOK after it. -/
def resolveReturn : Except ResolveBuf ResolveBuf → Int × ResolveBuf
  | .error b => (-enametoolong, b)
  | .ok b => (eok, b)

/-- vfs_resolve_path(base, path, resolved, size), from the bytes of resolved
on entry: the return value and the buffer. -/
def vfsResolvePath (base path : CString) (size : Nat) (resolved : Nat → Char) : Int × ResolveBuf :=
  let b : ResolveBuf := ⟨1, resolved, []⟩
  if size < 2 ∨ base.1.head? ≠ some '/' then (-einval, b)
  else if path.1 = [] then (-enoent, b)
  else resolveReturn (resolveParts size [if path.1.head? = some '/' then [] else base.1, path.1]
    ((b.write 0 '/').write 1 '\x00'))

/-! ## Writes and reads -/

section Buffer

variable (b : ResolveBuf)

@[simp] theorem write_out (i : Nat) (c : Char) : (b.write i c).out = b.out := rfl

@[simp] theorem write_bytes (i : Nat) (c : Char) : (b.write i c).bytes = Function.update b.bytes i c := rfl

@[simp] theorem write_writes (i : Nat) (c : Char) : (b.write i c).writes = b.writes ++ [(i, c)] := rfl

theorem prefixOf_succ (bytes : Nat → Char) (n : Nat) : prefixOf bytes (n + 1) = prefixOf bytes n ++ [bytes n] := by
  simp [prefixOf, List.range_succ]

theorem prefixOf_update {bytes : Nat → Char} {n i : Nat} (h : n ≤ i) (c : Char) :
    prefixOf (Function.update bytes i c) n = prefixOf bytes n := by
  apply List.map_congr_left
  intro j hj
  rw [Function.update_of_ne (by simp at hj; omega)]

theorem prefixOf_take (bytes : Nat → Char) {m n : Nat} (h : m ≤ n) :
    prefixOf bytes m = (prefixOf bytes n).take m := by
  rw [prefixOf, prefixOf, ← List.map_take, List.take_range, Nat.min_eq_left h]

theorem getElem?_prefixOf (bytes : Nat → Char) {n i : Nat} (h : i < n) : (prefixOf bytes n)[i]? = some (bytes i) := by
  simp [prefixOf, h]

theorem prefixOf_write (i : Nat) (c : Char) : prefixOf (b.write i c).bytes (i + 1) = prefixOf b.bytes i ++ [c] := by
  rw [write_bytes, prefixOf_succ, prefixOf_update (Nat.le_refl i), Function.update_self]

/-- memcpy puts the copied bytes after the ones before it. -/
theorem prefixOf_copy : ∀ (i : Nat) (cs : List Char),
    prefixOf (b.copy i cs).bytes (i + cs.length) = prefixOf b.bytes i ++ cs := by
  intro i cs
  induction cs generalizing b i with
  | nil => simp [ResolveBuf.copy]
  | cons c cs ih =>
    show prefixOf ((b.write i c).copy (i + 1) cs).bytes (i + (cs.length + 1)) = _
    rw [show i + (cs.length + 1) = i + 1 + cs.length by omega, ih, prefixOf_write]
    simp

/-- memcpy writes only in its own range. -/
theorem mem_copy_writes : ∀ (i : Nat) (cs : List Char) {w : Nat × Char}, w ∈ (b.copy i cs).writes →
    w ∈ b.writes ∨ (i ≤ w.1 ∧ w.1 < i + cs.length) := by
  intro i cs
  induction cs generalizing b i with
  | nil => exact fun h => Or.inl h
  | cons c cs ih =>
    intro w hw
    rcases ih (b.write i c) (i + 1) hw with hw | hw
    · rcases List.mem_append.mp hw with hw | hw
      · exact Or.inl hw
      · rw [List.mem_singleton.mp hw]
        exact Or.inr ⟨Nat.le_refl i, by simp⟩
    · exact Or.inr ⟨by omega, by simp only [List.length_cons]; omega⟩

end Buffer

/-- The scan back stops right after the first separator it meets. -/
theorem scanBack_eq (bytes : Nat → Char) {k : Nat} (hk : 1 ≤ k) (hsep : bytes (k - 1) = '/') :
    ∀ m, (∀ j < m, bytes (k + j) ≠ '/') → scanBack bytes (k + m) = k := by
  intro m
  induction m with
  | zero =>
    intro _
    match k, hk with
    | 1, _ => rfl
    | n + 2, _ => simp [scanBack, show bytes (n + 1) = '/' from hsep]
  | succ m ih =>
    intro hm
    obtain ⟨n, hn⟩ : ∃ n, k + (m + 1) = n + 2 := ⟨k + m - 1, by omega⟩
    have hne : bytes (n + 1) ≠ '/' := by
      have := hm m (by omega)
      rwa [show k + m = n + 1 by omega] at this
    rw [hn, scanBack, if_pos hne, show n + 1 = k + m by omega]
    exact ih fun j hj => hm j (by omega)

theorem scanBack_le (bytes : Nat → Char) : ∀ n, scanBack bytes n ≤ n
  | 0 => Nat.le_refl 0
  | 1 => Nat.le_refl 1
  | n + 2 => by
    unfold scanBack
    split
    · have := scanBack_le bytes (n + 1)
      omega
    · exact Nat.le_refl _

/-! ## The scan meets the components -/

theorem resolveStep_nil (size : Nat) (b : ResolveBuf) : resolveStep size b [] = .ok b := rfl

/-- The loop handles the non-empty components of its input in order, as long
as the fuel outlasts the input. -/
theorem resolveLoop_eq_foldlM (size : Nat) :
    ∀ (fuel : Nat) (cur : List Char) (b : ResolveBuf), cur.length < fuel →
      resolveLoop size fuel cur b = (tokens '/' cur).foldlM (resolveStep size) b := by
  intro fuel
  induction fuel with
  | zero => intro cur b h; omega
  | succ fuel ih =>
    intro cur b hlen
    by_cases hcur : cur = []
    · subst hcur
      rfl
    rw [resolveLoop, if_neg hcur]
    by_cases hd : cur.dropWhile (· = '/') = []
    · -- only separators are left: the loop ends after one empty component
      have hfuel : ([] : List Char).length < fuel := by
        have := List.length_pos_iff.mpr hcur
        simp only [List.length_nil]
        omega
      rw [tokens_eq_nil '/' hd, hd]
      simp only [List.takeWhile_nil, List.dropWhile_nil, resolveStep_nil, Except.bind]
      rw [ih [] b hfuel]
      rfl
    · rw [tokens_eq_cons '/' hd, List.foldlM_cons]
      have hrest := length_rest_lt '/' hd
      simp only [Except.bind]
      cases resolveStep size b ((cur.dropWhile (· = '/')).takeWhile (· ≠ '/')) with
      | error e => rfl
      | ok b' => exact ih _ b' (by omega)

/-- Both inputs, one after the other: one fold along all their components. -/
theorem resolveParts_eq_foldlM (size : Nat) :
    ∀ (parts : List (List Char)) (b : ResolveBuf),
      resolveParts size parts b = (parts.flatMap (tokens '/')).foldlM (resolveStep size) b := by
  intro parts
  induction parts with
  | nil => intro b; rfl
  | cons cur parts ih =>
    intro b
    rw [resolveParts, resolveLoop_eq_foldlM size _ cur b (Nat.lt_succ_self _), List.flatMap_cons,
      List.foldlM_append]
    cases (tokens '/' cur).foldlM (resolveStep size) b with
    | error e => rfl
    | ok b' => exact ih b'

/-! ## What the buffer holds -/

section Holds

variable {b : ResolveBuf}

theorem Holds.getElem? {s : List Char} (hb : Holds b s) {i : Nat} (hi : i < s.length) : s[i]? = some (b.bytes i) := by
  rw [← hb.2.1]
  exact getElem?_prefixOf _ hi

/-- A NUL written after a prefix of what the buffer holds leaves it holding
that prefix. -/
theorem holds_truncate {s t : List Char} (hb : Holds b s) (ht : t <+: s) :
    Holds ({ b with out := t.length }.write t.length '\x00') t := by
  have hle : t.length ≤ s.length := ht.length_le
  refine ⟨rfl, ?_, by simp⟩
  rw [write_bytes, prefixOf_update (Nat.le_refl _), prefixOf_take _ hle, hb.2.1]
  exact (List.prefix_iff_eq_take.mp ht).symm

theorem getElem?_append_cons (F d : List Char) (x : Char) (j : Nat) : (F ++ x :: d)[F.length + 1 + j]? = d[j]? := by
  rw [List.getElem?_append_right (by omega), show F.length + 1 + j - F.length = j + 1 by omega, List.getElem?_cons_succ]

variable {st : List (List Char)}

/-- The cursor is past the root exactly when the stack is not empty. -/
theorem one_lt_out_iff (hst : Canonical '/' '.' st) (hb : Holds b (render '/' st)) : 1 < b.out ↔ st ≠ [] := by
  rw [hb.1, length_render]
  cases st with
  | nil => simp
  | cons c cs =>
    have hc : 0 < c.length := List.length_pos_iff.mpr (hst c List.mem_cons_self).1
    simp only [weight_cons, ne_eq, reduceCtorEq, not_false_eq_true, iff_true]
    omega

/-- ".." takes the buffer back to the rendering of the stack without its
newest component. -/
theorem holds_resolveDotDot (hst : Canonical '/' '.' st) (hb : Holds b (render '/' st)) :
    Holds (resolveDotDot b) (render '/' st.dropLast) := by
  rcases List.eq_nil_or_concat st with rfl | ⟨init, d, rfl⟩
  · -- at the root ".." stays there
    have hout : ¬ b.out > 1 := fun h => (one_lt_out_iff hst hb).mp h rfl
    rw [resolveDotDot, if_neg hout]
    exact hb
  rw [List.concat_eq_append] at hst hb ⊢
  have hout : b.out > 1 := (one_lt_out_iff hst hb).mpr (by simp)
  have hd : '/' ∉ d := (hst d (by simp)).2.1
  rw [List.dropLast_concat]
  rw [render_concat] at hb
  -- the scan back crosses d and stops after the separator in front of it
  have hsep : b.bytes (init.flatMap ('/' :: ·)).length = '/' := by
    have := hb.getElem? (i := (init.flatMap ('/' :: ·)).length) (by simp)
    simpa using this.symm
  have hcont : ∀ j < d.length, b.bytes ((init.flatMap ('/' :: ·)).length + 1 + j) ≠ '/' := by
    intro j hj hj'
    have := hb.getElem? (i := (init.flatMap ('/' :: ·)).length + 1 + j) (by simp; omega)
    rw [getElem?_append_cons] at this
    exact hd (hj' ▸ List.mem_of_getElem? this)
  have hscan : scanBack b.bytes b.out = (init.flatMap ('/' :: ·)).length + 1 := by
    rw [hb.1, show (init.flatMap ('/' :: ·) ++ '/' :: d).length = (init.flatMap ('/' :: ·)).length + 1 + d.length by
      simp; omega]
    exact scanBack_eq b.bytes (by omega) hsep d.length hcont
  have hnew : (if (init.flatMap ('/' :: ·)).length + 1 > 1 then (init.flatMap ('/' :: ·)).length + 1 - 1
      else (init.flatMap ('/' :: ·)).length + 1) = (render '/' init).length := by
    rw [length_render, length_flatMap]
    split_ifs <;> omega
  have hpre : render '/' init <+: init.flatMap ('/' :: ·) ++ '/' :: d := by
    by_cases hi : init = []
    · subst hi
      simp
    · rw [render_of_ne_nil '/' hi]
      exact List.prefix_append _ _
  simp only [resolveDotDot, if_pos hout, hscan, hnew]
  exact holds_truncate hb hpre

/-- The separator step leaves the cursor after a separator that follows the
components. -/
theorem resolveSep_holds (hst : Canonical '/' '.' st) (hb : Holds b (render '/' st)) :
    (resolveSep b).out = (st.flatMap ('/' :: ·)).length + 1 ∧
      prefixOf (resolveSep b).bytes ((st.flatMap ('/' :: ·)).length + 1) = st.flatMap ('/' :: ·) ++ ['/'] := by
  by_cases h : st = []
  · subst h
    have hout : ¬ b.out > 1 := fun h' => (one_lt_out_iff hst hb).mp h' rfl
    rw [resolveSep, if_neg hout]
    exact ⟨hb.1, hb.2.1⟩
  · have hout : b.out > 1 := (one_lt_out_iff hst hb).mpr h
    rw [render_of_ne_nil '/' h] at hb
    rw [resolveSep, if_pos hout]
    refine ⟨by simp [hb.1], ?_⟩
    show prefixOf (b.write b.out '/').bytes _ = _
    conv_lhs => rw [← hb.1]
    rw [prefixOf_write, hb.1, hb.2.1]

/-- The length check of the source compares the room the rendering with the
component takes. -/
theorem append_room (hst : Canonical '/' '.' st) (hb : Holds b (render '/' st)) (comp : List Char) :
    b.out + comp.length + (if b.out > 1 then 1 else 0) = (render '/' (st ++ [comp])).length := by
  rw [render_concat]
  by_cases h : st = []
  · subst h
    have hout : ¬ b.out > 1 := fun h' => (one_lt_out_iff hst hb).mp h' rfl
    rw [if_neg hout, hb.1]
    simp only [render_nil, List.flatMap_nil, List.nil_append, List.length_cons, List.length_nil]
    omega
  · have hout : b.out > 1 := (one_lt_out_iff hst hb).mpr h
    rw [if_pos hout, hb.1, render_of_ne_nil '/' h]
    simp
    omega

/-- A component that fits is appended after a separator. -/
theorem holds_resolveAppend {size : Nat} {comp : List Char} {b' : ResolveBuf} (hst : Canonical '/' '.' st)
    (hb : Holds b (render '/' st)) (h : resolveAppend size b comp = some b') :
    Holds b' (render '/' (st ++ [comp])) := by
  by_cases hfit : b.out + comp.length + (if b.out > 1 then 1 else 0) ≥ size
  · rw [resolveAppend, if_pos hfit] at h
    cases h
  rw [resolveAppend, if_neg hfit] at h
  obtain ⟨hout, hpre⟩ := resolveSep_holds hst hb
  cases h
  rw [render_concat]
  have hlen : (st.flatMap ('/' :: ·) ++ '/' :: comp).length = (resolveSep b).out + comp.length := by
    simp [hout]
    omega
  refine ⟨by simp [hlen], ?_, ?_⟩
  · rw [hlen, write_bytes, prefixOf_update (by simp), prefixOf_copy, hout, hpre]
    simp
  · rw [hlen, write_bytes]
    simp

/-- One component of the loop: the buffer holds the rendering of the stack
with the component pushed. -/
theorem holds_resolveComponent {size : Nat} {comp : List Char} {b' : ResolveBuf}
    (hst : Canonical '/' '.' st) (hb : Holds b (render '/' st)) (h : resolveComponent size b comp = some b') :
    Holds b' (render '/' (push '.' st comp)) := by
  unfold resolveComponent at h
  unfold push
  split_ifs at h ⊢
  · cases h
    exact hb
  · cases h
    exact holds_resolveDotDot hst hb
  · exact holds_resolveAppend hst hb h

end Holds

/-- A run of the loop that ends without error leaves the rendering of the
stack with every component pushed. -/
theorem foldlM_resolveStep_holds (size : Nat) :
    ∀ (cs : List (List Char)) {b b' : ResolveBuf} {st : List (List Char)},
      (∀ c ∈ cs, '/' ∉ c) → Canonical '/' '.' st → Holds b (render '/' st) →
      cs.foldlM (resolveStep size) b = .ok b' → Holds b' (render '/' (cs.foldl (push '.') st)) := by
  intro cs
  induction cs with
  | nil =>
    intro b b' st _ _ hb h
    cases h
    exact hb
  | cons c cs ih =>
    intro b b' st hcs hst hb h
    rw [List.foldlM_cons] at h
    cases hc : resolveComponent size b c with
    | none => simp [resolveStep, hc] at h; cases h
    | some b₁ =>
      simp only [resolveStep, hc] at h
      exact ih (fun d hd => hcs d (List.mem_cons_of_mem c hd))
        (canonical_push '/' '.' hst (hcs c List.mem_cons_self)) (holds_resolveComponent hst hb hc) h

/-- A plain component is appended. -/
theorem resolveComponent_plain (size : Nat) (b : ResolveBuf) {comp : List Char} (hc : Plain '/' '.' comp) :
    resolveComponent size b comp = resolveAppend size b comp := by
  simp [resolveComponent, hc.1, hc.2.2.1, hc.2.2.2]

/-- A run over plain components whose rendering fits appends every one of
them. -/
theorem foldlM_resolveStep_fits (size : Nat) :
    ∀ (cs : List (List Char)) {b : ResolveBuf} {pre : List (List Char)},
      Canonical '/' '.' (pre ++ cs) → Holds b (render '/' pre) → (render '/' (pre ++ cs)).length < size →
      ∃ b', cs.foldlM (resolveStep size) b = .ok b' ∧ Holds b' (render '/' (pre ++ cs)) := by
  intro cs
  induction cs with
  | nil =>
    intro b pre _ hb _
    exact ⟨b, rfl, by simpa using hb⟩
  | cons c cs ih =>
    intro b pre hst hb hsize
    have hpre : Canonical '/' '.' pre := fun d hd => hst d (List.mem_append_left _ hd)
    have hc : Plain '/' '.' c := hst c (by simp)
    -- the length check passes: the rendering so far is no longer than the whole
    have hmono : (render '/' (pre ++ [c])).length ≤ (render '/' (pre ++ c :: cs)).length := by
      rw [length_render, length_render]
      simp only [weight_append, weight_cons, weight_nil]
      omega
    have hfit : ¬ b.out + c.length + (if b.out > 1 then 1 else 0) ≥ size := by
      rw [append_room hpre hb]
      omega
    obtain ⟨b₁, hb₁⟩ : ∃ b₁, resolveAppend size b c = some b₁ := ⟨_, by rw [resolveAppend, if_neg hfit]⟩
    have hcomp : resolveComponent size b c = some b₁ := by rw [resolveComponent_plain size b hc, hb₁]
    have hst' : Canonical '/' '.' ((pre ++ [c]) ++ cs) := by simpa using hst
    obtain ⟨b', hrun, hb'⟩ := ih hst' (holds_resolveAppend hpre hb hb₁) (by simpa using hsize)
    refine ⟨b', ?_, by simpa using hb'⟩
    rw [List.foldlM_cons, resolveStep, hcomp]
    exact hrun

/-! ## Every write stays in the buffer -/

/-- The cursor is inside the buffer and every write so far lies where the
source allows it. -/
def Safe (size : Nat) (b : ResolveBuf) : Prop := b.out < size ∧ WritesIn size b.writes

section Safe

variable {size : Nat} {b : ResolveBuf}

theorem writesIn_append {ws vs : List (Nat × Char)} :
    WritesIn size (ws ++ vs) ↔ WritesIn size ws ∧ WritesIn size vs :=
  List.forall_mem_append

theorem writesIn_write {i : Nat} {c : Char} :
    WritesIn size (b.write i c).writes ↔ WritesIn size b.writes ∧ (i < size - 1 ∨ (c = '\x00' ∧ i < size)) := by
  have hone : WritesIn size [(i, c)] ↔ (i < size - 1 ∨ (c = '\x00' ∧ i < size)) := by simp [WritesIn]
  rw [write_writes, writesIn_append, hone]

theorem resolveSep_out (b : ResolveBuf) : (resolveSep b).out = b.out + if b.out > 1 then 1 else 0 := by
  unfold resolveSep
  split <;> simp

theorem resolveSep_writes (b : ResolveBuf) :
    (resolveSep b).writes = b.writes ++ if b.out > 1 then [(b.out, '/')] else [] := by
  unfold resolveSep
  split <;> simp

theorem safe_resolveDotDot (h : Safe size b) : Safe size (resolveDotDot b) := by
  by_cases hout : b.out > 1
  · have hle := scanBack_le b.bytes b.out
    -- the cursor only moves back
    have hnew : (if scanBack b.bytes b.out > 1 then scanBack b.bytes b.out - 1 else scanBack b.bytes b.out) < size := by
      have := h.1
      split <;> omega
    simp only [resolveDotDot, if_pos hout]
    exact ⟨hnew, writesIn_write.mpr ⟨h.2, Or.inr ⟨rfl, hnew⟩⟩⟩
  · simpa [resolveDotDot, hout] using h

/-- What passes the length check is written before resolved[size - 1], and
its NUL inside the buffer. -/
theorem safe_resolveAppend (h : Safe size b) {comp : List Char} {b' : ResolveBuf}
    (h' : resolveAppend size b comp = some b') : Safe size b' := by
  by_cases hfit : b.out + comp.length + (if b.out > 1 then 1 else 0) ≥ size
  · rw [resolveAppend, if_pos hfit] at h'
    cases h'
  rw [resolveAppend, if_neg hfit] at h'
  cases h'
  -- with or without the separator, everything written lies before size
  have hroom : (resolveSep b).out + comp.length < size := by
    rw [resolveSep_out]
    omega
  have hsep : WritesIn size (resolveSep b).writes := by
    rw [resolveSep_writes, writesIn_append]
    refine ⟨h.2, ?_⟩
    split_ifs with hgt
    · simp only [hgt, if_true] at hfit
      simp [WritesIn]
      omega
    · simp [WritesIn]
  refine ⟨by simpa using hroom, ?_⟩
  rw [writesIn_write]
  refine ⟨fun w hw => ?_, Or.inr ⟨rfl, by simpa using hroom⟩⟩
  rcases mem_copy_writes _ _ _ hw with hw | hw
  · exact hsep w hw
  · exact Or.inl (by omega)

theorem safe_resolveComponent (h : Safe size b) {comp : List Char} {b' : ResolveBuf}
    (h' : resolveComponent size b comp = some b') : Safe size b' := by
  unfold resolveComponent at h'
  split_ifs at h'
  · cases h'
    exact h
  · cases h'
    exact safe_resolveDotDot h
  · exact safe_resolveAppend h h'

end Safe

/-- Wherever a run stops, with or without error, the buffer is safe. -/
theorem foldlM_resolveStep_safe (size : Nat) :
    ∀ (cs : List (List Char)) {b b' : ResolveBuf}, Safe size b →
      (cs.foldlM (resolveStep size) b = .ok b' ∨ cs.foldlM (resolveStep size) b = .error b') → Safe size b' := by
  intro cs
  induction cs with
  | nil =>
    rintro b b' h (h' | h')
    · cases h'
      exact h
    · cases h'
  | cons c cs ih =>
    intro b b' h h'
    rw [List.foldlM_cons] at h'
    cases hc : resolveComponent size b c with
    | none =>
      simp only [resolveStep, hc] at h'
      rcases h' with h' | h'
      · cases h'
      · cases h'
        exact h
    | some b₁ =>
      simp only [resolveStep, hc] at h'
      exact ih (safe_resolveComponent h hc) h'

/-! ## vfs_resolve_path -/

/-- The root the source writes before the loop. -/
theorem holds_root (resolved : Nat → Char) :
    Holds ((ResolveBuf.write ⟨1, resolved, []⟩ 0 '/').write 1 '\x00') (render '/' []) := by
  refine ⟨rfl, ?_, ?_⟩ <;> simp [prefixOf]

theorem safe_root (resolved : Nat → Char) {size : Nat} (h : 2 ≤ size) :
    Safe size ((ResolveBuf.write ⟨1, resolved, []⟩ 0 '/').write 1 '\x00') := by
  refine ⟨by simp; omega, ?_⟩
  simp [WritesIn]
  omega

/-- The components the source runs over. -/
theorem mem_parts_tokens {base path : CString} {c : List Char}
    (hc : c ∈ [if path.1.head? = some '/' then [] else base.1, path.1].flatMap (tokens '/')) : '/' ∉ c := by
  obtain ⟨s, -, hs⟩ := List.mem_flatMap.mp hc
  exact (plain_of_mem_tokens '/' hs).2

theorem vfsResolvePath_of_invalid {base path : CString} {size : Nat} (resolved : Nat → Char)
    (h1 : size < 2 ∨ base.1.head? ≠ some '/') : vfsResolvePath base path size resolved = (-einval, ⟨1, resolved, []⟩) := by
  dsimp only [vfsResolvePath]
  rw [if_pos h1]

theorem vfsResolvePath_of_empty {base path : CString} {size : Nat} (resolved : Nat → Char)
    (h1 : ¬(size < 2 ∨ base.1.head? ≠ some '/')) (h2 : path.1 = []) :
    vfsResolvePath base path size resolved = (-enoent, ⟨1, resolved, []⟩) := by
  dsimp only [vfsResolvePath]
  rw [if_neg h1, if_pos h2]

/-- Past its argument checks, vfs_resolve_path is the run over the components
of both inputs. -/
theorem vfsResolvePath_eq {base path : CString} {size : Nat} (resolved : Nat → Char)
    (h1 : ¬(size < 2 ∨ base.1.head? ≠ some '/')) (h2 : path.1 ≠ []) :
    vfsResolvePath base path size resolved =
      resolveReturn (([if path.1.head? = some '/' then [] else base.1, path.1].flatMap (tokens '/')).foldlM
        (resolveStep size) ((ResolveBuf.write ⟨1, resolved, []⟩ 0 '/').write 1 '\x00')) := by
  dsimp only [vfsResolvePath]
  rw [if_neg h1, if_neg h2, resolveParts_eq_foldlM]

/-- Whatever it returns, vfs_resolve_path writes before resolved[size - 1],
or a NUL inside the buffer. -/
theorem vfsResolvePath_writesIn (base path : CString) (size : Nat) (resolved : Nat → Char) :
    WritesIn size (vfsResolvePath base path size resolved).2.writes := by
  by_cases h1 : size < 2 ∨ base.1.head? ≠ some '/'
  · rw [vfsResolvePath_of_invalid resolved h1]
    exact fun _ hw => absurd hw List.not_mem_nil
  by_cases h2 : path.1 = []
  · rw [vfsResolvePath_of_empty resolved h1 h2]
    exact fun _ hw => absurd hw List.not_mem_nil
  have h0 := safe_root resolved (show 2 ≤ size by omega)
  rw [vfsResolvePath_eq resolved h1 h2]
  rcases hr : List.foldlM (resolveStep size) ((ResolveBuf.write ⟨1, resolved, []⟩ 0 '/').write 1 '\x00')
      ([if path.1.head? = some '/' then [] else base.1, path.1].flatMap (tokens '/')) with b' | b'
  · exact (foldlM_resolveStep_safe size _ h0 (Or.inr hr)).2
  · exact (foldlM_resolveStep_safe size _ h0 (Or.inl hr)).2

/-- On success the buffer holds the resolved path, and its cursor is inside
the buffer. -/
theorem vfsResolvePath_holds {base path : CString} {size : Nat} {resolved : Nat → Char}
    (h : (vfsResolvePath base path size resolved).1 = eok) :
    Holds (vfsResolvePath base path size resolved).2 (render '/' (resolve '/' '.' base.1 path.1)) ∧
      (vfsResolvePath base path size resolved).2.out < size := by
  by_cases h1 : size < 2 ∨ base.1.head? ≠ some '/'
  · rw [vfsResolvePath_of_invalid resolved h1] at h
    simp [einval, eok] at h
  by_cases h2 : path.1 = []
  · rw [vfsResolvePath_of_empty resolved h1 h2] at h
    simp [enoent, eok] at h
  have h0 := safe_root resolved (show 2 ≤ size by omega)
  rw [vfsResolvePath_eq resolved h1 h2] at h ⊢
  rcases hr : List.foldlM (resolveStep size) ((ResolveBuf.write ⟨1, resolved, []⟩ 0 '/').write 1 '\x00')
      ([if path.1.head? = some '/' then [] else base.1, path.1].flatMap (tokens '/')) with b' | b'
  · rw [hr] at h
    simp [resolveReturn, enametoolong, eok] at h
  · rw [resolve_eq_foldl]
    exact ⟨foldlM_resolveStep_holds size _ (fun c hc => mem_parts_tokens hc) (fun _ h => absurd h List.not_mem_nil)
      (holds_root resolved) hr, (foldlM_resolveStep_safe size _ h0 (Or.inl hr)).1⟩

example : (vfsResolvePath ⟨['/', 'u', 's', 'r'], by decide⟩ ⟨['.', '.', '/', 'a', '/', '/', '.', '/', 'b'], by decide⟩
    8 (fun _ => 'x')).1 = eok := by decide

/-- The resolved path is made of the characters of the inputs and separators:
it holds no NUL. -/
theorem nul_not_mem_render_resolve (base path : CString) : '\x00' ∉ render '/' (resolve '/' '.' base.1 path.1) := by
  intro hm
  rcases mem_render '/' hm with h | ⟨c, hc, hx⟩
  · cases h
  · rcases mem_resolve '/' '.' hc hx with h | h
    · exact base.2 h
    · exact path.2 h

/-- A canonical path resolves to itself against any absolute base, in any
buffer it fits in. -/
theorem vfsResolvePath_render {st : List (List Char)} (hst : Canonical '/' '.' st) {base r : CString}
    (hbase : base.1.head? = some '/') (hr : r.1 = render '/' st) {size : Nat}
    (hsize : (render '/' st).length < size) (resolved : Nat → Char) :
    (vfsResolvePath base r size resolved).1 = eok ∧ Holds (vfsResolvePath base r size resolved).2 (render '/' st) := by
  have hlen : 1 ≤ (render '/' st).length := by
    rw [length_render]
    omega
  have hne : r.1 ≠ [] := by
    rw [hr]
    exact List.ne_nil_of_length_pos hlen
  have habs : r.1.head? = some '/' := by rw [hr, head_render]
  have htok : [if r.1.head? = some '/' then [] else base.1, r.1].flatMap (tokens '/') = st := by
    rw [if_pos habs, hr]
    simp [tokens_render '/' '.' hst]
  obtain ⟨b', hrun, hb'⟩ := @foldlM_resolveStep_fits size st _ [] (by simpa using hst) (holds_root resolved)
    (by simpa using hsize)
  rw [vfsResolvePath_eq resolved (by simp [hbase]; omega) hne, htok, hrun]
  exact ⟨rfl, hb'⟩

/-- vfs_resolve_path writes only before resolved[size - 1], or a NUL inside the
buffer, whatever it returns; on success the buffer holds the canonical path
the component-stack semantics gives, which fits in it, holds no NUL, and
resolves to itself against any absolute base in any buffer it fits in. -/
theorem vfs_resolve_path_canonical (base path : CString) (size : Nat) (resolved : Nat → Char) :
    WritesIn size (vfsResolvePath base path size resolved).2.writes ∧
      ((vfsResolvePath base path size resolved).1 = eok →
        Holds (vfsResolvePath base path size resolved).2 (render '/' (resolve '/' '.' base.1 path.1)) ∧
        (render '/' (resolve '/' '.' base.1 path.1)).length < size ∧
        Canonical '/' '.' (resolve '/' '.' base.1 path.1) ∧
        '\x00' ∉ render '/' (resolve '/' '.' base.1 path.1) ∧
        ∀ (base' r : CString) (size' : Nat) (resolved' : Nat → Char), base'.1.head? = some '/' →
          r.1 = render '/' (resolve '/' '.' base.1 path.1) →
          (render '/' (resolve '/' '.' base.1 path.1)).length < size' →
          (vfsResolvePath base' r size' resolved').1 = eok ∧
            Holds (vfsResolvePath base' r size' resolved').2 (render '/' (resolve '/' '.' base.1 path.1))) := by
  refine ⟨vfsResolvePath_writesIn base path size resolved, fun h => ?_⟩
  obtain ⟨hb, hout⟩ := vfsResolvePath_holds h
  have hst := canonical_resolve '/' '.' base.1 path.1
  refine ⟨hb, hb.1 ▸ hout, hst, nul_not_mem_render_resolve base path, ?_⟩
  intro base' r size' resolved' hbase' hr hsize'
  exact vfsResolvePath_render hst hbase' hr hsize' resolved'

end Uinxed.Vfs
