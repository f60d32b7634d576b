/-
  Libs/NormalizePath.lean --- normalize_path (src/libs/std/stdlib.c), the
  second canonicaliser of the VFS, which the symlink resolver calls, and its
  agreement with vfs_resolve_path.

  normalize_path builds its result in a buffer of strlen(path) + 1 bytes with
  strcpy, strcat and strrchr over the tokens strtok cuts from a copy of the
  path.  Those functions read the result only up to its NUL, so the buffer is
  modelled as the C string it holds, with a log of the writes each call makes
  (strcat writes its source and a NUL over the old NUL; a ".." writes one
  NUL).  The loop over strtok meets the non-empty components of the path
  (normalizeLoop_eq_foldl), and one token keeps the result the rendering of
  the component stack (normalizeToken_result).

  The bound on the writes rests on the room the stack takes: the components
  still to come and those on the stack never take more than the path itself
  (PathStack.weight_tokens_le), so no write reaches past strlen(path).

  strtok keeps its position in a static variable; the model follows one
  call sequence of normalize_path with no other strtok in between.  Failing
  allocations are not modelled.
-/
import Uinxed.Fs.ResolvePath

set_option autoImplicit false

namespace Uinxed.Stdlib

open PathStack Uinxed.Vfs

/-! ## The string functions -/

/-- The result buffer of normalize_path: the C string it holds, and every
write made to it, in order. -/
structure NormBuf where
  result : List Char
  writes : List (Nat × Char)

/-- The writes that copy cs to the bytes from i on. -/
def writesAt (i : Nat) : List Char → List (Nat × Char)
  | [] => []
  | c :: cs => (i, c) :: writesAt (i + 1) cs

/-- strcat(result, x): x and its NUL copied over the NUL of result. -/
def NormBuf.strcat (b : NormBuf) (x : List Char) : NormBuf :=
  ⟨b.result ++ x, b.writes ++ writesAt b.result.length (x ++ ['\x00'])⟩

/-- result[i] = '\0': the string now ends at i. -/
def NormBuf.cut (b : NormBuf) (i : Nat) : NormBuf :=
  ⟨b.result.take i, b.writes ++ [(i, '\x00')]⟩

/-- The loop of strrchr from index i, with the last match found so far. -/
def strrchrFrom (c : Char) : Nat → List Char → Option Nat → Option Nat
  | _, [], found => found
  | i, x :: xs, found => strrchrFrom c (i + 1) xs (if x = c then some i else found)

/-- strrchr(s, c): the index of the last c in s. -/
def strrchr (s : List Char) (c : Char) : Option Nat := strrchrFrom c 0 s none

/-- strtok(s, "/") from where the last call stopped: the next token and where
the next call starts, or none at the end. -/
def strtokNext (s : List Char) : Option (List Char × List Char) :=
  let s := s.dropWhile (· = '/')
  if s = [] then none else some (s.takeWhile (· ≠ '/'), (s.dropWhile (· ≠ '/')).drop 1)

/-! ## normalize_path -/

/-- if (result[strlen(result) - 1] != '/') strcat(result, "/"); -/
def normalizeSep (b : NormBuf) : NormBuf :=
  if b.result.getD (b.result.length - 1) '\x00' ≠ '/' then b.strcat ['/'] else b

/-- The body of the loop for one token. -/
def normalizeToken (b : NormBuf) (token : List Char) : NormBuf :=
  if token = ['.'] then b
  else if token = ['.', '.'] then
    match strrchr b.result '/' with
    | some i => if i ≠ 0 then b.cut i else b.cut 1
    -- result always starts with '/', so strrchr does not miss
    | none => b
  else (normalizeSep b).strcat token

/-- while (token) { ...; token = strtok(0, "/"); }, with fuel for the
iterations. -/
def normalizeLoop : Nat → List Char → NormBuf → NormBuf
  | 0, _, b => b
  | fuel + 1, s, b =>
    match strtokNext s with
    | none => b
    | some (token, rest) => normalizeLoop fuel rest (normalizeToken b token)

/-- normalize_path(path): its result buffer. -/
def normalizePath (path : CString) : NormBuf :=
  -- strcpy(result, "/")
  let b : NormBuf := ⟨['/'], [(0, '/'), (1, '\x00')]⟩
  if path.1 = ['/'] then b
  else
    let start := if path.1.head? = some '/' then path.1.tail else path.1
    normalizeLoop (start.length + 1) start b

/-! ## The string functions, read -/

theorem mem_writesAt : ∀ (i : Nat) (cs : List Char) {w : Nat × Char}, w ∈ writesAt i cs →
    i ≤ w.1 ∧ w.1 < i + cs.length := by
  intro i cs
  induction cs generalizing i with
  | nil => intro w hw; cases hw
  | cons c cs ih =>
    intro w hw
    rcases List.mem_cons.mp hw with rfl | hw
    · simp
    · have := ih (i + 1) hw
      simp only [List.length_cons]
      omega

theorem strrchrFrom_of_not_mem {c : Char} : ∀ {s : List Char}, c ∉ s → ∀ (i : Nat) (found : Option Nat),
    strrchrFrom c i s found = found := by
  intro s
  induction s with
  | nil => intro _ i found; rfl
  | cons x xs ih =>
    intro hc i found
    have hx : x ≠ c := fun h => hc (h ▸ List.mem_cons_self)
    rw [strrchrFrom, if_neg hx, ih (fun h => hc (List.mem_cons_of_mem x h))]

/-- strrchr finds the last occurrence. -/
theorem strrchr_append_cons {c : Char} {t : List Char} (hc : c ∉ t) (s : List Char) :
    strrchr (s ++ c :: t) c = some s.length := by
  suffices h : ∀ (i : Nat) (found : Option Nat), strrchrFrom c i (s ++ c :: t) found = some (i + s.length) by
    show strrchrFrom c 0 (s ++ c :: t) none = some s.length
    simpa using h 0 none
  induction s with
  | nil =>
    intro i found
    rw [List.nil_append, strrchrFrom, if_pos rfl, strrchrFrom_of_not_mem hc]
    rfl
  | cons x xs ih =>
    intro i found
    rw [List.cons_append, strrchrFrom, ih]
    simp only [List.length_cons, Option.some.injEq]
    omega

/-- strtok meets the non-empty components of what is left of the path. -/
theorem strtokNext_eq_none {s : List Char} (h : s.dropWhile (· = '/') = []) : strtokNext s = none := by
  simp [strtokNext, h]

theorem strtokNext_eq_some {s : List Char} (h : s.dropWhile (· = '/') ≠ []) :
    strtokNext s = some ((s.dropWhile (· = '/')).takeWhile (· ≠ '/'),
      ((s.dropWhile (· = '/')).dropWhile (· ≠ '/')).drop 1) := by
  simp only [strtokNext]
  rw [if_neg h]

/-- The loop runs over the tokens of the path, as long as the fuel outlasts
it. -/
theorem normalizeLoop_eq_foldl : ∀ (fuel : Nat) (s : List Char) (b : NormBuf), s.length < fuel →
    normalizeLoop fuel s b = (tokens '/' s).foldl normalizeToken b := by
  intro fuel
  induction fuel with
  | zero => intro s b h; omega
  | succ fuel ih =>
    intro s b hlen
    by_cases hd : s.dropWhile (· = '/') = []
    · rw [normalizeLoop, strtokNext_eq_none hd, tokens_eq_nil '/' hd]
      rfl
    · have hrest := length_rest_lt '/' hd
      have hdrop : (((s.dropWhile (· = '/')).dropWhile (· ≠ '/')).drop 1).length < fuel := by
        simp only [List.length_drop]
        omega
      rw [normalizeLoop, strtokNext_eq_some hd]
      dsimp only
      rw [ih _ _ hdrop, tokens_drop_one_dropWhile, tokens_eq_cons '/' hd, List.foldl_cons]

/-! ## One token -/

section Token

variable {b : NormBuf} {st : List (List Char)}

/-- The last byte of a rendering is a separator only at the root. -/
theorem getD_render_ne_sep (hst : Canonical '/' '.' st) (hne : st ≠ []) :
    (render '/' st).getD ((render '/' st).length - 1) '\x00' ≠ '/' := by
  obtain ⟨init, d, rfl⟩ := List.eq_nil_or_concat st |>.resolve_left hne
  rw [List.concat_eq_append] at hst ⊢
  have hd : Plain '/' '.' d := hst d (by simp)
  obtain ⟨d', x, rfl⟩ := List.eq_nil_or_concat d |>.resolve_left hd.1
  rw [List.concat_eq_append] at hd
  have hx : x ≠ '/' := fun h => hd.2.1 (h ▸ by simp)
  rw [render_concat, List.getD_eq_getElem?_getD]
  simpa [List.getElem?_append_right, List.getElem?_cons] using hx

theorem normalizeToken_dot (b : NormBuf) : normalizeToken b ['.'] = b := by
  simp [normalizeToken]

/-- ".." cuts the result after the component before the last, or at the root:
one NUL at the end of the rendering of the stack without its newest
component. -/
theorem normalizeToken_dotDot (hst : Canonical '/' '.' st) (hr : b.result = render '/' st) :
    normalizeToken b ['.', '.'] =
      ⟨render '/' st.dropLast, b.writes ++ [((render '/' st.dropLast).length, '\x00')]⟩ := by
  obtain ⟨r, ws⟩ := b
  dsimp only at hr
  subst hr
  simp only [normalizeToken, if_neg (by decide : ¬ (['.', '.'] : List Char) = ['.']), if_true]
  rcases List.eq_nil_or_concat st with rfl | ⟨init, d, rfl⟩
  · rfl
  rw [List.concat_eq_append] at hst ⊢
  have hd : '/' ∉ d := (hst d (by simp)).2.1
  rw [render_concat, strrchr_append_cons hd, List.dropLast_concat]
  dsimp only
  by_cases hi : init = []
  · subst hi
    rfl
  · have hF : (init.flatMap ('/' :: ·)).length ≠ 0 := by
      obtain ⟨c, cs, rfl⟩ := List.exists_cons_of_ne_nil hi
      simp
    rw [if_pos hF, render_of_ne_nil '/' hi]
    simp [NormBuf.cut]

theorem normalizeToken_plain {token : List Char} (h1 : token ≠ ['.']) (h2 : token ≠ ['.', '.']) (b : NormBuf) :
    normalizeToken b token = (normalizeSep b).strcat token := by
  rw [normalizeToken, if_neg h1, if_neg h2]

/-- The separator step leaves a separator after the components, writing at
most up to the byte after it. -/
theorem normalizeSep_spec (hst : Canonical '/' '.' st) (hr : b.result = render '/' st) :
    (normalizeSep b).result = st.flatMap ('/' :: ·) ++ ['/'] ∧
      ∀ w ∈ (normalizeSep b).writes, w ∈ b.writes ∨ w.1 ≤ (st.flatMap ('/' :: ·)).length + 1 := by
  by_cases hst0 : st = []
  · subst hst0
    have hroot : ¬ b.result.getD (b.result.length - 1) '\x00' ≠ '/' := by simp [hr]
    rw [normalizeSep, if_neg hroot]
    exact ⟨by simp [hr], fun w hw => Or.inl hw⟩
  · have hlast := getD_render_ne_sep hst hst0
    rw [← hr] at hlast
    rw [normalizeSep, if_pos hlast]
    refine ⟨by simp [NormBuf.strcat, hr, render_of_ne_nil '/' hst0], fun w hw => ?_⟩
    rcases List.mem_append.mp hw with hw | hw
    · exact Or.inl hw
    · have := mem_writesAt _ _ hw
      rw [hr, render_of_ne_nil '/' hst0] at this
      simp only [List.length_append, List.length_singleton] at this
      exact Or.inr (by omega)

/-- A plain token is appended after a separator; its writes end at the NUL
after the new rendering. -/
theorem normalizeToken_plain_spec (hst : Canonical '/' '.' st) (hr : b.result = render '/' st) {token : List Char}
    (h1 : token ≠ ['.']) (h2 : token ≠ ['.', '.']) :
    (normalizeToken b token).result = render '/' (st ++ [token]) ∧
      ∀ w ∈ (normalizeToken b token).writes, w ∈ b.writes ∨ w.1 ≤ (render '/' (st ++ [token])).length := by
  obtain ⟨hsep, hsepw⟩ := normalizeSep_spec hst hr
  rw [normalizeToken_plain h1 h2, render_concat]
  refine ⟨by simp [NormBuf.strcat, hsep], fun w hw => ?_⟩
  rcases List.mem_append.mp hw with hw | hw
  · rcases hsepw w hw with hw | hw
    · exact Or.inl hw
    · exact Or.inr (by simp only [List.length_append, List.length_cons]; omega)
  · have := mem_writesAt _ _ hw
    rw [hsep] at this
    simp only [List.length_append, List.length_singleton] at this
    exact Or.inr (by simp only [List.length_append, List.length_cons]; omega)

/-- One token leaves the result the rendering of the stack with the token
pushed, and writes no further than the NUL after the longer of the two
renderings. -/
theorem normalizeToken_spec (hst : Canonical '/' '.' st) (hr : b.result = render '/' st) {token : List Char}
    (htok : token ≠ []) :
    (normalizeToken b token).result = render '/' (push '.' st token) ∧
      ∀ w ∈ (normalizeToken b token).writes,
        w ∈ b.writes ∨ w.1 ≤ max (render '/' st).length (render '/' (push '.' st token)).length := by
  by_cases h1 : token = ['.']
  · subst h1
    rw [normalizeToken_dot]
    exact ⟨by simp [push, hr], fun w hw => Or.inl hw⟩
  by_cases h2 : token = ['.', '.']
  · subst h2
    have hpush : push '.' st ['.', '.'] = st.dropLast := by simp [push]
    rw [normalizeToken_dotDot hst hr, hpush]
    refine ⟨rfl, fun w hw => ?_⟩
    rcases List.mem_append.mp hw with hw | hw
    · exact Or.inl hw
    · rw [List.mem_singleton.mp hw]
      exact Or.inr (Nat.le_max_right _ _)
  · have hpush : push '.' st token = st ++ [token] := by simp [push, htok, h1, h2]
    obtain ⟨hres, hw⟩ := normalizeToken_plain_spec hst hr h1 h2
    rw [hpush]
    exact ⟨hres, fun w hw' => (hw w hw').imp_right fun h => Nat.le_trans h (Nat.le_max_right _ _)⟩

end Token

/-! ## The loop -/

/-- A run over the tokens keeps the result the rendering of the stack, and
every write at or before the bound, as long as the stack and the tokens still
to come take no more room than the bound. -/
theorem foldl_normalizeToken (B : Nat) (hB : 1 ≤ B) :
    ∀ (toks : List (List Char)) {b : NormBuf} {st : List (List Char)},
      Canonical '/' '.' st → b.result = render '/' st → (∀ t ∈ toks, t ≠ [] ∧ '/' ∉ t) →
      weight st + weight toks ≤ B → (∀ w ∈ b.writes, w.1 ≤ B) →
      (toks.foldl normalizeToken b).result = render '/' (toks.foldl (push '.') st) ∧
        ∀ w ∈ (toks.foldl normalizeToken b).writes, w.1 ≤ B := by
  intro toks
  induction toks with
  | nil =>
    intro b st _ hr _ _ hw
    exact ⟨hr, hw⟩
  | cons t toks ih =>
    intro b st hst hr htoks hroom hw
    have ht := htoks t List.mem_cons_self
    obtain ⟨hres, hwr⟩ := normalizeToken_spec hst hr ht.1
    -- the stack takes no more room after the token than before it with the token
    have hpush := weight_push_le '.' st t
    simp only [weight_cons] at hroom
    have hlen : max (render '/' st).length (render '/' (push '.' st t)).length ≤ B := by
      rw [length_render, length_render]
      omega
    refine ih (canonical_push '/' '.' hst ht.2) hres (fun u hu => htoks u (List.mem_cons_of_mem t hu)) (by omega) ?_
    intro w hw'
    rcases hwr w hw' with hw' | hw'
    · exact hw w hw'
    · omega

theorem walk_root_sep_cons (start : List Char) :
    walk '/' '.' [] ('/' :: start) = (tokens '/' start).foldl (push '.') [] := by
  rw [walk_eq_tokens, tokens_sep_cons]

/-- normalize_path of an absolute path: the rendering of the component stack
of the path, with every write inside its strlen(path) + 1 bytes. -/
theorem normalizePath_spec {path : CString} (hp : path.1.head? = some '/') :
    (normalizePath path).result = render '/' (walk '/' '.' [] path.1) ∧
      ∀ w ∈ (normalizePath path).writes, w.1 < path.1.length + 1 := by
  obtain ⟨start, hstart⟩ : ∃ start, path.1 = '/' :: start := by
    cases h : path.1 with
    | nil => simp [h] at hp
    | cons a t =>
      rw [h] at hp
      exact ⟨t, by simpa using hp⟩
  rw [hstart, walk_root_sep_cons]
  by_cases h1 : path.1 = ['/']
  · -- "/" itself: strcpy only
    have hs : start = [] := by simpa [hstart] using h1
    subst hs
    simp only [normalizePath, if_pos h1]
    refine ⟨rfl, ?_⟩
    simp
  · have hloop : normalizePath path = normalizeLoop (start.length + 1) start ⟨['/'], [(0, '/'), (1, '\x00')]⟩ := by
      have h1' : ¬ ('/' :: start) = ['/'] := hstart ▸ h1
      simp [normalizePath, hstart, h1']
    have hroom := weight_tokens_le '/' start
    obtain ⟨hres, hw⟩ := @foldl_normalizeToken ('/' :: start).length (by simp) (tokens '/' start)
      ⟨['/'], [(0, '/'), (1, '\x00')]⟩ [] (fun _ h => absurd h List.not_mem_nil) rfl
      (fun t ht => plain_of_mem_tokens '/' ht) (by simp only [weight_nil, List.length_cons]; omega)
      (by simp)
    rw [hloop, normalizeLoop_eq_foldl _ _ _ (Nat.lt_succ_self _)]
    exact ⟨hres, fun w hw' => Nat.lt_succ_of_le (hstart ▸ hw w hw')⟩

/-- Against a root, an absolute path is walked from the root. -/
theorem resolve_of_absolute {path : List Char} (hp : path.head? = some '/') (base : List Char) :
    resolve '/' '.' base path = walk '/' '.' [] path := by
  rw [resolve, if_pos hp]
  rfl

/-- normalize_path writes only inside its strlen(path) + 1 bytes, and its
result is a C string that vfs_resolve_path leaves in its buffer whenever it
succeeds on the same absolute path, against "/" as against any base. -/
theorem normalize_path_agrees_with_vfs_resolve_path (path : CString) (hp : path.1.head? = some '/') :
    (∀ w ∈ (normalizePath path).writes, w.1 < path.1.length + 1) ∧
      '\x00' ∉ (normalizePath path).result ∧
      ∀ (base : CString) (size : Nat) (resolved : Nat → Char), (vfsResolvePath base path size resolved).1 = eok →
        Holds (vfsResolvePath base path size resolved).2 (normalizePath path).result := by
  obtain ⟨hres, hw⟩ := normalizePath_spec hp
  have hsame : ∀ base : CString, (normalizePath path).result = render '/' (resolve '/' '.' base.1 path.1) := by
    intro base
    rw [hres, resolve_of_absolute hp]
  refine ⟨hw, ?_, fun base size resolved h => ?_⟩
  · rw [hsame path]
    exact nul_not_mem_render_resolve path path
  · rw [hsame base]
    exact (vfsResolvePath_holds h).1

theorem normalize_path_dotdot_agrees :
    Holds (vfsResolvePath ⟨['/'], by decide⟩ ⟨['/', 'a', '/', '.', '.', '/', 'b'], by decide⟩ 8 (fun _ => 'x')).2
      (normalizePath ⟨['/', 'a', '/', '.', '.', '/', 'b'], by decide⟩).result :=
  (normalize_path_agrees_with_vfs_resolve_path ⟨['/', 'a', '/', '.', '.', '/', 'b'], by decide⟩ rfl).2.2
    ⟨['/'], by decide⟩ 8 (fun _ => 'x') (by decide)

end Uinxed.Stdlib
