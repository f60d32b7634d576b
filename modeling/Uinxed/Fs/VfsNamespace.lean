/-
  Fs/VfsNamespace.lean --- path lookup and node creation in the VFS
  namespace (vfs_open_internal, vfs_resolve_link_path, vfs_prepare_create,
  vfs_mkdir_mode, vfs_mkfile_mode and vfs_symlink, src/fs/core/vfs.c).

  A node is keyed by the components of the path from the root to where it
  lies, every link on the way resolved: that is the node's own position in
  the tree (its parent chain, which vfs_node_absolute_path renders).  The
  namespace maps each such path to what lookup and creation see of the node:
  a directory, a regular file with its data, or a symlink with its target.

  vfs_open_internal walks the tokens of a path from the root.  A symlink met
  before the last token, or at the last one when the final link is followed
  or the path ends in '/', is replaced by the node its target opens to, one
  level deeper; more than 40 levels fail.  A creation opens the parent part
  of its path (links followed) and adds the leaf under the directory it
  reaches (vfsCreate), so the new node's key is under that directory, not
  under the parent part as written.

  The shape of the namespace is kept by every creation: each node lies under
  a directory (WellFormed, WellFormed.vfsCreate).

  Not modelled: permissions (vfs_access_check passes), mounts other than as
  directories, link targets read through a readlink callback, reference
  counts and locks, allocation failures, and the callbacks of the file
  systems, which are taken to succeed.
-/
import Uinxed.Libs.NormalizePath

set_option autoImplicit false

namespace Uinxed.Vfs

open PathStack Uinxed.Stdlib

/-! ## Constants -/

def eexist : Int := 17
def enotdir : Int := 20

/-- VFS_PATH_MAX and VFS_NAME_MAX. -/
def vfsPathMax : Nat := 4096
def vfsNameMax : Nat := 255

/-- The deepest symlink_depth vfs_open_internal accepts. -/
def symlinkDepthMax : Nat := 40

/-! ## The namespace -/

/-- What lookup and creation see of a node. -/
inductive NodeKind where
  | dir
  | file (data : List UInt8)
  | symlink (target : List Char)
  deriving DecidableEq, Repr

/-- The components of a path from the root. -/
abbrev Path := List (List Char)

/-- The node at each path below the root; the root is rootdir, a directory. -/
structure Namespace where
  node : Path → Option NodeKind

/-- The node at a path, the root included. -/
def Namespace.kind (ns : Namespace) (p : Path) : Option NodeKind := if p = [] then some .dir else ns.node p

/-- The namespace with the node k at p. -/
def Namespace.set (ns : Namespace) (p : Path) (k : NodeKind) : Namespace := ⟨Function.update ns.node p (some k)⟩

/-- The characters of a buffer up to its first NUL, as the string functions
read it. -/
def cstr (s : List Char) : CString :=
  ⟨s.takeWhile (· ≠ '\x00'), fun h => by
    simpa using List.all_eq_true.mp (List.all_takeWhile (l := s) (p := (· ≠ '\x00'))) _ h⟩

/-! ## Lookup -/

/-- vfs_resolve_link_path for a link under parent: an absolute target is
normalised as it stands, a relative one after the parent's absolute path
and a '/', refused when that would not fit VFS_PATH_MAX. -/
def resolveLinkPath (parent : Path) (linkname : List Char) : Option (List Char) :=
  if linkname.head? = some '/' then some (normalizePath (cstr linkname)).result
  else if (render '/' parent).length + linkname.length + 2 > vfsPathMax then none
  else some (normalizePath (cstr (render '/' parent ++ '/' :: linkname))).result

/-- The loop of vfs_open_internal over the tokens left, from current; a link
that is followed is opened by openLink, the call one level deeper. -/
def openWalk (ns : Namespace) (openLink : List Char → Option Path) (followFinal trailing : Bool) :
    Path → List (List Char) → Option Path
  | current, [] => some current
  | current, tok :: rest =>
    if ns.kind current ≠ some .dir then none
    else if tok = ['.'] then openWalk ns openLink followFinal trailing current rest
    else if tok = ['.', '.'] then openWalk ns openLink followFinal trailing current.dropLast rest
    else
      match ns.node (current ++ [tok]) with
      | none => none
      | some (.symlink target) =>
        -- follow_final || trailing_slash || *save_ptr != '\0'
        if followFinal || trailing || !rest.isEmpty then
          match resolveLinkPath current target >>= openLink with
          | none => none
          | some next => openWalk ns openLink followFinal trailing next rest
        else openWalk ns openLink followFinal trailing (current ++ [tok]) rest
      | some _ => openWalk ns openLink followFinal trailing (current ++ [tok]) rest

/-- vfs_open_internal(str, symlink_depth, follow_final), with budget
symlinkDepthMax + 1 - symlink_depth: at budget 0 the depth is exceeded. -/
def vfsOpenInternal (ns : Namespace) : Nat → List Char → Bool → Option Path
  | 0, _, _ => none
  | budget + 1, str, followFinal =>
    if str.head? ≠ some '/' then none
    else if str = ['/'] then some []
    else
      match openWalk ns (fun target => vfsOpenInternal ns budget target true) followFinal
          (str.getLast? = some '/') [] (tokens '/' str) with
      | none => none
      | some p => if str.getLast? = some '/' ∧ ns.kind p ≠ some .dir then none else some p

/-- vfs_open(str). -/
def vfsOpen (ns : Namespace) (str : List Char) : Option Path := vfsOpenInternal ns (symlinkDepthMax + 1) str true

/-- vfs_open_nofollow(str). -/
def vfsOpenNofollow (ns : Namespace) (str : List Char) : Option Path :=
  vfsOpenInternal ns (symlinkDepthMax + 1) str false

/-! ## Creation -/

/-- The trailing '/'s stripped, down to the leading one. -/
def stripTrailingSlashes (s : List Char) : List Char :=
  if s.reverse.dropWhile (· = '/') = [] then ['/'] else (s.reverse.dropWhile (· = '/')).reverse

/-- The characters after the last '/'. -/
def leafOf (s : List Char) : List Char := (s.reverse.takeWhile (· ≠ '/')).reverse

/-- The characters before the last '/', or "/" when that '/' is the first. -/
def parentOf (s : List Char) : List Char :=
  if ((s.reverse.dropWhile (· ≠ '/')).drop 1).reverse = [] then ['/']
  else ((s.reverse.dropWhile (· ≠ '/')).drop 1).reverse

/-- vfs_prepare_create(name, allow_trailing_slash): the directory the new
node goes in, opened with links followed, and the leaf name. -/
def vfsPrepareCreate (ns : Namespace) (name : List Char) (allowTrailingSlash : Bool) :
    Except Int (Path × List Char) :=
  if name = [] then .error (-enoent)
  else if name.head? ≠ some '/' then .error (-einval)
  else if name.length ≥ vfsPathMax then .error (-enametoolong)
  else if !allowTrailingSlash ∧ name.length > 1 ∧ name.getLast? = some '/' then .error (-enoent)
  else prepareLeaf ns (if allowTrailingSlash then stripTrailingSlashes name else name)
where
  /-- From the path with its trailing '/'s handled on. -/
  prepareLeaf (ns : Namespace) (path : List Char) : Except Int (Path × List Char) :=
    if path.length = 1 then .error (-eexist)
    else if leafOf path = [] then .error (-enoent)
    else if leafOf path = ['.'] ∨ leafOf path = ['.', '.'] then .error (-eexist)
    else if (leafOf path).length > vfsNameMax then .error (-enametoolong)
    else
      match vfsOpen ns (parentOf path) with
      | none => .error (-enoent)
      | some parent => if ns.kind parent ≠ some .dir then .error (-enotdir) else .ok (parent, leafOf path)

/-- The creators: prepare, then reserve the leaf (-EEXIST when a node holds
it) and add the node k there. -/
def vfsCreate (ns : Namespace) (name : List Char) (allowTrailingSlash : Bool) (k : NodeKind) :
    Except Int Namespace :=
  match vfsPrepareCreate ns name allowTrailingSlash with
  | .error e => .error e
  | .ok (parent, leaf) =>
    if (ns.node (parent ++ [leaf])).isSome then .error (-eexist) else .ok (ns.set (parent ++ [leaf]) k)

/-- vfs_mkdir_mode(name, mode). -/
def vfsMkdirMode (ns : Namespace) (name : List Char) : Except Int Namespace := vfsCreate ns name true .dir

/-- vfs_mkfile_mode(name, mode). -/
def vfsMkfileMode (ns : Namespace) (name : List Char) : Except Int Namespace := vfsCreate ns name false (.file [])

/-- vfs_symlink(name, target_name): an empty target is refused first. -/
def vfsSymlink (ns : Namespace) (name target : List Char) : Except Int Namespace :=
  if target = [] then .error (-enoent) else vfsCreate ns name false (.symlink target)

/-! ## The namespace, read -/

namespace Namespace

variable (ns : Namespace)

@[simp] theorem kind_nil : ns.kind [] = some .dir := rfl

theorem kind_of_ne_nil {p : Path} (h : p ≠ []) : ns.kind p = ns.node p := if_neg h

theorem set_node_of_ne {p q : Path} (k : NodeKind) (h : q ≠ p) : (ns.set p k).node q = ns.node q := by
  simp [set, Function.update_of_ne h]

theorem kind_set_of_ne {p q : Path} (k : NodeKind) (h : q ≠ p) : (ns.set p k).kind q = ns.kind q := by
  unfold kind
  rw [set_node_of_ne ns k h]

end Namespace

/-- Every node lies in a directory: the namespace is a tree under the root. -/
def WellFormed (ns : Namespace) : Prop := ∀ p k, ns.node p = some k → p ≠ [] ∧ ns.kind p.dropLast = some .dir

variable {ns ns' : Namespace}

/-- A node added at a free leaf of a directory keeps the namespace a tree. -/
theorem WellFormed.set (hw : WellFormed ns) {parent : Path} {leaf : List Char} (k : NodeKind)
    (hdir : ns.kind parent = some .dir) (hfree : ns.node (parent ++ [leaf]) = none) :
    WellFormed (ns.set (parent ++ [leaf]) k) := by
  have hne : parent ≠ parent ++ [leaf] := fun h => by simpa using congrArg List.length h
  intro p k' hp
  by_cases hpq : p = parent ++ [leaf]
  · subst hpq
    refine ⟨List.concat_ne_nil _ _, ?_⟩
    rw [List.dropLast_concat, Namespace.kind_set_of_ne ns k hne]
    exact hdir
  · rw [Namespace.set_node_of_ne ns k hpq] at hp
    obtain ⟨hp₀, hup⟩ := hw p k' hp
    refine ⟨hp₀, ?_⟩
    -- the directory above p is not the new node: that leaf was free
    have hup' : p.dropLast ≠ parent ++ [leaf] := by
      rintro hup'
      rw [hup', Namespace.kind_of_ne_nil ns (List.concat_ne_nil _ _), hfree] at hup
      cases hup
    rw [Namespace.kind_set_of_ne ns k hup']
    exact hup

/-- A node that is not a directory holds no children, so replacing it keeps
the namespace a tree. -/
theorem WellFormed.set_of_not_dir (hw : WellFormed ns) {p : Path} {k₀ : NodeKind} (hp : ns.node p = some k₀)
    (hk₀ : k₀ ≠ .dir) (k : NodeKind) : WellFormed (ns.set p k) := by
  obtain ⟨hp₀, hup⟩ := hw p k₀ hp
  have hne : p.dropLast ≠ p := fun h => by
    have := congrArg List.length h
    simp only [List.length_dropLast] at this
    have : p.length ≠ 0 := fun h0 => hp₀ (List.eq_nil_of_length_eq_zero h0)
    omega
  intro q k' hq
  by_cases hqp : q = p
  · subst hqp
    exact ⟨hp₀, by rw [Namespace.kind_set_of_ne ns k hne]; exact hup⟩
  · rw [Namespace.set_node_of_ne ns k hqp] at hq
    obtain ⟨hq₀, hqup⟩ := hw q k' hq
    -- the directory above q is not p, which is no directory
    have hqp' : q.dropLast ≠ p := by
      rintro h
      rw [h, Namespace.kind_of_ne_nil ns hp₀, hp] at hqup
      exact hk₀ (Option.some.inj hqup)
    exact ⟨hq₀, by rw [Namespace.kind_set_of_ne ns k hqp']; exact hqup⟩

/-! ## Lookup lands on nodes -/

section Lookup

variable {openLink : List Char → Option Path} {followFinal trailing : Bool}

end Lookup

/-! ## Creation -/

/-- A prepared creation names the directory vfs_open reaches from the
parent part of the path, links followed, and the leaf after the last '/'. -/
theorem prepareLeaf_eq_ok {path : List Char} {parent : Path} {leaf : List Char}
    (h : vfsPrepareCreate.prepareLeaf ns path = .ok (parent, leaf)) :
    vfsOpen ns (parentOf path) = some parent ∧ ns.kind parent = some .dir ∧ leaf = leafOf path := by
  unfold vfsPrepareCreate.prepareLeaf at h
  split at h
  · cases h
  split at h
  · cases h
  split at h
  · cases h
  split at h
  · cases h
  split at h
  · cases h
  · next q hq =>
    split at h
    · cases h
    · next hdir =>
      cases h
      exact ⟨hq, not_not.mp hdir, rfl⟩

theorem vfsPrepareCreate_eq_ok {name : List Char} {allowTrailingSlash : Bool} {parent : Path} {leaf : List Char}
    (h : vfsPrepareCreate ns name allowTrailingSlash = .ok (parent, leaf)) :
    ∃ path, vfsOpen ns (parentOf path) = some parent ∧ ns.kind parent = some .dir ∧ leaf = leafOf path := by
  unfold vfsPrepareCreate at h
  split at h
  · cases h
  split at h
  · cases h
  split at h
  · cases h
  split at h
  · cases h
  · exact ⟨_, prepareLeaf_eq_ok h⟩

/-- What a creation does: it adds k at a free leaf of the directory it
prepared, and nothing else. -/
theorem vfsCreate_eq_ok {name : List Char} {allowTrailingSlash : Bool} {k : NodeKind}
    (h : vfsCreate ns name allowTrailingSlash k = .ok ns') :
    ∃ parent leaf, vfsPrepareCreate ns name allowTrailingSlash = .ok (parent, leaf) ∧
      ns.node (parent ++ [leaf]) = none ∧ ns' = ns.set (parent ++ [leaf]) k := by
  unfold vfsCreate at h
  split at h
  · cases h
  · next parent leaf hprep =>
    split at h
    · cases h
    · next hfree =>
      cases h
      exact ⟨parent, leaf, hprep, Option.not_isSome_iff_eq_none.mp hfree, rfl⟩

theorem WellFormed.vfsCreate (hw : WellFormed ns) {name : List Char} {allowTrailingSlash : Bool} {k : NodeKind}
    (h : vfsCreate ns name allowTrailingSlash k = .ok ns') : WellFormed ns' := by
  obtain ⟨parent, leaf, hprep, hfree, rfl⟩ := vfsCreate_eq_ok h
  obtain ⟨_, _, hdir, _⟩ := vfsPrepareCreate_eq_ok hprep
  exact hw.set k hdir hfree

theorem WellFormed.vfsSymlink (hw : WellFormed ns) {name target : List Char} (h : vfsSymlink ns name target = .ok ns') :
    WellFormed ns' := by
  unfold Vfs.vfsSymlink at h
  split at h
  · cases h
  · exact hw.vfsCreate h

end Uinxed.Vfs
