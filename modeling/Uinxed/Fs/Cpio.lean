/-
  Fs/Cpio.lean --- the walk of init_cpio over a newc initramfs
  (cpio_read_hex, cpio_advance_aligned, cpio_make_path, cpio_ensure_parents,
  cpio_install_entry and the loop of init_cpio, src/fs/cpio/cpio.c).

  The archive is the byte string after decompression.  Each entry is a
  110-byte header of hex fields, the name padded to a multiple of 4, and
  the data padded the same way; cpioEntry is one turn of the loop, with
  every check in the order of the source, and initCpioLoop runs it while
  the offset is inside the archive.

  An entry installs only the path cpio_make_path built from its name, and
  init_cpio skips "/dev" and every path under "/dev/" since devtmpfs owns
  them.  That test is on the name as written.  cpio_ensure_parents and the
  creators open the parent part of the path with links followed, so a
  symlink that an earlier entry planted outside /dev leads a later entry
  into /dev (init_cpio_installs_under_dev_through_link).
-/
import Mathlib.Algebra.GroupWithZero.Nat
import Uinxed.Fs.VfsNamespace

set_option autoImplicit false

namespace Uinxed.Cpio

open Uinxed.Vfs

/-! ## Constants -/

def eio : Int := 5
def ebadmsg : Int := 74
def eopnotsupp : Int := 95

def cpioModeIfmt : Nat := 0o170000
def cpioModeIfreg : Nat := 0o100000
def cpioModeIfdir : Nat := 0o040000
def cpioModeIflnk : Nat := 0o120000
def cpioNameMax : Nat := 4096
def cpioHeaderSize : Nat := 110

/-- SIZE_MAX. -/
def sizeMax : Nat := 2 ^ 64 - 1

/-- "070701" and "070702". -/
def newcMagic : List UInt8 := [0x30, 0x37, 0x30, 0x37, 0x30, 0x31]
def newcCrcMagic : List UInt8 := [0x30, 0x37, 0x30, 0x37, 0x30, 0x32]

/-- A byte of the archive as a character of a name. -/
def byteChar (b : UInt8) : Char := Char.ofNat b.toNat

/-! ## Reading a header -/

/-- The value of one hex digit. -/
def hexDigit (c : UInt8) : Option Nat :=
  if 0x30 ≤ c.toNat ∧ c.toNat ≤ 0x39 then some (c.toNat - 0x30)
  else if 0x61 ≤ c.toNat ∧ c.toNat ≤ 0x66 then some (c.toNat - 0x61 + 10)
  else if 0x41 ≤ c.toNat ∧ c.toNat ≤ 0x46 then some (c.toNat - 0x41 + 10)
  else none

/-- cpio_read_hex(text, count): value = (value << 4) | digit in uint32_t. -/
def cpioReadHex (text : List UInt8) : Option Nat :=
  if text.length > 8 then none
  else text.foldlM (fun value c => (hexDigit c).map fun digit => (value <<< 4 ||| digit) % 2 ^ 32) 0

/-- The fields of a newc header the loop uses. -/
structure CpioHeader where
  crc : Bool
  namesize : Nat
  filesize : Nat
  mode : Nat
  check : Nat
  deriving DecidableEq, Repr

/-- The 8-digit field at off of a header. -/
def headerField (header : List UInt8) (off : Nat) : List UInt8 := (header.drop off).take 8

/-- The magic test and the seven cpio_read_hex calls, in the source's order
(c_namesize, c_filesize, c_mode, c_uid, c_gid, c_mtime, c_check); uid, gid
and mtime go only to the metadata. -/
def cpioParseHeader (header : List UInt8) : Option CpioHeader :=
  if header.take 6 ≠ newcCrcMagic ∧ header.take 6 ≠ newcMagic then none
  else do
    let namesize ← cpioReadHex (headerField header 94)
    let filesize ← cpioReadHex (headerField header 54)
    let mode ← cpioReadHex (headerField header 14)
    let _ ← cpioReadHex (headerField header 22)
    let _ ← cpioReadHex (headerField header 30)
    let _ ← cpioReadHex (headerField header 46)
    let check ← cpioReadHex (headerField header 102)
    pure ⟨header.take 6 = newcCrcMagic, namesize, filesize, mode, check⟩

/-- cpio_advance_aligned(&offset, amount, limit): the offset after amount
bytes and the padding to a multiple of 4, when it stays within limit. -/
def cpioAdvanceAligned (offset amount limit : Nat) : Option Nat :=
  if offset > limit ∨ amount > limit - offset then none
  else if offset + amount > sizeMax - 3 then none
  -- (next + 3) & ~(size_t)3
  else if (offset + amount + 3) / 4 * 4 > limit then none
  else some ((offset + amount + 3) / 4 * 4)

/-! ## The path of an entry -/

/-- Leading "./" pairs removed. -/
def stripDotSlash : List Char → List Char
  | '.' :: '/' :: rest => stripDotSlash rest
  | s => s

/-- A component the scan of cpio_make_path accepts. -/
def componentOk (c : List Char) : Bool := c ≠ [] ∧ c ≠ ['.'] ∧ c ≠ ['.', '.']

/-- cpio_make_path over archive_name[0..namesize): "/" and the name without
its NUL and leading "./" pairs, refused when absolute, empty or holding an
empty, "." or ".." component; the name "." alone gives "/.". -/
def cpioMakePath (raw : List Char) : Option (List Char) :=
  if raw.length < 2 ∨ raw.length > cpioNameMax ∨ raw.getLast? ≠ some '\x00' then none
  else if '\x00' ∈ raw.dropLast then none
  else makeName (stripDotSlash raw.dropLast)
where
  /-- After the "./" pairs are gone. -/
  makeName (name : List Char) : Option (List Char) :=
    if name = [] ∨ name.head? = some '/' ∨ name.length > cpioNameMax then none
    else if name = ['.'] then some ['/', '.']
    -- the scan over each component between '/'s
    else if (name.splitOn '/').all componentOk then some ('/' :: name)
    else none

/-! ## Installing an entry -/

/-- A creation whose -EEXIST the caller accepts. -/
def allowExisting (ns : Namespace) : Except Int Namespace → Int × Namespace
  | .ok ns' => (eok, ns')
  | .error e => if e = -eexist then (eok, ns) else (e, ns)

/-- The loop of cpio_ensure_parents over the '/'s at the given positions. -/
def ensureParentsAt (path : List Char) : List Nat → Namespace → Int × Namespace
  | [], ns => (eok, ns)
  | k :: ks, ns =>
    match allowExisting ns (vfsMkdirMode ns (path.take k)) with
    | (status, ns') => if status ≠ eok then (status, ns') else ensureParentsAt path ks ns'

/-- The positions strchr(path + 1, '/') and its successors visit. -/
def slashPositions (path : List Char) : List Nat :=
  (List.range path.length).filter fun k => 0 < k ∧ path.getD k ' ' = '/'

/-- cpio_ensure_parents(path): vfs_mkdir_mode of every proper prefix that
ends before a '/'. -/
def cpioEnsureParents (ns : Namespace) (path : List Char) : Int × Namespace :=
  ensureParentsAt path (slashPositions path) ns

/-- The node of cpio_install_entry once the parents are there; the
metadata it sets is not modelled, and both ways of filling a regular file
(adopting the archive's bytes or writing a copy) leave the file's data. -/
def installNode (ns : Namespace) (path : List Char) (mode : Nat) (filedata : List UInt8) : Int × Namespace :=
  if mode &&& cpioModeIfmt = cpioModeIfdir then
    match allowExisting ns (vfsMkdirMode ns path) with
    | (status, ns) =>
      if status ≠ eok then (status, ns)
      else match vfsOpen ns path with
        | none => (-enoent, ns)
        | some node => if ns.kind node ≠ some .dir then (-enotdir, ns) else (eok, ns)
  else if mode &&& cpioModeIfmt = cpioModeIflnk then
    if 0 ∈ filedata then (-einval, ns)
    else match allowExisting ns (vfsSymlink ns path (filedata.map byteChar)) with
      | (status, ns) =>
        if status ≠ eok then (status, ns)
        else match vfsOpenNofollow ns path with
          | none => (-enoent, ns)
          | some _ => (eok, ns)
  else if mode &&& cpioModeIfmt ≠ cpioModeIfreg then (-eopnotsupp, ns)
  else
    match allowExisting ns (vfsMkfileMode ns path) with
    | (status, ns) =>
      if status ≠ eok then (status, ns)
      else match vfsOpen ns path with
        | none => (-enoent, ns)
        | some node =>
          match ns.kind node with
          | some (.file _) => (eok, ns.set node (.file filedata))
          | _ => (-einval, ns)

/-- cpio_install_entry(path, mode, ..., filedata, filesize, zero_copy). -/
def cpioInstallEntry (ns : Namespace) (path : List Char) (mode : Nat) (filedata : List UInt8) : Int × Namespace :=
  match cpioEnsureParents ns path with
  | (status, ns) => if status ≠ eok then (status, ns) else installNode ns path mode filedata

/-! ## The loop of init_cpio -/

/-- "/TRAILER!!!", "/.", "/dev" and "/dev/". -/
def trailerPath : List Char := "/TRAILER!!!".toList
def dotPath : List Char := ['/', '.']
def devPath : List Char := ['/', 'd', 'e', 'v']
def devPrefix : List Char := ['/', 'd', 'e', 'v', '/']

/-- The byte-sum checksum of the 070702 format, in uint32_t. -/
def cpioDataChecksum (data : List UInt8) : Nat := (data.map UInt8.toNat).sum % 2 ^ 32

/-- How one turn of the loop ends: on to the next entry, or out of the loop
with the failure and whether the trailer was seen. -/
inductive CpioStep where
  | next (offset entries : Nat) (ns : Namespace)
  | stop (failure : Int) (trailer : Bool) (entries : Nat) (ns : Namespace)

/-- The bytes [off, off + n) of the archive. -/
def slice (archive : List UInt8) (off n : Nat) : List UInt8 := (archive.drop off).take n

/-- What the loop does with a path that passed every check. -/
def cpioDispatch (next entries : Nat) (ns : Namespace) (path : List Char) (mode : Nat) (filedata : List UInt8) :
    CpioStep :=
  if path = trailerPath then .stop eok true entries ns
  else if path = dotPath then .next next entries ns
  -- devtmpfs owns /dev
  else if path = devPath ∨ devPrefix.isPrefixOf path then .next next entries ns
  else
    match cpioInstallEntry ns path mode filedata with
    | (status, ns) =>
      if status = -eopnotsupp then .next next entries ns
      else if status ≠ eok then .stop status false entries ns
      else .next next (entries + 1) ns

/-- One turn of the loop from offset (below the archive's size). -/
def cpioEntry (archive : List UInt8) (offset entries : Nat) (ns : Namespace) : CpioStep :=
  if archive.length - offset < cpioHeaderSize then .stop (-ebadmsg) false entries ns
  else
    match cpioParseHeader (slice archive offset cpioHeaderSize) with
    | none => .stop (-ebadmsg) false entries ns
    | some h =>
      if h.namesize = 0 ∨ h.namesize > cpioNameMax ∨ h.namesize > archive.length - (offset + cpioHeaderSize) then
        .stop (-ebadmsg) false entries ns
      else
        match cpioMakePath ((slice archive (offset + cpioHeaderSize) h.namesize).map byteChar) with
        | none => .stop (-einval) false entries ns
        | some path =>
          match cpioAdvanceAligned (offset + cpioHeaderSize) h.namesize archive.length with
          | none => .stop (-ebadmsg) false entries ns
          | some dataOffset =>
            if h.filesize > archive.length - dataOffset then .stop (-ebadmsg) false entries ns
            else if h.crc ∧ cpioDataChecksum (slice archive dataOffset h.filesize) ≠ h.check then
              .stop (-ebadmsg) false entries ns
            else
              match cpioAdvanceAligned dataOffset h.filesize archive.length with
              | none => .stop (-ebadmsg) false entries ns
              | some next => cpioDispatch next entries ns path h.mode (slice archive dataOffset h.filesize)

/-- What the loop leaves: the failure, whether the trailer was seen, the
entries installed, and the namespace. -/
structure CpioResult where
  failure : Int
  trailer : Bool
  entries : Nat
  ns : Namespace

/-- while (offset < size), with fuel for the turns. -/
def initCpioLoop (archive : List UInt8) : Nat → Nat → Nat → Namespace → CpioResult
  | 0, _, entries, ns => ⟨eok, false, entries, ns⟩
  | fuel + 1, offset, entries, ns =>
    if offset < archive.length then
      match cpioEntry archive offset entries ns with
      | .next offset entries ns => initCpioLoop archive fuel offset entries ns
      | .stop failure trailer entries ns => ⟨failure, trailer, entries, ns⟩
    else ⟨eok, false, entries, ns⟩

/-- The walk of init_cpio over an archive that get_compression_type found
to be newc; every turn moves at least one header on, so size turns are
enough. -/
def initCpio (archive : List UInt8) (ns : Namespace) : CpioResult :=
  initCpioLoop archive archive.length 0 0 ns

/-! ## One turn of the loop -/

/-- The namespace a turn leaves. -/
def CpioStep.ns : CpioStep → Namespace
  | .next _ _ ns => ns
  | .stop _ _ _ ns => ns

/-- An accepted advance moves past the amount and stays within the limit. -/
theorem cpioAdvanceAligned_eq_some {offset amount limit next : Nat} (h : cpioAdvanceAligned offset amount limit = some next) :
    offset + amount ≤ next ∧ next ≤ limit ∧ next % 4 = 0 := by
  unfold cpioAdvanceAligned at h
  split at h
  · cases h
  split at h
  · cases h
  split at h
  · cases h
  · next hle =>
    cases h
    omega

/-- What a turn can do: stop on a failed check with the namespace as it
was, or hand a checked entry to cpioDispatch.  A checked entry's header,
name and data lie inside the archive, in that order, and a 070702 entry's
data sums to its c_check. -/
theorem cpioEntry_cases {archive : List UInt8} {offset entries : Nat} {ns : Namespace} {s : CpioStep}
    (h : cpioEntry archive offset entries ns = s) :
    (∃ failure, s = .stop failure false entries ns) ∨
      ∃ hdr path dataOffset next,
        cpioParseHeader (slice archive offset cpioHeaderSize) = some hdr ∧
        cpioMakePath ((slice archive (offset + cpioHeaderSize) hdr.namesize).map byteChar) = some path ∧
        offset + cpioHeaderSize + hdr.namesize ≤ dataOffset ∧ dataOffset + hdr.filesize ≤ next ∧
        next ≤ archive.length ∧
        (hdr.crc = true → cpioDataChecksum (slice archive dataOffset hdr.filesize) = hdr.check) ∧
        s = cpioDispatch next entries ns path hdr.mode (slice archive dataOffset hdr.filesize) := by
  unfold cpioEntry at h
  -- each check that fails stops the loop at once
  split at h
  · exact .inl ⟨_, h.symm⟩
  split at h
  · exact .inl ⟨_, h.symm⟩
  · next hdr hhdr =>
    split at h
    · exact .inl ⟨_, h.symm⟩
    split at h
    · exact .inl ⟨_, h.symm⟩
    · next path hpath =>
      split at h
      · exact .inl ⟨_, h.symm⟩
      · next dataOffset hdata =>
        split at h
        · exact .inl ⟨_, h.symm⟩
        · next hfits =>
          split at h
          · exact .inl ⟨_, h.symm⟩
          · next hsum =>
            split at h
            · exact .inl ⟨_, h.symm⟩
            · next next hnext =>
              obtain ⟨hd₁, -, -⟩ := cpioAdvanceAligned_eq_some hdata
              obtain ⟨hn₁, hn₂, -⟩ := cpioAdvanceAligned_eq_some hnext
              refine .inr ⟨hdr, path, dataOffset, next, hhdr, hpath, hd₁, hn₁, hn₂, fun hcrc => ?_, h.symm⟩
              by_contra hne
              exact hsum ⟨hcrc, hne⟩

/-- A dispatched entry goes on from the offset it was given, and its
namespace is the one it was given or the one its install left. -/
theorem cpioDispatch_cases {next entries : Nat} {ns : Namespace} {path : List Char} {mode : Nat}
    {filedata : List UInt8} :
    (∀ offset' entries' ns', cpioDispatch next entries ns path mode filedata = .next offset' entries' ns' →
      offset' = next) ∧
      ((cpioDispatch next entries ns path mode filedata).ns = ns ∨
        (cpioDispatch next entries ns path mode filedata).ns = (cpioInstallEntry ns path mode filedata).2) := by
  unfold cpioDispatch
  split
  · exact ⟨fun _ _ _ h => (by cases h), .inl rfl⟩
  split
  · exact ⟨fun _ _ _ h => (by cases h; rfl), .inl rfl⟩
  split
  · exact ⟨fun _ _ _ h => (by cases h; rfl), .inl rfl⟩
  · rcases cpioInstallEntry ns path mode filedata with ⟨status, ns'⟩
    dsimp only
    split
    · exact ⟨fun _ _ _ h => (by cases h; rfl), .inr rfl⟩
    split
    · exact ⟨fun _ _ _ h => (by cases h), .inr rfl⟩
    · exact ⟨fun _ _ _ h => (by cases h; rfl), .inr rfl⟩

/-- Every turn that goes on moves forward, and stays inside the archive. -/
theorem cpioEntry_next {archive : List UInt8} {offset entries offset' entries' : Nat} {ns ns' : Namespace}
    (h : cpioEntry archive offset entries ns = .next offset' entries' ns') : offset < offset' ∧ offset' ≤ archive.length := by
  rcases cpioEntry_cases h with ⟨_, hs⟩ | ⟨hdr, path, dataOffset, next, -, -, hd, hn, hlen, -, hs⟩
  · cases hs
  · have := cpioDispatch_cases.1 _ _ _ hs.symm
    unfold cpioHeaderSize at hd
    omega

/-- The loop stops for a reason of its own, not for want of fuel: with fuel
for the bytes left, more fuel changes nothing. -/
theorem initCpioLoop_enough (archive : List UInt8) :
    ∀ fuel offset entries ns, archive.length - offset ≤ fuel →
      initCpioLoop archive (fuel + 1) offset entries ns = initCpioLoop archive fuel offset entries ns
  | 0, offset, entries, ns, hf => by
    rw [initCpioLoop, initCpioLoop, if_neg (by omega)]
  | fuel + 1, offset, entries, ns, hf => by
    rw [initCpioLoop, initCpioLoop]
    split
    · rcases he : cpioEntry archive offset entries ns with ⟨offset', entries', ns'⟩ | ⟨failure, trailer, entries', ns'⟩
      · dsimp only
        obtain ⟨hlt, -⟩ := cpioEntry_next he
        exact initCpioLoop_enough archive fuel offset' entries' ns' (by omega)
      · rfl
    · rfl

/-! ## The namespace stays a tree -/

section Tree

variable {ns : Namespace}

theorem wellFormed_allowExisting (hw : WellFormed ns) {r : Except Int Namespace}
    (hr : ∀ ns', r = .ok ns' → WellFormed ns') : WellFormed (allowExisting ns r).2 := by
  cases r with
  | ok ns' => exact hr ns' rfl
  | error e =>
    dsimp only [allowExisting]
    split <;> exact hw

theorem wellFormed_mkdir (hw : WellFormed ns) (name : List Char) :
    WellFormed (allowExisting ns (vfsMkdirMode ns name)).2 :=
  wellFormed_allowExisting hw fun _ h => hw.vfsCreate h

theorem wellFormed_mkfile (hw : WellFormed ns) (name : List Char) :
    WellFormed (allowExisting ns (vfsMkfileMode ns name)).2 :=
  wellFormed_allowExisting hw fun _ h => hw.vfsCreate h

theorem wellFormed_symlink (hw : WellFormed ns) (name target : List Char) :
    WellFormed (allowExisting ns (vfsSymlink ns name target)).2 :=
  wellFormed_allowExisting hw fun _ h => hw.vfsSymlink h

theorem wellFormed_ensureParentsAt (path : List Char) :
    ∀ (ks : List Nat) (ns : Namespace), WellFormed ns → WellFormed (ensureParentsAt path ks ns).2
  | [], _, hw => hw
  | k :: ks, ns, hw => by
    rw [ensureParentsAt]
    have hw' := wellFormed_mkdir hw (path.take k)
    rcases hA : allowExisting ns (vfsMkdirMode ns (path.take k)) with ⟨status, ns'⟩
    rw [hA] at hw'
    dsimp only at hw' ⊢
    split
    · exact hw'
    · exact wellFormed_ensureParentsAt path ks ns' hw'

theorem wellFormed_installNode (hw : WellFormed ns) (path : List Char) (mode : Nat) (filedata : List UInt8) :
    WellFormed (installNode ns path mode filedata).2 := by
  unfold installNode
  split
  · -- a directory: every outcome keeps what vfs_mkdir_mode left
    have hw' := wellFormed_mkdir hw path
    rcases hA : allowExisting ns (vfsMkdirMode ns path) with ⟨status, ns'⟩
    rw [hA] at hw'
    dsimp only at hw' ⊢
    split
    · exact hw'
    · split
      · exact hw'
      · split <;> exact hw'
  split
  · -- a symlink
    split
    · exact hw
    · have hw' := wellFormed_symlink hw path (filedata.map byteChar)
      rcases hA : allowExisting ns (vfsSymlink ns path (filedata.map byteChar)) with ⟨status, ns'⟩
      rw [hA] at hw'
      dsimp only at hw' ⊢
      split
      · exact hw'
      · split <;> exact hw'
  split
  · exact hw
  · -- a regular file: its data replaces the data of the file the path opens to
    have hw' := wellFormed_mkfile hw path
    rcases hA : allowExisting ns (vfsMkfileMode ns path) with ⟨status, ns'⟩
    rw [hA] at hw'
    dsimp only at hw' ⊢
    split
    · exact hw'
    · split
      · exact hw'
      · next node _ =>
        split
        · next data hk =>
          have hnode : node ≠ [] := by
            rintro rfl
            simp at hk
          rw [Namespace.kind_of_ne_nil ns' hnode] at hk
          exact hw'.set_of_not_dir hk (by simp) _
        · exact hw'

theorem wellFormed_cpioInstallEntry (hw : WellFormed ns) (path : List Char) (mode : Nat) (filedata : List UInt8) :
    WellFormed (cpioInstallEntry ns path mode filedata).2 := by
  unfold cpioInstallEntry
  have hw' := wellFormed_ensureParentsAt path (slashPositions path) ns hw
  rcases hA : cpioEnsureParents ns path with ⟨status, ns'⟩
  rw [cpioEnsureParents] at hA
  rw [hA] at hw'
  dsimp only at hw' ⊢
  split
  · exact hw'
  · exact wellFormed_installNode hw' path mode filedata

theorem wellFormed_cpioEntry (hw : WellFormed ns) (archive : List UInt8) (offset entries : Nat) :
    WellFormed (cpioEntry archive offset entries ns).ns := by
  rcases cpioEntry_cases (rfl : cpioEntry archive offset entries ns = _) with
    ⟨_, hs⟩ | ⟨_, _, _, _, -, -, -, -, -, -, hs⟩
  · rw [hs]
    exact hw
  · rw [hs]
    rcases cpioDispatch_cases.2 with h | h
    · rw [h]
      exact hw
    · rw [h]
      exact wellFormed_cpioInstallEntry hw _ _ _

/-- Every turn keeps the namespace a tree, and so does the whole walk. -/
theorem wellFormed_initCpioLoop (archive : List UInt8) :
    ∀ fuel offset entries (ns : Namespace), WellFormed ns → WellFormed (initCpioLoop archive fuel offset entries ns).ns
  | 0, _, _, _, hw => hw
  | fuel + 1, offset, entries, ns, hw => by
    rw [initCpioLoop]
    split
    · have h := wellFormed_cpioEntry hw archive offset entries
      rcases he : cpioEntry archive offset entries ns with ⟨offset', entries', ns'⟩ | ⟨_, _, _, ns'⟩
      · rw [he] at h
        exact wellFormed_initCpioLoop archive fuel offset' entries' ns' h
      · rw [he] at h
        exact h
    · exact hw

end Tree

/-! ## A link into /dev -/

/-- The hex digits of a field. -/
def hexField (n : Nat) : List UInt8 :=
  (List.range 8).reverse.map fun i => "0123456789abcdef".toList.getD (n / 16 ^ i % 16) '0' |>.toNat.toUInt8

/-- A 070701 entry with the given mode, name and data, padded as newc
writers pad. -/
def newcEntry (mode : Nat) (name : List Char) (data : List UInt8) : List UInt8 :=
  let header := newcMagic ++ hexField 0 ++ hexField mode ++ hexField 0 ++ hexField 0 ++ hexField 1 ++
    hexField 0 ++ hexField data.length ++ hexField 0 ++ hexField 0 ++ hexField 0 ++ hexField 0 ++
    hexField (name.length + 1) ++ hexField 0
  let named := header ++ name.map (·.toNat.toUInt8) ++ [0]
  let padded := named ++ List.replicate ((4 - named.length % 4) % 4) 0
  padded ++ data ++ List.replicate ((4 - data.length % 4) % 4) 0

/-- A symlink d to /dev, a file d/x, and the trailer. -/
def devLinkArchive : List UInt8 :=
  newcEntry 0o120777 ['d'] ("/dev".toList.map (·.toNat.toUInt8)) ++ newcEntry 0o100644 ['d', '/', 'x'] [] ++
    newcEntry 0 "TRAILER!!!".toList []

/-- The namespace devtmpfs_init leaves before init_cpio: /dev. -/
def devNamespace : Namespace := ⟨fun p => if p = [['d', 'e', 'v']] then some .dir else none⟩

theorem init_cpio_installs_under_dev_through_link :
    (initCpio devLinkArchive devNamespace).failure = eok ∧ (initCpio devLinkArchive devNamespace).trailer = true ∧
      devNamespace.node [['d', 'e', 'v'], ['x']] = none ∧
      (initCpio devLinkArchive devNamespace).ns.node [['d', 'e', 'v'], ['x']] = some (.file []) := by
  decide +kernel

/-- /dev is a tree, and so is what init_cpio makes of it with this archive. -/
theorem wellFormed_initCpioLoop_devLinkArchive :
    WellFormed devNamespace ∧ WellFormed (initCpioLoop devLinkArchive devLinkArchive.length 0 0 devNamespace).ns := by
  have hw : WellFormed devNamespace := by
    intro p k hk
    have hp : p = [['d', 'e', 'v']] := by
      by_contra hne
      simp [devNamespace, hne] at hk
    subst hp
    exact ⟨List.cons_ne_nil _ _, rfl⟩
  exact ⟨hw, wellFormed_initCpioLoop devLinkArchive devLinkArchive.length 0 0 devNamespace hw⟩

end Uinxed.Cpio
