/-
  Process/ElfInfo.lean --- the header checks and the program-header walk of
  an in-memory image (validate_ehdr, validate_elf and
  elf_loader_parse_elf_info, src/kernel/process/elf_loader.c).

  The image is data[0..size); data is the memory seen from the image's first
  byte, and an address data + o is the offset o modulo 2^64, since pointer
  arithmetic wraps.  Every byte the code reads is logged (TraceM) at its
  offset, so where the code reads is a statement about the log (LogsIn).

  validate_ehdr bounds the program headers by a division, so the header and
  every program header lie inside the image (returns_validateEhdr,
  logsIn_phdrLoop).  The PT_INTERP check adds p_offset to p_filesz in 64
  bits, and when the sum wraps it passes with interp = data + p_offset below
  the image.  So the walk reads inside the image or among the 256 bytes
  below it (logsIn_elfLoaderParseElfInfo), and interp_path is a NUL-terminated
  copy that lies inside the image or starts below it
  (returns_elfLoaderParseElfInfo).  The image
  interpWrapImage takes the second way.
-/
import Uinxed.Process.ElfLoader

set_option autoImplicit false

namespace Uinxed.Process

open TraceExcept

/-! ## Constants -/

def elfMagic : Nat := 0x464c457f
def etExec : Nat := 2
def etDyn : Nat := 3
def emX8664 : Nat := 0x3e
def ptDynamic : Nat := 2
def ptInterp : Nat := 3
def ptTls : Nat := 7

/-- sizeof(Elf64_Ehdr) and sizeof(Elf64_Phdr). -/
def ehdrSize : Nat := 64
def phdrSize : Nat := 56

/-- sizeof(info->interp_path). -/
def interpPathSize : Nat := 256

/-! ## Reading the image -/

/-- A computation that reads the image and logs the offset of every byte. -/
abbrev ElfM (α : Type) : Type := TraceM Int Nat α

/-- The byte at data + off. -/
def readByte (data : Nat → UInt8) (off : Nat) : ElfM UInt8 := do
  TraceM.record (off % 2 ^ 64)
  pure (data (off % 2 ^ 64))

/-- The n bytes at data + off, in order (a memcpy of n bytes). -/
def readBytes (data : Nat → UInt8) : Nat → Nat → ElfM (List UInt8)
  | _, 0 => pure []
  | off, n + 1 => do
    let b ← readByte data off
    let bs ← readBytes data (off + 1) n
    pure (b :: bs)

/-- The little-endian value of some bytes. -/
def leValue : List UInt8 → Nat
  | [] => 0
  | b :: bs => b.toNat + 256 * leValue bs

/-- A little-endian field of n bytes at data + off. -/
def readLe (data : Nat → UInt8) (off n : Nat) : ElfM Nat := do
  let bs ← readBytes data off n
  pure (leValue bs)

/-! ## The header -/

/-- return -ENOEXEC when c holds: every check of the header and of the
PT_INTERP entry fails this way. -/
def rejectIf (c : Prop) [Decidable c] : ElfM Unit := if c then throw (-enoexec) else pure ()

/-- validate_ehdr(data, size), after validate_elf's own size check: the
fields in the order the source tests them. -/
def validateEhdr (data : Nat → UInt8) (size : Nat) : ElfM Unit := do
  rejectIf (size < ehdrSize)
  rejectIf ((← readLe data 0 4) ≠ elfMagic)
  rejectIf ((← readLe data 4 1) ≠ 2)
  rejectIf ((← readLe data 5 1) ≠ 1)
  rejectIf ((← readLe data 6 1) ≠ 1)
  rejectIf ((← readLe data 18 2) ≠ emX8664)
  let type ← readLe data 16 2
  rejectIf (type ≠ etExec ∧ type ≠ etDyn)
  rejectIf ((← readLe data 54 2) ≠ phdrSize)
  let phoff ← readLe data 32 8
  rejectIf (phoff > size)
  let phnum ← readLe data 56 2
  rejectIf (phnum > (size - phoff) / phdrSize)

/-- elf_load_info_t as elf_loader_parse_elf_info fills it; interp_path is
the bytes copied into it (the rest is zero). -/
structure ElfLoadInfo where
  entry : Nat
  phdr : Nat
  phnum : Nat
  phentsize : Nat
  isDynamic : Bool
  hasInterp : Bool
  interpPath : List UInt8
  tlsAlign : Nat
  tlsSize : Nat
  tlsVaddr : Nat
  ptDynamicVaddr : Nat
  deriving DecidableEq, Repr

/-! ## The program headers -/

/-- The PT_INTERP case: a path of 2 to 255 bytes whose end passes the (64-bit)
bound check must end in NUL, and is copied. -/
def parseInterp (data : Nat → UInt8) (size base : Nat) (info : ElfLoadInfo) : ElfM ElfLoadInfo := do
  rejectIf info.hasInterp
  let filesz ← readLe data (base + 32) 8
  if 1 < filesz ∧ filesz < interpPathSize then
    let offset ← readLe data (base + 8) 8
    -- phdr[i].offset + phdr[i].filesz > size, in uint64_t
    if (offset + filesz) % 2 ^ 64 > size then pure info
    else
      rejectIf ((← readByte data (offset + (filesz - 1))) ≠ 0)
      let path ← readBytes data offset filesz
      pure { info with interpPath := path, hasInterp := true }
  else pure info

/-- The switch on phdr[i].type, with phdr[i] at data + base. -/
def parsePhdr (data : Nat → UInt8) (size base : Nat) (info : ElfLoadInfo) : ElfM ElfLoadInfo := do
  let type ← readLe data base 4
  if type = ptInterp then parseInterp data size base info
  else if type = ptDynamic then
    let vaddr ← readLe data (base + 16) 8
    pure { info with isDynamic := true, ptDynamicVaddr := vaddr }
  else if type = ptTls then
    let vaddr ← readLe data (base + 16) 8
    let memsz ← readLe data (base + 40) 8
    let align ← readLe data (base + 48) 8
    pure { info with tlsVaddr := vaddr, tlsSize := memsz, tlsAlign := align }
  else pure info

/-- for (int i = 0; i < e_phnum; i++), from phdr[i] for the count left. -/
def phdrLoop (data : Nat → UInt8) (size phoff : Nat) : Nat → Nat → ElfLoadInfo → ElfM ElfLoadInfo
  | 0, _, info => pure info
  | left + 1, i, info => do
    let info ← parsePhdr data size (phoff + i * phdrSize) info
    phdrLoop data size phoff left (i + 1) info

/-- elf_loader_parse_elf_info(data, size, info). -/
def elfLoaderParseElfInfo (data : Nat → UInt8) (size : Nat) : ElfM ElfLoadInfo := do
  validateEhdr data size
  let entry ← readLe data 24 8
  let phoff ← readLe data 32 8
  let phnum ← readLe data 56 2
  let phentsize ← readLe data 54 2
  let info : ElfLoadInfo :=
    { entry := entry, phdr := phoff, phnum := phnum, phentsize := phentsize, isDynamic := false,
      hasInterp := false, interpPath := [], tlsAlign := 0, tlsSize := 0, tlsVaddr := 0, ptDynamicVaddr := 0 }
  phdrLoop data size phoff phnum 0 info

/-! ## Reading -/

variable {data : Nat → UInt8}

/-- The value readLe returns: the little-endian field of n bytes at data + off. -/
def fieldLe (data : Nat → UInt8) (off n : Nat) : Nat :=
  leValue ((List.range n).map fun i => data ((off + i) % 2 ^ 64))

theorem logsIn_rejectIf {S : Nat → Prop} (c : Prop) [Decidable c] : LogsIn S (rejectIf c) := by
  unfold rejectIf
  split
  · exact logsIn_throw _
  · exact logsIn_pure _

theorem returns_rejectIf (c : Prop) [Decidable c] : Returns (fun _ => ¬c) (rejectIf c) := by
  unfold rejectIf
  split
  · exact returns_throw _
  · next hc => exact returns_pure hc

theorem logsIn_readByte {S : Nat → Prop} {off : Nat} (h : S (off % 2 ^ 64)) : LogsIn S (readByte data off) :=
  logsIn_bind (logsIn_record h) fun _ => logsIn_pure _

theorem returns_readByte (off : Nat) : Returns (· = data (off % 2 ^ 64)) (readByte data off) :=
  returns_bind (returns_record _) fun _ _ => returns_pure rfl

theorem logsIn_readBytes {S : Nat → Prop} : ∀ {off n : Nat}, (∀ j < n, S ((off + j) % 2 ^ 64)) →
    LogsIn S (readBytes data off n)
  | _, 0, _ => logsIn_pure _
  | off, n + 1, h => by
    have h₀ : S (off % 2 ^ 64) := by simpa using h 0 (by omega)
    have h₁ : ∀ j < n, S ((off + 1 + j) % 2 ^ 64) := fun j hj => by
      rw [Nat.add_assoc, Nat.add_comm 1 j]
      exact h (j + 1) (by omega)
    exact logsIn_bind (logsIn_readByte h₀) fun _ => logsIn_bind (logsIn_readBytes h₁) fun _ => logsIn_pure _

/-- memcpy of n bytes from data + off returns the bytes at off, off + 1, ...,
each address taken modulo 2^64. -/
theorem returns_readBytes : ∀ (off n : Nat),
    Returns (· = (List.range n).map fun i => data ((off + i) % 2 ^ 64)) (readBytes data off n)
  | _, 0 => returns_pure rfl
  | off, n + 1 => by
    refine returns_bind (returns_readByte off) fun b hb => ?_
    refine returns_bind (returns_readBytes (off + 1) n) fun bs hbs => returns_pure ?_
    rw [hb, hbs, List.range_succ_eq_map, List.map_cons, List.map_map, Nat.add_zero]
    congr 2
    funext i
    simp only [Function.comp_apply, Nat.succ_eq_add_one]
    rw [Nat.add_assoc, Nat.add_comm 1 i]

theorem logsIn_readLe {S : Nat → Prop} {off n : Nat} (h : ∀ j < n, S ((off + j) % 2 ^ 64)) :
    LogsIn S (readLe data off n) :=
  logsIn_bind (logsIn_readBytes h) fun _ => logsIn_pure _

theorem returns_readLe (off n : Nat) : Returns (· = fieldLe data off n) (readLe data off n) :=
  returns_bind (returns_readBytes off n) fun _ h => returns_pure (by rw [h, fieldLe])

/-- A field that ends inside the image is read inside it. -/
theorem logsIn_readLe_of_le {size off n : Nat} (h : off + n ≤ size) : LogsIn (· < size) (readLe data off n) :=
  logsIn_readLe fun j hj => by omega

/-! ## The header -/

/-- validate_ehdr reads the header, and only once size holds it. -/
theorem logsIn_validateEhdr (size : Nat) : LogsIn (· < size) (validateEhdr data size) := by
  unfold validateEhdr
  refine logsIn_bind_of_returns (logsIn_rejectIf _) (returns_rejectIf _) fun _ hsize => ?_
  -- from here on every field lies in the first ehdrSize bytes, which are below size
  have hread : ∀ {off n : Nat}, off + n ≤ 64 → LogsIn (· < size) (readLe data off n) := fun h =>
    logsIn_readLe fun j hj => by
      unfold ehdrSize at hsize
      omega
  repeat
    first
    | with_reducible refine logsIn_bind (hread (by omega)) fun _ => ?_
    | with_reducible refine logsIn_bind (logsIn_rejectIf _) fun _ => ?_
  exact logsIn_rejectIf _

/-- A field check bounds nothing the rest returns. -/
theorem returns_check {α : Type} {Q : α → Prop} {off n : Nat} {p : Nat → Prop} [DecidablePred p] {rest : ElfM α}
    (h : Returns Q rest) : Returns Q (readLe data off n >>= fun v => rejectIf (p v) >>= fun _ => rest) :=
  returns_bind (returns_readLe off n) fun _ _ => returns_bind (returns_rejectIf _) fun _ _ => h

/-- What a validated header guarantees: it fits, and so do the e_phnum
program headers at e_phoff. -/
theorem returns_validateEhdr (size : Nat) :
    Returns (fun _ => ehdrSize ≤ size ∧ fieldLe data 32 8 ≤ size ∧
      fieldLe data 56 2 ≤ (size - fieldLe data 32 8) / phdrSize) (validateEhdr data size) := by
  unfold validateEhdr
  refine returns_bind (returns_rejectIf _) fun _ hsize => ?_
  -- the magic, class, data, version, machine, type and phentsize checks bound nothing
  iterate 7 refine returns_check ?_
  refine returns_bind (returns_readLe 32 8) fun phoff hphoff => ?_
  refine returns_bind (returns_rejectIf _) fun _ hle => ?_
  refine returns_bind (returns_readLe 56 2) fun phnum hphnum => ?_
  refine (returns_rejectIf _).mono fun _ hnum => ?_
  rw [← hphoff, ← hphnum]
  exact ⟨Nat.le_of_not_lt hsize, Nat.le_of_not_lt hle, Nat.le_of_not_lt hnum⟩

/-! ## The program headers -/

/-- The bytes the walk may read: inside the image, or among the
interpPathSize bytes below it, where data + p_offset points when the 64-bit
sum p_offset + p_filesz wraps. -/
def InImageOrBelow (size o : Nat) : Prop := o < size ∨ 2 ^ 64 - interpPathSize < o

/-- A PT_INTERP copy that passes the 64-bit bound check reads inside the
image, or, when offset + filesz wraps, below it. -/
theorem interp_read_bound {size offset filesz j : Nat} (hf : filesz < interpPathSize) (hcheck : ¬(offset + filesz) % 2 ^ 64 > size) (hj : j < filesz) :
    InImageOrBelow size ((offset + j) % 2 ^ 64) := by
  unfold InImageOrBelow
  unfold interpPathSize at hf ⊢
  omega

variable {size : Nat}

theorem logsIn_parseInterp {base : Nat} (hbase : base + phdrSize ≤ size) (info : ElfLoadInfo) :
    LogsIn (InImageOrBelow size) (parseInterp data size base info) := by
  have hfield : ∀ {k n : Nat}, k + n ≤ phdrSize → LogsIn (InImageOrBelow size) (readLe data (base + k) n) :=
    fun h => (logsIn_readLe_of_le (by omega)).mono fun _ => .inl
  unfold parseInterp
  refine logsIn_bind (logsIn_rejectIf _) fun _ => ?_
  refine logsIn_bind_of_returns (hfield (by decide)) (returns_readLe _ _) fun filesz hfilesz => ?_
  split
  · next hlen =>
    refine logsIn_bind (hfield (by decide)) fun offset => ?_
    split
    · exact logsIn_pure _
    · next hcheck =>
      have hin : ∀ j < filesz, InImageOrBelow size ((offset + j) % 2 ^ 64) := fun j hj =>
        interp_read_bound hlen.2 hcheck hj
      refine logsIn_bind (logsIn_readByte (hin _ (by omega))) fun _ => ?_
      refine logsIn_bind (logsIn_rejectIf _) fun _ => ?_
      exact logsIn_bind (logsIn_readBytes hin) fun _ => logsIn_pure _
  · exact logsIn_pure _

theorem logsIn_parsePhdr {base : Nat} (hbase : base + phdrSize ≤ size) (info : ElfLoadInfo) :
    LogsIn (InImageOrBelow size) (parsePhdr data size base info) := by
  have hfield : ∀ {off n : Nat}, base ≤ off → off + n ≤ base + phdrSize →
      LogsIn (InImageOrBelow size) (readLe data off n) :=
    fun _ h => (logsIn_readLe_of_le (by omega)).mono fun _ => .inl
  unfold parsePhdr
  refine logsIn_bind (hfield (Nat.le_refl base) (by unfold phdrSize; omega)) fun type => ?_
  split
  · exact logsIn_parseInterp hbase info
  split
  · exact logsIn_bind (hfield (by omega) (by unfold phdrSize; omega)) fun _ => logsIn_pure _
  split
  · refine logsIn_bind (hfield (by omega) (by unfold phdrSize; omega)) fun _ => ?_
    refine logsIn_bind (hfield (by omega) (by unfold phdrSize; omega)) fun _ => ?_
    exact logsIn_bind (hfield (by omega) (by unfold phdrSize; omega)) fun _ => logsIn_pure _
  · exact logsIn_pure _

/-- The walk reads phdr[i] for i below the count left, each inside the image
when all of them are. -/
theorem logsIn_phdrLoop (phoff : Nat) :
    ∀ left i info, phoff + (i + left) * phdrSize ≤ size →
      LogsIn (InImageOrBelow size) (phdrLoop data size phoff left i info)
  | 0, _, _, _ => logsIn_pure _
  | left + 1, i, info, h => by
    unfold phdrLoop
    have hbase : phoff + i * phdrSize + phdrSize ≤ size := by
      unfold phdrSize at h ⊢
      omega
    refine logsIn_bind (logsIn_parsePhdr hbase info) fun info' => ?_
    exact logsIn_phdrLoop phoff left (i + 1) info' (by rw [Nat.add_right_comm]; exact h)

/-- elf_loader_parse_elf_info reads only bytes of the image, except the
PT_INTERP copy, which reads below the image when its 64-bit end wraps. -/
theorem logsIn_elfLoaderParseElfInfo : LogsIn (InImageOrBelow size) (elfLoaderParseElfInfo data size) := by
  unfold elfLoaderParseElfInfo
  refine logsIn_bind_of_returns ((logsIn_validateEhdr size).mono fun _ => .inl) (returns_validateEhdr size)
    fun _ ⟨hhdr, _, hphnum⟩ => ?_
  -- the header fields lie in its first ehdrSize bytes
  have hfield : ∀ {off n : Nat}, off + n ≤ ehdrSize → LogsIn (InImageOrBelow size) (readLe data off n) :=
    fun h => (logsIn_readLe_of_le (by omega)).mono fun _ => .inl
  refine logsIn_bind (hfield (by decide)) fun _ => ?_
  refine logsIn_bind_of_returns (hfield (by decide)) (returns_readLe _ _) fun phoff hphoff => ?_
  refine logsIn_bind_of_returns (hfield (by decide)) (returns_readLe _ _) fun phnum hphnum' => ?_
  refine logsIn_bind (hfield (by decide)) fun _ => ?_
  refine logsIn_phdrLoop phoff phnum 0 _ ?_
  rw [← hphoff, ← hphnum'] at hphnum
  unfold phdrSize at hphnum ⊢
  omega

/-! ## The interpreter path -/

/-- What interp_path holds once a PT_INTERP entry is taken: filesz bytes
copied from data + offset (addresses modulo 2^64) with 1 < filesz < 256, the
last of them NUL, whose 64-bit end passed the bound check. -/
def InterpCopy (data : Nat → UInt8) (size : Nat) (path : List UInt8) : Prop :=
  ∃ offset, path = (List.range path.length).map (fun i => data ((offset + i) % 2 ^ 64)) ∧
    (offset + path.length) % 2 ^ 64 ≤ size ∧ path.getLast? = some 0 ∧ 1 < path.length ∧ path.length < interpPathSize

/-- The walk's invariant: a taken interpreter path is such a copy. -/
def InterpOk (data : Nat → UInt8) (size : Nat) (info : ElfLoadInfo) : Prop :=
  info.hasInterp = true → InterpCopy data size info.interpPath

theorem returns_parseInterp (base : Nat) {info : ElfLoadInfo} (h : InterpOk data size info) :
    Returns (InterpOk data size) (parseInterp data size base info) := by
  unfold parseInterp
  refine returns_bind (returns_rejectIf _) fun _ _ => ?_
  refine returns_bind (returns_readLe _ _) fun filesz _ => ?_
  split
  · next hlen =>
    refine returns_bind (returns_readLe _ _) fun offset _ => ?_
    split
    · exact returns_pure h
    · next hcheck =>
      refine returns_bind (returns_readByte _) fun b hb => ?_
      refine returns_bind (returns_rejectIf _) fun _ hnul => ?_
      refine returns_bind (returns_readBytes offset filesz) fun path hpath => returns_pure fun _ => ?_
      have hlength : path.length = filesz := by rw [hpath, List.length_map, List.length_range]
      -- the last byte copied is the one the NUL test read
      have hlast : path.getLast? = some 0 := by
        rw [hpath, List.getLast?_map, List.getLast?_range, if_neg (by omega), Option.map_some, ← hb]
        exact congrArg some (not_not.mp hnul)
      dsimp only [InterpCopy]
      rw [hlength]
      exact ⟨offset, hpath, Nat.le_of_not_lt hcheck, hlast, hlen.1, hlen.2⟩
  · exact returns_pure h

theorem returns_parsePhdr (base : Nat) {info : ElfLoadInfo} (h : InterpOk data size info) :
    Returns (InterpOk data size) (parsePhdr data size base info) := by
  unfold parsePhdr
  refine returns_bind (returns_readLe _ _) fun type _ => ?_
  split
  · exact returns_parseInterp base h
  split
  · exact returns_bind (returns_readLe _ _) fun _ _ => returns_pure h
  split
  · refine returns_bind (returns_readLe _ _) fun _ _ => ?_
    refine returns_bind (returns_readLe _ _) fun _ _ => ?_
    exact returns_bind (returns_readLe _ _) fun _ _ => returns_pure h
  · exact returns_pure h

theorem returns_phdrLoop (phoff : Nat) :
    ∀ left i {info : ElfLoadInfo}, InterpOk data size info →
      Returns (InterpOk data size) (phdrLoop data size phoff left i info)
  | 0, _, _, h => returns_pure h
  | left + 1, i, _, h => by
    unfold phdrLoop
    exact returns_bind (returns_parsePhdr _ h) fun _ h' => returns_phdrLoop phoff left (i + 1) h'

/-- On success, interp_path, when set, is a NUL-terminated copy of the
PT_INTERP bytes whose end passed the 64-bit check. -/
theorem returns_elfLoaderParseElfInfo : Returns (InterpOk data size) (elfLoaderParseElfInfo data size) := by
  unfold elfLoaderParseElfInfo
  refine returns_bind (returns_validateEhdr size) fun _ _ => ?_
  iterate 4 refine returns_bind (returns_readLe _ _) fun _ _ => ?_
  exact returns_phdrLoop _ _ _ fun h => absurd h Bool.false_ne_true

/-- An image whose PT_INTERP entry has p_offset = 2^64 - 8 and p_filesz = 16:
the 64-bit end wraps to 8, and byte 7 (e_ident[7]) is NUL. -/
def interpWrapImage : List UInt8 :=
  [0x7f, 0x45, 0x4c, 0x46, 2, 1, 1, 0, 0, 0, 0, 0, 0, 0, 0, 0,
   2, 0, 0x3e, 0, 1, 0, 0, 0, 0x00, 0x10, 0x40, 0, 0, 0, 0, 0,
   64, 0, 0, 0, 0, 0, 0, 0, 0, 0, 0, 0, 0, 0, 0, 0,
   0, 0, 0, 0, 64, 0, 56, 0, 1, 0, 0, 0, 0, 0, 0, 0,
   3, 0, 0, 0, 4, 0, 0, 0, 0xf8, 0xff, 0xff, 0xff, 0xff, 0xff, 0xff, 0xff,
   0, 0, 0, 0, 0, 0, 0, 0, 0, 0, 0, 0, 0, 0, 0, 0,
   16, 0, 0, 0, 0, 0, 0, 0, 16, 0, 0, 0, 0, 0, 0, 0,
   1, 0, 0, 0, 0, 0, 0, 0]

/-- The image in memory, with 0xAA in every byte around it. -/
def interpWrapMemory (o : Nat) : UInt8 := interpWrapImage.getD o 0xAA

theorem elf_parse_reads_before_image :
    ((elfLoaderParseElfInfo interpWrapMemory interpWrapImage.length).exec []).1.toOption.map
        (fun info => (info.hasInterp, info.interpPath)) = some (true, List.replicate 8 0xAA ++ interpWrapImage.take 8) ∧
      2 ^ 64 - 8 ∈ ((elfLoaderParseElfInfo interpWrapMemory interpWrapImage.length).exec []).2 ∧
      interpWrapImage.length ≤ 2 ^ 64 - 8 := by
  decide +kernel

end Uinxed.Process
