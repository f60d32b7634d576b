/-
  Module/Elf.lean --- the ELF image of a loadable module: its validation and
  the store of one x86-64 relocation (module_elf_validate and
  module_elf_apply_relocation, src/kernel/module/elf.c).

  The image is its bytes, image o for the byte at offset o, with its size;
  the header, the section table, the symbols and the relocation entries are
  little-endian fields read from it at the offsets of Elf64_Ehdr, Elf64_Shdr,
  Elf64_Sym and Elf64_Rela.  module_elf_validate returns the view the loader
  works from: the section table of section_count entries and the index of the
  section name table.  What a validated view guarantees of every section is
  SectionOk (sectionOk_of_validate).

  A relocation stores a value of one, two, four or eight bytes at its place,
  or fails when the value does not fit the field; storeWidth says how many
  bytes each relocation type stores (moduleElfApplyRelocation_width).
-/
import Mathlib.Data.Nat.Bitwise
import Mathlib.Logic.Basic
import Uinxed.Lib.TraceExcept

set_option autoImplicit false

namespace Uinxed.Module

open TraceExcept

/-! ## Constants -/

def enoent : Int := 2
def e2big : Int := 7
def enoexec : Int := 8
def enomem : Int := 12
def einval : Int := 22
def eoverflow : Int := 75

def sizeMax : Nat := 2 ^ 64 - 1

/-- sizeof(Elf64_Ehdr), sizeof(Elf64_Shdr), sizeof(Elf64_Sym),
sizeof(Elf64_Rela). -/
def ehdrSize : Nat := 64
def shdrSize : Nat := 64
def symSize : Nat := 24
def relaSize : Nat := 24

def elfclass64 : Nat := 2
def elfdata2lsb : Nat := 1
def evCurrent : Nat := 1
def emX86_64 : Nat := 62
def etRel : Nat := 1

def shnUndef : Nat := 0
def shnAbs : Nat := 0xfff1
def shnCommon : Nat := 0xfff2
def shnXindex : Nat := 0xffff

def shtSymtab : Nat := 2
def shtStrtab : Nat := 3
def shtRela : Nat := 4
def shtNobits : Nat := 8
def shtRel : Nat := 9
def shtDynsym : Nat := 11

def shfAlloc : Nat := 2
def shfTls : Nat := 0x400

def rX86_64None : Nat := 0
def rX86_64_64 : Nat := 1
def rX86_64Pc32 : Nat := 2
def rX86_64Plt32 : Nat := 4
def rX86_64_32 : Nat := 10
def rX86_64_32s : Nat := 11
def rX86_64_16 : Nat := 12
def rX86_64Pc16 : Nat := 13
def rX86_64_8 : Nat := 14
def rX86_64Pc8 : Nat := 15
def rX86_64Pc64 : Nat := 24
def rX86_64Size32 : Nat := 32
def rX86_64Size64 : Nat := 33

/-! ## Reading the image -/

/-- The little-endian value of the n bytes at image + off. -/
def readLe (image : Nat → UInt8) (off : Nat) : Nat → Nat
  | 0 => 0
  | n + 1 => (image off).toNat + 256 * readLe image (off + 1) n

/-- A signed 64-bit field. -/
def toInt64 (v : Nat) : Int := if v < 2 ^ 63 then v else (v : Int) - 2 ^ 64

/-- Elf64_Ehdr, the fields module_elf_validate checks. -/
structure Ehdr where
  ident : List Nat
  type : Nat
  machine : Nat
  version : Nat
  shoff : Nat
  ehsize : Nat
  shentsize : Nat
  shnum : Nat
  shstrndx : Nat
  deriving DecidableEq, Repr

def Ehdr.read (image : Nat → UInt8) : Ehdr where
  ident := (List.range 7).map fun i => (image i).toNat
  type := readLe image 16 2
  machine := readLe image 18 2
  version := readLe image 20 4
  shoff := readLe image 40 8
  ehsize := readLe image 52 2
  shentsize := readLe image 58 2
  shnum := readLe image 60 2
  shstrndx := readLe image 62 2

/-- Elf64_Shdr, without sh_addr, which the loader never reads. -/
structure Shdr where
  name : Nat
  type : Nat
  flags : Nat
  offset : Nat
  size : Nat
  link : Nat
  info : Nat
  addralign : Nat
  entsize : Nat
  deriving DecidableEq, Repr, Inhabited

def Shdr.read (image : Nat → UInt8) (off : Nat) : Shdr where
  name := readLe image off 4
  type := readLe image (off + 4) 4
  flags := readLe image (off + 8) 8
  offset := readLe image (off + 24) 8
  size := readLe image (off + 32) 8
  link := readLe image (off + 40) 4
  info := readLe image (off + 44) 4
  addralign := readLe image (off + 48) 8
  entsize := readLe image (off + 56) 8

/-- Elf64_Sym, without st_other. -/
structure Sym where
  name : Nat
  info : Nat
  shndx : Nat
  value : Nat
  size : Nat
  deriving DecidableEq, Repr

def Sym.read (image : Nat → UInt8) (off : Nat) : Sym where
  name := readLe image off 4
  info := readLe image (off + 4) 1
  shndx := readLe image (off + 6) 2
  value := readLe image (off + 8) 8
  size := readLe image (off + 16) 8

/-- Elf64_Rela. -/
structure Rela where
  offset : Nat
  info : Nat
  addend : Int
  deriving DecidableEq, Repr

def Rela.read (image : Nat → UInt8) (off : Nat) : Rela where
  offset := readLe image off 8
  info := readLe image (off + 8) 8
  addend := toInt64 (readLe image (off + 16) 8)

/-! ## Writing the format -/

/-- The n little-endian bytes of v. -/
def leBytes (v : Nat) : Nat → List UInt8
  | 0 => []
  | n + 1 => (v % 256).toUInt8 :: leBytes (v / 256) n

/-- An image holding the bytes of a list, zero past its end. -/
def bytesImage (bytes : List UInt8) : Nat → UInt8 := fun o => bytes.getD o 0

/-- The bytes of an Elf64_Ehdr with these fields and the others zero. -/
def Ehdr.encode (h : Ehdr) : List UInt8 :=
  (h.ident.map Nat.toUInt8 ++ List.replicate (16 - h.ident.length) 0) ++ leBytes h.type 2 ++ leBytes h.machine 2 ++
    leBytes h.version 4 ++ leBytes 0 16 ++ leBytes h.shoff 8 ++ leBytes 0 4 ++ leBytes h.ehsize 2 ++ leBytes 0 4 ++
    leBytes h.shentsize 2 ++ leBytes h.shnum 2 ++ leBytes h.shstrndx 2

/-- The bytes of an Elf64_Shdr with these fields and sh_addr zero. -/
def Shdr.encode (s : Shdr) : List UInt8 :=
  leBytes s.name 4 ++ leBytes s.type 4 ++ leBytes s.flags 8 ++ leBytes 0 8 ++ leBytes s.offset 8 ++
    leBytes s.size 8 ++ leBytes s.link 4 ++ leBytes s.info 4 ++ leBytes s.addralign 8 ++ leBytes s.entsize 8

/-! ## module_elf_validate -/

/-- range_valid: [offset, offset + length) lies in an image of total bytes. -/
def rangeValid (offset length total : Nat) : Prop := offset ≤ total ∧ length ≤ total - offset

instance (offset length total : Nat) : Decidable (rangeValid offset length total) :=
  inferInstanceAs (Decidable (_ ∧ _))

/-- power_of_two: zero or a power of two. -/
def powerOfTwo (value : Nat) : Prop := value = 0 ∨ value &&& (value - 1) = 0

instance (value : Nat) : Decidable (powerOfTwo value) := inferInstanceAs (Decidable (_ ∨ _))

/-- The checks of one section in the loop of module_elf_validate. -/
def checkSection (count size : Nat) (sec : Shdr) : Except Int Unit :=
  if ¬powerOfTwo sec.addralign then .error (-enoexec)
  else if sec.type ≠ shtNobits ∧ ¬rangeValid sec.offset sec.size size then .error (-enoexec)
  else if (sec.type = shtSymtab ∨ sec.type = shtDynsym) ∧
      (sec.entsize ≠ symSize ∨ sec.link ≥ count ∨ sec.size % symSize ≠ 0) then .error (-enoexec)
  else if sec.type = shtRela ∧
      (sec.entsize ≠ relaSize ∨ sec.link ≥ count ∨ sec.info ≥ count ∨ sec.size % relaSize ≠ 0) then
    .error (-enoexec)
  else if sec.type = shtRel then .error (-enoexec)
  else .ok ()

def checkSections (count size : Nat) : List Shdr → Except Int Unit
  | [] => .ok ()
  | sec :: rest => do
    checkSection count size sec
    checkSections count size rest

/-- module_elf_view_t: the image's size, its section table and the index of
its section name table; the image and its header are the loader's input. -/
structure ElfView where
  size : Nat
  sections : List Shdr
  nameIndex : Nat
  deriving DecidableEq, Repr

/-- The header checks of module_elf_validate. -/
def Ehdr.malformed (h : Ehdr) : Prop :=
  h.ident ≠ [0x7f, 0x45, 0x4c, 0x46, elfclass64, elfdata2lsb, evCurrent] ∨ h.type ≠ etRel ∨ h.machine ≠ emX86_64 ∨
    h.version ≠ evCurrent ∨ h.ehsize ≠ ehdrSize ∨ h.shentsize ≠ shdrSize

instance (h : Ehdr) : Decidable h.malformed := inferInstanceAs (Decidable (_ ∨ _ ∨ _ ∨ _ ∨ _ ∨ _))

/-- return -ENOEXEC when c holds: every check of module_elf_validate fails
this way. -/
def rejectIf (c : Prop) [Decidable c] : Except Int Unit := if c then .error (-enoexec) else .ok ()

theorem not_of_rejectIf {c : Prop} [Decidable c] (h : rejectIf c = .ok ()) : ¬c := by
  unfold rejectIf at h
  split at h
  · cases h
  · assumption

/-- module_elf_validate(image, size, &view). -/
def moduleElfValidate (image : Nat → UInt8) (size : Nat) : Except Int ElfView := do
  rejectIf (size < ehdrSize)
  let header := Ehdr.read image
  rejectIf header.malformed
  rejectIf (header.shoff = 0 ∨ ¬rangeValid header.shoff shdrSize size)
  let sections := fun index => Shdr.read image (header.shoff + shdrSize * index)
  let count := if header.shnum ≠ 0 then header.shnum else (sections 0).size
  let names := if header.shstrndx = shnXindex then (sections 0).link else header.shstrndx
  rejectIf (count = 0 ∨ count > 0xffff ∨ ¬rangeValid header.shoff (count * shdrSize) size)
  rejectIf (names ≠ shnUndef ∧ names ≥ count)
  let table := (List.range count).map sections
  checkSections count size table
  rejectIf (names ≠ shnUndef ∧ (sections names).type ≠ shtStrtab)
  pure ⟨size, table, names⟩

/-- What module_elf_validate guarantees of each section of the view. -/
structure SectionOk (count size : Nat) (sec : Shdr) : Prop where
  align : powerOfTwo sec.addralign
  inImage : sec.type ≠ shtNobits → rangeValid sec.offset sec.size size
  symtab : sec.type = shtSymtab → sec.entsize = symSize ∧ sec.link < count ∧ sec.size % symSize = 0
  rela : sec.type = shtRela →
    sec.entsize = relaSize ∧ sec.link < count ∧ sec.info < count ∧ sec.size % relaSize = 0

theorem sectionOk_of_checkSection {count size : Nat} {sec : Shdr} (h : checkSection count size sec = .ok ()) :
    SectionOk count size sec := by
  unfold checkSection at h
  split at h
  · cases h
  next halign =>
  split at h
  · cases h
  next hrange =>
  split at h
  · cases h
  next hsym =>
  split at h
  · cases h
  next hrela =>
  refine ⟨not_not.mp halign, fun ht => ?_, fun ht => ?_, fun ht => ?_⟩
  · exact Classical.byContradiction fun hr => hrange ⟨ht, hr⟩
  · have hn : ¬(sec.entsize ≠ symSize ∨ sec.link ≥ count ∨ sec.size % symSize ≠ 0) :=
      fun hc => hsym ⟨.inl ht, hc⟩
    omega
  · have hn : ¬(sec.entsize ≠ relaSize ∨ sec.link ≥ count ∨ sec.info ≥ count ∨
        sec.size % relaSize ≠ 0) := fun hc => hrela ⟨ht, hc⟩
    omega

theorem sectionOk_of_checkSections {count size : Nat} :
    ∀ {table : List Shdr}, checkSections count size table = .ok () → ∀ sec ∈ table, SectionOk count size sec
  | [], _, _, hs => absurd hs List.not_mem_nil
  | s :: rest, h, sec, hs => by
    rw [checkSections] at h
    rcases hc : checkSection count size s with e | ⟨⟩ <;> rw [hc] at h
    · cases h
    rcases List.mem_cons.mp hs with rfl | hs
    · exact sectionOk_of_checkSection hc
    · exact sectionOk_of_checkSections h sec hs

/-- A validated view: every section passed the checks, the table is not empty
and the name index is in it. -/
theorem sectionOk_of_validate {image : Nat → UInt8} {size : Nat} {view : ElfView}
    (h : moduleElfValidate image size = .ok view) :
    view.size = size ∧ 0 < view.sections.length ∧ ∀ sec ∈ view.sections,
      SectionOk view.sections.length size sec := by
  unfold moduleElfValidate at h
  -- the checks before the section loop
  obtain ⟨_, -, h⟩ := except_bind_ok h
  obtain ⟨_, -, h⟩ := except_bind_ok h
  obtain ⟨_, -, h⟩ := except_bind_ok h
  obtain ⟨_, hcount, h⟩ := except_bind_ok h
  obtain ⟨_, -, h⟩ := except_bind_ok h
  -- the section loop, then the name table's type
  obtain ⟨_, hcheck, h⟩ := except_bind_ok h
  obtain ⟨_, -, h⟩ := except_bind_ok h
  cases h
  have hpos := not_of_rejectIf hcount
  refine ⟨rfl, ?_, ?_⟩
  · rw [List.length_map, List.length_range]
    exact Nat.pos_of_ne_zero fun h0 => hpos (.inl h0)
  rw [List.length_map, List.length_range]
  exact sectionOk_of_checkSections hcheck

/-! ## module_elf_apply_relocation -/

/-- What a relocation writes at its location: width bytes holding value. -/
structure Store where
  width : Nat
  value : Nat
  deriving DecidableEq, Repr

/-- The bytes of the store: the low 8 * width bits of the value. -/
def Store.ofInt (width : Nat) (value : Int) : Store := ⟨width, (value % 2 ^ (8 * width)).toNat⟩

@[simp] theorem Store.ofInt_width (width : Nat) (value : Int) : (Store.ofInt width value).width = width := rfl

/-- store_signed(location, value, bits). -/
def storeSigned (value : Int) (bits : Nat) : Except Int Store :=
  if value < -(2 ^ (bits - 1) : Int) ∨ value > 2 ^ (bits - 1) - 1 then .error (-enoexec)
  else if bits = 8 then .ok (.ofInt 1 value)
  else if bits = 16 then .ok (.ofInt 2 value)
  else if bits = 32 then .ok (.ofInt 4 value)
  else .ok (.ofInt 8 value)

/-- store_unsigned(location, value, bits). -/
def storeUnsigned (value : Int) (bits : Nat) : Except Int Store :=
  if value < 0 ∨ value > 2 ^ bits - 1 then .error (-enoexec)
  else if bits = 8 then .ok (.ofInt 1 value)
  else if bits = 16 then .ok (.ofInt 2 value)
  else .ok (.ofInt 4 value)

/-- The switch of module_elf_apply_relocation on the relocation type, given
symbol_value + addend and its distance from the place. -/
def relocationStore (type : Nat) (absolute relative : Int) : Except Int (Option Store) :=
  if type = rX86_64None then .ok none
  else if type = rX86_64_64 then .ok (some (.ofInt 8 absolute))
  else if type = rX86_64Pc32 ∨ type = rX86_64Plt32 then some <$> storeSigned relative 32
  else if type = rX86_64_32 then some <$> storeUnsigned absolute 32
  else if type = rX86_64_32s then some <$> storeSigned absolute 32
  else if type = rX86_64_16 then some <$> storeUnsigned absolute 16
  else if type = rX86_64Pc16 then some <$> storeSigned relative 16
  else if type = rX86_64_8 then some <$> storeUnsigned absolute 8
  else if type = rX86_64Pc8 then some <$> storeSigned relative 8
  else if type = rX86_64Pc64 then some <$> storeSigned relative 64
  else if type = rX86_64Size32 then some <$> storeUnsigned absolute 32
  else if type = rX86_64Size64 then .ok (some (.ofInt 8 absolute))
  else .error (-enoexec)

/-- module_elf_apply_relocation(type, location, symbol_value, addend, place):
the store it makes, none for R_X86_64_NONE. -/
def moduleElfApplyRelocation (type location symbolValue : Nat) (addend : Int) (place : Nat) :
    Except Int (Option Store) :=
  if location = 0 then .error (-einval)
  else relocationStore type (symbolValue + addend) (symbolValue + addend - place)

/-- How many bytes a relocation of each type stores, read off
module_elf_apply_relocation; 0 for none and for an unsupported type. -/
def storeWidth (type : Nat) : Nat :=
  if type = rX86_64_8 ∨ type = rX86_64Pc8 then 1
  else if type = rX86_64_16 ∨ type = rX86_64Pc16 then 2
  else if type = rX86_64Pc32 ∨ type = rX86_64Plt32 ∨ type = rX86_64_32 ∨ type = rX86_64_32s ∨ type = rX86_64Size32 then 4
  else if type = rX86_64_64 ∨ type = rX86_64Pc64 ∨ type = rX86_64Size64 then 8
  else 0

theorem storeSigned_width {value : Int} {bits : Nat} {st : Store} (h : storeSigned value bits = .ok st) :
    st.width = if bits = 8 then 1 else if bits = 16 then 2 else if bits = 32 then 4 else 8 := by
  unfold storeSigned at h
  split at h
  · cases h
  repeat' split at h
  all_goals (cases h; simp_all)

theorem storeUnsigned_width {value : Int} {bits : Nat} {st : Store} (h : storeUnsigned value bits = .ok st) :
    st.width = if bits = 8 then 1 else if bits = 16 then 2 else 4 := by
  unfold storeUnsigned at h
  split at h
  · cases h
  repeat' split at h
  all_goals (cases h; simp_all)

/-- A store of the given width, lifted to the optional store. -/
theorem map_some_width {e : Except Int Store} {st : Store} {w : Nat} (he : ∀ st', e = .ok st' → st'.width = w)
    (h : (some <$> e) = .ok (some st)) : st.width = w := by
  cases e with
  | error => cases h
  | ok st' =>
    cases h
    exact he _ rfl

theorem relocationStore_width {type : Nat} {absolute relative : Int} {st : Store}
    (h : relocationStore type absolute relative = .ok (some st)) : st.width = storeWidth type := by
  unfold relocationStore at h
  -- one case for each label of the switch, peeled with ite_eq_iff: split
  -- would simplify the whole chain at every level
  rcases ite_eq_iff.mp h with ⟨-, h⟩ | ⟨-, h⟩
  · cases h
  rcases ite_eq_iff.mp h with ⟨ht, h⟩ | ⟨-, h⟩
  · cases h; subst ht; rfl
  rcases ite_eq_iff.mp h with ⟨ht, h⟩ | ⟨-, h⟩
  · rw [map_some_width (fun _ => storeSigned_width) h]; rcases ht with rfl | rfl <;> rfl
  rcases ite_eq_iff.mp h with ⟨ht, h⟩ | ⟨-, h⟩
  · rw [map_some_width (fun _ => storeUnsigned_width) h]; subst ht; rfl
  rcases ite_eq_iff.mp h with ⟨ht, h⟩ | ⟨-, h⟩
  · rw [map_some_width (fun _ => storeSigned_width) h]; subst ht; rfl
  rcases ite_eq_iff.mp h with ⟨ht, h⟩ | ⟨-, h⟩
  · rw [map_some_width (fun _ => storeUnsigned_width) h]; subst ht; rfl
  rcases ite_eq_iff.mp h with ⟨ht, h⟩ | ⟨-, h⟩
  · rw [map_some_width (fun _ => storeSigned_width) h]; subst ht; rfl
  rcases ite_eq_iff.mp h with ⟨ht, h⟩ | ⟨-, h⟩
  · rw [map_some_width (fun _ => storeUnsigned_width) h]; subst ht; rfl
  rcases ite_eq_iff.mp h with ⟨ht, h⟩ | ⟨-, h⟩
  · rw [map_some_width (fun _ => storeSigned_width) h]; subst ht; rfl
  rcases ite_eq_iff.mp h with ⟨ht, h⟩ | ⟨-, h⟩
  · rw [map_some_width (fun _ => storeSigned_width) h]; subst ht; rfl
  rcases ite_eq_iff.mp h with ⟨ht, h⟩ | ⟨-, h⟩
  · rw [map_some_width (fun _ => storeUnsigned_width) h]; subst ht; rfl
  rcases ite_eq_iff.mp h with ⟨ht, h⟩ | ⟨-, h⟩
  · cases h; subst ht; rfl
  · cases h

/-- Every relocation stores as many bytes as storeWidth says for its type. -/
theorem moduleElfApplyRelocation_width {type location symbolValue place : Nat} {addend : Int} {st : Store}
    (h : moduleElfApplyRelocation type location symbolValue addend place = .ok (some st)) :
    st.width = storeWidth type := by
  unfold moduleElfApplyRelocation at h
  split at h
  · cases h
  · exact relocationStore_width h

end Uinxed.Module
