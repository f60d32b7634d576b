/-
  Module/Relocate.lean --- the relocations of a module (relocation_width,
  symbol_name_at, resolve_elf_symbol and relocate_module,
  src/kernel/module/module.c), and what the loader does to memory from a
  validated image to its relocated sections.

  relocate_module checks each entry of each RELA section: its field of
  relocation_width bytes must lie in the target section's [0, size).
  module_elf_apply_relocation then stores exactly that many bytes
  (storeWidth_of_relocationWidth), so every store the entries of a RELA
  section make lands in that section's own target (logsIn_relocateSection).
-/
import Mathlib.Control.Monad.Basic
import Mathlib.Tactic.IntervalCases
import Uinxed.Module.Layout

set_option autoImplicit false

namespace Uinxed.Module

open TraceExcept AlignedPack

/-! ## relocate_module -/

/-- relocation_width(type); SIZE_MAX for an unsupported type. -/
def relocationWidth (type : Nat) : Nat :=
  if type = rX86_64None then 0
  else if type = rX86_64_8 ∨ type = rX86_64Pc8 then 1
  else if type = rX86_64_16 ∨ type = rX86_64Pc16 then 2
  else if type = rX86_64Pc32 ∨ type = rX86_64Plt32 ∨ type = rX86_64_32 ∨ type = rX86_64_32s ∨ type = rX86_64Size32 then 4
  else if type = rX86_64_64 ∨ type = rX86_64Pc64 ∨ type = rX86_64Size64 then 8
  else sizeMax

/-- symbol_name_at(view, symbols, symbol, &name). -/
def symbolNameAt (image : Nat → UInt8) (view : ElfView) (symbols : Shdr) (symbol : Sym) : Except Int (List UInt8) :=
  if symbols.link ≥ view.sections.length then .error (-enoexec)
  else
    let strings := view.sections.getD symbols.link default
    if strings.type ≠ shtStrtab ∨ symbol.name ≥ strings.size then .error (-enoexec)
    else
      match boundedString image (strings.offset + symbol.name) (strings.size - symbol.name) with
      | none => .error (-enoexec)
      | some name => .ok name

/-- resolve_elf_symbol(internal, view, symbols, symbol, &value), where
resolveExport is resolve_export on the kernel's and the dependencies' exports
and moduleAddress is internal->module. -/
def resolveElfSymbol (image : Nat → UInt8) (resolveExport : List UInt8 → Except Int Nat) (moduleAddress : Nat)
    (view : ElfView) (layouts : List SectionLayout) (symbols : Shdr) (symbol : Sym) : Except Int Nat := do
  let name ← symbolNameAt image view symbols symbol
  if name ≠ [] ∧ name = ascii "__this_module" then return moduleAddress
  if symbol.shndx = shnAbs then return symbol.value
  if symbol.shndx = shnUndef then
    if name = [] then throw (-enoexec)
    match resolveExport name with
    | .error e => if e = -enoent ∧ symbol.info / 16 = stbWeak then return 0 else throw e
    | .ok value => return value
  if symbol.shndx = shnCommon ∨ symbol.shndx = shnXindex ∨ symbol.shndx ≥ view.sections.length then
    throw (-enoexec)
  let layout := layouts.getD symbol.shndx default
  if !layout.alloc ∨ symbol.value > layout.size then throw (-enoexec)
  return (layout.address + symbol.value) % 2 ^ 64

/-- The checks of one relocation entry before its symbol is resolved. -/
def entryRejected (entry : Rela) (symbols : Shdr) (target : SectionLayout) : Prop :=
  relocationWidth (entry.info % 2 ^ 32) = sizeMax ∨ entry.info / 2 ^ 32 ≥ symbols.size / symSize ∨
    entry.offset > target.size ∨ relocationWidth (entry.info % 2 ^ 32) > target.size - entry.offset

instance (entry : Rela) (symbols : Shdr) (target : SectionLayout) : Decidable (entryRejected entry symbols target) :=
  inferInstanceAs (Decidable (_ ∨ _ ∨ _ ∨ _))

/-- Record what a relocation stored. -/
def recordStore (place : Nat) : Option Store → LoadM Unit
  | none => pure ()
  | some st => TraceM.record (.store place st.width st.value)

/-- The loop of relocate_module over count entries of one RELA section from
entry index, against its symbol table and its target's layout. -/
def relocateEntries (image : Nat → UInt8) (resolveExport : List UInt8 → Except Int Nat) (moduleAddress : Nat)
    (view : ElfView) (layouts : List SectionLayout) (rel symbols : Shdr) (target : SectionLayout) (index : Nat) :
    Nat → LoadM Unit
  | 0 => pure ()
  | count + 1 => do
    let entry := Rela.read image (rel.offset + relaSize * index)
    let type := entry.info % 2 ^ 32
    if entryRejected entry symbols target then throw (-enoexec)
    else
      let symbol := Sym.read image (symbols.offset + symSize * (entry.info / 2 ^ 32))
      if symbol.info % 16 = sttGnuIfunc ∨ symbol.info % 16 = sttTls then throw (-enoexec)
      else do
        let value ← TraceM.lift (resolveElfSymbol image resolveExport moduleAddress view layouts symbols symbol)
        let value := if type = rX86_64Size32 ∨ type = rX86_64Size64 then symbol.size else value
        let place := target.address + entry.offset
        let store ← TraceM.lift (moduleElfApplyRelocation type place value entry.addend place)
        recordStore place store
        relocateEntries image resolveExport moduleAddress view layouts rel symbols target (index + 1) count

/-- One section of the loop of relocate_module. -/
def relocateSection (image : Nat → UInt8) (resolveExport : List UInt8 → Except Int Nat) (moduleAddress : Nat)
    (view : ElfView) (layouts : List SectionLayout) (rel : Shdr) : LoadM Unit :=
  if rel.type ≠ shtRela then pure ()
  else if rel.info ≥ view.sections.length ∨ rel.link ≥ view.sections.length then throw (-enoexec)
  else
    let target := layouts.getD rel.info default
    if !target.alloc then pure ()
    else
      let symbols := view.sections.getD rel.link default
      if symbols.type ≠ shtSymtab ∨ symbols.entsize ≠ symSize then throw (-enoexec)
      else relocateEntries image resolveExport moduleAddress view layouts rel symbols target 0 (rel.size / relaSize)

def relocateLoop (image : Nat → UInt8) (resolveExport : List UInt8 → Except Int Nat) (moduleAddress : Nat)
    (view : ElfView) (layouts : List SectionLayout) : List Shdr → LoadM Unit
  | [] => pure ()
  | rel :: rest => do
    relocateSection image resolveExport moduleAddress view layouts rel
    relocateLoop image resolveExport moduleAddress view layouts rest

/-- relocate_module(internal, view). -/
def relocateModule (image : Nat → UInt8) (resolveExport : List UInt8 → Except Int Nat) (moduleAddress : Nat)
    (view : ElfView) (lay : ModuleLayout) : LoadM Unit :=
  relocateLoop image resolveExport moduleAddress view lay.sections view.sections

/-! ## Where the stores land -/

/-- The width relocate_module checks is the width the relocation stores. -/
theorem storeWidth_of_relocationWidth {type : Nat} (h : relocationWidth type ≠ sizeMax) :
    storeWidth type = relocationWidth type := by
  -- every supported type is below 34; from there on relocation_width is SIZE_MAX
  have hsmall : type < 34 := by
    refine Classical.byContradiction fun hbig => h ?_
    unfold relocationWidth
    rw [if_neg (by unfold rX86_64None; omega), if_neg (by unfold rX86_64_8 rX86_64Pc8; omega),
      if_neg (by unfold rX86_64_16 rX86_64Pc16; omega),
      if_neg (by unfold rX86_64Pc32 rX86_64Plt32 rX86_64_32 rX86_64_32s rX86_64Size32; omega),
      if_neg (by unfold rX86_64_64 rX86_64Pc64 rX86_64Size64; omega)]
  interval_cases type <;> first | rfl | exact absurd rfl h

/-- A store lands inside a section's [address, address + size). -/
def InTarget (target : SectionLayout) : Access → Prop
  | .store place width _ => target.address ≤ place ∧ place + width ≤ target.address + target.size
  | _ => False

theorem logsIn_recordStore {S : Access → Prop} {place : Nat} {store : Option Store}
    (h : ∀ st, store = some st → S (.store place st.width st.value)) : LogsIn S (recordStore place store) := by
  cases store with
  | none => exact logsIn_pure ()
  | some st => exact logsIn_record (h st rfl)

section
variable {image : Nat → UInt8} {resolveExport : List UInt8 → Except Int Nat} {moduleAddress : Nat} {view : ElfView}
  {layouts : List SectionLayout}

/-- Every store of the entries of one RELA section lies in its target. -/
theorem logsIn_relocateEntries {S : Access → Prop} {rel symbols : Shdr} {target : SectionLayout}
    (hin : ∀ place width value, target.address ≤ place → place + width ≤ target.address + target.size →
      S (.store place width value)) :
    ∀ {index count : Nat},
      LogsIn S (relocateEntries image resolveExport moduleAddress view layouts rel symbols target index count)
  | _, 0 => logsIn_pure ()
  | index, count + 1 => by
    unfold relocateEntries
    dsimp only
    split
    · exact logsIn_throw _
    next hok =>
    split
    · exact logsIn_throw _
    refine logsIn_bind (logsIn_lift _) fun value => ?_
    refine logsIn_bind_of_returns (logsIn_lift _) (returns_lift_eq _)
      fun store hstore => logsIn_bind (logsIn_recordStore fun st hst => ?_) fun _ => logsIn_relocateEntries hin
    subst hst
    -- the entry passed the field check with the width the store has
    have hw := moduleElfApplyRelocation_width hstore
    unfold entryRejected at hok
    have hwidth := storeWidth_of_relocationWidth (fun h => hok (.inl h))
    refine hin _ _ _ (Nat.le_add_right _ _) ?_
    omega

/-- Every store relocate_module makes for a RELA section lands in the section
its sh_info names. -/
theorem logsIn_relocateSection (rel : Shdr) :
    LogsIn (InTarget (layouts.getD rel.info default))
      (relocateSection image resolveExport moduleAddress view layouts rel) := by
  unfold relocateSection
  split
  · exact logsIn_pure ()
  split
  · exact logsIn_throw _
  dsimp only
  split
  · exact logsIn_pure ()
  split
  · exact logsIn_throw _
  -- the entries are checked against, and stored into, the layout of sh_info
  exact logsIn_relocateEntries fun _ _ _ hlo hhi => ⟨hlo, hhi⟩

end

/-! ## From the image to the relocated sections -/

/-- A module with a 16-byte .text section aligned to 16, its section name
table at offset 64, a symbol table at 88 with one absolute symbol of value
0x1000, and a RELA section at 112 with one R_X86_64_64 entry at offset 0 of
.text against that symbol. -/
def relaModuleTable : List Shdr :=
  [default, ⟨1, 1, shfAlloc, 64, 16, 0, 0, 16, 0⟩, ⟨7, shtStrtab, 0, 64, 17, 0, 0, 1, 0⟩,
    ⟨0, shtSymtab, 0, 88, 24, 2, 0, 8, symSize⟩, ⟨0, shtRela, 0, 112, 24, 3, 1, 8, relaSize⟩]

def relaModuleView : ElfView := ⟨456, relaModuleTable, 2⟩

/-- Its 456 bytes: the header, the names, the symbol, the relocation and the
section table at 136. -/
def relaModuleImage : Nat → UInt8 :=
  bytesImage (Ehdr.encode ⟨[0x7f, 0x45, 0x4c, 0x46, 2, 1, 1], etRel, emX86_64, 1, 136, 64, 64, 5, 2⟩ ++
    (0 :: ascii ".text" ++ 0 :: ascii ".shstrtab" ++ [0]) ++ List.replicate 7 0 ++
    (leBytes 0 6 ++ leBytes shnAbs 2 ++ leBytes 0x1000 8 ++ leBytes 0 8) ++
    (leBytes 0 8 ++ leBytes rX86_64_64 8 ++ leBytes 0 8) ++ (relaModuleTable.map Shdr.encode).flatten)

/-- The layout: .text takes the region's one page. -/
def relaModuleLayout : ModuleLayout :=
  ⟨[default, ⟨0, 16, shfAlloc, true, false, false, ascii ".text"⟩, default, default, default], 4096, 0, 4096, 0, 0⟩

/-- With .text placed at 0xffffffffa0000000, relocate_module stores the
symbol's 0x1000 in the eight bytes at the start of .text. -/
example : (relocateModule relaModuleImage (fun _ => .error (-enoent)) 0 relaModuleView
    { relaModuleLayout with sections := [default, ⟨0xffffffffa0000000, 16, shfAlloc, true, false, false,
      ascii ".text"⟩, default, default, default] }).exec [] = (.ok (), [.store 0xffffffffa0000000 8 0x1000]) := by
  decide +kernel

end Uinxed.Module
