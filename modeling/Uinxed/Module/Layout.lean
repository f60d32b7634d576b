/-
  Module/Layout.lean --- where the sections of a module go in its region,
  and where its relocations write (layout_sections, map_sections,
  relocation_width, symbol_name_at, resolve_elf_symbol and relocate_module,
  src/kernel/module/module.c).

  layout_sections and map_sections walk the section table twice with the
  same arithmetic: every SHF_ALLOC section goes at the running offset rounded
  up to max(sh_addralign, 4096), and the offset then moves past its size
  rounded up to pages.  The first walk checks every step for overflow and
  gives the region's size; the second assigns the addresses, maps the pages
  and copies the sections in, with ALIGN_UP and a plain addition.  Both are
  the packing of AlignedPack over the same items (placement): the first
  walk's acceptance is Accepted, and under it the second walk computes the
  same offsets (returns_mapLoop), so the pages it maps, the frames[] entries
  it writes and the bytes it copies stay in the region and in the image
  (logsIn_mapLoop).

  relocate_module checks that each relocation's field lies in its target
  section, with the width relocation_width gives; module_elf_apply_relocation
  stores exactly that many bytes (storeWidth_of_relocationWidth), so every
  store lands in its target (logsIn_relocateModule).

  Addresses are Nat: the region [base, base + mapped_size) is one that
  walk_page_tables_find_free found free in the kernel's half, and no address
  in it wraps.  alloc_frames and page_map_new_to are the environment's
  (allocFrame, pageMap: what they return for each page); the kernel heap's
  allocations (calloc, strdup) are taken to succeed.  What the loader logs:
  each frames[] entry it writes, each memset and memcpy into the region, and
  each relocation store.
-/
import Mathlib.Data.List.Forall2
import Uinxed.Module.Elf
import Uinxed.Lib.AlignedPack

set_option autoImplicit false

namespace Uinxed.Module

open TraceExcept AlignedPack

/-! ## Constants and arithmetic -/

def page4kSize : Nat := 4096

/-- MODULE_MAX_SIZE with CONFIG_MODULE_MAX_SIZE 64. -/
def moduleMaxSize : Nat := 64 * 1024 * 1024

def moduleVaddrOffset : Nat := 0x20000000
def moduleVaddrLimit : Nat := 0x78000000

def stbWeak : Nat := 2
def sttTls : Nat := 6
def sttGnuIfunc : Nat := 10

/-- The bytes of an ASCII string. -/
def ascii (s : String) : List UInt8 := s.toList.map fun c => c.toNat.toUInt8

/-- size_add(left, right, &result). -/
def sizeAdd (left right : Nat) : Except Int Nat :=
  if right > sizeMax - left then .error (-eoverflow) else .ok (left + right)

/-- align_size(value, alignment, &result).  For a power of two,
x & ~(alignment - 1) is x rounded down to a multiple of alignment. -/
def alignSize (value alignment : Nat) : Except Int Nat :=
  let alignment := if alignment = 0 then 1 else alignment
  if alignment &&& (alignment - 1) ≠ 0 then .error (-enoexec)
  else if value > sizeMax - (alignment - 1) then .error (-eoverflow)
  else .ok (roundUp value alignment)

/-- ALIGN_UP(value, PAGE_4K_SIZE) on a size_t. -/
def alignUp4k (value : Nat) : Nat := (value + page4kSize - 1) % 2 ^ 64 / page4kSize * page4kSize

/-- The alignment both walks give a section: sh_addralign, at least a page. -/
def sectionAlignment (sec : Shdr) : Nat := if sec.addralign < page4kSize then page4kSize else sec.addralign

theorem alignSize_eq_ok {value alignment r : Nat} (ha : 0 < alignment) (h : alignSize value alignment = .ok r) :
    r = roundUp value alignment ∧ value ≤ sizeMax - (alignment - 1) := by
  unfold alignSize at h
  rw [if_neg (Nat.pos_iff_ne_zero.mp ha)] at h
  dsimp only at h
  split at h
  · cases h
  split at h
  · cases h
  next hv =>
  cases h
  exact ⟨rfl, Nat.le_of_not_gt hv⟩

/-- Without overflow, ALIGN_UP is the rounding up. -/
theorem alignUp4k_of_le {value : Nat} (h : value ≤ sizeMax - (page4kSize - 1)) :
    alignUp4k value = roundUp value page4kSize := by
  unfold alignUp4k roundUp
  rw [Nat.mod_eq_of_lt (by unfold sizeMax page4kSize at *; omega)]

/-! ## Names -/

/-- string_bounded(image + start, available) with the string it accepts: the
bytes before the first NUL among the first available. -/
def boundedString (image : Nat → UInt8) (start : Nat) : Nat → Option (List UInt8)
  | 0 => none
  | n + 1 => if image start = 0 then some [] else (boundedString image (start + 1) n).map (image start :: ·)

/-- section_name(view, index). -/
def sectionName (image : Nat → UInt8) (view : ElfView) (index : Nat) : Option (List UInt8) :=
  if index ≥ view.sections.length ∨ view.nameIndex = shnUndef then none
  else
    let strings := view.sections.getD view.nameIndex default
    let offset := (view.sections.getD index default).name
    if offset ≥ strings.size then none
    else boundedString image (strings.offset + offset) (strings.size - offset)

/-! ## layout_sections -/

/-- module_section_layout_t; the default is calloc's. -/
structure SectionLayout where
  address : Nat
  size : Nat
  flags : Nat
  alloc : Bool
  init : Bool
  roAfterInit : Bool
  name : List UInt8
  deriving DecidableEq, Repr, Inhabited

/-- The fields of module_internal_t that layout_sections and map_sections
set, with the module's init_size and core_size. -/
structure ModuleLayout where
  sections : List SectionLayout
  mappedSize : Nat
  initSize : Nat
  coreSize : Nat
  base : Nat
  pageCount : Nat
  deriving DecidableEq, Repr

/-- The locals of the loop of layout_sections. -/
structure LayoutAcc where
  total : Nat
  sections : List SectionLayout
  initSize : Nat
  coreSize : Nat
  deriving DecidableEq, Repr

/-- The new total of layout_sections: size_add, then the MODULE_MAX_SIZE
bound, both failing with -E2BIG. -/
def checkedTotal (total mapped : Nat) : Except Int Nat :=
  match sizeAdd total mapped with
  | .error _ => .error (-e2big)
  | .ok total => if total > moduleMaxSize then .error (-e2big) else .ok total

/-- One section of the loop of layout_sections. -/
def layoutSection (image : Nat → UInt8) (view : ElfView) (index : Nat) (sec : Shdr) (acc : LayoutAcc) :
    Except Int LayoutAcc :=
  if sec.flags &&& shfAlloc = 0 then .ok { acc with sections := acc.sections ++ [default] }
  else if sec.flags &&& shfTls ≠ 0 then .error (-enoexec)
  else do
    let total ← alignSize acc.total (sectionAlignment sec)
    let mapped ← alignSize sec.size page4kSize
    let total ← checkedTotal total mapped
    match sectionName image view index with
    | none => .error (-enoexec)
    | some name =>
      let init := name.take 5 = ascii ".init"
      let layout : SectionLayout :=
        ⟨0, sec.size, sec.flags, true, init, name = ascii ".data..ro_after_init", name⟩
      .ok { total, sections := acc.sections ++ [layout],
            initSize := if init then acc.initSize + mapped else acc.initSize,
            coreSize := if init then acc.coreSize else acc.coreSize + mapped }

def layoutLoop (image : Nat → UInt8) (view : ElfView) : Nat → List Shdr → LayoutAcc → Except Int LayoutAcc
  | _, [], acc => .ok acc
  | index, sec :: rest, acc => do
    let acc ← layoutSection image view index sec acc
    layoutLoop image view (index + 1) rest acc

/-- layout_sections(internal, view). -/
def layoutSections (image : Nat → UInt8) (view : ElfView) : Except Int ModuleLayout := do
  let acc ← layoutLoop image view 0 view.sections ⟨0, [], 0, 0⟩
  if acc.total = 0 then .error (-enoexec)
  else .ok ⟨acc.sections, acc.total, acc.initSize, acc.coreSize, 0, 0⟩

/-! ## map_sections -/

/-- What the loader does to memory. -/
inductive Access where
  /-- internal->frames[index] = frame. -/
  | frame (index : Nat)
  /-- memset(address, 0, length). -/
  | fill (address length : Nat)
  /-- memcpy(address, image + source, length). -/
  | copy (address source length : Nat)
  /-- A relocation stores width bytes of value at place. -/
  | store (place width value : Nat)
  deriving DecidableEq, Repr

abbrev LoadM := TraceM Int Access

/-- The page loop of map_sections for count pages from frame index first. -/
def mapPages (allocFrame : Nat → Nat) (pageMap : Nat → Nat → Int) (base first : Nat) : Nat → LoadM Unit
  | 0 => pure ()
  | count + 1 =>
    let frame := allocFrame first
    if frame = 0 then throw (-enomem)
    else if pageMap (base + first * page4kSize) frame ≠ 0 then throw (-enomem)
    else do
      TraceM.record (.frame first)
      mapPages allocFrame pageMap base (first + 1) count

/-- The memset and memcpy of a section at its address. -/
def fillSection (address : Nat) (sec : Shdr) : LoadM Unit :=
  if sec.size = 0 then pure ()
  else do
    TraceM.record (.fill address sec.size)
    if sec.type = shtNobits then pure () else TraceM.record (.copy address sec.offset sec.size)

/-- align_size in map_sections: any failure is -EOVERFLOW. -/
def alignOffset (offset alignment : Nat) : LoadM Nat :=
  match alignSize offset alignment with
  | .error _ => throw (-eoverflow)
  | .ok offset => pure offset

/-- The section loop of map_sections from a running offset, over each
section with its layout. -/
def mapLoop (allocFrame : Nat → Nat) (pageMap : Nat → Nat → Int) (base : Nat) :
    Nat → List (Shdr × SectionLayout) → LoadM (List SectionLayout)
  | _, [] => pure []
  | offset, (sec, layout) :: rest =>
    if layout.alloc then do
      let offset ← alignOffset offset (sectionAlignment sec)
      mapPages allocFrame pageMap base (offset / page4kSize) (alignUp4k sec.size / page4kSize)
      fillSection (base + offset) sec
      let rest ← mapLoop allocFrame pageMap base ((offset + alignUp4k sec.size) % 2 ^ 64) rest
      pure ({ layout with address := base + offset } :: rest)
    else do
      let rest ← mapLoop allocFrame pageMap base offset rest
      pure (layout :: rest)

/-- map_sections(internal, view), where walk_page_tables_find_free returned
base and kernel_base is the kernel's virtual base. -/
def mapSections (allocFrame : Nat → Nat) (pageMap : Nat → Nat → Int) (kernelBase base : Nat) (view : ElfView)
    (lay : ModuleLayout) : LoadM ModuleLayout :=
  let search := kernelBase + moduleVaddrOffset
  if base = 0 ∨ base < search ∨ base - kernelBase > moduleVaddrLimit ∨
      lay.mappedSize > moduleVaddrLimit - (base - kernelBase) then throw (-enomem)
  else do
    let sections ← mapLoop allocFrame pageMap base 0 (view.sections.zip lay.sections)
    pure { lay with base, pageCount := lay.mappedSize / page4kSize, sections }

/-! ## The first walk -/

/-- Where the walks put a section: an SHF_ALLOC section takes its size
rounded up to pages, at a multiple of its alignment; any other takes no
place. -/
def placement (sec : Shdr) : Option (Nat × Nat) :=
  if sec.flags &&& shfAlloc = 0 then none else some (sectionAlignment sec, roundUp sec.size page4kSize)

theorem sectionAlignment_pos (sec : Shdr) : 0 < sectionAlignment sec := by
  unfold sectionAlignment page4kSize
  split <;> omega

theorem positive_placement (secs : List Shdr) : Positive (secs.map placement) := by
  intro a n hm
  obtain ⟨sec, -, hsec⟩ := List.mem_map.mp hm
  unfold placement at hsec
  split at hsec
  · cases hsec
  · cases hsec
    exact sectionAlignment_pos sec

/-- layout_sections accepted the sections from offset o: at each SHF_ALLOC
section the alignment succeeds, the size rounds up to pages without
overflow, and the region stays within MODULE_MAX_SIZE. -/
def Accepted : Nat → List Shdr → Prop
  | _, [] => True
  | o, sec :: rest =>
    if sec.flags &&& shfAlloc = 0 then Accepted o rest
    else alignSize o (sectionAlignment sec) = .ok (roundUp o (sectionAlignment sec)) ∧
      sec.size ≤ sizeMax - (page4kSize - 1) ∧
      roundUp o (sectionAlignment sec) + roundUp sec.size page4kSize ≤ moduleMaxSize ∧
      Accepted (roundUp o (sectionAlignment sec) + roundUp sec.size page4kSize) rest

/-- The layout marks a section alloc exactly when it is SHF_ALLOC. -/
def AllocAgrees (sec : Shdr) (layout : SectionLayout) : Prop := layout.alloc = true ↔ sec.flags &&& shfAlloc ≠ 0

theorem AllocAgrees.alloc_eq_false {sec : Shdr} {layout : SectionLayout} (h : AllocAgrees sec layout)
    (halloc : sec.flags &&& shfAlloc = 0) : layout.alloc = false :=
  Bool.eq_false_iff.mpr fun hla => h.mp hla halloc

/-- An offset within MODULE_MAX_SIZE does not wrap as a size_t. -/
theorem mod_of_le_moduleMaxSize {x : Nat} (h : x ≤ moduleMaxSize) : x % 2 ^ 64 = x :=
  Nat.mod_eq_of_lt (by unfold moduleMaxSize at h; omega)

theorem checkedTotal_eq_ok {total mapped r : Nat} (h : checkedTotal total mapped = .ok r) :
    r = total + mapped ∧ r ≤ moduleMaxSize := by
  unfold checkedTotal at h
  split at h
  · cases h
  next t ht =>
  unfold sizeAdd at ht
  split at ht
  · cases ht
  cases ht
  split at h
  · cases h
  next hmax =>
  cases h
  exact ⟨rfl, Nat.le_of_not_gt hmax⟩

/-- What one section of layout_sections does when it succeeds. -/
theorem layoutSection_eq_ok {image : Nat → UInt8} {view : ElfView} {index : Nat} {sec : Shdr} {acc acc' : LayoutAcc}
    (h : layoutSection image view index sec acc = .ok acc') :
    (sec.flags &&& shfAlloc = 0 ∧ acc'.total = acc.total ∧ acc'.sections = acc.sections ++ [default]) ∨
      (sec.flags &&& shfAlloc ≠ 0 ∧
        alignSize acc.total (sectionAlignment sec) = .ok (roundUp acc.total (sectionAlignment sec)) ∧
        sec.size ≤ sizeMax - (page4kSize - 1) ∧
        acc'.total = roundUp acc.total (sectionAlignment sec) + roundUp sec.size page4kSize ∧
        acc'.total ≤ moduleMaxSize ∧
        ∃ layout : SectionLayout, layout.alloc = true ∧ acc'.sections = acc.sections ++ [layout]) := by
  unfold layoutSection at h
  split at h
  · next halloc =>
    cases h
    exact .inl ⟨halloc, rfl, rfl⟩
  next halloc =>
  split at h
  · cases h
  obtain ⟨total, htotal, h⟩ := except_bind_ok h
  obtain ⟨mapped, hmapped, h⟩ := except_bind_ok h
  obtain ⟨t, ht, h⟩ := except_bind_ok h
  obtain ⟨rfl, -⟩ := alignSize_eq_ok (sectionAlignment_pos sec) htotal
  obtain ⟨rfl, hsize⟩ := alignSize_eq_ok (by decide) hmapped
  obtain ⟨rfl, hmax⟩ := checkedTotal_eq_ok ht
  split at h
  · cases h
  · cases h
    exact .inr ⟨halloc, htotal, hsize, rfl, hmax, _, rfl, rfl⟩

/-- A successful loop of layout_sections was accepted, ends at the packing's
finish, and marks alloc exactly the SHF_ALLOC sections. -/
theorem layoutLoop_eq_ok {image : Nat → UInt8} {view : ElfView} :
    ∀ {index : Nat} {secs : List Shdr} {acc acc' : LayoutAcc}, layoutLoop image view index secs acc = .ok acc' →
      Accepted acc.total secs ∧ acc'.total = finish acc.total (secs.map placement) ∧
        ∃ ls, acc'.sections = acc.sections ++ ls ∧ List.Forall₂ AllocAgrees secs ls
  | _, [], acc, acc', h => by
    cases h
    exact ⟨trivial, rfl, [], (List.append_nil _).symm, .nil⟩
  | index, sec :: rest, acc, acc', h => by
    obtain ⟨acc1, h1, h⟩ := except_bind_ok h
    obtain ⟨hacc, htotal, ls, hls, hagree⟩ := layoutLoop_eq_ok h
    rcases layoutSection_eq_ok h1 with ⟨halloc, htot1, hsec1⟩ | ⟨halloc, halign, hsize, htot1, hmax, layout, hl, hsec1⟩
    · -- a section that takes no place keeps the offset
      rw [htot1] at hacc htotal
      refine ⟨?_, ?_, default :: ls, ?_, .cons ?_ hagree⟩
      · rw [Accepted, if_pos halloc]
        exact hacc
      · rw [List.map_cons, placement, if_pos halloc, finish]
        exact htotal
      · rw [hls, hsec1, List.append_assoc]
        rfl
      · exact ⟨fun h => absurd h Bool.false_ne_true, fun h => absurd halloc h⟩
    · -- a placed section moves it past its pages
      rw [htot1] at hacc htotal
      refine ⟨?_, ?_, layout :: ls, ?_, .cons ⟨fun _ => halloc, fun _ => hl⟩ hagree⟩
      · rw [Accepted, if_neg halloc]
        exact ⟨halign, hsize, by omega, hacc⟩
      · rw [List.map_cons, placement, if_neg halloc, finish]
        exact htotal
      · rw [hls, hsec1, List.append_assoc]
        rfl

/-- What layout_sections leaves for map_sections. -/
theorem layoutSections_eq_ok {image : Nat → UInt8} {view : ElfView} {lay : ModuleLayout}
    (h : layoutSections image view = .ok lay) :
    Accepted 0 view.sections ∧ lay.mappedSize = finish 0 (view.sections.map placement) ∧
      List.Forall₂ AllocAgrees view.sections lay.sections := by
  unfold layoutSections at h
  obtain ⟨acc, hloop, h⟩ := except_bind_ok h
  split at h
  · cases h
  cases h
  obtain ⟨hacc, htotal, ls, hls, hagree⟩ := layoutLoop_eq_ok hloop
  refine ⟨hacc, htotal, ?_⟩
  rw [hls, List.nil_append]
  exact hagree

/-! ## The second walk -/

/-- The page range each SHF_ALLOC section was given, in section order: its
alignment, its address and its page-rounded size. -/
def assigned (sections : List Shdr) (layouts : List SectionLayout) : List Span :=
  (sections.zip layouts).filterMap fun p => (placement p.1).map fun an => ⟨an.1, p.2.address, an.2⟩

theorem assigned_cons (sec : Shdr) (layout : SectionLayout) (secs : List Shdr) (ls : List SectionLayout) :
    assigned (sec :: secs) (layout :: ls) =
      match placement sec with
      | none => assigned secs ls
      | some an => ⟨an.1, layout.address, an.2⟩ :: assigned secs ls := by
  unfold assigned
  rw [List.zip_cons_cons, List.filterMap_cons]
  cases placement sec <;> rfl

/-- What map_sections may do to memory in a region of mappedSize bytes at
base, copying from an image of imageSize bytes. -/
def MapAccessOk (imageSize base mappedSize : Nat) : Access → Prop
  | .frame index => index < mappedSize / page4kSize
  | .fill address length => base ≤ address ∧ address + length ≤ base + mappedSize
  | .copy address source length => source + length ≤ imageSize ∧ base ≤ address ∧ address + length ≤ base + mappedSize
  | .store _ _ _ => False

theorem alignOffset_of_ok {offset alignment r : Nat} (h : alignSize offset alignment = .ok r) :
    alignOffset offset alignment = pure r := by
  simp only [alignOffset, h]

theorem logsIn_mapPages {allocFrame : Nat → Nat} {pageMap : Nat → Nat → Int} {base : Nat} {S : Access → Prop} :
    ∀ {first count : Nat}, (∀ i, first ≤ i → i < first + count → S (.frame i)) →
      LogsIn S (mapPages allocFrame pageMap base first count)
  | _, 0, _ => logsIn_pure ()
  | first, count + 1, hS => by
    unfold mapPages
    dsimp only
    split
    · exact logsIn_throw _
    split
    · exact logsIn_throw _
    exact logsIn_bind (logsIn_record (hS first (Nat.le_refl _) (by omega)))
      fun _ => logsIn_mapPages fun i hi hlt => hS i (by omega) (by omega)

theorem logsIn_fillSection {S : Access → Prop} {address : Nat} {sec : Shdr} (hfill : S (.fill address sec.size))
    (hcopy : sec.type ≠ shtNobits → S (.copy address sec.offset sec.size)) : LogsIn S (fillSection address sec) := by
  unfold fillSection
  split
  · exact logsIn_pure ()
  refine logsIn_bind (logsIn_record hfill) fun _ => ?_
  split
  · exact logsIn_pure ()
  · next ht => exact logsIn_record (hcopy ht)

/-- Under the first walk's acceptance, the second walk gives each section the
offset the packing gives it. -/
theorem returns_mapLoop {allocFrame : Nat → Nat} {pageMap : Nat → Nat → Int} {base : Nat} :
    ∀ {o : Nat} {secs : List Shdr} {ls : List SectionLayout}, Accepted o secs → List.Forall₂ AllocAgrees secs ls →
      Returns (fun ls' => ls'.length = secs.length ∧
          assigned secs ls' = (spans o (secs.map placement)).map (Span.shift base))
        (mapLoop allocFrame pageMap base o (secs.zip ls))
  | _, [], [], _, .nil => returns_pure ⟨rfl, rfl⟩
  | o, sec :: rest, layout :: ls, hacc, .cons hagree hrest => by
    rw [List.zip_cons_cons]
    unfold mapLoop
    by_cases halloc : sec.flags &&& shfAlloc = 0
    · -- not placed: the layout is not alloc, and the offset stays
      have hl := hagree.alloc_eq_false halloc
      rw [Accepted, if_pos halloc] at hacc
      rw [if_neg (by rw [hl]; decide)]
      refine returns_bind (returns_mapLoop hacc hrest) fun rest' ⟨hlen, hassigned⟩ => returns_pure ⟨?_, ?_⟩
      · rw [List.length_cons, List.length_cons, hlen]
      · rw [assigned_cons, List.map_cons, placement, if_pos halloc, spans]
        exact hassigned
    · -- placed: the same alignment as the first walk, and no overflow
      have hl : layout.alloc = true := hagree.mpr halloc
      rw [Accepted, if_neg halloc] at hacc
      obtain ⟨halign, hsize, hmax, hacc⟩ := hacc
      rw [if_pos hl, alignOffset_of_ok halign, pure_bind, alignUp4k_of_le hsize, mod_of_le_moduleMaxSize hmax]
      refine returns_bind (fun _ _ _ _ => trivial) fun _ _ => returns_bind (fun _ _ _ _ => trivial) fun _ _ =>
        returns_bind (returns_mapLoop hacc hrest) fun rest' ⟨hlen, hassigned⟩ => returns_pure ⟨?_, ?_⟩
      · rw [List.length_cons, List.length_cons, hlen]
      · rw [assigned_cons, List.map_cons, placement, if_neg halloc, spans, List.map_cons, hassigned]
        rfl

/-- Under the first walk's acceptance, every frames[] index the second walk
writes is below the region's page count, and every memset and memcpy stays
in the region and copies from inside the image. -/
theorem logsIn_mapLoop {allocFrame : Nat → Nat} {pageMap : Nat → Nat → Int} {base imageSize limit : Nat} :
    ∀ {o : Nat} {secs : List Shdr} {ls : List SectionLayout}, Accepted o secs → List.Forall₂ AllocAgrees secs ls →
      (∀ sec ∈ secs, sec.type ≠ shtNobits → rangeValid sec.offset sec.size imageSize) →
      finish o (secs.map placement) ≤ limit →
      LogsIn (MapAccessOk imageSize base limit) (mapLoop allocFrame pageMap base o (secs.zip ls))
  | _, [], [], _, .nil, _, _ => logsIn_pure _
  | o, sec :: rest, layout :: ls, hacc, .cons hagree hrest, himage, hlimit => by
    rw [List.zip_cons_cons]
    unfold mapLoop
    have himage' : ∀ s ∈ rest, s.type ≠ shtNobits → rangeValid s.offset s.size imageSize :=
      fun s hs => himage s (List.mem_cons_of_mem sec hs)
    by_cases halloc : sec.flags &&& shfAlloc = 0
    · have hl := hagree.alloc_eq_false halloc
      rw [Accepted, if_pos halloc] at hacc
      rw [List.map_cons, placement, if_pos halloc, finish] at hlimit
      rw [if_neg (by rw [hl]; decide)]
      exact logsIn_bind (logsIn_mapLoop hacc hrest himage' hlimit) fun _ => logsIn_pure _
    · have hl : layout.alloc = true := hagree.mpr halloc
      rw [Accepted, if_neg halloc] at hacc
      obtain ⟨halign, hsize, hmax, hacc⟩ := hacc
      rw [List.map_cons, placement, if_neg halloc, finish] at hlimit
      -- the section's pages [start, start + mapped) end before the limit
      generalize hstart : roundUp o (sectionAlignment sec) = start at hlimit hmax hacc
      generalize hmapped : roundUp sec.size page4kSize = mapped at hlimit hmax hacc
      have hend : start + mapped ≤ limit :=
        Nat.le_trans (le_finish (positive_placement rest)) hlimit
      have hcover : sec.size ≤ mapped := hmapped ▸ le_roundUp (by decide)
      have hpages : mapped % page4kSize = 0 := hmapped ▸ roundUp_mod _ _
      rw [if_pos hl, alignOffset_of_ok halign, pure_bind, alignUp4k_of_le hsize, hstart, hmapped,
        mod_of_le_moduleMaxSize hmax]
      refine logsIn_bind (logsIn_mapPages fun i _ hi => ?_) fun _ =>
        logsIn_bind (logsIn_fillSection ⟨?_, ?_⟩ fun ht => ⟨?_, ?_, ?_⟩) fun _ =>
          logsIn_bind (logsIn_mapLoop hacc hrest himage' hlimit) fun _ => logsIn_pure _
      · show i < limit / page4kSize
        unfold page4kSize at *
        omega
      · omega
      · omega
      · have hr := himage sec List.mem_cons_self ht
        unfold rangeValid at hr
        omega
      · omega
      · omega

/-- What map_sections promises of the layout it returns: the region's base
and page count, and for every SHF_ALLOC section a page range at base plus an
offset aligned to max(sh_addralign, 4096), inside the region and before the
next section's. -/
structure Placed (view : ElfView) (lay : ModuleLayout) (base : Nat) (lay' : ModuleLayout) : Prop where
  base_eq : lay'.base = base
  pageCount_eq : lay'.pageCount = lay.mappedSize / page4kSize
  length_eq : lay'.sections.length = view.sections.length
  inside : ∀ p ∈ assigned view.sections lay'.sections, base ≤ p.start ∧ p.stop ≤ base + lay.mappedSize
  aligned : ∀ p ∈ assigned view.sections lay'.sections, (p.start - base) % p.align = 0
  disjoint : (assigned view.sections lay'.sections).Pairwise fun p q => p.stop ≤ q.start

section
variable {allocFrame : Nat → Nat} {pageMap : Nat → Nat → Int} {kernelBase base : Nat} {view : ElfView}
  {lay : ModuleLayout}

theorem returns_mapSections (hacc : Accepted 0 view.sections)
    (hagree : List.Forall₂ AllocAgrees view.sections lay.sections)
    (hsize : lay.mappedSize = finish 0 (view.sections.map placement)) :
    Returns (Placed view lay base) (mapSections allocFrame pageMap kernelBase base view lay) := by
  unfold mapSections
  dsimp only
  split
  · exact returns_throw _
  refine returns_bind (returns_mapLoop hacc hagree) fun ls' ⟨hlen, hassigned⟩ => returns_pure ?_
  -- the packing's spans, moved to base
  have hspans := mem_spans (o := 0) (positive_placement view.sections)
  refine ⟨rfl, rfl, hlen, fun p hp => ?_, fun p hp => ?_, ?_⟩
  · rw [hassigned] at hp
    obtain ⟨q, hq, rfl⟩ := List.mem_map.mp hp
    obtain ⟨-, hstop, -⟩ := hspans q hq
    rw [← hsize] at hstop
    unfold Span.stop at *
    simp only [Span.shift_start, Span.shift_length]
    omega
  · rw [hassigned] at hp
    obtain ⟨q, hq, rfl⟩ := List.mem_map.mp hp
    rw [Span.shift_start, Span.shift_align, Nat.add_sub_cancel_left]
    exact (hspans q hq).2.2
  · rw [hassigned, List.pairwise_map]
    refine (pairwise_spans (positive_placement view.sections)).imp fun {p q} h => ?_
    unfold Span.stop at *
    simp only [Span.shift_start, Span.shift_length]
    omega

theorem logsIn_mapSections {imageSize : Nat} (hacc : Accepted 0 view.sections)
    (hagree : List.Forall₂ AllocAgrees view.sections lay.sections)
    (hsize : lay.mappedSize = finish 0 (view.sections.map placement))
    (himage : ∀ sec ∈ view.sections, sec.type ≠ shtNobits → rangeValid sec.offset sec.size imageSize) :
    LogsIn (MapAccessOk imageSize base lay.mappedSize) (mapSections allocFrame pageMap kernelBase base view lay) := by
  unfold mapSections
  dsimp only
  split
  · exact logsIn_throw _
  exact logsIn_bind (logsIn_mapLoop hacc hagree himage (Nat.le_of_eq hsize.symm)) fun _ => logsIn_pure _

end
end Uinxed.Module
