/-
  Usb/HidParse.lean --- the report descriptor parser of the USB HID class
  driver (hid_unsigned_value, hid_signed_value, hid_add_input_field and
  usb_hid_parse_report_descriptor, src/drivers/usb/class/hid/hid_parser.c).

  The parser is a state machine over the items of the descriptor: a stack
  of global states (the current one and those saved by Push), the local
  state that every main item resets, a stack of the applications of the
  open collections, and the report it fills.  hidParseItem is one turn of
  its loop (a long item is skipped whole), hidShortItem the switch on the
  item's type and tag, and hidParseLoop the loop itself.

  Every Input item adds report_size * report_count bits to the report
  bits of its report ID, and one that is not constant padding records a
  field at the bits there before it.  So the fields of one report ID lie
  one after the other below that report's bits (LaidOut, laidOut_parse).

  Not modelled: the log messages and the null-pointer checks.
-/
import Mathlib.Algebra.GroupWithZero.Nat
import Mathlib.Data.List.Basic
import Mathlib.Algebra.Group.Int.Defs

set_option autoImplicit false

namespace Uinxed.Hid

/-! ## Constants -/

def eok : Int := 0
def e2big : Int := 7
def einval : Int := 22
def eoverflow : Int := 75

def hidItemTypeMain : Nat := 0
def hidItemTypeGlobal : Nat := 1
def hidItemTypeLocal : Nat := 2

def hidMainInput : Nat := 8
def hidMainCollection : Nat := 10
def hidMainEndCollection : Nat := 12

def hidGlobalUsagePage : Nat := 0
def hidGlobalLogicalMin : Nat := 1
def hidGlobalLogicalMax : Nat := 2
def hidGlobalReportSize : Nat := 7
def hidGlobalReportId : Nat := 8
def hidGlobalReportCount : Nat := 9
def hidGlobalPush : Nat := 10
def hidGlobalPop : Nat := 11

def hidLocalUsage : Nat := 0
def hidLocalUsageMin : Nat := 1
def hidLocalUsageMax : Nat := 2

def hidCollectionApplication : Nat := 1

def usbHidMaxFields : Nat := 64
def usbHidMaxUsages : Nat := 32
def usbHidMaxApplications : Nat := 8
def usbHidMaxReportIds : Nat := 256

def usbHidMainConstant : Nat := 0x01
def usbHidMainVariable : Nat := 0x02
def usbHidMainRelative : Nat := 0x04

/-- The entries of globals[] and of applications[]. -/
def hidGlobalSlots : Nat := 5
def hidCollectionSlots : Nat := 16

/-! ## Item values -/

/-- (int32_t) of a 32-bit value. -/
def toInt32 (v : Nat) : Int := if v < 2 ^ 31 then v else (v : Int) - 2 ^ 32

/-- hid_unsigned_value(data, size): the bytes little-endian. -/
def hidUnsignedValue : List UInt8 → Nat
  | [] => 0
  | b :: bs => b.toNat + 256 * hidUnsignedValue bs

/-- hid_signed_value(data, size): sign-extended from the item's size. -/
def hidSignedValue (bytes : List UInt8) : Int :=
  if bytes.length = 0 ∨ bytes.length ≥ 4 then toInt32 (hidUnsignedValue bytes)
  else if hidUnsignedValue bytes &&& 2 ^ (bytes.length * 8 - 1) ≠ 0 then
    (hidUnsignedValue bytes : Int) - 2 ^ (bytes.length * 8)
  else hidUnsignedValue bytes

/-! ## The state -/

/-- hid_global_state_t. -/
structure HidGlobal where
  usagePage : Nat
  logicalMinimum : Int
  logicalMaximum : Int
  reportSize : Nat
  reportCount : Nat
  reportId : Nat
  deriving DecidableEq, Repr

/-- hid_local_state_t; usages holds usages[] and usage_pages[] up to
usage_count. -/
structure HidLocal where
  usages : List (Nat × Nat)
  usageMinimum : Nat
  usageMaximum : Nat
  usageMinimumPage : Nat
  usageMaximumPage : Nat
  hasUsageMinimum : Bool
  hasUsageMaximum : Bool
  deriving DecidableEq, Repr

/-- usb_hid_field_t; usages holds usages[] and usage_pages[] up to
usage_count, and previous is the 32 words of previous[]. -/
structure HidField where
  reportId : Nat
  application : Nat
  usagePage : Nat
  usages : List (Nat × Nat)
  usageMinimum : Nat
  usageMaximum : Nat
  usageMinimumPage : Nat
  usageMaximumPage : Nat
  bitOffset : Nat
  reportSize : Nat
  reportCount : Nat
  flags : Nat
  logicalMinimum : Int
  logicalMaximum : Int
  previous : List Nat
  previousCount : Nat
  deriving DecidableEq, Repr

/-- usb_hid_report_t; fields and applications up to their counts. -/
structure HidReport where
  fields : List HidField
  applications : List (Nat × Nat)
  applicationCount : Nat
  reportBits : Nat → Nat
  numberedReports : Bool

/-- The parser's state: the current global state with those Push saved
(global_depth of them), the local state, the applications of the open
collections (collection_depth of them), the current application, and the
report. -/
structure HidParser where
  global : HidGlobal
  saved : List HidGlobal
  locals : HidLocal
  openApplications : List Nat
  currentApplication : Nat
  report : HidReport

def HidGlobal.zero : HidGlobal := ⟨0, 0, 0, 0, 0, 0⟩
def HidLocal.zero : HidLocal := ⟨[], 0, 0, 0, 0, false, false⟩
def HidReport.zero : HidReport := ⟨[], [], 0, fun _ => 0, false⟩

/-- The state before the first item. -/
def HidParser.init : HidParser := ⟨HidGlobal.zero, [], HidLocal.zero, [], 0, HidReport.zero⟩

/-! ## Items -/

/-- hid_add_input_field(report, global, local, application, flags). -/
def hidAddInputField (report : HidReport) (g : HidGlobal) (l : HidLocal) (application flags : Nat) :
    Except Int HidReport :=
  if g.reportSize * g.reportCount > 0xffff ∨ report.reportBits g.reportId > 0xffff - g.reportSize * g.reportCount then
    .error (-eoverflow)
  else if flags &&& usbHidMainConstant = 0 then
    if g.reportSize = 0 ∨ g.reportCount = 0 ∨ g.reportSize > 32 then .error (-einval)
    else if g.reportCount > usbHidMaxUsages ∨ report.fields.length ≥ usbHidMaxFields then .error (-e2big)
    else
      .ok { report with
        fields := report.fields ++
          [{ reportId := g.reportId
             application := application
             usagePage := g.usagePage
             usages := l.usages
             usageMinimum := if l.hasUsageMinimum then l.usageMinimum else 0
             usageMaximum := if l.hasUsageMaximum then l.usageMaximum else 0
             usageMinimumPage := if l.hasUsageMinimum then l.usageMinimumPage else g.usagePage
             usageMaximumPage := if l.hasUsageMaximum then l.usageMaximumPage else g.usagePage
             bitOffset := report.reportBits g.reportId
             reportSize := g.reportSize
             reportCount := g.reportCount
             flags := flags
             logicalMinimum := g.logicalMinimum
             logicalMaximum := g.logicalMaximum
             previous := List.replicate usbHidMaxUsages 0
             previousCount := 0 }]
        reportBits := Function.update report.reportBits g.reportId
          (report.reportBits g.reportId + g.reportSize * g.reportCount) }
  -- constant padding only moves the bit cursor
  else
    .ok { report with
      reportBits := Function.update report.reportBits g.reportId
        (report.reportBits g.reportId + g.reportSize * g.reportCount) }

/-- A global item. -/
def hidGlobalItem (p : HidParser) (tag : Nat) (bytes : List UInt8) : Except Int HidParser :=
  if tag = hidGlobalUsagePage then .ok { p with global := { p.global with usagePage := hidUnsignedValue bytes % 2 ^ 16 } }
  else if tag = hidGlobalLogicalMin then .ok { p with global := { p.global with logicalMinimum := hidSignedValue bytes } }
  else if tag = hidGlobalLogicalMax then
    .ok { p with global := { p.global with
      logicalMaximum := if p.global.logicalMinimum < 0 then hidSignedValue bytes else toInt32 (hidUnsignedValue bytes) } }
  else if tag = hidGlobalReportSize then
    if hidUnsignedValue bytes > 32 then .error (-einval)
    else .ok { p with global := { p.global with reportSize := hidUnsignedValue bytes } }
  else if tag = hidGlobalReportId then
    if hidUnsignedValue bytes = 0 ∨ hidUnsignedValue bytes ≥ usbHidMaxReportIds then .error (-einval)
    else .ok { p with global := { p.global with reportId := hidUnsignedValue bytes },
                      report := { p.report with numberedReports := true } }
  else if tag = hidGlobalReportCount then
    if hidUnsignedValue bytes > usbHidMaxUsages then .error (-e2big)
    else .ok { p with global := { p.global with reportCount := hidUnsignedValue bytes } }
  else if tag = hidGlobalPush then
    if p.saved.length + 1 ≥ hidGlobalSlots then .error (-e2big)
    else .ok { p with saved := p.global :: p.saved }
  else if tag = hidGlobalPop then
    match p.saved with
    | [] => .error (-einval)
    | g :: saved => .ok { p with global := g, saved := saved }
  else .ok p

/-- hid_local_usage_page: a 4-byte local item carries its page. -/
def hidLocalUsagePage (value size globalPage : Nat) : Nat := if size = 4 then (value >>> 16) % 2 ^ 16 else globalPage

/-- A local item. -/
def hidLocalItem (p : HidParser) (tag : Nat) (bytes : List UInt8) : Except Int HidParser :=
  if tag = hidLocalUsage then
    if p.locals.usages.length ≥ usbHidMaxUsages then .error (-e2big)
    else .ok { p with locals := { p.locals with
      usages := p.locals.usages ++
        [(hidUnsignedValue bytes % 2 ^ 16, hidLocalUsagePage (hidUnsignedValue bytes) bytes.length p.global.usagePage)] } }
  else if tag = hidLocalUsageMin then
    .ok { p with locals := { p.locals with
      usageMinimum := hidUnsignedValue bytes % 2 ^ 16
      usageMinimumPage := hidLocalUsagePage (hidUnsignedValue bytes) bytes.length p.global.usagePage
      hasUsageMinimum := true } }
  else if tag = hidLocalUsageMax then
    .ok { p with locals := { p.locals with
      usageMaximum := hidUnsignedValue bytes % 2 ^ 16
      usageMaximumPage := hidLocalUsagePage (hidUnsignedValue bytes) bytes.length p.global.usagePage
      hasUsageMaximum := true } }
  else .ok p

/-- The usage page and usage an application collection records. -/
def applicationOf (g : HidGlobal) (l : HidLocal) : Nat × Nat :=
  match l.usages with
  | (usage, page) :: _ => (page, usage)
  | [] => if l.hasUsageMinimum then (l.usageMinimumPage, l.usageMinimum) else (g.usagePage, 0)

/-- The switch on a main item's tag, before the local state is reset. -/
def hidMainSwitch (p : HidParser) (tag : Nat) (bytes : List UInt8) : Except Int HidParser :=
  if tag = hidMainInput then
    match hidAddInputField p.report p.global p.locals p.currentApplication (hidUnsignedValue bytes % 2 ^ 8) with
    | .error e => .error e
    | .ok report => .ok { p with report := report }
  else if tag = hidMainCollection then
    if p.openApplications.length ≥ hidCollectionSlots then .error (-e2big)
    else if hidUnsignedValue bytes % 2 ^ 8 = hidCollectionApplication then
      if p.report.applicationCount ≥ usbHidMaxApplications then .error (-e2big)
      else .ok { p with
        openApplications := p.currentApplication :: p.openApplications
        currentApplication := p.report.applicationCount
        report := { p.report with
          applications := p.report.applications ++ [applicationOf p.global p.locals]
          applicationCount := p.report.applicationCount + 1 } }
    else .ok { p with openApplications := p.currentApplication :: p.openApplications }
  else if tag = hidMainEndCollection then
    match p.openApplications with
    | [] => .error (-einval)
    | application :: rest => .ok { p with currentApplication := application, openApplications := rest }
  else .ok p

/-- A short item of the given type and tag with its data bytes. -/
def hidShortItem (p : HidParser) (type tag : Nat) (bytes : List UInt8) : Except Int HidParser :=
  if type = hidItemTypeGlobal then hidGlobalItem p tag bytes
  else if type = hidItemTypeLocal then hidLocalItem p tag bytes
  else if type ≠ hidItemTypeMain then .ok p
  else
    match hidMainSwitch p tag bytes with
    | .error e => .error e
    | .ok p => .ok { p with locals := HidLocal.zero }

/-- The bytes [off, off + n) of the descriptor. -/
def slice (descriptor : List UInt8) (off n : Nat) : List UInt8 := (descriptor.drop off).take n

/-- The data size of a short item: prefix & 3, where 3 means four bytes. -/
def itemSize (pre : UInt8) : Nat := if pre.toNat % 4 = 3 then 4 else pre.toNat % 4

/-- (prefix >> 2) & 3 and prefix >> 4. -/
def itemType (pre : UInt8) : Nat := pre.toNat / 4 % 4
def itemTag (pre : UInt8) : Nat := pre.toNat / 16

/-- One turn of the loop from offset: the offset after the item, and the
state it leaves. -/
def hidParseItem (descriptor : List UInt8) (offset : Nat) (p : HidParser) : Except Int (Nat × HidParser) :=
  if descriptor.getD offset 0 = 0xfe then
    -- a long item: bDataSize and bLongItemTag, then its data, skipped
    if descriptor.length - (offset + 1) < 2 then .error (-einval)
    else if (descriptor.getD (offset + 1) 0).toNat > descriptor.length - (offset + 3) then .error (-einval)
    else .ok (offset + 3 + (descriptor.getD (offset + 1) 0).toNat, p)
  else if itemSize (descriptor.getD offset 0) > descriptor.length - (offset + 1) then .error (-einval)
  else
    match hidShortItem p (itemType (descriptor.getD offset 0)) (itemTag (descriptor.getD offset 0))
        (slice descriptor (offset + 1) (itemSize (descriptor.getD offset 0))) with
    | .error e => .error e
    | .ok p' => .ok (offset + 1 + itemSize (descriptor.getD offset 0), p')

/-- while (offset < length), with fuel for the turns. -/
def hidParseLoop (descriptor : List UInt8) : Nat → Nat → HidParser → Except Int HidParser
  | 0, _, p => .ok p
  | fuel + 1, offset, p =>
    if offset < descriptor.length then
      match hidParseItem descriptor offset p with
      | .error e => .error e
      | .ok (offset', p') => hidParseLoop descriptor fuel offset' p'
    else .ok p

/-- usb_hid_parse_report_descriptor(descriptor, length, report): every item
takes at least one byte, so length turns are enough. -/
def usbHidParseReportDescriptor (descriptor : List UInt8) : Except Int HidReport :=
  match hidParseLoop descriptor descriptor.length 0 HidParser.init with
  | .error e => .error e
  | .ok p =>
    if p.openApplications ≠ [] ∨ p.saved ≠ [] then .error (-einval)
    else if p.report.fields = [] then .error (-einval)
    else .ok { p.report with applicationCount := if p.report.applicationCount = 0 then 1 else p.report.applicationCount }

/-! ## The layout of the fields -/

/-- The end of a field's bits. -/
def HidField.bitEnd (f : HidField) : Nat := f.bitOffset + f.reportSize * f.reportCount

/-- The fields of one report ID lie one after the other, each below that
report's bits, which fit in uint16_t. -/
structure LaidOut (report : HidReport) : Prop where
  below : ∀ f ∈ report.fields, f.bitEnd ≤ report.reportBits f.reportId
  ordered : report.fields.Pairwise fun f g => f.reportId = g.reportId → f.bitEnd ≤ g.bitOffset
  fits : ∀ id, report.reportBits id ≤ 0xffff

theorem laidOut_zero : LaidOut HidReport.zero :=
  ⟨fun _ h => absurd h List.not_mem_nil, List.Pairwise.nil, fun _ => Nat.zero_le _⟩

/-- A report with the same fields and bits is laid out the same. -/
theorem LaidOut.of_eq {report report' : HidReport} (h : LaidOut report) (hf : report'.fields = report.fields)
    (hb : report'.reportBits = report.reportBits) : LaidOut report' := by
  obtain ⟨below, ordered, fits⟩ := h
  exact ⟨hf ▸ hb ▸ below, hf ▸ ordered, hb ▸ fits⟩

section AddInput

variable {report report' : HidReport} {g : HidGlobal} {l : HidLocal} {application flags : Nat}

/-- An Input item moves its report's cursor by report_size * report_count,
and a field it records starts at the old cursor. -/
theorem LaidOut.hidAddInputField (h : LaidOut report)
    (hadd : hidAddInputField report g l application flags = .ok report') : LaidOut report' := by
  obtain ⟨below, ordered, fits⟩ := h
  unfold Hid.hidAddInputField at hadd
  split at hadd
  · cases hadd
  · next hfit =>
    -- the cursor of g.reportId moves, the others stay
    have hbits : ∀ id, Function.update report.reportBits g.reportId
        (report.reportBits g.reportId + g.reportSize * g.reportCount) id =
          if id = g.reportId then report.reportBits g.reportId + g.reportSize * g.reportCount
          else report.reportBits id := fun id => by
      by_cases hid : id = g.reportId
      · subst hid
        simp
      · simp [hid]
    have hgrow : ∀ id, report.reportBits id ≤ Function.update report.reportBits g.reportId
        (report.reportBits g.reportId + g.reportSize * g.reportCount) id := fun id => by
      rw [hbits]
      split
      · next hid =>
        subst hid
        omega
      · exact Nat.le_refl _
    have hfits : ∀ id, Function.update report.reportBits g.reportId
        (report.reportBits g.reportId + g.reportSize * g.reportCount) id ≤ 0xffff := fun id => by
      rw [hbits]
      split
      · omega
      · exact fits id
    split at hadd
    · split at hadd
      · cases hadd
      split at hadd
      · cases hadd
      · cases hadd
        refine ⟨fun f hf => ?_, ?_, hfits⟩
        · rcases List.mem_append.mp hf with hf | hf
          · exact Nat.le_trans (below f hf) (hgrow _)
          · rw [List.mem_singleton.mp hf]
            dsimp only [HidField.bitEnd]
            exact Nat.le_of_eq (by rw [hbits, if_pos rfl])
        · refine List.pairwise_append.mpr ⟨ordered, List.pairwise_singleton _ _, fun f hf f' hf' hid => ?_⟩
          rw [List.mem_singleton.mp hf'] at hid ⊢
          -- an earlier field of the same report ends below the old cursor
          have hend := below f hf
          rw [hid] at hend
          exact hend
    · cases hadd
      exact ⟨fun f hf => Nat.le_trans (below f hf) (hgrow _), ordered, hfits⟩

end AddInput

section Items

variable {p p' : HidParser} {tag type : Nat} {bytes : List UInt8}

/-- Global and local items leave the fields and the cursors alone. -/
theorem hidGlobalItem_report (h : hidGlobalItem p tag bytes = .ok p') :
    p'.report.fields = p.report.fields ∧ p'.report.reportBits = p.report.reportBits := by
  unfold hidGlobalItem at h
  repeat' split at h
  all_goals first
    | (cases h; exact ⟨rfl, rfl⟩)
    | cases h

theorem hidLocalItem_report (h : hidLocalItem p tag bytes = .ok p') : p'.report = p.report := by
  unfold hidLocalItem at h
  repeat' split at h
  all_goals first
    | (cases h; rfl)
    | cases h

theorem LaidOut.hidMainSwitch (hl : LaidOut p.report) (h : hidMainSwitch p tag bytes = .ok p') : LaidOut p'.report := by
  unfold Hid.hidMainSwitch at h
  split at h
  · split at h
    · cases h
    · next report hadd =>
      cases h
      exact hl.hidAddInputField hadd
  split at h
  · split at h
    · cases h
    split at h
    · split at h
      · cases h
      · cases h
        exact hl.of_eq rfl rfl
    · cases h
      exact hl
  split at h
  · split at h
    · cases h
    · cases h
      exact hl
  · cases h
    exact hl

theorem LaidOut.hidShortItem (hl : LaidOut p.report) (h : hidShortItem p type tag bytes = .ok p') : LaidOut p'.report := by
  unfold Hid.hidShortItem at h
  split at h
  · obtain ⟨hf, hb⟩ := hidGlobalItem_report h
    exact hl.of_eq hf hb
  split at h
  · rw [hidLocalItem_report h]
    exact hl
  split at h
  · cases h
    exact hl
  · split at h
    · cases h
    · next q hq =>
      cases h
      -- the reset of the local state leaves the report
      exact (hl.hidMainSwitch hq : LaidOut q.report)

end Items

/-- Every turn of the loop keeps the fields laid out, and so does the
whole loop. -/
theorem LaidOut.hidParseLoop (descriptor : List UInt8) :
    ∀ fuel offset (p p' : HidParser), LaidOut p.report → hidParseLoop descriptor fuel offset p = .ok p' →
      LaidOut p'.report
  | 0, _, p, p', hl, h => by
    cases h
    exact hl
  | fuel + 1, offset, p, p', hl, h => by
    rw [Uinxed.Hid.hidParseLoop] at h
    split at h
    · split at h
      · cases h
      · next offset' q hq =>
        refine LaidOut.hidParseLoop descriptor fuel offset' q p' ?_ h
        unfold hidParseItem at hq
        split at hq
        · split at hq
          · cases hq
          split at hq
          · cases hq
          · cases hq
            exact hl
        split at hq
        · cases hq
        · split at hq
          · cases hq
          · next r hr =>
            cases hq
            exact hl.hidShortItem hr
    · cases h
      exact hl

/-- In every report the parser accepts, the fields of one report ID lie
one after the other below that report's bits. -/
theorem laidOut_usbHidParseReportDescriptor {descriptor : List UInt8} {report : HidReport}
    (h : usbHidParseReportDescriptor descriptor = .ok report) : LaidOut report := by
  unfold usbHidParseReportDescriptor at h
  split at h
  · cases h
  · next p hp =>
    have hl := LaidOut.hidParseLoop descriptor _ 0 HidParser.init p laidOut_zero hp
    split at h
    · cases h
    split at h
    · cases h
    · cases h
      exact hl.of_eq rfl rfl

/-- A boot keyboard: eight modifier bits, a constant byte, and six key
slots of the keyboard page. -/
def bootKeyboardDescriptor : List UInt8 :=
  [0x05, 0x01, 0x09, 0x06, 0xa1, 0x01,
   0x05, 0x07, 0x19, 0xe0, 0x29, 0xe7, 0x15, 0x00, 0x25, 0x01, 0x75, 0x01, 0x95, 0x08, 0x81, 0x02,
   0x95, 0x01, 0x75, 0x08, 0x81, 0x01,
   0x95, 0x06, 0x75, 0x08, 0x15, 0x00, 0x25, 0x65, 0x05, 0x07, 0x19, 0x00, 0x29, 0x65, 0x81, 0x00,
   0xc0]

/-- The report the parser makes of it, or the empty one had it refused. -/
def bootKeyboardReport : HidReport :=
  match usbHidParseReportDescriptor bootKeyboardDescriptor with
  | .ok report => report
  | .error _ => HidReport.zero

/-- The boot keyboard's two data fields, the modifier bits at bit 0 and the
key slots at bit 16 past the constant byte, are accepted and laid out. -/
theorem laidOut_usbHidParseReportDescriptor_boot_keyboard :
    usbHidParseReportDescriptor bootKeyboardDescriptor = .ok bootKeyboardReport ∧ LaidOut bootKeyboardReport :=
  have h : usbHidParseReportDescriptor bootKeyboardDescriptor = .ok bootKeyboardReport := rfl
  ⟨h, laidOut_usbHidParseReportDescriptor h⟩

example : bootKeyboardReport.fields.map (fun f => (f.bitOffset, f.reportSize, f.reportCount)) =
    [(0, 1, 8), (16, 8, 6)] ∧ bootKeyboardReport.reportBits 0 = 64 := by
  decide

end Uinxed.Hid
